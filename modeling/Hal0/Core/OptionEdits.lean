import Hal0.Core.Options
import Mathlib.Data.List.Chain

/-!
# Dropping options and reading the line again

A tool which edits a command line drops some of its items and writes the
others back.  Two items which were apart may stand side by side then, and a
flag without a value takes a bare token after it.  `rejoin` is what such a
line is read as; it is the line as it was written exactly when no flag which
could take a value stands right before a bare token.

`sieve` drops elements of a list by what comes after them.  `filter` and
`lastWins` are sieves, and neighbours of a sieved list are the elements
between which nothing stays.
-/

namespace Hal0.Options

open List

variable {Token Element Key : Type}

/-! ## Sieves -/

section Sieve

/-- An element of `middle`, which stands before `later`, is not dropped. -/
def Stays (drop : Element → List Element → Prop)
    (middle later : List Element) : Prop :=
  ∃ left kept right, middle = left ++ kept :: right ∧
    ¬ drop kept (right ++ later)

variable (drop : Element → List Element → Prop)

theorem not_stays_nil (later : List Element) : ¬ Stays drop [] later := by
  rintro ⟨left, kept, right, same, -⟩
  simp at same

/-- One element stays, by what is after it. -/
theorem stays_cons (first : Element) (middle later : List Element) :
    Stays drop (first :: middle) later ↔
      ¬ drop first (middle ++ later) ∨ Stays drop middle later := by
  constructor
  · rintro ⟨left, kept, right, same, stays⟩
    cases left with
    | nil =>
      obtain ⟨rfl, rfl⟩ := List.cons.inj same
      exact .inl stays
    | cons head left =>
      obtain ⟨rfl, rfl⟩ := List.cons.inj same
      exact .inr ⟨left, kept, right, rfl, stays⟩
  · rintro (stays | ⟨left, kept, right, rfl, stays⟩)
    · exact ⟨[], first, middle, rfl, stays⟩
    · exact ⟨first :: left, kept, right, rfl, stays⟩

variable [∀ element rest, Decidable (drop element rest)]

/-- Drop elements by what comes after them. -/
def sieve : List Element → List Element
  | [] => []
  | element :: rest =>
    if drop element rest then sieve rest else element :: sieve rest

/-- The first element which stays. -/
theorem head?_sieve {items : List Element} {first : Element} :
    (sieve drop items).head? = some first ↔
      ∃ dropped after, items = dropped ++ first :: after ∧
        ¬ Stays drop dropped (first :: after) ∧ ¬ drop first after := by
  induction items with
  | nil =>
    constructor
    · intro isFirst
      cases isFirst
    · rintro ⟨dropped, after, same, -⟩
      simp at same
  | cons element rest later =>
    rw [sieve]
    by_cases dropsHere : drop element rest
    · rw [if_pos dropsHere, later]
      constructor
      · rintro ⟨dropped, after, rfl, nothing, stays⟩
        refine ⟨element :: dropped, after, rfl, ?_, stays⟩
        rw [stays_cons]
        rintro (here | there)
        · exact here dropsHere
        · exact nothing there
      · rintro ⟨dropped, after, same, nothing, stays⟩
        cases dropped with
        | nil =>
          obtain ⟨rfl, rfl⟩ := List.cons.inj same
          exact absurd dropsHere stays
        | cons head dropped =>
          obtain ⟨rfl, rfl⟩ := List.cons.inj same
          rw [stays_cons] at nothing
          exact ⟨dropped, after, rfl,
            fun there => nothing (.inr there), stays⟩
    · rw [if_neg dropsHere]
      constructor
      · intro isFirst
        obtain rfl : element = first := by simpa using isFirst
        exact ⟨[], rest, rfl, not_stays_nil drop _, dropsHere⟩
      · rintro ⟨dropped, after, same, nothing, stays⟩
        cases dropped with
        | nil =>
          obtain ⟨rfl, rfl⟩ := List.cons.inj same
          rfl
        | cons head dropped =>
          obtain ⟨rfl, rfl⟩ := List.cons.inj same
          rw [stays_cons] at nothing
          exact absurd (.inl dropsHere) nothing

/--
Neighbours of the sieved list: two elements which stay, with nothing between
them that does.
-/
theorem isChain_sieve_iff {related : Element → Element → Prop}
    {items : List Element} :
    (sieve drop items).IsChain related ↔
      ∀ before left middle right after,
        items = before ++ left :: (middle ++ right :: after) →
        ¬ drop left (middle ++ right :: after) →
        ¬ Stays drop middle (right :: after) → ¬ drop right after →
        related left right := by
  induction items with
  | nil =>
    constructor
    · intro chain before left middle right after same
      simp at same
    · intro all
      exact List.IsChain.nil
  | cons element rest later =>
    rw [sieve]
    by_cases dropsHere : drop element rest
    · rw [if_pos dropsHere, later]
      constructor
      · intro all before left middle right after same staysLeft
        cases before with
        | nil =>
          obtain ⟨rfl, rfl⟩ := List.cons.inj same
          exact absurd dropsHere staysLeft
        | cons head before =>
          obtain ⟨rfl, rfl⟩ := List.cons.inj same
          exact all before left middle right after rfl staysLeft
      · rintro all before left middle right after rfl
        exact all (element :: before) left middle right after rfl
    · rw [if_neg dropsHere, isChain_cons, later]
      constructor
      · rintro ⟨neighbour, all⟩ before left middle right after same
          staysLeft nothing staysRight
        cases before with
        | nil =>
          obtain ⟨rfl, rfl⟩ := List.cons.inj same
          apply neighbour
          exact (head?_sieve drop).mpr
            ⟨middle, after, rfl, nothing, staysRight⟩
        | cons head before =>
          obtain ⟨rfl, rfl⟩ := List.cons.inj same
          exact all before left middle right after rfl staysLeft nothing
            staysRight
      · intro all
        constructor
        · intro right isFirst
          obtain ⟨middle, after, rfl, nothing, staysRight⟩ :=
            (head?_sieve drop).mp isFirst
          exact all [] element middle right after rfl dropsHere nothing
            staysRight
        · rintro before left middle right after rfl
          exact all (element :: before) left middle right after rfl

omit [∀ element rest, Decidable (drop element rest)] in
theorem filter_eq_sieve (keep : Element → Bool) (items : List Element) :
    items.filter keep = sieve (fun item _ => keep item = false) items := by
  induction items with
  | nil => rfl
  | cons item rest later =>
    rw [sieve, ← later, filter_cons]
    cases keep item <;> rfl

end Sieve

/-! ## The sieve of `lastWins` -/

section LastWins

variable [DecidableEq Key]

/-- An item of `later` has the key of `item`. -/
def Superseded (key : Item Token → Option Key) (item : Item Token)
    (later : List (Item Token)) : Prop :=
  (key item).isSome ∧ ∃ other ∈ later, key other = key item

instance (key : Item Token → Option Key) (item : Item Token)
    (later : List (Item Token)) : Decidable (Superseded key item later) :=
  inferInstanceAs (Decidable (_ ∧ _))

theorem lastWins_eq_sieve (key : Item Token → Option Key)
    (items : List (Item Token)) :
    lastWins key items = sieve (Superseded key) items := by
  induction items with
  | nil => rfl
  | cons item rest later =>
    rw [sieve, lastWins, later]
    rfl

variable {key : Item Token → Option Key}

theorem lastWins_of_superseded {item : Item Token} {rest : List (Item Token)}
    (superseded : Superseded key item rest) :
    lastWins key (item :: rest) = lastWins key rest := by
  rw [lastWins]
  exact if_pos superseded

theorem lastWins_of_last {item : Item Token} {rest : List (Item Token)}
    (last : ¬ Superseded key item rest) :
    lastWins key (item :: rest) = item :: lastWins key rest := by
  rw [lastWins]
  exact if_neg last

/-- The items which `keep` accepts, and of these the last of each key. -/
theorem lastWins_filter_eq_sieve (key : Item Token → Option Key)
    (keep : Item Token → Bool) (items : List (Item Token)) :
    lastWins key (items.filter keep) =
      sieve (fun item rest =>
        keep item = false ∨ Superseded key item (rest.filter keep)) items := by
  induction items with
  | nil => rfl
  | cons item rest later =>
    rw [sieve, ← later]
    by_cases kept : keep item = true
    · rw [filter_cons, if_pos kept, lastWins]
      apply if_congr _ rfl rfl
      simp [kept, Superseded]
    · simp [kept]

omit [DecidableEq Key] in
theorem not_superseded_bare {token : Token}
    (keyless : key (.bare token) = none) (later : List (Item Token)) :
    ¬ Superseded key (.bare token) later := by
  rintro ⟨keyed, -⟩
  simp [keyless] at keyed

/-- No key is left twice. -/
theorem nodup_keys_lastWins (key : Item Token → Option Key)
    (items : List (Item Token)) :
    ((lastWins key items).filterMap key).Nodup := by
  induction items with
  | nil => exact nodup_nil
  | cons item rest later =>
    by_cases superseded : Superseded key item rest
    · rw [lastWins_of_superseded superseded]
      exact later
    · rw [lastWins_of_last superseded]
      cases isKey : key item with
      | none =>
        rw [filterMap_cons_none isKey]
        exact later
      | some found =>
        rw [filterMap_cons_some isKey, nodup_cons]
        refine ⟨?_, later⟩
        intro again
        obtain ⟨other, listed, same⟩ := mem_filterMap.mp again
        apply superseded
        refine ⟨by simp [isKey], other, ?_, same.trans isKey.symm⟩
        exact (lastWins_sublist key rest).mem listed

/-- Without repetition nothing is dropped. -/
theorem lastWins_of_nodup {items : List (Item Token)}
    (distinct : (items.filterMap key).Nodup) :
    lastWins key items = items := by
  induction items with
  | nil => rfl
  | cons item rest later =>
    cases isKey : key item with
    | none =>
      rw [filterMap_cons_none isKey] at distinct
      rw [lastWins_of_last fun superseded => by
        simp [Superseded, isKey] at superseded, later distinct]
    | some found =>
      rw [filterMap_cons_some isKey, nodup_cons] at distinct
      rw [lastWins_of_last, later distinct.2]
      rintro ⟨-, other, listed, same⟩
      apply distinct.1
      exact mem_filterMap.mpr ⟨other, listed, same.trans isKey⟩

/-- It is the same before and after a change. -/
theorem lastWins_map {Source : Type} {transform : Item Source → Item Token}
    (key : Item Token → Option Key) (items : List (Item Source)) :
    (lastWins (fun item => key (transform item)) items).map transform =
      lastWins key (items.map transform) := by
  induction items with
  | nil => rfl
  | cons item rest later =>
    have same : Superseded (fun item => key (transform item)) item rest ↔
        Superseded key (transform item) (rest.map transform) := by
      simp [Superseded]
    rw [map_cons]
    by_cases superseded :
        Superseded (fun item => key (transform item)) item rest
    · rw [lastWins_of_superseded superseded,
        lastWins_of_superseded (same.mp superseded), later]
    · rw [lastWins_of_last superseded,
        lastWins_of_last fun other => superseded (same.mpr other),
        map_cons, later]

theorem countP_lastWins (keyless : ∀ token, key (.bare token) = none)
    (items : List (Item Token)) :
    (lastWins key items).countP Item.isBare = items.countP Item.isBare := by
  induction items with
  | nil => rfl
  | cons item rest later =>
    by_cases superseded : Superseded key item rest
    · rw [lastWins_of_superseded superseded, later, countP_cons]
      cases item with
      | flag head value => rfl
      | bare token =>
        exact absurd superseded (not_superseded_bare (keyless token) rest)
    · rw [lastWins_of_last superseded, countP_cons, later, countP_cons]

end LastWins

/-- Equal tokens mean that all were kept. -/
theorem forall_keep_of_tokens {keep : Item Token → Bool}
    {items : List (Item Token)}
    (same : (items.filter keep).flatMap Item.tokens =
      items.flatMap Item.tokens) : ∀ item ∈ items, keep item = true := by
  have counted : ((items.filter keep).flatMap Item.tokens).length +
      (items.filter fun item => !keep item).length ≤
        (items.flatMap Item.tokens).length := by
    clear same
    induction items with
    | nil => exact Nat.le_refl _
    | cons item rest later =>
      have written : 1 ≤ item.tokens.length := by
        cases item with
        | flag head value => simp [Item.tokens]
        | bare token => exact Nat.le_refl _
      cases kept : keep item with
      | false =>
        simp only [filter_cons, kept, flatMap_cons,
          length_append, length_cons, Bool.not_false, if_true,
          Bool.false_eq_true, if_false]
        omega
      | true =>
        simp only [filter_cons, kept, flatMap_cons, length_append,
          Bool.not_true, if_true, Bool.false_eq_true, if_false]
        omega
  rw [same] at counted
  have nothing : (items.filter fun item => !keep item) = [] :=
    length_eq_zero_iff.mp (by omega)
  intro item listed
  simpa using filter_eq_nil_iff.mp nothing item listed

/-! ## Reading a line again -/

namespace Grammar

variable (grammar : Grammar Token)

/-- Items as they are read once they have been written next to each other. -/
def rejoin : List (Item Token) → List (Item Token)
  | .flag head none :: .bare token :: rest =>
    if grammar.takesValue head then
      .flag head (some token) :: rejoin rest
    else .flag head none :: .bare token :: rejoin rest
  | item :: rest => item :: rejoin rest
  | [] => []

/-- No flag which could take a value stands right before a bare token. -/
def Settled (items : List (Item Token)) : Prop :=
  items.IsChain fun left right =>
    grammar.Dangles left = true → right.isBare = false

variable {grammar}

/-- An item which takes nothing of the rest. -/
theorem rejoin_cons {item : Item Token} {rest : List (Item Token)}
    (apart : grammar.Dangles item = true →
      ∀ next, rest.head? = some next → next.isBare = false) :
    grammar.rejoin (item :: rest) = item :: grammar.rejoin rest := by
  cases item with
  | bare token => rfl
  | flag head value =>
    cases value with
    | some token => rfl
    | none =>
      cases rest with
      | nil => rfl
      | cons next rest =>
        cases next with
        | flag other value => rfl
        | bare token =>
          cases takes : grammar.takesValue head with
          | true =>
            have notBare := apart takes _ rfl
            cases notBare
          | false =>
            rw [rejoin, if_neg (by simp [takes])]
            rfl

theorem rejoin_dangling {head : Token}
    (takes : grammar.takesValue head = true) (token : Token)
    (rest : List (Item Token)) :
    grammar.rejoin (.flag head none :: .bare token :: rest) =
      .flag head (some token) :: grammar.rejoin rest := by
  rw [rejoin, if_pos takes]

/-- A dangling flag takes the token after it. -/
theorem rejoin_induction {motive : List (Item Token) → Prop}
    (grammar : Grammar Token) (nil : motive [])
    (joined : ∀ head token rest, grammar.takesValue head = true →
      motive rest → motive (.flag head none :: .bare token :: rest))
    (alone : ∀ item rest, (grammar.Dangles item = true →
      ∀ next, rest.head? = some next → next.isBare = false) →
      motive rest → motive (item :: rest)) :
    ∀ items, motive items
  | [] => nil
  | item :: rest => by
      by_cases apart : grammar.Dangles item = true →
          ∀ next, rest.head? = some next → next.isBare = false
      · exact alone item rest apart
          (rejoin_induction grammar nil joined alone rest)
      · obtain ⟨dangles, next, isNext, bare⟩ : grammar.Dangles item = true ∧
            ∃ next, rest.head? = some next ∧ next.isBare = true := by
          simpa using apart
        cases rest with
        | nil => cases isNext
        | cons first rest =>
          obtain rfl : first = next := by simpa using isNext
          cases first with
          | flag head value => cases bare
          | bare token =>
            cases item with
            | bare other => cases dangles
            | flag head value =>
              cases value with
              | some value => cases dangles
              | none =>
                exact joined head token rest dangles
                  (rejoin_induction grammar nil joined alone rest)
termination_by items => items.length

variable {items : List (Item Token)}

/-- The tokens of items are grouped by joining. -/
theorem group_flatMap (fits : ∀ item ∈ items, grammar.Fits item) :
    grammar.group (items.flatMap Item.tokens) = grammar.rejoin items := by
  induction items using grammar.rejoin_induction with
  | nil => rfl
  | joined head token rest takes later =>
    have isFlag : grammar.isFlag head = true :=
      (fits (.flag head none) mem_cons_self).1
    have isBare : grammar.isFlag token = false :=
      fits (.bare token) (mem_cons_of_mem _ mem_cons_self)
    rw [rejoin_dangling takes, ← later fun item listed =>
      fits item (mem_cons_of_mem _ (mem_cons_of_mem _ listed))]
    exact group_cons_value _ isFlag takes isBare
  | alone item rest apart later =>
    have fitsRest : ∀ other ∈ rest, grammar.Fits other :=
      fun other listed => fits other (mem_cons_of_mem _ listed)
    have itemFits := fits item mem_cons_self
    rw [rejoin_cons apart, ← later fitsRest]
    cases item with
    | bare token => exact group_cons_bare _ itemFits
    | flag head value =>
      cases value with
      | some value =>
        obtain ⟨takes, isValue⟩ := itemFits.2 value rfl
        exact group_cons_value _ itemFits.1 takes isValue
      | none =>
        apply group_cons_switch itemFits.1
        cases takes : grammar.takesValue head with
        | false => exact .inl rfl
        | true =>
          exact .inr (startsWithFlag_of_items fitsRest
            (apart takes))

theorem settled_cons {item : Item Token} {rest : List (Item Token)} :
    grammar.Settled (item :: rest) ↔
      (grammar.Dangles item = true →
        ∀ next, rest.head? = some next → next.isBare = false) ∧
        grammar.Settled rest := by
  rw [Settled, Settled, isChain_cons]
  apply and_congr_left'
  constructor
  · intro apart dangles next isNext
    exact apart next isNext dangles
  · intro apart next isNext dangles
    exact apart dangles next isNext

/-- No dropped items stood between flag and token. -/
theorem settled_sieve_iff (drop : Item Token → List (Item Token) → Prop)
    [∀ item rest, Decidable (drop item rest)] :
    grammar.Settled (sieve drop items) ↔
      ∀ before head middle token after,
        items = before ++ .flag head none ::
          (middle ++ .bare token :: after) →
        grammar.takesValue head = true →
        drop (.flag head none) (middle ++ .bare token :: after) ∨
          Stays drop middle (.bare token :: after) ∨
          drop (.bare token) after := by
  rw [Settled, isChain_sieve_iff]
  constructor
  · intro apart before head middle token after same takes
    by_contra neither
    rw [not_or, not_or] at neither
    obtain ⟨staysLeft, nothing, staysRight⟩ := neither
    have notBare :=
      apart before _ middle _ after same staysLeft nothing staysRight takes
    cases notBare
  · rintro apart before left middle right after same staysLeft nothing
      staysRight dangles
    cases right with
    | flag head value => rfl
    | bare token =>
      cases left with
      | bare other => cases dangles
      | flag head value =>
        cases value with
        | some value => cases dangles
        | none =>
          rcases apart before head middle token after same dangles with
            dropped | stays | dropped
          · exact absurd dropped staysLeft
          · exact absurd stays nothing
          · exact absurd dropped staysRight

theorem rejoin_of_settled
    (settled : grammar.Settled items) : grammar.rejoin items = items := by
  induction items with
  | nil => rfl
  | cons item rest later =>
    obtain ⟨apart, settledRest⟩ := settled_cons.mp settled
    rw [rejoin_cons apart, later settledRest]

theorem countP_rejoin_le (items : List (Item Token)) :
    (grammar.rejoin items).countP Item.isBare ≤
      items.countP Item.isBare := by
  induction items using grammar.rejoin_induction with
  | nil => exact Nat.le_refl _
  | joined head token rest takes later =>
    rw [rejoin_dangling takes]
    simp only [countP_cons, Item.isBare]
    simpa using Nat.le_succ_of_le later
  | alone item rest apart later =>
    rw [rejoin_cons apart, countP_cons, countP_cons]
    exact Nat.add_le_add_right later _

/-- No loose token has been taken. -/
theorem settled_of_countP
    (asMany : items.countP Item.isBare ≤
      (grammar.rejoin items).countP Item.isBare) :
    grammar.Settled items := by
  induction items using grammar.rejoin_induction with
  | nil => exact List.IsChain.nil
  | joined head token rest takes later =>
    rw [rejoin_dangling takes] at asMany
    simp only [countP_cons, Item.isBare] at asMany
    have fewer : (grammar.rejoin rest).countP Item.isBare ≤
        rest.countP Item.isBare := countP_rejoin_le rest
    simp at asMany
    omega
  | alone item rest apart later =>
    rw [rejoin_cons apart, countP_cons, countP_cons] at asMany
    exact settled_cons.mpr ⟨apart, later (Nat.le_of_add_le_add_right asMany)⟩

theorem rejoin_eq_self_iff :
    grammar.rejoin items = items ↔ grammar.Settled items := by
  constructor
  · intro same
    apply settled_of_countP
    rw [same]
  · exact rejoin_of_settled

/-- Joining makes no new flag. -/
theorem head_of_mem_rejoin {head : Token} {value : Option Token}
    (listed : Item.flag head value ∈ grammar.rejoin items) :
    ∃ before, Item.flag head before ∈ items := by
  induction items using grammar.rejoin_induction with
  | nil => cases listed
  | joined other token rest takes later =>
    rw [rejoin_dangling takes] at listed
    rcases mem_cons.mp listed with here | inRest
    · cases here
      exact ⟨none, mem_cons_self⟩
    · obtain ⟨before, found⟩ := later inRest
      exact ⟨before,
        mem_cons_of_mem _ (mem_cons_of_mem _ found)⟩
  | alone item rest apart later =>
    rw [rejoin_cons apart] at listed
    rcases mem_cons.mp listed with here | inRest
    · exact ⟨value, here ▸ mem_cons_self⟩
    · obtain ⟨before, found⟩ := later inRest
      exact ⟨before, mem_cons_of_mem _ found⟩

/--
Only a flag which takes the bare token after it can be new in the line which
is read again.
-/
theorem forall_mem_rejoin {allowed : Item Token → Prop}
    (before : ∀ item ∈ items, allowed item) :
    (∀ item ∈ grammar.rejoin items, allowed item) ↔
      items.IsChain fun left right =>
        ∀ head token, left = .flag head none → right = .bare token →
          grammar.takesValue head = true →
            allowed (.flag head (some token)) := by
  induction items using grammar.rejoin_induction with
  | nil => simp [rejoin]
  | joined head token rest takes later =>
    have rest := later fun item listed =>
      before item (mem_cons_of_mem _ (mem_cons_of_mem _ listed))
    rw [rejoin_dangling takes, forall_mem_cons, rest,
      isChain_cons_cons, isChain_cons]
    constructor
    · rintro ⟨here, chain⟩
      refine ⟨?_, ?_, chain⟩
      · intro other value sameHead sameToken _
        cases sameHead
        cases sameToken
        exact here
      · intro next _ other value sameHead
        cases sameHead
    · rintro ⟨here, -, chain⟩
      exact ⟨here head token rfl rfl takes, chain⟩
  | alone item rest apart later =>
    have rest := later fun other listed =>
      before other (mem_cons_of_mem _ listed)
    rw [rejoin_cons apart, forall_mem_cons, rest, isChain_cons]
    constructor
    · rintro ⟨-, chain⟩
      refine ⟨?_, chain⟩
      rintro next isNext head token rfl rfl takes
      have notBare := apart takes _ isNext
      cases notBare
    · rintro ⟨-, chain⟩
      exact ⟨before item mem_cons_self, chain⟩

end Grammar

end Hal0.Options
