import Mathlib.Data.List.Basic
import Mathlib.Data.List.Pairwise

/-!
# Command lines of options

A command line is a list of tokens, some of which are flags.  A flag takes the
next token as its value when it may have one and the token is not a flag
itself; all other tokens stand alone.  `group` reads a command line as a list
of items, and `Item.tokens` writes an item back.

Writing a list of items and reading it again joins a flag which has no value
with a bare token after it.  `filter_group_flatMap` says that this is all that
can change.  `lastWins` keeps the last item of each key.
-/

namespace Hal0.Options

open List

/-- Which tokens are flags, and which take a value. -/
structure Grammar (Token : Type) where
  isFlag : Token → Bool
  takesValue : Token → Bool

/-- A flag with its value, or another token. -/
inductive Item (Token : Type) where
  | flag (head : Token) (value : Option Token)
  | bare (token : Token)
deriving DecidableEq

variable {Token Source Key : Type}

namespace Item

/-- The tokens of an item. -/
def tokens : Item Token → List Token
  | .flag head value => head :: value.toList
  | .bare token => [token]

def map (transform : Source → Token) : Item Source → Item Token
  | .flag head value => .flag (transform head) (value.map transform)
  | .bare token => .bare (transform token)

/-- The token that an item begins with. -/
def first : Item Token → Token
  | .flag head _ => head
  | .bare token => token

def isBare : Item Token → Bool
  | .flag _ _ => false
  | .bare _ => true

/-- The item is a flag which `keep` accepts. -/
def keptFlag (keep : Token → Bool) : Item Token → Bool
  | .flag head _ => keep head
  | .bare _ => false

@[simp]
theorem first_map (transform : Source → Token) (item : Item Source) :
    (item.map transform).first = transform item.first := by
  cases item <;> rfl

end Item

namespace Grammar

/-- The same grammar for tokens which carry more. -/
def comap (grammar : Grammar Token) (project : Source → Token) :
    Grammar Source where
  isFlag := fun token => grammar.isFlag (project token)
  takesValue := fun token => grammar.takesValue (project token)

variable (grammar : Grammar Token)

/-- Read a command line. -/
def group : List Token → List (Item Token)
  | [] => []
  | [token] =>
    [if grammar.isFlag token then .flag token none else .bare token]
  | token :: next :: rest =>
    if grammar.isFlag token then
      if grammar.takesValue token && !grammar.isFlag next then
        .flag token (some next) :: group rest
      else .flag token none :: group (next :: rest)
    else .bare token :: group (next :: rest)

/-- An item which the grammar can read. -/
def Fits : Item Token → Prop
  | .flag head value => grammar.isFlag head = true ∧
      ∀ token, value = some token →
        grammar.takesValue head = true ∧ grammar.isFlag token = false
  | .bare token => grammar.isFlag token = false

/-- A flag whose value is missing. -/
def Dangles : Item Token → Bool
  | .flag head none => grammar.takesValue head
  | _ => false

/-- The line is empty or begins with a flag. -/
def StartsWithFlag (line : List Token) : Prop :=
  ∀ token, line.head? = some token → grammar.isFlag token = true

variable {grammar}

/-! ## Reading a line -/

variable {token : Token}

theorem group_cons_bare (line : List Token)
    (isBare : grammar.isFlag token = false) :
    grammar.group (token :: line) = .bare token :: grammar.group line := by
  cases line with
  | nil => simp [group, isBare]
  | cons next rest => simp [group, isBare]

theorem group_cons_value {head value : Token} (line : List Token)
    (isFlag : grammar.isFlag head = true)
    (takes : grammar.takesValue head = true)
    (isValue : grammar.isFlag value = false) :
    grammar.group (head :: value :: line) =
      .flag head (some value) :: grammar.group line := by
  simp [group, isFlag, takes, isValue]

variable {line : List Token}

theorem group_cons_switch {head : Token} (isFlag : grammar.isFlag head = true)
    (alone : grammar.takesValue head = false ∨ grammar.StartsWithFlag line) :
    grammar.group (head :: line) = .flag head none :: grammar.group line := by
  cases line with
  | nil => simp [group, isFlag]
  | cons next rest =>
    have none : (grammar.takesValue head && !grammar.isFlag next) =
        false := by
      rcases alone with switch | starts
      · simp [switch]
      · simp [starts next rfl]
    simp [group, isFlag, none]

/-- The ways in which a line begins. -/
theorem group_cases (grammar : Grammar Token) (token : Token)
    (line : List Token) :
    (grammar.isFlag token = false ∧
      grammar.group (token :: line) = .bare token :: grammar.group line) ∨
    (∃ value rest, line = value :: rest ∧ grammar.isFlag token = true ∧
      grammar.takesValue token = true ∧ grammar.isFlag value = false ∧
      grammar.group (token :: line) =
        .flag token (some value) :: grammar.group rest) ∨
    (grammar.isFlag token = true ∧
      (grammar.takesValue token = false ∨ grammar.StartsWithFlag line) ∧
      grammar.group (token :: line) =
        .flag token none :: grammar.group line) := by
  cases isFlag : grammar.isFlag token with
  | false => exact .inl ⟨rfl, group_cons_bare line isFlag⟩
  | true =>
    refine .inr ?_
    by_cases alone : grammar.takesValue token = false ∨
        grammar.StartsWithFlag line
    · exact .inr ⟨rfl, alone, group_cons_switch isFlag alone⟩
    · obtain ⟨takes, notStarts⟩ := not_or.mp alone
      have takes : grammar.takesValue token = true := by simpa using takes
      cases line with
      | nil =>
        exact absurd (by intro other none; cases none) notStarts
      | cons value rest =>
        cases isValue : grammar.isFlag value with
        | true =>
          refine absurd ?_ notStarts
          intro other same
          cases same
          exact isValue
        | false =>
          exact .inl ⟨value, rest, rfl, rfl, takes, isValue,
            group_cons_value rest isFlag takes isValue⟩

theorem group_induction {motive : List Token → Prop} (grammar : Grammar Token)
    (nil : motive [])
    (bare : ∀ token line, grammar.isFlag token = false →
      grammar.group (token :: line) = .bare token :: grammar.group line →
        motive line → motive (token :: line))
    (valued : ∀ head value line, grammar.isFlag head = true →
      grammar.takesValue head = true → grammar.isFlag value = false →
      grammar.group (head :: value :: line) =
        .flag head (some value) :: grammar.group line →
        motive line → motive (head :: value :: line))
    (switch : ∀ head line, grammar.isFlag head = true →
      (grammar.takesValue head = false ∨ grammar.StartsWithFlag line) →
      grammar.group (head :: line) =
        .flag head none :: grammar.group line →
        motive line → motive (head :: line)) :
    ∀ line, motive line
  | [] => nil
  | token :: line => by
      rcases grammar.group_cases token line with
        ⟨isBare, read⟩ | ⟨value, rest, rfl, isFlag, takes, isValue, read⟩ |
        ⟨isFlag, alone, read⟩
      · exact bare token line isBare read
          (group_induction grammar nil bare valued switch line)
      · exact valued token value rest isFlag takes isValue read
          (group_induction grammar nil bare valued switch rest)
      · exact switch token line isFlag alone read
          (group_induction grammar nil bare valued switch line)
termination_by line => line.length

variable {item : Item Token}

/-- Grouped items are of the grammar. -/
theorem fits_of_mem_group
    (listed : item ∈ grammar.group line) : grammar.Fits item := by
  induction line using grammar.group_induction with
  | nil => simp [group] at listed
  | bare token line isBare read later =>
    rw [read] at listed
    rcases mem_cons.mp listed with rfl | rest
    · exact isBare
    · exact later rest
  | valued head value line isFlag takes isValue read later =>
    rw [read] at listed
    rcases mem_cons.mp listed with rfl | rest
    · refine ⟨isFlag, ?_⟩
      rintro token same
      cases same
      exact ⟨takes, isValue⟩
    · exact later rest
  | switch head line isFlag alone read later =>
    rw [read] at listed
    rcases mem_cons.mp listed with rfl | rest
    · exact ⟨isFlag, by simp⟩
    · exact later rest

theorem Fits.eq_flag (fits : grammar.Fits item) (listed : token ∈ item.tokens)
    (isFlag : grammar.isFlag token = true) :
    ∃ value, item = .flag token value := by
  cases item with
  | bare other =>
    obtain rfl : token = other := by simpa [Item.tokens] using listed
    have isBare : grammar.isFlag token = false := fits
    simp [isFlag] at isBare
  | flag head value =>
    rcases mem_cons.mp listed with rfl | isValue
    · exact ⟨value, rfl⟩
    · have notFlag := (fits.2 token (by simpa using isValue)).2
      simp [isFlag] at notFlag

/-- An item begins with a token of the line. -/
theorem first_mem_of_mem_group
    (listed : item ∈ grammar.group line) : item.first ∈ line := by
  induction line using grammar.group_induction with
  | nil => simp [group] at listed
  | bare token line isBare read later =>
    rw [read] at listed
    rcases mem_cons.mp listed with rfl | rest
    · exact mem_cons_self
    · exact mem_cons_of_mem _ (later rest)
  | valued head value line isFlag takes isValue read later =>
    rw [read] at listed
    rcases mem_cons.mp listed with rfl | rest
    · exact mem_cons_self
    · exact mem_cons_of_mem _ (mem_cons_of_mem _ (later rest))
  | switch head line isFlag alone read later =>
    rw [read] at listed
    rcases mem_cons.mp listed with rfl | rest
    · exact mem_cons_self
    · exact mem_cons_of_mem _ (later rest)

/-- Every flag of the line heads an item. -/
theorem exists_of_mem_line (listed : token ∈ line)
    (isFlag : grammar.isFlag token = true) :
    ∃ value, Item.flag token value ∈ grammar.group line := by
  induction line using grammar.group_induction with
  | nil => cases listed
  | bare other line isBare read later =>
    rw [read]
    rcases mem_cons.mp listed with rfl | rest
    · simp [isBare] at isFlag
    · obtain ⟨value, found⟩ := later rest
      exact ⟨value, mem_cons_of_mem _ found⟩
  | valued head value line headIsFlag takes isValue read later =>
    rw [read]
    rcases mem_cons.mp listed with rfl | rest
    · exact ⟨_, mem_cons_self⟩
    · rcases mem_cons.mp rest with rfl | rest
      · simp [isValue] at isFlag
      · obtain ⟨value, found⟩ := later rest
        exact ⟨value, mem_cons_of_mem _ found⟩
  | switch head line headIsFlag alone read later =>
    rw [read]
    rcases mem_cons.mp listed with rfl | rest
    · exact ⟨_, mem_cons_self⟩
    · obtain ⟨value, found⟩ := later rest
      exact ⟨value, mem_cons_of_mem _ found⟩

theorem flatMap_tokens_group (grammar : Grammar Token) (line : List Token) :
    (grammar.group line).flatMap Item.tokens = line := by
  induction line using grammar.group_induction with
  | nil => rfl
  | bare token line isBare read later => simp [read, later, Item.tokens]
  | valued head value line isFlag takes isValue read later =>
    simp [read, later, Item.tokens]
  | switch head line isFlag alone read later =>
    simp [read, later, Item.tokens]

/-- No flag at the end of the line takes the first of the later tokens. -/
def Apart (grammar : Grammar Token) (line later : List Token) : Prop :=
  ∀ head value, line.getLast? = some head → later.head? = some value →
    grammar.isFlag head = true → grammar.takesValue head = true →
      grammar.isFlag value = true

variable {later : List Token}

theorem StartsWithFlag.apart (starts : grammar.StartsWithFlag later)
    (line : List Token) :
    grammar.Apart line later :=
  fun _ value _ isFirst _ _ => starts value isFirst

theorem Apart.of_append (before : List Token)
    (apart : grammar.Apart (before ++ line) later) :
    grammar.Apart line later := by
  intro head value isLast
  exact apart head value (by simp [getLast?_append, isLast])

/-- A line which ends before the later one. -/
theorem group_append (apart : grammar.Apart line later) :
    grammar.group (line ++ later) =
      grammar.group line ++ grammar.group later := by
  induction line using grammar.group_induction with
  | nil => rfl
  | bare token line isBare read rest =>
    have restApart := Apart.of_append [token] apart
    rw [cons_append, group_cons_bare _ isBare, read, rest restApart]
    rfl
  | valued head value line isFlag takes isValue read rest =>
    have restApart := Apart.of_append [head, value] apart
    rw [cons_append, cons_append,
      group_cons_value _ isFlag takes isValue, read, rest restApart]
    rfl
  | switch head line isFlag alone read rest =>
    have restApart := Apart.of_append [head] apart
    have stillAlone : grammar.takesValue head = false ∨
        grammar.StartsWithFlag (line ++ later) := by
      rcases alone with noValue | lineStarts
      · exact .inl noValue
      · cases takes : grammar.takesValue head with
        | false => exact .inl rfl
        | true =>
          right
          intro token isFirst
          cases line with
          | nil => exact apart head token rfl isFirst isFlag takes
          | cons next rest => exact lineStarts token isFirst
    rw [cons_append, group_cons_switch isFlag stillAlone, read,
      rest restApart]
    rfl

/--
A line of flags which `keep` does not accept, before other tokens, can only
take a bare token from them.
-/
theorem filter_group_append {keep : Token → Bool}
    (dropped : ∀ item ∈ grammar.group line,
      item.isBare = false ∧ item.keptFlag keep = false) (later : List Token) :
    ((grammar.group (line ++ later)).filter (Item.keptFlag keep) =
      (grammar.group later).filter (Item.keptFlag keep)) ∧
    List.Sublist
      ((grammar.group (line ++ later)).filter fun item =>
        item.isBare || item.keptFlag keep)
      ((grammar.group later).filter fun item =>
        item.isBare || item.keptFlag keep) := by
  induction line using grammar.group_induction with
  | nil => exact ⟨rfl, List.Sublist.refl _⟩
  | bare first line isBare read rest =>
    have isFlag := (dropped (.bare first) (by rw [read]; simp)).1
    cases isFlag
  | valued head value line isFlag takes isValue read rest =>
    rw [read] at dropped
    have unkept : keep head = false := (dropped _ mem_cons_self).2
    rw [cons_append, cons_append, group_cons_value _ isFlag takes isValue]
    simpa [Item.isBare, Item.keptFlag, unkept] using
      rest fun item inLine => dropped item (mem_cons_of_mem _ inLine)
  | switch head line isFlag alone read rest =>
    rw [read] at dropped
    have unkept : keep head = false := (dropped _ mem_cons_self).2
    obtain ⟨same, fewer⟩ := rest fun item inLine =>
      dropped item (mem_cons_of_mem _ inLine)
    rcases grammar.group_cases head (line ++ later) with
      ⟨isBare, -⟩ | ⟨value, others, split, -, takes, isValue, joined⟩ |
      ⟨-, -, apart⟩
    · simp [isFlag] at isBare
    · rw [split, group_cons_bare _ isValue] at same fewer
      rw [cons_append, joined]
      refine ⟨by simpa [Item.keptFlag, unkept] using same, ?_⟩
      refine List.Sublist.trans ?_ fewer
      simp [Item.isBare, Item.keptFlag, unkept]
    · rw [cons_append, apart]
      refine ⟨by simpa [Item.keptFlag, unkept] using same, ?_⟩
      simpa [Item.isBare, Item.keptFlag, unkept] using fewer

theorem bare_mem_group_append
    (flags : ∀ item ∈ grammar.group line, item.isBare = false)
    (listed : Item.bare token ∈ grammar.group (line ++ later)) :
    Item.bare token ∈ grammar.group later := by
  have nothing : ∀ item : Item Token,
      item.keptFlag (fun _ => false) = false := by
    intro item
    cases item <;> rfl
  have fewer := (filter_group_append
    (fun item inLine => ⟨flags item inLine, nothing item⟩) later).2
  have kept := fewer.subset (mem_filter.mpr ⟨listed, by rfl⟩)
  exact (mem_filter.mp kept).1

/-- Grouping sees only what the grammar asks. -/
theorem group_map (grammar : Grammar Token) (project : Source → Token)
    (line : List Source) :
    grammar.group (line.map project) =
      ((grammar.comap project).group line).map (Item.map project) := by
  induction line using (grammar.comap project).group_induction with
  | nil => rfl
  | bare token line isBare read later =>
    have isBare : grammar.isFlag (project token) = false := isBare
    rw [map_cons, group_cons_bare _ isBare, later, read]
    rfl
  | valued head value line isFlag takes isValue read later =>
    have isFlag : grammar.isFlag (project head) = true := isFlag
    have takes : grammar.takesValue (project head) = true := takes
    have isValue : grammar.isFlag (project value) = false := isValue
    rw [map_cons, map_cons,
      group_cons_value _ isFlag takes isValue, later, read]
    rfl
  | switch head line isFlag alone read later =>
    have isFlag : grammar.isFlag (project head) = true := isFlag
    have alone : grammar.takesValue (project head) = false ∨
        grammar.StartsWithFlag (line.map project) := by
      rcases alone with noValue | starts
      · exact .inl noValue
      · right
        intro token isFirst
        rw [head?_map] at isFirst
        obtain ⟨source, isSource, rfl⟩ := Option.map_eq_some_iff.mp isFirst
        exact starts source isSource
    rw [map_cons, group_cons_switch isFlag alone, later, read]
    rfl

/-- A token of a joined line, in its source. -/
theorem split_of_flatMap_eq {lines : Source → List Token} :
    ∀ {sources : List Source} {left right : List Token},
      sources.flatMap lines = left ++ token :: right →
      ∃ before source after inner outer,
        sources = before ++ source :: after ∧
        lines source = inner ++ token :: outer ∧
        right = outer ++ after.flatMap lines
  | [], left, right, whole => by simp at whole
  | source :: rest, left, right, whole => by
      rw [flatMap_cons] at whole
      rcases append_eq_append_iff.mp whole with
        ⟨inner, rfl, later⟩ | ⟨inner, here, later⟩
      · obtain ⟨before, other, after, start, outer, rfl, found, remains⟩ :=
          split_of_flatMap_eq later
        exact ⟨source :: before, other, after, start, outer, rfl, found,
          remains⟩
      · cases inner with
        | nil =>
          have later : rest.flatMap lines = [] ++ token :: right :=
            later.symm
          obtain ⟨before, other, after, start, outer, rfl, found,
            remains⟩ := split_of_flatMap_eq later
          exact ⟨source :: before, other, after, start, outer, rfl, found,
            remains⟩
        | cons first outer =>
          obtain ⟨rfl, rfl⟩ := List.cons.inj later
          exact ⟨[], source, rest, left, outer, rfl, here, rfl⟩

/-! ## Writing and reading again -/

theorem startsWithFlag_of_items {items : List (Item Token)}
    (fits : ∀ item ∈ items, grammar.Fits item)
    (notBare : ∀ item, items.head? = some item → item.isBare = false) :
    grammar.StartsWithFlag (items.flatMap Item.tokens) := by
  intro token isFirst
  cases items with
  | nil => cases isFirst
  | cons item rest =>
    cases item with
    | flag head value =>
      cases isFirst
      exact (fits _ mem_cons_self).1
    | bare other => exact absurd (notBare _ rfl) (by simp [Item.isBare])

/--
The flags which `keep` accepts are read back as they were written, when none
of them could take a bare token which comes later.
-/
theorem filter_group_flatMap {keep : Token → Bool} :
    ∀ {items : List (Item Token)}, (∀ item ∈ items, grammar.Fits item) →
      items.Pairwise (fun left right =>
        grammar.Dangles left = true → left.keptFlag keep = true →
          right.isBare = false) →
      (grammar.group (items.flatMap Item.tokens)).filter
          (Item.keptFlag keep) =
        items.filter (Item.keptFlag keep)
  | [], _, _ => rfl
  | .bare token :: rest, fits, apart => by
      have later := filter_group_flatMap
        (fun item listed => fits item (mem_cons_of_mem _ listed))
        (List.Pairwise.of_cons apart)
      have isBare : grammar.isFlag token = false := fits _ mem_cons_self
      simp only [flatMap_cons, Item.tokens, singleton_append]
      rw [group_cons_bare _ isBare]
      simpa [Item.keptFlag] using later
  | .flag head (some value) :: rest, fits, apart => by
      have later := filter_group_flatMap
        (fun item listed => fits item (mem_cons_of_mem _ listed))
        (List.Pairwise.of_cons apart)
      obtain ⟨isFlag, valued⟩ := fits _ mem_cons_self
      obtain ⟨takes, isValue⟩ := valued value rfl
      simp only [flatMap_cons, Item.tokens, Option.toList_some,
        cons_append, nil_append]
      rw [group_cons_value _ isFlag takes isValue, filter_cons,
        filter_cons, later]
  | .flag head none :: [], fits, _ => by
      have isFlag : grammar.isFlag head = true := (fits _ mem_cons_self).1
      simp [Item.tokens, group, isFlag]
  | .flag head none :: .flag other value :: rest, fits, apart => by
      have fitsLater : ∀ item ∈ Item.flag other value :: rest,
          grammar.Fits item :=
        fun item listed => fits item (mem_cons_of_mem _ listed)
      have later := filter_group_flatMap fitsLater (List.Pairwise.of_cons apart)
      have isFlag : grammar.isFlag head = true := (fits _ mem_cons_self).1
      have starts := startsWithFlag_of_items fitsLater (by
        intro item same
        cases same
        rfl)
      rw [flatMap_cons, filter_cons, ← later]
      simp only [Item.tokens, Option.toList_none, singleton_append]
      rw [group_cons_switch isFlag (.inr starts), filter_cons]
  | .flag head none :: .bare token :: rest, fits, apart => by
      have later := filter_group_flatMap
        (fun item listed => fits item
          (mem_cons_of_mem _ (mem_cons_of_mem _ listed)))
        (List.Pairwise.of_cons (List.Pairwise.of_cons apart))
      have isFlag : grammar.isFlag head = true := (fits _ mem_cons_self).1
      have isBare : grammar.isFlag token = false :=
        fits (.bare token) (by simp)
      simp only [flatMap_cons, Item.tokens, Option.toList_none,
        singleton_append]
      cases takes : grammar.takesValue head with
      | true =>
        have dropped : keep head = false := by
          cases kept : keep head with
          | false => rfl
          | true =>
            have notBare := rel_of_pairwise_cons apart
              mem_cons_self takes kept
            cases notBare
        rw [group_cons_value _ isFlag takes isBare]
        simpa [Item.keptFlag, dropped] using later
      | false =>
        rw [group_cons_switch isFlag (.inl takes), group_cons_bare _ isBare]
        simp only [filter_cons, Item.keptFlag, later]
        rfl

end Grammar

/-! ## The last item of each key -/

variable [DecidableEq Key]

/-- Keep the items without a key, and the last item of each key. -/
def lastWins (key : Item Token → Option Key) :
    List (Item Token) → List (Item Token)
  | [] => []
  | item :: rest =>
    if (key item).isSome ∧ ∃ later ∈ rest, key later = key item then
      lastWins key rest
    else item :: lastWins key rest

theorem lastWins_sublist (key : Item Token → Option Key) :
    ∀ items : List (Item Token), (lastWins key items).Sublist items
  | [] => List.Sublist.slnil
  | item :: rest => by
      rw [lastWins]
      split
      · exact (lastWins_sublist key rest).cons _
      · exact (lastWins_sublist key rest).cons_cons _

variable {key : Item Token → Option Key}

/-- A choice which depends on the key commutes with `lastWins`. -/
theorem filter_lastWins {keep : Item Token → Bool}
    (closed : ∀ left right, (key left).isSome → key left = key right →
      keep left = keep right) :
    ∀ items : List (Item Token),
      (lastWins key items).filter keep = lastWins key (items.filter keep)
  | [] => rfl
  | item :: rest => by
      have later := filter_lastWins closed rest
      cases kept : keep item with
      | false =>
        rw [filter_cons, if_neg (by simp [kept]), ← later, lastWins]
        split
        · rfl
        · rw [filter_cons, if_neg (by simp [kept])]
      | true =>
        have same : ((key item).isSome ∧
              ∃ other ∈ rest, key other = key item) ↔
            (key item).isSome ∧
              ∃ other ∈ rest.filter keep, key other = key item := by
          refine and_congr_right fun keyed => ?_
          constructor
          · rintro ⟨other, listed, sameKey⟩
            have alsoKept := closed item other keyed sameKey.symm
            exact ⟨other, mem_filter.mpr
              ⟨listed, alsoKept ▸ kept⟩, sameKey⟩
          · rintro ⟨other, listed, sameKey⟩
            exact ⟨other, (mem_filter.mp listed).1, sameKey⟩
        rw [filter_cons, if_pos kept, lastWins, lastWins]
        by_cases dropped : (key item).isSome ∧
            ∃ other ∈ rest, key other = key item
        · rw [if_pos dropped, if_pos (same.mp dropped), later]
        · rw [if_neg dropped, if_neg fun other => dropped (same.mpr other),
            filter_cons, if_pos kept, later]

theorem split_of_mem_lastWins {item : Item Token} (keyed : (key item).isSome) :
    ∀ {items : List (Item Token)}, item ∈ lastWins key items →
      ∃ before after, items = before ++ item :: after ∧
        ∀ later ∈ after, key later ≠ key item
  | [], listed => by simp [lastWins] at listed
  | first :: rest, listed => by
      rw [lastWins] at listed
      split at listed
      · obtain ⟨before, after, rfl, last⟩ :=
          split_of_mem_lastWins keyed listed
        exact ⟨first :: before, after, rfl, last⟩
      · next stays =>
          rcases mem_cons.mp listed with rfl | later
          · refine ⟨[], rest, rfl, ?_⟩
            intro later inRest same
            exact stays ⟨keyed, later, inRest, same⟩
          · obtain ⟨before, after, rfl, last⟩ :=
              split_of_mem_lastWins keyed later
            exact ⟨first :: before, after, rfl, last⟩

theorem exists_mem_lastWins {item : Item Token} :
    ∀ {items : List (Item Token)}, item ∈ items →
      ∃ winner ∈ lastWins key items, key winner = key item
  | [], listed => by cases listed
  | first :: rest, listed => by
      rw [lastWins]
      split
      · next dropped =>
          obtain ⟨-, later, inRest, same⟩ := dropped
          rcases mem_cons.mp listed with rfl | rest
          · obtain ⟨winner, wins, sameKey⟩ := exists_mem_lastWins inRest
            exact ⟨winner, wins, sameKey.trans same⟩
          · exact exists_mem_lastWins rest
      · rcases mem_cons.mp listed with rfl | rest
        · exact ⟨item, mem_cons_self, rfl⟩
        · obtain ⟨winner, wins, sameKey⟩ := exists_mem_lastWins rest
          exact ⟨winner, mem_cons_of_mem _ wins, sameKey⟩

end Hal0.Options
