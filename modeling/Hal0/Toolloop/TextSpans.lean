import Hal0.Toolloop.PatternFacts
import Hal0.Toolloop.TextCalls

/-!
# The stretches which are cut out of a reply

A span taken in one pass begins outside those taken before.  It may still
begin before one of them and reach over it; where none does, the spans lie
apart, each call has a region of its own inside one of them, and the reply
loses the spans and nothing else.
-/

namespace Hal0.Toolloop

open Nat
open List
open Hal0.Scan

/-! ## Attribute-style XML -/

variable {text : Text}

theorem mem_searchFrom {α : Type} {pattern : Pattern Char α} {position : Nat}
    {found : Match α}
    (isFirst : searchFrom pattern position text = some found) :
    found ∈ finditerFrom pattern position 0 (text.drop position) :=
  mem_of_mem_head? isFirst

theorem searchFrom_bounds {α : Type} {pattern : Pattern Char α}
    (consumes : Consumes pattern) {position : Nat}
    (inText : position ≤ text.length) {found : Match α}
    (isFirst : searchFrom pattern position text = some found) :
    position ≤ found.span.start ∧ found.span.start < found.span.stop ∧
      found.span.stop ≤ text.length := by
  have bounds := finditerFrom_bounds consumes _ _ _ found
    (mem_searchFrom isFirst)
  rw [length_drop] at bounds
  omega

/-- Where a call may begin: at a token, or nowhere in the text. -/
def AtToken (alphabet : Alphabet) (text : Text) (position : Nat) : Prop :=
  position = text.length ∨
    (attrToken alphabet (text.drop position)).isSome

theorem functionClose_before {alphabet : Alphabet} {openerEnd nextCallAt : Nat}
    (inText : openerEnd ≤ text.length)
    (isToken : AtToken alphabet text nextCallAt) {close : Match Unit}
    (isFirst : searchFrom functionClose openerEnd text = some close)
    (before : close.span.start ≤ nextCallAt) :
    close.span.stop ≤ nextCallAt := by
  have bounds := searchFrom_bounds consumes_functionClose inText isFirst
  rcases isToken with rfl | isToken
  · exact bounds.2.2
  · by_contra reaches
    obtain ⟨atLeast, after, reads, ends⟩ :=
      finditerFrom_reads functionClose openerEnd 0 (text.drop openerEnd) close
        (mem_searchFrom isFirst)
    have offset : (text.drop openerEnd).drop (close.span.start - openerEnd) =
        text.drop close.span.start := by
      rw [drop_drop]
      congr 1
      omega
    rw [offset] at reads ends
    obtain ⟨taken, split, quiet⟩ := functionClose_eq_some reads alphabet
    rw [split, length_append] at ends
    have inside : nextCallAt - close.span.start < taken.length := by omega
    have here : text.drop nextCallAt =
        taken.drop (nextCallAt - close.span.start) ++ after := by
      rw [← drop_append_of_le_length (by omega), ← split, drop_drop]
      congr 1
      omega
    rw [here, quiet.drop inside trivial] at isToken
    cases isToken

/-- An element ends before the next call. -/
theorem attrEnd_bounds {alphabet : Alphabet} {openerEnd nextCallAt : Nat}
    (ordered : openerEnd ≤ nextCallAt) (inText : nextCallAt ≤ text.length)
    (isToken : AtToken alphabet text nextCallAt) :
    openerEnd ≤ (attrEnd text openerEnd nextCallAt).2 ∧
      (attrEnd text openerEnd nextCallAt).2 ≤ nextCallAt := by
  have openerIn : openerEnd ≤ text.length := le_trans ordered inText
  unfold attrEnd
  split
  · rename_i close isFirst
    have bounds := searchFrom_bounds consumes_functionClose openerIn isFirst
    split
    · rename_i before
      have stops := functionClose_before openerIn isToken isFirst before
      exact ⟨by dsimp only; omega, stops⟩
    · exact ⟨ordered, le_refl _⟩
  · split
    · rename_i para isFirst
      have bounds := searchFrom_bounds consumes_paraBreak openerIn isFirst
      dsimp only
      omega
    · exact ⟨ordered, le_refl _⟩

section
variable {runtime : Runtime} {alphabet : Alphabet} {known : List String}
  {text : Text}

variable {tokens : List Token}

theorem attrCalls_start {found : Found}
    (isFound : found ∈ attrCalls runtime known text tokens) :
    ∃ token ∈ tokens, startsCall known token ∧
      found.region.start = token.span.start := by
  induction tokens with
  | nil => cases isFound
  | cons token tokens ih =>
    rw [attrCalls] at isFound
    have later : found ∈ attrCalls runtime known text tokens →
        ∃ other ∈ token :: tokens, startsCall known other ∧
          found.region.start = other.span.start := by
      intro isLater
      obtain ⟨other, isIn, starts, same⟩ := ih isLater
      exact ⟨other, mem_cons_of_mem token isIn, starts, same⟩
    split at isFound
    · rename_i starts
      rcases mem_cons.mp isFound with rfl | isLater
      · exact ⟨token, mem_cons_self, starts, rfl⟩
      · exact later isLater
    · exact later isFound

variable (runtime known) in
theorem nextCall_spec {position : Nat} (inText : position ≤ text.length)
    (beyond : ∀ token ∈ tokens, position ≤ token.span.start ∧
      token.span.start ≤ text.length ∧
        AtToken alphabet text token.span.start)
    (ordered : tokens.Pairwise fun first second =>
      first.span.start ≤ second.span.start) :
    let nextCallAt := ((tokens.find? (startsCall known)).map
      fun next => next.span.start).getD text.length
    position ≤ nextCallAt ∧ nextCallAt ≤ text.length ∧
      AtToken alphabet text nextCallAt ∧
        ∀ found ∈ attrCalls runtime known text tokens,
          nextCallAt ≤ found.region.start := by
  induction tokens with
  | nil =>
    exact ⟨inText, le_refl _, Or.inl rfl, fun found isFound => by
      cases isFound⟩
  | cons token tokens ih =>
    obtain ⟨first, ordered⟩ := pairwise_cons.mp ordered
    rw [find?_cons]
    cases starts : startsCall known token with
    | true =>
      have here := beyond token mem_cons_self
      refine ⟨here.1, here.2.1, here.2.2, ?_⟩
      intro found isFound
      obtain ⟨other, isIn, _, same⟩ := attrCalls_start isFound
      rw [same]
      rcases mem_cons.mp isIn with rfl | isLater
      · exact le_refl _
      · exact first other isLater
    | false =>
      have rest := ih
        (fun other isIn => beyond other (mem_cons_of_mem token isIn))
        ordered
      simpa [attrCalls, starts] using rest

variable (alphabet) in
/-- Elements are read one after another. -/
theorem attrCalls_ordered
    (proper : ∀ token ∈ tokens, token.span.start < token.span.stop ∧
      token.span.stop ≤ text.length ∧
        AtToken alphabet text token.span.start)
    (ordered : tokens.Pairwise fun first second =>
      first.span.stop ≤ second.span.start) :
    (∀ found ∈ attrCalls runtime known text tokens,
        found.region.start < found.region.stop ∧
          found.region.stop ≤ text.length) ∧
      (attrCalls runtime known text tokens).Pairwise fun first second =>
        first.region.stop ≤ second.region.start := by
  induction tokens with
  | nil => exact ⟨by simp [attrCalls], List.Pairwise.nil⟩
  | cons token tokens ih =>
    obtain ⟨first, ordered⟩ := pairwise_cons.mp ordered
    have laterProper : ∀ other ∈ tokens,
        other.span.start < other.span.stop ∧
          other.span.stop ≤ text.length ∧
            AtToken alphabet text other.span.start :=
      fun other isIn => proper other (mem_cons_of_mem token isIn)
    have later := ih laterProper ordered
    rw [attrCalls]
    split
    · have here := proper token mem_cons_self
      have startsOrdered : tokens.Pairwise fun first second =>
          first.span.start ≤ second.span.start := by
        apply List.Pairwise.imp_of_mem _ ordered
        intro one two isOne isTwo stops
        have := (laterProper one isOne).1
        omega
      have next := nextCall_spec runtime known here.2.1
        (fun other isIn => ⟨first other isIn,
          by have := laterProper other isIn; omega,
          (laterProper other isIn).2.2⟩) startsOrdered
      have ends := attrEnd_bounds next.1 next.2.1 next.2.2.1
      constructor
      · intro found isFound
        rcases mem_cons.mp isFound with rfl | isLater
        · dsimp only
          omega
        · exact later.1 found isLater
      · apply List.Pairwise.cons
        · intro found isFound
          have begins := next.2.2.2 found isFound
          dsimp only
          omega
        · exact later.2
    · exact later

variable (runtime alphabet known text) in
theorem xmlAttrToolCalls_ordered :
    (∀ found ∈ xmlAttrToolCalls runtime alphabet known text,
        found.region.start < found.region.stop ∧
          found.region.stop ≤ text.length) ∧
      (xmlAttrToolCalls runtime alphabet known text).Pairwise
        fun first second => first.region.stop ≤ second.region.start := by
  apply attrCalls_ordered alphabet
  · intro token isToken
    have bounds := finditerFrom_bounds (consumes_attrToken alphabet) _ _ _
      token isToken
    obtain ⟨_, after, reads, _⟩ :=
      finditerFrom_reads (attrToken alphabet) 0 0 text token isToken
    rw [Nat.sub_zero] at reads
    refine ⟨bounds.2.1, by omega, Or.inr ?_⟩
    rw [reads]
    rfl
  · exact finditerFrom_ordered (consumes_attrToken alphabet) _ _ _

/-! ## The candidates -/

/-- One span lies in the other. -/
def Inside (inner outer : Span) : Prop :=
  outer.start ≤ inner.start ∧ inner.stop ≤ outer.stop

/-- The calls of a candidate have regions of their own inside its span. -/
structure Candidate.Proper (text : Text) (candidate : Candidate) :
    Prop where
  nonempty : candidate.span.start < candidate.span.stop
  inText : candidate.span.stop ≤ text.length
  inside : ∀ found ∈ candidate.calls, Inside found.region candidate.span
  apart : candidate.calls.Pairwise fun first second =>
    first.region.Apart second.region

theorem Candidate.proper_of_one {span : Span} {calls : List Found}
    (nonempty : span.start < span.stop) (inText : span.stop ≤ text.length)
    (whole : ∀ found ∈ calls, found.region = span)
    (atMostOne : calls.length ≤ 1) :
    Candidate.Proper text ⟨span, calls⟩ where
  nonempty := nonempty
  inText := inText
  inside := by
    intro found isFound
    rw [whole found isFound]
    exact ⟨le_refl _, le_refl _⟩
  apart := by
    rcases calls with _ | ⟨only, _ | ⟨_, _⟩⟩
    · exact List.Pairwise.nil
    · exact pairwise_singleton _ _
    · simp at atMostOne

theorem toList_length_le {α : Type} (value : Option α) :
    value.toList.length ≤ 1 := by
  cases value with
  | none => exact zero_le _
  | some value => exact le_refl _

theorem trim_length (group : Text) :
    (trim group).length + (group.length - (spaces group).length) ≤
      group.length := by
  have front := (dropWhile_suffix (l := group)
    Hal0.Slots.ConfigFiles.isSpace).length_le
  have back := (dropWhile_suffix (l := (spaces group).reverse)
    Hal0.Slots.ConfigFiles.isSpace).length_le
  rw [length_reverse] at back
  rw [trim, length_reverse]
  unfold spaces at *
  omega

variable (runtime alphabet known) in
/-- A wrapper gives one call, or its elements. -/
theorem wrappedCalls_cases (found : Match (Nat × Text)) :
    (∃ name arguments, wrappedCalls runtime alphabet known found =
      [⟨name, arguments, found.span⟩]) ∨
      wrappedCalls runtime alphabet known found =
        (xmlAttrToolCalls runtime alphabet known (trim found.data.2)).map
          (Found.shift (found.span.start + found.data.1 +
            (found.data.2.length - (spaces found.data.2).length))) := by
  simp only [wrappedCalls]
  split
  · exact Or.inl ⟨_, _, rfl⟩
  · split
    · exact Or.inl ⟨_, _, rfl⟩
    · exact Or.inr rfl

theorem wrapped_proper :
    ∀ candidate ∈ wrapped runtime alphabet known text,
      candidate.Proper text := by
  intro candidate isCandidate
  obtain ⟨found, isFound, rfl⟩ := mem_map.mp isCandidate
  have bounds := finditerFrom_bounds consumes_textToolcall _ _ _ found isFound
  obtain ⟨_, after, reads, ends⟩ :=
    finditerFrom_reads textToolcall 0 0 text found isFound
  have length := (textToolcall_length reads).1
  have trimmed := trim_length found.data.2
  have nonempty := bounds.2.1
  have inText : found.span.stop ≤ text.length := by omega
  rcases wrappedCalls_cases runtime alphabet known found with
    ⟨name, arguments, same⟩ | same
  · rw [same]
    apply Candidate.proper_of_one nonempty inText
    · intro call isCall
      rw [mem_singleton.mp isCall]
    · exact le_refl _
  · rw [same]
    have nested := xmlAttrToolCalls_ordered runtime alphabet known
      (trim found.data.2)
    refine ⟨nonempty, inText, ?_, ?_⟩
    · intro call isCall
      obtain ⟨inner, isInner, rfl⟩ := mem_map.mp isCall
      have within := nested.1 inner isInner
      simp only [Inside, Found.shift]
      rw [length_drop] at length ends
      omega
    · apply List.Pairwise.map _ _ nested.2
      intro first second ordered
      apply Or.inl
      simp only [Found.shift]
      omega

theorem attributeCalls_proper :
    ∀ candidate ∈ attributeCalls runtime alphabet known text,
      candidate.Proper text := by
  intro candidate isCandidate
  obtain ⟨found, isFound, rfl⟩ := mem_map.mp isCandidate
  have bounds := (xmlAttrToolCalls_ordered runtime alphabet known text).1
    found isFound
  apply Candidate.proper_of_one bounds.1 bounds.2
  · intro call isCall
    rw [mem_singleton.mp isCall]
  · exact le_refl _

theorem laterCandidates_proper :
    ∀ candidate ∈ laterCandidates runtime alphabet known text,
      candidate.Proper text := by
  intro candidate isCandidate
  simp only [laterCandidates, mem_append] at isCandidate
  rcases isCandidate with ((isTag | isAttr) | isGemma) | isFence
  · obtain ⟨found, isFound, rfl⟩ := mem_map.mp isTag
    have bounds :=
      finditerFrom_bounds consumes_functionTag _ _ _ found isFound
    apply Candidate.proper_of_one bounds.2.1 (by omega)
    · intro call isCall
      rw [mem_singleton.mp isCall]
    · exact le_refl _
  · exact attributeCalls_proper candidate isAttr
  · obtain ⟨found, isFound, rfl⟩ := mem_map.mp isGemma
    have bounds :=
      finditerFrom_bounds consumes_gemmaToolcall _ _ _ found isFound
    apply Candidate.proper_of_one bounds.2.1 (by omega)
    · intro call isCall
      obtain ⟨_, _, rfl⟩ := mem_map.mp isCall
      rfl
    · rw [length_map]
      exact toList_length_le _
  · obtain ⟨found, isFound, rfl⟩ := mem_map.mp isFence
    have bounds :=
      finditerFrom_bounds consumes_fencedJson _ _ _ found isFound
    apply Candidate.proper_of_one bounds.2.1 (by omega)
    · intro call isCall
      obtain ⟨_, _, rfl⟩ := mem_map.mp isCall
      rfl
    · rw [length_map]
      exact toList_length_le _

theorem index_le {part before after : Text} {text : Text}
    (split : text = before ++ (part ++ after)) :
    index part text + part.length ≤ text.length := by
  induction text generalizing before with
  | nil =>
    have length : before.length + (part.length + after.length) = 0 := by
      rw [← length_append, ← length_append, ← split]
      rfl
    rw [index, length_nil]
    omega
  | cons char text ih =>
    rw [index]
    split
    · rename_i isPrefix
      have length := (List.isPrefixOf_iff_prefix.mp isPrefix).length_le
      omega
    · rename_i notPrefix
      cases before with
      | nil =>
        rw [nil_append] at split
        rw [split] at notPrefix
        exact absurd (List.isPrefixOf_iff_prefix.mpr
          (prefix_append part after)) notPrefix
      | cons head before =>
        have rest := ih (List.cons.inj split).2
        rw [length_cons]
        omega

theorem trim_split (text : Text) :
    ∃ before after, text = before ++ (trim text ++ after) := by
  obtain ⟨before, front⟩ := dropWhile_suffix (l := text)
    Hal0.Slots.ConfigFiles.isSpace
  obtain ⟨after, back⟩ := dropWhile_suffix
    (l := (text.dropWhile Hal0.Slots.ConfigFiles.isSpace).reverse)
    Hal0.Slots.ConfigFiles.isSpace
  refine ⟨before, after.reverse, ?_⟩
  have whole : trim text ++ after.reverse =
      text.dropWhile Hal0.Slots.ConfigFiles.isSpace := by
    rw [trim, ← reverse_append, back, reverse_reverse]
  rw [whole, front]

theorem wholeCandidate_proper
    (holds : (wholeCandidate runtime text).calls ≠ []) :
    (wholeCandidate runtime text).Proper text := by
  obtain ⟨before, after, split⟩ := trim_split text
  have inText := index_le split
  have nonempty : 0 < (trim text).length := by
    rw [length_pos_iff]
    intro isEmpty
    apply holds
    simp [wholeCandidate, isEmpty]
  apply Candidate.proper_of_one
  · dsimp only
    omega
  · exact inText
  · intro call isCall
    obtain ⟨_, _, rfl⟩ := mem_map.mp isCall
    rfl
  · rw [length_map]
    exact toList_length_le _

/-! ## What the passes take -/

/-- All the places of a text which a pass may read. -/
def candidates (runtime : Runtime) (alphabet : Alphabet)
    (known : List String) (text : Text) : List Candidate :=
  wrapped runtime alphabet known text ++
    laterCandidates runtime alphabet known text ++
      [wholeCandidate runtime text]

/-- What was taken is what some of the candidates hold. -/
structure Accounts (known : List String) (places : List Candidate)
    (taken : Taken) (accepted : List Candidate) : Prop where
  spans : taken.spans = accepted.map Candidate.span
  calls : taken.calls = accepted.flatMap fun candidate =>
    candidate.calls.filter fun found => found.name ∈ known
  among : ∀ candidate ∈ accepted,
    candidate ∈ places ∧ ∃ found ∈ candidate.calls, found.name ∈ known
  outside : taken.spans.Pairwise fun earlier later =>
    ¬ earlier.Covers later.start

variable {places : List Candidate} {taken : Taken}
  {accepted : List Candidate}

variable {candidate : Candidate}

theorem Accounts.take (accounts : Accounts known places taken accepted)
    (isPlace : candidate ∈ places)
    (free : ∀ span ∈ taken.spans, ¬ span.Covers candidate.span.start) :
    ∃ accepted, Accounts known places (take known taken candidate)
      accepted := by
  unfold Toolloop.take
  dsimp only
  split
  · exact ⟨accepted, accounts⟩
  · rename_i holds
    refine ⟨accepted ++ [candidate], ?_, ?_, ?_, ?_⟩
    · rw [accounts.spans, map_append]
      rfl
    · rw [accounts.calls, flatMap_append, flatMap_singleton]
    · intro other isOther
      rcases mem_append.mp isOther with isOther | isOther
      · exact accounts.among other isOther
      · rw [mem_singleton.mp isOther]
        refine ⟨isPlace, ?_⟩
        simpa using holds
    · apply pairwise_append.mpr
      refine ⟨accounts.outside, pairwise_singleton _ _, ?_⟩
      intro span isSpan last isLast
      rw [mem_singleton.mp isLast]
      exact free span isSpan

theorem Accounts.takeOutside (accounts : Accounts known places taken accepted)
    (isPlace : candidate ∈ places) :
    ∃ accepted, Accounts known places (takeOutside known taken candidate)
      accepted := by
  unfold Toolloop.takeOutside
  split
  · exact ⟨accepted, accounts⟩
  · rename_i free
    apply accounts.take isPlace
    intro span isSpan covers
    exact free ⟨span, isSpan, covers⟩

theorem take_spans (known : List String) (taken : Taken)
    (candidate : Candidate) :
    ∀ span ∈ (take known taken candidate).spans,
      span ∈ taken.spans ∨ span = candidate.span := by
  intro span isSpan
  unfold take at isSpan
  dsimp only at isSpan
  split at isSpan
  · exact Or.inl isSpan
  · simpa using isSpan

theorem Accounts.foldl_take {later : List Candidate}
    (accounts : Accounts known places taken accepted)
    (arePlaces : ∀ candidate ∈ later, candidate ∈ places)
    (proper : ∀ candidate ∈ later, candidate.Proper text)
    (beyond : ∀ span ∈ taken.spans, ∀ candidate ∈ later,
      span.stop ≤ candidate.span.start)
    (ordered : later.Pairwise fun first second =>
      first.span.stop ≤ second.span.start) :
    ∃ accepted, Accounts known places
      (later.foldl (Toolloop.take known) taken) accepted := by
  induction later generalizing taken accepted with
  | nil => exact ⟨accepted, accounts⟩
  | cons candidate later ih =>
    obtain ⟨first, ordered⟩ := pairwise_cons.mp ordered
    obtain ⟨accepted, accounts⟩ := accounts.take
      (arePlaces candidate mem_cons_self)
      (fun span isSpan covers => by
        have stops := beyond span isSpan candidate mem_cons_self
        have := covers.2
        omega)
    apply ih accounts
    · exact fun other isIn =>
        arePlaces other (mem_cons_of_mem candidate isIn)
    · exact fun other isIn =>
        proper other (mem_cons_of_mem candidate isIn)
    · intro span isSpan other isIn
      rcases take_spans known taken candidate span isSpan with isOld | rfl
      · exact beyond span isOld other (mem_cons_of_mem candidate isIn)
      · exact first other isIn
    · exact ordered

theorem Accounts.foldl_takeOutside {later : List Candidate}
    (accounts : Accounts known places taken accepted)
    (arePlaces : ∀ candidate ∈ later, candidate ∈ places) :
    ∃ accepted, Accounts known places
      (later.foldl (Toolloop.takeOutside known) taken) accepted := by
  induction later generalizing taken accepted with
  | nil => exact ⟨accepted, accounts⟩
  | cons candidate later ih =>
    obtain ⟨accepted, accounts⟩ :=
      accounts.takeOutside (arePlaces candidate mem_cons_self)
    apply ih accounts
    exact fun other isIn =>
      arePlaces other (mem_cons_of_mem candidate isIn)

variable (runtime alphabet known text) in
theorem wrapped_accounts :
    ∃ accepted, Accounts known (candidates runtime alphabet known text)
      ((wrapped runtime alphabet known text).foldl (Toolloop.take known)
        ⟨[], []⟩) accepted := by
  have start : Accounts known (candidates runtime alphabet known text)
      ⟨[], []⟩ [] :=
    ⟨rfl, rfl, by simp, List.Pairwise.nil⟩
  have ordered : (wrapped runtime alphabet known text).Pairwise
      fun first second => first.span.stop ≤ second.span.start :=
    List.Pairwise.map _ (fun _ _ stops => stops)
      (finditerFrom_ordered consumes_textToolcall 0 0 text)
  exact start.foldl_take (fun candidate isIn => by simp [candidates, isIn])
    wrapped_proper (by simp) ordered

variable (runtime alphabet known text) in
theorem embedded_accounts :
    ∃ accepted, Accounts known (candidates runtime alphabet known text)
      (embedded runtime alphabet known text) accepted := by
  obtain ⟨_, accounts⟩ := wrapped_accounts runtime alphabet known text
  exact accounts.foldl_takeOutside fun candidate isIn => by
    simp [candidates, isIn]

theorem Accounts.spans_of_no_calls
    (accounts : Accounts known places taken accepted)
    (noCalls : taken.calls = []) : taken.spans = [] := by
  rw [accounts.calls, flatMap_eq_nil_iff] at noCalls
  rw [accounts.spans, map_eq_nil_iff, eq_nil_iff_forall_not_mem]
  intro candidate isIn
  obtain ⟨_, found, isFound, isKnown⟩ := accounts.among candidate isIn
  have nothing := filter_eq_nil_iff.mp (noCalls candidate isIn) found
    isFound
  exact nothing (decide_eq_true isKnown)

/-- What is found is accounted for. -/
theorem found_accounts (runtime : Runtime) (alphabet : Alphabet)
    (known : List String) (text : Text) :
    ∃ accepted, Accounts known (candidates runtime alphabet known text)
      (found runtime alphabet known text) accepted := by
  obtain ⟨accepted, accounts⟩ :=
    embedded_accounts runtime alphabet known text
  unfold found
  dsimp only
  split
  · rename_i noCalls
    apply accounts.take
    · simp [candidates]
    · rw [accounts.spans_of_no_calls (isEmpty_iff.mp noCalls)]
      simp
  · exact ⟨accepted, accounts⟩

theorem candidates_proper
    (isPlace : candidate ∈ candidates runtime alphabet known text)
    (holds : candidate.calls ≠ []) : candidate.Proper text := by
  simp only [candidates, mem_append, mem_singleton] at isPlace
  rcases isPlace with (isWrapped | isLater) | rfl
  · exact wrapped_proper candidate isWrapped
  · exact laterCandidates_proper candidate isLater
  · exact wholeCandidate_proper holds

theorem Accounts.proper
    (accounts : Accounts known (candidates runtime alphabet known text) taken
      accepted) :
    ∀ candidate ∈ accepted, candidate.Proper text := by
  intro candidate isIn
  obtain ⟨isPlace, found, isFound, _⟩ := accounts.among candidate isIn
  apply candidates_proper isPlace
  intro isEmpty
  rw [isEmpty] at isFound
  cases isFound

/-- A later span reaches over an earlier begin. -/
def ReachesOver (earlier later : Span) : Prop :=
  later.start < earlier.start ∧ earlier.start < later.stop

/-- No later span does. -/
def NoneReachesOver (spans : List Span) : Prop :=
  spans.Pairwise fun earlier later => ¬ ReachesOver earlier later

/-- Spans are apart unless one reaches over another. -/
theorem Accounts.apart_iff
    (accounts : Accounts known (candidates runtime alphabet known text) taken
      accepted) :
    taken.spans.Pairwise Span.Apart ↔ NoneReachesOver taken.spans := by
  have nonempty : ∀ span ∈ taken.spans, span.start < span.stop := by
    intro span isSpan
    rw [accounts.spans] at isSpan
    obtain ⟨candidate, isIn, rfl⟩ := mem_map.mp isSpan
    exact (accounts.proper candidate isIn).nonempty
  constructor
  · intro apart
    apply List.Pairwise.imp_of_mem _ apart
    rintro earlier later isEarlier isLater isApart ⟨before, reaches⟩
    have := nonempty earlier isEarlier
    rcases isApart with isApart | isApart
    · omega
    · omega
  · intro none_
    apply List.Pairwise.imp _ (none_.and accounts.outside)
    rintro earlier later ⟨noReach, free⟩
    simp only [ReachesOver, Span.Covers, not_and_or, not_lt,
      not_le] at noReach free
    unfold Span.Apart
    omega

theorem Apart.of_inside {first second inFirst inSecond : Span}
    (apart : first.Apart second) (isFirst : Inside inFirst first)
    (isSecond : Inside inSecond second) : inFirst.Apart inSecond := by
  unfold Inside Span.Apart at *
  omega

section

variable
  (accounts : Accounts known (candidates runtime alphabet known text) taken accepted)
include accounts

theorem Accounts.regions_apart (apart : taken.spans.Pairwise Span.Apart) :
    taken.calls.Pairwise fun first second =>
      first.region.Apart second.region := by
  rw [accounts.calls, pairwise_flatMap]
  constructor
  · intro candidate isIn
    exact (accounts.proper candidate isIn).apart.filter _
  · rw [accounts.spans, pairwise_map] at apart
    apply List.Pairwise.imp_of_mem _ apart
    intro first second isFirst isSecond isApart one isOne two isTwo
    apply Apart.of_inside isApart
    · exact (accounts.proper first isFirst).inside one
        (mem_filter.mp isOne).1
    · exact (accounts.proper second isSecond).inside two
        (mem_filter.mp isTwo).1

theorem Accounts.call_spec :
    ∀ call ∈ taken.calls, call.name ∈ known ∧
      (∃ candidate ∈ candidates runtime alphabet known text,
        call ∈ candidate.calls) ∧
      ∃ span ∈ taken.spans, Inside call.region span := by
  intro call isCall
  rw [accounts.calls, mem_flatMap] at isCall
  obtain ⟨candidate, isIn, isCall⟩ := isCall
  obtain ⟨isCall, isKnown⟩ := mem_filter.mp isCall
  refine ⟨of_decide_eq_true isKnown,
    ⟨candidate, (accounts.among candidate isIn).1, isCall⟩, candidate.span, ?_,
    (accounts.proper candidate isIn).inside call isCall⟩
  rw [accounts.spans]
  exact mem_map_of_mem isIn

/-- Stretches that are apart are cut out exactly. -/
theorem Accounts.cut_eq (apart : taken.spans.Pairwise Span.Apart) :
    cut text taken.spans = Scan.outside taken.spans 0 text := by
  apply cut_of_apart apart
  intro span isSpan
  rw [accounts.spans] at isSpan
  obtain ⟨candidate, isIn, rfl⟩ := mem_map.mp isSpan
  exact le_of_lt (accounts.proper candidate isIn).nonempty

end

/-! ## Matches which reach over a stretch -/

/--
The match is about to be taken, and begins before a stretch which was taken and
reaches over its begin.
-/
def Crosses (known : List String) (taken : Taken) (candidate : Candidate) :
    Prop :=
  (∃ found ∈ candidate.calls, found.name ∈ known) ∧
    (∀ span ∈ taken.spans, ¬ span.Covers candidate.span.start) ∧
    ∃ span ∈ taken.spans, ReachesOver span candidate.span

/-- No match crosses a stretch when its turn comes. -/
def Uncrossed (known : List String) : Taken → List Candidate → Prop
  | _, [] => True
  | taken, candidate :: later =>
    ¬ Crosses known taken candidate ∧
      Uncrossed known (takeOutside known taken candidate) later

/-- Nothing of the later passes crosses what was taken before it. -/
def NeverCrosses (runtime : Runtime) (alphabet : Alphabet)
    (known : List String) (text : Text) : Prop :=
  Uncrossed known
    ((wrapped runtime alphabet known text).foldl (take known) ⟨[], []⟩)
    (laterCandidates runtime alphabet known text)

theorem noneReachesOver_takeOutside :
    NoneReachesOver (takeOutside known taken candidate).spans ↔
      NoneReachesOver taken.spans ∧ ¬ Crosses known taken candidate := by
  unfold takeOutside
  split
  · rename_i covered
    obtain ⟨span, isSpan, covers⟩ := covered
    exact ⟨fun none_ => ⟨none_, fun crosses =>
      crosses.2.1 span isSpan covers⟩, And.left⟩
  · rename_i free
    unfold take
    dsimp only
    split
    · rename_i nothing
      refine ⟨fun none_ => ⟨none_, ?_⟩, And.left⟩
      rintro ⟨⟨found, isFound, isKnown⟩, -, -⟩
      exact filter_eq_nil_iff.mp (isEmpty_iff.mp nothing) found isFound
        (decide_eq_true isKnown)
    · rename_i holds
      have isKnown : ∃ found ∈ candidate.calls, found.name ∈ known := by
        simpa using holds
      have isFree : ∀ span ∈ taken.spans,
          ¬ span.Covers candidate.span.start :=
        fun span isSpan covers => free ⟨span, isSpan, covers⟩
      rw [NoneReachesOver, pairwise_append]
      constructor
      · rintro ⟨none_, -, apart⟩
        refine ⟨none_, ?_⟩
        rintro ⟨-, -, span, isSpan, reaches⟩
        exact apart span isSpan _ (mem_singleton_self _) reaches
      · rintro ⟨none_, crosses⟩
        refine ⟨none_, pairwise_singleton _ _, ?_⟩
        intro span isSpan last isLast reaches
        rw [mem_singleton.mp isLast] at reaches
        exact crosses ⟨isKnown, isFree, span, isSpan, reaches⟩

theorem noneReachesOver_foldl {later : List Candidate} :
    NoneReachesOver (later.foldl (takeOutside known) taken).spans ↔
      NoneReachesOver taken.spans ∧ Uncrossed known taken later := by
  induction later generalizing taken with
  | nil => simp [Uncrossed]
  | cons candidate later ih =>
    rw [foldl_cons, ih, noneReachesOver_takeOutside, Uncrossed, and_assoc]

/-- Matches in their order reach over nothing. -/
theorem noneReachesOver_foldl_take {later : List Candidate}
    (none_ : NoneReachesOver taken.spans)
    (beyond : ∀ span ∈ taken.spans, ∀ candidate ∈ later,
      span.start ≤ candidate.span.start)
    (ordered : later.Pairwise fun first second =>
      first.span.start ≤ second.span.start) :
    NoneReachesOver (later.foldl (take known) taken).spans := by
  induction later generalizing taken with
  | nil => exact none_
  | cons candidate later ih =>
    obtain ⟨first, ordered⟩ := pairwise_cons.mp ordered
    rw [foldl_cons]
    refine ih ?_ ?_ ordered
    · unfold take
      dsimp only
      split
      · exact none_
      · refine pairwise_append.mpr ⟨none_, pairwise_singleton _ _, ?_⟩
        intro span isSpan last isLast reaches
        rw [mem_singleton.mp isLast] at reaches
        have before := beyond span isSpan candidate mem_cons_self
        exact absurd reaches.1 (not_lt.mpr before)
    · intro span isSpan other isOther
      rcases take_spans known taken candidate span isSpan with isOld | rfl
      · exact beyond span isOld other (mem_cons_of_mem candidate isOther)
      · exact first other isOther

/-- No stretch reaches over one unless a match crosses. -/
theorem embedded_noneReachesOver :
    NoneReachesOver (embedded runtime alphabet known text).spans ↔
      NeverCrosses runtime alphabet known text := by
  have ordered : (wrapped runtime alphabet known text).Pairwise
      fun first second => first.span.start ≤ second.span.start := by
    have stops : (wrapped runtime alphabet known text).Pairwise
        fun first second => first.span.stop ≤ second.span.start :=
      List.Pairwise.map _ (fun _ _ stops => stops)
        (finditerFrom_ordered consumes_textToolcall 0 0 text)
    apply stops.imp_of_mem
    intro first second isFirst _ before
    have nonempty := (wrapped_proper first isFirst).nonempty
    omega
  have first : NoneReachesOver
      ((wrapped runtime alphabet known text).foldl (take known)
        ⟨[], []⟩).spans :=
    noneReachesOver_foldl_take List.Pairwise.nil nofun ordered
  rw [embedded, noneReachesOver_foldl, NeverCrosses]
  exact and_iff_right first

theorem found_noneReachesOver :
    NoneReachesOver (found runtime alphabet known text).spans ↔
      NeverCrosses runtime alphabet known text := by
  rw [← embedded_noneReachesOver, found]
  split
  · rename_i noCalls
    obtain ⟨_, accounts⟩ := embedded_accounts runtime alphabet known text
    have noSpans := accounts.spans_of_no_calls (isEmpty_iff.mp noCalls)
    have single : NoneReachesOver (take known
        (embedded runtime alphabet known text)
          (wholeCandidate runtime text)).spans := by
      unfold take
      dsimp only
      rw [noSpans]
      split
      · rw [noSpans]
        exact List.Pairwise.nil
      · exact pairwise_singleton _ _
    rw [noSpans]
    exact ⟨fun _ => List.Pairwise.nil, fun _ => single⟩
  · rfl

/-! ## A text without calls -/

/-- The match names no tool. -/
def Nameless (known : List String) (candidate : Candidate) : Prop :=
  ∀ call ∈ candidate.calls, call.name ∉ known

theorem take_calls_eq_nil :
    (take known taken candidate).calls = [] ↔
      taken.calls = [] ∧ Nameless known candidate := by
  have nameless : (candidate.calls.filter
      fun found => found.name ∈ known) = [] ↔ Nameless known candidate := by
    simp [filter_eq_nil_iff, Nameless]
  unfold take
  dsimp only
  split
  · rename_i nothing
    exact (and_iff_left (nameless.mp (isEmpty_iff.mp nothing))).symm
  · rw [append_eq_nil_iff, nameless]

theorem foldl_take_calls_eq_nil {later : List Candidate} :
    (later.foldl (take known) taken).calls = [] ↔
      taken.calls = [] ∧ ∀ candidate ∈ later, Nameless known candidate := by
  induction later generalizing taken with
  | nil => simp
  | cons candidate later ih =>
    rw [foldl_cons, ih, take_calls_eq_nil, forall_mem_cons, and_assoc]

theorem foldl_takeOutside_calls_eq_nil {later : List Candidate}
    (nothing : taken.calls = [] → taken.spans = []) :
    (later.foldl (takeOutside known) taken).calls = [] ↔
      taken.calls = [] ∧ ∀ candidate ∈ later, Nameless known candidate := by
  induction later generalizing taken with
  | nil => simp
  | cons candidate later ih =>
    have kept : (takeOutside known taken candidate).calls = [] →
        (takeOutside known taken candidate).spans = [] := by
      unfold takeOutside
      split
      · exact nothing
      · unfold take
        dsimp only
        split
        · exact nothing
        · rename_i holds
          intro isNil
          exact absurd (isEmpty_iff.mpr (append_eq_nil_iff.mp isNil).2) holds
    have first : (takeOutside known taken candidate).calls = [] ↔
        taken.calls = [] ∧ Nameless known candidate := by
      unfold takeOutside
      split
      · rename_i covered
        obtain ⟨span, isSpan, -⟩ := covered
        have some_ : taken.calls ≠ [] := by
          intro isNil
          rw [nothing isNil] at isSpan
          cases isSpan
        exact ⟨fun isNil => absurd isNil some_, fun both => both.1⟩
      · exact take_calls_eq_nil
    rw [foldl_cons, ih kept, first, forall_mem_cons, and_assoc]

/-- Nothing is found where no match names a known tool. -/
theorem found_calls_eq_nil :
    (found runtime alphabet known text).calls = [] ↔
      ∀ candidate ∈ candidates runtime alphabet known text,
        Nameless known candidate := by
  obtain ⟨_, accounts⟩ := wrapped_accounts runtime alphabet known text
  have inPasses : (embedded runtime alphabet known text).calls = [] ↔
      (∀ candidate ∈ wrapped runtime alphabet known text,
        Nameless known candidate) ∧
      ∀ candidate ∈ laterCandidates runtime alphabet known text,
        Nameless known candidate := by
    rw [embedded, foldl_takeOutside_calls_eq_nil
      accounts.spans_of_no_calls,
      foldl_take_calls_eq_nil]
    simp
  have all : (∀ candidate ∈ candidates runtime alphabet known text,
      Nameless known candidate) ↔
        (embedded runtime alphabet known text).calls = [] ∧
          Nameless known (wholeCandidate runtime text) := by
    rw [inPasses, candidates, forall_mem_append, forall_mem_append,
      forall_mem_singleton]
  rw [all, found]
  split
  · rw [take_calls_eq_nil]
  · rename_i holds
    rw [List.isEmpty_iff] at holds
    exact ⟨fun isNil => absurd isNil holds, fun both => both.1⟩

end

end Hal0.Toolloop
