import Mathlib.Data.List.Basic

/-!
# Scanning a text with a pattern

A pattern is tried at the head of a text; where it matches it reads something
and leaves a rest.  `finditer` lists its matches from the left, none of which
begins inside the one before.

A long text is scanned chunk by chunk: `Scans` says what a scan finds in a
chunk whatever follows it, and `Quiet` that no match begins in it.
-/

namespace Hal0.Scan

open List

variable {χ α : Type}

/-- A match at the begin of a text, and what is left. -/
abbrev Pattern (χ α : Type) := List χ → Option (α × List χ)

/-- A stretch of a text. -/
structure Span where
  start : Nat
  stop : Nat
deriving DecidableEq

/-- A match and where it is. -/
structure Match (α : Type) where
  span : Span
  data : α
deriving DecidableEq

/-- The matches from a position on, `skip` characters of which are taken. -/
def finditerFrom (pattern : Pattern χ α) :
    Nat → Nat → List χ → List (Match α)
  | _, _, [] => []
  | position, skip + 1, _ :: rest =>
    finditerFrom pattern (position + 1) skip rest
  | position, 0, char :: rest =>
    match pattern (char :: rest) with
    | none => finditerFrom pattern (position + 1) 0 rest
    | some (data, after) =>
      ⟨⟨position, position + (rest.length + 1 - after.length)⟩, data⟩ ::
        finditerFrom pattern (position + 1) (rest.length - after.length)
          rest

/-- The matches from left to right. -/
def finditer (pattern : Pattern χ α) (text : List χ) : List (Match α) :=
  finditerFrom pattern 0 0 text

/-- The first match at or after a position. -/
def searchFrom (pattern : Pattern χ α) (position : Nat) (text : List χ) :
    Option (Match α) :=
  (finditerFrom pattern position 0 (text.drop position)).head?

/-! ## A scan over a whole text -/

/-- A match takes at least one character. -/
def Consumes (pattern : Pattern χ α) : Prop :=
  ∀ text data after, pattern text = some (data, after) →
    after.length < text.length

/-- Matches lie in the text and are not empty. -/
theorem finditerFrom_bounds {pattern : Pattern χ α}
    (consumes : Consumes pattern) (position skip : Nat) (text : List χ) :
    ∀ found ∈ finditerFrom pattern position skip text,
      position + skip ≤ found.span.start ∧
        found.span.start < found.span.stop ∧
        found.span.stop ≤ position + text.length := by
  induction text generalizing position skip with
  | nil => simp [finditerFrom]
  | cons char rest ih =>
    cases skip with
    | succ skip =>
      intro found isFound
      have bounds := ih (position + 1) skip found isFound
      simp only [length_cons]
      omega
    | zero =>
      intro found isFound
      simp only [length_cons]
      rw [finditerFrom] at isFound
      cases result : pattern (char :: rest) with
      | none =>
        rw [result] at isFound
        have bounds := ih (position + 1) 0 found isFound
        omega
      | some read =>
        rw [result] at isFound
        have shorter := consumes _ _ _ result
        simp only [length_cons] at shorter
        rcases mem_cons.mp isFound with rfl | isLater
        · dsimp only
          omega
        · have bounds := ih _ _ found isLater
          omega

/-- Matches come in order and do not overlap. -/
theorem finditerFrom_ordered {pattern : Pattern χ α}
    (consumes : Consumes pattern) (position skip : Nat) (text : List χ) :
    (finditerFrom pattern position skip text).Pairwise
      fun first second => first.span.stop ≤ second.span.start := by
  induction text generalizing position skip with
  | nil => exact List.Pairwise.nil
  | cons char rest ih =>
    cases skip with
    | succ skip => exact ih (position + 1) skip
    | zero =>
      rw [finditerFrom]
      cases result : pattern (char :: rest) with
      | none => exact ih (position + 1) 0
      | some read =>
        have shorter := consumes _ _ _ result
        simp only [length_cons] at shorter
        apply List.Pairwise.cons
        · intro later isLater
          have bounds := finditerFrom_bounds consumes _ _ _ later isLater
          dsimp only
          omega
        · exact ih _ _

/-- Every match is one of the pattern there. -/
theorem finditerFrom_reads (pattern : Pattern χ α) (position skip : Nat)
    (text : List χ) :
    ∀ found ∈ finditerFrom pattern position skip text,
      position ≤ found.span.start ∧
        ∃ after, pattern (text.drop (found.span.start - position)) =
            some (found.data, after) ∧
          found.span.stop = found.span.start +
            ((text.drop (found.span.start - position)).length -
              after.length) := by
  induction text generalizing position skip with
  | nil => simp [finditerFrom]
  | cons char rest ih =>
    have inRest : ∀ skip, ∀ found ∈
        finditerFrom pattern (position + 1) skip rest,
        position ≤ found.span.start ∧
          ∃ after, pattern
              ((char :: rest).drop (found.span.start - position)) =
                some (found.data, after) ∧
            found.span.stop = found.span.start +
              (((char :: rest).drop (found.span.start - position)).length -
                after.length) := by
      intro skip found isFound
      obtain ⟨atLeast, after, reads, ends⟩ :=
        ih (position + 1) skip found isFound
      have offset : found.span.start - position =
          (found.span.start - (position + 1)) + 1 := by omega
      rw [offset, drop_succ_cons]
      exact ⟨by omega, after, reads, ends⟩
    cases skip with
    | succ skip => exact inRest skip
    | zero =>
      intro found isFound
      rw [finditerFrom] at isFound
      cases result : pattern (char :: rest) with
      | none =>
        rw [result] at isFound
        exact inRest 0 found isFound
      | some read =>
        rw [result] at isFound
        rcases mem_cons.mp isFound with rfl | isLater
        · simp only [Nat.sub_self, drop_zero, length_cons]
          exact ⟨Nat.le_refl _, read.2, result, rfl⟩
        · exact inRest _ found isLater

/-! ## A scan over a chunk -/

/--
What a scan finds in a chunk at a position, whatever follows of the kind it
expects.
-/
def Scans (pattern : Pattern χ α) (follows : List χ → Prop) (chunk : List χ)
    (found : Nat → List (Match α)) : Prop :=
  ∀ position rest, follows rest →
    finditerFrom pattern position 0 (chunk ++ rest) =
      found position ++
        finditerFrom pattern (position + chunk.length) 0 rest

/-- No match begins in a chunk, whatever follows of the kind it expects. -/
def Quiet (pattern : Pattern χ α) (follows : List χ → Prop) :
    List χ → Prop
  | [] => True
  | char :: chunk =>
    (∀ rest, follows rest → pattern (char :: (chunk ++ rest)) = none) ∧
      Quiet pattern follows chunk

def Anything (_ : List χ) : Prop := True

theorem finditerFrom_skip (pattern : Pattern χ α) (position : Nat)
    (taken rest : List χ) :
    finditerFrom pattern position taken.length (taken ++ rest) =
      finditerFrom pattern (position + taken.length) 0 rest := by
  induction taken generalizing position with
  | nil => rfl
  | cons char taken ih =>
    rw [length_cons, cons_append, finditerFrom,
      ih, Nat.add_assoc, Nat.add_comm 1]

section
variable {pattern : Pattern χ α} {follows between : List χ → Prop}
  {first second chunk : List χ} {firstFound secondFound : Nat → List (Match α)}

theorem Scans.nil : Scans pattern follows [] fun _ => [] := by
  intro position rest isNext
  rfl

theorem Scans.append (firstScans : Scans pattern between first firstFound)
    (secondScans : Scans pattern follows second secondFound)
    (joins : ∀ rest, follows rest → between (second ++ rest)) :
    Scans pattern follows (first ++ second) fun position =>
      firstFound position ++ secondFound (position + first.length) := by
  intro position rest isNext
  rw [append_assoc, firstScans position _ (joins rest isNext),
    secondScans _ rest isNext, append_assoc, length_append, Nat.add_assoc]

theorem Scans.congr (scans : Scans pattern follows chunk firstFound)
    (same : ∀ position, firstFound position = secondFound position) :
    Scans pattern follows chunk secondFound := by
  intro position rest isNext
  rw [scans position rest isNext, same position]

/-- A chunk which is one match. -/
theorem Scans.one {data : α} (nonempty : chunk ≠ [])
    (reads : ∀ rest, follows rest →
      pattern (chunk ++ rest) = some (data, rest)) :
    Scans pattern follows chunk fun position =>
      [⟨⟨position, position + chunk.length⟩, data⟩] := by
  intro position rest isNext
  cases chunk with
  | nil => exact absurd rfl nonempty
  | cons char chunk =>
    have result := reads rest isNext
    rw [cons_append] at result
    rw [cons_append, finditerFrom, result]
    have taken : (chunk ++ rest).length - rest.length = chunk.length := by
      rw [length_append]
      omega
    have stop : (chunk ++ rest).length + 1 - rest.length =
        chunk.length + 1 := by
      rw [length_append]
      omega
    dsimp only
    rw [taken, stop, finditerFrom_skip]
    simp [Nat.add_assoc, Nat.add_comm 1]

theorem Quiet.scans (quiet : Quiet pattern follows chunk) :
    Scans pattern follows chunk fun _ => [] := by
  induction chunk with
  | nil => exact Scans.nil
  | cons char chunk ih =>
    intro position rest isNext
    rw [cons_append, finditerFrom, quiet.1 rest isNext]
    dsimp only
    rw [ih quiet.2 (position + 1) rest isNext,
      length_cons, Nat.add_assoc, Nat.add_comm 1]

theorem Quiet.append (firstQuiet : Quiet pattern between first)
    (secondQuiet : Quiet pattern follows second)
    (joins : ∀ rest, follows rest → between (second ++ rest)) :
    Quiet pattern follows (first ++ second) := by
  induction first with
  | nil => exact secondQuiet
  | cons char first ih =>
    refine ⟨?_, ih firstQuiet.2⟩
    intro rest isNext
    have quiet := firstQuiet.1 _ (joins rest isNext)
    rw [← append_assoc] at quiet
    exact quiet

theorem Quiet.right (quiet : Quiet pattern follows (first ++ second)) :
    Quiet pattern follows second := by
  induction first with
  | nil => exact quiet
  | cons char first ih => exact ih quiet.2

theorem Quiet.left (quiet : Quiet pattern follows (first ++ second)) :
    Quiet pattern
      (fun rest => ∃ after, follows after ∧ rest = second ++ after) first := by
  induction first with
  | nil => trivial
  | cons char first ih =>
    refine ⟨?_, ih quiet.2⟩
    rintro rest ⟨after, isNext, rfl⟩
    have nothing := quiet.1 after isNext
    rw [← append_assoc]
    exact nothing

theorem Quiet.mono (quiet : Quiet pattern between chunk)
    (weaker : ∀ rest, follows rest → between rest) :
    Quiet pattern follows chunk := by
  induction chunk with
  | nil => trivial
  | cons char chunk ih =>
    exact ⟨fun rest isNext => quiet.1 rest (weaker rest isNext),
      ih quiet.2⟩

theorem Quiet.drop (quiet : Quiet pattern follows chunk) {count : Nat}
    (inside : count < chunk.length) {rest : List χ} (isNext : follows rest) :
    pattern (chunk.drop count ++ rest) = none := by
  induction chunk generalizing count with
  | nil => cases inside
  | cons char chunk ih =>
    cases count with
    | zero => exact quiet.1 rest isNext
    | succ count =>
      exact ih quiet.2 (Nat.lt_of_succ_lt_succ inside)

theorem Quiet.of_head
    (reads : ∀ char ∈ chunk, ∀ rest, pattern (char :: rest) = none) :
    Quiet pattern follows chunk := by
  induction chunk with
  | nil => trivial
  | cons char chunk ih =>
    refine ⟨fun rest _ => reads char mem_cons_self _, ?_⟩
    apply ih
    intro other isIn
    exact reads other (mem_cons_of_mem char isIn)

theorem Scans.finditer (scans : Scans pattern follows chunk firstFound)
    (isEnd : follows []) : finditer pattern chunk = firstFound 0 := by
  have all := scans 0 [] isEnd
  rw [append_nil] at all
  rw [Scan.finditer, all, finditerFrom, append_nil]

end

/-! ## Cutting stretches out of a text -/

/-- The position is in the stretch. -/
def Span.Covers (span : Span) (position : Nat) : Prop :=
  span.start ≤ position ∧ position < span.stop

instance (span : Span) (position : Nat) :
    Decidable (span.Covers position) :=
  inferInstanceAs (Decidable (_ ∧ _))

/-- The stretches do not overlap. -/
def Span.Apart (first second : Span) : Prop :=
  first.stop ≤ second.start ∨ second.stop ≤ first.start

theorem Span.Apart.symm {first second : Span} (apart : first.Apart second) :
    second.Apart first :=
  Or.symm apart

/-- The characters of a text which no stretch covers. -/
def outside (spans : List Span) : Nat → List χ → List χ
  | _, [] => []
  | position, char :: rest =>
    if ∃ span ∈ spans, span.Covers position then
      outside spans (position + 1) rest
    else char :: outside spans (position + 1) rest

/-- `text[:start] + text[stop:]` -/
def cutSpan (text : List χ) (span : Span) : List χ :=
  text.take span.start ++ text.drop span.stop

/-- The order of pairs, downwards. -/
def Span.downwards (first second : Span) : Bool :=
  second.start < first.start ||
    (second.start = first.start && second.stop ≤ first.stop)

/-- `for s, e in sorted(spans, reverse=True)` -/
def cut (text : List χ) (spans : List Span) : List χ :=
  (spans.mergeSort Span.downwards).foldl cutSpan text

theorem outside_append (spans : List Span) (position : Nat)
    (first second : List χ) :
    outside spans position (first ++ second) =
      outside spans position first ++
        outside spans (position + first.length) second := by
  induction first generalizing position with
  | nil => rfl
  | cons char first ih =>
    rw [cons_append, outside, outside, ih,
      length_cons, Nat.add_assoc, Nat.add_comm 1]
    split
    · rfl
    · rfl

variable {spans : List Span} {text : List χ}

theorem outside_of_uncovered {position : Nat}
    (uncovered : ∀ span ∈ spans, ∀ index, position ≤ index →
      index < position + text.length → ¬ span.Covers index) :
    outside spans position text = text := by
  induction text generalizing position with
  | nil => rfl
  | cons char text ih =>
    simp only [length_cons] at uncovered
    have none_ : ¬ ∃ span ∈ spans, span.Covers position := by
      rintro ⟨span, isSpan, covers⟩
      exact uncovered span isSpan position (Nat.le_refl _) (by omega) covers
    rw [outside, if_neg none_, ih]
    intro span isSpan index atLeast below
    exact uncovered span isSpan index (by omega) (by omega)

theorem outside_of_covered {position : Nat}
    (covered : ∀ index, position ≤ index → index < position + text.length →
      ∃ span ∈ spans, span.Covers index) :
    outside spans position text = [] := by
  induction text generalizing position with
  | nil => rfl
  | cons char text ih =>
    simp only [length_cons] at covered
    rw [outside, if_pos (covered position (Nat.le_refl _) (by omega)),
      ih]
    intro index atLeast below
    exact covered index (by omega) (by omega)

theorem outside_congr {first second : List Span}
    (same : ∀ index, (∃ span ∈ first, span.Covers index) ↔
      ∃ span ∈ second, span.Covers index) (position : Nat) (text : List χ) :
    outside first position text = outside second position text := by
  induction text generalizing position with
  | nil => rfl
  | cons char text ih =>
    rw [outside, outside, ih]
    simp only [same position]

theorem outside_cons {span : Span} {position : Nat}
    (untouched : ∀ index, position ≤ index → index < position + text.length →
      ¬ span.Covers index) :
    outside (span :: spans) position text = outside spans position text := by
  induction text generalizing position with
  | nil => rfl
  | cons char text ih =>
    simp only [length_cons] at untouched
    have here := untouched position (Nat.le_refl _) (by omega)
    rw [outside, outside, ih]
    · simp only [exists_mem_cons_iff, here, false_or]
    · intro index atLeast below
      exact untouched index (by omega) (by omega)

/-- Cutting the last span first. -/
theorem outside_cutSpan {span : Span} (isProper : span.start ≤ span.stop)
    (below : ∀ other ∈ spans, other.stop ≤ span.start) (text : List χ) :
    outside spans 0 (cutSpan text span) = outside (span :: spans) 0 text := by
  have beyond : ∀ position, span.stop ≤ position → ∀ later : List χ,
      outside (span :: spans) position later = later := by
    intro position isBeyond later
    apply outside_of_uncovered
    intro other isOther index atLeast _ covers
    rcases mem_cons.mp isOther with rfl | isOther
    · have := covers.2
      omega
    · have := covers.2
      have := below other isOther
      omega
  have keeps : ∀ position, span.start ≤ position → ∀ later : List χ,
      outside spans position later = later := by
    intro position isBeyond later
    apply outside_of_uncovered
    intro other isOther index atLeast _ covers
    have := covers.2
    have := below other isOther
    omega
  have before : outside (span :: spans) 0 (text.take span.start) =
      outside spans 0 (text.take span.start) := by
    apply outside_cons
    intro index _ isBelow covers
    rw [length_take] at isBelow
    have := covers.1
    omega
  rcases Nat.le_total text.length span.start with isShort | isLong
  · have whole : text.take span.start = text := take_of_length_le isShort
    have nothing : text.drop span.stop = [] :=
      drop_eq_nil_of_le (Nat.le_trans isShort isProper)
    rw [whole] at before
    rw [cutSpan, whole, nothing, append_nil, before]
  · have length : (text.take span.start).length = span.start := by
      rw [length_take]
      omega
    have split : text = text.take span.start ++
        ((text.drop span.start).take (span.stop - span.start) ++
          text.drop span.stop) := by
      have middle : (text.drop span.start).drop (span.stop - span.start) =
          text.drop span.stop := by
        rw [drop_drop]
        congr 1
        omega
      rw [← middle, take_append_drop, take_append_drop]
    have dropped : outside (span :: spans) span.start
        ((text.drop span.start).take (span.stop - span.start)) = [] := by
      apply outside_of_covered
      intro index atLeast isBelow
      rw [length_take] at isBelow
      exact ⟨span, mem_cons_self, atLeast, by omega⟩
    have rest : outside (span :: spans)
        (span.start +
          ((text.drop span.start).take (span.stop - span.start)).length)
        (text.drop span.stop) = text.drop span.stop := by
      rcases Nat.le_total text.length span.stop with ends | goesOn
      · rw [drop_eq_nil_of_le ends]
        rfl
      · apply beyond
        rw [length_take, length_drop]
        omega
    calc
      outside spans 0 (cutSpan text span)
          = outside spans 0 (text.take span.start) ++ text.drop span.stop := by
        rw [cutSpan, outside_append, length, Nat.zero_add,
          keeps span.start (Nat.le_refl _)]
      _ = outside (span :: spans) 0 (text.take span.start ++
            ((text.drop span.start).take (span.stop - span.start) ++
              text.drop span.stop)) := by
        rw [outside_append, outside_append, length, Nat.zero_add, dropped,
          rest, before, nil_append]
      _ = outside (span :: spans) 0 text := by rw [← split]

theorem foldl_cutSpan (spans : List Span) (text : List χ)
    (descending : spans.Pairwise fun first second =>
      second.stop ≤ first.start)
    (proper : ∀ span ∈ spans, span.start ≤ span.stop) :
    spans.foldl cutSpan text = outside spans 0 text := by
  induction spans generalizing text with
  | nil =>
    symm
    apply outside_of_uncovered
    simp
  | cons span spans ih =>
    obtain ⟨below, descending⟩ := pairwise_cons.mp descending
    rw [foldl_cons, ih (cutSpan text span) descending
      fun other isOther => proper other (mem_cons_of_mem _ isOther)]
    exact outside_cutSpan (proper span mem_cons_self) below text

theorem Span.downwards_trans (first second third : Span)
    (isFirst : first.downwards second) (isSecond : second.downwards third) :
    first.downwards third := by
  simp only [Span.downwards, Bool.or_eq_true, Bool.and_eq_true,
    decide_eq_true_eq] at *
  omega

theorem Span.downwards_total (first second : Span) :
    first.downwards second || second.downwards first := by
  simp only [Span.downwards, Bool.or_eq_true, Bool.and_eq_true,
    decide_eq_true_eq]
  omega

/-- Spans apart are cut out as they stand. -/
theorem cut_of_apart (apart : spans.Pairwise Span.Apart)
    (proper : ∀ span ∈ spans, span.start ≤ span.stop) :
    cut text spans = outside spans 0 text := by
  have isPerm := spans.mergeSort_perm Span.downwards
  have sorted := pairwise_mergeSort Span.downwards_trans
    Span.downwards_total spans
  have sortedApart : (spans.mergeSort Span.downwards).Pairwise Span.Apart :=
    (isPerm.pairwise_iff fun apart => apart.symm).mpr apart
  have sortedProper : ∀ span ∈ spans.mergeSort Span.downwards,
      span.start ≤ span.stop :=
    fun span isSpan => proper span (isPerm.mem_iff.mp isSpan)
  have descending : (spans.mergeSort Span.downwards).Pairwise
      fun first second => second.stop ≤ first.start := by
    apply List.Pairwise.imp_of_mem _ (sorted.and sortedApart)
    rintro first second isFirst isSecond ⟨isDown, isApart⟩
    have firstProper := sortedProper first isFirst
    have secondProper := sortedProper second isSecond
    simp only [Span.downwards, Bool.or_eq_true, Bool.and_eq_true,
      decide_eq_true_eq] at isDown
    rcases isApart with isApart | isApart
    · omega
    · exact isApart
  rw [cut, foldl_cutSpan _ _ descending sortedProper]
  apply outside_congr
  intro index
  simp only [isPerm.mem_iff]

end Hal0.Scan
