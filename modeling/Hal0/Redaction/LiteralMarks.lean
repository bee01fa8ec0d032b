import Hal0.Redaction.Literals

/-!
# The marks of a scan

The scan marks the positions of a literal which no earlier mark covers.  These
are the stretches which masking the literal in the cells takes, and the masks
which are spliced in for them give the text which the cells show.
-/

namespace Hal0.Redaction

open List
open Hal0.Masking

section Spans

variable {cells rest : List (Cell Char)} {position : Nat}

theorem spans_map_kept (literal : Text) (rest : List (Cell Char))
    (position : Nat) :
    spans position (literal.map Cell.kept ++ rest) =
      spans (position + literal.length) rest := by
  induction literal generalizing position with
  | nil => rfl
  | cons char literal ih =>
    rw [map_cons, cons_append, spans, ih,
      length_cons, Nat.add_right_comm, Nat.add_assoc]

/-- Spans are not empty. -/
theorem spans_bounds {span : Nat × Nat}
    (isIn : span ∈ spans position cells) :
    position ≤ span.1 ∧ span.1 < span.2 := by
  induction cells generalizing position with
  | nil => exact absurd isIn not_mem_nil
  | cons cell rest ih =>
    cases cell with
    | kept char =>
      have later := ih isIn
      omega
    | gone stretch some =>
      have positive := length_pos_of_ne_nil some
      rcases mem_cons.mp isIn with rfl | isLater
      · exact ⟨le_refl _, Nat.lt_add_of_pos_right positive⟩
      · have later := ih isLater
        omega

theorem pairwise_spans (position : Nat) (cells : List (Cell Char)) :
    (spans position cells).Pairwise fun first second =>
      first.2 ≤ second.1 := by
  induction cells generalizing position with
  | nil => exact List.Pairwise.nil
  | cons cell rest ih =>
    cases cell with
    | kept char => exact ih (position + 1)
    | gone stretch some =>
      exact List.Pairwise.cons (fun span isIn => (spans_bounds isIn).1)
        (ih _)

theorem not_covered_before {before : Nat} (less : before < position) :
    ¬ Covered (spans position cells) before := by
  rintro ⟨span, isIn, notAfter, -⟩
  have := (spans_bounds isIn).1
  omega

theorem kept_of_not_covered {literal : Text}
    (isFront : literal <+: original cells)
    (free : ∀ inside, position ≤ inside →
      inside < position + literal.length →
        ¬ Covered (spans position cells) inside) :
    literal.map Cell.kept <+: cells := by
  induction literal generalizing cells position with
  | nil => exact List.nil_prefix
  | cons first literal ih =>
    cases cells with
    | nil => exact absurd isFront (by simp [original])
    | cons cell rest =>
      cases cell with
      | kept char =>
        obtain ⟨rfl, isLater⟩ := cons_prefix_cons.mp isFront
        refine cons_prefix_cons.mpr
          ⟨rfl, @ih _ (position + 1) isLater ?_⟩
        intro inside notLess less
        refine free inside (by omega) ?_
        rw [length_cons]
        omega
      | gone stretch some =>
        have positive := length_pos_of_ne_nil some
        refine absurd ?_
          (free position (le_refl _) (by simp))
        exact ⟨_, mem_cons_self, le_refl _, by simpa using positive⟩

end Spans

/-! ## One literal -/

variable {marking : Marking} {size : Nat}

theorem Marking.isFree_iff {start : Nat} :
    marking.isFree start size ↔
      ∀ inside, start ≤ inside → inside < start + size →
        ¬ marking.masked inside := by
  rw [Marking.isFree, all_eq_true]
  constructor
  · intro free inside notLess less
    have isFree := free (inside - start) (mem_range.mpr (by omega))
    rw [Nat.add_sub_cancel' notLess] at isFree
    simpa using isFree
  · intro free offset isLess
    have isFree := free (start + offset) (by omega)
      (by have := mem_range.mp isLess; omega)
    simpa using isFree

theorem foldl_markOne_of_skipped {state : Marking × Nat} {starts : List Nat}
    (skipped : ∀ start ∈ starts, state.2 ≤ start →
      ¬ state.1.isFree start size) :
    starts.foldl (markOne size) state = state := by
  induction starts with
  | nil => rfl
  | cons start starts ih =>
    have skips : markOne size state start = state := by
      rw [markOne, if_neg]
      rintro ⟨isFrom, isFree⟩
      exact skipped start mem_cons_self isFrom isFree
    rw [foldl_cons, skips]
    exact ih fun start isIn =>
      skipped start (mem_cons_of_mem _ isIn)

/-- The marks are those of the cells, from a position on. -/
def MarksFrom (position : Nat) (cells : List (Cell Char))
    (marking : Marking) : Prop :=
  ∀ inside, position ≤ inside →
    (marking.masked inside ↔ Covered (spans position cells) inside)

/-- What is marked anew: some spans and what they cover. -/
structure Adds (before after : Marking) (fresh : List (Nat × Nat)) : Prop where
  spans : after.spans = before.spans ++ fresh
  masked : ∀ position,
    after.masked position ↔ before.masked position ∨ Covered fresh position

variable {literal : Text} {nonempty : literal ≠ []}
  {cells cells' : List (Cell Char)}

variable {position : Nat}

theorem covered_cons {span : Nat × Nat} {spans : List (Nat × Nat)} :
    Covered (span :: spans) position ↔
      (span.1 ≤ position ∧ position < span.2) ∨ Covered spans position := by
  simp [Covered]

theorem Marking.masked_mark {start : Nat} :
    (marking.mark start size).masked position ↔
      marking.masked position ∨
        (start ≤ position ∧ position < start + size) := by
  simp [Marking.mark]

theorem Adds.cons {after : Marking} {start : Nat} {fresh : List (Nat × Nat)}
    (adds : Adds (marking.mark start size) after fresh) :
    Adds marking after ((start, start + size) :: fresh) where
  spans := by rw [adds.spans, Marking.mark, append_assoc]; rfl
  masked := fun position => by
    rw [adds.masked, Marking.masked_mark, covered_cons, or_assoc]

/-- Marking a literal is masking its cells. -/
theorem marks_of_masks (masks : Masks literal nonempty cells cells')
    {free : Nat} (isFrom : free ≤ position)
    (marks : MarksFrom position cells marking) :
    ∃ fresh,
      Adds marking
        ((occurrences literal position (original cells)).foldl
          (markOne literal.length) (marking, free)).1 fresh ∧
      (spans position cells').Perm (spans position cells ++ fresh) := by
  have positive := length_pos_of_ne_nil nonempty
  induction masks generalizing position free marking with
  | nil =>
    refine ⟨[], ⟨(append_nil _).symm, fun inside => ?_⟩,
      List.Perm.refl _⟩
    exact ⟨Or.inl, fun isIn => isIn.elim (fun isMasked => isMasked) nofun⟩
  | @gone rest _ stretch some masks ih =>
    obtain ⟨inside, whole, bounds⟩ := occurrences_append literal stretch
      (original rest) position
    -- Where the stretch is, every position is masked already.
    have skipped : inside.foldl (markOne literal.length) (marking, free) =
        (marking, free) := by
      refine foldl_markOne_of_skipped fun start isIn _ isFree => ?_
      obtain ⟨notLess, less⟩ := bounds start isIn
      refine Marking.isFree_iff.mp isFree start (le_refl _) (by omega)
        ((marks start notLess).mpr ?_)
      exact covered_cons.mpr (Or.inl ⟨notLess, less⟩)
    have later : MarksFrom (position + stretch.length) rest marking := by
      intro inside notLess
      rw [marks inside (by omega), spans, covered_cons]
      exact or_iff_right fun isIn => absurd isIn.2 (by omega)
    obtain ⟨fresh, adds, perm⟩ := ih
      (isFrom.trans (Nat.le_add_right _ _)) later
    rw [original, whole, foldl_append, skipped]
    exact ⟨fresh, adds, perm.cons _⟩
  | @pass rest _ char notHere masks ih =>
    have later : MarksFrom (position + 1) rest marking :=
      fun inside notLess => marks inside (by omega)
    obtain ⟨fresh, adds, perm⟩ := ih
      (isFrom.trans (Nat.le_succ _)) later
    refine ⟨fresh, ?_, perm⟩
    rw [original, occurrences]
    split
    · next isFront =>
        -- What is read here is not all kept, so some of it is masked.
        have skips : markOne literal.length (marking, free) position =
            (marking, free) := by
          rw [markOne, if_neg]
          rintro ⟨-, isFree⟩
          refine notHere (@kept_of_not_covered (.kept char :: rest) position _
            isFront ?_)
          intro inside notLess less isCovered
          exact Marking.isFree_iff.mp isFree inside notLess less
            ((marks inside notLess).mpr isCovered)
        rw [foldl_cons, skips]
        exact adds
    · exact adds
  | @hit rest _ masks ih =>
    have kept : spans position (literal.map Cell.kept ++ rest) =
        spans (position + literal.length) rest := spans_map_kept _ _ _
    have isFree : marking.isFree position literal.length := by
      refine Marking.isFree_iff.mpr fun inside notLess less isMasked => ?_
      refine @not_covered_before rest _ _ less ?_
      rw [← kept]
      exact (marks inside notLess).mp isMasked
    have marked : markOne literal.length (marking, free) position =
        (marking.mark position literal.length,
          position + literal.length) := by
      rw [markOne, if_pos ⟨isFrom, isFree⟩]
    have later : MarksFrom (position + literal.length) rest
        (marking.mark position literal.length) := by
      intro inside notLess
      rw [Marking.masked_mark, marks inside (by omega), kept]
      exact or_iff_left fun isIn => absurd isIn.2 (by omega)
    obtain ⟨fresh, adds, perm⟩ :=
      ih (le_refl _) later
    obtain ⟨inside, whole, bounds⟩ :=
      occurrences_self nonempty (original rest) position
    -- A literal which overlaps itself is free from its end on.
    have skipped := @foldl_markOne_of_skipped literal.length
      (marking.mark position literal.length, position + literal.length)
      inside
      fun start isIn isFrom => absurd (bounds start isIn) (not_lt.mpr isFrom)
    refine ⟨(position, position + literal.length) :: fresh, ?_, ?_⟩
    · rw [original_map_kept, whole, foldl_cons, marked,
        foldl_append, skipped]
      exact adds.cons
    · rw [kept]
      exact (perm.cons _).trans perm_middle.symm

/-! ## All literals -/

/-- The marks show the cells. -/
structure Shows (marking : Marking) (cells : List (Cell Char)) : Prop where
  spanned : (spans 0 cells).Perm marking.spans
  marked : MarksFrom 0 cells marking

theorem covered_perm {first second : List (Nat × Nat)}
    (perm : first.Perm second) :
    Covered first position ↔ Covered second position :=
  exists_congr fun _ => and_congr_left fun _ => perm.mem_iff

theorem covered_append {first second : List (Nat × Nat)} :
    Covered (first ++ second) position ↔
      Covered first position ∨ Covered second position := by
  simp [Covered, or_and_right, exists_or]

theorem Shows.markLiteral (shows : Shows marking cells)
    (masks : Masks literal nonempty cells cells') :
    Shows (markLiteral marking literal.length
      (occurrences literal 0 (original cells))) cells' := by
  obtain ⟨fresh, adds, perm⟩ := marks_of_masks masks (le_refl 0) shows.marked
  refine ⟨perm.trans ?_, fun inside notLess => ?_⟩
  · exact adds.spans ▸ shows.spanned.append_right fresh
  · rw [covered_perm perm, covered_append, ← shows.marked inside notLess]
    exact adds.masked inside

theorem spanOrder_antisymm {first second : Nat × Nat}
    (notMore : spanOrder first second) (notLess : spanOrder second first) :
    first = second := by
  rcases notMore with less | ⟨same, notMore⟩ <;>
    rcases notLess with more | ⟨same', notLess⟩
  · omega
  · omega
  · omega
  · exact Prod.ext same (le_antisymm notMore notLess)

/-- In order the spans are those of the cells. -/
theorem Shows.sorted (shows : Shows marking cells) :
    marking.spans.insertionSort spanOrder = spans 0 cells := by
  have : Std.Total spanOrder := ⟨fun first second => by
    simp only [spanOrder]
    omega⟩
  have : IsTrans (Nat × Nat) spanOrder := ⟨fun first second third => by
    simp only [spanOrder]
    omega⟩
  have inOrder : (spans 0 cells).Pairwise spanOrder := by
    refine (List.Pairwise.and_mem.mp (pairwise_spans 0 cells)).imp ?_
    rintro first second ⟨isFirst, isSecond, behind⟩
    have := (spans_bounds isFirst).2
    exact Or.inl (by omega)
  refine (((perm_insertionSort spanOrder _).trans
    shows.spanned.symm)).eq_of_pairwise ?_
      (pairwise_insertionSort spanOrder _) inOrder
  intro first second _ _ notMore notLess
  exact spanOrder_antisymm notMore notLess

/-- Splicing them gives the masked text. -/
theorem spliced_spans {text front : Text}
    (whole : text = front ++ original cells)
    (isInside : position ≤ front.length) :
    spliced text position (spans front.length cells) =
      front.drop position ++ render mask cells := by
  induction cells generalizing front position with
  | nil =>
    rw [whole, original, append_nil]
    exact (append_nil _).symm
  | cons cell rest ih =>
    cases cell with
    | kept char =>
      have step := @ih position (front ++ [char])
        (by simp [whole, original])
        (by rw [length_append]; omega)
      rw [length_append, length_singleton,
        drop_append_of_le_length isInside, append_assoc]
        at step
      exact step
    | gone stretch some =>
      have step := @ih (front ++ stretch).length
        (front ++ stretch) (by simp [whole, original]) (le_refl _)
      rw [drop_length, nil_append, length_append] at step
      rw [spans, spliced, step, whole, take_left, render, append_assoc]

end Hal0.Redaction
