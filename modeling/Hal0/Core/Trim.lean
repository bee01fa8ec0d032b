import Mathlib.Data.List.DropRight

/-!
# Trimming

A text without the blanks at its ends.  Trimming keeps what is not blank, so
it can be read backwards: what it hides was blank.
-/

namespace Hal0.Trim

open List

variable {χ : Type*} (blank : χ → Bool)

/-- The text without blanks at its ends. -/
def trim (text : List χ) : List χ :=
  (text.dropWhile blank).rdropWhile blank

theorem trim_decomposes (text : List χ) :
    ∃ lead trail, (∀ char ∈ lead, blank char) ∧
      (∀ char ∈ trail, blank char) ∧
        text = lead ++ trim blank text ++ trail := by
  refine ⟨text.takeWhile blank, (text.dropWhile blank).rtakeWhile blank,
    ?_, ?_, ?_⟩
  · intro char isIn
    exact mem_takeWhile_imp isIn
  · intro char isIn
    exact mem_rtakeWhile_imp isIn
  · rw [trim, append_assoc, rdropWhile_append_rtakeWhile,
      takeWhile_append_dropWhile]

theorem filter_of_blank {text : List χ} (isBlank : ∀ char ∈ text, blank char) :
    text.filter (fun char => !blank char) = [] := by
  apply filter_eq_nil_iff.mpr
  intro char isIn
  rw [isBlank char isIn]
  decide

theorem filter_trim (text : List χ) :
    (trim blank text).filter (fun char => !blank char) =
      text.filter fun char => !blank char := by
  obtain ⟨lead, trail, leadBlank, trailBlank, parts⟩ :=
    trim_decomposes blank text
  conv_rhs => rw [parts]
  rw [filter_append, filter_append, filter_of_blank blank leadBlank,
    filter_of_blank blank trailBlank, nil_append, append_nil]

theorem trim_append_of_blank (text : List χ) {trail : List χ}
    (trailBlank : ∀ char ∈ trail, blank char) :
    trim blank (text ++ trail) = trim blank text := by
  rw [trim, trim, dropWhile_append]
  split
  · next isEmpty =>
      rw [isEmpty_iff.mp isEmpty, dropWhile_eq_nil_iff.mpr trailBlank]
  · rw [List.rdropWhile, List.rdropWhile, reverse_append,
      dropWhile_append_of_pos]
    intro char isIn
    exact trailBlank char (mem_reverse.mp isIn)

theorem trim_append_eq_iff (text trail : List χ) :
    trim blank (text ++ trail) = trim blank text ↔
      ∀ char ∈ trail, blank char := by
  constructor
  · intro same char isIn
    have filtered := congrArg (List.filter fun char => !blank char) same
    rw [filter_trim, filter_trim, filter_append,
      append_right_eq_self] at filtered
    have notBlank := filter_eq_nil_iff.mp filtered char isIn
    simpa using notBlank
  · exact trim_append_of_blank blank text

/-- A solid mark does not begin in blanks. -/
theorem infix_of_blank_append {mark lead text : List χ}
    (solid : ∀ char ∈ mark, blank char = false) (nonempty : mark ≠ [])
    (leadBlank : ∀ char ∈ lead, blank char) :
    mark <:+: lead ++ text → mark <:+: text := by
  induction lead with
  | nil => exact id
  | cons char lead ih =>
    intro isInfix
    rw [cons_append, infix_cons_iff] at isInfix
    rcases isInfix with isPrefix | isInfix
    · cases mark with
      | nil => exact absurd rfl nonempty
      | cons head mark =>
        obtain ⟨rfl, _⟩ := cons_prefix_cons.mp isPrefix
        have isBlank := leadBlank head mem_cons_self
        rw [solid head mem_cons_self] at isBlank
        cases isBlank
    · exact ih
        (fun other isIn => leadBlank other (mem_cons_of_mem _ isIn))
        isInfix

theorem infix_of_append_blank {mark text trail : List χ}
    (solid : ∀ char ∈ mark, blank char = false) (nonempty : mark ≠ [])
    (trailBlank : ∀ char ∈ trail, blank char)
    (isInfix : mark <:+: text ++ trail) : mark <:+: text := by
  rw [← List.reverse_infix, reverse_append] at isInfix
  rw [← List.reverse_infix]
  apply infix_of_blank_append blank _ _ _ isInfix
  · intro char isIn
    exact solid char (mem_reverse.mp isIn)
  · simpa using nonempty
  · intro char isIn
    exact trailBlank char (mem_reverse.mp isIn)

theorem infix_trim_iff {mark : List χ}
    (solid : ∀ char ∈ mark, blank char = false) (nonempty : mark ≠ [])
    (text : List χ) : mark <:+: trim blank text ↔ mark <:+: text := by
  obtain ⟨lead, trail, leadBlank, trailBlank, parts⟩ :=
    trim_decomposes blank text
  constructor
  · intro isInfix
    rw [parts]
    exact isInfix.trans ⟨lead, trail, rfl⟩
  · intro isInfix
    rw [parts] at isInfix
    exact infix_of_blank_append blank solid nonempty leadBlank
      (infix_of_append_blank blank solid nonempty trailBlank isInfix)

/-- Trimming once is enough. -/
theorem trim_trim (text : List χ) :
    trim blank (trim blank text) = trim blank text := by
  have front : (trim blank text).dropWhile blank = trim blank text := by
    apply dropWhile_eq_self_iff.mpr
    intro nonempty
    have isPrefix : trim blank text <+: text.dropWhile blank :=
      List.rdropWhile_prefix _ _
    have longer := Nat.lt_of_lt_of_le nonempty isPrefix.length_le
    have same : (trim blank text)[0] = (text.dropWhile blank)[0] :=
      isPrefix.getElem nonempty
    rw [same]
    exact dropWhile_get_zero_not blank text longer
  rw [trim, front]
  exact rdropWhile_idempotent _ _

end Hal0.Trim
