import Mathlib.Order.Lattice
import Mathlib.Tactic.Common

/-!
# The first greatest element

Of the elements with the greatest score, `max` takes the first.
-/

namespace Hal0.Firsts

open List

variable {Element Score : Type*} [LinearOrder Score] (score : Element → Score)

/-- `max(elements, key=score)` -/
def firstMax : List Element → Option Element
  | [] => none
  | first :: rest =>
    some (rest.foldl (fun best next =>
      if score best < score next then next else best) first)

/-- What stands before has a lesser score, and what stands after no greater. -/
def IsFirstMax (elements : List Element) (best : Element) : Prop :=
  ∃ before after, elements = before ++ best :: after ∧
    (∀ element ∈ before, score element < score best) ∧
      ∀ element ∈ after, score element ≤ score best

variable {score} {elements : List Element} {first second best : Element}

theorem IsFirstMax.mem (isBest : IsFirstMax score elements best) :
    best ∈ elements := by
  obtain ⟨before, after, rfl, -, -⟩ := isBest
  simp

theorem IsFirstMax.bound (isBest : IsFirstMax score elements best)
    {element : Element} (isIn : element ∈ elements) :
    score element ≤ score best := by
  obtain ⟨before, after, rfl, less, notMore⟩ := isBest
  rcases mem_append.mp isIn with isBefore | isLater
  · exact (less element isBefore).le
  · rcases mem_cons.mp isLater with rfl | isAfter
    · exact le_refl _
    · exact notMore element isAfter

theorem IsFirstMax.cons (isBest : IsFirstMax score elements best)
    (less : score first < score best) :
    IsFirstMax score (first :: elements) best := by
  obtain ⟨before, after, rfl, lessBefore, notMore⟩ := isBest
  refine ⟨first :: before, after, rfl, ?_, notMore⟩
  intro element isIn
  rcases mem_cons.mp isIn with rfl | isBefore
  · exact less
  · exact lessBefore element isBefore

/-- A second that is no better changes nothing. -/
theorem IsFirstMax.insert
    (isBest : IsFirstMax score (first :: elements) best)
    (notMore : score second ≤ score first) :
    IsFirstMax score (first :: second :: elements) best := by
  obtain ⟨before, after, whole, lessBefore, notMoreAfter⟩ := isBest
  cases before with
  | nil =>
    cases whole
    refine ⟨[], second :: elements, rfl, nofun, ?_⟩
    intro element isIn
    rcases mem_cons.mp isIn with rfl | isAfter
    · exact notMore
    · exact notMoreAfter element isAfter
  | cons head before =>
    cases whole
    refine ⟨first :: second :: before, after, rfl, ?_, notMoreAfter⟩
    intro element isIn
    simp only [mem_cons] at isIn
    rcases isIn with rfl | rfl | isBefore
    · exact lessBefore element mem_cons_self
    · exact notMore.trans_lt (lessBefore first mem_cons_self)
    · exact lessBefore element (mem_cons_of_mem _ isBefore)

theorem isFirstMax_foldl (first : Element) (rest : List Element) :
    IsFirstMax score (first :: rest)
      (rest.foldl (fun best next =>
        if score best < score next then next else best) first) := by
  induction rest generalizing first with
  | nil => exact ⟨[], [], rfl, nofun, nofun⟩
  | cons next rest ih =>
    rw [foldl_cons]
    split
    · next less =>
        have isBest := ih next
        exact isBest.cons
          (less.trans_le (isBest.bound mem_cons_self))
    · next notLess =>
        exact (ih first).insert (not_lt.mp notLess)

/-- There is one such element. -/
theorem IsFirstMax.unique (isFirst : IsFirstMax score elements first)
    (isSecond : IsFirstMax score elements second) : first = second := by
  have noMore := isFirst.bound isSecond.mem
  have noLess := isSecond.bound isFirst.mem
  obtain ⟨before, after, rfl, lessFirst, -⟩ := isFirst
  obtain ⟨before', after', whole, lessSecond, -⟩ := isSecond
  rcases append_eq_append_iff.mp whole with
    ⟨between, beforeIs, restIs⟩ | ⟨between, beforeIs, restIs⟩
  · cases between with
    | nil => exact (List.cons.inj restIs).1
    | cons head between =>
      obtain ⟨rfl, -⟩ := List.cons.inj restIs
      have isBefore : first ∈ before' := by simp [beforeIs]
      exact absurd (lessSecond first isBefore) (not_lt.mpr noMore)
  · cases between with
    | nil => exact (List.cons.inj restIs).1.symm
    | cons head between =>
      obtain ⟨rfl, -⟩ := List.cons.inj restIs
      have isBefore : second ∈ before := by simp [beforeIs]
      exact absurd (lessFirst second isBefore) (not_lt.mpr noLess)

theorem firstMax_eq_some_iff :
    firstMax score elements = some best ↔ IsFirstMax score elements best := by
  cases elements with
  | nil => exact ⟨nofun, fun isBest => absurd isBest.mem not_mem_nil⟩
  | cons first rest =>
    constructor
    · rintro ⟨⟩
      exact isFirstMax_foldl first rest
    · intro isBest
      exact congrArg some ((isFirstMax_foldl first rest).unique isBest)

end Hal0.Firsts
