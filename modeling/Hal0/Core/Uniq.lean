import Mathlib.Data.List.Sort

/-!
# Sorting and keeping the first of each key

A list is sorted in a stable way, and of the elements of one key the first is
kept.  What is kept of a key is the first element of it in the list as it was.
-/

namespace Hal0.Uniq

open List

variable {Element Key : Type*} [DecidableEq Key] (key : Element → Key)

/-- The first element of each key which was not seen. -/
def uniqueFrom (seen : List Key) : List Element → List Element
  | [] => []
  | element :: rest =>
    if key element ∈ seen then uniqueFrom seen rest
    else element :: uniqueFrom (key element :: seen) rest

variable {key}

theorem uniqueFrom_sublist (seen : List Key) (elements : List Element) :
    (uniqueFrom key seen elements).Sublist elements := by
  induction elements generalizing seen with
  | nil => exact List.Sublist.refl []
  | cons element rest ih =>
    rw [uniqueFrom]
    split
    · exact (ih seen).cons element
    · exact (ih _).cons_cons element

theorem not_mem_uniqueFrom {seen : List Key} {elements : List Element}
    {element : Element} (isSeen : key element ∈ seen) :
    element ∉ uniqueFrom key seen elements := by
  induction elements generalizing seen with
  | nil => exact not_mem_nil
  | cons first rest ih =>
    rw [uniqueFrom]
    split
    · exact ih isSeen
    · next notSeen =>
        intro isIn
        rcases mem_cons.mp isIn with rfl | isLater
        · exact notSeen isSeen
        · exact ih (mem_cons_of_mem _ isSeen) isLater

theorem pairwise_uniqueFrom (seen : List Key) (elements : List Element) :
    (uniqueFrom key seen elements).Pairwise
      fun first second => key first ≠ key second := by
  induction elements generalizing seen with
  | nil => exact List.Pairwise.nil
  | cons element rest ih =>
    rw [uniqueFrom]
    split
    · exact ih seen
    · refine List.Pairwise.cons ?_ (ih _)
      intro other isIn same
      exact not_mem_uniqueFrom (same ▸ mem_cons_self) isIn

/-- The first of a key is the one that stays. -/
theorem find?_uniqueFrom {seen : List Key} {wanted : Key}
    (notSeen : wanted ∉ seen) (elements : List Element) :
    (uniqueFrom key seen elements).find? (fun element =>
        key element = wanted) =
      elements.find? fun element => key element = wanted := by
  induction elements generalizing seen with
  | nil => rfl
  | cons element rest ih =>
    rw [uniqueFrom]
    by_cases isWanted : key element = wanted
    · have isNew : key element ∉ seen := by
        rw [isWanted]
        exact notSeen
      rw [if_neg isNew, find?_cons_of_pos (by simpa using isWanted),
        find?_cons_of_pos (by simpa using isWanted)]
    · rw [find?_cons_of_neg (by simpa using isWanted)]
      split
      · exact ih notSeen
      · rw [find?_cons_of_neg (by simpa using isWanted)]
        apply ih
        rw [mem_cons, not_or]
        exact ⟨Ne.symm isWanted, notSeen⟩

/-- Alike elements keep their order. -/
theorem filter_mergeSort {below : Element → Element → Bool}
    (trans : ∀ first second third, below first second → below second third →
      below first third)
    (total : ∀ first second, below first second || below second first)
    {test : Element → Bool}
    (alike : ∀ first second, test first → test second → below first second)
    (elements : List Element) :
    (elements.mergeSort below).filter test = elements.filter test := by
  have sorted : (elements.filter test).Pairwise fun first second =>
      below first second = true := by
    apply pairwise_of_forall_mem_list
    intro first isFirst second isSecond
    exact alike first second (mem_filter.mp isFirst).2
      (mem_filter.mp isSecond).2
  have inside := (sublist_mergeSort trans total sorted
    filter_sublist).filter test
  rw [filter_filter] at inside
  simp only [Bool.and_self] at inside
  have lengths := ((mergeSort_perm elements below).filter test).length_eq
  exact (inside.eq_of_length lengths.symm).symm

theorem find?_mergeSort {below : Element → Element → Bool}
    (trans : ∀ first second third, below first second → below second third →
      below first third)
    (total : ∀ first second, below first second || below second first)
    {test : Element → Bool}
    (alike : ∀ first second, test first → test second → below first second)
    (elements : List Element) :
    (elements.mergeSort below).find? test = elements.find? test := by
  rw [← head?_filter, ← head?_filter, filter_mergeSort trans total alike]

end Hal0.Uniq
