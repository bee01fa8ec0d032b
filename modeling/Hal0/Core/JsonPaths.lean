import Hal0.Core.Records

/-!
# Values inside a value

A path leads through keys and indices to a value inside another.  The order of
the keys does not change what is found.
-/

namespace Hal0.Json

open List

variable {Real : Type}

/-- A key or an index. -/
inductive Step where
  | key (name : String)
  | item (index : Nat)

/-- The value behind one step. -/
def child : Value Real → Step → Option (Value Real)
  | .dict entries, .key name => entries.lookup name
  | .list items, .item index => items[index]?
  | _, _ => none

/-- The value at a path. -/
def inside : Value Real → List Step → Option (Value Real)
  | value, [] => some value
  | value, step :: path => (child value step).bind fun value =>
    inside value path

/-! ## The order of keys -/

theorem lookup_orderedInsert (entry : String × Value Real)
    (entries : List (String × Value Real)) (name : String) :
    (entries.orderedInsert (fun first second => first.1 ≤ second.1)
      entry).lookup name = (entry :: entries).lookup name := by
  induction entries with
  | nil => rfl
  | cons first rest ih =>
    rw [orderedInsert_cons]
    split
    · rfl
    · next behind =>
        have differ : entry.1 ≠ first.1 := fun same =>
          behind (le_of_eq same)
        rw [lookup_cons, ih, lookup_cons,
          lookup_cons, lookup_cons]
        by_cases isFirst : name = first.1
        · have other : (name == entry.1) = false := by
            rw [beq_eq_false_iff_ne, isFirst]
            exact Ne.symm differ
          rw [isFirst, beq_self_eq_true, ← isFirst, other]
        · have other : (name == first.1) = false := by simpa using isFirst
          rw [other]

theorem lookup_insertionSort (entries : List (String × Value Real))
    (name : String) :
    (entries.insertionSort fun first second => first.1 ≤ second.1).lookup
      name = entries.lookup name := by
  induction entries with
  | nil => rfl
  | cons entry rest ih =>
    rw [insertionSort_cons, lookup_orderedInsert, lookup_cons,
      lookup_cons, ih]

theorem lookup_sortedEntries (entries : List (String × Value Real))
    (name : String) :
    (sortedEntries entries).lookup name = (entries.lookup name).map sorted := by
  induction entries with
  | nil => rfl
  | cons entry rest ih =>
    obtain ⟨key, value⟩ := entry
    rw [sortedEntries, lookup_cons, lookup_cons, ih]
    cases name == key <;> rfl

theorem getElem?_sortedItems (items : List (Value Real)) (index : Nat) :
    (sortedItems items)[index]? = items[index]?.map sorted := by
  induction items generalizing index with
  | nil => rfl
  | cons item rest ih =>
    rw [sortedItems]
    cases index with
    | zero => rfl
    | succ index => exact ih index

/-- Sorting changes no value at a step. -/
theorem child_sorted (value : Value Real) (step : Step) :
    child (sorted value) step = (child value step).map sorted := by
  cases value with
  | dict entries =>
    cases step with
    | key name =>
      exact (lookup_insertionSort _ name).trans
        (lookup_sortedEntries entries name)
    | item index => rfl
  | list items =>
    cases step with
    | key name => rfl
    | item index => exact getElem?_sortedItems items index
  | _ => rfl

theorem inside_sorted (value : Value Real) (path : List Step) :
    inside (sorted value) path = (inside value path).map sorted := by
  induction path generalizing value with
  | nil => rfl
  | cons step path ih =>
    rw [inside, inside, child_sorted]
    cases child value step with
    | none => rfl
    | some value => exact ih value

end Hal0.Json
