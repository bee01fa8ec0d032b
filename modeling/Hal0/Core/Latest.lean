import Mathlib.Tactic.Common

/-!
# The last entry of a list with a property

Where later entries replace earlier ones, the last entry with a key is the
one which counts: it is what a dictionary filled from the list has under the
key.
-/

namespace Hal0.Latest

open List
open Std

variable {α : Type}

/-- The last entry of the list with the property. -/
def IsLatest (has : α → Prop) (items : List α) (item : α) : Prop :=
  ∃ earlier later, items = earlier ++ item :: later ∧ has item ∧
    ∀ other ∈ later, ¬ has other

variable {has : α → Prop} {items : List α} {item : α}

section

variable (latest : IsLatest has items item)
include latest

theorem IsLatest.mem : item ∈ items := by
  obtain ⟨earlier, later, whole, -, -⟩ := latest
  rw [whole]
  exact mem_append_right earlier mem_cons_self

theorem IsLatest.holds : has item := by
  obtain ⟨-, -, -, hasIt, -⟩ := latest
  exact hasIt

theorem IsLatest.cons (first : α) :
    IsLatest has (first :: items) item := by
  obtain ⟨earlier, later, whole, hasIt, none⟩ := latest
  exact ⟨first :: earlier, later, by rw [whole, cons_append], hasIt, none⟩

theorem IsLatest.prepend
    (earlier : List α) : IsLatest has (earlier ++ items) item := by
  obtain ⟨before, after, whole, hasIt, none⟩ := latest
  exact ⟨earlier ++ before, after, by rw [whole, append_assoc], hasIt,
    none⟩

end

/-- The first item counts where no later one does. -/
theorem isLatest_cons {first : α} :
    IsLatest has (first :: items) item ↔
      IsLatest has items item ∨
        (item = first ∧ has first ∧ ∀ other ∈ items, ¬ has other) := by
  constructor
  · rintro ⟨earlier, later, whole, hasIt, none⟩
    cases earlier with
    | nil =>
      cases whole
      exact .inr ⟨rfl, hasIt, none⟩
    | cons head earlier =>
      cases whole
      exact .inl ⟨earlier, later, rfl, hasIt, none⟩
  · rintro (latest | ⟨rfl, hasIt, none⟩)
    · exact latest.cons first
    · exact ⟨[], items, rfl, hasIt, none⟩

/-- There is none, or a latest one. -/
theorem exists_isLatest (has : α → Prop) (items : List α) :
    (∀ item ∈ items, ¬ has item) ∨ ∃ item, IsLatest has items item := by
  induction items with
  | nil =>
    left
    intro item listed
    cases listed
  | cons first rest later =>
    rcases later with none | ⟨item, latest⟩
    · by_cases hasFirst : has first
      · exact .inr ⟨first, [], rest, rfl, hasFirst, none⟩
      · left
        intro item listed
        rcases mem_cons.mp listed with rfl | isLater
        · exact hasFirst
        · exact none item isLater
    · exact .inr ⟨item, latest.cons first⟩

/-- The last item counts where it has the property. -/
theorem isLatest_concat {last : α} :
    IsLatest has (items ++ [last]) item ↔
      (item = last ∧ has last) ∨ (¬ has last ∧ IsLatest has items item) := by
  induction items with
  | nil =>
    have never : ¬ IsLatest has ([] : List α) item :=
      fun latest => nomatch latest.mem
    simp [isLatest_cons, never]
  | cons first items ih =>
    rw [cons_append, isLatest_cons, isLatest_cons, ih]
    simp only [mem_append, mem_singleton]
    constructor
    · rintro ((isLast | ⟨hasNot, latest⟩) | ⟨isFirst, hasIt, none⟩)
      · exact Or.inl isLast
      · exact Or.inr ⟨hasNot, Or.inl latest⟩
      · exact Or.inr ⟨none last (Or.inr rfl), Or.inr
          ⟨isFirst, hasIt, fun other mem => none other (Or.inl mem)⟩⟩
    · rintro (isLast | ⟨hasNot, latest | ⟨isFirst, hasIt, none⟩⟩)
      · exact Or.inl (Or.inl isLast)
      · exact Or.inl (Or.inr ⟨hasNot, latest⟩)
      · refine Or.inr ⟨isFirst, hasIt, ?_⟩
        rintro other (mem | rfl)
        · exact none other mem
        · exact hasNot

theorem IsLatest.append {later : List α} (latest : IsLatest has items item)
    (none : ∀ other ∈ later, ¬ has other) :
    IsLatest has (items ++ later) item := by
  obtain ⟨before, after, rfl, hasIt, noneAfter⟩ := latest
  refine ⟨before, after ++ later, by simp, hasIt, ?_⟩
  intro other mem
  rcases mem_append.mp mem with mem | mem
  · exact noneAfter other mem
  · exact none other mem

theorem IsLatest.filter {keeps : α → Prop} [DecidablePred keeps]
    (latest : IsLatest (fun item => has item ∧ keeps item) items item) :
    IsLatest has (items.filter keeps) item := by
  obtain ⟨earlier, later, whole, ⟨hasIt, kept⟩, none⟩ := latest
  refine ⟨earlier.filter keeps, later.filter keeps, ?_, hasIt, ?_⟩
  · rw [whole, filter_append, filter_cons, if_pos (decide_eq_true kept)]
  · intro other listed hasOther
    obtain ⟨isLater, keptOther⟩ := mem_filter.mp listed
    exact none other isLater ⟨hasOther, of_decide_eq_true keptOther⟩

theorem IsLatest.map {β : Type} {image : α → β} {hasImage : β → Prop}
    (latest : IsLatest (fun item => hasImage (image item)) items item) :
    IsLatest hasImage (items.map image) (image item) := by
  obtain ⟨earlier, later, whole, hasIt, none⟩ := latest
  refine ⟨earlier.map image, later.map image, ?_, hasIt, ?_⟩
  · rw [whole, map_append, map_cons]
  · intro other listed
    obtain ⟨source, isLater, rfl⟩ := mem_map.mp listed
    exact none source isLater

/-! ## Dictionaries -/

variable {Key Value : Type} [Ord Key] [TransOrd Key] [LawfulEqOrd Key]

/-- `dict(items)` -/
def toDict (items : List (Key × Value)) : ExtTreeMap Key Value :=
  items.foldl (fun dict item => dict.insert item.1 item.2) ∅

theorem getElem?_foldl_insert_of_not_mem {items : List (Key × Value)}
    {key : Key} (absent : ∀ item ∈ items, item.1 ≠ key)
    (dict : ExtTreeMap Key Value) :
    (items.foldl (fun dict item => dict.insert item.1 item.2) dict)[key]? =
      dict[key]? := by
  induction items generalizing dict with
  | nil => rfl
  | cons item rest later =>
    have differs : ¬ item.1 = key := absent item mem_cons_self
    rw [foldl_cons, later fun other listed =>
      absent other (mem_cons_of_mem item listed)]
    simp [ExtTreeMap.getElem?_insert, differs]

theorem getElem?_toDict_of_not_mem {items : List (Key × Value)} {key : Key}
    (absent : ∀ item ∈ items, item.1 ≠ key) : (toDict items)[key]? = none := by
  rw [toDict, getElem?_foldl_insert_of_not_mem absent]
  simp

theorem getElem?_toDict {items : List (Key × Value)} {key : Key}
    {item : Key × Value}
    (latest : IsLatest (fun other => other.1 = key) items item) :
    (toDict items)[key]? = some item.2 := by
  obtain ⟨earlier, later, whole, rfl, none⟩ := latest
  rw [toDict, whole, foldl_append, foldl_cons,
    getElem?_foldl_insert_of_not_mem none]
  simp

end Hal0.Latest
