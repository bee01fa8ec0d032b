import Hal0.Slots.PreloadEvict
import Mathlib.Algebra.Order.Ring.Rat
import Mathlib.Data.List.Infix

/-!
# What the eviction planner selects

`select_eviction_order` sorts the eligible candidates by priority and last
use, and takes them in this order until the projected free memory covers the
target.  So the selected candidates are the shortest beginning of the sorted
list which frees enough, or all of it.
-/

namespace Hal0.Slots.PreloadEvict

open List

/-! ## Stable sorting -/

section StablySorted

variable {Element : Type}

/-- The items in the order `before`, where equal ones keep their order. -/
structure StablySorted (before : Element → Element → Prop)
    (items sorted : List Element) : Prop where
  perm : sorted.Perm items
  ordered : sorted.Pairwise before
  stable : ∀ chosen : List Element, chosen.Sublist items →
    chosen.Pairwise before → chosen.Sublist sorted

theorem stablySorted_insertionSort (before : Element → Element → Prop)
    [DecidableRel before] [Std.Total before] [IsTrans Element before]
    (items : List Element) :
    StablySorted before items (items.insertionSort before) where
  perm := perm_insertionSort before items
  ordered := pairwise_insertionSort before items
  stable := by
    intro chosen among ordered
    exact sublist_insertionSort ordered among

end StablySorted

instance : Std.Total CandidateSlot.Before where
  total left right := by
    rcases lt_trichotomy left.priority right.priority with
      lower | same | higher
    · exact .inl (.inl lower)
    · rcases le_total left.lastUsed right.lastUsed with older | newer
      · exact .inl (.inr ⟨same, older⟩)
      · exact .inr (.inr ⟨same.symm, newer⟩)
    · exact .inr (.inl higher)

instance : IsTrans CandidateSlot CandidateSlot.Before where
  trans first second third := by
    rintro (lower | ⟨same, older⟩) (lowerToo | ⟨sameToo, olderToo⟩)
    · exact .inl (lower.trans lowerToo)
    · exact .inl (lower.trans_eq sameToo)
    · exact .inl (same.trans_lt lowerToo)
    · exact .inr ⟨same.trans sameToo, older.trans olderToo⟩

/-! ## The shortest beginning which frees enough -/

/-- What unloading them frees. -/
def freedMb (candidates : List CandidateSlot) : Rat :=
  (candidates.map CandidateSlot.footprintMb).sum

/-- The shortest beginning which brings `freeMb` to `target`, or all. -/
structure ShortestPrefix (target freeMb : Rat)
    (ordered selected : List CandidateSlot) : Prop where
  begins : selected <+: ordered
  short : ∀ shorter, shorter <+: selected → shorter ≠ selected →
    freeMb + freedMb shorter < target
  enough : target ≤ freeMb + freedMb selected ∨ selected = ordered

theorem shortestPrefix_nil {target freeMb : Rat} (fits : target ≤ freeMb)
    (ordered : List CandidateSlot) :
    ShortestPrefix target freeMb ordered [] where
  begins := List.nil_prefix
  short := by
    intro shorter begins longer
    exact absurd (prefix_nil.mp begins) longer
  enough := by
    left
    simpa [freedMb] using fits

theorem ShortestPrefix.cons {target freeMb : Rat}
    {candidate : CandidateSlot} {ordered selected : List CandidateSlot}
    (short : freeMb < target)
    (later : ShortestPrefix target (freeMb + candidate.footprintMb) ordered
      selected) :
    ShortestPrefix target freeMb (candidate :: ordered)
      (candidate :: selected) where
  begins := cons_prefix_cons.mpr ⟨rfl, later.begins⟩
  short := by
    intro shorter begins longer
    cases shorter with
    | nil => simpa [freedMb] using short
    | cons first rest =>
      obtain ⟨rfl, restBegins⟩ := cons_prefix_cons.mp begins
      have restLonger : rest ≠ selected := by
        rintro rfl
        exact longer rfl
      have stillShort := later.short rest restBegins restLonger
      simpa [freedMb, add_assoc] using stillShort
  enough := by
    rcases later.enough with enough | rfl
    · left
      simpa [freedMb, add_assoc] using enough
    · exact .inr rfl

/-- The loop stops at the first that fits. -/
theorem takeUntilFits_spec (target freeMb : Rat)
    (ordered : List CandidateSlot) :
    ShortestPrefix target freeMb ordered
        (takeUntilFits target freeMb ordered).1 ∧
      (takeUntilFits target freeMb ordered).2 =
        freeMb + freedMb (takeUntilFits target freeMb ordered).1 := by
  induction ordered generalizing freeMb with
  | nil =>
    constructor
    · refine ⟨prefix_rfl, ?_, .inr rfl⟩
      intro shorter begins longer
      exact absurd (prefix_nil.mp begins) longer
    · simp [takeUntilFits, freedMb]
  | cons candidate rest later =>
    rw [takeUntilFits]
    by_cases fits : target ≤ freeMb
    · rw [if_pos fits]
      constructor
      · exact shortestPrefix_nil fits _
      · simp [freedMb]
    · rw [if_neg fits]
      obtain ⟨shortest, added⟩ := later (freeMb + candidate.footprintMb)
      constructor
      · exact shortest.cons (not_le.mp fits)
      · show (takeUntilFits target _ rest).2 = _
        rw [added]
        simp [freedMb, add_assoc]

/-! ## The plan -/

/-- What the planner promises for its candidates and amounts. -/
structure Selects (candidates : List CandidateSlot)
    (neededMb headroomMb freeMb : Rat) (plan : PreloadEvictionPlan) :
    Prop where
  shortest : ∃ ordered,
    StablySorted CandidateSlot.Before
      (candidates.filter CandidateSlot.eligible) ordered ∧
    ShortestPrefix (neededMb + headroomMb) freeMb ordered plan.selected
  eligible : ∀ candidate ∈ plan.selected,
    candidate ∈ candidates ∧ candidate.eligible = true
  lowest : ∃ unselected,
    (plan.selected ++ unselected).Perm
      (candidates.filter CandidateSlot.eligible) ∧
    ∀ candidate ∈ plan.selected, ∀ other ∈ unselected,
      candidate.Before other
  projected : plan.projectedFreeMb = freeMb + freedMb plan.selected
  fits : plan.fits = true ↔ neededMb + headroomMb ≤ plan.projectedFreeMb

/-- No shorter prefix would do. -/
theorem selects_shortest_prefix (candidates : List CandidateSlot)
    (neededMb headroomMb freeMb : Rat) :
    Selects candidates neededMb headroomMb freeMb
      (selectEvictionOrder candidates neededMb headroomMb freeMb) := by
  have sorted := stablySorted_insertionSort CandidateSlot.Before
    (candidates.filter CandidateSlot.eligible)
  obtain ⟨taken, added⟩ := takeUntilFits_spec (neededMb + headroomMb) freeMb
    ((candidates.filter CandidateSlot.eligible).insertionSort
      CandidateSlot.Before)
  have shortest : ShortestPrefix (neededMb + headroomMb) freeMb
      ((candidates.filter CandidateSlot.eligible).insertionSort
        CandidateSlot.Before)
      (selectEvictionOrder candidates neededMb headroomMb
        freeMb).selected := by
    rw [selectEvictionOrder]
    split
    · next fits => exact shortestPrefix_nil fits _
    · exact taken
  obtain ⟨unselected, whole⟩ := shortest.begins
  refine ⟨⟨_, sorted, shortest⟩, fun _ => mem_selected,
    ⟨unselected, ?_, ?_⟩, ?_, ?_⟩
  · rw [whole]
    exact sorted.perm
  · have ordered := sorted.ordered
    rw [← whole, pairwise_append] at ordered
    exact ordered.2.2
  · rw [selectEvictionOrder]
    split
    · simp [freedMb]
    · exact added
  · rw [selectEvictionOrder]
    split
    · next fits => simp [fits]
    · exact decide_eq_true_iff

end Hal0.Slots.PreloadEvict
