import Hal0.Slots.State
import Mathlib.Data.List.Sort
import Mathlib.Data.Rat.Defs

/-!
# Choosing slots to evict before a load

The pure part of pre-load eviction: which resident slots are eligible, and in
which order they are evicted until the incoming model fits.  Amounts are MiB
in exact arithmetic.
-/

namespace Hal0.Slots.PreloadEvict

/-- One resident slot considered for pre-load eviction. -/
structure CandidateSlot where
  name : String
  lastUsed : Rat
  footprintMb : Rat
  eligible : Bool
  reason : String
  priority : Int
deriving DecidableEq, Repr

/-- The order of `(priority, last_used)` tuples. -/
def CandidateSlot.Before (left right : CandidateSlot) : Prop :=
  left.priority < right.priority ∨
    (left.priority = right.priority ∧ left.lastUsed ≤ right.lastUsed)

instance : DecidableRel CandidateSlot.Before := fun left right =>
  inferInstanceAs
    (Decidable (left.priority < right.priority ∨
      (left.priority = right.priority ∧ left.lastUsed ≤ right.lastUsed)))

/-- Pure decision output of `selectEvictionOrder`. -/
structure PreloadEvictionPlan where
  neededMb : Rat
  headroomMb : Rat
  initialFreeMb : Rat
  projectedFreeMb : Rat
  selected : List CandidateSlot
  fits : Bool
deriving DecidableEq, Repr

/-- Take candidates in order until the projected free memory covers `target`. -/
def takeUntilFits (target : Rat) :
    Rat → List CandidateSlot → List CandidateSlot × Rat
  | projected, [] => ([], projected)
  | projected, candidate :: rest =>
    if target ≤ projected then ([], projected)
    else
      let (selected, final) :=
        takeUntilFits target (projected + candidate.footprintMb) rest
      (candidate :: selected, final)

/-- Decide which candidates to evict, lowest priority first, until it fits. -/
def selectEvictionOrder (candidates : List CandidateSlot)
    (neededMb headroomMb freeMb : Rat) : PreloadEvictionPlan :=
  let target := neededMb + headroomMb
  if target ≤ freeMb then
    ⟨neededMb, headroomMb, freeMb, freeMb, [], true⟩
  else
    let eligible :=
      (candidates.filter CandidateSlot.eligible).insertionSort
        CandidateSlot.Before
    let (selected, projected) := takeUntilFits target freeMb eligible
    ⟨neededMb, headroomMb, freeMb, projected, selected,
      decide (target ≤ projected)⟩

theorem takeUntilFits_subset (target projected : Rat)
    (candidates : List CandidateSlot) :
    (takeUntilFits target projected candidates).1 ⊆ candidates := by
  induction candidates generalizing projected with
  | nil => simp [takeUntilFits]
  | cons candidate rest taken =>
    rw [takeUntilFits]
    split
    · exact List.nil_subset _
    · exact List.cons_subset_cons _ (taken _)

theorem mem_selected {candidates : List CandidateSlot}
    {neededMb headroomMb freeMb : Rat} {candidate : CandidateSlot}
    (selected : candidate ∈
      (selectEvictionOrder candidates neededMb headroomMb freeMb).selected) :
    candidate ∈ candidates ∧ candidate.eligible = true := by
  simp only [selectEvictionOrder] at selected
  split at selected
  · cases selected
  · have taken := takeUntilFits_subset _ _ _ selected
    rw [List.mem_insertionSort, List.mem_filter] at taken
    exact taken

/-! ## Eligibility -/

/-- What a config says about evicting its slot. -/
inductive ConfigVerdict where
  | unavailable
  | pinned
  | residentImg
  | evictable (priority : Int)
deriving DecidableEq, Repr

/-- What `_gather_candidates` reads about one swept slot. -/
structure SweptSlot where
  name : String
  lastUsed : Rat
  footprintMb : Rat
  servingCount : Nat
  state : SlotState
  config : ConfigVerdict
deriving DecidableEq, Repr

/-- `_DEFAULT_EVICTION_PRIORITY`. -/
def defaultEvictionPriority : Int := 50

/-- One round of the loop in `_gather_candidates`. -/
def SweptSlot.candidate (slot : SweptSlot) : CandidateSlot :=
  let build := fun eligible reason priority =>
    CandidateSlot.mk slot.name slot.lastUsed slot.footprintMb eligible
      reason priority
  if 0 < slot.servingCount then
    build false "serving" defaultEvictionPriority
  else if slot.state.isResident = false then
    build false "not_resident" defaultEvictionPriority
  else
    match slot.config with
    | .unavailable =>
      build false "config_unavailable" defaultEvictionPriority
    | .pinned => build false "pinned" defaultEvictionPriority
    | .residentImg => build false "resident_img" defaultEvictionPriority
    | .evictable priority => build true "" priority

/-- `_gather_candidates`, once the slot list and footprints have been read. -/
def gatherCandidates (exclude : String) (sweep : List SweptSlot) :
    List CandidateSlot :=
  (sweep.filter fun slot => slot.name ≠ exclude).map SweptSlot.candidate

@[simp]
theorem SweptSlot.candidate_name (slot : SweptSlot) :
    slot.candidate.name = slot.name := by
  simp only [SweptSlot.candidate]
  split_ifs
  · rfl
  · rfl
  · split <;> rfl

theorem ne_exclude_of_mem_selected {exclude : String}
    {sweep : List SweptSlot} {neededMb headroomMb freeMb : Rat}
    {candidate : CandidateSlot}
    (selected : candidate ∈
      (selectEvictionOrder (gatherCandidates exclude sweep)
        neededMb headroomMb freeMb).selected) :
    candidate.name ≠ exclude := by
  have gathered := (mem_selected selected).1
  simp only [gatherCandidates, List.mem_map, List.mem_filter,
    decide_eq_true_eq] at gathered
  obtain ⟨slot, ⟨-, distinct⟩, rfl⟩ := gathered
  simpa using distinct

end Hal0.Slots.PreloadEvict
