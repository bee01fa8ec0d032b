import Hal0.Slots.EvictionOrder
import Hal0.Slots.Reservations

/-!
# When the admission gate gives up

`admit` plans its evictions once, from the estimated footprints, and then
goes by the probes: after each unload it reads the free memory again, stops as
soon as that covers the target, and raises when the plan is exhausted.  An
unload may fail, and may free less than its estimate; a candidate which the
plan left out is never tried.

This is one call of `admit`, with everything it reads as an argument; the
calls beside each other are in `Hal0.Slots.Reservations`.
-/

namespace Hal0.Slots.PreloadEvict

open Hal0.Slots.Reservations (Settings Host)

/-! ## The gate -/

/-- How `host.unload` ends, and what the probe after it reads. -/
inductive Unload where
  | done (probedMb : Option Rat)
  | illegalTransition
  | failed
  | cancelled
deriving DecidableEq, Repr

/-- A slot, and what unloading it gave. -/
structure EvictionStep where
  slot : String
  freedMb : Rat
deriving DecidableEq, Repr

/-- What the gate has tried, and what it last probed. -/
structure Attempts where
  probedMb : Option Rat
  attempted : List CandidateSlot
  executed : List EvictionStep
deriving DecidableEq, Repr

/-- What a load needs, and what is reserved. -/
structure Demand where
  neededMb : Rat
  headroomMb : Rat
  reservedByOthers : Rat

def Demand.target (demand : Demand) : Rat :=
  demand.neededMb + demand.headroomMb

/-- `free_mb >= target`; a probe which fails answers infinity. -/
def Demand.covered (demand : Demand) : Option Rat → Bool
  | none => true
  | some probedMb => demand.target ≤ probedMb - demand.reservedByOthers

/-- The loop over the planned candidates; `none` when it is cancelled. -/
def evictPlanned (demand : Demand) (unloads : Nat → Unload) :
    Attempts → List CandidateSlot → Option Attempts
  | attempts, [] => some attempts
  | attempts, candidate :: rest =>
    let tried := { attempts with
      attempted := attempts.attempted ++ [candidate] }
    match unloads attempts.attempted.length with
    | .cancelled => none
    | .illegalTransition | .failed =>
      evictPlanned demand unloads tried rest
    | .done probedMb =>
      let evicted := { tried with
        probedMb := probedMb
        executed := tried.executed ++
          [⟨candidate.name, candidate.footprintMb⟩] }
      if demand.covered probedMb then some evicted
      else evictPlanned demand unloads evicted rest

/-- `round(x)`, to the nearest integer and to the even one of two. -/
def roundHalfEven (amount : Rat) : Int :=
  let part := amount - amount.floor
  if part < 1 / 2 then amount.floor
  else if 1 / 2 < part then amount.floor + 1
  else if amount.floor % 2 = 0 then amount.floor
  else amount.floor + 1

/-- `round(x, 1)` -/
def round1 (amount : Rat) : Rat := roundHalfEven (10 * amount) / 10

/-- The `details` of `PreloadEvictionFailed`. -/
structure PreloadEvictionFailed where
  slot : String
  modelId : String
  evicted : List String
  freedMb : Rat
  freeMb : Rat
  neededMb : Rat
  headroomMb : Rat
  shortfallMb : Rat
deriving DecidableEq, Repr

/-- How the admission of a load ends. -/
inductive Outcome where
  | passed
  | admitted (attempts : Attempts)
  | refused (attempts : Attempts) (failure : PreloadEvictionFailed)
  | cancelled
deriving DecidableEq, Repr

/-- The error when the gate is still short of the target. -/
def shortfall (slot modelId : String) (demand : Demand) (attempts : Attempts)
    (probedMb : Rat) : PreloadEvictionFailed :=
  let freeMb := probedMb - demand.reservedByOthers
  { slot := slot
    modelId := modelId
    evicted := attempts.executed.map EvictionStep.slot
    freedMb := round1 (attempts.executed.map EvictionStep.freedMb).sum
    freeMb := round1 freeMb
    neededMb := round1 demand.neededMb
    headroomMb := round1 demand.headroomMb
    shortfallMb := round1 (demand.target - freeMb) }

/-- The decision after the loop. -/
def conclude (slot modelId : String) (demand : Demand) :
    Option Attempts → Outcome
  | none => .cancelled
  | some attempts =>
    match attempts.probedMb with
    | none => .admitted attempts
    | some probedMb =>
      if demand.covered (some probedMb) then .admitted attempts
      else .refused attempts
        (shortfall slot modelId demand attempts probedMb)

/-- What a load of `neededMb` into `slot` asks for. -/
def demandOf (settings : Settings) (host : Host) (slot : String)
    (neededMb : Rat) : Demand :=
  ⟨neededMb, settings.headroomMb, host.reservedByOthers slot⟩

/-- The candidates which are planned after a probe which is too low. -/
def plannedFor (demand : Demand) (candidates : List CandidateSlot)
    (probedMb : Rat) : List CandidateSlot :=
  (selectEvictionOrder candidates demand.neededMb demand.headroomMb
    (probedMb - demand.reservedByOthers)).selected

/-- `admit`, up to its `yield`. -/
def admitLoad (settings : Settings) (host : Host) (slot modelId : String)
    (neededMb : Rat) (probedMb : Option Rat)
    (candidates : List CandidateSlot) (unloads : Nat → Unload) : Outcome :=
  if !settings.enabled then .passed
  else if neededMb ≤ 0 then .passed
  else
    let demand := demandOf settings host slot neededMb
    let start := Attempts.mk probedMb [] []
    match probedMb with
    | none => .admitted start
    | some probed =>
      if demand.covered (some probed) then .admitted start
      else conclude slot modelId demand (evictPlanned demand unloads start
        (plannedFor demand candidates probed))

/-! ## The loop -/

/-- The unload ends the loop: cancelled, or with enough free memory. -/
def Demand.Ends (demand : Demand) : Unload → Prop
  | .done probedMb => demand.covered probedMb = true
  | .illegalTransition | .failed => False
  | .cancelled => True

/-- The last probe does not cover the demand. -/
def Demand.Short (demand : Demand) (attempts : Attempts) : Prop :=
  demand.covered attempts.probedMb = false

variable {demand : Demand} {unloads : Nat → Unload}

variable {attempts : Attempts}

theorem evictPlanned_of_ends
    (ends : demand.Ends (unloads attempts.attempted.length))
    (candidate : CandidateSlot) (rest : List CandidateSlot) :
    ∀ final,
      evictPlanned demand unloads attempts (candidate :: rest) = some final →
        ¬ demand.Short final := by
  intro final isFinal short
  rw [evictPlanned] at isFinal
  cases ending : unloads attempts.attempted.length with
  | cancelled =>
    rw [ending] at isFinal
    cases isFinal
  | illegalTransition =>
    rw [ending] at ends
    exact ends
  | failed =>
    rw [ending] at ends
    exact ends
  | done probedMb =>
    rw [ending] at ends isFinal
    have covered : demand.covered probedMb = true := ends
    simp only [covered, if_true, Option.some.injEq] at isFinal
    rw [← isFinal, Demand.Short, covered] at short
    cases short

theorem evictPlanned_goesOn
    (goesOn : ¬ demand.Ends (unloads attempts.attempted.length))
    (candidate : CandidateSlot) (rest : List CandidateSlot) :
    ∃ tried, tried.attempted = attempts.attempted ++ [candidate] ∧
      (demand.Short attempts → demand.Short tried) ∧
      evictPlanned demand unloads attempts (candidate :: rest) =
        evictPlanned demand unloads tried rest := by
  rw [evictPlanned]
  cases ending : unloads attempts.attempted.length with
  | cancelled =>
    rw [ending] at goesOn
    exact absurd trivial goesOn
  | illegalTransition =>
    exact ⟨{ attempts with
      attempted := attempts.attempted ++ [candidate] }, rfl, id, rfl⟩
  | failed =>
    exact ⟨{ attempts with
      attempted := attempts.attempted ++ [candidate] }, rfl, id, rfl⟩
  | done probedMb =>
    rw [ending] at goesOn
    have low : demand.covered probedMb = false := by
      simpa [Demand.Ends] using goesOn
    refine ⟨⟨probedMb, attempts.attempted ++ [candidate],
      attempts.executed ++ [⟨candidate.name, candidate.footprintMb⟩]⟩,
      rfl, fun _ => low, ?_⟩
    simp only [low]
    rfl

/-- Some unload of the candidates, tried from `start` on, ends the loop. -/
def Demand.EndsWithin (demand : Demand) (unloads : Nat → Unload)
    (start count : Nat) : Prop :=
  ∃ index, index < count ∧ demand.Ends (unloads (start + index))

theorem endsWithin_succ {start count : Nat} :
    demand.EndsWithin unloads start (count + 1) ↔
      demand.Ends (unloads start) ∨
        demand.EndsWithin unloads (start + 1) count := by
  constructor
  · rintro ⟨index, isLess, ends⟩
    cases index with
    | zero => exact .inl ends
    | succ index =>
      refine .inr ⟨index, Nat.lt_of_succ_lt_succ isLess, ?_⟩
      rwa [Nat.add_assoc, Nat.add_comm 1 index]
  · rintro (ends | ⟨index, isLess, ends⟩)
    · exact ⟨0, Nat.zero_lt_succ _, ends⟩
    · refine ⟨index + 1, Nat.succ_lt_succ isLess, ?_⟩
      rwa [Nat.add_assoc, Nat.add_comm 1 index] at ends

/-- The loop ends at the first that fits. -/
theorem evictPlanned_spec (unloads : Nat → Unload)
    (planned : List CandidateSlot) (short : demand.Short attempts) :
    (demand.EndsWithin unloads attempts.attempted.length planned.length →
      ∀ final, evictPlanned demand unloads attempts planned = some final →
        ¬ demand.Short final) ∧
    (¬ demand.EndsWithin unloads attempts.attempted.length planned.length →
      ∃ final, evictPlanned demand unloads attempts planned = some final ∧
        demand.Short final ∧
        final.attempted = attempts.attempted ++ planned) := by
  induction planned generalizing attempts with
  | nil =>
    constructor
    · rintro ⟨index, isLess, -⟩
      cases isLess
    · intro goesOn
      exact ⟨attempts, rfl, short, by simp⟩
  | cons candidate rest later =>
    rw [List.length_cons, endsWithin_succ]
    by_cases ends : demand.Ends (unloads attempts.attempted.length)
    · constructor
      · intro endsWithin
        exact evictPlanned_of_ends ends candidate rest
      · intro goesOn
        exact absurd (.inl ends) goesOn
    · obtain ⟨tried, isTried, stillShort, next⟩ :=
        evictPlanned_goesOn ends candidate rest
      have triedLength : tried.attempted.length =
          attempts.attempted.length + 1 := by
        rw [isTried, List.length_append, List.length_singleton]
      obtain ⟨whenEnds, whenGoesOn⟩ := later (stillShort short)
      rw [triedLength] at whenEnds whenGoesOn
      rw [next, or_iff_right ends]
      refine ⟨whenEnds, ?_⟩
      intro goesOn
      obtain ⟨final, isFinal, finalShort, all⟩ := whenGoesOn goesOn
      refine ⟨final, isFinal, finalShort, ?_⟩
      rw [all, isTried, List.append_assoc]
      rfl

/-! ## The outcome -/

/--
The gate gives up only when every eligible candidate has been tried, and
otherwise what it last probed covers the load beside the other reservations.
-/
structure GivesUpLast (demand : Demand) (candidates : List CandidateSlot)
    (outcome : Outcome) : Prop where
  triedAll : ∀ attempts failure, outcome = .refused attempts failure →
    attempts.attempted.Perm (candidates.filter CandidateSlot.eligible)
  covers : ∀ attempts probedMb, outcome = .admitted attempts →
    attempts.probedMb = some probedMb →
    demand.neededMb + demand.headroomMb ≤
      probedMb - demand.reservedByOthers

theorem covered_some {probedMb : Rat} :
    demand.covered (some probedMb) = true ↔
      demand.target ≤ probedMb - demand.reservedByOthers :=
  decide_eq_true_iff

/-- An admitted load has its memory. -/
theorem conclude_covers {slot modelId : String} {final : Option Attempts}
    {probedMb : Rat}
    (admitted : conclude slot modelId demand final = .admitted attempts)
    (probed : attempts.probedMb = some probedMb) :
    demand.target ≤ probedMb - demand.reservedByOthers := by
  cases final with
  | none => cases admitted
  | some final =>
    rw [conclude] at admitted
    split at admitted
    · next unprobed =>
        cases admitted
        rw [unprobed] at probed
        cases probed
    · next last isLast =>
        split at admitted
        · next covered =>
            cases admitted
            rw [isLast] at probed
            cases probed
            exact covered_some.mp covered
        · cases admitted

/-- When a load is refused. -/
theorem conclude_refused_iff (slot modelId : String)
    {final : Option Attempts} :
    (∃ failure,
      conclude slot modelId demand final = .refused attempts failure) ↔
      final = some attempts ∧ demand.Short attempts := by
  cases final with
  | none =>
    constructor
    · rintro ⟨failure, refused⟩
      cases refused
    · rintro ⟨same, -⟩
      cases same
  | some final =>
    rw [conclude]
    constructor
    · rintro ⟨failure, refused⟩
      split at refused
      · cases refused
      · next last isLast =>
          split at refused
          · cases refused
          · next low =>
              cases refused
              rw [Demand.Short, isLast]
              exact ⟨rfl, by simpa using low⟩
    · rintro ⟨same, short⟩
      cases same
      rw [Demand.Short] at short
      cases last : attempts.probedMb with
      | none =>
        rw [last] at short
        cases short
      | some probedMb =>
        rw [last] at short
        exact ⟨shortfall slot modelId demand attempts probedMb,
          by simp [short]⟩

/--
Where the load needs evictions, an unload of a planned candidate ends them,
or the plan has all eligible candidates.
-/
def PlanSuffices (settings : Settings) (host : Host) (slot : String)
    (neededMb : Rat) (probedMb : Option Rat)
    (candidates : List CandidateSlot) (unloads : Nat → Unload) : Prop :=
  ∀ probed, settings.enabled = true → 0 < neededMb →
    probedMb = some probed →
    (demandOf settings host slot neededMb).covered (some probed) = false →
    (demandOf settings host slot neededMb).EndsWithin unloads 0
        (plannedFor (demandOf settings host slot neededMb) candidates
          probed).length ∨
      (plannedFor (demandOf settings host slot neededMb) candidates
        probed).Perm (candidates.filter CandidateSlot.eligible)

/-- The ways through `admit`: no gate, no need to evict, or the plan. -/
theorem admitLoad_cases (settings : Settings) (host : Host)
    (slot modelId : String) (neededMb : Rat) (probedMb : Option Rat)
    (candidates : List CandidateSlot) (unloads : Nat → Unload) :
    ((settings.enabled = false ∨ neededMb ≤ 0) ∧
      admitLoad settings host slot modelId neededMb probedMb candidates
        unloads = .passed) ∨
    ((demandOf settings host slot neededMb).covered probedMb = true ∧
      admitLoad settings host slot modelId neededMb probedMb candidates
        unloads = .admitted ⟨probedMb, [], []⟩) ∨
    (∃ probed, probedMb = some probed ∧ settings.enabled = true ∧
      0 < neededMb ∧
      (demandOf settings host slot neededMb).covered (some probed) = false ∧
      admitLoad settings host slot modelId neededMb probedMb candidates
        unloads =
        conclude slot modelId (demandOf settings host slot neededMb)
          (evictPlanned (demandOf settings host slot neededMb) unloads
            ⟨some probed, [], []⟩
            (plannedFor (demandOf settings host slot neededMb) candidates
              probed))) := by
  rw [admitLoad]
  cases enabled : settings.enabled with
  | false => exact .inl ⟨.inl rfl, rfl⟩
  | true =>
    rw [if_neg (by simp)]
    by_cases needsNothing : neededMb ≤ 0
    · exact .inl ⟨.inr needsNothing, if_pos needsNothing⟩
    · rw [if_neg needsNothing]
      apply Or.inr
      cases probedMb with
      | none => exact .inl ⟨rfl, rfl⟩
      | some probed =>
        cases covered : (demandOf settings host slot neededMb).covered
            (some probed) with
        | true =>
          apply Or.inl
          simp [covered]
        | false =>
          refine .inr ⟨probed, rfl, rfl, not_le.mp needsNothing,
            covered, ?_⟩
          simp [covered]

/-- The gate keeps its promise exactly when its plan suffices. -/
theorem gives_up_last_iff (settings : Settings) (host : Host)
    (slot modelId : String) (neededMb : Rat) (probedMb : Option Rat)
    (candidates : List CandidateSlot) (unloads : Nat → Unload) :
    GivesUpLast (demandOf settings host slot neededMb) candidates
        (admitLoad settings host slot modelId neededMb probedMb candidates
          unloads) ↔
      PlanSuffices settings host slot neededMb probedMb candidates
        unloads := by
  rcases admitLoad_cases settings host slot modelId neededMb probedMb candidates
      unloads with
    ⟨noGate, passed⟩ | ⟨covered, admitted⟩ |
    ⟨probed, rfl, enabled, needed, low, planned⟩
  · rw [passed]
    constructor
    · intro givesUpLast probed enabled needed
      rcases noGate with disabled | needsNothing
      · rw [disabled] at enabled
        cases enabled
      · exact absurd needed (not_lt.mpr needsNothing)
    · intro enough
      constructor
      · intro attempts failure refused
        cases refused
      · intro attempts probedMb admitted
        cases admitted
  · rw [admitted]
    constructor
    · rintro givesUpLast probed enabled needed rfl low
      rw [covered] at low
      cases low
    · intro enough
      constructor
      · intro attempts failure refused
        cases refused
      · rintro attempts probed same isProbed
        cases same
        cases isProbed
        exact covered_some.mp covered
  · rw [planned]
    have short : (demandOf settings host slot neededMb).Short
        ⟨some probed, [], []⟩ := low
    obtain ⟨whenEnds, whenGoesOn⟩ := evictPlanned_spec unloads
      (plannedFor (demandOf settings host slot neededMb) candidates probed)
      short
    constructor
    · rintro givesUpLast other - - same -
      cases same
      by_cases ends : (demandOf settings host slot neededMb).EndsWithin
          unloads 0 (plannedFor (demandOf settings host slot neededMb)
            candidates probed).length
      · exact .inl ends
      · obtain ⟨final, isFinal, short, all⟩ := whenGoesOn ends
        obtain ⟨failure, refused⟩ :=
          (conclude_refused_iff slot modelId).mpr ⟨isFinal, short⟩
        have triedAll := givesUpLast.triedAll final failure refused
        rw [all, List.nil_append] at triedAll
        exact .inr triedAll
    · intro enough
      constructor
      · intro attempts failure refused
        obtain ⟨isFinal, short⟩ :=
          (conclude_refused_iff slot modelId).mp ⟨failure, refused⟩
        rcases enough probed enabled needed rfl low with ends | everyOne
        · exact absurd short (whenEnds ends attempts isFinal)
        · by_cases ends : (demandOf settings host slot neededMb).EndsWithin
              unloads 0 (plannedFor (demandOf settings host slot neededMb)
                candidates probed).length
          · exact absurd short (whenEnds ends attempts isFinal)
          · obtain ⟨final, sameFinal, -, all⟩ := whenGoesOn ends
            rw [isFinal] at sameFinal
            cases sameFinal
            rw [all, List.nil_append]
            exact everyOne
      · intro attempts last admitted isLast
        exact conclude_covers admitted isLast

/-- Two idle slots; the first frees less than its estimate. -/
theorem gives_up_before_second_candidate :
    ¬ GivesUpLast
      (demandOf ⟨true, 1024⟩ ⟨0, [], none, fun _ => none, []⟩ "chat" 4000)
      [⟨"draft", 1, 4000, true, "", 50⟩, ⟨"embed", 2, 4000, true, "", 50⟩]
      (admitLoad ⟨true, 1024⟩ ⟨0, [], none, fun _ => none, []⟩ "chat" "big" 4000
        (some 2000)
        [⟨"draft", 1, 4000, true, "", 50⟩,
          ⟨"embed", 2, 4000, true, "", 50⟩]
        fun _ => .done (some 2500)) := by
  intro givesUpLast
  have refused : admitLoad ⟨true, 1024⟩ ⟨0, [], none, fun _ => none, []⟩ "chat"
      "big" 4000 (some 2000)
      [⟨"draft", 1, 4000, true, "", 50⟩, ⟨"embed", 2, 4000, true, "", 50⟩]
      (fun _ => .done (some 2500)) =
        .refused
          ⟨some 2500, [⟨"draft", 1, 4000, true, "", 50⟩],
            [⟨"draft", 4000⟩]⟩
          ⟨"chat", "big", ["draft"], 4000, 2500, 4000, 1024, 2524⟩ := by
    decide +kernel
  have triedAll := (givesUpLast.triedAll _ _ refused).length_eq
  revert triedAll
  decide +kernel

end Hal0.Slots.PreloadEvict
