import Hal0.Slots.StatusPolls
import Mathlib.Order.Monotone.Basic
import Mathlib.Order.MinMax

/-!
# The crash-loop breaker

`_load` asks the breaker's gate in `ERROR` and in the states of a load that
did not converge; from every other state it goes on to its spawn.  A failed
slot keeps its failure count when an unload, a poll or a refusal moves it to
`OFFLINE`.  Here: the breaker holds in every run in which no load finds its
window open outside the gated states, and the runs in which one does.
-/

namespace Hal0.Slots.Lifecycle

open Hal0.Transition Hal0.Monitor

/-! ## The interval -/

/-- The interval in exact arithmetic, which no count overflows. -/
def backoff (failures : Nat) : Nat :=
  if crashLoopParkAfter ≤ failures then
    min (crashLoopMax * 2 ^ (failures - crashLoopParkAfter)) crashLoopParkMax
  else
    min (crashLoopBase * 2 ^ (failures - 1)) crashLoopMax

/-- From 1029 failures on, `_crash_loop_remaining_s` raises. -/
theorem crashLoopInterval_eq (failures : Nat) :
    crashLoopInterval failures =
      if failures < 1029 then some (backoff failures) else none := by
  have few : failures - crashLoopParkAfter < 1024 ↔ failures < 1029 := by
    unfold crashLoopParkAfter
    omega
  unfold crashLoopInterval backoff
  by_cases parked : crashLoopParkAfter ≤ failures
  · simp only [parked, if_true, few]
  · have below : failures < 1029 := lt_trans (not_le.mp parked) (by decide)
    simp only [parked, if_false, below, if_true]

theorem backoff_le (failures : Nat) : backoff failures ≤ crashLoopParkMax := by
  unfold backoff
  split_ifs
  · exact Nat.min_le_right _ _
  · exact (Nat.min_le_right _ _).trans (by decide)

/-- The window never gets shorter. -/
theorem backoff_mono : Monotone backoff := by
  apply monotone_nat_of_le_succ
  intro failures
  unfold backoff
  by_cases parked : crashLoopParkAfter ≤ failures
  · rw [if_pos parked, if_pos (Nat.le_succ_of_le parked), Nat.succ_sub parked]
    apply min_le_min_right
    apply Nat.mul_le_mul_left
    exact Nat.pow_le_pow_right (by decide) (Nat.le_succ _)
  · rw [if_neg parked]
    split_ifs with parks
    · refine (Nat.min_le_right _ _).trans (le_min ?_ (by decide))
      exact Nat.le_mul_of_pos_right _ (Nat.two_pow_pos _)
    · apply min_le_min_right
      apply Nat.mul_le_mul_left
      exact Nat.pow_le_pow_right (by decide) (Nat.sub_le_sub_right
        (Nat.le_succ _) 1)

/-! ## The count follows the failures -/

/-- `_load_failures` counts the failures since the last convergence. -/
def Counted (slot : Slot) : Prop :=
  slot.loadFailures = failureStreak slot.log

variable {slot : Slot}

theorem Counted.write (counted : Counted slot)
    (write : Write) : Counted (slot.write write) := by
  unfold Counted Slot.write
  dsimp only
  split_ifs
  · rfl
  · exact counted

theorem Counted.countFailure (counted : Counted slot) :
    Counted slot.countFailure := by
  unfold Counted Slot.countFailure failureStreak
  rw [counted]

theorem Counted.changes {after : Slot} (changes : Changes slot after)
    (counted : Counted slot) : Counted after := by
  induction changes with
  | refl slot => exact counted
  | write write rest ih => exact ih (counted.write write)
  | count rest ih => exact ih counted.countFailure
  | release rest ih => exact ih counted
  | reserve side rest ih => exact ih counted
  | watch tokens token rest ih => exact ih counted

theorem Counted.resume (counted : Counted slot) (pc : Pc)
    (reply : Reply) : Counted (slot.resume pc reply).1 := by
  cases waits : pc.acquires with
  | true =>
    have entered : Counted slot.enter := counted
    exact entered.changes (Changes.acquire reply waits)
  | false => exact counted.changes (Changes.resume reply waits)

variable {pc : Pc}

theorem Counted.start {started : Slot} (begun : slot.start pc = some started)
    (counted : Counted slot) :
    Counted started := by
  unfold Slot.start at begun
  split at begun
  case h_1 | h_6 =>
    obtain ⟨-, same⟩ := Option.ite_none_right_eq_some.1 begun
    cases same
    exact counted
  case h_2 | h_3 =>
    cases begun
    exact counted
  case h_4 | h_5 =>
    obtain ⟨-, same⟩ := Option.ite_none_right_eq_some.1 begun
    cases same
    rfl
  case h_7 => cases begun

/-! ## From the gate to the spawn -/

/-- An attempt which may still come to its spawn. -/
def Pc.spawnsLater : Pc → Bool
  | .converge _ | .tearDown _ | .tornDown _ | .pullEvent _ | .pulling _
  | .checks _ | .fabricGuard _ | .enterAdmit _ | .startingEvent _
  | .spawn _ => true
  | _ => false

theorem Pc.inAttempt_of_spawnsLater
    (spawns : pc.spawnsLater = true) : pc.inAttempt = true := by
  cases pc with
  | _ => first | rfl | cases spawns

/-- Who spawns later has passed the gate. -/
def Cleared (slot : Slot) (pc : Pc) : Prop :=
  pc.spawnsLater = true → slot.gateOpen = true

theorem cleared_past (past : pc.spawnsLater = false) : Cleared slot pc := by
  intro spawns
  rw [past] at spawns
  cases spawns

theorem cleared_aside (slot : Slot) (pc : Pc)
    (outside : pc.inAttempt = false) (_ : pc.isPoll = false) :
    Cleared slot pc := by
  intro spawns
  rw [Pc.inAttempt_of_spawnsLater spawns] at outside
  cases outside

theorem gateOpen_iff :
    slot.gateOpen = true ↔
      ∀ failures last, slot.loadFailures = some (failures, last) →
        failures ≠ 0 →
          failures < 1029 ∧ last + backoff failures ≤ slot.now := by
  unfold Slot.gateOpen crashLoopRemaining
  rw [decide_eq_true_eq]
  cases slot.loadFailures with
  | none => simp
  | some entry =>
    obtain ⟨failures, last⟩ := entry
    by_cases none_ : failures = 0
    · simp [none_]
    · by_cases few : failures < 1029
      · simp [none_, crashLoopInterval_eq, few, Nat.sub_eq_zero_iff_le]
      · simp [none_, crashLoopInterval_eq, few]

theorem gateOpen_write (write : Write)
    (passed : slot.gateOpen = true) : (slot.write write).gateOpen = true := by
  rw [gateOpen_iff] at passed ⊢
  intro failures last stored
  simp only [Slot.write] at stored ⊢
  split_ifs at stored
  exact passed failures last stored

theorem gateOpen_transition {after : Slot} {write : Write}
    (moved : slot.transition write = some after)
    (passed : slot.gateOpen = true) : after.gateOpen = true := by
  obtain ⟨-, same⟩ := Option.ite_none_right_eq_some.1 moved
  cases same
  exact gateOpen_write write passed

theorem cleared_proceed (attempt : Attempt) (reply : Reply)
    (passed : slot.gateOpen = true) :
    Leads Cleared (slot.proceed attempt reply) :=
  Leads.proceed cleared_aside attempt reply
    (fun _ _ moved _ => gateOpen_transition moved passed)
    fun _ _ => passed

/--
No load finds the breaker's window open in a state which the gate does not
cover, and the process lives on.
-/
def findsGate (slot : Slot) : Pc → Bool
  | .loadConfig _ =>
    slot.state = .error || slot.state.isInFlight || slot.gateOpen
  | _ => true

/-- No load passes the breaker by. -/
def Gated (world : SlotWorld) : SlotAction → Prop
  | .resume task _ =>
    (world.tasks task).all (findsGate world.shared) = true
  | .restart => False
  | _ => True

instance (world : SlotWorld) (action : SlotAction) :
    Decidable (Gated world action) :=
  match action with
  | .resume _ _ => inferInstanceAs (Decidable (_ = true))
  | .restart => isFalse fun impossible => impossible
  | .start _ _ | .cancel _ | .occur _ => isTrue trivial

theorem cleared_loadWith (modelId : Option String) (reply : Reply)
    (finds : slot.state = .error ∨ slot.state.isInFlight = true ∨
      slot.gateOpen = true) :
    Leads Cleared (slot.loadWith modelId reply) := by
  have ungated : slot.state ≠ .error → slot.state.isInFlight = false →
      slot.gateOpen = true := by
    intro healthy settled
    rcases finds with failed | loading | passed
    · exact absurd failed healthy
    · rw [settled] at loading
      cases loading
    · exact passed
  refine Leads.loadWith modelId reply ?_ ?_ ?_ ?_
  · intro loaded attempt _
    apply ungated
    · intro failed
      rw [failed] at loaded
      cases loaded
    · cases found : slot.state <;> rw [found] at loaded <;>
        first | rfl | cases loaded
  · intro attempt spawns
    cases spawns
  · exact fun passed _ _ => passed
  · intro down attempt
    apply cleared_proceed
    rcases down with offline | unloading
    · exact ungated (by rw [offline]; nofun) (by rw [offline]; rfl)
    · exact ungated (by rw [unloading]; nofun) (by rw [unloading]; rfl)

/-- Who finds the gate open may spawn. -/
theorem cleared_resume (reply : Reply) (cleared : Cleared slot pc)
    (finds : findsGate slot pc = true) :
    Leads Cleared (slot.resume pc reply) := by
  cases within : pc.inAttempt with
  | false =>
    refine Leads.resume cleared_aside reply within ?_ ?_
    · rintro epoch probe rfl
      simp only [Slot.resume, Slot.statusTurn]
      split
      · exact Leads.waits (cleared_past rfl)
      · exact Leads.waits (cleared_past rfl)
      · exact Leads.ended
    · rintro modelId rfl
      apply cleared_loadWith
      simpa [findsGate, or_assoc] using finds
  | true =>
    cases pc with
    | converge attempt =>
      simp only [Slot.resume]
      split_ifs
      · exact Leads.waits fun _ => cleared rfl
      · exact Leads.loadStatus cleared_aside
    | stallActive attempt =>
      simp only [Slot.resume]
      split_ifs
      · exact Leads.ended
      · exact Leads.gated attempt fun passed _ => passed
    | tearDown attempt =>
      exact Leads.waits fun _ => gateOpen_write _ (cleared rfl)
    | tornDown attempt => exact cleared_proceed attempt reply (cleared rfl)
    | pullEvent attempt => exact Leads.waits fun _ => cleared rfl
    | pulling attempt =>
      exact Leads.onOutcome cleared_aside _ fun _ =>
        Leads.waits fun _ => cleared rfl
    | checks attempt =>
      exact Leads.onOutcome cleared_aside _ fun _ =>
        Leads.waits fun _ => cleared rfl
    | fabricGuard attempt =>
      exact Leads.guarded cleared_aside attempt reply.guard
        (fun _ => cleared rfl) fun _ _ => cleared rfl
    | enterAdmit attempt =>
      exact Leads.onOutcome cleared_aside _ fun _ =>
        Leads.transitionInside
          (fun _ moved _ => gateOpen_transition moved (cleared rfl))
          (cleared_past rfl)
    | startingEvent attempt => exact Leads.waits fun _ => cleared rfl
    | spawn attempt =>
      exact Leads.onOutcomeInside _
        (fun _ => Leads.transitionInside (fun _ _ => cleared_past rfl)
          (cleared_past rfl))
        (fun _ => cleared_past rfl) fun _ => cleared_past rfl
    | warmingEvent attempt => exact Leads.waits (cleared_past rfl)
    | awaitReady attempt =>
      refine Leads.onOutcomeInside _ (fun _ => ?_)
        (fun _ => cleared_past rfl) fun _ => cleared_past rfl
      split_ifs
      · exact Leads.waits (cleared_past rfl)
      · exact Leads.transitionInside (fun _ _ => cleared_past rfl)
          (cleared_past rfl)
    | unitFailure attempt =>
      simp only [Slot.resume]
      split
      · exact Leads.waits (cleared_past rfl)
      · exact Leads.transitionInside (fun _ _ => cleared_past rfl)
          (cleared_past rfl)
    | resolvedEvent attempt readiness => exact Leads.waits (cleared_past rfl)
    | leaveAdmit attempt ending =>
      cases ending with
      | raised message => exact Leads.raise cleared_aside attempt message
      | insane message =>
        exact Leads.raiseInsane cleared_aside attempt message
      | resolved readiness =>
        simp only [Slot.resume, Slot.afterAdmit]
        split_ifs
        · exact Leads.waits (cleared_past rfl)
        · exact Leads.loadStatus cleared_aside
    | persistDefault readiness => exact Leads.loadStatus cleared_aside
    | _ => cases within

theorem gateOpen_changes {after : Slot} (passed : slot.gateOpen = true)
    (now : slot.now ≤ after.now)
    (stored : after.loadFailures = slot.loadFailures ∨
      after.loadFailures = none) : after.gateOpen = true := by
  rw [gateOpen_iff] at passed ⊢
  intro failures last found counted
  rcases stored with same | cleared
  · rw [same] at found
    exact (passed failures last found counted).imp_right (·.trans now)
  · rw [cleared] at found
    cases found

theorem start_failures {started : Slot}
    (begun : slot.start pc = some started) :
    started.loadFailures = slot.loadFailures ∨
      started.loadFailures = none := by
  unfold Slot.start at begun
  split at begun
  case h_1 | h_6 =>
    obtain ⟨-, same⟩ := Option.ite_none_right_eq_some.1 begun
    cases same
    exact Or.inl rfl
  case h_2 | h_3 =>
    cases begun
    exact Or.inl rfl
  case h_4 | h_5 =>
    obtain ⟨-, same⟩ := Option.ite_none_right_eq_some.1 begun
    cases same
    exact Or.inr rfl
  case h_7 => cases begun

/-- No gated step spawns in the window. -/
theorem breaker_protects :
    Protects program Gated Counted Cleared where
  start := by
    intro world task pc shared counted _ started
    refine ⟨counted.start started, fun other _ _ cleared spawns => ?_⟩
    exact gateOpen_changes (cleared spawns)
      (Nat.le_of_eq (start_frame started).2.1.symm) (start_failures started)
  resume := by
    intro world task pc reply shared next counted permitted suspended owned
      resumed
    obtain ⟨rfl, rfl⟩ := resumed_eq resumed
    have finds : findsGate world.shared pc = true := by
      simpa [Gated, suspended] using permitted
    refine ⟨counted.resume pc reply, ?_, ?_⟩
    · intro counter awaited _
      refine cleared_resume reply ?_ finds counter awaited
      intro spawns
      apply owned _ spawns
      cases pc with
      | _ => first | rfl | cases spawns
    · intro outside unlocked other _ _ cleared spawns
      rcases Slot.outside_cases outside unlocked with
        ⟨epoch, probe, rfl⟩ | ⟨token, rfl⟩
      · have passed := cleared spawns
        simp only [Slot.resume, Slot.statusTurn]
        have kept : (world.shared.resumeStatus probe reply).1.gateOpen =
            true := by
          rcases resumeStatus_cases world.shared probe reply with
            kept | ⟨-, write, wrote⟩
          · rw [kept]
            exact passed
          · rw [wrote]
            exact gateOpen_write write passed
        split <;> exact kept
      · have passed := cleared spawns
        simp only [Slot.resume]
        split <;> exact passed
  cancel := by
    intro world task pc shared counted _ suspended _ abandoned
    cases abandoned
    exact ⟨counted, fun _ _ _ _ cleared => cleared⟩
  occur := by
    intro world event shared counted _ occurred
    cases occurred
    cases event with
    | elapse duration =>
      exact ⟨counted, fun _ _ _ cleared spawns =>
        gateOpen_changes (cleared spawns) (Nat.le_add_right _ _)
          (Or.inl rfl)⟩
    | unitChanges unit => exact ⟨counted, fun _ _ _ cleared => cleared⟩
    | resetLoadFailures =>
      exact ⟨rfl, fun _ _ _ cleared spawns =>
        gateOpen_changes (cleared spawns) (Nat.le_refl _) (Or.inr rfl)⟩
  restart := fun _ _ permitted => permitted.elim

/--
In every run in which no load finds the breaker's window open outside the
gated states: a spawn is attempted only when the interval after the last of
the failures since the last convergence has passed.  The interval never
decreases and is bounded, and it is the code's until that overflows.
-/
theorem breaker_holds_of_gated (record : Option Record) (unit : UnitHealth)
    (actions : List SlotAction) (world : SlotWorld)
    (run : Run program.step Gated (.quiet (.boot record unit)) actions
      world) :
    (∀ task attempt failures last,
      world.tasks task = some (.spawn attempt) →
      failureStreak world.shared.log = some (failures, last) →
        last + backoff failures ≤ world.shared.now) ∧
    Monotone backoff ∧ (∀ failures, backoff failures ≤ crashLoopParkMax) ∧
    ∀ failures, crashLoopInterval failures =
      if failures < 1029 then some (backoff failures) else none := by
  refine ⟨?_, backoff_mono, backoff_le, crashLoopInterval_eq⟩
  intro task attempt failures last spawning streak
  have boots : Counted (.boot record unit) := rfl
  have safe := (Safe.quiet boots).run breaker_protects run
  have passed := safe.owner task _ spawning rfl rfl
  have stored : world.shared.loadFailures = some (failures, last) :=
    safe.state.trans streak
  refine (gateOpen_iff.1 passed failures last stored ?_).2
  rintro rfl
  cases log : world.shared.log with
  | nil =>
    rw [log] at streak
    cases streak
  | cons event earlier =>
    rw [log] at streak
    cases event <;> simp [failureStreak] at streak

/-! ## Spawns behind the gate, and spawns around it -/

/-- The first load of the chat slot fails in its spawn. -/
def failsToSpawn : List SlotAction :=
  loadToSpawn ++
    [.resume 1 { outcome := .raised "unit failed" }, .resume 1 {},
      .resume 1 {}, .resume 1 {}]

/-- A later load of the chat slot, up to its spawn. -/
def loadAgain (task : Nat) : List SlotAction :=
  [.start task (.loadLock none), .resume task {}, .resume task {},
    .resume task { config := some chatConfig }, .resume task {},
    .resume task {}, .resume task {}, .resume task {}]

/-- The task spawns the unit; one failure, at time zero, precedes. -/
def spawnsAfterFailure (task : Nat) (world : SlotWorld) : Bool :=
  (match world.tasks task with
    | some (.spawn _) => true
    | _ => false) &&
    decide (failureStreak world.shared.log = some (1, 0))

theorem spawnsAfterFailure_iff {task : Nat} {world : SlotWorld} :
    spawnsAfterFailure task world = true ↔
      (∃ attempt, world.tasks task = some (.spawn attempt)) ∧
        failureStreak world.shared.log = some (1, 0) := by
  unfold spawnsAfterFailure
  rw [Bool.and_eq_true, decide_eq_true_eq]
  apply and_congr_left
  intro _
  split
  · rename_i spawning
    simp [spawning]
  · rename_i other
    simp only [Bool.false_eq_true, false_iff]
    rintro ⟨attempt, spawning⟩
    exact other attempt spawning

/-- The second load's spawn comes inside the window. -/
def spawnsEarly (world : SlotWorld) : Bool :=
  spawnsAfterFailure 2 world &&
    decide (world.shared.now < 0 + backoff 1)

theorem spawnsEarly_iff {world : SlotWorld} :
    spawnsEarly world = true ↔
      (∃ attempt, world.tasks 2 = some (.spawn attempt)) ∧
        failureStreak world.shared.log = some (1, 0) ∧
        world.shared.now < 0 + backoff 1 := by
  unfold spawnsEarly
  rw [Bool.and_eq_true, decide_eq_true_eq, spawnsAfterFailure_iff, and_assoc]

/-- A failed load, and one after the window. -/
def waitsForWindow : List SlotAction :=
  failsToSpawn ++ .occur (.elapse 5000) :: loadAgain 2 ++
    [.resume 2 {}, .resume 2 {}]

/-- A load waits for its window. -/
theorem breaker_holds_for_patient_load :
    ∃ world,
      Run program.step Gated
          (.quiet (.boot (some chatOffline) ⟨false, false⟩)) waitsForWindow
          world ∧
        (∃ attempt, world.tasks 2 = some (.spawn attempt)) ∧
        failureStreak world.shared.log = some (1, 0) ∧
        0 + backoff 1 ≤ world.shared.now := by
  obtain ⟨world, run, spawns⟩ := Run.exists_of_exec program.step Gated
    (.quiet (.boot (some chatOffline) ⟨false, false⟩)) waitsForWindow
    (spawnsAfterFailure 2) (by decide +kernel)
  obtain ⟨⟨attempt, spawning⟩, streak⟩ := spawnsAfterFailure_iff.1 spawns
  obtain ⟨holds, -⟩ := breaker_holds_of_gated _ _ _ _ run
  exact ⟨world, run, ⟨attempt, spawning⟩, streak,
    holds 2 attempt 1 0 spawning streak⟩

/-- An unload moves the failed slot to `OFFLINE`. -/
def unloadsFailed : List SlotAction :=
  failsToSpawn ++
    [.start 0 (.unloadLock false), .resume 0 {}, .resume 0 {},
      .resume 0 {}, .resume 0 {}, .resume 0 {}, .resume 0 {}]

/-- A poll finds the failed slot's unit stopped. -/
def pollsFailed : List SlotAction :=
  failsToSpawn ++
    [.start 0 (.status .poll 1 (.isActive (some
        { chatOffline with
          state := .error, port := 8081, message := "unit failed"
          loadFailures := 1 }))),
      .resume 0 {}, .resume 0 { yes := true }, .resume 0 {}]

/--
An unload, or a poll which finds the unit stopped, moves the failed slot to
`OFFLINE`; the next load spawns the unit at once, inside the window.
-/
theorem spawns_inside_window :
    (∃ world attempt,
      Run program.step Anything
          (.quiet (.boot (some chatOffline) ⟨false, false⟩))
          (unloadsFailed ++ loadAgain 2) world ∧
        world.tasks 2 = some (.spawn attempt) ∧
        failureStreak world.shared.log = some (1, 0) ∧
        world.shared.now < 0 + backoff 1) ∧
    (∃ world attempt,
      Run program.step Anything
          (.quiet (.boot (some chatOffline) ⟨false, false⟩))
          (pollsFailed ++ loadAgain 2) world ∧
        world.tasks 2 = some (.spawn attempt) ∧
        failureStreak world.shared.log = some (1, 0) ∧
        world.shared.now < 0 + backoff 1) := by
  constructor
  · obtain ⟨world, run, early⟩ := Run.exists_of_exec program.step Anything
      (.quiet (.boot (some chatOffline) ⟨false, false⟩))
      (unloadsFailed ++ loadAgain 2) spawnsEarly (by decide +kernel)
    obtain ⟨⟨attempt, spawning⟩, streak, soon⟩ := spawnsEarly_iff.1 early
    exact ⟨world, attempt, run, spawning, streak, soon⟩
  · obtain ⟨world, run, early⟩ := Run.exists_of_exec program.step Anything
      (.quiet (.boot (some chatOffline) ⟨false, false⟩))
      (pollsFailed ++ loadAgain 2) spawnsEarly (by decide +kernel)
    obtain ⟨⟨attempt, spawning⟩, streak, soon⟩ := spawnsEarly_iff.1 early
    exact ⟨world, attempt, run, spawning, streak, soon⟩

end Hal0.Slots.Lifecycle
