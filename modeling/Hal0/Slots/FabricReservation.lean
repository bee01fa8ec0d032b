import Hal0.Slots.StatusPolls

/-!
# The reservation of a load in the fabric-clock table

`_guard_fabric_clock` enters the slot into `_fabric_pending`; the load takes
the entry out once `STARTING` is published, or in the handler of its
exceptions.  A cancellation is no `Exception`: it passes both handlers.
-/

namespace Hal0.Slots.Lifecycle

open Hal0.Transition Hal0.Monitor

/-! ## What a step does to the reservation -/

/-- The awaits of a load at which it answers for its reservation. -/
def Pc.reserves : Pc → Bool
  | .enterAdmit _ | .startingEvent _ | .leaveAdmit _ (.raised _)
  | .leaveAdmit _ (.insane _) => true
  | _ => false

/-- The step keeps or clears the reservation. -/
def Accounts (slot : Slot) (turn : Turn) : Prop :=
  turn.1.fabricPending = none ∨
    turn.1.fabricPending = slot.fabricPending

namespace Accounts

variable {slot : Slot}

theorem kept {turn : Turn}
    (same : turn.1.fabricPending = slot.fabricPending) :
    Accounts slot turn := Or.inr same

theorem released {turn : Turn} (none_ : turn.1.fabricPending = none) :
    Accounts slot turn := Or.inl none_

theorem transitionInside (attempt : Attempt) (toState : SlotState)
    (next : Pc) :
    Accounts slot (slot.transitionInside attempt toState next) := by
  apply kept
  unfold Slot.transitionInside Slot.attemptTransition Slot.transition
  split
  · rename_i moved found
    obtain ⟨-, same⟩ := Option.ite_none_right_eq_some.1 found
    cases same
    rfl
  · rfl

theorem onOutcome {attempt : Attempt} {next : Turn} (outcome : Outcome)
    (returned : Accounts slot next) :
    Accounts slot (slot.onOutcome attempt next outcome) := by
  cases outcome with
  | returned => exact returned
  | raised message => exact released rfl
  | insane message => exact released rfl

theorem onOutcomeInside {attempt : Attempt} {next : Turn}
    (outcome : Outcome) (returned : Accounts slot next) :
    Accounts slot (slot.onOutcomeInside attempt next outcome) := by
  cases outcome with
  | returned => exact returned
  | raised message => exact kept rfl
  | insane message => exact kept rfl

theorem proceed (attempt : Attempt) (reply : Reply) :
    Accounts slot (slot.proceed attempt reply) := by
  unfold Slot.proceed
  split
  · exact kept rfl
  · dsimp only
    split_ifs
    · exact kept rfl
    · unfold Slot.attemptTransition Slot.transition
      split
      · rename_i moved found
        obtain ⟨-, same⟩ := Option.ite_none_right_eq_some.1 found
        cases same
        exact kept rfl
      · exact released rfl
    · exact kept rfl

theorem gated (attempt : Attempt) :
    Accounts slot (slot.gated attempt) := by
  unfold Slot.gated
  split_ifs <;> exact kept rfl

theorem loadWith (modelId : Option String) (reply : Reply) :
    Accounts slot (slot.loadWith modelId reply) := by
  unfold Slot.loadWith Slot.loadFrom
  split
  · exact kept rfl
  · split
    case h_4 =>
      split_ifs
      · exact kept rfl
      · exact gated _
    case h_5 | h_6 | h_7 => exact gated _
    case h_8 | h_9 => exact proceed _ reply
    all_goals exact kept rfl

theorem guarded (attempt : Attempt) (answer : GuardAnswer)
    (ungranted : ∀ side, answer ≠ .reserved side) :
    Accounts slot (slot.guarded attempt answer) := by
  cases answer with
  | unguarded => exact kept rfl
  | reserved side => exact absurd rfl (ungranted side)
  | hazard => exact released rfl
  | raised message => exact released rfl

theorem status (caller : Caller) (epoch : Nat) (probe : Probe)
    (reply : Reply) :
    Accounts slot (slot.resume (.status caller epoch probe) reply) := by
  apply kept
  have same : (slot.resumeStatus probe reply).1.fabricPending =
      slot.fabricPending := by
    rcases resumeStatus_cases slot probe reply with
      kept | ⟨-, write, wrote⟩
    · rw [kept]
    · rw [wrote]
      rfl
  simp only [Slot.resume, Slot.statusTurn]
  split <;> exact same

theorem resume {pc : Pc} {reply : Reply}
    (ungranted : ∀ attempt side, pc = .fabricGuard attempt →
      reply.guard ≠ .reserved side) :
    Accounts slot (slot.resume pc reply) := by
  cases pc with
  | status caller epoch probe => exact status caller epoch probe reply
  | loadLock modelId =>
    simp only [Slot.resume, Slot.loadLocked]
    split_ifs <;> exact kept rfl
  | abandoned modelId =>
    simp only [Slot.resume]
    split_ifs <;> exact kept rfl
  | loadConfig modelId => exact loadWith modelId reply
  | converge attempt =>
    simp only [Slot.resume]
    split_ifs <;> exact kept rfl
  | stallActive attempt =>
    simp only [Slot.resume]
    split_ifs
    · exact kept rfl
    · exact gated attempt
  | tornDown attempt => exact proceed attempt reply
  | pulling attempt => exact onOutcome _ (kept rfl)
  | checks attempt => exact onOutcome _ (kept rfl)
  | fabricGuard attempt =>
    exact guarded attempt reply.guard fun side => ungranted attempt side rfl
  | enterAdmit attempt => exact onOutcome _ (transitionInside _ _ _)
  | startingEvent attempt => exact released rfl
  | spawn attempt => exact onOutcomeInside _ (transitionInside _ _ _)
  | awaitReady attempt =>
    refine onOutcomeInside _ ?_
    split_ifs
    · exact kept rfl
    · exact transitionInside _ _ _
  | unitFailure attempt =>
    simp only [Slot.resume]
    split
    · exact kept rfl
    · exact transitionInside _ _ _
  | leaveAdmit attempt ending =>
    cases ending with
    | raised message => exact released rfl
    | insane message => exact released rfl
    | resolved readiness =>
      simp only [Slot.resume, Slot.afterAdmit]
      split_ifs <;> exact kept rfl
  | unloadLock restarting =>
    simp only [Slot.resume, Slot.unloadLocked]
    split_ifs <;> exact kept rfl
  | unloadStop restarting =>
    simp only [Slot.resume, Slot.unloadStopped]
    split
    · exact kept rfl
    · split_ifs <;> exact kept rfl
    · split_ifs <;> exact kept rfl
  | slowStop token =>
    simp only [Slot.resume]
    split <;> exact kept rfl
  | slowStopLock token =>
    simp only [Slot.resume, Slot.finishSlowStop]
    split_ifs <;> exact kept rfl
  | _ => exact kept rfl

end Accounts

theorem reserves_resume {slot : Slot} {pc : Pc} (reply : Reply)
    (answers : pc.reserves = true) :
    (slot.resume pc reply).1.fabricPending = none ∨
      (slot.resume pc reply).2.any Pc.reserves = true := by
  cases pc with
  | enterAdmit attempt =>
    cases outcome : reply.outcome with
    | returned =>
      simp only [Slot.resume, outcome, Slot.onOutcome,
        Slot.transitionInside, Slot.attemptTransition]
      split <;> exact Or.inr rfl
    | raised message =>
      simp only [Slot.resume, outcome]
      exact Or.inl rfl
    | insane message =>
      simp only [Slot.resume, outcome]
      exact Or.inl rfl
  | startingEvent attempt => exact Or.inl rfl
  | leaveAdmit attempt ending =>
    cases ending with
    | raised message => exact Or.inl rfl
    | insane message => exact Or.inl rfl
    | resolved readiness => cases answers
  | _ => cases answers

/-! ## Runs -/

/-- An entry of the table belongs to a load which is still under way. -/
def Reserved (world : SlotWorld) : Prop :=
  world.shared.fabricPending ≠ none →
    ∃ task pc, world.tasks task = some pc ∧ pc.reserves = true

/-- No load is cancelled while it answers for a reservation. -/
def Spared (world : SlotWorld) : SlotAction → Prop
  | .cancel task =>
    world.shared.fabricPending ≠ none →
      (world.tasks task).any Pc.reserves = false
  | _ => True

instance (world : SlotWorld) (action : SlotAction) :
    Decidable (Spared world action) :=
  match action with
  | .cancel _ => inferInstanceAs (Decidable (_ ≠ none → _ = false))
  | .start _ _ | .resume _ _ | .occur _ | .restart => isTrue trivial

variable {world : SlotWorld}

theorem Reserved.elsewhere (reserved : Reserved world) {task : TaskId}
    {pc : Pc} (suspended : world.tasks task = some pc)
    (idle : pc.reserves = false) (pending : world.shared.fabricPending ≠ none)
    (slot : Slot) (next : Option Pc) :
    ∃ other counter,
      (program.put world task pc slot next).tasks other = some counter ∧
        counter.reserves = true := by
  obtain ⟨other, counter, found, answers⟩ := reserved pending
  refine ⟨other, counter, ?_, answers⟩
  rw [Program.put_tasks, Function.update_of_ne, found]
  rintro rfl
  rw [suspended] at found
  cases found
  rw [idle] at answers
  cases answers

/-- A reservation is kept until it is released. -/
theorem Reserved.step {next : SlotWorld} {action : SlotAction}
    (reserved : Reserved world) (spared : Spared world action)
    (moved : program.step world action = some next) : Reserved next := by
  intro pending
  cases Program.moves_of_step moved with
  | @start task pc slot unused started settled =>
    have same := (start_frame started).2.2.2
    rw [show slot.fabricPending = world.shared.fabricPending from same]
      at pending
    obtain ⟨other, counter, found, answers⟩ := reserved pending
    refine ⟨other, counter, ?_, answers⟩
    have distinct : other ≠ task := by
      rintro rfl
      rw [unused] at found
      cases found
    exact (Function.update_of_ne distinct _ _).trans found
  | @resume task pc reply slot after suspended scheduled free resumed =>
    obtain ⟨rfl, rfl⟩ := resumed_eq resumed
    have goesOn : (world.shared.resume pc reply).2.any Pc.reserves =
        true → ∃ other counter,
          (program.put world task pc (world.shared.resume pc reply).1
            (world.shared.resume pc reply).2).tasks other =
              some counter ∧ counter.reserves = true := by
      intro answers
      obtain ⟨counter, awaited, answers⟩ := (Option.any_eq_true _ _).1 answers
      refine ⟨task, counter, ?_, answers⟩
      rw [Program.put_tasks, Function.update_self, awaited]
    cases answers : pc.reserves with
    | true =>
      rcases reserves_resume reply answers with none_ | carried
      · exact absurd none_ pending
      · exact goesOn carried
    | false =>
      by_cases granted : ∃ attempt side, pc = .fabricGuard attempt ∧
          reply.guard = .reserved side
      · obtain ⟨attempt, side, rfl, grants⟩ := granted
        apply goesOn
        simp only [Slot.resume, grants]
        rfl
      · have accounts : Accounts world.shared
            (world.shared.resume pc reply) :=
          Accounts.resume fun attempt side arrived grants =>
            granted ⟨attempt, side, arrived, grants⟩
        rcases accounts with none_ | same
        · exact absurd none_ pending
        · rw [Program.put_shared, same] at pending
          exact reserved.elsewhere suspended answers pending _ _
  | @cancel task pc slot suspended settled abandoned =>
    cases abandoned
    have idle := spared pending
    rw [suspended] at idle
    exact reserved.elsewhere suspended idle pending _ _
  | @occur event slot settled occurred =>
    cases occurred
    apply reserved
    cases event with
    | elapse duration => exact pending
    | unitChanges unit => exact pending
    | resetLoadFailures => exact pending
  | restart => exact absurd rfl pending

/--
In every run in which no load is cancelled while it answers for a
reservation, however the loads end: an entry of the table belongs to a load
which is under way, between its guard and its spawn.
-/
theorem reserved_of_spared (record : Option Record) (unit : UnitHealth)
    (actions : List SlotAction) (world : SlotWorld)
    (run : Run program.step Spared (.quiet (.boot record unit)) actions
      world) :
    Reserved world :=
  run.invariant Reserved (fun pending => absurd rfl pending)
    fun _ _ _ reserved spared moved => reserved.step spared moved

/-! ## Loads which keep the table clean, and loads which do not -/

/-- A load of the chat slot up to its admission; the guard reserves. -/
def loadToAdmit : List SlotAction :=
  [.start 1 (.loadLock none), .resume 1 {}, .resume 1 {},
    .resume 1 { config := some chatConfig }, .resume 1 {},
    .resume 1 { guard := .reserved .gpu }]

/--
Three loads: the first fails in its eviction, the second is cancelled in its
spawn, the third is in its eviction.
-/
def reservesThrice : List SlotAction :=
  loadToAdmit ++
    [.resume 1 { outcome := .raised "cannot free enough memory" },
      .resume 1 {}, .resume 1 {}, .occur .resetLoadFailures,
      .start 2 (.loadLock none), .resume 2 {}, .resume 2 {},
      .resume 2 { config := some chatConfig }, .resume 2 {}, .resume 2 {},
      .resume 2 {}, .resume 2 { guard := .reserved .gpu }, .resume 2 {},
      .resume 2 {}, .cancel 2] ++
    [.start 3 (.loadLock none), .resume 3 {}, .resume 3 {},
      .resume 3 { config := some chatConfig }, .resume 3 {}, .resume 3 {},
      .resume 3 {}, .resume 3 { guard := .reserved .gpu }]

/-- Two loads end and a third passes. -/
theorem reserved_for_third_load :
    ∃ world,
      Run program.step Spared
          (.quiet (.boot (some chatOffline) ⟨false, false⟩)) reservesThrice
          world ∧
        world.shared.fabricPending = some .gpu ∧
        world.tasks 1 = none ∧ world.tasks 2 = none ∧
        ∃ task pc, world.tasks task = some pc ∧ pc.reserves = true := by
  obtain ⟨world, run, passed⟩ := Run.exists_of_exec program.step Spared
    (.quiet (.boot (some chatOffline) ⟨false, false⟩)) reservesThrice
    (fun world => world.shared.fabricPending = some .gpu ∧
      world.tasks 1 = none ∧ world.tasks 2 = none) (by decide +kernel)
  obtain ⟨pending, first, second⟩ := of_decide_eq_true passed
  refine ⟨world, run, pending, first, second, ?_⟩
  apply reserved_of_spared _ _ _ _ run
  rw [pending]
  nofun

/-- A load is cancelled while it is admitted. -/
def cancelsInAdmit : List SlotAction :=
  loadToAdmit ++ [.cancel 1]

/-- The load is cancelled while it publishes `STARTING`. -/
def cancelsInStarting : List SlotAction :=
  loadToAdmit ++ [.resume 1 {}, .cancel 1]

theorem not_reserved {slot : Slot} {actions : List SlotAction}
    (run : Run program.step Anything (.quiet slot) actions world)
    (lone : ∀ task pc, .start task pc ∈ actions → task = 1)
    (ended : world.tasks 1 = none)
    (pending : world.shared.fabricPending ≠ none) :
    ¬ Reserved world := by
  intro reserved
  obtain ⟨task, pc, found, -⟩ := reserved pending
  have absent : world.tasks task = none := by
    by_cases first : task = 1
    · rw [first]
      exact ended
    · exact Program.unstarted run fun pc present =>
        first (lone task pc present)
  rw [absent] at found
  cases found

/--
A load which is cancelled in its eviction, or while it publishes `STARTING`,
leaves its entry behind.
-/
theorem cancelled_load_leaves_reservation :
    (∃ world,
      Run program.step Anything
          (.quiet (.boot (some chatOffline) ⟨false, false⟩)) cancelsInAdmit
          world ∧
        world.tasks 1 = none ∧ world.shared.fabricPending = some .gpu ∧
        ¬ Reserved world) ∧
    (∃ world,
      Run program.step Anything
          (.quiet (.boot (some chatOffline) ⟨false, false⟩))
          cancelsInStarting world ∧
        world.tasks 1 = none ∧ world.shared.fabricPending = some .gpu ∧
        ¬ Reserved world) := by
  constructor
  · obtain ⟨world, run, passed⟩ := Run.exists_of_exec program.step Anything
      (.quiet (.boot (some chatOffline) ⟨false, false⟩)) cancelsInAdmit
      (fun world => world.tasks 1 = none ∧
        world.shared.fabricPending = some .gpu) (by decide +kernel)
    obtain ⟨ended, pending⟩ := of_decide_eq_true passed
    refine ⟨world, run, ended, pending, not_reserved run ?_ ended ?_⟩
    · simp [cancelsInAdmit, loadToAdmit]
    · rw [pending]
      nofun
  · obtain ⟨world, run, passed⟩ := Run.exists_of_exec program.step Anything
      (.quiet (.boot (some chatOffline) ⟨false, false⟩)) cancelsInStarting
      (fun world => world.tasks 1 = none ∧
        world.shared.fabricPending = some .gpu) (by decide +kernel)
    obtain ⟨ended, pending⟩ := of_decide_eq_true passed
    refine ⟨world, run, ended, pending, not_reserved run ?_ ended ?_⟩
    · simp [cancelsInStarting, loadToAdmit]
    · rw [pending]
      nofun

end Hal0.Slots.Lifecycle
