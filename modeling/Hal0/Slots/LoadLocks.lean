import Hal0.Core.Transition
import Hal0.Core.Locks
import Hal0.Slots.PreloadEvict
import Mathlib.Algebra.Order.Ring.Rat

/-!
# The locks of slot loading

`SlotManager.load`, `unload`, `restart` and `swap` run under the lock of their
slot.  A load whose footprint is known also passes `admit`, which takes the
global admission lock, evicts other slots under it (each eviction is an
`unload`, under that slot's own lock), and takes the admission lock again at
its exit to drop the reservation.

A task is suspended at one of the stages below.  A step runs one task from one
suspension to the next; readings of the outside world (memory probes, drift,
the sweep, outcomes of container operations) are part of the action.  A free
lock may go to any of the tasks queued for it, which covers the order
`asyncio.Lock` uses.
-/

namespace Hal0.Slots.LoadLocks

open Function Option
open Hal0.Transition
open Hal0.Locks
open Hal0.Slots.PreloadEvict

abbrev TaskId := Nat
abbrev SlotName := String

/-- The lock of a slot, or the one of admission. -/
inductive LockName where
  | slot (name : SlotName)
  | admission
deriving DecidableEq, Repr

/-- What a load needs and what is free. -/
structure Fit where
  neededMb : Rat
  reservedByOthers : Rat
  freeMb : Rat
deriving DecidableEq, Repr

/-- Where a task is suspended. -/
inductive Stage where
  | loadQueued
  | loadEntered
  | converging
  | tearingDown
  | preparing
  | admitQueued (neededMb : Rat)
  | gathering (fit : Fit)
  | evictQueued (fit : Fit) (victim : SlotName) (rest : List SlotName)
  | evicting (fit : Fit) (victim : SlotName) (rest : List SlotName)
      (stopping : Bool)
  | spawning (reserved : Bool)
  | releaseQueued (failed : Bool)
  | failing
  | reporting
  | unloadQueued
  | unloading (stopping : Bool)
  | forceQueued
  | forcing
deriving DecidableEq, Repr

/--
A call in progress.  `thenLoad` marks the first half of `restart` and `swap`.
-/
structure Task where
  slot : SlotName
  stage : Stage
  thenLoad : Bool
deriving DecidableEq, Repr

/-- The manager's slots, locks, reservations and running calls. -/
structure Fleet where
  states : SlotName → SlotState
  owner : LockName → Option TaskId
  preloadEvictEnabled : Bool
  preloadEvictHeadroomMb : Rat
  preloadReservedMb : List (SlotName × Rat)
  tasks : TaskId → Option Task

/-! ## What a stage means for the locks -/

/-- The part of a stage which the locks depend on. -/
inductive Phase where
  | queued
  | inside
  | admitWait
  | gathering
  | evictWait (victim : SlotName)
  | evictHold (victim : SlotName)
  | reserved
  | releaseWait
deriving DecidableEq, Repr

def Stage.phase : Stage → Phase
  | .loadQueued | .unloadQueued | .forceQueued => .queued
  | .admitQueued _ => .admitWait
  | .gathering _ => .gathering
  | .evictQueued _ victim _ => .evictWait victim
  | .evicting _ victim _ _ => .evictHold victim
  | .spawning true => .reserved
  | .releaseQueued _ => .releaseWait
  | _ => .inside

/-- The lock a task waits for. -/
def Task.waits (task : Task) : Option LockName :=
  match task.stage.phase with
  | .queued => some (.slot task.slot)
  | .admitWait | .releaseWait => some .admission
  | .evictWait victim => some (.slot victim)
  | _ => none

/-- The locks a task holds. -/
def Task.holds (task : Task) : LockName → Bool
  | .admission =>
    match task.stage.phase with
    | .gathering | .evictWait _ | .evictHold _ => true
    | _ => false
  | .slot name =>
    match task.stage.phase with
    | .queued => false
    | .evictHold victim => name == task.slot || name == victim
    | _ => name == task.slot

theorem Task.holds_own {task : Task}
    (entered : task.stage.phase ≠ .queued) :
    task.holds (.slot task.slot) = true := by
  simp only [Task.holds]
  split <;> simp_all

theorem Task.eq_of_holds_slot {task : Task} {name : SlotName}
    (held : task.holds (.slot name) = true) :
    task.stage.phase ≠ .queued ∧
      (name = task.slot ∨ task.stage.phase = .evictHold name) := by
  simp only [Task.holds] at held
  split at held
  · cases held
  · rename_i holding
    rcases Bool.or_eq_true_iff.mp held with own | taken
    · exact ⟨by simp [holding], .inl (eq_of_beq own)⟩
    · exact ⟨by simp [holding], .inr (eq_of_beq taken ▸ holding)⟩
  · rename_i entered _
    exact ⟨entered, .inl (eq_of_beq held)⟩

def heldBy : Option Task → LockName → Bool
  | some task => task.holds
  | none => fun _ => false

namespace Fleet

def waits (fleet : Fleet) (id : TaskId) : Option LockName :=
  (fleet.tasks id).bind Task.waits

def holds (fleet : Fleet) (id : TaskId) : LockName → Bool :=
  heldBy (fleet.tasks id)

/-- A task goes to its next suspension, with the locks it has there. -/
def move (fleet : Fleet) (id : TaskId) (task : Option Task) : Fleet :=
  { fleet with
    tasks := update fleet.tasks id task
    owner := transfer fleet.owner id (heldBy task) }

def enterState (fleet : Fleet) (slot : SlotName) (state : SlotState) :
    Fleet :=
  { fleet with states := update fleet.states slot state }

end Fleet

/-! ## The calls -/

inductive Operation where
  | load
  | unload
  | restart
  | swap
deriving DecidableEq, Repr

/-- Why a load does not get to admission. -/
inductive Prepared where
  | noModel
  | shadow
  | hazard
  | raised
  | resolved (neededMb : Rat)
deriving DecidableEq, Repr

/-- A step of a task. -/
inductive Action where
  | call (id : TaskId) (operation : Operation) (slot : SlotName)
  | acquire (id : TaskId)
  | enter (id : TaskId) (abandoned refused : Bool)
  | converge (id : TaskId) (drifted : Bool)
  | tornDown (id : TaskId)
  | prepared (id : TaskId) (outcome : Prepared)
  | gate (id : TaskId) (freeMb : Rat)
  | plan (id : TaskId) (sweep : List SweptSlot)
  | evicted (id : TaskId) (succeeded : Bool) (freeMb : Rat)
  | spawned (id : TaskId) (outcome : Option SlotState)
  | release (id : TaskId)
  | unloaded (id : TaskId) (succeeded : Bool)
  | forced (id : TaskId)
  | finish (id : TaskId)
  | observe (slot : SlotName) (state : SlotState)
deriving DecidableEq, Repr

/-- The stage a call starts in; `restart` and `swap` read the slot's state. -/
def Operation.first : Operation → SlotState → Stage × Bool
  | .load, _ => (.loadQueued, false)
  | .unload, _ => (.unloadQueued, false)
  | .restart, .error => (.forceQueued, true)
  | .restart, _ => (.unloadQueued, true)
  | .swap, state =>
    if state = .error ∨ state.isInFlight then (.forceQueued, true)
    else (.unloadQueued, true)

theorem Operation.first_queued (operation : Operation)
    (state : SlotState) :
    (operation.first state).1.phase = .queued := by
  cases operation <;> cases state <;> rfl

namespace Fleet

/-- `sum(mb for name, mb in _preload_reserved_mb.items() if name != slot)`. -/
def reservedByOthers (fleet : Fleet) (slot : SlotName) : Rat :=
  ((fleet.preloadReservedMb.filter fun entry => entry.1 ≠ slot).map Prod.snd).sum

/-- The memory that has to be free. -/
def target (fleet : Fleet) (fit : Fit) : Rat :=
  fit.neededMb + fleet.preloadEvictHeadroomMb

/-- The end of the gate: reserve, drop the admission lock, start the unit. -/
def reserve (fleet : Fleet) (id : TaskId) (task : Task) (fit : Fit) :
    Fleet :=
  { (fleet.move id (some { task with stage := .spawning true })).enterState
      task.slot .starting with
    preloadReservedMb := (task.slot, fit.neededMb) ::
      fleet.preloadReservedMb.filter fun entry => entry.1 ≠ task.slot }

/-- The head of the eviction loop in `admit`. -/
def nextVictim (fleet : Fleet) (id : TaskId) (task : Task) (fit : Fit) :
    List SlotName → Fleet
  | victim :: rest =>
    fleet.move id (some { task with stage := .evictQueued fit victim rest })
  | [] =>
    if fit.freeMb < fleet.target fit then
      fleet.move id (some { task with stage := .failing })
    else fleet.reserve id task fit

/-- `unload` once it has the slot's lock: whether there is anything to stop. -/
def beginUnload (fleet : Fleet) (slot : SlotName) : Fleet × Bool :=
  if fleet.states slot = .offline then (fleet, false)
  else (fleet.enterState slot .unloading, true)

/-- The state `unload` leaves: unchanged when there was nothing to stop. -/
def endUnload (fleet : Fleet) (slot : SlotName)
    (stopping succeeded : Bool) : Fleet :=
  if stopping then
    fleet.enterState slot (if succeeded then .offline else .error)
  else fleet

/-- The slots the plan of `admit` evicts, in order. -/
def planned (fleet : Fleet) (slot : SlotName) (fit : Fit)
    (sweep : List SweptSlot) : List SlotName :=
  let observed := sweep.map fun swept =>
    { swept with state := fleet.states swept.name }
  (selectEvictionOrder (gatherCandidates slot observed) fit.neededMb
    fleet.preloadEvictHeadroomMb fit.freeMb).selected.map CandidateSlot.name

/-- A load once it has the slot's lock. -/
def enterLoad (fleet : Fleet) (id : TaskId) (task : Task)
    (abandoned refused : Bool) : Fleet :=
  let go := fun stage => fleet.move id (some { task with stage := stage })
  match fleet.states task.slot with
  | .ready | .serving | .idle => go .converging
  | .offline | .unloading =>
    if abandoned then go .reporting else go .preparing
  | .error | .pulling | .starting | .warming =>
    if abandoned then go .reporting
    else if refused then fleet.move id none
    else go .tearingDown

/-- A load between its teardown and the gate. -/
def prepare (fleet : Fleet) (id : TaskId) (task : Task) :
    Prepared → Fleet
  | .noModel =>
    (fleet.move id (some { task with stage := .reporting })).enterState
      task.slot .offline
  | .shadow =>
    (fleet.move id (some { task with stage := .reporting })).enterState
      task.slot .ready
  | .hazard => (fleet.move id none).enterState task.slot .offline
  | .raised => fleet.move id (some { task with stage := .failing })
  | .resolved neededMb =>
    if fleet.preloadEvictEnabled ∧ 0 < neededMb then
      fleet.move id (some { task with stage := .admitQueued neededMb })
    else
      (fleet.move id
        (some { task with stage := .spawning false })).enterState
          task.slot .starting

/-- The fit decision, once a load has the admission lock. -/
def decideFit (fleet : Fleet) (id : TaskId) (task : Task)
    (neededMb freeMb : Rat) : Fleet :=
  let others := fleet.reservedByOthers task.slot
  let fit : Fit := ⟨neededMb, others, freeMb - others⟩
  if fit.freeMb < fleet.target fit then
    fleet.move id (some { task with stage := .gathering fit })
  else fleet.reserve id task fit

/-- One eviction of `admit` has ended. -/
def afterEviction (fleet : Fleet) (id : TaskId) (task : Task) (fit : Fit)
    (rest : List SlotName) (succeeded : Bool) (freeMb : Rat) : Fleet :=
  if succeeded then
    let probed := { fit with freeMb := freeMb - fit.reservedByOthers }
    if fleet.target probed ≤ probed.freeMb then fleet.reserve id task probed
    else fleet.nextVictim id task probed rest
  else fleet.nextVictim id task fit rest

/-- The body of the gate has ended, with the state it reached or raising. -/
def endSpawn (fleet : Fleet) (id : TaskId) (task : Task)
    (reserved : Bool) (outcome : Option SlotState) : Fleet :=
  let settled :=
    match outcome with
    | some state => fleet.enterState task.slot state
    | none => fleet
  if reserved then
    settled.move id
      (some { task with stage := .releaseQueued outcome.isNone })
  else
    settled.move id (some { task with
      stage := if outcome.isNone then .failing else .reporting })

/-- What follows the first half of `restart` and `swap`. -/
def afterFirstHalf (fleet : Fleet) (id : TaskId) (task : Task) : Fleet :=
  if task.thenLoad then
    fleet.move id (some ⟨task.slot, .loadQueued, false⟩)
  else fleet.move id none

def stepTask (fleet : Fleet) (id : TaskId) (task : Task) :
    Action → Option Fleet
  | .acquire _ =>
    match task.stage with
    | .loadQueued =>
      if fleet.owner (.slot task.slot) = none then
        some (fleet.move id (some { task with stage := .loadEntered }))
      else none
    | .forceQueued =>
      if fleet.owner (.slot task.slot) = none then
        some (fleet.move id (some { task with stage := .forcing }))
      else none
    | .unloadQueued =>
      if fleet.owner (.slot task.slot) = none then
        let (begun, stopping) := fleet.beginUnload task.slot
        some (begun.move id
          (some { task with stage := .unloading stopping }))
      else none
    | .evictQueued fit victim rest =>
      if fleet.owner (.slot victim) = none then
        let (begun, stopping) := fleet.beginUnload victim
        some (begun.move id
          (some { task with stage := .evicting fit victim rest stopping }))
      else none
    | _ => none
  | .enter _ abandoned refused =>
    match task.stage with
    | .loadEntered => some (fleet.enterLoad id task abandoned refused)
    | _ => none
  | .converge _ drifted =>
    match task.stage with
    | .converging =>
      some (fleet.move id (some { task with
        stage := if drifted then .tearingDown else .reporting }))
    | _ => none
  | .tornDown _ =>
    match task.stage with
    | .tearingDown =>
      some ((fleet.move id
        (some { task with stage := .preparing })).enterState
          task.slot .offline)
    | _ => none
  | .prepared _ outcome =>
    match task.stage with
    | .preparing => some (fleet.prepare id task outcome)
    | _ => none
  | .gate _ freeMb =>
    match task.stage with
    | .admitQueued neededMb =>
      if fleet.owner .admission = none then
        some (fleet.decideFit id task neededMb freeMb)
      else none
    | _ => none
  | .plan _ sweep =>
    match task.stage with
    | .gathering fit =>
      some (fleet.nextVictim id task fit
        (fleet.planned task.slot fit sweep))
    | _ => none
  | .evicted _ succeeded freeMb =>
    match task.stage with
    | .evicting fit victim rest stopping =>
      some ((fleet.endUnload victim stopping succeeded).afterEviction
        id task fit rest succeeded freeMb)
    | _ => none
  | .spawned _ outcome =>
    match task.stage with
    | .spawning reserved => some (fleet.endSpawn id task reserved outcome)
    | _ => none
  | .release _ =>
    match task.stage with
    | .releaseQueued failed =>
      if fleet.owner .admission = none then
        some { fleet.move id (some { task with
            stage := if failed then .failing else .reporting }) with
          preloadReservedMb :=
            fleet.preloadReservedMb.filter fun entry =>
              entry.1 ≠ task.slot }
      else none
    | _ => none
  | .unloaded _ succeeded =>
    match task.stage with
    | .unloading stopping =>
      let ended := fleet.endUnload task.slot stopping succeeded
      if succeeded then some (ended.afterFirstHalf id task)
      else some (ended.move id none)
    | _ => none
  | .forced _ =>
    match task.stage with
    | .forcing =>
      some ((fleet.enterState task.slot .offline).afterFirstHalf id task)
    | _ => none
  | .finish _ =>
    match task.stage with
    | .reporting => some (fleet.move id none)
    | .failing => some ((fleet.enterState task.slot .error).move id none)
    | _ => none
  | _ => none

end Fleet

/-- The task an action runs. -/
def Action.id? : Action → Option TaskId
  | .call id .. | .acquire id | .enter id .. | .converge id _ | .tornDown id
  | .prepared id _ | .gate id _ | .plan id _ | .evicted id .. | .spawned id _
  | .release id | .unloaded id _ | .forced id | .finish id => some id
  | .observe .. => none

/-- The interleavings of calls. -/
def Fleet.step : StepFunction Fleet Action
  | fleet, .observe slot state => some (fleet.enterState slot state)
  | fleet, .call id operation slot =>
    match fleet.tasks id with
    | some _ => none
    | none =>
      let (stage, thenLoad) := operation.first (fleet.states slot)
      some (fleet.move id (some ⟨slot, stage, thenLoad⟩))
  | fleet, action =>
    match action.id? with
    | none => none
    | some id =>
      match fleet.tasks id with
      | none => none
      | some task => fleet.stepTask id task action

/-! ## What one step does to the locks -/

/-- The slots an admission still has to evict. -/
def Stage.victims : Stage → List SlotName
  | .evictQueued _ victim rest | .evicting _ victim rest _ => victim :: rest
  | _ => []

def Phase.needsAdmission : Phase → Bool
  | .admitWait | .reserved | .releaseWait => true
  | _ => false

def Phase.isGate : Phase → Bool
  | .gathering | .evictHold _ => true
  | _ => false

/-- The slot whose eviction the action requests. -/
def Fleet.requested (fleet : Fleet) : Action → Option SlotName
  | .plan id sweep =>
    match fleet.tasks id with
    | some ⟨slot, .gathering fit, _⟩ =>
      (fleet.planned slot fit sweep).head?
    | _ => none
  | .evicted id succeeded freeMb =>
    match fleet.tasks id with
    | some ⟨_, .evicting fit _ rest _, _⟩ =>
      if succeeded ∧ fleet.target fit ≤ freeMb - fit.reservedByOthers
      then none else rest.head?
    | _ => none
  | _ => none

/-- The slot whose load the action sends to the admission gate. -/
def Fleet.admitted (fleet : Fleet) : Action → Option SlotName
  | .prepared id (.resolved neededMb) =>
    match fleet.tasks id with
    | some ⟨slot, .preparing, _⟩ =>
      if fleet.preloadEvictEnabled ∧ 0 < neededMb then some slot
      else none
    | _ => none
  | _ => none

theorem Task.holds_admission_iff (task : Task) :
    task.holds .admission = true ↔
      task.stage.phase.isGate = true ∨
        ∃ victim, task.stage.phase = .evictWait victim := by
  simp only [Task.holds]
  split <;> simp_all [Phase.isGate]

theorem Stage.victims_eq_nil {stage : Stage}
    (waiting : ∀ victim, stage.phase ≠ .evictWait victim)
    (holding : ∀ victim, stage.phase ≠ .evictHold victim) :
    stage.victims = [] := by
  cases stage with
  | evictQueued fit victim rest => exact absurd rfl (waiting victim)
  | evicting fit victim rest stopping => exact absurd rfl (holding victim)
  | _ => rfl

/-- The moves of one task, with the locks that were free. -/
inductive Progress (fleet : Fleet) (action : Action) :
    Option Task → Option Task → Prop where
  | started {new : Task} (queued : new.stage.phase = .queued) :
      Progress fleet action none (some new)
  | ended {old : Task} (inside : old.stage.phase = .inside) :
      Progress fleet action (some old) none
  | requeued {old new : Task} (inside : old.stage.phase = .inside)
      (queued : new.stage.phase = .queued) :
      Progress fleet action (some old) (some new)
  | entered {old new : Task} (queued : old.stage.phase = .queued)
      (inside : new.stage.phase = .inside) (slot : new.slot = old.slot)
      (free : fleet.owner (.slot old.slot) = none) :
      Progress fleet action (some old) (some new)
  | worked {old new : Task} (before : old.stage.phase = .inside)
      (after : new.stage.phase = .inside) (slot : new.slot = old.slot) :
      Progress fleet action (some old) (some new)
  | gateAwaited {old new : Task} (inside : old.stage.phase = .inside)
      (waiting : new.stage.phase = .admitWait)
      (slot : new.slot = old.slot)
      (named : fleet.admitted action = some old.slot) :
      Progress fleet action (some old) (some new)
  | gateTaken {old new : Task} (waiting : old.stage.phase = .admitWait)
      (taken : new.stage.phase = .gathering ∨
        new.stage.phase = .reserved)
      (slot : new.slot = old.slot)
      (free : fleet.owner .admission = none) :
      Progress fleet action (some old) (some new)
  | evictionRequested {old new : Task} {victim : SlotName}
      (gate : old.stage.phase.isGate = true)
      (waiting : new.stage.phase = .evictWait victim)
      (slot : new.slot = old.slot)
      (spared : new.slot ∉ new.stage.victims)
      (named : fleet.requested action = some victim) :
      Progress fleet action (some old) (some new)
  | evictionBegun {old new : Task} {victim : SlotName}
      (waiting : old.stage.phase = .evictWait victim)
      (holding : new.stage.phase = .evictHold victim)
      (slot : new.slot = old.slot)
      (free : fleet.owner (.slot victim) = none)
      (victims : new.stage.victims = old.stage.victims) :
      Progress fleet action (some old) (some new)
  | gateLeft {old new : Task} (gate : old.stage.phase.isGate = true)
      (left : new.stage.phase = .inside ∨ new.stage.phase = .reserved)
      (slot : new.slot = old.slot) :
      Progress fleet action (some old) (some new)
  | spawned {old new : Task} (reserved : old.stage.phase = .reserved)
      (waiting : new.stage.phase = .releaseWait)
      (slot : new.slot = old.slot) :
      Progress fleet action (some old) (some new)
  | released {old new : Task} (waiting : old.stage.phase = .releaseWait)
      (inside : new.stage.phase = .inside) (slot : new.slot = old.slot)
      (free : fleet.owner .admission = none) :
      Progress fleet action (some old) (some new)

/-- `next` differs from `fleet`, as far as locks go, by the move of `id`. -/
def Shifted (fleet next : Fleet) (id : TaskId) (new : Option Task) :
    Prop :=
  next.tasks = update fleet.tasks id new ∧
    next.owner = transfer fleet.owner id (heldBy new)

/-- No task evicts its own slot. -/
def Careful (fleet : Fleet) : Prop :=
  ∀ id task, fleet.tasks id = some task → task.slot ∉ task.stage.victims

namespace Fleet

variable {fleet : Fleet} {id : TaskId} {task : Task} {action : Action}

theorem endUnload_tasks (slot : SlotName) (stopping succeeded : Bool) :
    (fleet.endUnload slot stopping succeeded).tasks = fleet.tasks := by
  simp only [endUnload]
  split <;> rfl

theorem endUnload_owner (slot : SlotName) (stopping succeeded : Bool) :
    (fleet.endUnload slot stopping succeeded).owner = fleet.owner := by
  simp only [endUnload]
  split <;> rfl

theorem endUnload_target (slot : SlotName) (stopping succeeded : Bool)
    (fit : Fit) :
    (fleet.endUnload slot stopping succeeded).target fit =
      fleet.target fit := by
  simp only [endUnload]
  split <;> rfl

theorem beginUnload_tasks (slot : SlotName) :
    (fleet.beginUnload slot).1.tasks = fleet.tasks := by
  simp only [beginUnload]
  split <;> rfl

theorem beginUnload_owner (slot : SlotName) :
    (fleet.beginUnload slot).1.owner = fleet.owner := by
  simp only [beginUnload]
  split <;> rfl

variable {base : Fleet}

section

variable (sameTasks : fleet.tasks = base.tasks)
include sameTasks

theorem move_shifted {new : Option Task}
    (sameOwner : fleet.owner = base.owner) :
    Shifted base (fleet.move id new) id new := by
  rw [Shifted, ← sameTasks, ← sameOwner]
  exact ⟨rfl, rfl⟩

theorem reserve_shifted {fit : Fit} (sameOwner : fleet.owner = base.owner) :
    Shifted base (fleet.reserve id task fit) id
      (some { task with stage := .spawning true }) := by
  rw [Shifted, ← sameTasks, ← sameOwner]
  exact ⟨rfl, rfl⟩

theorem nextVictim_progress {fit : Fit} {victims : List SlotName}
    (sameOwner : fleet.owner = base.owner)
    (gate : task.stage.phase.isGate = true) (spared : task.slot ∉ victims)
    (named : base.requested action = victims.head?) :
    ∃ new, Shifted base (fleet.nextVictim id task fit victims) id new ∧
      Progress base action (some task) new := by
  cases victims with
  | nil =>
    simp only [nextVictim]
    split
    · exact ⟨_, move_shifted sameTasks sameOwner,
        .gateLeft gate (.inl rfl) rfl⟩
    · exact ⟨_, reserve_shifted sameTasks sameOwner,
        .gateLeft gate (.inr rfl) rfl⟩
  | cons victim rest =>
    exact ⟨_, move_shifted sameTasks sameOwner,
      .evictionRequested gate rfl rfl spared named⟩

theorem afterEviction_progress {fit : Fit} {rest : List SlotName}
    {succeeded : Bool} {freeMb : Rat} (sameOwner : fleet.owner = base.owner)
    (gate : task.stage.phase.isGate = true) (spared : task.slot ∉ rest)
    (sameTarget : fleet.target fit = base.target fit)
    (named : base.requested action =
      if succeeded ∧ base.target fit ≤ freeMb - fit.reservedByOthers
      then none else rest.head?) :
    ∃ new, Shifted base
        (fleet.afterEviction id task fit rest succeeded freeMb) id new ∧
      Progress base action (some task) new := by
  simp only [afterEviction]
  split
  · rename_i evicted
    split
    · exact ⟨_, reserve_shifted sameTasks sameOwner,
        .gateLeft gate (.inr rfl) rfl⟩
    · rename_i short
      have tight :
          ¬ base.target fit ≤ freeMb - fit.reservedByOthers :=
        sameTarget ▸ short
      exact nextVictim_progress sameTasks sameOwner gate spared
        (by rw [named, if_neg fun both => tight both.2])
  · rename_i kept
    exact nextVictim_progress sameTasks sameOwner gate spared
      (by rw [named, if_neg fun both => kept both.1])

end

theorem planned_spares (slot : SlotName) (fit : Fit)
    (sweep : List SweptSlot) :
    slot ∉ fleet.planned slot fit sweep := by
  intro listed
  simp only [planned, List.mem_map] at listed
  obtain ⟨candidate, selected, same⟩ := listed
  exact ne_exclude_of_mem_selected selected same

theorem enterLoad_progress (abandoned refused : Bool)
    (inside : task.stage.phase = .inside) :
    ∃ new, Shifted fleet (fleet.enterLoad id task abandoned refused) id new ∧
      Progress fleet action (some task) new := by
  have go : ∀ stage : Stage, stage.phase = .inside →
      ∃ new, Shifted fleet
          (fleet.move id (some { task with stage := stage })) id new ∧
        Progress fleet action (some task) new := fun stage after =>
    ⟨_, move_shifted rfl rfl, .worked inside after rfl⟩
  simp only [enterLoad]
  split
  · exact go _ rfl
  · exact go _ rfl
  · exact go _ rfl
  · split <;> exact go _ rfl
  · split <;> exact go _ rfl
  all_goals
    split
    · exact go _ rfl
    · split
      · exact ⟨_, move_shifted rfl rfl, .ended inside⟩
      · exact go _ rfl

theorem prepare_progress (outcome : Prepared)
    (preparing : task.stage = .preparing)
    (running : fleet.tasks id = some task) :
    ∃ new, Shifted fleet (fleet.prepare id task outcome) id new ∧
      Progress fleet (.prepared id outcome) (some task) new := by
  have inside : task.stage.phase = .inside := by
    rw [preparing]
    rfl
  cases outcome with
  | noModel => exact ⟨_, ⟨rfl, rfl⟩, .worked inside rfl rfl⟩
  | shadow => exact ⟨_, ⟨rfl, rfl⟩, .worked inside rfl rfl⟩
  | hazard => exact ⟨none, ⟨rfl, rfl⟩, .ended inside⟩
  | raised => exact ⟨_, ⟨rfl, rfl⟩, .worked inside rfl rfl⟩
  | resolved neededMb =>
    simp only [prepare]
    split
    · rename_i short
      obtain ⟨slot, stage, thenLoad⟩ := task
      subst preparing
      refine ⟨_, ⟨rfl, rfl⟩, .gateAwaited inside rfl rfl ?_⟩
      simp only [admitted, running, if_pos short]
    · exact ⟨_, ⟨rfl, rfl⟩, .worked inside rfl rfl⟩

theorem decideFit_progress (neededMb freeMb : Rat)
    (waiting : task.stage.phase = .admitWait)
    (free : fleet.owner .admission = none) :
    ∃ new, Shifted fleet (fleet.decideFit id task neededMb freeMb) id new ∧
      Progress fleet action (some task) new := by
  simp only [decideFit]
  split
  · exact ⟨_, move_shifted rfl rfl, .gateTaken waiting (.inl rfl) rfl free⟩
  · exact ⟨_, reserve_shifted rfl rfl,
      .gateTaken waiting (.inr rfl) rfl free⟩

theorem endSpawn_progress {reserved : Bool} (outcome : Option SlotState)
    (spawning : task.stage = .spawning reserved) :
    ∃ new, Shifted fleet (fleet.endSpawn id task reserved outcome) id new ∧
      Progress fleet action (some task) new := by
  have sameTasks : (match outcome with
      | some state => fleet.enterState task.slot state
      | none => fleet).tasks = fleet.tasks := by cases outcome <;> rfl
  have sameOwner : (match outcome with
      | some state => fleet.enterState task.slot state
      | none => fleet).owner = fleet.owner := by cases outcome <;> rfl
  simp only [endSpawn]
  split
  · rename_i held
    subst held
    exact ⟨_, move_shifted sameTasks sameOwner,
      .spawned (by rw [spawning]; rfl) rfl rfl⟩
  · rename_i unheld
    obtain rfl : reserved = false := by simpa using unheld
    refine ⟨_, move_shifted sameTasks sameOwner,
      .worked (by rw [spawning]; rfl) ?_ rfl⟩
    cases outcome <;> rfl

theorem afterFirstHalf_progress (sameTasks : fleet.tasks = base.tasks)
    (sameOwner : fleet.owner = base.owner)
    (inside : task.stage.phase = .inside) :
    ∃ new, Shifted base (fleet.afterFirstHalf id task) id new ∧
      Progress base action (some task) new := by
  simp only [afterFirstHalf]
  split
  · exact ⟨_, move_shifted sameTasks sameOwner, .requeued inside rfl⟩
  · exact ⟨_, move_shifted sameTasks sameOwner, .ended inside⟩

theorem stepTask_progress {next : Fleet} (ours : action.id? = some id)
    (careful : Careful fleet) (running : fleet.tasks id = some task)
    (moved : fleet.stepTask id task action = some next) :
    ∃ new, Shifted fleet next id new ∧ Progress fleet action (some task) new := by
  obtain ⟨slot, stage, thenLoad⟩ := task
  cases action with
  | acquire _ =>
    simp only [stepTask] at moved
    split at moved
    · simp only [ite_none_right_eq_some] at moved
      obtain ⟨free, same⟩ := moved
      exact some.inj same ▸
        ⟨_, move_shifted rfl rfl, .entered rfl rfl rfl free⟩
    · simp only [ite_none_right_eq_some] at moved
      obtain ⟨free, same⟩ := moved
      exact some.inj same ▸
        ⟨_, move_shifted rfl rfl, .entered rfl rfl rfl free⟩
    · simp only [ite_none_right_eq_some] at moved
      obtain ⟨free, same⟩ := moved
      exact some.inj same ▸
        ⟨_, move_shifted (beginUnload_tasks _) (beginUnload_owner _),
          .entered rfl rfl rfl free⟩
    · simp only [ite_none_right_eq_some] at moved
      obtain ⟨free, same⟩ := moved
      exact some.inj same ▸
        ⟨_, move_shifted (beginUnload_tasks _) (beginUnload_owner _),
          .evictionBegun rfl rfl rfl free rfl⟩
    · cases moved
  | enter _ abandoned refused =>
    simp only [stepTask] at moved
    split at moved
    · exact some.inj moved ▸ enterLoad_progress _ _ rfl
    · cases moved
  | converge _ drifted =>
    simp only [stepTask] at moved
    split at moved
    · refine some.inj moved ▸
        ⟨_, move_shifted rfl rfl, .worked rfl ?_ rfl⟩
      cases drifted <;> rfl
    · cases moved
  | tornDown _ =>
    simp only [stepTask] at moved
    split at moved
    · exact some.inj moved ▸ ⟨_, ⟨rfl, rfl⟩, .worked rfl rfl rfl⟩
    · cases moved
  | prepared _ outcome =>
    simp only [stepTask] at moved
    split at moved
    · obtain rfl := some.inj ours
      exact some.inj moved ▸ prepare_progress outcome rfl running
    · cases moved
  | gate _ freeMb =>
    simp only [stepTask] at moved
    split at moved
    · simp only [ite_none_right_eq_some] at moved
      obtain ⟨free, same⟩ := moved
      exact some.inj same ▸ decideFit_progress _ _ rfl free
    · cases moved
  | plan _ sweep =>
    simp only [stepTask] at moved
    split at moved
    · obtain rfl := some.inj ours
      exact some.inj moved ▸
        nextVictim_progress rfl rfl rfl (planned_spares _ _ _)
          (by simp only [requested, running])
    · cases moved
  | evicted _ succeeded freeMb =>
    simp only [stepTask] at moved
    split at moved
    · obtain rfl := some.inj ours
      have spared := careful _ _ running
      exact some.inj moved ▸
        afterEviction_progress (endUnload_tasks _ _ _)
          (endUnload_owner _ _ _) rfl
          (fun listed => spared (List.mem_cons_of_mem _ listed))
          (endUnload_target _ _ _ _) (by simp only [requested, running])
    · cases moved
  | spawned _ outcome =>
    simp only [stepTask] at moved
    split at moved
    · exact some.inj moved ▸ endSpawn_progress outcome rfl
    · cases moved
  | release _ =>
    simp only [stepTask] at moved
    split at moved
    · rename_i failed
      simp only [ite_none_right_eq_some] at moved
      obtain ⟨free, same⟩ := moved
      refine some.inj same ▸
        ⟨_, ⟨rfl, rfl⟩, .released rfl ?_ rfl free⟩
      cases failed <;> rfl
    · cases moved
  | unloaded _ succeeded =>
    simp only [stepTask] at moved
    split at moved
    · split at moved
      · exact some.inj moved ▸
          afterFirstHalf_progress (endUnload_tasks _ _ _)
            (endUnload_owner _ _ _) rfl
      · exact some.inj moved ▸
          ⟨_, move_shifted (endUnload_tasks _ _ _)
            (endUnload_owner _ _ _), .ended rfl⟩
    · cases moved
  | forced _ =>
    simp only [stepTask] at moved
    split at moved
    · exact some.inj moved ▸ afterFirstHalf_progress rfl rfl rfl
    · cases moved
  | finish _ =>
    simp only [stepTask] at moved
    split at moved
    · exact some.inj moved ▸ ⟨_, move_shifted rfl rfl, .ended rfl⟩
    · exact some.inj moved ▸ ⟨_, move_shifted rfl rfl, .ended rfl⟩
    · cases moved
  | call _ _ _ => cases moved
  | observe _ _ => cases moved

/-- What one step can do. -/
theorem step_progress {next : Fleet} (careful : Careful fleet)
    (moved : fleet.step action = some next) :
    (next.tasks = fleet.tasks ∧ next.owner = fleet.owner) ∨
      ∃ id new, Shifted fleet next id new ∧
        Progress fleet action (fleet.tasks id) new := by
  cases action
  case observe slot state =>
    exact .inl (some.inj moved ▸ ⟨rfl, rfl⟩)
  case call id operation slot =>
    simp only [step] at moved
    split at moved
    · cases moved
    · rename_i unused
      refine .inr ⟨id, _, some.inj moved ▸ move_shifted rfl rfl, ?_⟩
      rw [unused]
      exact .started (operation.first_queued _)
  all_goals
    simp only [step, Action.id?] at moved
    split at moved
    · cases moved
    · rename_i running
      obtain ⟨new, shifted, progress⟩ :=
        stepTask_progress rfl careful running moved
      exact .inr ⟨_, new, shifted, running ▸ progress⟩

end Fleet

/-! ## Evictions which keep out of the way of loads -/

/-- A load of the slot waits for the admission lock or holds a reservation. -/
def Fleet.contended (fleet : Fleet) (slot : SlotName) : Bool :=
  match fleet.owner (.slot slot) with
  | some id =>
    match fleet.tasks id with
    | some task => task.stage.phase.needsAdmission
    | none => false
  | none => false

/-- An eviction of the slot waits for its lock. -/
def Fleet.awaited (fleet : Fleet) (slot : SlotName) : Bool :=
  match fleet.owner .admission with
  | some id =>
    match fleet.tasks id with
    | some task => task.stage.phase == .evictWait slot
    | none => false
  | none => false

/--
An eviction is requested only of a slot with no load at or past the admission
gate, and a load goes on to the gate only while no eviction waits for its
slot's lock.
-/
def OrderlyEviction (fleet : Fleet) (action : Action) : Prop :=
  (fleet.requested action).any fleet.contended = false ∧
    (fleet.admitted action).any fleet.awaited = false

instance (fleet : Fleet) (action : Action) :
    Decidable (OrderlyEviction fleet action) :=
  inferInstanceAs (Decidable (_ ∧ _))

/--
The table of locks is accurate, no admission evicts its own slot, and the
lock an eviction waits for is not held by a load that needs the admission
lock.
-/
structure Orderly (fleet : Fleet) : Prop where
  accurate : Accurate fleet.owner fleet.holds
  careful : Careful fleet
  clear : ∀ id task victim holder other,
    fleet.tasks id = some task → task.stage.phase = .evictWait victim →
    fleet.owner (.slot victim) = some holder →
    fleet.tasks holder = some other →
      other.stage.phase.needsAdmission = false

namespace Progress

variable {fleet : Fleet} {action : Action} {old : Option Task} {after : Task}

section

variable (progress : Progress fleet action old (some after))
include progress

theorem own_slot (entered : after.stage.phase ≠ .queued) :
    fleet.owner (.slot after.slot) = none ∨
      ∃ before, old = some before ∧ before.stage.phase ≠ .queued ∧
        before.slot = after.slot := by
  cases progress with
  | started queued => exact absurd queued entered
  | requeued inside queued => exact absurd queued entered
  | entered queued inside slot free => exact .inl (slot ▸ free)
  | worked before after slot =>
    exact .inr ⟨_, rfl, by simp [before], slot.symm⟩
  | gateAwaited inside waiting slot named =>
    exact .inr ⟨_, rfl, by simp [inside], slot.symm⟩
  | gateTaken waiting taken slot free =>
    exact .inr ⟨_, rfl, by simp [waiting], slot.symm⟩
  | evictionRequested gate waiting slot spared named =>
    refine .inr ⟨_, rfl, fun queued => ?_, slot.symm⟩
    simp [queued, Phase.isGate] at gate
  | evictionBegun waiting holding slot free victims =>
    exact .inr ⟨_, rfl, by simp [waiting], slot.symm⟩
  | gateLeft gate left slot =>
    refine .inr ⟨_, rfl, fun queued => ?_, slot.symm⟩
    simp [queued, Phase.isGate] at gate
  | spawned reserved waiting slot =>
    exact .inr ⟨_, rfl, by simp [reserved], slot.symm⟩
  | released waiting inside slot free =>
    exact .inr ⟨_, rfl, by simp [waiting], slot.symm⟩

theorem victim_slot {victim : SlotName}
    (holding : after.stage.phase = .evictHold victim) :
    fleet.owner (.slot victim) = none := by
  cases progress with
  | evictionBegun waiting took slot free victims =>
    obtain rfl := Phase.evictHold.inj (took.symm.trans holding)
    exact free
  | gateTaken waiting taken slot free =>
    rcases taken with taken | taken <;> simp [taken] at holding
  | gateLeft gate left slot =>
    rcases left with left | left <;> simp [left] at holding
  | _ => simp_all

theorem admission (held : after.holds .admission = true) :
    fleet.owner .admission = none ∨
      ∃ before, old = some before ∧ before.holds .admission = true := by
  rw [Task.holds_admission_iff] at held
  cases progress with
  | gateTaken waiting taken slot free => exact .inl free
  | evictionRequested gate waiting slot spared named =>
    exact .inr ⟨_, rfl, (Task.holds_admission_iff _).mpr (.inl gate)⟩
  | evictionBegun waiting holding slot free victims =>
    exact .inr ⟨_, rfl,
      (Task.holds_admission_iff _).mpr (.inr ⟨_, waiting⟩)⟩
  | gateLeft gate left slot =>
    exact .inr ⟨_, rfl, (Task.holds_admission_iff _).mpr (.inl gate)⟩
  | _ => simp_all [Phase.isGate]

end

end Progress

namespace Orderly

variable {fleet next : Fleet} {action : Action} {id : TaskId}
  {new : Option Task}

/-- A lock that is taken was free. -/
theorem available (orderly : Orderly fleet)
    (progress : Progress fleet action (fleet.tasks id) new) (lock : LockName)
    (held : heldBy new lock = true) :
    fleet.owner lock = none ∨ fleet.owner lock = some id := by
  have mine : ∀ {before lock}, fleet.tasks id = some before →
      before.holds lock = true → fleet.owner lock = some id := by
    intro before lock running holds
    refine (orderly.accurate lock id).mpr ?_
    rw [Fleet.holds, running]
    exact holds
  cases new with
  | none => cases held
  | some after =>
    cases lock with
    | admission =>
      rcases progress.admission held with free | ⟨before, running, had⟩
      · exact .inl free
      · exact .inr (mine running had)
    | slot name =>
      obtain ⟨entered, rfl | holding⟩ := Task.eq_of_holds_slot held
      · rcases progress.own_slot entered with
          free | ⟨before, running, inside, same⟩
        · exact .inl free
        · exact .inr (mine running (same ▸ Task.holds_own inside))
      · exact .inl (progress.victim_slot holding)

theorem holds_shifted (shifted : Shifted fleet next id new) :
    next.holds = update fleet.holds id (heldBy new) := by
  funext other
  by_cases same : other = id
  · subst same
    simp [Fleet.holds, shifted.1]
  · simp [Fleet.holds, shifted.1, update_of_ne same]

theorem careful_shifted (orderly : Orderly fleet)
    (shifted : Shifted fleet next id new)
    (progress : Progress fleet action (fleet.tasks id) new) :
    Careful next := by
  intro other task running
  rw [shifted.1] at running
  by_cases same : other = id
  · subst same
    rw [update_self] at running
    subst running
    have unlisted : task.stage.victims = [] → task.slot ∉ task.stage.victims :=
      fun empty => empty ▸ List.not_mem_nil
    generalize former : fleet.tasks other = old at progress
    cases progress with
    | evictionRequested gate waiting slot spared named => exact spared
    | evictionBegun waiting holding slot free victims =>
      rw [victims, slot]
      exact orderly.careful _ _ former
    | gateTaken waiting taken slot free =>
      exact unlisted (Stage.victims_eq_nil
        (by rcases taken with taken | taken <;> simp [taken])
        (by rcases taken with taken | taken <;> simp [taken]))
    | gateLeft gate left slot =>
      exact unlisted (Stage.victims_eq_nil
        (by rcases left with left | left <;> simp [left])
        (by rcases left with left | left <;> simp [left]))
    | _ => exact unlisted (Stage.victims_eq_nil (by simp_all) (by simp_all))
  · rw [update_of_ne same] at running
    exact orderly.careful _ _ running

variable {victim : SlotName}

section

variable (orderly : Orderly fleet)
include orderly

theorem owner_admission_of_evictWait {task : Task}
    (running : fleet.tasks id = some task)
    (waiting : task.stage.phase = .evictWait victim) :
    fleet.owner .admission = some id := by
  refine (orderly.accurate _ _).mpr ?_
  rw [Fleet.holds, running]
  exact (Task.holds_admission_iff task).mpr (.inr ⟨victim, waiting⟩)

theorem awaited_of_evictWait {task : Task}
    (running : fleet.tasks id = some task)
    (waiting : task.stage.phase = .evictWait victim) :
    fleet.awaited victim = true := by
  have owned := orderly.owner_admission_of_evictWait running waiting
  simp [Fleet.awaited, owned, running, waiting]

section

variable (permitted : OrderlyEviction fleet action)
include permitted

/--
While another task waits to evict the slot, a load of that slot does not move
to where it needs the admission lock.
-/
theorem needs_no_admission {waiter : TaskId} {waiting after : Task}
    (running : fleet.tasks waiter = some waiting)
    (evicts : waiting.stage.phase = .evictWait after.slot)
    (distinct : waiter ≠ id)
    (progress : Progress fleet action (fleet.tasks id) (some after)) :
    after.stage.phase.needsAdmission = false := by
  have owned := orderly.owner_admission_of_evictWait running evicts
  have awaited := orderly.awaited_of_evictWait running evicts
  generalize former : fleet.tasks id = old at progress
  cases progress with
  | gateAwaited inside waiting slot named =>
    have quiet := permitted.2
    simp [named, ← slot, awaited] at quiet
  | gateTaken waiting taken slot free =>
    rw [free] at owned
    cases owned
  | gateLeft gate left slot =>
    have ours : fleet.owner .admission = some id := by
      refine (orderly.accurate _ _).mpr ?_
      rw [Fleet.holds, former]
      exact (Task.holds_admission_iff _).mpr (.inl gate)
    exact absurd (some.inj (owned.symm.trans ours)) distinct
  | @spawned before _ reserved waiting slot =>
    have ours : fleet.owner (.slot after.slot) = some id := by
      refine (orderly.accurate _ _).mpr ?_
      rw [Fleet.holds, former, slot]
      exact Task.holds_own (by simp [reserved])
    have clear := orderly.clear _ _ _ _ _ running evicts ours former
    simp [reserved, Phase.needsAdmission] at clear
  | _ => simp_all [Phase.needsAdmission]

theorem clear_shifted (shifted : Shifted fleet next id new)
    (accurate : Accurate next.owner next.holds)
    (progress : Progress fleet action (fleet.tasks id) new)
    {waiter holder : TaskId} {waiting other : Task}
    (running : next.tasks waiter = some waiting)
    (evicts : waiting.stage.phase = .evictWait victim)
    (owned : next.owner (.slot victim) = some holder)
    (present : next.tasks holder = some other) :
    other.stage.phase.needsAdmission = false := by
  have held : other.holds (.slot victim) = true := by
    have holds := (accurate _ _).mp owned
    rwa [Fleet.holds, present] at holds
  rw [shifted.1] at running present
  rw [shifted.2] at owned
  by_cases moves : holder = id
  · subst moves
    rw [update_self] at present
    subst present
    by_cases same : waiter = holder
    · subst same
      rw [update_self] at running
      obtain rfl := some.inj running
      simp [evicts, Phase.needsAdmission]
    · rw [update_of_ne same] at running
      obtain ⟨-, rfl | holding⟩ := Task.eq_of_holds_slot held
      · exact orderly.needs_no_admission permitted running evicts same
          progress
      · simp [holding, Phase.needsAdmission]
  · rw [update_of_ne moves] at present
    have ownedBefore := owner_of_transfer owned moves
    by_cases same : waiter = id
    · subst same
      rw [update_self] at running
      subst running
      have requested : fleet.requested action = some victim := by
        generalize fleet.tasks waiter = old at progress
        cases progress with
        | evictionRequested gate waiting slot spared named =>
          obtain rfl := Phase.evictWait.inj (waiting.symm.trans evicts)
          exact named
        | gateTaken waiting taken slot free =>
          rcases taken with taken | taken <;> simp [taken] at evicts
        | gateLeft gate left slot =>
          rcases left with left | left <;> simp [left] at evicts
        | _ => simp_all
      have quiet := permitted.1
      simpa [requested, Fleet.contended, ownedBefore, present] using quiet
    · rw [update_of_ne same] at running
      exact orderly.clear _ _ _ _ _ running evicts ownedBefore present

theorem step (moved : fleet.step action = some next) :
    Orderly next := by
  rcases Fleet.step_progress orderly.careful moved with
    ⟨sameTasks, sameOwner⟩ | ⟨id, new, shifted, progress⟩
  · refine ⟨?_, ?_, ?_⟩
    · have sameHolds : next.holds = fleet.holds := by
        funext id
        rw [Fleet.holds, Fleet.holds, sameTasks]
      rw [sameOwner, sameHolds]
      exact orderly.accurate
    · rw [Careful, sameTasks]
      exact orderly.careful
    · rw [sameTasks, sameOwner]
      exact orderly.clear
  · have accurate : Accurate next.owner next.holds := by
      rw [shifted.2, holds_shifted shifted]
      exact orderly.accurate.transfer (orderly.available progress)
    refine ⟨accurate, orderly.careful_shifted shifted progress, ?_⟩
    intro waiter waiting victim holder other running evicts owned present
    exact orderly.clear_shifted permitted shifted accurate progress running
      evicts owned present

end

end

end Orderly

/-! ## No cycle of waiting tasks -/

/-- Tasks wait for tasks of lower rank only. -/
def Phase.rank : Phase → Nat
  | .queued => 3
  | .admitWait | .releaseWait => 2
  | .evictWait _ => 1
  | _ => 0

def Fleet.rank (fleet : Fleet) (id : TaskId) : Nat :=
  match fleet.tasks id with
  | some task => task.stage.phase.rank
  | none => 0

namespace Orderly

variable {fleet : Fleet}

theorem running_of_owner (orderly : Orderly fleet) {id : TaskId}
    {lock : LockName} (owned : fleet.owner lock = some id) :
    ∃ task, fleet.tasks id = some task ∧ task.holds lock = true := by
  have holds := (orderly.accurate _ _).mp owned
  rw [Fleet.holds] at holds
  cases running : fleet.tasks id with
  | none =>
    rw [running] at holds
    cases holds
  | some task =>
    rw [running] at holds
    exact ⟨task, rfl, holds⟩

/-- A victim's holder has a lower rank. -/
theorem rank_evicted (orderly : Orderly fleet) {waiter holder : TaskId}
    {waiting other : Task} {victim : SlotName}
    (running : fleet.tasks waiter = some waiting)
    (evicts : waiting.stage.phase = .evictWait victim)
    (owned : fleet.owner (.slot victim) = some holder)
    (present : fleet.tasks holder = some other)
    (held : other.holds (.slot victim) = true) :
    other.stage.phase.rank = 0 := by
  have clear := orderly.clear _ _ _ _ _ running evicts owned present
  have entered := (Task.eq_of_holds_slot held).1
  have stays : ∀ another, other.stage.phase ≠ .evictWait another := by
    intro another evictsToo
    have ours := orderly.owner_admission_of_evictWait running evicts
    have theirs := orderly.owner_admission_of_evictWait present evictsToo
    obtain rfl := some.inj (ours.symm.trans theirs)
    obtain rfl := some.inj (running.symm.trans present)
    obtain ⟨-, own | holding⟩ := Task.eq_of_holds_slot held
    · have listed : waiting.slot ∈ waiting.stage.victims := by
        cases stage : waiting.stage with
        | evictQueued fit first rest =>
          rw [stage] at evicts
          obtain rfl := Phase.evictWait.inj evicts
          simp [Stage.victims, own]
        | spawning reserved =>
          cases reserved <;> simp [stage, Stage.phase] at evicts
        | _ => simp [stage, Stage.phase] at evicts
      exact orderly.careful _ _ running listed
    · simp [holding] at evicts
  cases phase : other.stage.phase with
  | queued => exact absurd phase entered
  | evictWait another => exact absurd phase (stays another)
  | admitWait => simp [phase, Phase.needsAdmission] at clear
  | releaseWait => simp [phase, Phase.needsAdmission] at clear
  | _ => rfl

/-- So has whoever is waited for. -/
theorem rank_falls (orderly : Orderly fleet) {waiter holder : TaskId}
    (blocked : BlockedOn fleet.waits fleet.owner waiter holder) :
    fleet.rank holder < fleet.rank waiter := by
  obtain ⟨lock, wanted, owned⟩ := blocked
  obtain ⟨other, present, held⟩ := orderly.running_of_owner owned
  obtain ⟨waiting, running, waits⟩ := bind_eq_some_iff.mp wanted
  simp only [Fleet.rank, running, present]
  simp only [Task.waits] at waits
  split at waits
  · rename_i queued
    obtain rfl := some.inj waits
    have entered := (Task.eq_of_holds_slot held).1
    rw [queued]
    cases phase : other.stage.phase <;> simp_all [Phase.rank]
  · rename_i admitting
    obtain rfl := some.inj waits
    rw [admitting]
    rcases (Task.holds_admission_iff other).mp held with gate | ⟨_, evicts⟩
    · cases phase : other.stage.phase <;>
        simp_all [Phase.rank, Phase.isGate]
    · simp [evicts, Phase.rank]
  · rename_i leaving
    obtain rfl := some.inj waits
    rw [leaving]
    rcases (Task.holds_admission_iff other).mp held with gate | ⟨_, evicts⟩
    · cases phase : other.stage.phase <;>
        simp_all [Phase.rank, Phase.isGate]
    · simp [evicts, Phase.rank]
  · rename_i victim evicts
    obtain rfl := some.inj waits
    rw [orderly.rank_evicted running evicts owned present held, evicts]
    exact Nat.one_pos
  · cases waits

end Orderly

/-- A manager with no call in progress. -/
def Fleet.quiet (states : SlotName → SlotState) (preloadEvictEnabled : Bool)
    (preloadEvictHeadroomMb : Rat) : Fleet :=
  ⟨states, fun _ => none, preloadEvictEnabled, preloadEvictHeadroomMb, [],
    fun _ => none⟩

theorem Orderly.quiet (states : SlotName → SlotState)
    (preloadEvictEnabled : Bool) (preloadEvictHeadroomMb : Rat) :
    Orderly
      (.quiet states preloadEvictEnabled preloadEvictHeadroomMb) := by
  refine ⟨?_, ?_, ?_⟩
  · intro lock id
    simp [Fleet.quiet, Fleet.holds, heldBy]
  · intro id task running
    cases running
  · intro id task victim holder other running
    cases running

/--
In every run whose evictions are orderly no state has a cycle of waiting
tasks; in particular no load waits to evict a slot while a load of that slot
waits for the admission lock.
-/
theorem no_wait_cycle_of_orderly_evictions
    (states : SlotName → SlotState) (preloadEvictEnabled : Bool)
    (preloadEvictHeadroomMb : Rat) (actions : List Action) (fleet : Fleet)
    (run : Run Fleet.step OrderlyEviction
      (.quiet states preloadEvictEnabled preloadEvictHeadroomMb)
      actions fleet) :
    ¬ Deadlocked fleet.waits fleet.owner ∧
      ∀ evictor loader evicting loading,
        fleet.tasks evictor = some evicting →
        fleet.tasks loader = some loading →
        evicting.stage.phase = .evictWait loading.slot →
          loading.waits ≠ some .admission := by
  have orderly : Orderly fleet :=
    run.invariant Orderly
      (.quiet states preloadEvictEnabled preloadEvictHeadroomMb)
      fun _ _ _ orderly permitted moved => orderly.step permitted moved
  refine ⟨not_deadlocked_of_rank fleet.rank
    fun _ _ blocked => orderly.rank_falls blocked, ?_⟩
  intro evictor loader evicting loading running present evicts waits
  have needs : loading.stage.phase.needsAdmission = true ∧
      loading.stage.phase ≠ .queued := by
    simp only [Task.waits] at waits
    split at waits <;> simp_all [Phase.needsAdmission]
  have owned : fleet.owner (.slot loading.slot) = some loader := by
    refine (orderly.accurate _ _).mpr ?_
    rw [Fleet.holds, present]
    exact Task.holds_own needs.2
  have clear := orderly.clear _ _ _ _ _ running evicts owned present
  rw [needs.1] at clear
  cases clear

/-- The resident slot `chat`, idle and evictable, as the sweep sees it. -/
def sweptChat : SweptSlot := ⟨"chat", 0, 8, 0, .ready, .evictable 50⟩

/-- `chat` is loaded, every other slot is offline. -/
def chatLoaded (slot : SlotName) : SlotState :=
  if slot = "chat" then .ready else .offline

/-- `code` is loaded in the place of `chat`, and a second load waits for it. -/
def makeRoom : List Action :=
  [.call 2 .load "code", .acquire 2, .enter 2 false false,
    .call 3 .load "code", .prepared 2 (.resolved 8), .gate 2 4,
    .plan 2 [sweptChat], .acquire 2, .evicted 2 true 12,
    .spawned 2 (some .ready)]

/-- One load evicts, another waits. -/
theorem no_wait_cycle_one_eviction :
    ∃ fleet,
      Run Fleet.step OrderlyEviction (.quiet chatLoaded true 1)
          makeRoom fleet ∧
        (fleet.states "chat" = .offline ∧ fleet.states "code" = .ready ∧
          fleet.waits 3 = some (.slot "code")) ∧
        ¬ Deadlocked fleet.waits fleet.owner := by
  obtain ⟨fleet, run, reached⟩ := Run.exists_of_exec
    Fleet.step OrderlyEviction (.quiet chatLoaded true 1) makeRoom
    (fun fleet => fleet.states "chat" = .offline ∧
      fleet.states "code" = .ready ∧ fleet.waits 3 = some (.slot "code"))
    (by decide +kernel)
  exact ⟨fleet, run, of_decide_eq_true reached,
    (no_wait_cycle_of_orderly_evictions _ _ _ _ _ run).1⟩

/--
A reload of the loaded slot `chat` is comparing its config when a load of
`code` picks `chat` as a victim.  The reload then finds drift and goes on to
admission: each of the two waits for a lock of the other.
-/
theorem converging_load_deadlocks_eviction :
    ∃ fleet,
      Run Fleet.step Anything (.quiet chatLoaded true 1)
          [.call 1 .load "chat", .acquire 1, .enter 1 false false,
            .call 2 .load "code", .acquire 2, .enter 2 false false,
            .prepared 2 (.resolved 8), .gate 2 4, .plan 2 [sweptChat],
            .converge 1 true, .tornDown 1, .prepared 1 (.resolved 8)]
          fleet ∧
        Deadlocked fleet.waits fleet.owner := by
  obtain ⟨fleet, run, waiting⟩ := Run.exists_of_exec
    Fleet.step Anything (.quiet chatLoaded true 1)
    [.call 1 .load "chat", .acquire 1, .enter 1 false false,
      .call 2 .load "code", .acquire 2, .enter 2 false false,
      .prepared 2 (.resolved 8), .gate 2 4, .plan 2 [sweptChat],
      .converge 1 true, .tornDown 1, .prepared 1 (.resolved 8)]
    (fun fleet =>
      (fleet.waits 1 = some .admission ∧ fleet.owner .admission = some 2) ∧
        (fleet.waits 2 = some (.slot "chat") ∧
          fleet.owner (.slot "chat") = some 1)) (by decide +kernel)
  obtain ⟨reload, eviction⟩ := of_decide_eq_true waiting
  exact ⟨fleet, run,
    deadlocked_of_pair ⟨.admission, reload⟩ ⟨.slot "chat", eviction⟩⟩

end Hal0.Slots.LoadLocks
