import Hal0.Slots.FabricClass
import Hal0.Slots.LifecycleTasks

/-!
# The fabric-clock guard over a fleet of slots

Every slot runs its lifecycle; a load which has come to `_guard_fabric_clock`
goes on when the guard answers.  Under `_fabric_admission_lock` the guard
lists its peers, each by a `status` of its own, asks whether the units of the
peers in `ERROR` are active, and then looks at the table of the loads which
passed and have not yet published `STARTING`.

`passed` is not in the source: it marks the slots which passed the guard and
have been live ever since.
-/

namespace Hal0.Slots.FabricClock

open Function
open Hal0.Transition Hal0.Monitor Hal0.Slots.Lifecycle

abbrev SlotName := String

/-! ## The fleet -/

/-- `[slots].fabric_clock_guard`. -/
inductive Policy where
  | off
  | warn
  | refuse
deriving DecidableEq, Repr

/-- The slots and the policy on them. -/
structure Setup where
  policy : Policy
  names : List SlotName
  config : SlotName → FabricConfig

/-- The class that the guard sees. -/
def Setup.sideOf (setup : Setup) (name : SlotName) : Option FabricClass :=
  guardClass (setup.config name)

/-- The class of the other fabric. -/
def opposite : FabricClass → FabricClass
  | .npu => .gpu
  | .gpu => .npu

/-- The state counts as using the fabric. -/
def isCounted : SlotState → Bool
  | .starting | .warming | .ready | .serving | .idle | .unloading => true
  | _ => false

/-- The slot occupies its device: by its state, or in `ERROR` by its unit. -/
def occupies (slot : Slot) : Bool :=
  isCounted slot.state || (slot.state = .error && slot.unit.active)

/-- The slot uses the fabric, or will. -/
def live (slot : Slot) : Bool :=
  slot.fabricPending.isSome || occupies slot

/-- A `status` of the listing: not begun, or with the state it observed. -/
inductive Glimpse where
  | unread
  | polling (task : TaskId) (observed : SlotState)
  | returned (observed : SlotState)
deriving DecidableEq, Repr

/-- What `read_fabric_clock` returns. -/
structure Clock where
  readable : Bool
  held : Bool
deriving DecidableEq, Repr

/-- Where the guard is, under its lock. -/
inductive Phase where
  /-- `list`, with one `status` for each peer. -/
  | listing (glimpses : SlotName → Glimpse)
  /-- `_is_active` of a peer in `ERROR`; `answer` is what systemd said. -/
  | probing (peer : SlotName) (answer : Option Bool)
      (rest : List (SlotName × SlotState)) (counterparts : List SlotName)
  /-- `read_fabric_clock` in its thread. -/
  | reading (counterparts : List SlotName)

/-- The load which holds `_fabric_admission_lock`. -/
structure Scan where
  slot : SlotName
  task : TaskId
  side : FabricClass
  phase : Phase

/-- The slots, and who has passed the guard. -/
structure Fleet where
  slots : SlotName → SlotWorld
  scan : Option Scan
  passed : SlotName → Bool

namespace Fleet

/-- A new process on the records and units it finds. -/
def boot (record : SlotName → Option Record) (unit : SlotName → UnitHealth) :
    Fleet where
  slots := fun name => .quiet (.boot (record name) (unit name))
  scan := none
  passed := fun _ => false

/-- The slot `name`, beside its tasks. -/
def slot (fleet : Fleet) (name : SlotName) : Slot :=
  (fleet.slots name).shared

/-- One slot's lifecycle goes on. -/
def put (fleet : Fleet) (name : SlotName) (world : SlotWorld) : Fleet :=
  { fleet with slots := update fleet.slots name world }

/-- A slot that is down has not passed. -/
def settle (fleet : Fleet) : Fleet :=
  { fleet with
    passed := fun name => fleet.passed name && live (fleet.slot name) }

/-! ## The guard -/

/-- The load at its guard gets the guard's answer. -/
def answer (setup : Setup) (fleet : Fleet) (name : SlotName) (task : TaskId)
    (guard : GuardAnswer) (passes : Bool) : Option Fleet :=
  match (fleet.slots name).tasks task with
  | some (.fabricGuard _) =>
    if name ∈ setup.names then
      (program.step (fleet.slots name)
        (.resume task { guard := guard })).map fun world =>
          { fleet.put name world with
            passed := update fleet.passed name
              (fleet.passed name || passes) }
    else none
  | _ => none

/-- The pending loads of the other side. -/
def pendingCounterparts (setup : Setup) (fleet : Fleet) (scan : Scan) :
    List SlotName :=
  setup.names.filter fun name =>
    name ≠ scan.slot &&
      (fleet.slot name).fabricPending = some (opposite scan.side)

/-- The guard lets its load pass when there is no counterpart. -/
def conclude (setup : Setup) (fleet : Fleet) (scan : Scan)
    (counterparts : List SlotName) : Option Fleet :=
  let found := counterparts ++ fleet.pendingCounterparts setup scan
  if found = [] then
    answer setup { fleet with scan := none } scan.slot scan.task
      (.reserved scan.side) true
  else some { fleet with scan := some { scan with phase := .reading found } }

end Fleet

/-- The loop over the snapshots stops at a probe, or ends. -/
inductive Survey where
  | probe (peer : SlotName) (rest : List (SlotName × SlotState))
      (counterparts : List SlotName)
  | done (counterparts : List SlotName)

/-- The slots of the other fabric, in turn. -/
def survey (setup : Setup) (side : FabricClass) :
    List (SlotName × SlotState) → List SlotName → Survey
  | [], counterparts => .done counterparts
  | (peer, observed) :: rest, counterparts =>
    if !snapshotUses (setup.config peer) (opposite side) then
      survey setup side rest counterparts
    else if isCounted observed then
      survey setup side rest (counterparts ++ [peer])
    else if observed = .error then .probe peer rest counterparts
    else survey setup side rest counterparts

namespace Fleet

/-- The guard goes on with the snapshots which are left. -/
def proceed (setup : Setup) (fleet : Fleet) (scan : Scan)
    (rest : List (SlotName × SlotState)) (counterparts : List SlotName) :
    Option Fleet :=
  match survey setup scan.side rest counterparts with
  | .probe peer rest counterparts =>
    some { fleet with
      scan := some
        { scan with phase := .probing peer none rest counterparts } }
  | .done counterparts => fleet.conclude setup scan counterparts

end Fleet

/-- The snapshots, once every `status` of the listing has returned. -/
def snapshots (setup : Setup) (slot : SlotName)
    (glimpses : SlotName → Glimpse) : Option (List (SlotName × SlotState)) :=
  (setup.names.filter (· ≠ slot)).mapM fun name =>
    match glimpses name with
    | .returned observed => some (name, observed)
    | _ => none

/-- The clock is read: the guard passes its load, or refuses it. -/
def clockAnswer (policy : Policy) (side : FabricClass) (clock : Clock) :
    GuardAnswer :=
  if clock.readable && clock.held then .reserved side
  else if !clock.readable then .reserved side
  else if policy = .warn then .reserved side
  else .hazard

/-! ## The polls of the listing -/

/-- `observed` after a step of `status`. -/
def observes (observed : SlotState) : Probe → Reply → SlotState
  | .failureReason, reply =>
    if reply.failureReason.isSome then .error else .offline
  | .stoppedCleanly _, reply => if reply.yes then .offline else observed
  | .removedCleanly _, reply => if reply.yes then .offline else observed
  | .adoptStall _, reply => if reply.yes then .ready else observed
  | .adoptHealth _, reply => if reply.yes then .ready else .warming
  | _, _ => observed

/-- A step of the peer, seen from its `status`. -/
def Glimpse.follow (world next : SlotWorld) (action : SlotAction) :
    Glimpse → Glimpse
  | .polling task observed =>
    match action with
    | .resume other reply =>
      if other = task then
        let observed :=
          match world.tasks task with
          | some (.status .poll _ probe) => observes observed probe reply
          | _ => observed
        if (next.tasks task).isNone then .returned observed
        else .polling task observed
      else .polling task observed
    | _ => .polling task observed
  | glimpse => glimpse

/-- A step of a slot, seen from the guard: its own load may be cancelled. -/
def Scan.follow (scan : Scan) (name : SlotName) (world next : SlotWorld)
    (action : SlotAction) : Option Scan :=
  if name = scan.slot then
    match action with
    | .cancel task => if task = scan.task then none else some scan
    | _ => some scan
  else
    match scan.phase with
    | .listing glimpses =>
      some { scan with
        phase := .listing (update glimpses name
          ((glimpses name).follow world next action)) }
    | _ => some scan

/-! ## Steps -/

/-- A step of a slot, or of the guard over it. -/
inductive FleetAction where
  /-- A step of a slot's own lifecycle. -/
  | slot (name : SlotName) (action : SlotAction)
  /-- A request begins or ends on a loaded slot. -/
  | serving (name : SlotName) (toState : SlotState)
  /-- The guard returns at once. -/
  | skip (name : SlotName) (task : TaskId)
  /-- The guard takes `_fabric_admission_lock`. -/
  | lock (name : SlotName) (task : TaskId)
  /-- The listing begins the `status` of a peer. -/
  | poll (name : SlotName) (task : TaskId)
  | listed
  | listFails
  /-- Systemd answers the probe of a peer in `ERROR`. -/
  | check
  | probed
  | clockRead (clock : Clock)
  | clockFails
  | restart

/-- The step would answer the guard of a load. -/
def answersGuard (world : SlotWorld) : SlotAction → Bool
  | .resume task _ =>
    match world.tasks task with
    | some (.fabricGuard _) => true
    | _ => false
  | .restart => true
  | _ => false

namespace Fleet

/-- A step of the lifecycle of `name`. -/
def stepSlot (fleet : Fleet) (name : SlotName) (action : SlotAction) :
    Option Fleet :=
  (program.step (fleet.slots name) action).map fun next =>
    { fleet.put name next with
      scan := fleet.scan.bind fun scan =>
        scan.follow name (fleet.slots name) next action }

/-- `mark_serving` and its end, between the states of a loaded slot. -/
def stepServing (fleet : Fleet) (name : SlotName) (toState : SlotState) :
    Option Fleet :=
  if (fleet.slot name).state.isDispatchable && toState.isDispatchable then
    ((fleet.slot name).transition { toState := toState }).map fun slot =>
      fleet.put name { fleet.slots name with shared := slot }
  else none

/-- The `status` of a peer begins with a read of its record. -/
def stepPoll (setup : Setup) (fleet : Fleet) (scan : Scan)
    (glimpses : SlotName → Glimpse) (name : SlotName) (task : TaskId) :
    Option Fleet :=
  if name ∈ setup.names ∧ name ≠ scan.slot ∧ glimpses name = .unread then
    (program.step (fleet.slots name) (.start task
      (.status .poll (fleet.slot name).epoch
        (.isActive (fleet.slot name).record)))).map fun next =>
      { fleet.put name next with
        scan := some
          { scan with
            phase := .listing (update glimpses name
              (.polling task (fleet.slot name).state)) } }
  else none

/-- One step of the fleet, before the marks are brought up to date. -/
def move (setup : Setup) (fleet : Fleet) : FleetAction → Option Fleet
  | .slot name action =>
    if name ∈ setup.names ∧ answersGuard (fleet.slots name) action = false
    then fleet.stepSlot name action
    else none
  | .serving name toState => fleet.stepServing name toState
  | .skip name task =>
    if setup.policy = .off ∨ setup.sideOf name = none then
      answer setup fleet name task .unguarded true
    else none
  | .lock name task =>
    match fleet.scan, setup.sideOf name,
        (fleet.slots name).tasks task with
    | none, some side, some (.fabricGuard _) =>
      if setup.policy ≠ .off then
        some { fleet with
          scan := some ⟨name, task, side, .listing fun _ => .unread⟩ }
      else none
    | _, _, _ => none
  | .poll name task =>
    fleet.scan.bind fun scan =>
      match scan.phase with
      | .listing glimpses => stepPoll setup fleet scan glimpses name task
      | _ => none
  | .listed =>
    fleet.scan.bind fun scan =>
      match scan.phase with
      | .listing glimpses =>
        (snapshots setup scan.slot glimpses).bind fun others =>
          proceed setup fleet scan others []
      | _ => none
  | .listFails =>
    fleet.scan.bind fun scan =>
      match scan.phase with
      | .listing _ =>
        answer setup { fleet with scan := none } scan.slot scan.task
          .unguarded true
      | _ => none
  | .check =>
    fleet.scan.bind fun scan =>
      match scan.phase with
      | .probing peer none rest counterparts =>
        some { fleet with
          scan := some
            { scan with
              phase := .probing peer
                (some (fleet.slot peer).unit.active) rest
                counterparts } }
      | _ => none
  | .probed =>
    fleet.scan.bind fun scan =>
      match scan.phase with
      | .probing peer (some active) rest counterparts =>
        proceed setup fleet scan rest
          (if active then counterparts ++ [peer] else counterparts)
      | _ => none
  | .clockRead clock =>
    fleet.scan.bind fun scan =>
      match scan.phase with
      | .reading _ =>
        let guard := clockAnswer setup.policy scan.side clock
        answer setup { fleet with scan := none } scan.slot scan.task guard
          (guard ≠ .hazard)
      | _ => none
  | .clockFails =>
    fleet.scan.bind fun scan =>
      match scan.phase with
      | .reading _ =>
        answer setup { fleet with scan := none } scan.slot scan.task
          .unguarded true
      | _ => none
  | .restart =>
    some
      { fleet with
        slots := fun name => .quiet (fleet.slot name).restart
        scan := none }

/-- One step of the fleet. -/
def step (setup : Setup) : StepFunction Fleet FleetAction :=
  fun fleet action => (fleet.move setup action).map settle

end Fleet

end Hal0.Slots.FabricClock
