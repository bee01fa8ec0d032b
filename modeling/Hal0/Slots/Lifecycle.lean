import Hal0.Core.Monitor
import Hal0.Slots.State
import Mathlib.Algebra.Group.Nat.Defs

/-!
# The lifecycle of a slot

What `SlotManager` keeps of one slot: its state record, the crash-loop
breaker, its reservation in the fabric-clock table.  `_transition` is the only
writer of the record.  Loads, unloads and restarts run under the slot's lock;
`status` reads the record, awaits its probes and may write the record, with or
without the lock.

Times are milliseconds of the monotonic clock.  `unit` is what systemd and the
model server would answer now; `log` and `epoch` are not in the source: they
record what happened to the breaker, and how often the lock was taken.
-/

namespace Hal0.Slots.Lifecycle

abbrev StopToken := Nat

/-! ## The state record -/

/-- The fields of a slot's config which its lifecycle reads. -/
structure Config where
  port : Nat
  modelDefault : Option String
  provider : String
  trioShadow : Bool
deriving DecidableEq, Repr

def selfManagedProviders : List String :=
  ["kokoro", "qwen3tts", "moonshine", "vibevoice"]

/-- The provider cannot start without a model. -/
def providerRequiresModel (provider : String) : Bool :=
  !selfManagedProviders.contains provider.toLower

/-- `SlotStateRecord`, with the keys of `extra` that code reads back. -/
structure Record where
  state : SlotState
  modelId : Option String
  port : Nat
  message : String
  provider : Option String
  slowStop : Option StopToken
  stallCeiling : Bool
  sanityFailed : Bool
  loadFailures : Nat
  parked : Bool
deriving DecidableEq, Repr

/-- A slot that was never loaded. -/
def Record.blank : Record :=
  ⟨.offline, none, 0, "", none, none, false, false, 0, false⟩

/-- The arguments of `_transition`. -/
structure Write where
  toState : SlotState
  modelId : Option String := none
  port : Nat := 0
  message : String := ""
  provider : Option String := none
  slowStop : Option StopToken := none
  sanityFailed : Bool := false
  loadFailures : Option Nat := none
  parked : Bool := false
  force : Bool := false
deriving DecidableEq, Repr

/-- The record `_transition` writes over `prior`. -/
def Write.record (write : Write) (prior : Record) : Record :=
  let modelId := write.modelId.or prior.modelId
  let provider := write.provider.or prior.provider
  let modelless := (write.toState = .ready || write.toState = .serving) &&
    modelId.isNone && provider.any providerRequiresModel
  let converged := write.toState.isResident
  { state := if modelless then .idle else write.toState
    modelId := modelId
    port := if write.port = 0 then prior.port else write.port
    message := write.message
    provider := provider
    slowStop := write.slowStop
    stallCeiling := false
    sanityFailed :=
      !converged && (write.sanityFailed || prior.sanityFailed)
    loadFailures :=
      if converged then 0 else write.loadFailures.getD prior.loadFailures
    parked := !converged && (write.parked || prior.parked) }

theorem Write.record_state (write : Write) (prior : Record)
    (stays : write.toState ≠ .ready) (quiet : write.toState ≠ .serving) :
    (write.record prior).state = write.toState := by
  simp [Write.record, stays, quiet]

/-! ## The crash-loop breaker -/

def crashLoopBase : Nat := 5000
def crashLoopMax : Nat := 300000
def crashLoopParkAfter : Nat := 5
def crashLoopParkMax : Nat := 3600000

/--
The interval of `_crash_loop_remaining_s`; `none` is the `OverflowError` of a
power of two which no float holds.
-/
def crashLoopInterval (failures : Nat) : Option Nat :=
  if crashLoopParkAfter ≤ failures then
    if failures - crashLoopParkAfter < 1024 then
      some (min (crashLoopMax * 2 ^ (failures - crashLoopParkAfter))
        crashLoopParkMax)
    else none
  else
    some (min (crashLoopBase * 2 ^ (failures - 1)) crashLoopMax)

/-- `_crash_loop_remaining_s`. -/
def crashLoopRemaining (now : Nat) : Option (Nat × Nat) → Option Nat
  | none => some 0
  | some (failures, lastFailure) =>
    if failures = 0 then some 0
    else (crashLoopInterval failures).map (lastFailure + · - now)

/-- What the count of failures is made of. -/
inductive BreakerEvent where
  | failed (time : Nat)
  | converged
  | reset
deriving DecidableEq, Repr

/--
The failed load attempts since the last healthy convergence or reset, and the
time of the last of them.
-/
def failureStreak : List BreakerEvent → Option (Nat × Nat)
  | [] => none
  | .failed time :: earlier =>
    some (((failureStreak earlier).elim 0 Prod.fst) + 1, time)
  | .converged :: _ | .reset :: _ => none

/-! ## The slot -/

/-- The fabrics a slot can use. -/
inductive FabricClass where
  | npu
  | gpu
deriving DecidableEq, Repr

structure UnitHealth where
  active : Bool
  healthy : Bool
deriving DecidableEq, Repr

/-- What `SlotManager` keeps of one slot, beside its lock. -/
structure Slot where
  now : Nat
  record : Option Record
  loadFailures : Option (Nat × Nat)
  fabricPending : Option FabricClass
  slowStops : List StopToken
  nextToken : StopToken
  unit : UnitHealth
  log : List BreakerEvent
  epoch : Nat
deriving DecidableEq, Repr

namespace Slot

/-- A new process on the record it finds on disk. -/
def boot (record : Option Record) (unit : UnitHealth) : Slot where
  now := 0
  record := record
  loadFailures := none
  fabricPending := none
  slowStops := []
  nextToken := 0
  unit := unit
  log := []
  epoch := 0

/-- `_current_state`. -/
def state (slot : Slot) : SlotState :=
  slot.record.elim .offline Record.state

/-- `_transition` past its check; `READY` and `IDLE` clear the breaker. -/
def write (slot : Slot) (write : Write) : Slot :=
  { slot with
    record := some (write.record (slot.record.getD .blank))
    loadFailures :=
      if write.toState.isResident then none else slot.loadFailures
    log :=
      if write.toState.isResident then .converged :: slot.log
      else slot.log }

/-- `_transition`; `none` is `IllegalSlotTransition`. -/
def transition (slot : Slot) (write : Write) : Option Slot :=
  if slot.state = write.toState || write.force ||
      slot.state.isTransitionLegal write.toState then
    some (slot.write write)
  else none

/-- `reset_load_failures`: operator intent. -/
def resetLoadFailures (slot : Slot) : Slot :=
  { slot with loadFailures := none, log := .reset :: slot.log }

/-- The failure bookkeeping of `_load`. -/
def countFailure (slot : Slot) : Slot :=
  { slot with
    loadFailures :=
      some ((slot.loadFailures.elim 0 Prod.fst) + 1, slot.now)
    log := .failed slot.now :: slot.log }

/-- `_release_fabric_pending`. -/
def releaseFabricPending (slot : Slot) : Slot :=
  { slot with fabricPending := none }

/-- `_check_crash_loop_gate` returns; it raises in every other case. -/
def gateOpen (slot : Slot) : Bool :=
  crashLoopRemaining slot.now slot.loadFailures = some 0

/-- The slot's lock changes hands. -/
def enter (slot : Slot) : Slot :=
  { slot with epoch := slot.epoch + 1 }

end Slot

end Hal0.Slots.Lifecycle
