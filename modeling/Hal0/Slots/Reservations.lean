import Hal0.Core.Tasks
import Hal0.Slots.PreloadEvict
import Mathlib.Algebra.Order.BigOperators.Group.List
import Mathlib.Algebra.Order.Ring.Rat
import Mathlib.Tactic.Linarith
import Mathlib.Tactic.Ring

/-!
# Reservations of the admission gate

`admit` wraps the spawn of a load.  Under `_admission_lock` it probes the free
memory of the host, subtracts what the other loads have reserved, evicts idle
slots until the incoming model fits, and writes its own reservation; the exit
of the block takes the lock again and pops it.  Several loads are between
these points at once, one for each slot: `_load` holds the lock of its slot
around the block.

The exit is a suspension too.  A block which is cancelled while it waits for
the lock at its exit leaves its reservation behind.

`resident` and `admissions` are not in the source.  The first is how much of a
reservation has become resident, the second what each admission has read.
Amounts are MiB in exact arithmetic.
-/

namespace Hal0.Slots.Reservations

open Hal0.Transition
open Hal0.Tasks
open Hal0.Slots.PreloadEvict

/-! ## The host -/

/-- `_preload_evict_enabled` and `_preload_evict_headroom_mb`. -/
structure Settings where
  enabled : Bool
  headroomMb : Rat

/-- An entry of `_preload_reserved_mb`. -/
structure Reservation where
  slot : String
  neededMb : Rat
  residentMb : Rat
deriving DecidableEq

/-- What an admission has seen. -/
structure Admission where
  slot : String
  neededMb : Rat
  probedMb : Option Rat
  reservedByOthers : Rat
deriving DecidableEq

/-- `free` is the memory of the host, `loading` the holders of the slot locks. -/
structure Host where
  free : Rat
  reserved : List Reservation
  lock : Option TaskId
  loading : String → Option TaskId
  admissions : List Admission

/-- The probe leaves room for the load, the headroom and the other loads. -/
def Admission.Fits (headroomMb : Rat) (admission : Admission) : Prop :=
  ∀ free, admission.probedMb = some free →
    admission.neededMb + headroomMb ≤ free - admission.reservedByOthers

namespace Host

/-- The reservations of the slots other than `slot`. -/
def others (host : Host) (slot : String) : List Reservation :=
  host.reserved.filter (·.slot ≠ slot)

/-- `reserved_by_others` -/
def reservedByOthers (host : Host) (slot : String) : Rat :=
  ((host.others slot).map Reservation.neededMb).sum

/-- `_probe_host_free_mb` -/
def probe (host : Host) (works : Bool) : Option Rat :=
  if works then some host.free else none

/-- The reservation is written, and the lock is released. -/
def reserve (host : Host) (slot : String) (neededMb : Rat)
    (probedMb : Option Rat) : Host :=
  { host with
    reserved := ⟨slot, neededMb, 0⟩ :: host.others slot
    lock := none
    admissions := host.admissions ++
      [⟨slot, neededMb, probedMb, host.reservedByOthers slot⟩] }

/-- `_preload_reserved_mb.pop(slot_name, None)` -/
def pop (host : Host) (slot : String) : Host :=
  { host with reserved := host.others slot }

def locked (host : Host) (task : TaskId) : Host :=
  { host with lock := some task }

def unlocked (host : Host) : Host :=
  { host with lock := none }

/-- The load is over. -/
def done (host : Host) (slot : String) : Host :=
  { host with loading := Function.update host.loading slot none }

end Host

/-! ## The block -/

/-- Where a block of `admit` is suspended. -/
inductive Pc where
  | estimating (slot : String)
  | entering (slot : String) (neededMb : Rat)
  | gathering (slot : String) (neededMb others freeMb : Rat)
  | unloading (slot : String) (neededMb others : Rat)
      (candidate : CandidateSlot) (rest : List CandidateSlot)
  | inside (slot : String) (neededMb : Rat)
  | leaving (slot : String) (neededMb : Rat)
  | unreserved (slot : String)
deriving DecidableEq

namespace Pc

def slot : Pc → String
  | .estimating slot | .entering slot _ | .gathering slot _ _ _
  | .unloading slot _ _ _ _ | .inside slot _ | .leaving slot _
  | .unreserved slot => slot

/-- What the task has reserved. -/
def reservation : Pc → Option Rat
  | .inside _ neededMb | .leaving _ neededMb => some neededMb
  | _ => none

/-- What it has read of the others. -/
def hasRead : Pc → Option Rat
  | .gathering _ _ others _ | .unloading _ _ others _ _ => some others
  | _ => none

end Pc

/-- What the awaited call answers. -/
inductive Reply where
  | footprint (mb : Rat)
  | probed (works : Bool)
  | swept (sweep : List SweptSlot)
  | unloaded (works : Bool)
  | raised
  | exits (queued : Bool)
deriving DecidableEq

/-- What happens to the memory beside the loads. -/
inductive Event where
  /-- Memory is freed. -/
  | freed (mb : Rat)
  /-- A load takes memory which it has reserved. -/
  | becameResident (slot : String) (mb : Rat)

/-- The next candidate is unloaded; without one the admission fails. -/
def attempt (host : Host) (slot : String) (neededMb others : Rat) :
    List CandidateSlot → Host × Option Pc
  | [] => (host.unlocked.done slot, none)
  | candidate :: rest =>
    (host, some (.unloading slot neededMb others candidate rest))

/-- The decision on one probe: reserve, or go on as `short` says. -/
def decideFit (settings : Settings) (host : Host) (slot : String)
    (neededMb others : Rat) (probedMb : Option Rat)
    (short : Rat → Host × Option Pc) : Host × Option Pc :=
  match probedMb with
  | none => (host.reserve slot neededMb none, some (.inside slot neededMb))
  | some free =>
    if neededMb + settings.headroomMb ≤ free - others then
      (host.reserve slot neededMb (some free),
        some (.inside slot neededMb))
    else short (free - others)

/-- From one suspension to the next; at its exit a block may have to queue. -/
def resume (settings : Settings) (host : Host) (task : TaskId) :
    Pc → Reply → Option (Host × Option Pc)
  | .estimating slot, .footprint mb =>
    some (host, some
      (if mb ≤ 0 then .unreserved slot else .entering slot mb))
  | .estimating slot, .raised => some (host.done slot, none)
  | .entering slot neededMb, .probed works =>
    if host.lock = none then
      let others := host.reservedByOthers slot
      some (decideFit settings host slot neededMb others (host.probe works)
        fun freeMb => (host.locked task,
          some (.gathering slot neededMb others freeMb)))
    else none
  | .gathering slot neededMb others freeMb, .swept sweep =>
    let plan := selectEvictionOrder (gatherCandidates slot sweep) neededMb
      settings.headroomMb freeMb
    some (attempt host slot neededMb others plan.selected)
  | .gathering slot _ _ _, .raised => some (host.unlocked.done slot, none)
  | .unloading slot neededMb others _ rest, .unloaded works =>
    some (decideFit settings host slot neededMb others (host.probe works)
      fun _ => attempt host slot neededMb others rest)
  | .unloading slot neededMb others _ rest, .raised =>
    some (attempt host slot neededMb others rest)
  | .inside slot neededMb, .exits queued =>
    if queued || host.lock.isSome then
      some (host, some (.leaving slot neededMb))
    else some ((host.pop slot).done slot, none)
  | .leaving slot _, .exits _ =>
    if host.lock = none then some ((host.pop slot).done slot, none)
    else none
  | .unreserved slot, .exits _ => some (host.done slot, none)
  | _, _ => none

/-- A load has taken the lock of its slot. -/
def start (settings : Settings) (host : Host) (task : TaskId) (pc : Pc) :
    Option Host :=
  let first := if settings.enabled then Pc.estimating pc.slot
    else .unreserved pc.slot
  if pc = first ∧ host.loading pc.slot = none then
    some { host with
      loading := Function.update host.loading pc.slot (some task) }
  else none

/--
A `CancelledError` at the suspension.  Inside the block it is one more way to
exit, which `Reply.exits` covers.
-/
def cancel (host : Host) : Pc → Option Host
  | .estimating slot | .entering slot _ | .unreserved slot
  | .leaving slot _ => some (host.done slot)
  | .gathering slot _ _ _ | .unloading slot _ _ _ _ =>
    some (host.unlocked.done slot)
  | .inside _ _ => none

def becomeResident (slot : String) (mb : Rat) (reservation : Reservation) :
    Reservation :=
  if reservation.slot = slot then
    { reservation with residentMb := reservation.residentMb + mb }
  else reservation

/-- Free memory only drops by what a load has reserved. -/
def occur (host : Host) : Event → Option Host
  | .freed mb => if 0 ≤ mb then some { host with free := host.free + mb }
      else none
  | .becameResident slot mb =>
    match host.reserved.find? (·.slot = slot) with
    | none => none
    | some reservation =>
      if 0 ≤ mb ∧ reservation.residentMb + mb ≤ reservation.neededMb then
        some { host with
          free := host.free - mb
          reserved := host.reserved.map (becomeResident slot mb) }
      else none

/-- The loads of a host. -/
def loads (settings : Settings) : Program Host Pc Reply Event where
  start := start settings
  resume := resume settings
  cancel := fun host _ pc => cancel host pc
  occur := occur

abbrev LoadWorld := World Host Pc

abbrev LoadAction := Action Pc Reply Event

end Hal0.Slots.Reservations
