import Mathlib.Data.List.Basic

/-!
# Slot lifecycle states
-/

namespace Hal0.Slots

/-- Lifecycle states for an inference slot. -/
inductive SlotState where
  | offline
  | pulling
  | starting
  | warming
  | ready
  | serving
  | idle
  | unloading
  | error
deriving DecidableEq, Repr

namespace SlotState

/-- The wire representation of a state. -/
def value : SlotState → String
  | .offline => "offline"
  | .pulling => "pulling"
  | .starting => "starting"
  | .warming => "warming"
  | .ready => "ready"
  | .serving => "serving"
  | .idle => "idle"
  | .unloading => "unloading"
  | .error => "error"

/-- Requests are sent to such a slot. -/
def isDispatchable : SlotState → Bool
  | .ready | .serving | .idle => true
  | _ => false

/-- Such a slot is being loaded. -/
def isInFlight : SlotState → Bool
  | .pulling | .starting | .warming => true
  | _ => false

/-- `is_transition_legal`: the transitions of `LEGAL_TRANSITIONS`. -/
def isTransitionLegal : SlotState → SlotState → Bool
  | .offline, .pulling | .offline, .starting => true
  | .pulling, .starting | .pulling, .error | .pulling, .offline => true
  | .starting, .warming | .starting, .error | .starting, .offline => true
  | .warming, .ready | .warming, .idle | .warming, .error
  | .warming, .offline => true
  | .ready, .serving | .ready, .idle | .ready, .unloading
  | .ready, .error => true
  | .serving, .ready | .serving, .idle | .serving, .error => true
  | .idle, .serving | .idle, .unloading | .idle, .ready => true
  | .unloading, .offline | .unloading, .error => true
  | .error, .offline | .error, .pulling | .error, .starting => true
  | _, _ => false

/-- `READY` or `IDLE`: resident, and not in the middle of a request. -/
def isResident : SlotState → Bool
  | .ready | .idle => true
  | _ => false

end SlotState

end Hal0.Slots
