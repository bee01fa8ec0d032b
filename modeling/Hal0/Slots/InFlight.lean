import Hal0.Core.Transition
import Hal0.Slots.State
import Hal0.Slots.Keys

/-!
# In-flight accounting of dispatched requests

`Dispatcher.forward` takes a dispatch ticket on its slot, enters `serving()`
around the upstream call, and releases both on its way out; a streaming
response carries the release of `serving()` in its body iterator.  The two
counters live in `SlotManager` under the slot's handle, and every operation
resolves the handle again from the slot's name.

A request is suspended in one of the phases below.  A step runs a request from
one suspension to the next; the slot state which a step reads is part of the
action, and so is every failure: exceptions, cancellations, and responses
dropped before their body was started.  `rename` checks that the slot is
offline before it waits for the slot's lock, so its label move may come at any
time.
-/

namespace Hal0.Slots.InFlight

open Function Option
open Hal0.Transition
open Hal0.Handles

abbrev TaskId := Nat

/--
Where a request is.  `releasing` and `settling` are the two halves of
`_serving_exit`, before and after the count goes down; `inForward` says
whether `forward` has yet to return and drop the ticket.
-/
inductive Phase where
  | ticketed
  | enterWait
  | entering
  | upstream
  | returned
  | streaming
  | releasing (inForward : Bool)
  | settling (inForward : Bool)
deriving DecidableEq, Repr

/-- The request holds a dispatch ticket. -/
def Phase.isTicketed : Phase → Bool
  | .ticketed | .enterWait | .entering | .upstream => true
  | .releasing inForward | .settling inForward => inForward
  | .returned | .streaming => false

/-- The request is counted in `_serving_count`. -/
def Phase.isCounted : Phase → Bool
  | .entering | .upstream | .returned | .streaming | .releasing _ => true
  | .ticketed | .enterWait | .settling _ => false

/-- The request is inside an open `serving()` context. -/
def Phase.isServing : Phase → Bool
  | .upstream | .returned | .streaming | .releasing _ => true
  | .ticketed | .enterWait | .entering | .settling _ => false

/-- A request of `Dispatcher.forward` with its effective slot. -/
structure Request where
  task : TaskId
  slot : SlotName
  streams : Bool
  phase : Phase
deriving DecidableEq, Repr

/--
`SlotManager` as far as in-flight accounting goes.  A counter is zero where
the dict has no entry.
-/
structure Manager where
  registry : Registry
  servingCount : Int → Nat
  dispatchTickets : Int → Nat
  servingLock : Option TaskId
  requests : List Request

namespace Manager

/-- No requests. -/
def boot (identity : IdentityStore) : Manager :=
  ⟨.boot identity, fun _ => 0, fun _ => 0, none, []⟩

/-- `in_flight_count`. -/
def inFlightCount (manager : Manager) (name : SlotName) : Nat :=
  let key := (manager.registry.key name).2
  manager.servingCount key + manager.dispatchTickets key

/-- `enter_dispatch`. -/
def enterDispatch (manager : Manager) (name : SlotName) : Manager :=
  let (registry, key) := manager.registry.key name
  { manager with
    registry := registry
    dispatchTickets := update manager.dispatchTickets key
      (manager.dispatchTickets key + 1) }

/-- `exit_dispatch`. -/
def exitDispatch (manager : Manager) (name : SlotName) : Manager :=
  let (registry, key) := manager.registry.key name
  { manager with
    registry := registry
    dispatchTickets := update manager.dispatchTickets key
      (manager.dispatchTickets key - 1) }

/-- The count in `_serving_enter`, with the count before it. -/
def countUp (manager : Manager) (name : SlotName) : Manager × Nat :=
  let (registry, key) := manager.registry.key name
  ({ manager with
      registry := registry
      servingCount := update manager.servingCount key
        (manager.servingCount key + 1) },
    manager.servingCount key)

/-- The count in `_serving_exit`, with what remains. -/
def countDown (manager : Manager) (name : SlotName) : Manager × Nat :=
  let (registry, key) := manager.registry.key name
  ({ manager with
      registry := registry
      servingCount := update manager.servingCount key
        (manager.servingCount key - 1) },
    manager.servingCount key - 1)

/-- A request goes to another phase. -/
def move (manager : Manager) (request : Request) (phase : Phase) :
    Manager :=
  { manager with
    requests := { request with phase := phase } ::
      manager.requests.erase request }

/-- A request ends; `forward` drops its ticket if it still holds one. -/
def finish (manager : Manager) (request : Request) : Manager :=
  let ended :=
    { manager with requests := manager.requests.erase request }
  if request.phase.isTicketed then ended.exitDispatch request.slot
  else ended

/-- `_serving_enter` with the lock: the first entry flips the slot's state. -/
def servingEnter (manager : Manager) (request : Request)
    (current : SlotState) : Manager :=
  let (counted, previous) := manager.countUp request.slot
  if previous = 0 ∧ current.isResident then
    { counted.move request .entering with servingLock := some request.task }
  else counted.move request .upstream

/-- `_serving_exit` with the lock: the last exit flips the slot's state. -/
def servingExit (manager : Manager) (request : Request)
    (inForward : Bool) (current : SlotState) : Manager :=
  let (counted, remaining) := manager.countDown request.slot
  let settling := counted.move request (.settling inForward)
  if remaining = 0 ∧ current = .serving then
    { settling with servingLock := some request.task }
  else settling.finish { request with phase := .settling inForward }

/-- `_ensure_identity`, with the dicts it moves. -/
def identify (manager : Manager) (name : SlotName) : Manager :=
  { manager with
    registry := (manager.registry.identify name).1
    servingCount :=
      manager.registry.identifiedCounts name manager.servingCount
    dispatchTickets :=
      manager.registry.identifiedCounts name manager.dispatchTickets }

/-- The label move of `rename`, with the dicts it moves. -/
def relabel (manager : Manager) (old new : SlotName) : Option Manager :=
  (manager.registry.relabel old new).map fun registry =>
    { manager with
      registry := registry
      servingCount :=
        manager.registry.relabelledCounts old new manager.servingCount
      dispatchTickets :=
        manager.registry.relabelledCounts old new manager.dispatchTickets }

end Manager

/-! ## Interleavings -/

/-- A step of a request, or a rename. -/
inductive Action where
  | dispatch (task : TaskId) (slot : SlotName) (streams : Bool)
  | abort (request : Request)
  | serve (request : Request)
  | enter (request : Request) (current : SlotState)
  | entered (request : Request)
  | enterFailed (request : Request)
  | respond (request : Request)
  | release (request : Request)
  | exit (request : Request) (current : SlotState)
  | exitCancelled (request : Request)
  | exited (request : Request)
  | advance (request : Request)
  | dropResponse (request : Request)
  | touch (name : SlotName)
  | identify (name : SlotName)
  | rename (old new : SlotName)
deriving DecidableEq, Repr

namespace Manager

/-- The moves of a request in progress. -/
def stepRequest (manager : Manager) : Action → Option Manager
  | .abort request =>
    match request.phase with
    | .ticketed | .enterWait => some (manager.finish request)
    | _ => none
  | .serve request =>
    match request.phase with
    | .ticketed => some (manager.move request .enterWait)
    | _ => none
  | .enter request current =>
    match request.phase with
    | .enterWait =>
      if manager.servingLock = none then
        some (manager.servingEnter request current)
      else none
    | _ => none
  | .entered request =>
    match request.phase with
    | .entering =>
      some { manager.move request .upstream with servingLock := none }
    | _ => none
  | .enterFailed request =>
    match request.phase with
    | .entering =>
      some { manager.finish request with servingLock := none }
    | _ => none
  | .respond request =>
    match request.phase with
    | .upstream =>
      if request.streams then
        some ((manager.move request .returned).exitDispatch request.slot)
      else none
    | _ => none
  | .release request =>
    match request.phase with
    | .upstream => some (manager.move request (.releasing true))
    | .streaming => some (manager.move request (.releasing false))
    | _ => none
  | .exit request current =>
    match request.phase with
    | .releasing inForward =>
      if manager.servingLock = none then
        some (manager.servingExit request inForward current)
      else none
    | _ => none
  | .exitCancelled request =>
    match request.phase with
    | .releasing _ => some (manager.finish request)
    | _ => none
  | .exited request =>
    match request.phase with
    | .settling _ =>
      some { manager.finish request with servingLock := none }
    | _ => none
  | .advance request =>
    match request.phase with
    | .returned => some (manager.move request .streaming)
    | _ => none
  | .dropResponse request =>
    match request.phase with
    | .returned => some (manager.finish request)
    | _ => none
  | _ => none

end Manager

/-- The request an action moves. -/
def Action.request? : Action → Option Request
  | .abort request | .serve request | .enter request _ | .entered request
  | .enterFailed request | .respond request | .release request
  | .exit request _ | .exitCancelled request | .exited request
  | .advance request | .dropResponse request => some request
  | .dispatch .. | .touch _ | .identify _ | .rename .. => none

/-- The interleavings of requests, identity folds and renames. -/
def Manager.step : StepFunction Manager Action
  | manager, .dispatch task slot streams =>
    if task ∈ manager.requests.map Request.task then none
    else
      some { manager.enterDispatch slot with
        requests := ⟨task, slot, streams, .ticketed⟩ :: manager.requests }
  | manager, .touch name =>
    some { manager with registry := (manager.registry.key name).1 }
  | manager, .identify name => some (manager.identify name)
  | manager, .rename old new =>
    if old = new then none else (manager.identify old).relabel old new
  | manager, action =>
    match action.request? with
    | none => none
    | some request =>
      if request ∈ manager.requests then manager.stepRequest action
      else none

namespace Manager

/-- What one step can do, with the guard it passed. -/
inductive Moves (manager : Manager) : Action → Manager → Prop where
  | dispatch {task : TaskId} {slot : SlotName} {streams : Bool}
      (fresh : task ∉ manager.requests.map Request.task) :
      Moves manager (.dispatch task slot streams)
        { manager.enterDispatch slot with
          requests := ⟨task, slot, streams, .ticketed⟩ :: manager.requests }
  | abort {request : Request} (present : request ∈ manager.requests)
      (waiting : request.phase = .ticketed ∨ request.phase = .enterWait) :
      Moves manager (.abort request) (manager.finish request)
  | serve {request : Request} (present : request ∈ manager.requests)
      (waiting : request.phase = .ticketed) :
      Moves manager (.serve request) (manager.move request .enterWait)
  | enter {request : Request} {current : SlotState}
      (present : request ∈ manager.requests)
      (waiting : request.phase = .enterWait)
      (free : manager.servingLock = none) :
      Moves manager (.enter request current)
        (manager.servingEnter request current)
  | entered {request : Request} (present : request ∈ manager.requests)
      (entering : request.phase = .entering) :
      Moves manager (.entered request)
        { manager.move request .upstream with servingLock := none }
  | enterFailed {request : Request} (present : request ∈ manager.requests)
      (entering : request.phase = .entering) :
      Moves manager (.enterFailed request)
        { manager.finish request with servingLock := none }
  | respond {request : Request} (present : request ∈ manager.requests)
      (answered : request.phase = .upstream)
      (streams : request.streams = true) :
      Moves manager (.respond request)
        ((manager.move request .returned).exitDispatch request.slot)
  | releaseForward {request : Request}
      (present : request ∈ manager.requests)
      (answered : request.phase = .upstream) :
      Moves manager (.release request)
        (manager.move request (.releasing true))
  | releaseBody {request : Request} (present : request ∈ manager.requests)
      (streaming : request.phase = .streaming) :
      Moves manager (.release request)
        (manager.move request (.releasing false))
  | exit {request : Request} {inForward : Bool} {current : SlotState}
      (present : request ∈ manager.requests)
      (releasing : request.phase = .releasing inForward)
      (free : manager.servingLock = none) :
      Moves manager (.exit request current)
        (manager.servingExit request inForward current)
  | exitCancelled {request : Request} {inForward : Bool}
      (present : request ∈ manager.requests)
      (releasing : request.phase = .releasing inForward) :
      Moves manager (.exitCancelled request) (manager.finish request)
  | exited {request : Request} {inForward : Bool}
      (present : request ∈ manager.requests)
      (settling : request.phase = .settling inForward) :
      Moves manager (.exited request)
        { manager.finish request with servingLock := none }
  | advance {request : Request} (present : request ∈ manager.requests)
      (returned : request.phase = .returned) :
      Moves manager (.advance request) (manager.move request .streaming)
  | dropResponse {request : Request} (present : request ∈ manager.requests)
      (returned : request.phase = .returned) :
      Moves manager (.dropResponse request) (manager.finish request)
  | touch {name : SlotName} :
      Moves manager (.touch name)
        { manager with registry := (manager.registry.key name).1 }
  | identify {name : SlotName} :
      Moves manager (.identify name) (manager.identify name)
  | rename {old new : SlotName} {next : Manager} (distinct : old ≠ new)
      (moved : (manager.identify old).relabel old new = some next) :
      Moves manager (.rename old new) next

theorem moves_of_stepRequest {manager next : Manager} {action : Action}
    {request : Request} (ours : action.request? = some request)
    (present : request ∈ manager.requests)
    (moved : manager.stepRequest action = some next) :
    manager.Moves action next := by
  cases action with
  | abort _ =>
    obtain rfl := some.inj ours
    simp only [stepRequest] at moved
    split at moved
    · rename_i waiting
      exact some.inj moved ▸ .abort present (.inl waiting)
    · rename_i waiting
      exact some.inj moved ▸ .abort present (.inr waiting)
    · cases moved
  | serve _ =>
    obtain rfl := some.inj ours
    simp only [stepRequest] at moved
    split at moved
    · rename_i waiting
      exact some.inj moved ▸ .serve present waiting
    · cases moved
  | enter _ current =>
    obtain rfl := some.inj ours
    simp only [stepRequest] at moved
    split at moved
    · rename_i waiting
      simp only [ite_none_right_eq_some] at moved
      exact some.inj moved.2 ▸ .enter present waiting moved.1
    · cases moved
  | entered _ =>
    obtain rfl := some.inj ours
    simp only [stepRequest] at moved
    split at moved
    · rename_i entering
      exact some.inj moved ▸ .entered present entering
    · cases moved
  | enterFailed _ =>
    obtain rfl := some.inj ours
    simp only [stepRequest] at moved
    split at moved
    · rename_i entering
      exact some.inj moved ▸ .enterFailed present entering
    · cases moved
  | respond _ =>
    obtain rfl := some.inj ours
    simp only [stepRequest] at moved
    split at moved
    · rename_i answered
      simp only [ite_none_right_eq_some] at moved
      exact some.inj moved.2 ▸ .respond present answered moved.1
    · cases moved
  | release _ =>
    obtain rfl := some.inj ours
    simp only [stepRequest] at moved
    split at moved
    · rename_i answered
      exact some.inj moved ▸ .releaseForward present answered
    · rename_i streaming
      exact some.inj moved ▸ .releaseBody present streaming
    · cases moved
  | exit _ current =>
    obtain rfl := some.inj ours
    simp only [stepRequest] at moved
    split at moved
    · rename_i releasing
      simp only [ite_none_right_eq_some] at moved
      exact some.inj moved.2 ▸ .exit present releasing moved.1
    · cases moved
  | exitCancelled _ =>
    obtain rfl := some.inj ours
    simp only [stepRequest] at moved
    split at moved
    · rename_i releasing
      exact some.inj moved ▸ .exitCancelled present releasing
    · cases moved
  | exited _ =>
    obtain rfl := some.inj ours
    simp only [stepRequest] at moved
    split at moved
    · rename_i settling
      exact some.inj moved ▸ .exited present settling
    · cases moved
  | advance _ =>
    obtain rfl := some.inj ours
    simp only [stepRequest] at moved
    split at moved
    · rename_i returned
      exact some.inj moved ▸ .advance present returned
    · cases moved
  | dropResponse _ =>
    obtain rfl := some.inj ours
    simp only [stepRequest] at moved
    split at moved
    · rename_i returned
      exact some.inj moved ▸ .dropResponse present returned
    · cases moved
  | dispatch _ _ _ => cases ours
  | touch _ => cases ours
  | identify _ => cases ours
  | rename _ _ => cases ours

/-- What one step can do. -/
theorem moves_of_step {manager next : Manager} {action : Action}
    (moved : manager.step action = some next) :
    manager.Moves action next := by
  cases action
  case dispatch task slot streams =>
    simp only [step, ite_none_left_eq_some] at moved
    exact some.inj moved.2 ▸ .dispatch moved.1
  case touch name => exact some.inj moved ▸ .touch
  case identify name => exact some.inj moved ▸ .identify
  case rename old new =>
    simp only [step, ite_none_left_eq_some] at moved
    exact .rename moved.1 moved.2
  all_goals
    simp only [step, Action.request?, ite_none_right_eq_some] at moved
    exact moves_of_stepRequest rfl moved.1 moved.2

end Manager

/-! ## Requests by slot and phase -/

/-- The requests of a slot in the phases selected by `test`. -/
def tally (test : Phase → Bool) (requests : List Request)
    (name : SlotName) : Nat :=
  requests.countP fun request => request.slot = name && test request.phase

section Tally

variable {test : Phase → Bool} {requests : List Request} {request : Request}
  {phase : Phase}

theorem tally_move (test : Phase → Bool) (phase : Phase)
    (present : request ∈ requests) (name : SlotName) :
    tally test ({ request with phase := phase } :: requests.erase request)
          name + (if request.slot = name ∧ test request.phase then 1 else 0) =
      tally test requests name +
        (if request.slot = name ∧ test phase then 1 else 0) := by
  have replaced := countP_replace
    (fun request : Request => request.slot = name && test request.phase)
    present { request with phase := phase }
  simpa [tally] using replaced

theorem tally_remove (test : Phase → Bool) (present : request ∈ requests)
    (name : SlotName) :
    tally test (requests.erase request) name +
        (if request.slot = name ∧ test request.phase then 1 else 0) =
      tally test requests name := by
  have removed := countP_remove
    (fun request : Request => request.slot = name && test request.phase)
    present
  simpa [tally] using removed

section

variable (present : request ∈ requests)
include present

theorem tally_move_same (same : test phase = test request.phase)
    (name : SlotName) :
    tally test ({ request with phase := phase } :: requests.erase request)
        name = tally test requests name := by
  have moved := tally_move test phase present name
  rw [same] at moved
  omega

theorem tally_move_up (before : test request.phase = false)
    (after : test phase = true) (name : SlotName) :
    tally test ({ request with phase := phase } :: requests.erase request)
        name =
      update (tally test requests) request.slot
        (tally test requests request.slot + 1) name := by
  have moved := tally_move test phase present name
  by_cases same : name = request.slot
  · subst same
    simpa [before, after] using moved
  · have apart : ¬ request.slot = name := fun equal => same equal.symm
    simpa [update_of_ne same, apart] using moved

theorem tally_move_down (before : test request.phase = true)
    (after : test phase = false) (name : SlotName) :
    tally test ({ request with phase := phase } :: requests.erase request)
        name =
      update (tally test requests) request.slot
        (tally test requests request.slot - 1) name := by
  have moved := tally_move test phase present name
  by_cases same : name = request.slot
  · subst same
    rw [update_self]
    simp only [before, after, and_true, if_true] at moved
    simp at moved
    omega
  · have apart : ¬ request.slot = name := fun equal => same equal.symm
    simpa [update_of_ne same, apart] using moved

theorem tally_remove_same (out : test request.phase = false)
    (name : SlotName) :
    tally test (requests.erase request) name = tally test requests name := by
  have removed := tally_remove test present name
  simpa [out] using removed

theorem tally_remove_down (before : test request.phase = true)
    (name : SlotName) :
    tally test (requests.erase request) name =
      update (tally test requests) request.slot
        (tally test requests request.slot - 1) name := by
  have removed := tally_remove test present name
  by_cases same : name = request.slot
  · subst same
    rw [update_self]
    simp only [before, and_true, if_true] at removed
    omega
  · have apart : ¬ request.slot = name := fun equal => same equal.symm
    simpa [update_of_ne same, apart] using removed

theorem tally_pos (inside : test request.phase = true) :
    0 < tally test requests request.slot := by
  apply List.countP_pos_iff.mpr
  exact ⟨request, present, by simp [inside]⟩

end

end Tally

/-! ## The books of the two counters -/

/--
Each counter shows, under each name, the requests which are counted there;
`leaked` is what `_serving_count` still counts for requests that have ended.
-/
structure Accounted (manager : Manager) (leaked : SlotName → Nat) : Prop where
  kept : manager.registry.Kept
  tickets : Books manager.registry.peekKey manager.dispatchTickets
    (tally Phase.isTicketed manager.requests)
  serving : Books manager.registry.peekKey manager.servingCount
    (fun name => tally Phase.isCounted manager.requests name + leaked name)

namespace Accounted

variable {manager next : Manager} {leaked : SlotName → Nat}
  {request : Request} {phase : Phase}

theorem boot (identity : IdentityStore) :
    Accounted (.boot identity) fun _ => 0 := by
  refine ⟨Registry.Kept.boot identity, ?_, ?_⟩ <;>
    exact ⟨fun _ _ _ => rfl, fun _ _ => rfl, fun _ _ => rfl⟩

theorem touch (accounted : Accounted manager leaked) (name : SlotName) :
    Accounted
      { manager with registry := (manager.registry.key name).1 } leaked :=
  ⟨accounted.kept.key, accounted.kept.books_key accounted.tickets,
    accounted.kept.books_key accounted.serving⟩

theorem identify (accounted : Accounted manager leaked) (name : SlotName) :
    Accounted (manager.identify name) leaked :=
  ⟨accounted.kept.identify, accounted.kept.books_identify accounted.tickets,
    accounted.kept.books_identify accounted.serving⟩

theorem dispatch (accounted : Accounted manager leaked) (task : TaskId)
    (slot : SlotName) (streams : Bool) :
    Accounted
      { manager.enterDispatch slot with
        requests := ⟨task, slot, streams, .ticketed⟩ :: manager.requests }
      leaked := by
  have stored := accounted.kept.counts_key slot accounted.tickets
  have raised := accounted.kept.books_set slot accounted.tickets
    (manager.dispatchTickets (manager.registry.key slot).2 + 1)
  refine ⟨accounted.kept.key, raised.congr fun name => ?_, ?_⟩
  · rw [stored]
    by_cases same : name = slot
    · subst same
      simp [tally, Phase.isTicketed]
    · have apart : ¬ slot = name := fun equal => same equal.symm
      simp [tally, update_of_ne same, apart]
  · refine (accounted.kept.books_key accounted.serving).congr fun name => ?_
    simp [tally, Phase.isCounted]

variable {others : SlotName → Nat}

section

variable (accounted : Accounted manager leaked)
include accounted

theorem reassign {requests : List Request}
    (tickets : ∀ name, tally Phase.isTicketed requests name =
      tally Phase.isTicketed manager.requests name)
    (counts : ∀ name, tally Phase.isCounted requests name + others name =
      tally Phase.isCounted manager.requests name + leaked name) :
    Accounted { manager with requests := requests } others :=
  ⟨accounted.kept, accounted.tickets.congr tickets,
    accounted.serving.congr counts⟩

theorem exitDispatch {requests : List Request} {slot : SlotName}
    (down : ∀ name, tally Phase.isTicketed requests name =
      update (tally Phase.isTicketed manager.requests) slot
        (tally Phase.isTicketed manager.requests slot - 1) name)
    (counts : ∀ name, tally Phase.isCounted requests name + others name =
      tally Phase.isCounted manager.requests name + leaked name) :
    Accounted
      (Manager.exitDispatch { manager with requests := requests } slot)
      others := by
  have stored := accounted.kept.counts_key slot accounted.tickets
  have lowered := accounted.kept.books_set slot accounted.tickets
    (manager.dispatchTickets (manager.registry.key slot).2 - 1)
  refine ⟨accounted.kept.key, lowered.congr fun name => ?_, ?_⟩
  · rw [stored]
    exact down name
  · exact (accounted.kept.books_key accounted.serving).congr counts

section

variable (present : request ∈ manager.requests)
include present

theorem move (sameTicket : phase.isTicketed = request.phase.isTicketed)
    (sameCount : phase.isCounted = request.phase.isCounted) :
    Accounted (manager.move request phase) leaked :=
  accounted.reassign (tally_move_same present sameTicket) fun name =>
    congrArg (· + leaked name) (tally_move_same present sameCount name)

theorem finish
    (counts : ∀ name,
      tally Phase.isCounted (manager.requests.erase request) name +
          others name =
        tally Phase.isCounted manager.requests name + leaked name) :
    Accounted (manager.finish request) others := by
  simp only [Manager.finish]
  split
  · rename_i ticketed
    exact accounted.exitDispatch (tally_remove_down present ticketed) counts
  · rename_i unticketed
    exact accounted.reassign
      (tally_remove_same present (by simpa using unticketed)) counts

theorem finish_clean (uncounted : request.phase.isCounted = false) :
    Accounted (manager.finish request) leaked :=
  accounted.finish present fun name =>
    congrArg (· + leaked name) (tally_remove_same present uncounted name)

theorem finish_leaking (counted : request.phase.isCounted = true) :
    Accounted (manager.finish request)
      (update leaked request.slot
        (leaked request.slot + 1)) := by
  apply accounted.finish present
  intro name
  have positive := tally_pos present counted
  rw [tally_remove_down present counted]
  by_cases same : name = request.slot
  · subst same
    rw [update_self, update_self]
    omega
  · rw [update_of_ne same, update_of_ne same]

/-- `serving()` is entered: the request is counted. -/
theorem countUp (sameTicket : phase.isTicketed = request.phase.isTicketed)
    (before : request.phase.isCounted = false)
    (after : phase.isCounted = true) :
    Accounted ((manager.countUp request.slot).1.move request phase)
      leaked := by
  have stored := accounted.kept.counts_key request.slot accounted.serving
  have raised := accounted.kept.books_set request.slot accounted.serving
    (manager.servingCount (manager.registry.key request.slot).2 + 1)
  refine ⟨accounted.kept.key, ?_, raised.congr fun name => ?_⟩
  · exact (accounted.kept.books_key accounted.tickets).congr
      (tally_move_same present sameTicket)
  · have up := tally_move_up present before after name
    rw [stored]
    refine (congrArg (· + leaked name) up).trans ?_
    by_cases same : name = request.slot
    · subst same
      simp only [update_self]
      omega
    · simp only [update_of_ne same]

/-- `serving()` is left: the request is no longer counted. -/
theorem countDown (sameTicket : phase.isTicketed = request.phase.isTicketed)
    (before : request.phase.isCounted = true)
    (after : phase.isCounted = false) :
    Accounted ((manager.countDown request.slot).1.move request phase)
      leaked := by
  have stored := accounted.kept.counts_key request.slot accounted.serving
  have lowered := accounted.kept.books_set request.slot accounted.serving
    (manager.servingCount (manager.registry.key request.slot).2 - 1)
  refine ⟨accounted.kept.key, ?_, lowered.congr fun name => ?_⟩
  · exact (accounted.kept.books_key accounted.tickets).congr
      (tally_move_same present sameTicket)
  · have down := tally_move_down present before after name
    have counted := tally_pos present before
    rw [stored]
    refine (congrArg (· + leaked name) down).trans ?_
    by_cases same : name = request.slot
    · subst same
      simp only [update_self]
      omega
    · simp only [update_of_ne same]

theorem servingEnter (waiting : request.phase = .enterWait)
    (current : SlotState) :
    Accounted (manager.servingEnter request current) leaked := by
  have ticket : request.phase.isTicketed = true := by
    rw [waiting]
    rfl
  have uncounted : request.phase.isCounted = false := by
    rw [waiting]
    rfl
  simp only [Manager.servingEnter]
  split
  · have entered : Accounted
        ((manager.countUp request.slot).1.move request .entering) leaked :=
      accounted.countUp present ticket.symm uncounted rfl
    exact ⟨entered.kept, entered.tickets, entered.serving⟩
  · exact accounted.countUp present ticket.symm uncounted rfl

theorem servingExit {inForward : Bool}
    (waiting : request.phase = .releasing inForward) (current : SlotState) :
    Accounted (manager.servingExit request inForward current) leaked := by
  have ticket : (Phase.settling inForward).isTicketed =
      request.phase.isTicketed := by
    rw [waiting]
    rfl
  have counted : request.phase.isCounted = true := by
    rw [waiting]
    rfl
  have settling := accounted.countDown present ticket counted rfl
  simp only [Manager.servingExit]
  split
  · exact ⟨settling.kept, settling.tickets, settling.serving⟩
  · exact settling.finish_clean List.mem_cons_self rfl

/-- `forward` returns a streaming response: its ticket is dropped. -/
theorem respond (answered : request.phase = .upstream) :
    Accounted
      ((manager.move request .returned).exitDispatch request.slot)
      leaked := by
  have ticket : request.phase.isTicketed = true := by
    rw [answered]
    rfl
  have counted : Phase.returned.isCounted = request.phase.isCounted := by
    rw [answered]
    rfl
  exact accounted.exitDispatch (tally_move_down present ticket rfl)
    fun name => congrArg (· + leaked name)
      (tally_move_same present counted name)

end

end

end Accounted

/-! ## Steps which keep the books -/

/-- The step loses a count. -/
def Action.leaks : Action → Bool
  | .enterFailed _ | .exitCancelled _ | .dropResponse _ => true
  | _ => false

def Action.renames : Action → Bool
  | .rename .. => true
  | _ => false

namespace Accounted

variable {manager next : Manager} {leaked : SlotName → Nat}
  {action : Action}

/-- What is leaked changes only by a leaking step, and only for its slot. -/
def LeaksAt (manager : Manager) (action : Action)
    (leaked others : SlotName → Nat) : Prop :=
  others = leaked ∨
    action.leaks = true ∧
      ∃ request ∈ manager.requests, request.phase.isCounted = true ∧
        ∀ name, name ≠ request.slot → others name = leaked name

theorem step (accounted : Accounted manager leaked)
    (stays : action.renames = false)
    (moved : manager.step action = some next) :
    ∃ others, Accounted next others ∧
      LeaksAt manager action leaked others := by
  cases Manager.moves_of_step moved with
  | dispatch fresh =>
    exact ⟨leaked, accounted.dispatch _ _ _, .inl rfl⟩
  | abort present waiting =>
    refine ⟨leaked, accounted.finish_clean present ?_, .inl rfl⟩
    rcases waiting with waiting | waiting <;> rw [waiting] <;> rfl
  | serve present waiting =>
    exact ⟨leaked, accounted.move present (by rw [waiting]; rfl)
      (by rw [waiting]; rfl), .inl rfl⟩
  | enter present waiting free =>
    exact ⟨leaked, accounted.servingEnter present waiting _,
      .inl rfl⟩
  | @entered request present entering =>
    have kept : Accounted (manager.move request .upstream) leaked :=
      accounted.move present (by rw [entering]; rfl)
        (by rw [entering]; rfl)
    exact ⟨leaked, ⟨kept.kept, kept.tickets, kept.serving⟩, .inl rfl⟩
  | @enterFailed request present entering =>
    have counted : request.phase.isCounted = true := by
      rw [entering]
      rfl
    have lost := accounted.finish_leaking present counted
    exact ⟨_, ⟨lost.kept, lost.tickets, lost.serving⟩,
      .inr ⟨rfl, _, present, counted,
        fun _ apart => update_of_ne apart _ _⟩⟩
  | respond present answered streams =>
    exact ⟨leaked, accounted.respond present answered, .inl rfl⟩
  | releaseForward present answered =>
    exact ⟨leaked, accounted.move present (by rw [answered]; rfl)
      (by rw [answered]; rfl), .inl rfl⟩
  | releaseBody present streaming =>
    exact ⟨leaked, accounted.move present (by rw [streaming]; rfl)
      (by rw [streaming]; rfl), .inl rfl⟩
  | exit present releasing free =>
    exact ⟨leaked, accounted.servingExit present releasing _,
      .inl rfl⟩
  | @exitCancelled request _ present releasing =>
    have counted : request.phase.isCounted = true := by
      rw [releasing]
      rfl
    exact ⟨_, accounted.finish_leaking present counted,
      .inr ⟨rfl, _, present, counted,
        fun _ apart => update_of_ne apart _ _⟩⟩
  | exited present settling =>
    have kept := accounted.finish_clean present (by rw [settling]; rfl)
    exact ⟨leaked, ⟨kept.kept, kept.tickets, kept.serving⟩, .inl rfl⟩
  | advance present returned =>
    exact ⟨leaked, accounted.move present (by rw [returned]; rfl)
      (by rw [returned]; rfl), .inl rfl⟩
  | @dropResponse request present returned =>
    have counted : request.phase.isCounted = true := by
      rw [returned]
      rfl
    exact ⟨_, accounted.finish_leaking present counted,
      .inr ⟨rfl, _, present, counted,
        fun _ apart => update_of_ne apart _ _⟩⟩
  | touch => exact ⟨leaked, accounted.touch _, .inl rfl⟩
  | identify => exact ⟨leaked, accounted.identify _, .inl rfl⟩
  | rename distinct moved => cases stays

theorem tally_eq_zero {test : Phase → Bool} {requests : List Request}
    {name : SlotName}
    (absent : ∀ request ∈ requests, request.slot ≠ name) :
    tally test requests name = 0 := by
  apply List.countP_eq_zero.mpr
  intro request present
  simp [absent request present]

theorem rename {old new : SlotName}
    (accounted : Accounted manager fun _ => 0) (distinct : old ≠ new)
    (absent : ∀ request ∈ manager.requests, request.slot ≠ old)
    (moved : (manager.identify old).relabel old new = some next) :
    Accounted next fun _ => 0 := by
  have identified := accounted.identify old
  obtain ⟨registry, relabelled, rfl⟩ := map_eq_some_iff.mp moved
  obtain ⟨-, -, -, -, kept⟩ := identified.kept.relabel distinct relabelled
  refine ⟨kept, ?_, ?_⟩
  · exact identified.kept.books_relabel distinct relabelled
      identified.tickets (tally_eq_zero absent)
  · refine identified.kept.books_relabel distinct relabelled
      identified.serving ?_
    exact tally_eq_zero absent

end Accounted

/-! ## Balanced accounting -/

/--
The action loses a count: it ends a request which is still counted (the state
write of `_serving_enter` fails or is cancelled, `_serving_exit` is cancelled
while it waits for the lock, or a streaming response is dropped before its
body is first advanced), or it renames a slot under its requests.
-/
def Manager.losesCount (manager : Manager) : Action → Bool
  | .rename old _ =>
    manager.requests.any fun request => request.slot = old
  | action => action.leaks

/-- The step loses no count. -/
def KeepsCount (manager : Manager) (action : Action) : Prop :=
  manager.losesCount action = false

instance (manager : Manager) (action : Action) :
    Decidable (KeepsCount manager action) :=
  inferInstanceAs (Decidable (_ = false))

/-- Without a leak nothing is lost. -/
theorem Accounted.keeps {manager next : Manager} {action : Action}
    (accounted : Accounted manager fun _ => 0)
    (permitted : KeepsCount manager action)
    (moved : manager.step action = some next) :
    Accounted next fun _ => 0 := by
  by_cases renames : action.renames = true
  · cases Manager.moves_of_step moved with
    | rename distinct relabelled =>
      apply accounted.rename distinct _ relabelled
      simpa [KeepsCount, Manager.losesCount] using permitted
    | _ => cases renames
  · have stays : action.renames = false := by simpa using renames
    have harmless : action.leaks = false := by
      cases action with
      | rename old new => cases stays
      | _ => exact permitted
    obtain ⟨others, kept, rfl | ⟨leaks, -⟩⟩ := accounted.step stays moved
    · exact kept
    · rw [harmless] at leaks
      cases leaks

/--
What the two counters owe: a slot without requests has none in flight, a
manager without requests stores no entry at all, and `_serving_count` is never
below the number of requests inside `serving()`.
-/
structure Balanced (manager : Manager) : Prop where
  cleared : ∀ name,
    (∀ request ∈ manager.requests, request.slot ≠ name) →
      manager.inFlightCount name = 0
  emptied : manager.requests = [] → ∀ key,
    manager.servingCount key = 0 ∧ manager.dispatchTickets key = 0
  notBelow : ∀ name, tally Phase.isServing manager.requests name ≤
    manager.servingCount (manager.registry.key name).2

theorem tally_serving_le (requests : List Request) (name : SlotName) :
    tally Phase.isServing requests name ≤
      tally Phase.isCounted requests name := by
  apply List.countP_mono_left
  intro request _ serving
  cases phase : request.phase <;>
    simp_all [Phase.isServing, Phase.isCounted]

/--
In every run whose steps all keep their count, the in-flight accounting is
balanced in each state.
-/
theorem balanced_of_kept_counts (identity : IdentityStore)
    (actions : List Action) (manager : Manager)
    (run : Run Manager.step KeepsCount (.boot identity) actions manager) :
    Balanced manager := by
  have accounted : Accounted manager fun _ => 0 :=
    run.invariant (fun state => Accounted state fun _ => 0)
      (.boot identity)
      fun _ _ _ accounted permitted moved => accounted.keeps permitted moved
  have serves : ∀ name,
      manager.servingCount (manager.registry.key name).2 =
        tally Phase.isCounted manager.requests name + 0 := fun name =>
    accounted.kept.counts_key name accounted.serving
  have tickets : ∀ name,
      manager.dispatchTickets (manager.registry.key name).2 =
        tally Phase.isTicketed manager.requests name := fun name =>
    accounted.kept.counts_key name accounted.tickets
  constructor
  · intro name absent
    simp only [Manager.inFlightCount]
    rw [serves, tickets, Accounted.tally_eq_zero absent,
      Accounted.tally_eq_zero absent]
  · intro idle key
    constructor
    · apply accounted.serving.counts_eq_zero
      intro name
      rw [idle]
      rfl
    · apply accounted.tickets.counts_eq_zero
      intro name
      rw [idle]
      rfl
  · intro name
    rw [serves]
    exact tally_serving_le manager.requests name

/-- A streaming request to `chat`, in a given phase. -/
def chatStream (phase : Phase) : Request := ⟨1, "chat", true, phase⟩

/-- The request is served and drained, and the slot is renamed after it. -/
def drainedThenRenamed : List Action :=
  [.dispatch 1 "chat" true, .serve (chatStream .ticketed),
    .enter (chatStream .enterWait) .ready, .entered (chatStream .entering),
    .respond (chatStream .upstream), .advance (chatStream .returned),
    .release (chatStream .streaming),
    .exit (chatStream (.releasing false)) .serving,
    .exited (chatStream (.settling false)), .rename "chat" "talk"]

/-- A stream ends, and its slot is renamed. -/
theorem balanced_drained_then_renamed :
    ∃ manager,
      Run Manager.step KeepsCount (.boot .empty) drainedThenRenamed
          manager ∧
        manager.requests = [] ∧ Balanced manager := by
  obtain ⟨manager, run, ended⟩ := Run.exists_of_exec
    Manager.step KeepsCount (.boot .empty) drainedThenRenamed
    (fun manager => manager.requests = []) (by decide +kernel)
  exact ⟨manager, run, of_decide_eq_true ended,
    balanced_of_kept_counts _ _ _ run⟩

/--
The state write of `_serving_enter` raises after the count went up: the
request ends, and the slot keeps one request in flight.
-/
theorem failed_state_write_leaks_count :
    ∃ manager,
      Run Manager.step Anything (.boot .empty)
          [.dispatch 1 "chat" true, .serve (chatStream .ticketed),
            .enter (chatStream .enterWait) .ready,
            .enterFailed (chatStream .entering)] manager ∧
        manager.requests = [] ∧ manager.inFlightCount "chat" = 1 ∧
        ¬ Balanced manager := by
  obtain ⟨manager, run, leaked⟩ := Run.exists_of_exec
    Manager.step Anything (.boot .empty)
    [.dispatch 1 "chat" true, .serve (chatStream .ticketed),
      .enter (chatStream .enterWait) .ready,
      .enterFailed (chatStream .entering)]
    (fun manager =>
      manager.requests = [] ∧ manager.inFlightCount "chat" = 1)
    (by decide +kernel)
  obtain ⟨ended, counted⟩ := of_decide_eq_true leaked
  refine ⟨manager, run, ended, counted, fun balanced => ?_⟩
  have cleared := balanced.cleared "chat" (by simp [ended])
  rw [counted] at cleared
  cases cleared

end Hal0.Slots.InFlight
