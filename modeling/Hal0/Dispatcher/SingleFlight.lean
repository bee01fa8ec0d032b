import Hal0.Core.Transition
import Mathlib.Logic.Function.Basic
import Mathlib.Data.List.Count

/-!
# Request coalescing

`SingleFlightGroup.do` shares one bare `asyncio.Future` between the leader of
a flight, who runs `fn`, and the followers, who await the future.

The asyncio facts the model uses are these.  Cancelling a task suspended on a
pending future cancels the future itself; every awaiter of a cancelled future
gets `CancelledError`.  Cancelling a task whose future is already settled
touches that task only.  Cancelling the leader raises inside `fn`, which may
answer with any outcome.
-/

namespace Hal0.Dispatcher.SingleFlight

open Function Option
open Hal0.Transition

abbrev TaskId := Nat
abbrev FlightId := Nat

/-- A raised exception: `CancelledError`, or any other. -/
inductive Raised (Error : Type) where
  | cancelledError
  | error (error : Error)
deriving DecidableEq, Repr

/-- How a coroutine ended. -/
inductive Outcome (Value Error : Type) where
  | returned (value : Value)
  | raised (exception : Raised Error)
deriving DecidableEq, Repr

/-- The states of an `asyncio.Future`. -/
inductive FutureState (Value Error : Type) where
  | pending
  | finished (outcome : Outcome Value Error)
  | cancelled
deriving DecidableEq, Repr

/-- What `await future` gives once the future is done. -/
def FutureState.result {Value Error : Type} :
    FutureState Value Error → Option (Outcome Value Error)
  | .pending => none
  | .finished outcome => some outcome
  | .cancelled => some (.raised .cancelledError)

/-- `if not future.done(): future.set_result(..)` or `set_exception(..)`. -/
def FutureState.settle {Value Error : Type}
    (future : FutureState Value Error) (outcome : Outcome Value Error) :
    FutureState Value Error :=
  match future with
  | .pending => .finished outcome
  | settled => settled

/-- `future.cancel()`. -/
def FutureState.cancel {Value Error : Type} :
    FutureState Value Error → FutureState Value Error
  | .pending => .cancelled
  | settled => settled

/--
One flight: its shared future, and the outcome of the leader's `fn` once it
has one.
-/
structure Flight (Key Value Error : Type) where
  key : Key
  future : FutureState Value Error
  answer : Option (Outcome Value Error)

/-- Where a call of `do` is. -/
inductive CallState (Value Error : Type) where
  | leading
  | following
  | ended (outcome : Outcome Value Error)
deriving DecidableEq, Repr

/-- A call of `do`, the flight it belongs to, and whether it was cancelled. -/
structure Call (Value Error : Type) where
  flight : FlightId
  state : CallState Value Error
  cancelled : Bool
deriving DecidableEq, Repr

/--
A `SingleFlightGroup` with its callers.  `inflight` is `_inflight`; `started`
lists the flights whose `fn` was started, in order.
-/
structure Group (Key Value Error : Type) where
  inflight : Key → Option FlightId
  flights : FlightId → Option (Flight Key Value Error)
  calls : TaskId → Option (Call Value Error)
  nextFlight : FlightId
  started : List FlightId

/-- A step of a caller, or the end of a flight. -/
inductive Action (Key Value Error : Type) where
  | call (task : TaskId) (key : Key)
  | answer (task : TaskId) (outcome : Outcome Value Error)
  | wake (task : TaskId)
  | cancel (task : TaskId)
deriving DecidableEq, Repr

namespace Group

variable {Key Value Error : Type}

/-- Nobody flies. -/
def empty : Group Key Value Error :=
  ⟨fun _ => none, fun _ => none, fun _ => none, 0, []⟩

/-- The call of `task` together with its flight. -/
def lookup (group : Group Key Value Error) (task : TaskId) :
    Option (Call Value Error × Flight Key Value Error) :=
  match group.calls task with
  | none => none
  | some call =>
    match group.flights call.flight with
    | none => none
    | some flight => some (call, flight)

variable {group : Group Key Value Error}

theorem lookup_eq_some {task : TaskId} {call : Call Value Error}
    {flight : Flight Key Value Error}
    (found : group.lookup task = some (call, flight)) :
    group.calls task = some call ∧
      group.flights call.flight = some flight := by
  simp only [lookup] at found
  split at found
  · simp at found
  · rename_i called
    split at found
    · simp at found
    · rename_i flies
      obtain ⟨rfl, rfl⟩ := Prod.mk.inj (some.inj found)
      exact ⟨called, flies⟩

theorem lookup_of_calls {task : TaskId} {call : Call Value Error}
    {flight : Flight Key Value Error} (called : group.calls task = some call)
    (flies : group.flights call.flight = some flight) :
    group.lookup task = some (call, flight) := by
  simp only [lookup, called, flies]

variable [DecidableEq Key]

/-- A task calls `do`: it follows the flight in place, or leads a new one. -/
def enter (group : Group Key Value Error) (task : TaskId) (key : Key) :
    Group Key Value Error :=
  match group.inflight key with
  | some flight =>
    { group with
      calls := update group.calls task
        (some ⟨flight, .following, false⟩) }
  | none =>
    { inflight :=
        update group.inflight key (some group.nextFlight)
      flights := update group.flights group.nextFlight
        (some ⟨key, .pending, none⟩)
      calls := update group.calls task
        (some ⟨group.nextFlight, .leading, false⟩)
      nextFlight := group.nextFlight + 1
      started := group.started ++ [group.nextFlight] }

/-- The leader's `fn` ends: settle the future, evict the key, and end. -/
def finish (group : Group Key Value Error) (task : TaskId)
    (call : Call Value Error) (flight : Flight Key Value Error)
    (outcome : Outcome Value Error) : Group Key Value Error :=
  { group with
    inflight := update group.inflight flight.key none
    flights := update group.flights call.flight
      (some { flight with
        future := flight.future.settle outcome
        answer := some outcome })
    calls := update group.calls task
      (some { call with state := .ended outcome }) }

/-- A follower resumes: its own cancellation wins over the future. -/
def resume (group : Group Key Value Error) (task : TaskId)
    (call : Call Value Error) (result : Outcome Value Error) :
    Group Key Value Error :=
  { group with
    calls := update group.calls task
      (some { call with
        state := .ended
          (if call.cancelled then .raised .cancelledError else result) }) }

/-- `task.cancel()` on a task suspended on the future. -/
def cancelFollower (group : Group Key Value Error) (task : TaskId)
    (call : Call Value Error) (flight : Flight Key Value Error) :
    Group Key Value Error :=
  { group with
    flights := update group.flights call.flight
      (some { flight with future := flight.future.cancel })
    calls := update group.calls task
      (some { call with cancelled := true }) }

/-- `task.cancel()` on the leader; `fn` has not answered yet. -/
def cancelLeader (group : Group Key Value Error) (task : TaskId)
    (call : Call Value Error) : Group Key Value Error :=
  { group with
    calls := update group.calls task
      (some { call with cancelled := true }) }

/-- The interleavings of callers, answers and cancellations. -/
def step : StepFunction (Group Key Value Error) (Action Key Value Error)
  | group, .call task key =>
    if (group.calls task).isSome then none
    else some (group.enter task key)
  | group, .answer task outcome =>
    match group.lookup task with
    | some (⟨name, .leading, cancelled⟩, flight) =>
      some (group.finish task ⟨name, .leading, cancelled⟩ flight outcome)
    | _ => none
  | group, .wake task =>
    match group.lookup task with
    | some (⟨name, .following, cancelled⟩, flight) =>
      flight.future.result.map fun result =>
        group.resume task ⟨name, .following, cancelled⟩ result
    | _ => none
  | group, .cancel task =>
    match group.lookup task with
    | some (⟨name, .following, cancelled⟩, flight) =>
      some (group.cancelFollower task
        ⟨name, .following, cancelled⟩ flight)
    | some (⟨name, .leading, cancelled⟩, _) =>
      some (group.cancelLeader task ⟨name, .leading, cancelled⟩)
    | _ => none

/-- What one step can do, with the guard it passed. -/
inductive Moves (group : Group Key Value Error) :
    Action Key Value Error → Group Key Value Error → Prop where
  | follow {task : TaskId} {key : Key} {name : FlightId}
      (unused : group.calls task = none)
      (present : group.inflight key = some name) :
      Moves group (.call task key) (group.enter task key)
  | lead {task : TaskId} {key : Key}
      (unused : group.calls task = none)
      (absent : group.inflight key = none) :
      Moves group (.call task key) (group.enter task key)
  | answer {task : TaskId} {outcome : Outcome Value Error}
      {call : Call Value Error} {flight : Flight Key Value Error}
      (called : group.calls task = some call)
      (flies : group.flights call.flight = some flight)
      (leads : call.state = .leading) :
      Moves group (.answer task outcome)
        (group.finish task call flight outcome)
  | wake {task : TaskId} {result : Outcome Value Error}
      {call : Call Value Error} {flight : Flight Key Value Error}
      (called : group.calls task = some call)
      (flies : group.flights call.flight = some flight)
      (follows : call.state = .following)
      (done : flight.future.result = some result) :
      Moves group (.wake task) (group.resume task call result)
  | cancelFollower {task : TaskId}
      {call : Call Value Error} {flight : Flight Key Value Error}
      (called : group.calls task = some call)
      (flies : group.flights call.flight = some flight)
      (follows : call.state = .following) :
      Moves group (.cancel task) (group.cancelFollower task call flight)
  | cancelLeader {task : TaskId} {call : Call Value Error}
      (called : group.calls task = some call)
      (leads : call.state = .leading) :
      Moves group (.cancel task) (group.cancelLeader task call)

/-- What one step can do. -/
theorem moves_of_step {next : Group Key Value Error}
    {action : Action Key Value Error} (moved : group.step action = some next) :
    group.Moves action next := by
  cases action with
  | call task key =>
    simp only [step, ite_none_left_eq_some] at moved
    obtain ⟨unused, same⟩ := moved
    obtain rfl := some.inj same
    have free : group.calls task = none := by simpa using unused
    cases present : group.inflight key with
    | none => exact .lead free present
    | some name => exact .follow free present
  | answer task outcome =>
    simp only [step] at moved
    split at moved
    · rename_i found
      obtain ⟨called, flies⟩ := lookup_eq_some found
      exact some.inj moved ▸ .answer called flies rfl
    · simp at moved
  | wake task =>
    simp only [step] at moved
    split at moved
    · rename_i found
      obtain ⟨called, flies⟩ := lookup_eq_some found
      obtain ⟨result, done, rfl⟩ := map_eq_some_iff.mp moved
      exact .wake called flies rfl done
    · simp at moved
  | cancel task =>
    simp only [step] at moved
    split at moved
    · rename_i found
      obtain ⟨called, flies⟩ := lookup_eq_some found
      exact some.inj moved ▸ .cancelFollower called flies rfl
    · rename_i found
      obtain ⟨called, -⟩ := lookup_eq_some found
      exact some.inj moved ▸ .cancelLeader called rfl
    · simp at moved

end Group

/-! ## One leader to a flight -/

/-- How keys, flights and callers fit together in every run. -/
structure Coherent {Key Value Error : Type}
    (group : Group Key Value Error) : Prop where
  unissued : ∀ name, group.nextFlight ≤ name → group.flights name = none
  boarded : ∀ task call, group.calls task = some call →
    (group.flights call.flight).isSome
  inPlace : ∀ key name, group.inflight key = some name →
    (group.flights name).isSome
  placed : ∀ name flight, group.flights name = some flight →
    flight.answer = none → group.inflight flight.key = some name
  unanswered : ∀ task call flight, group.calls task = some call →
    call.state = .leading → group.flights call.flight = some flight →
      flight.answer = none
  oneLeader : ∀ left right leftCall rightCall,
    group.calls left = some leftCall → group.calls right = some rightCall →
    leftCall.state = .leading → rightCall.state = .leading →
    leftCall.flight = rightCall.flight → left = right
  once : group.started.Nodup
  startedBefore : ∀ name ∈ group.started, name < group.nextFlight

namespace Coherent

theorem empty {Key Value Error : Type} :
    Coherent (Group.empty : Group Key Value Error) := by
  constructor <;> simp [Group.empty]

variable {Key Value Error : Type} [DecidableEq Key]
  {group next : Group Key Value Error}
  {action : Action Key Value Error}

/-- Every step keeps the flights coherent. -/
theorem step (coherent : Coherent group)
    (moved : group.step action = some next) :
    Coherent next := by
  obtain ⟨unissued, boarded, inPlace, placed, unanswered, oneLeader, once,
    startedBefore⟩ := coherent
  cases Group.moves_of_step moved with
  | follow unused present =>
    simp only [Group.enter, present]
    constructor <;> grind [update_apply]
  | lead unused absent =>
    simp only [Group.enter, absent]
    constructor <;> grind [update_apply]
  | answer called flies leads =>
    have running := unanswered _ _ _ called leads flies
    have home := placed _ _ flies running
    simp only [Group.finish]
    constructor <;> grind [update_apply]
  | wake called flies follows done =>
    simp only [Group.resume]
    constructor <;> grind [update_apply]
  | cancelFollower called flies follows =>
    simp only [Group.cancelFollower]
    constructor <;> grind [update_apply]
  | cancelLeader called leads =>
    simp only [Group.cancelLeader]
    constructor <;> grind [update_apply]

theorem run {allowed : Group Key Value Error →
      Action Key Value Error → Prop}
    {actions : List (Action Key Value Error)}
    (run : Run Group.step allowed Group.empty actions group) :
    Coherent group :=
  run.invariant Coherent empty
    fun _ _ _ coherent _ moved => coherent.step moved

end Coherent

/-! ## The shared outcome -/

section SharedOutcome

variable {Key Value Error : Type}

/--
The action cancels a follower of the flight whose future is still pending:
the cancellation reaches the shared future.
-/
def interrupts (name : FlightId) (group : Group Key Value Error) :
    Action Key Value Error → Bool
  | .cancel task =>
    match group.lookup task with
    | some (⟨followed, .following, _⟩, ⟨_, .pending, _⟩) =>
      followed == name
    | _ => false
  | _ => false

/-- The step cancels no follower of the flight before its leader is done. -/
def Spares (name : FlightId) (group : Group Key Value Error)
    (action : Action Key Value Error) : Prop :=
  interrupts name group action = false

instance (name : FlightId) (group : Group Key Value Error)
    (action : Action Key Value Error) :
    Decidable (Spares name group action) :=
  inferInstanceAs (Decidable (_ = false))

/--
The future of a flight carries its leader's answer, and every caller who was
not cancelled left with that answer.
-/
structure Agreed (name : FlightId)
    (group : Group Key Value Error) : Prop where
  settled : ∀ flight, group.flights name = some flight →
    flight.future = .pending ∧ flight.answer = none ∨
      ∃ outcome, flight.future = .finished outcome ∧
        flight.answer = some outcome
  heard : ∀ task call outcome flight, group.calls task = some call →
    group.flights name = some flight → call.flight = name →
    call.cancelled = false → call.state = .ended outcome →
      flight.answer = some outcome

namespace Agreed

variable {name : FlightId} {group next : Group Key Value Error}
  {action : Action Key Value Error}

theorem empty : Agreed name (Group.empty : Group Key Value Error) := by
  constructor <;> simp [Group.empty]

variable {task : TaskId} {call : Call Value Error}
  {flight : Flight Key Value Error}

theorem wake (agreed : Agreed name group) {result : Outcome Value Error}
    (flies : group.flights call.flight = some flight)
    (done : flight.future.result = some result) :
    Agreed name (group.resume task call result) := by
  obtain ⟨settled, heard⟩ := agreed
  simp only [Group.resume]
  constructor <;> grind [update_apply, FutureState.result]

theorem cancelFollower (agreed : Agreed name group)
    (flies : group.flights call.flight = some flight)
    (settledBefore : call.flight = name → flight.future ≠ .pending) :
    Agreed name (group.cancelFollower task call flight) := by
  obtain ⟨settled, heard⟩ := agreed
  simp only [Group.cancelFollower]
  constructor <;> grind [update_apply, FutureState.cancel]

theorem cancelLeader (agreed : Agreed name group) :
    Agreed name (group.cancelLeader task call) := by
  obtain ⟨settled, heard⟩ := agreed
  simp only [Group.cancelLeader]
  constructor <;> grind [update_apply]

theorem settled_of_spares (spared : Spares name group (.cancel task))
    (called : group.calls task = some call)
    (flies : group.flights call.flight = some flight)
    (follows : call.state = .following) :
    call.flight = name → flight.future ≠ .pending := by
  intro ours pending
  obtain ⟨followed, state, cancelled⟩ := call
  obtain ⟨key, future, answer⟩ := flight
  subst ours follows pending
  simp [Spares, interrupts, Group.lookup_of_calls called flies] at spared

variable [DecidableEq Key]

section

variable (agreed : Agreed name group)
include agreed

theorem follow {key : Key} {followed : FlightId}
    (present : group.inflight key = some followed) :
    Agreed name (group.enter task key) := by
  obtain ⟨settled, heard⟩ := agreed
  simp only [Group.enter, present]
  constructor <;> grind [update_apply]

theorem lead (coherent : Coherent group) {key : Key}
    (absent : group.inflight key = none) :
    Agreed name (group.enter task key) := by
  obtain ⟨settled, heard⟩ := agreed
  have unissued := coherent.unissued
  have boarded := coherent.boarded
  simp only [Group.enter, absent]
  constructor <;> grind [update_apply]

theorem answer (coherent : Coherent group) {outcome : Outcome Value Error}
    (called : group.calls task = some call)
    (flies : group.flights call.flight = some flight)
    (leads : call.state = .leading) :
    Agreed name (group.finish task call flight outcome) := by
  obtain ⟨settled, heard⟩ := agreed
  have running := coherent.unanswered _ _ _ called leads flies
  simp only [Group.finish]
  constructor <;> grind [update_apply, FutureState.settle]

theorem step (coherent : Coherent group) (spared : Spares name group action)
    (moved : group.step action = some next) :
    Agreed name next := by
  cases Group.moves_of_step moved with
  | follow unused present => exact agreed.follow present
  | lead unused absent => exact agreed.lead coherent absent
  | answer called flies leads =>
    exact agreed.answer coherent called flies leads
  | wake called flies follows done => exact agreed.wake flies done
  | cancelFollower called flies follows =>
    exact agreed.cancelFollower flies
      (settled_of_spares spared called flies follows)
  | cancelLeader called leads => exact agreed.cancelLeader

end

theorem run {actions : List (Action Key Value Error)}
    (run : Run Group.step (Spares name) Group.empty actions group) :
    Agreed name group := by
  have both : Coherent group ∧ Agreed name group := by
    refine run.invariant
      (fun state => Coherent state ∧ Agreed name state)
      ⟨.empty, .empty⟩ ?_
    rintro state action next ⟨coherent, agreed⟩ spared moved
    exact ⟨coherent.step moved, agreed.step coherent spared moved⟩
  exact both.2

/-- A caller wakes with the flight's outcome. -/
theorem wakes (agreed : Agreed name group) {outcome : Outcome Value Error}
    (called : group.calls task = some call)
    (flies : group.flights call.flight = some flight)
    (ours : call.flight = name) (kept : call.cancelled = false)
    (follows : call.state = .following)
    (answered : flight.answer = some outcome) :
    ∃ next, group.step (.wake task) = some next ∧
      next.calls task = some { call with state := .ended outcome } := by
  have found := Group.lookup_of_calls called flies
  obtain ⟨followed, state, cancelled⟩ := call
  subst ours follows kept
  obtain ⟨-, open_⟩ | ⟨result, finished, same⟩ := agreed.settled _ flies
  · rw [open_] at answered
    cases answered
  · obtain rfl : result = outcome := by
      rw [same] at answered
      exact some.inj answered
    refine ⟨group.resume task ⟨followed, .following, false⟩ result, ?_, ?_⟩
    · simp [Group.step, found, finished, FutureState.result]
    · simp [Group.resume]

end Agreed

variable [DecidableEq Key]

/--
What `do` owes the callers of one flight: its `fn` is started at most once,
no other flight of its key is unanswered beside it, every caller who left
without being cancelled left with the outcome of the leader's `fn`, and a
follower who still waits once `fn` has ended leaves with that outcome at its
next step.
-/
structure SharesOutcome (name : FlightId)
    (group : Group Key Value Error) : Prop where
  once : group.started.count name ≤ 1
  alone : ∀ other flight otherFlight,
    group.flights name = some flight →
    group.flights other = some otherFlight →
    flight.answer = none → otherFlight.answer = none →
    flight.key = otherFlight.key → name = other
  left : ∀ task call outcome, group.calls task = some call →
    call.flight = name → call.cancelled = false →
    call.state = .ended outcome →
      ∃ flight, group.flights name = some flight ∧
        flight.answer = some outcome
  leaves : ∀ task call flight outcome, group.calls task = some call →
    call.flight = name → call.cancelled = false →
    call.state = .following → group.flights name = some flight →
    flight.answer = some outcome →
      ∃ next, group.step (.wake task) = some next ∧
        next.calls task = some { call with state := .ended outcome }

/--
In every run in which no follower of the flight is cancelled while the
flight's future is pending, every caller of the flight gets the outcome of the
leader's `fn`, whoever else is cancelled.
-/
theorem shares_outcome_of_spared_followers
    (name : FlightId) (actions : List (Action Key Value Error))
    (group : Group Key Value Error)
    (run : Run Group.step (Spares name) Group.empty actions group) :
    SharesOutcome name group := by
  have coherent := Coherent.run run
  have agreed := Agreed.run run
  constructor
  · exact List.nodup_iff_count.mp coherent.once name
  · intro other flight otherFlight flies otherFlies unanswered
      otherUnanswered sameKey
    have placed := coherent.placed _ _ flies unanswered
    rw [sameKey, coherent.placed _ _ otherFlies otherUnanswered] at placed
    exact (some.inj placed).symm
  · intro task call outcome called ours kept ended
    obtain ⟨flight, flies⟩ :=
      isSome_iff_exists.mp (coherent.boarded task call called)
    rw [ours] at flies
    exact ⟨flight, flies,
      agreed.heard _ _ _ _ called flies ours kept ended⟩
  · intro task call flight outcome called ours kept follows flies answered
    exact agreed.wakes called (ours ▸ flies) ours kept follows answered

/-- Three callers, one of them cancelled. -/
theorem shares_outcome_cancelled_late :
    ∃ group : Group String Nat String,
      Run Group.step (Spares 0) Group.empty
          [.call 0 "models", .call 1 "models", .call 2 "models",
            .answer 0 (.returned 7), .cancel 1, .wake 1, .wake 2] group ∧
        SharesOutcome 0 group := by
  have reached : ∃ group : Group String Nat String,
      Run Group.step (Spares 0) Group.empty
        [.call 0 "models", .call 1 "models", .call 2 "models",
          .answer 0 (.returned 7), .cancel 1, .wake 1, .wake 2] group :=
    ⟨_, Run.of_exec rfl⟩
  obtain ⟨group, run⟩ := reached
  exact ⟨group, run, shares_outcome_of_spared_followers 0 _ group run⟩

/--
Two followers wait and one of them is cancelled: the leader's `fn` returns,
the leader gets its value, and the other follower gets `CancelledError`.
-/
theorem cancelled_follower_poisons_flight :
    ∃ group : Group String Nat String,
      Run Group.step Anything Group.empty
          [.call 0 "models", .call 1 "models", .call 2 "models",
            .cancel 1, .answer 0 (.returned 7), .wake 2] group ∧
        group.calls 0 = some ⟨0, .ended (.returned 7), false⟩ ∧
        group.calls 2 =
          some ⟨0, .ended (.raised .cancelledError), false⟩ ∧
        ¬ SharesOutcome 0 group := by
  refine ⟨_, Run.of_exec rfl, rfl, rfl, fun shares => ?_⟩
  obtain ⟨flight, flies, answered⟩ :=
    shares.left 2 _ _ rfl rfl rfl rfl
  obtain rfl := some.inj flies
  cases answered

end SharedOutcome

end Hal0.Dispatcher.SingleFlight
