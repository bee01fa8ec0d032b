import Hal0.Dispatcher.Admission

/-!
# Admission around `Dispatcher.forward`

`forward` enters the slot's admission context, forwards the request and
leaves the context when it returns.  For a streaming call the value it
returns is a response whose body iterator runs later: the permit goes back
to the gate while the upstream is still generating.

The slot's cap is fixed, so `configure` leaves one gate in place for the
whole run.
-/

namespace Hal0.Dispatcher.Admission

open Option
open Hal0.Transition

/--
The requests of one capped slot.  `openBodies` are the streaming requests
whose `forward` has returned and whose body iterator has neither ended nor
been closed.
-/
structure Forwarding where
  traffic : Traffic
  openBodies : List TaskId
deriving DecidableEq, Repr

/-- A step of a forwarded request. -/
inductive ForwardAction where
  | admission (action : Action)
  | complete (task : TaskId)
  | respond (task : TaskId)
  | endBody (task : TaskId)
deriving DecidableEq, Repr

/-- Only `forward`'s own context manager releases a permit. -/
def Action.isRelease : Action → Bool
  | .release _ => true
  | _ => false

/-- The task that asks for admission. -/
def Action.arriving : Action → List TaskId
  | .acquire task _ _ => [task]
  | _ => []

namespace Forwarding

/-- A gate without requests and streams. -/
def idle (gate : SlotAdmission) : Forwarding := ⟨.idle gate, []⟩

/--
The requests being served: from their admission until their answer is
complete.
-/
def served (forwarding : Forwarding) : Nat :=
  forwarding.traffic.holders.length + forwarding.openBodies.length

/--
The interleavings of requests on the slot; `streaming` is each request's
`call.streaming`.  `complete` ends a non-streaming forward, or any forward
that raises; `respond` returns a streaming response; in both the admission
context releases its permit.
-/
def step (streaming : TaskId → Bool) :
    StepFunction Forwarding ForwardAction
  | forwarding, .admission action =>
    if action.isRelease ∨ ∃ task ∈ action.arriving,
        task ∈ forwarding.openBodies then none
    else
      (forwarding.traffic.step action).map fun traffic =>
        { forwarding with traffic := traffic }
  | forwarding, .complete task =>
    (forwarding.traffic.step (.release task)).map fun traffic =>
      { forwarding with traffic := traffic }
  | forwarding, .respond task =>
    if streaming task then
      (forwarding.traffic.step (.release task)).map fun traffic =>
        { traffic := traffic, openBodies := task :: forwarding.openBodies }
    else none
  | forwarding, .endBody task =>
    if task ∈ forwarding.openBodies then
      some { forwarding with
        openBodies := forwarding.openBodies.erase task }
    else none

/-- The step would hand a permit to a request. -/
def admitsNow (forwarding : Forwarding) : ForwardAction → Bool
  | .admission (.acquire _ _ _) =>
    decide (forwarding.traffic.gate.inflight <
      forwarding.traffic.gate.maxInflight ∧
        forwarding.traffic.gate.waiters = [])
  | .admission (.resume _) => true
  | .admission (.timeout waiter _) =>
    decide (waiter ∈ forwarding.traffic.woken)
  | _ => false

/-- No request is admitted while a returned stream is still open. -/
def AdmitsBesideNoStream (forwarding : Forwarding)
    (action : ForwardAction) : Prop :=
  forwarding.admitsNow action = true → forwarding.openBodies = []

instance (forwarding : Forwarding) (action : ForwardAction) :
    Decidable (forwarding.AdmitsBesideNoStream action) :=
  inferInstanceAs (Decidable (_ → _))

end Forwarding

/-! ## At most `max_inflight` requests are served at a time -/

/-- The gate's books, and the bound on the requests being served. -/
structure WithinCap (limit : Nat) (forwarding : Forwarding) : Prop where
  books : ∃ dead leaked, Ledger forwarding.traffic dead leaked
  cap : forwarding.traffic.gate.maxInflight = limit
  served : forwarding.served ≤ limit

namespace WithinCap

variable {limit : Nat} {forwarding next : Forwarding}
  {streaming : TaskId → Bool}

theorem idle {gate : SlotAdmission} (unused : gate.inflight = 0)
    (empty : gate.waiters = []) :
    WithinCap gate.maxInflight (.idle gate) :=
  ⟨⟨[], 0, Ledger.idle unused empty⟩, rfl, Nat.zero_le _⟩

/-- A step at the gate. -/
theorem admission {action : Action} {traffic : Traffic}
    (within : WithinCap limit forwarding)
    (alone : forwarding.AdmitsBesideNoStream (.admission action))
    (unreleased : action.isRelease = false)
    (moved : forwarding.traffic.step action = some traffic) :
    WithinCap limit { forwarding with traffic := traffic } := by
  obtain ⟨dead, leaked, books⟩ := within.books
  obtain ⟨stillDead, nowLeaked, kept, -⟩ := ledger_step books moved
  have cap : traffic.gate.maxInflight = limit :=
    (Traffic.maxInflight_step moved).trans within.cap
  refine ⟨⟨stillDead, nowLeaked, kept⟩, cap, ?_⟩
  have before := within.served
  have balance := kept.inflight
  have bounded := kept.bounded
  have noBody : forwarding.admitsNow (.admission action) = true →
      ({ forwarding with traffic := traffic } : Forwarding).served ≤
        limit := by
    intro admits
    simp only [Forwarding.served, alone admits, List.length_nil]
    omega
  have unchanged : traffic.holders = forwarding.traffic.holders →
      ({ forwarding with traffic := traffic } : Forwarding).served ≤
        limit := by
    intro same
    simpa [Forwarding.served, same] using before
  cases Traffic.moves_of_step moved with
  | acquire outside =>
    by_cases room :
        forwarding.traffic.gate.inflight <
            forwarding.traffic.gate.maxInflight ∧
          forwarding.traffic.gate.waiters = []
    · exact noBody (by simp [Forwarding.admitsNow, room])
    · exact unchanged (Traffic.holders_enter_full _ _ _ room)
  | resume woken => exact noBody rfl
  | timeoutSuspended suspended =>
    obtain ⟨gate, expired, -⟩ := books.timeout_suspended suspended
    exact unchanged (by rw [expired]; rfl)
  | timeoutWoken woken =>
    exact noBody (by simp [Forwarding.admitsNow, woken])
  | cancelSuspended suspended => exact unchanged rfl
  | cancelWoken woken => exact unchanged rfl
  | release holding => simp [Action.isRelease] at unreleased

theorem released {task : TaskId} {traffic : Traffic}
    (within : WithinCap limit forwarding)
    (moved : forwarding.traffic.step (.release task) = some traffic) :
    (∃ dead leaked, Ledger traffic dead leaked) ∧
      traffic.gate.maxInflight = limit ∧
      traffic.holders.length + 1 = forwarding.traffic.holders.length := by
  obtain ⟨dead, leaked, books⟩ := within.books
  obtain ⟨stillDead, nowLeaked, kept, -⟩ := ledger_step books moved
  refine ⟨⟨stillDead, nowLeaked, kept⟩,
    (Traffic.maxInflight_step moved).trans within.cap, ?_⟩
  cases Traffic.moves_of_step moved with
  | release holding =>
    rw [Traffic.holders_leave, List.length_erase_of_mem holding]
    have present := List.length_pos_of_mem holding
    omega

/-- Every step stays within the cap. -/
theorem step {action : ForwardAction}
    (within : WithinCap limit forwarding)
    (alone : forwarding.AdmitsBesideNoStream action)
    (moved : forwarding.step streaming action = some next) :
    WithinCap limit next := by
  have before := within.served
  rw [Forwarding.served] at before
  cases action with
  | admission action =>
    simp only [Forwarding.step, ite_none_left_eq_some] at moved
    obtain ⟨outside, moved⟩ := moved
    obtain ⟨traffic, stepped, rfl⟩ := map_eq_some_iff.mp moved
    exact within.admission alone
      (by simpa using fun releases => outside (.inl releases)) stepped
  | complete task =>
    obtain ⟨traffic, stepped, rfl⟩ := map_eq_some_iff.mp moved
    obtain ⟨books, cap, fewer⟩ := within.released stepped
    refine ⟨books, cap, ?_⟩
    simp only [Forwarding.served]
    omega
  | respond task =>
    simp only [Forwarding.step, ite_none_right_eq_some] at moved
    obtain ⟨-, moved⟩ := moved
    obtain ⟨traffic, stepped, rfl⟩ := map_eq_some_iff.mp moved
    obtain ⟨books, cap, fewer⟩ := within.released stepped
    refine ⟨books, cap, ?_⟩
    simp only [Forwarding.served, List.length_cons]
    omega
  | endBody task =>
    simp only [Forwarding.step, ite_none_right_eq_some] at moved
    obtain ⟨-, same⟩ := moved
    obtain rfl := some.inj same
    refine ⟨within.books, within.cap, ?_⟩
    have shorter :=
      List.length_erase_le (a := task) (l := forwarding.openBodies)
    simp only [Forwarding.served]
    omega

end WithinCap

/--
In every run which admits no request while a stream that `forward` has
returned is still open, at most `max_inflight` requests are being served in
each state reached.
-/
theorem served_within_cap_beside_no_stream
    (slotName : String) (maxInflight : Nat) (gate : SlotAdmission)
    (built : SlotAdmission.new slotName maxInflight = .ok gate)
    (streaming : TaskId → Bool) (actions : List ForwardAction)
    (forwarding : Forwarding)
    (run : Run (Forwarding.step streaming) Forwarding.AdmitsBesideNoStream
      (.idle gate) actions forwarding) :
    forwarding.served ≤ maxInflight := by
  have fresh := SlotAdmission.new_unused built
  have cap : gate.maxInflight = maxInflight := by
    simp only [SlotAdmission.new] at built
    split at built
    · exact Except.ok.inj built ▸ rfl
    · cases built
  have within : WithinCap gate.maxInflight forwarding :=
    run.invariant (WithinCap gate.maxInflight)
      (WithinCap.idle fresh.1 fresh.2)
      fun _ _ _ within alone moved => within.step alone moved
  exact cap ▸ within.served

/-- The requests after `actions` on a serial slot. -/
def forwardedAfter (actions : List ForwardAction) : Forwarding :=
  (exec (Forwarding.step fun _ => true) Anything (.idle serialGate)
    actions).getD (.idle serialGate)

/-- The second request is admitted when the first body has ended. -/
def streamsInTurn : List ForwardAction :=
  [.admission (.acquire 1 1 0), .respond 1, .endBody 1,
    .admission (.acquire 2 1 0), .respond 2]

/-- Two streams, one after the other. -/
theorem served_within_cap_one_stream :
    (forwardedAfter streamsInTurn).served ≤ 1 :=
  served_within_cap_beside_no_stream "flm" 1 serialGate rfl (fun _ => true)
    streamsInTurn _ (Run.of_exec (by decide))

/--
A serial slot answers a streaming request.  Its permit is back when the
response is returned, so a second request is admitted while the first body
is still open: two requests are served under a cap of one.
-/
theorem open_stream_exceeds_cap :
    ∃ forwarding,
      Run (Forwarding.step fun _ => true) Anything (.idle serialGate)
          [.admission (.acquire 1 1 0), .respond 1,
            .admission (.acquire 2 1 0)] forwarding ∧
        forwarding.traffic.gate.maxInflight = 1 ∧
        ¬ forwarding.served ≤ 1 := by
  refine ⟨forwardedAfter
      [.admission (.acquire 1 1 0), .respond 1,
        .admission (.acquire 2 1 0)],
    Run.of_exec (by decide), rfl, by decide⟩

end Hal0.Dispatcher.Admission
