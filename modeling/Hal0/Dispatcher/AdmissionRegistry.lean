import Hal0.Dispatcher.Admission
import Mathlib.Algebra.GroupWithZero.Nat

/-!
# The admission registry of one slot

`AdmissionRegistry.configure` installs a new gate object whenever the cap of
a slot changes or is set after it was cleared.  Requests which were admitted
through the replaced gate, or while the slot had no gate, keep their
reference to the old object: they release there, and the new gate starts
from an empty count.

The model therefore keeps every gate of the slot together with the tasks
which refer to it.  Gates of different slots share nothing, so one slot is
the general case.
-/

namespace Hal0.Dispatcher.Admission

open List Option
open Hal0.Transition

/--
The registry entry of one slot.  `current` is the gate under the slot's name
in `_slots`; `discarded` are the gate objects it replaced; `uncapped` are the
requests admitted while there was no entry.
-/
structure Registry where
  slotName : String
  current : Option Traffic
  discarded : List Traffic
  uncapped : List TaskId
deriving DecidableEq, Repr

namespace Registry

/-- A slot without a gate. -/
def empty (slotName : String) : Registry := ⟨slotName, none, [], []⟩

/-- The limit of the gate in use. -/
def cap (registry : Registry) : Option Nat :=
  registry.current.map fun traffic => traffic.gate.maxInflight

/-- Every task which holds or awaits a permit of the slot. -/
def tasks (registry : Registry) : List TaskId :=
  registry.uncapped ++
    (registry.current.toList ++ registry.discarded).flatMap Traffic.tasks

/-- The requests admitted to the slot and not yet released. -/
def admitted (registry : Registry) : Nat :=
  registry.uncapped.length +
    ((registry.current.toList ++ registry.discarded).map
      fun traffic => traffic.holders.length).sum

/--
`AdmissionRegistry.configure`.  A cap below one raises in the gate's
constructor and leaves the entry as it was.
-/
def configure (registry : Registry) : Option Nat → Registry
  | none =>
    { registry with
      current := none
      discarded := registry.current.toList ++ registry.discarded }
  | some maxInflight =>
    if registry.cap = some maxInflight then registry
    else
      match SlotAdmission.new registry.slotName maxInflight with
      | .ok gate =>
        { registry with
          current := some (.idle gate)
          discarded := registry.current.toList ++ registry.discarded }
      | .error _ => registry

/-- `AdmissionRegistry.acquire` up to its `yield` or its first suspension. -/
def acquire (registry : Registry) (task : TaskId) (priority : Int)
    (now : Nat) : Registry :=
  match registry.current with
  | none => { registry with uncapped := task :: registry.uncapped }
  | some traffic =>
    { registry with current := some (traffic.enter task priority now) }

/-- The call installs a new gate object. -/
def installs (registry : Registry) : Option Nat → Bool
  | none => false
  | some maxInflight =>
    registry.cap ≠ some maxInflight && decide (1 ≤ maxInflight)

/-- No request holds or awaits a permit of the slot. -/
def Quiet (registry : Registry) : Prop :=
  registry.uncapped = [] ∧
    ∀ traffic ∈ registry.current.toList ++ registry.discarded,
      traffic.Quiescent

instance (registry : Registry) : Decidable registry.Quiet :=
  inferInstanceAs (Decidable (_ ∧ _))

end Registry

/-- A step of a task which is already past its call of `acquire`. -/
def Action.isAcquire : Action → Bool
  | .acquire _ _ _ => true
  | _ => false

/-- A step of the registry, or at one of its gates. -/
inductive RegistryAction where
  | configure (maxInflight : Option Nat)
  | acquire (task : TaskId) (priority : Int) (now : Nat)
  | onCurrent (action : Action)
  | onDiscarded (index : Nat) (action : Action)
  | releaseUncapped (task : TaskId)
deriving DecidableEq, Repr

/-- The interleavings of reconfiguration and traffic on one slot. -/
def Registry.step : StepFunction Registry RegistryAction
  | registry, .configure maxInflight => some (registry.configure maxInflight)
  | registry, .acquire task priority now =>
    if task ∈ registry.tasks then none
    else some (registry.acquire task priority now)
  | registry, .onCurrent action =>
    if action.isAcquire then none
    else
      match registry.current with
      | none => none
      | some traffic =>
        (traffic.step action).map fun next =>
          { registry with current := some next }
  | registry, .onDiscarded index action =>
    if action.isAcquire then none
    else
      match registry.discarded[index]? with
      | none => none
      | some traffic =>
        (traffic.step action).map fun next =>
          { registry with discarded := registry.discarded.set index next }
  | registry, .releaseUncapped task =>
    if task ∈ registry.uncapped then
      some { registry with uncapped := registry.uncapped.erase task }
    else none

/-- The step admits one request. -/
def Admits (registry next : Registry) : Prop :=
  next.admitted = registry.admitted + 1

/-- A new gate is installed only while nothing holds or awaits a permit. -/
def ReplacesIdleGate (registry : Registry) : RegistryAction → Prop
  | .configure maxInflight =>
    registry.installs maxInflight = true → registry.Quiet
  | _ => True

instance (registry : Registry) (action : RegistryAction) :
    Decidable (ReplacesIdleGate registry action) :=
  match action with
  | .configure maxInflight =>
    inferInstanceAs (Decidable
      (registry.installs maxInflight = true → registry.Quiet))
  | .acquire _ _ _ => inferInstanceAs (Decidable True)
  | .onCurrent _ => inferInstanceAs (Decidable True)
  | .onDiscarded _ _ => inferInstanceAs (Decidable True)
  | .releaseUncapped _ => inferInstanceAs (Decidable True)

/-! ## The current gate counts every admitted request -/

/-- Every gate keeps its books, and only the current one is in use. -/
structure SingleGate (registry : Registry) : Prop where
  books : ∀ traffic ∈ registry.current.toList ++ registry.discarded,
    ∃ dead leaked, Ledger traffic dead leaked
  discardedIdle : registry.current.isSome →
    ∀ traffic ∈ registry.discarded, traffic.Quiescent
  uncappedIdle : registry.current.isSome → registry.uncapped = []

/-- A gate without tasks has no step but a new `acquire`. -/
theorem Traffic.step_eq_none_of_quiescent {traffic : Traffic}
    {action : Action} (quiescent : traffic.Quiescent)
    (later : action.isAcquire = false) :
    traffic.step action = none := by
  obtain ⟨noHolder, noSuspended, noWoken⟩ := quiescent
  cases action with
  | acquire => simp [Action.isAcquire] at later
  | resume => simp [Traffic.step, noWoken]
  | timeout => simp [Traffic.step, noSuspended, noWoken]
  | cancel => simp [Traffic.step, noSuspended, noWoken]
  | release => simp [Traffic.step, noHolder]

namespace SingleGate

variable {registry next : Registry} {action : RegistryAction}

theorem empty (slotName : String) : SingleGate (.empty slotName) := by
  constructor <;> simp [Registry.empty]

section

variable (single : SingleGate registry)
include single

/-- A new gate replaces an idle one. -/
theorem configure (maxInflight : Option Nat)
    (orderly : registry.installs maxInflight = true → registry.Quiet) :
    SingleGate (registry.configure maxInflight) := by
  cases maxInflight with
  | none =>
    refine ⟨?_, by simp [Registry.configure], by simp [Registry.configure]⟩
    simpa [Registry.configure] using single.books
  | some cap =>
    simp only [Registry.configure]
    split
    · exact single
    · rename_i changed
      split
      · rename_i gate built
        have positive : 1 ≤ cap := by
          by_contra small
          simp [SlotAdmission.new, small] at built
        have quiet := orderly (by simp [Registry.installs, changed, positive])
        have fresh := SlotAdmission.new_unused built
        refine ⟨?_, fun _ => quiet.2, fun _ => quiet.1⟩
        intro traffic member
        rcases mem_cons.mp member with rfl | old
        · exact ⟨[], 0, Ledger.idle fresh.1 fresh.2⟩
        · exact single.books traffic old
      · exact single

/-- A request goes to the gate in use. -/
theorem acquire (task : TaskId) (priority : Int) (now : Nat) :
    SingleGate (registry.acquire task priority now) := by
  simp only [Registry.acquire]
  split
  · rename_i none
    refine ⟨single.books, ?_, ?_⟩ <;> simp [none]
  · rename_i traffic present
    refine ⟨?_, fun _ => single.discardedIdle (by simp [present]),
      fun _ => single.uncappedIdle (by simp [present])⟩
    intro entry member
    rcases mem_cons.mp member with rfl | old
    · obtain ⟨dead, leaked, books⟩ :=
        single.books traffic (by simp [present])
      exact ⟨dead, leaked, books.enter⟩
    · exact single.books entry (mem_append_right _ old)

/-- Every step keeps one gate. -/
theorem step (orderly : ReplacesIdleGate registry action)
    (moved : registry.step action = some next) :
    SingleGate next := by
  cases action with
  | configure maxInflight =>
    obtain rfl := some.inj moved
    exact single.configure maxInflight orderly
  | acquire task priority now =>
    simp only [Registry.step] at moved
    split at moved
    · simp at moved
    · obtain rfl := some.inj moved
      exact single.acquire task priority now
  | onCurrent action =>
    simp only [Registry.step] at moved
    split at moved
    · simp at moved
    · split at moved
      · simp at moved
      · rename_i traffic present
        obtain ⟨after, stepped, rfl⟩ := map_eq_some_iff.mp moved
        refine ⟨?_, fun _ => single.discardedIdle (by simp [present]),
          fun _ => single.uncappedIdle (by simp [present])⟩
        intro entry member
        rcases mem_cons.mp member with rfl | old
        · obtain ⟨dead, leaked, books⟩ :=
            single.books traffic (by simp [present])
          obtain ⟨stillDead, nowLeaked, kept, -⟩ :=
            ledger_step books stepped
          exact ⟨stillDead, nowLeaked, kept⟩
        · exact single.books entry (mem_append_right _ old)
  | onDiscarded index action =>
    simp only [Registry.step] at moved
    split at moved
    · simp at moved
    · rename_i later
      split at moved
      · simp at moved
      · rename_i traffic present
        obtain ⟨after, stepped, rfl⟩ := map_eq_some_iff.mp moved
        have member : traffic ∈ registry.discarded :=
          mem_of_getElem? present
        have cleared : registry.current.isSome = true → False := by
          intro configured
          have stuck := Traffic.step_eq_none_of_quiescent
            (single.discardedIdle configured traffic member)
            (by simpa using later)
          simp [stuck] at stepped
        refine ⟨?_, fun configured => (cleared configured).elim,
          fun configured => (cleared configured).elim⟩
        intro entry entryMember
        rcases mem_append.mp entryMember with installed | old
        · exact single.books entry (mem_append_left _ installed)
        · rcases mem_or_eq_of_mem_set old with kept | rfl
          · exact single.books entry (mem_append_right _ kept)
          · obtain ⟨dead, leaked, books⟩ :=
              single.books traffic (mem_append_right _ member)
            obtain ⟨stillDead, nowLeaked, kept, -⟩ :=
              ledger_step books stepped
            exact ⟨stillDead, nowLeaked, kept⟩
  | releaseUncapped task =>
    simp only [Registry.step] at moved
    split at moved
    · rename_i holding
      obtain rfl := some.inj moved
      refine ⟨single.books, single.discardedIdle, fun configured => ?_⟩
      simp [single.uncappedIdle configured] at holding
    · simp at moved

theorem admitted_eq {traffic : Traffic}
    (present : registry.current = some traffic) :
    registry.admitted = traffic.holders.length := by
  have configured : registry.current.isSome = true := by simp [present]
  have idle :
      (registry.discarded.map fun entry => entry.holders.length).sum = 0 := by
    apply List.sum_eq_zero_iff_forall_eq_nat.mpr
    intro count member
    obtain ⟨entry, entryMember, rfl⟩ := List.mem_map.mp member
    rw [(single.discardedIdle configured entry entryMember).1]
    rfl
  simp [Registry.admitted, present, single.uncappedIdle configured, idle]

end

end SingleGate

/-! ## Admissions stay below the cap -/

/-- A gate admits below its limit. -/
theorem holders_lt_of_admission {traffic next : Traffic} {action : Action}
    {dead : List Ticket} {leaked : Nat}
    (books : Ledger traffic dead leaked)
    (moved : traffic.step action = some next)
    (grew : next.holders.length = traffic.holders.length + 1) :
    traffic.holders.length < traffic.gate.maxInflight := by
  cases Traffic.moves_of_step moved with
  | acquire outside =>
    by_cases room :
        traffic.gate.inflight < traffic.gate.maxInflight ∧
          traffic.gate.waiters = []
    · have balance := books.inflight
      omega
    · rw [Traffic.holders_enter_full _ _ _ room] at grew
      omega
  | resume woken => exact books.holders_lt_of_woken woken
  | timeoutSuspended suspended =>
    obtain ⟨gate, expired, -⟩ := books.timeout_suspended suspended
    rw [expired] at grew
    simp [Traffic.abandon] at grew
  | timeoutWoken woken => exact books.holders_lt_of_woken woken
  | cancelSuspended suspended => simp [Traffic.abandon] at grew
  | cancelWoken woken => simp [Traffic.abandon] at grew
  | release holding =>
    rw [Traffic.holders_leave, length_erase_of_mem holding] at grew
    omega

theorem Registry.admitted_configure (registry : Registry)
    (maxInflight : Option Nat) :
    (registry.configure maxInflight).admitted = registry.admitted := by
  cases maxInflight with
  | none => simp [Registry.configure, Registry.admitted]
  | some cap =>
    simp only [Registry.configure]
    split
    · rfl
    · split
      · simp [Registry.admitted, Traffic.idle]
      · rfl

/-- With one gate in use no admission exceeds it. -/
theorem SingleGate.admission_below_cap {registry next : Registry}
    {action : RegistryAction} {limit : Nat}
    (single : SingleGate registry)
    (moved : registry.step action = some next)
    (admits : Admits registry next)
    (capped : registry.cap = some limit) :
    registry.admitted < limit := by
  obtain ⟨traffic, present, rfl⟩ := map_eq_some_iff.mp capped
  have configured : registry.current.isSome = true := by simp [present]
  have counted := single.admitted_eq present
  obtain ⟨dead, leaked, books⟩ := single.books traffic (by simp [present])
  rw [Admits, counted] at admits
  rw [counted]
  cases action with
  | configure maxInflight =>
    obtain rfl := some.inj moved
    rw [registry.admitted_configure, counted] at admits
    omega
  | acquire task priority now =>
    have orderly :
        ReplacesIdleGate registry (.acquire task priority now) := trivial
    have after := single.step orderly moved
    simp only [Registry.step] at moved
    split at moved
    · simp at moved
    · rename_i outside
      obtain rfl := some.inj moved
      have entered : (registry.acquire task priority now).current =
          some (traffic.enter task priority now) := by
        simp [Registry.acquire, present]
      have fresh : task ∉ traffic.tasks := by
        intro inside
        apply outside
        simp [Registry.tasks, present, inside]
      rw [after.admitted_eq entered] at admits
      have stepped : traffic.step (.acquire task priority now) =
          some (traffic.enter task priority now) := by
        simp [Traffic.step, fresh]
      exact holders_lt_of_admission books stepped admits
  | onCurrent action =>
    have orderly : ReplacesIdleGate registry (.onCurrent action) := trivial
    have after := single.step orderly moved
    simp only [Registry.step] at moved
    split at moved
    · simp at moved
    · simp only [present] at moved
      obtain ⟨later, stepped, rfl⟩ := map_eq_some_iff.mp moved
      rw [after.admitted_eq rfl] at admits
      exact holders_lt_of_admission books stepped admits
  | onDiscarded index action =>
    simp only [Registry.step] at moved
    split at moved
    · simp at moved
    · rename_i past
      split at moved
      · simp at moved
      · rename_i stale found
        have stuck := Traffic.step_eq_none_of_quiescent
          (single.discardedIdle configured stale
            (mem_of_getElem? found))
          (by simpa using past)
        simp [stuck] at moved
  | releaseUncapped task =>
    simp [Registry.step, single.uncappedIdle configured] at moved

/--
In every run which installs a new gate only while no request holds or awaits
a permit of the slot, each admission under a cap finds fewer requests
admitted than the cap.
-/
theorem admission_below_cap_of_idle_replacement
    (slotName : String) (actions : List RegistryAction)
    (registry next : Registry) (action : RegistryAction) (limit : Nat)
    (run : Run Registry.step ReplacesIdleGate (.empty slotName)
      actions registry)
    (moved : registry.step action = some next)
    (admits : Admits registry next)
    (capped : registry.cap = some limit) :
    registry.admitted < limit := by
  have single : SingleGate registry :=
    run.invariant SingleGate (SingleGate.empty slotName)
      fun _ _ _ single orderly stepped => single.step orderly stepped
  exact single.admission_below_cap moved admits capped

/-- The registry after `actions`, when no step of them is disabled. -/
def registryAfter (actions : List RegistryAction) : Registry :=
  (exec Registry.step Anything (.empty "flm") actions).getD (.empty "flm")

/-- A cap which is changed while no request is admitted. -/
def reconfigured : List RegistryAction :=
  [.configure (some 1), .acquire 1 1 0, .onCurrent (.release 1),
    .configure (some 2), .acquire 2 1 0]

/-- A gate is replaced between two requests. -/
theorem admission_below_cap_serial :
    (registryAfter reconfigured).admitted < 2 :=
  admission_below_cap_of_idle_replacement "flm" reconfigured _
    (registryAfter (reconfigured ++ [.acquire 3 1 0])) (.acquire 3 1 0) 2
    (Run.of_exec (by decide +kernel)) (by decide +kernel)
    (by rw [Admits]; decide +kernel) (by decide +kernel)

/--
The cap flips from one to two and back while a request is in flight.  The
gate now in place has never heard of that request, and it admits a second
one under a cap of one.
-/
theorem cap_flip_admits_beyond_cap :
    ∃ registry next,
      Run Registry.step Anything (.empty "flm")
          [.configure (some 1), .acquire 1 1 0, .configure (some 2),
            .configure (some 1)] registry ∧
        registry.step (.acquire 2 1 0) = some next ∧
        Admits registry next ∧
        registry.cap = some 1 ∧
        ¬ registry.admitted < 1 := by
  refine ⟨registryAfter
      [.configure (some 1), .acquire 1 1 0, .configure (some 2),
        .configure (some 1)],
    registryAfter
      [.configure (some 1), .acquire 1 1 0, .configure (some 2),
        .configure (some 1), .acquire 2 1 0],
    Run.of_exec (by decide), by decide, rfl, rfl, by decide⟩

end Hal0.Dispatcher.Admission
