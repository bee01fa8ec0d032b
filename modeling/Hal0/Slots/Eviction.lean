import Hal0.Slots.InFlight
import Hal0.Slots.PreloadEvict

/-!
# Automatic eviction beside dispatched requests

Three passes evict slots: `sweep_idle_once`, `pressure_evict_once`, and the
evictions of a pre-load admission.  Each makes its last check of a slot
(`_serving_count` is zero, the state is resident, the config allows it), and
later calls `unload`, which waits for the slot's lock and re-checks nothing.
The two sweeps check one slot and unload it; a pre-load admission checks all
its candidates before it unloads the first.  Between check and unload a pass
may wait for the slot's lock or for the evictions before it.

The requests are those of `Hal0.Slots.InFlight`, without renames.
-/

namespace Hal0.Slots.Eviction

open List Option
open Hal0.Transition
open Hal0.Handles
open Hal0.Slots.InFlight
open Hal0.Slots.PreloadEvict

/-- Why a pass unloads slots. -/
inductive PassKind where
  | idleSweep
  | pressure
  | preload
deriving DecidableEq, Repr

/-- A pass and the slots before it. -/
structure Pass where
  task : TaskId
  kind : PassKind
  pending : List SlotName
deriving DecidableEq, Repr

/-- The slots, and the passes over them. -/
structure Host where
  manager : Manager
  states : SlotName → SlotState
  passes : List Pass

/-- A request's step, or one of a pass. -/
inductive Action where
  | forward (action : InFlight.Action)
  | observe (slot : SlotName) (state : SlotState)
  | check (task : TaskId) (kind : PassKind) (swept : List SweptSlot)
  | unload (pass : Pass)
  | giveUp (pass : Pass)
deriving DecidableEq, Repr

namespace Host

/-- No passes yet. -/
def boot (identity : IdentityStore) (states : SlotName → SlotState) :
    Host :=
  ⟨.boot identity, states, []⟩

/-- A swept slot with the count and the state the manager shows for it. -/
def observed (host : Host) (swept : SweptSlot) : SweptSlot :=
  { swept with
    servingCount :=
      host.manager.servingCount (host.manager.registry.key swept.name).2
    state := host.states swept.name }

/-- The last check of a pass: every slot it takes is eligible. -/
def passesCheck (host : Host) (kind : PassKind) (swept : List SweptSlot) :
    Bool :=
  (kind == .preload || swept.length == 1) &&
    swept.all fun slot => (host.observed slot).candidate.eligible

/-- The pass goes on with the rest of its slots. -/
def advance (host : Host) (pass : Pass) (rest : List SlotName) : Host :=
  { host with
    passes :=
      if rest = [] then host.passes.erase pass
      else { pass with pending := rest } :: host.passes.erase pass }

/-- The interleavings of requests and eviction passes. -/
def step : StepFunction Host Action
  | host, .forward action =>
    if action.renames then none
    else (host.manager.step action).map fun manager =>
      { host with manager := manager }
  | host, .observe slot state =>
    some { host with states := Function.update host.states slot state }
  | host, .check task kind swept =>
    if task ∈ host.passes.map Pass.task then none
    else if host.passesCheck kind swept then
      some { host with
        passes := ⟨task, kind, swept.map SweptSlot.name⟩ :: host.passes }
    else none
  | host, .unload pass =>
    if pass ∈ host.passes then
      match pass.pending with
      | [] => none
      | slot :: rest =>
        if host.states slot = .offline then
          some (host.advance pass rest)
        else
          some { host.advance pass rest with
            states := Function.update host.states slot .unloading }
    else none
  | host, .giveUp pass =>
    if pass ∈ host.passes then
      some { host with passes := host.passes.erase pass }
    else none

/-- The action is an eviction which enters `UNLOADING` for the slot. -/
def Evicts (host : Host) (action : Action) (slot : SlotName) : Prop :=
  ∃ pass rest, action = .unload pass ∧ pass ∈ host.passes ∧
    pass.pending = slot :: rest ∧ host.states slot ≠ .offline

end Host

/--
A check takes a slot which has requests in flight, or a request takes a
ticket on a slot between its check and its unload.
-/
def Host.disturbs (host : Host) : Action → Bool
  | .check _ _ swept =>
    swept.any fun slot => 0 < host.manager.inFlightCount slot.name
  | .forward (.dispatch _ slot _) =>
    host.passes.any fun pass => pass.pending.contains slot
  | _ => false

/-- No unload disturbs a request. -/
def QuietEviction (host : Host) (action : Action) : Prop :=
  host.disturbs action = false

instance (host : Host) (action : Action) :
    Decidable (QuietEviction host action) :=
  inferInstanceAs (Decidable (_ = false))

/-! ## A slot without requests stays so until the next ticket -/

/-- Every request of the slot has dropped its ticket and its count. -/
def Clear (manager : Manager) (slot : SlotName) : Prop :=
  ∀ request ∈ manager.requests, request.slot = slot →
    request.phase = .settling false

namespace Clear

variable {manager next : Manager} {slot : SlotName}
  {action : InFlight.Action}

theorem tally_eq_zero {test : Phase → Bool} (clear : Clear manager slot)
    (out : test (.settling false) = false) :
    tally test manager.requests slot = 0 := by
  apply countP_eq_zero.mpr
  intro request present inside
  simp only [Bool.and_eq_true, decide_eq_true_eq] at inside
  rw [clear request present inside.1, out] at inside
  cases inside.2

theorem inFlightCount_eq_zero_iff {leaked : SlotName → Nat}
    (accounted : Accounted manager leaked) :
    manager.inFlightCount slot = 0 ↔
      Clear manager slot ∧ leaked slot = 0 := by
  have serves := accounted.kept.counts_key slot accounted.serving
  have tickets := accounted.kept.counts_key slot accounted.tickets
  simp only [Manager.inFlightCount]
  rw [serves, tickets]
  constructor
  · intro zero
    have noTicket : tally Phase.isTicketed manager.requests slot = 0 := by
      omega
    have noCount : tally Phase.isCounted manager.requests slot = 0 := by
      omega
    refine ⟨?_, by omega⟩
    rintro request present rfl
    have unticketed : request.phase.isTicketed ≠ true := by
      intro ticketed
      have positive := tally_pos present ticketed
      omega
    have uncounted : request.phase.isCounted ≠ true := by
      intro counted
      have positive := tally_pos present counted
      omega
    cases phase : request.phase <;>
      simp_all [Phase.isTicketed, Phase.isCounted]
  · rintro ⟨clear, nothing⟩
    rw [clear.tally_eq_zero rfl, clear.tally_eq_zero rfl, nothing]

theorem slot_ne (clear : Clear manager slot) {request : Request}
    (present : request ∈ manager.requests)
    (busy : request.phase ≠ .settling false) :
    request.slot ≠ slot := by
  intro ours
  exact busy (clear request present ours)

theorem of_subset {other : Manager} (clear : Clear manager slot)
    (fewer : other.requests ⊆ manager.requests) :
    Clear other slot := by
  intro request present ours
  exact clear request (fewer present) ours

theorem of_move {other : Manager} (clear : Clear manager slot)
    {request : Request} {phase : Phase} (elsewhere : request.slot ≠ slot)
    (moved : other.requests ⊆
      { request with phase := phase } :: manager.requests) :
    Clear other slot := by
  intro candidate present ours
  rcases mem_cons.mp (moved present) with rfl | old
  · exact absurd ours elsewhere
  · exact clear candidate old ours

theorem finish_requests (manager : Manager) (request : Request) :
    (manager.finish request).requests =
      manager.requests.erase request := by
  simp only [Manager.finish]
  split <;> rfl

theorem move_subset (manager : Manager) (request : Request)
    (phase : Phase) :
    (manager.move request phase).requests ⊆
      { request with phase := phase } :: manager.requests :=
  cons_subset_cons _ erase_subset

theorem step (clear : Clear manager slot)
    (stays : action.renames = false)
    (quiet : ∀ task streams, action ≠ .dispatch task slot streams)
    (moved : manager.step action = some next) :
    Clear next slot := by
  have ended : ∀ request : Request,
      (manager.finish request).requests ⊆ manager.requests := by
    intro request
    rw [finish_requests]
    exact erase_subset
  cases Manager.moves_of_step moved with
  | @dispatch task other streams fresh =>
    intro request present ours
    rcases mem_cons.mp present with rfl | old
    · exact absurd (ours ▸ rfl) (quiet task streams)
    · exact clear request old ours
  | abort present waiting => exact clear.of_subset (ended _)
  | serve present waiting =>
    exact clear.of_move (clear.slot_ne present (by simp [waiting]))
      (move_subset _ _ _)
  | @enter request current present waiting free =>
    have elsewhere := clear.slot_ne present (by simp [waiting])
    simp only [Manager.servingEnter]
    split
    · exact clear.of_move elsewhere (move_subset _ request _)
    · exact clear.of_move elsewhere (move_subset _ request _)
  | entered present entering =>
    exact clear.of_move (clear.slot_ne present (by simp [entering]))
      (move_subset _ _ _)
  | enterFailed present entering => exact clear.of_subset (ended _)
  | respond present answered streams =>
    exact clear.of_move (clear.slot_ne present (by simp [answered]))
      (move_subset _ _ _)
  | releaseForward present answered =>
    exact clear.of_move (clear.slot_ne present (by simp [answered]))
      (move_subset _ _ _)
  | releaseBody present streaming =>
    exact clear.of_move (clear.slot_ne present (by simp [streaming]))
      (move_subset _ _ _)
  | @exit request inForward current present releasing free =>
    have elsewhere := clear.slot_ne present (by simp [releasing])
    have settled : Clear ((manager.countDown request.slot).1.move request
        (.settling inForward)) slot :=
      clear.of_move elsewhere (move_subset _ request _)
    simp only [Manager.servingExit]
    split
    · exact settled
    · refine settled.of_subset ?_
      rw [finish_requests]
      exact erase_subset
  | exitCancelled present releasing => exact clear.of_subset (ended _)
  | exited present settling => exact clear.of_subset (ended _)
  | advance present returned =>
    exact clear.of_move (clear.slot_ne present (by simp [returned]))
      (move_subset _ _ _)
  | dropResponse present returned => exact clear.of_subset (ended _)
  | touch => exact clear
  | identify => exact clear
  | rename distinct relabelled => cases stays

end Clear

/-! ## Quiet evictions -/

/-- The books are kept, and every slot past its last check is clear. -/
structure Quiet (host : Host) (leaked : SlotName → Nat) : Prop where
  accounted : Accounted host.manager leaked
  pending : ∀ pass ∈ host.passes, ∀ slot ∈ pass.pending,
    Clear host.manager slot ∧ leaked slot = 0

namespace Quiet

variable {host next : Host} {leaked : SlotName → Nat} {action : Action}

theorem boot (identity : IdentityStore) (states : SlotName → SlotState) :
    Quiet (.boot identity states) fun _ => 0 := by
  refine ⟨.boot identity, ?_⟩
  intro pass listed
  cases listed

theorem forward (quiet : Quiet host leaked) {action : InFlight.Action}
    {manager : Manager} (stays : action.renames = false)
    (permitted : QuietEviction host (.forward action))
    (moved : host.manager.step action = some manager) :
    ∃ others, Quiet { host with manager := manager } others := by
  obtain ⟨others, kept, leaks⟩ := quiet.accounted.step stays moved
  refine ⟨others, kept, ?_⟩
  intro pass listed slot waiting
  obtain ⟨clear, nothing⟩ := quiet.pending pass listed slot waiting
  have untaken : ∀ task streams, action ≠ .dispatch task slot streams := by
    rintro task streams rfl
    have taken : host.disturbs (.forward (.dispatch task slot streams)) =
        true :=
      any_eq_true.mpr ⟨pass, listed, by simpa using waiting⟩
    rw [QuietEviction, taken] at permitted
    cases permitted
  refine ⟨clear.step stays untaken moved, ?_⟩
  rcases leaks with rfl | ⟨-, request, present, counted, elsewhere⟩
  · exact nothing
  · have apart : slot ≠ request.slot := by
      rintro rfl
      rw [clear request present rfl] at counted
      cases counted
    rw [elsewhere slot apart]
    exact nothing

theorem advance (quiet : Quiet host leaked) {pass : Pass} {slot : SlotName}
    {rest : List SlotName} (listed : pass ∈ host.passes)
    (order : pass.pending = slot :: rest) :
    Quiet (host.advance pass rest) leaked := by
  refine ⟨quiet.accounted, ?_⟩
  intro other present waiting member
  simp only [Host.advance] at present
  split at present
  · exact quiet.pending other (mem_of_mem_erase present) waiting member
  · rcases mem_cons.mp present with rfl | old
    · have ahead : waiting ∈ pass.pending := by
        rw [order]
        exact mem_cons_of_mem slot member
      exact quiet.pending pass listed waiting ahead
    · exact quiet.pending other (mem_of_mem_erase old) waiting member

theorem check (quiet : Quiet host leaked) {task : TaskId} {kind : PassKind}
    {swept : List SweptSlot}
    (permitted : QuietEviction host (.check task kind swept)) :
    Quiet
      { host with
        passes := ⟨task, kind, swept.map SweptSlot.name⟩ :: host.passes }
      leaked := by
  refine ⟨quiet.accounted, ?_⟩
  intro pass listed slot waiting
  rcases mem_cons.mp listed with rfl | old
  · obtain ⟨candidate, member, rfl⟩ := mem_map.mp waiting
    apply (Clear.inFlightCount_eq_zero_iff quiet.accounted).mp
    have idle := any_eq_false.mp permitted candidate member
    simpa using idle
  · exact quiet.pending pass old slot waiting

theorem step (quiet : Quiet host leaked)
    (permitted : QuietEviction host action)
    (moved : host.step action = some next) :
    ∃ others, Quiet next others := by
  cases action with
  | forward inner =>
    simp only [Host.step, ite_none_left_eq_some] at moved
    obtain ⟨stays, forwarded⟩ := moved
    obtain ⟨manager, went, rfl⟩ := map_eq_some_iff.mp forwarded
    exact quiet.forward (by simpa using stays) permitted went
  | observe slot state =>
    obtain rfl := some.inj moved
    exact ⟨leaked, quiet.accounted, quiet.pending⟩
  | check task kind swept =>
    simp only [Host.step, ite_none_left_eq_some,
      ite_none_right_eq_some] at moved
    obtain ⟨-, -, same⟩ := moved
    exact ⟨leaked, some.inj same ▸ quiet.check permitted⟩
  | unload pass =>
    simp only [Host.step, ite_none_right_eq_some] at moved
    obtain ⟨listed, unloaded⟩ := moved
    split at unloaded
    · cases unloaded
    · rename_i slot rest order
      have advanced := quiet.advance listed order
      split at unloaded
      · exact ⟨leaked, some.inj unloaded ▸ advanced⟩
      · exact ⟨leaked, some.inj unloaded ▸
          ⟨advanced.accounted, advanced.pending⟩⟩
  | giveUp pass =>
    simp only [Host.step, ite_none_right_eq_some] at moved
    obtain ⟨listed, same⟩ := moved
    obtain rfl := some.inj same
    refine ⟨leaked, quiet.accounted, ?_⟩
    intro other present
    exact quiet.pending other (mem_of_mem_erase present)

end Quiet

/--
In every run in which slots are checked only while nothing is in flight on
them, and no request takes a ticket on a slot between its check and its
unload, no eviction enters `UNLOADING` for a slot with requests in flight.
-/
theorem eviction_spares_requests_of_quiet_checks
    (identity : IdentityStore) (states : SlotName → SlotState)
    (actions : List Action) (host : Host)
    (run : Run Host.step QuietEviction (.boot identity states) actions host)
    (action : Action) (slot : SlotName)
    (evicts : host.Evicts action slot) :
    host.manager.inFlightCount slot = 0 := by
  have quiet : ∃ leaked, Quiet host leaked :=
    run.invariant (fun state => ∃ leaked, Quiet state leaked)
      ⟨_, .boot identity states⟩ fun _ _ _ kept permitted moved =>
        kept.elim fun _ quiet => quiet.step permitted moved
  obtain ⟨leaked, quiet⟩ := quiet
  obtain ⟨pass, rest, -, listed, order, -⟩ := evicts
  apply (Clear.inFlightCount_eq_zero_iff quiet.accounted).mpr
  apply quiet.pending pass listed
  rw [order]
  exact mem_cons_self

/-- The resident slot `chat`, idle past its limit, as a sweep sees it. -/
def sweptChat : SweptSlot := ⟨"chat", 0, 8, 0, .ready, .evictable 50⟩

/-- The idle sweep's pass over `chat`. -/
def chatSweep : Pass := ⟨9, .idleSweep, ["chat"]⟩

/-- An idle slot is evicted. -/
theorem eviction_spares_requests_idle_slot :
    ∃ host,
      Run Host.step QuietEviction (.boot .empty fun _ => .ready)
          [.forward (.dispatch 1 "chat" false),
            .forward (.abort ⟨1, "chat", false, .ticketed⟩),
            .check 9 .idleSweep [sweptChat]] host ∧
        host.Evicts (.unload chatSweep) "chat" ∧
        host.manager.inFlightCount "chat" = 0 := by
  obtain ⟨host, run, ready⟩ := Run.exists_of_exec
    Host.step QuietEviction (.boot .empty fun _ => .ready)
    [.forward (.dispatch 1 "chat" false),
      .forward (.abort ⟨1, "chat", false, .ticketed⟩),
      .check 9 .idleSweep [sweptChat]]
    (fun host => chatSweep ∈ host.passes ∧ host.states "chat" ≠ .offline)
    (by decide +kernel)
  obtain ⟨listed, live⟩ := of_decide_eq_true ready
  have evicts : host.Evicts (.unload chatSweep) "chat" :=
    ⟨chatSweep, [], rfl, listed, rfl, live⟩
  exact ⟨host, run, evicts,
    eviction_spares_requests_of_quiet_checks _ _ _ host run _ _ evicts⟩

/--
A request holds its ticket and waits for admission or for the readiness
probe; the idle sweep sees no serving request and unloads the slot.
-/
theorem sweep_evicts_under_ticket :
    ∃ host,
      Run Host.step Anything (.boot .empty fun _ => .ready)
          [.forward (.dispatch 1 "chat" false),
            .check 9 .idleSweep [sweptChat]] host ∧
        host.Evicts (.unload chatSweep) "chat" ∧
        (host.step (.unload chatSweep)).isSome ∧
        0 < host.manager.inFlightCount "chat" := by
  obtain ⟨host, run, ready⟩ := Run.exists_of_exec
    Host.step Anything (.boot .empty fun _ => .ready)
    [.forward (.dispatch 1 "chat" false),
      .check 9 .idleSweep [sweptChat]]
    (fun host => (chatSweep ∈ host.passes ∧
      host.states "chat" ≠ .offline) ∧
      (host.step (.unload chatSweep)).isSome ∧
      0 < host.manager.inFlightCount "chat") (by decide +kernel)
  obtain ⟨⟨listed, live⟩, enabled, busy⟩ := of_decide_eq_true ready
  exact ⟨host, run, ⟨chatSweep, [], rfl, listed, rfl, live⟩, enabled, busy⟩

end Hal0.Slots.Eviction
