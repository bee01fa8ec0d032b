import Hal0.Core.Transition
import Mathlib.Data.List.Sort
import Mathlib.Data.List.Perm.Basic

/-!
# The per-slot admission gate

`SlotAdmission` is the ticket queue in front of a slot with `max_inflight`.
Its `asyncio.Lock` is only ever held across synchronous code, so taking it
never suspends and the critical sections below are single steps.

`Traffic` places the gate in the event loop: every task is outside
`acquire`, suspended on its ticket's event, woken but not yet resumed, or a
holder of one permit.  The steps are those of any interleaving of `acquire`,
`release`, acquire timeouts and cancellations of tasks suspended in
`acquire`.
-/

namespace Hal0.Dispatcher.Admission

open List
open Hal0.Transition

/-! ## The gate -/

abbrev TaskId := Nat

/-- A queued request: `_Ticket` without its event. -/
structure Ticket where
  priority : Int
  seq : Nat
  enqueuedAt : Nat
deriving DecidableEq, Repr

/-- Tickets wait by priority, then by age. -/
def Ticket.sortKey (ticket : Ticket) : Int × Nat :=
  (ticket.priority, ticket.seq)

/-- The order of `(priority, seq)` tuples. -/
def Ticket.Before (left right : Ticket) : Prop :=
  left.priority < right.priority ∨
    (left.priority = right.priority ∧ left.seq ≤ right.seq)

instance : DecidableRel Ticket.Before := fun left right =>
  inferInstanceAs
    (Decidable (left.priority < right.priority ∨
      (left.priority = right.priority ∧ left.seq ≤ right.seq)))

/-- What a request is told that waited too long. -/
structure AdmissionTimeout where
  slotName : String
  waited : Nat
  queueDepth : Nat
deriving DecidableEq, Repr

/-- One inflight gate; a gate with `max_inflight < 1` cannot be built. -/
structure SlotAdmission where
  slotName : String
  maxInflight : Nat
  positive : 1 ≤ maxInflight
  inflight : Nat
  waiters : List Ticket
  nextSeq : Nat
deriving DecidableEq, Repr

namespace SlotAdmission

/-- `SlotAdmission.__init__`. -/
def new (slotName : String) (maxInflight : Nat) :
    Except String SlotAdmission :=
  if positive : 1 ≤ maxInflight then
    .ok ⟨slotName, maxInflight, positive, 0, [], 0⟩
  else
    .error "max_inflight must be >= 1"

theorem new_unused {slotName : String} {maxInflight : Nat}
    {gate : SlotAdmission} (built : new slotName maxInflight = .ok gate) :
    gate.inflight = 0 ∧ gate.waiters = [] := by
  simp only [new] at built
  split at built
  · obtain rfl := Except.ok.inj built
    exact ⟨rfl, rfl⟩
  · cases built

/-- The ticket `acquire` queues a request under. -/
def issue (gate : SlotAdmission) (priority : Int) (now : Nat) : Ticket :=
  ⟨priority, gate.nextSeq, now⟩

/--
The critical section at the head of `acquire`.  The request is admitted at
once, or it is queued under the returned ticket.
-/
def acquire (gate : SlotAdmission) (priority : Int) (now : Nat) :
    SlotAdmission × Option Ticket :=
  if gate.inflight < gate.maxInflight ∧ gate.waiters = [] then
    ({ gate with inflight := gate.inflight + 1 }, none)
  else
    let ticket := gate.issue priority now
    ({ gate with
        waiters := (gate.waiters ++ [ticket]).insertionSort Ticket.Before
        nextSeq := gate.nextSeq + 1 },
      some ticket)

/--
The `except TimeoutError` branch of `acquire`.  A ticket which is no longer
queued was granted before the timeout was handled, and its request proceeds.
-/
def expire (gate : SlotAdmission) (ticket : Ticket) (now : Nat) :
    SlotAdmission × Except AdmissionTimeout Unit :=
  if ticket.sortKey ∈ gate.waiters.map Ticket.sortKey then
    let remaining :=
      gate.waiters.eraseP fun queued => queued.sortKey = ticket.sortKey
    ({ gate with waiters := remaining },
      .error ⟨gate.slotName, now - ticket.enqueuedAt, remaining.length⟩)
  else
    (gate, .ok ())

/-- `release`; the returned ticket is the one whose event is set. -/
def release (gate : SlotAdmission) : SlotAdmission × Option Ticket :=
  match gate.waiters with
  | ticket :: rest => ({ gate with waiters := rest }, some ticket)
  | [] => ({ gate with inflight := gate.inflight - 1 }, none)

end SlotAdmission

/-! ## The gate among its tasks -/

/-- A task suspended in `acquire` together with its own ticket. -/
structure Waiter where
  task : TaskId
  ticket : Ticket
deriving DecidableEq, Repr

/--
A gate and the tasks which use it.  `suspended` tasks wait for their ticket's
event; `woken` tasks have been handed the gate and have not resumed;
`holders` returned from `acquire` and have not called `release`.
-/
structure Traffic where
  gate : SlotAdmission
  holders : List TaskId
  suspended : List Waiter
  woken : List Waiter
deriving DecidableEq, Repr

/-- A step of a request at the gate. -/
inductive Action where
  | acquire (task : TaskId) (priority : Int) (now : Nat)
  | resume (waiter : Waiter)
  | timeout (waiter : Waiter) (now : Nat)
  | cancel (waiter : Waiter)
  | release (task : TaskId)
deriving DecidableEq, Repr

namespace Traffic

/-- A gate before its first request. -/
def idle (gate : SlotAdmission) : Traffic := ⟨gate, [], [], []⟩

/-- Every task which is inside the gate's code or holds a permit. -/
def tasks (traffic : Traffic) : List TaskId :=
  traffic.holders ++
    (traffic.suspended.map Waiter.task ++ traffic.woken.map Waiter.task)

/-- A task calls `acquire`. -/
def enter (traffic : Traffic) (task : TaskId) (priority : Int)
    (now : Nat) : Traffic :=
  match traffic.gate.acquire priority now with
  | (gate, none) =>
    { traffic with gate := gate, holders := task :: traffic.holders }
  | (gate, some ticket) =>
    { traffic with
      gate := gate
      suspended := ⟨task, ticket⟩ :: traffic.suspended }

/-- A woken task returns from `acquire`. -/
def resume (traffic : Traffic) (waiter : Waiter) : Traffic :=
  { traffic with
    woken := traffic.woken.erase waiter
    holders := waiter.task :: traffic.holders }

/-- A task leaves `acquire` without a permit. -/
def abandon (traffic : Traffic) (waiter : Waiter) : Traffic :=
  { traffic with
    suspended := traffic.suspended.erase waiter
    woken := traffic.woken.erase waiter }

/-- `wait_for` raises `TimeoutError` in a task suspended in `acquire`. -/
def timeout (traffic : Traffic) (waiter : Waiter) (now : Nat) : Traffic :=
  match traffic.gate.expire waiter.ticket now with
  | (gate, .error _) => { traffic.abandon waiter with gate := gate }
  | (gate, .ok _) =>
    { traffic.abandon waiter with
      gate := gate
      holders := waiter.task :: traffic.holders }

/-- Setting a ticket's event wakes the task suspended on it, if any. -/
def signal (traffic : Traffic) (ticket : Ticket) : Traffic :=
  { traffic with
    suspended := traffic.suspended.filter fun waiter => waiter.ticket ≠ ticket
    woken := traffic.woken ++
      traffic.suspended.filter fun waiter => waiter.ticket = ticket }

/-- A holder calls `release`. -/
def leave (traffic : Traffic) (task : TaskId) : Traffic :=
  let departed := { traffic with holders := traffic.holders.erase task }
  match traffic.gate.release with
  | (gate, none) => { departed with gate := gate }
  | (gate, some ticket) => { departed.signal ticket with gate := gate }

/-- The interleavings of tasks around one gate. -/
def step : StepFunction Traffic Action
  | traffic, .acquire task priority now =>
    if task ∈ traffic.tasks then none
    else some (traffic.enter task priority now)
  | traffic, .resume waiter =>
    if waiter ∈ traffic.woken then some (traffic.resume waiter) else none
  | traffic, .timeout waiter now =>
    if waiter ∈ traffic.suspended ∨ waiter ∈ traffic.woken then
      some (traffic.timeout waiter now)
    else none
  | traffic, .cancel waiter =>
    if waiter ∈ traffic.suspended ∨ waiter ∈ traffic.woken then
      some (traffic.abandon waiter)
    else none
  | traffic, .release task =>
    if task ∈ traffic.holders then some (traffic.leave task) else none

/-- What one step can do, with the guard it passed. -/
inductive Moves (traffic : Traffic) : Action → Traffic → Prop where
  | acquire {task : TaskId} {priority : Int} {now : Nat}
      (outside : task ∉ traffic.tasks) :
      Moves traffic (.acquire task priority now)
        (traffic.enter task priority now)
  | resume {waiter : Waiter} (woken : waiter ∈ traffic.woken) :
      Moves traffic (.resume waiter) (traffic.resume waiter)
  | timeoutSuspended {waiter : Waiter} {now : Nat}
      (suspended : waiter ∈ traffic.suspended) :
      Moves traffic (.timeout waiter now) (traffic.timeout waiter now)
  | timeoutWoken {waiter : Waiter} {now : Nat}
      (woken : waiter ∈ traffic.woken) :
      Moves traffic (.timeout waiter now) (traffic.timeout waiter now)
  | cancelSuspended {waiter : Waiter}
      (suspended : waiter ∈ traffic.suspended) :
      Moves traffic (.cancel waiter) (traffic.abandon waiter)
  | cancelWoken {waiter : Waiter} (woken : waiter ∈ traffic.woken) :
      Moves traffic (.cancel waiter) (traffic.abandon waiter)
  | release {task : TaskId} (holding : task ∈ traffic.holders) :
      Moves traffic (.release task) (traffic.leave task)

/-- What one step can do. -/
theorem moves_of_step {traffic next : Traffic} {action : Action}
    (moved : traffic.step action = some next) :
    traffic.Moves action next := by
  cases action with
  | acquire task priority now =>
    simp only [step, Option.ite_none_left_eq_some] at moved
    obtain ⟨outside, same⟩ := moved
    exact Option.some.inj same ▸ .acquire outside
  | resume waiter =>
    simp only [step, Option.ite_none_right_eq_some] at moved
    obtain ⟨woken, same⟩ := moved
    exact Option.some.inj same ▸ .resume woken
  | timeout waiter now =>
    simp only [step, Option.ite_none_right_eq_some] at moved
    obtain ⟨suspended | woken, same⟩ := moved
    · exact Option.some.inj same ▸ .timeoutSuspended suspended
    · exact Option.some.inj same ▸ .timeoutWoken woken
  | cancel waiter =>
    simp only [step, Option.ite_none_right_eq_some] at moved
    obtain ⟨suspended | woken, same⟩ := moved
    · exact Option.some.inj same ▸ .cancelSuspended suspended
    · exact Option.some.inj same ▸ .cancelWoken woken
  | release task =>
    simp only [step, Option.ite_none_right_eq_some] at moved
    obtain ⟨holding, same⟩ := moved
    exact Option.some.inj same ▸ .release holding

end Traffic

/-! ## Permit accounting -/

/--
The books of a gate.  `dead` are the queued tickets whose task was cancelled.
`leaked` counts the permits held by nobody: those handed to a dead ticket,
and those of tasks cancelled after they had been woken.
-/
structure Ledger (traffic : Traffic) (dead : List Ticket)
    (leaked : Nat) : Prop where
  inflight :
    traffic.gate.inflight =
      traffic.holders.length + traffic.woken.length + leaked
  bounded : traffic.gate.inflight ≤ traffic.gate.maxInflight
  waiters :
    traffic.gate.waiters.Perm
      (traffic.suspended.map Waiter.ticket ++ dead)
  distinct :
    ((traffic.gate.waiters ++ traffic.woken.map Waiter.ticket).map
      Ticket.seq).Nodup
  issued :
    ∀ ticket ∈ traffic.gate.waiters ++ traffic.woken.map Waiter.ticket,
      ticket.seq < traffic.gate.nextSeq

namespace Ledger

variable {traffic : Traffic} {dead : List Ticket} {leaked : Nat}
  {waiter : Waiter} {task : TaskId} {priority : Int} {now : Nat}

theorem idle {gate : SlotAdmission}
    (unused : gate.inflight = 0) (empty : gate.waiters = []) :
    Ledger (Traffic.idle gate) [] 0 := by
  constructor <;> simp [Traffic.idle, unused, empty]

section

variable (books : Ledger traffic dead leaked)
include books

theorem ticket_eq {left right : Ticket}
    (leftQueued : left ∈
      traffic.gate.waiters ++ traffic.woken.map Waiter.ticket)
    (rightQueued : right ∈
      traffic.gate.waiters ++ traffic.woken.map Waiter.ticket)
    (sameSeq : left.seq = right.seq) :
    left = right :=
  inj_on_of_nodup_map books.distinct leftQueued rightQueued sameSeq

theorem tickets_nodup :
    (traffic.suspended.map Waiter.ticket ++ dead).Nodup := by
  have distinct := books.distinct
  rw [map_append] at distinct
  exact books.waiters.nodup_iff.mp
    (List.Nodup.of_map _ distinct.of_append_left)

theorem queued_ne_woken {queued : Ticket}
    (member : queued ∈ traffic.gate.waiters) (woken : waiter ∈ traffic.woken) :
    queued.seq ≠ waiter.ticket.seq := by
  have distinct := books.distinct
  rw [map_append, nodup_append] at distinct
  exact distinct.2.2 queued.seq (mem_map_of_mem member)
    waiter.ticket.seq (mem_map_of_mem (mem_map_of_mem woken))

theorem queued_of_suspended (suspended : waiter ∈ traffic.suspended) :
    waiter.ticket ∈ traffic.gate.waiters :=
  books.waiters.mem_iff.mpr
    (mem_append_left _ (mem_map_of_mem suspended))

theorem not_woken_of_suspended (suspended : waiter ∈ traffic.suspended) :
    waiter ∉ traffic.woken := by
  intro woken
  exact books.queued_ne_woken
    (books.queued_of_suspended suspended) woken rfl

/-- A request is admitted or queued. -/
theorem enter :
    Ledger (traffic.enter task priority now) dead leaked := by
  by_cases room :
      traffic.gate.inflight < traffic.gate.maxInflight ∧
        traffic.gate.waiters = []
  · have entered :
        traffic.enter task priority now =
          { traffic with
            gate := { traffic.gate with
              inflight := traffic.gate.inflight + 1 }
            holders := task :: traffic.holders } := by
      simp [Traffic.enter, SlotAdmission.acquire, room]
    rw [entered]
    refine ⟨?_, room.1, books.waiters, books.distinct, books.issued⟩
    have balance := books.inflight
    simp only [length_cons]
    omega
  · have entered :
        traffic.enter task priority now =
          { traffic with
            gate := { traffic.gate with
              waiters :=
                (traffic.gate.waiters ++
                  [traffic.gate.issue priority now]).insertionSort
                    Ticket.Before
              nextSeq := traffic.gate.nextSeq + 1 }
            suspended :=
              ⟨task, traffic.gate.issue priority now⟩ ::
                traffic.suspended } := by
      simp only [Traffic.enter, SlotAdmission.acquire, if_neg room]
    have queued :
        ((traffic.gate.waiters ++
          [traffic.gate.issue priority now]).insertionSort
            Ticket.Before).Perm
          (traffic.gate.issue priority now :: traffic.gate.waiters) :=
      (perm_insertionSort _ _).trans (perm_append_singleton _ _)
    rw [entered]
    refine ⟨books.inflight, books.bounded, ?_, ?_, ?_⟩
    · exact queued.trans (books.waiters.cons _)
    · have fresh :
          traffic.gate.nextSeq ∉
            (traffic.gate.waiters ++
              traffic.woken.map Waiter.ticket).map Ticket.seq := by
        intro member
        obtain ⟨ticket, ticketQueued, ticketSeq⟩ := mem_map.mp member
        have issued := books.issued ticket ticketQueued
        omega
      have moved :=
        (queued.append_right
          (traffic.woken.map Waiter.ticket)).map Ticket.seq
      exact moved.nodup_iff.mpr (nodup_cons.mpr ⟨fresh, books.distinct⟩)
    · intro ticket member
      have moved :=
        queued.append_right (traffic.woken.map Waiter.ticket)
      rcases mem_cons.mp (moved.mem_iff.mp member) with rfl | old
      · exact Nat.lt_succ_self _
      · exact Nat.lt_succ_of_lt (books.issued ticket old)

/-- A woken request holds its permit. -/
theorem resume (woken : waiter ∈ traffic.woken) :
    Ledger (traffic.resume waiter) dead leaked := by
  have removed := perm_cons_erase woken
  have tickets := (removed.map Waiter.ticket).append_left
    traffic.gate.waiters
  have middle :
      (traffic.gate.waiters ++
        (waiter :: traffic.woken.erase waiter).map Waiter.ticket).Perm
        (waiter.ticket ::
          (traffic.gate.waiters ++
            (traffic.woken.erase waiter).map Waiter.ticket)) :=
    perm_middle
  have split := tickets.trans middle
  refine ⟨?_, books.bounded, books.waiters, ?_, ?_⟩
  · have balance := books.inflight
    have count := removed.length_eq
    simp only [Traffic.resume, length_cons] at count ⊢
    omega
  · have distinct := (split.map Ticket.seq).nodup_iff.mp books.distinct
    exact (nodup_cons.mp distinct).2
  · intro ticket member
    exact books.issued ticket
      (split.mem_iff.mpr (mem_cons_of_mem _ member))

theorem cancel_suspended (suspended : waiter ∈ traffic.suspended) :
    Ledger (traffic.abandon waiter) (waiter.ticket :: dead) leaked := by
  have removed := (perm_cons_erase suspended).map Waiter.ticket
  have same : traffic.woken.erase waiter = traffic.woken :=
    erase_of_not_mem (books.not_woken_of_suspended suspended)
  refine ⟨?_, books.bounded, ?_, ?_, ?_⟩
  · simpa [Traffic.abandon, same] using books.inflight
  · have moved := books.waiters.trans (removed.append_right dead)
    exact moved.trans perm_middle.symm
  · simpa [Traffic.abandon, same] using books.distinct
  · simpa [Traffic.abandon, same] using books.issued

theorem cancel_woken (woken : waiter ∈ traffic.woken) :
    Ledger (traffic.abandon waiter) dead (leaked + 1) := by
  have resumed := books.resume woken
  have same : traffic.suspended.erase waiter = traffic.suspended :=
    erase_of_not_mem fun suspended =>
      books.not_woken_of_suspended suspended woken
  refine ⟨?_, books.bounded, ?_, resumed.distinct, resumed.issued⟩
  · have balance := resumed.inflight
    simp only [Traffic.resume, Traffic.abandon, length_cons]
      at balance ⊢
    omega
  · simpa [Traffic.abandon, same] using books.waiters

/-- A waiter gives up its ticket. -/
theorem timeout_suspended (suspended : waiter ∈ traffic.suspended) :
    ∃ gate,
      traffic.timeout waiter now =
          { traffic.abandon waiter with gate := gate } ∧
        Ledger (traffic.timeout waiter now) dead leaked := by
  have cancelled := books.cancel_suspended suspended
  have queued := books.queued_of_suspended suspended
  have keyed :
      waiter.ticket.sortKey ∈
        traffic.gate.waiters.map Ticket.sortKey :=
    mem_map_of_mem queued
  obtain ⟨found, before, after, -, sameKey, whole, erased⟩ :=
    exists_of_eraseP (p := fun candidate : Ticket =>
      candidate.sortKey = waiter.ticket.sortKey) queued (by simp)
  have foundIs : found = waiter.ticket := by
    apply books.ticket_eq
    · exact mem_append_left _ (by simp [whole])
    · exact mem_append_left _ queued
    · simp only [Ticket.sortKey, decide_eq_true_eq, Prod.mk.injEq] at sameKey
      exact sameKey.2
  subst found
  have expired :
      traffic.timeout waiter now =
        { traffic.abandon waiter with
          gate := { traffic.gate with waiters := before ++ after } } := by
    simp only [Traffic.timeout, SlotAdmission.expire, if_pos keyed, erased]
  have split :
      traffic.gate.waiters.Perm (waiter.ticket :: (before ++ after)) := by
    rw [whole]
    exact perm_middle
  rw [expired]
  refine ⟨_, rfl, cancelled.inflight, books.bounded, ?_, ?_, ?_⟩
  · have shrunk :=
      (split.symm.trans cancelled.waiters).trans perm_middle
    exact shrunk.cons_inv
  · have distinct :=
      ((split.append_right _).map Ticket.seq).nodup_iff.mp
        cancelled.distinct
    exact (nodup_cons.mp distinct).2
  · intro ticket member
    exact cancelled.issued ticket
      ((split.append_right _).mem_iff.mpr
        (mem_cons_of_mem _ member))

/-- Once woken it is too late to give up. -/
theorem timeout_woken (woken : waiter ∈ traffic.woken) :
    traffic.timeout waiter now = traffic.resume waiter := by
  have granted :
      waiter.ticket.sortKey ∉
        traffic.gate.waiters.map Ticket.sortKey := by
    intro member
    obtain ⟨queued, queuedMember, sameKey⟩ := mem_map.mp member
    exact books.queued_ne_woken queuedMember woken
      (congrArg Prod.snd sameKey)
  have same : traffic.suspended.erase waiter = traffic.suspended :=
    erase_of_not_mem fun suspended =>
      books.not_woken_of_suspended suspended woken
  simp only [Traffic.timeout, SlotAdmission.expire, if_neg granted,
    Traffic.abandon, Traffic.resume, same]

/--
The tasks a signal wakes: the one suspended on the ticket, and none when the
ticket's task was cancelled.
-/
theorem signalled (ticket : Ticket) :
    (traffic.suspended.filter fun waiter => waiter.ticket = ticket).map
        Waiter.ticket =
      if ticket ∈ traffic.suspended.map Waiter.ticket then [ticket]
      else [] := by
  have filtered :
      (traffic.suspended.filter fun waiter => waiter.ticket = ticket).map
          Waiter.ticket =
        (traffic.suspended.map Waiter.ticket).filter (· = ticket) := by
    rw [filter_map]
    rfl
  rw [filtered, filter_eq]
  split
  · rename_i member
    rw [count_eq_one_of_mem books.tickets_nodup.of_append_left member]
    rfl
  · rename_i absent
    rw [count_eq_zero_of_not_mem absent]
    rfl

theorem suspended_split (ticket : Ticket) :
    (traffic.suspended.map Waiter.ticket).Perm
      ((if ticket ∈ traffic.suspended.map Waiter.ticket then [ticket]
        else []) ++
        (traffic.suspended.filter fun waiter =>
          waiter.ticket ≠ ticket).map Waiter.ticket) := by
  have parted :=
    (filter_append_perm
      (fun waiter : Waiter => decide (waiter.ticket = ticket))
      traffic.suspended).map Waiter.ticket
  rw [map_append, books.signalled ticket] at parted
  simpa using parted.symm

end

/-- The state after a release hands the gate to the head of the queue. -/
def handed (traffic : Traffic) (task : TaskId) (ticket : Ticket)
    (rest : List Ticket) : Traffic :=
  { traffic with
    gate := { traffic.gate with waiters := rest }
    holders := traffic.holders.erase task
    suspended := traffic.suspended.filter
      fun waiter => waiter.ticket ≠ ticket
    woken := traffic.woken ++ traffic.suspended.filter
      fun waiter => waiter.ticket = ticket }

/-- The permit goes to a waiter. -/
theorem hand_live {ticket : Ticket} {rest : List Ticket}
    (books : Ledger traffic dead leaked)
    (holding : task ∈ traffic.holders)
    (queue : traffic.gate.waiters = ticket :: rest)
    (live : ticket ∈ traffic.suspended.map Waiter.ticket) :
    Ledger (handed traffic task ticket rest) dead leaked := by
  have woken := books.signalled ticket
  have split := books.suspended_split ticket
  rw [if_pos live] at woken split
  have moved :
      (rest ++ (traffic.woken ++ traffic.suspended.filter
        fun waiter => waiter.ticket = ticket).map Waiter.ticket).Perm
        (traffic.gate.waiters ++ traffic.woken.map Waiter.ticket) := by
    rw [map_append, woken, queue, ← append_assoc]
    exact perm_append_singleton _ _
  refine ⟨?_, books.bounded, ?_, ?_, ?_⟩
  · have balance := books.inflight
    have departed := length_erase_of_mem holding
    have present := length_pos_of_mem holding
    have one := congrArg List.length woken
    simp only [length_map, length_singleton] at one
    simp only [handed, length_append, departed, one]
    omega
  · have waiting := books.waiters.trans (split.append_right dead)
    rw [queue] at waiting
    exact waiting.cons_inv
  · exact (moved.map Ticket.seq).nodup_iff.mpr books.distinct
  · intro entry member
    exact books.issued entry (moved.mem_iff.mp member)

/-- A ticket nobody waits for takes the permit. -/
theorem hand_dead {ticket : Ticket} {rest : List Ticket}
    (books : Ledger traffic dead leaked)
    (holding : task ∈ traffic.holders)
    (queue : traffic.gate.waiters = ticket :: rest)
    (buried : ticket ∈ dead) :
    Ledger (handed traffic task ticket rest) (dead.erase ticket)
      (leaked + 1) := by
  have absent : ticket ∉ traffic.suspended.map Waiter.ticket := fun live =>
    (nodup_append.mp books.tickets_nodup).2.2
      ticket live ticket buried rfl
  have woken := books.signalled ticket
  have split := books.suspended_split ticket
  rw [if_neg absent] at woken split
  rw [map_eq_nil_iff] at woken
  have distinct := books.distinct
  have issued := books.issued
  rw [queue] at distinct issued
  refine ⟨?_, books.bounded, ?_, ?_, ?_⟩
  · have balance := books.inflight
    have departed := length_erase_of_mem holding
    have present := length_pos_of_mem holding
    simp only [handed, woken, append_nil, departed]
    omega
  · have waiting := books.waiters.trans
      ((split.append (perm_cons_erase buried)).trans
        perm_middle)
    rw [queue] at waiting
    exact waiting.cons_inv
  · simpa [handed, woken] using (nodup_cons.mp distinct).2
  · intro entry member
    simp only [handed, woken, append_nil] at member
    exact issued entry (mem_cons_of_mem _ member)

/--
A release keeps the books.  Handing the gate to a dead ticket turns that
ticket into a leaked permit.
-/
theorem leave (books : Ledger traffic dead leaked)
    (holding : task ∈ traffic.holders) :
    ∃ stillDead nowLeaked,
      Ledger (traffic.leave task) stillDead nowLeaked ∧
        nowLeaked + stillDead.length = leaked + dead.length := by
  cases queue : traffic.gate.waiters with
  | nil =>
    have left :
        traffic.leave task =
          { traffic with
            gate := { traffic.gate with
              inflight := traffic.gate.inflight - 1 }
            holders := traffic.holders.erase task } := by
      simp only [Traffic.leave, SlotAdmission.release, queue]
    rw [left]
    refine ⟨dead, leaked, ⟨?_, ?_, books.waiters, books.distinct,
      books.issued⟩, rfl⟩
    · have balance := books.inflight
      have departed := length_erase_of_mem holding
      have present := length_pos_of_mem holding
      simp only [departed]
      omega
    · exact (Nat.sub_le _ _).trans books.bounded
  | cons ticket rest =>
    have left : traffic.leave task = handed traffic task ticket rest := by
      simp only [Traffic.leave, SlotAdmission.release, Traffic.signal,
        queue, handed]
    have queued : ticket ∈
        traffic.suspended.map Waiter.ticket ++ dead :=
      books.waiters.mem_iff.mp (by simp [queue])
    rw [left]
    rcases mem_append.mp queued with live | buried
    · exact ⟨dead, leaked, books.hand_live holding queue live, rfl⟩
    · refine ⟨_, _, books.hand_dead holding queue buried, ?_⟩
      have shorter := length_erase_of_mem buried
      have present := length_pos_of_mem buried
      omega

end Ledger

/-! ## Whole runs -/

/-- The action cancels a task suspended in `acquire`. -/
def Action.isCancel : Action → Bool
  | .cancel _ => true
  | _ => false

/-- How many waiters were cancelled. -/
def cancellations (actions : List Action) : Nat :=
  actions.countP Action.isCancel

variable {traffic : Traffic} {action : Action} {dead : List Ticket}

/-- Every step keeps the count. -/
theorem ledger_step {next : Traffic} {leaked : Nat}
    (books : Ledger traffic dead leaked)
    (moved : traffic.step action = some next) :
    ∃ stillDead nowLeaked, Ledger next stillDead nowLeaked ∧
      nowLeaked + stillDead.length =
        leaked + dead.length + cancellations [action] := by
  cases Traffic.moves_of_step moved with
  | acquire outside => exact ⟨dead, leaked, books.enter, rfl⟩
  | resume woken => exact ⟨dead, leaked, books.resume woken, rfl⟩
  | timeoutSuspended suspended =>
    obtain ⟨_, _, kept⟩ := books.timeout_suspended suspended
    exact ⟨dead, leaked, kept, rfl⟩
  | timeoutWoken woken =>
    rw [books.timeout_woken woken]
    exact ⟨dead, leaked, books.resume woken, rfl⟩
  | cancelSuspended suspended =>
    exact ⟨_, _, books.cancel_suspended suspended, rfl⟩
  | cancelWoken woken =>
    refine ⟨_, _, books.cancel_woken woken, ?_⟩
    simp [cancellations, Action.isCancel, Nat.add_right_comm]
  | release holding => exact books.leave holding

variable {gate : SlotAdmission}

theorem ledger_run {actions : List Action} (unused : gate.inflight = 0)
    (empty : gate.waiters = [])
    (run : Run Traffic.step Anything (.idle gate) actions traffic) :
    ∃ dead leaked, Ledger traffic dead leaked ∧
      leaked + dead.length = cancellations actions := by
  refine run.history
    (fun past state => ∃ dead leaked, Ledger state dead leaked ∧
      leaked + dead.length = cancellations past)
    ⟨[], 0, Ledger.idle unused empty, rfl⟩ ?_
  rintro past state action next ⟨dead, leaked, books, sum⟩ - moved
  obtain ⟨stillDead, nowLeaked, kept, total⟩ := ledger_step books moved
  refine ⟨stillDead, nowLeaked, kept, ?_⟩
  rw [total, sum, cancellations, cancellations, cancellations, countP_append]

/-! ## Every task is in one place -/

theorem tasks_enter_perm (traffic : Traffic) (task : TaskId)
    (priority : Int) (now : Nat) :
    (traffic.enter task priority now).tasks.Perm
      (task :: traffic.tasks) := by
  simp only [Traffic.enter]
  split
  · exact List.Perm.refl _
  · exact perm_middle

theorem tasks_resume_perm {waiter : Waiter} (woken : waiter ∈ traffic.woken) :
    (traffic.resume waiter).tasks.Perm traffic.tasks := by
  have removed := ((perm_cons_erase woken).map Waiter.task).symm
  have middle :
      (waiter.task :: (traffic.suspended.map Waiter.task ++
        (traffic.woken.erase waiter).map Waiter.task)).Perm
        (traffic.suspended.map Waiter.task ++
          traffic.woken.map Waiter.task) :=
    perm_middle.symm.trans (removed.append_left _)
  exact perm_middle.symm.trans (middle.append_left traffic.holders)

theorem tasks_abandon_sublist (traffic : Traffic) (waiter : Waiter) :
    (traffic.abandon waiter).tasks.Sublist traffic.tasks :=
  (List.Sublist.refl _).append
    ((erase_sublist.map Waiter.task).append
      (erase_sublist.map Waiter.task))

theorem nodup_tasks_leave (task : TaskId) (distinct : traffic.tasks.Nodup) :
    (traffic.leave task).tasks.Nodup := by
  have shorter :
      ({ traffic with holders := traffic.holders.erase task } :
        Traffic).tasks.Sublist traffic.tasks :=
    erase_sublist.append (List.Sublist.refl _)
  have departed := distinct.sublist shorter
  simp only [Traffic.leave]
  split
  · exact departed
  · rename_i ticket _
    have parted :=
      (filter_append_perm
        (fun waiter : Waiter => decide (waiter.ticket = ticket))
        traffic.suspended).map Waiter.task
    rw [map_append] at parted
    have moved :
        (((traffic.suspended.filter fun waiter =>
            waiter.ticket ≠ ticket).map Waiter.task) ++
          (traffic.woken ++ traffic.suspended.filter fun waiter =>
            waiter.ticket = ticket).map Waiter.task).Perm
          (traffic.suspended.map Waiter.task ++
            traffic.woken.map Waiter.task) := by
      rw [map_append]
      simp only [ne_eq, decide_not]
      exact (perm_append_comm_assoc _ _ _).trans
        ((perm_append_comm.trans
          (perm_append_comm.trans parted |>.append_right _)))
    exact (moved.append_left _).nodup_iff.mpr departed

/-- No task is at the gate twice. -/
theorem nodup_tasks_step {next : Traffic} {leaked : Nat}
    (books : Ledger traffic dead leaked) (distinct : traffic.tasks.Nodup)
    (moved : traffic.step action = some next) :
    next.tasks.Nodup := by
  cases Traffic.moves_of_step moved with
  | acquire outside =>
    exact (tasks_enter_perm traffic _ _ _).nodup_iff.mpr
      (nodup_cons.mpr ⟨outside, distinct⟩)
  | resume woken => exact (tasks_resume_perm woken).nodup_iff.mpr distinct
  | timeoutSuspended suspended =>
    obtain ⟨gate, expired, -⟩ := books.timeout_suspended suspended
    rw [expired]
    exact distinct.sublist (tasks_abandon_sublist traffic _)
  | timeoutWoken woken =>
    rw [books.timeout_woken woken]
    exact (tasks_resume_perm woken).nodup_iff.mpr distinct
  | cancelSuspended suspended =>
    exact distinct.sublist (tasks_abandon_sublist traffic _)
  | cancelWoken woken =>
    exact distinct.sublist (tasks_abandon_sublist traffic _)
  | release holding => exact nodup_tasks_leave _ distinct

theorem nodup_tasks_run {actions : List Action} (unused : gate.inflight = 0)
    (empty : gate.waiters = [])
    (run : Run Traffic.step Anything (.idle gate) actions traffic) :
    traffic.tasks.Nodup := by
  have both : (∃ dead leaked, Ledger traffic dead leaked) ∧
      traffic.tasks.Nodup := by
    refine run.invariant
      (fun state => (∃ dead leaked, Ledger state dead leaked) ∧
        state.tasks.Nodup)
      ⟨⟨[], 0, Ledger.idle unused empty⟩, nodup_nil⟩ ?_
    rintro state action next ⟨⟨dead, leaked, books⟩, distinct⟩ - moved
    obtain ⟨stillDead, nowLeaked, kept, -⟩ := ledger_step books moved
    exact ⟨⟨stillDead, nowLeaked, kept⟩,
      nodup_tasks_step books distinct moved⟩
  exact both.2

/-! ## Admissions respect the gate's cap -/

theorem Traffic.holders_leave (traffic : Traffic) (task : TaskId) :
    (traffic.leave task).holders = traffic.holders.erase task := by
  simp only [Traffic.leave]
  split <;> rfl

theorem Traffic.holders_enter_full (task : TaskId) (priority : Int) (now : Nat)
    (full : ¬ (traffic.gate.inflight < traffic.gate.maxInflight ∧
      traffic.gate.waiters = [])) :
    (traffic.enter task priority now).holders = traffic.holders := by
  simp [Traffic.enter, SlotAdmission.acquire, full]

theorem Ledger.holders_lt_of_woken {leaked : Nat} {waiter : Waiter}
    (books : Ledger traffic dead leaked) (woken : waiter ∈ traffic.woken) :
    traffic.holders.length < traffic.gate.maxInflight := by
  have balance := books.inflight
  have bounded := books.bounded
  have present := length_pos_of_mem woken
  omega

/-- No step changes the limit. -/
theorem Traffic.maxInflight_step {next : Traffic}
    (moved : traffic.step action = some next) :
    next.gate.maxInflight = traffic.gate.maxInflight := by
  cases Traffic.moves_of_step moved with
  | acquire outside =>
    by_cases room :
        traffic.gate.inflight < traffic.gate.maxInflight ∧
          traffic.gate.waiters = [] <;>
      simp [Traffic.enter, SlotAdmission.acquire, room]
  | resume woken => rfl
  | @timeoutSuspended waiter now suspended | @timeoutWoken waiter now woken =>
    by_cases queued :
        waiter.ticket.sortKey ∈
          traffic.gate.waiters.map Ticket.sortKey <;>
      simp only [Traffic.timeout, SlotAdmission.expire, queued, if_true,
        if_false]
  | cancelSuspended suspended => rfl
  | cancelWoken woken => rfl
  | release holding =>
    cases queue : traffic.gate.waiters <;>
      simp only [Traffic.leave, SlotAdmission.release, queue]

/-! ## No permit is lost, unless a waiting task is cancelled -/

/-- Nobody holds, waits or is woken. -/
def Traffic.Quiescent (traffic : Traffic) : Prop :=
  traffic.holders = [] ∧ traffic.suspended = [] ∧ traffic.woken = []

instance (traffic : Traffic) : Decidable traffic.Quiescent :=
  inferInstanceAs (Decidable (_ ∧ _ ∧ _))

/-- A request is admitted at once. -/
def SlotAdmission.Open (gate : SlotAdmission) : Prop :=
  ∀ priority now, (gate.acquire priority now).2 = none

theorem SlotAdmission.open_of_unused (unused : gate.inflight = 0)
    (empty : gate.waiters = []) :
    gate.Open := by
  intro priority now
  have room : gate.inflight < gate.maxInflight ∧ gate.waiters = [] :=
    ⟨unused ▸ gate.positive, empty⟩
  simp only [SlotAdmission.acquire, if_pos room]

/--
What the gate owes its callers in one state: every task is in one place, the
in-flight count is the number of tasks which returned from `acquire` and have
not released plus those handed the gate and not yet resumed, and a gate
without traffic is empty and admits the next request.
-/
def Conserved (traffic : Traffic) : Prop :=
  traffic.tasks.Nodup ∧
    traffic.gate.inflight =
      traffic.holders.length + traffic.woken.length ∧
    (traffic.Quiescent →
      traffic.gate.inflight = 0 ∧ traffic.gate.waiters = [] ∧
        traffic.gate.Open)

/--
A run in which no suspended task is cancelled conserves every permit in each
state it reaches; and a run which ends without traffic leaves the gate clean
exactly when it cancelled nobody.
-/
theorem permits_conserved_iff_no_cancellation
    (slotName : String) (maxInflight : Nat) (gate : SlotAdmission)
    (built : SlotAdmission.new slotName maxInflight = .ok gate)
    (actions : List Action) (traffic : Traffic)
    (run : Run Traffic.step Anything (.idle gate) actions traffic) :
    (cancellations actions = 0 → Conserved traffic) ∧
      (traffic.Quiescent →
        (Conserved traffic ↔ cancellations actions = 0)) := by
  have fresh := SlotAdmission.new_unused built
  obtain ⟨dead, leaked, books, total⟩ := ledger_run fresh.1 fresh.2 run
  have distinct := nodup_tasks_run fresh.1 fresh.2 run
  have balance := books.inflight
  have conserved : cancellations actions = 0 → Conserved traffic := by
    intro none
    obtain rfl : leaked = 0 := by omega
    obtain rfl : dead = [] := length_eq_zero_iff.mp (by omega)
    refine ⟨distinct, balance, ?_⟩
    rintro ⟨noHolder, noSuspended, noWoken⟩
    have unused : traffic.gate.inflight = 0 := by
      rw [balance, noHolder, noWoken]
      rfl
    have empty : traffic.gate.waiters = [] := by
      have queue := books.waiters
      rw [noSuspended] at queue
      exact queue.eq_nil
    exact ⟨unused, empty, SlotAdmission.open_of_unused unused empty⟩
  refine ⟨conserved, fun quiescent => ⟨fun balanced => ?_, conserved⟩⟩
  obtain ⟨unused, empty, -⟩ := balanced.2.2 quiescent
  have noDead : dead = [] := by
    have queue := books.waiters
    rw [empty] at queue
    exact (append_eq_nil_iff.mp queue.nil_eq.symm).2
  rw [← total, noDead, length_nil]
  omega

/-- A gate which admits one at a time. -/
def serialGate : SlotAdmission := ⟨"flm", 1, by decide, 0, [], 0⟩

/-- The permit is handed to the second request; the third has given up. -/
def handover : List Action :=
  [.acquire 1 1 0, .acquire 2 1 0, .acquire 3 1 0, .timeout ⟨3, ⟨1, 1, 0⟩⟩ 60,
    .release 1, .resume ⟨2, ⟨1, 0, 0⟩⟩, .release 2]

/-- One holds, one is handed over, one gives up. -/
theorem permits_conserved_serial_handover :
    ∃ traffic, Run Traffic.step Anything (.idle serialGate) handover traffic ∧
      Conserved traffic := by
  obtain ⟨traffic, run, -⟩ := Run.exists_of_exec Traffic.step Anything
    (.idle serialGate) handover (fun _ => true) (by decide)
  exact ⟨traffic, run, (permits_conserved_iff_no_cancellation "flm" 1
    serialGate rfl _ _ run).1 rfl⟩

/--
A client disconnects while it waits for the only permit.  When the holder
releases, the gate is handed to the dead ticket: no task is left, yet the
permit is still counted and the next request is not admitted.
-/
theorem cancelled_waiter_wedges_gate :
    ∃ traffic,
      Run Traffic.step Anything (.idle serialGate)
          [.acquire 1 1 0, .acquire 2 1 0, .cancel ⟨2, ⟨1, 0, 0⟩⟩,
            .release 1] traffic ∧
        traffic.Quiescent ∧
        traffic.gate.inflight = 1 ∧
        (traffic.gate.acquire 1 0).2 ≠ none ∧
        ¬ Conserved traffic := by
  refine ⟨⟨⟨"flm", 1, by decide, 1, [], 1⟩, [], [], []⟩,
    Run.of_exec (by decide), by decide, rfl, by decide, ?_⟩
  intro conserved
  exact absurd conserved.2.1 (by decide)

end Hal0.Dispatcher.Admission
