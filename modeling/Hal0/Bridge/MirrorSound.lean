import Hal0.Bridge.Mirror
import Hal0.Bridge.StoredOnce

/-!
# The ledger row and the inbox agree

The invariant of the two stores.  While no task is in a section under the
lock of the run, a pending entry is the one which the row names, or some task
is about to withdraw it; and a task in a section knows which entry may be
pending.  A run which is over has no pending entry, and nobody watches it.

Three races of the code break this, and `Unraced` excludes them.
-/

namespace Hal0.Bridge

open Nat
open List
open Hal0.Transition Hal0.Tasks
open Hal0.Mcp (ApprovalId)

/-! ## What the tasks do -/

namespace MirrorPc

/-- The task holds the lock of the run. -/
def inSection : MirrorPc → Bool
  | .retiring _ _ | .recording _ | .filing _ _ | .storing _ _ _
  | .retiringEnd _ _ _ _ | .writingEnd _ _ _ => true
  | _ => false

/-- The task is the watcher of the run, or is about to be. -/
def isWatcher : MirrorPc → Bool
  | .watching | .requesting _ | .retiring _ _ | .recording _
  | .attaching _ => true
  | .filing _ watches | .storing _ _ watches | .withdrawing _ watches
  | .ending _ _ watches | .retiringEnd _ _ watches _
  | .writingEnd _ _ watches => watches
  | _ => false

/-- The task is about to withdraw the entry. -/
def supersedes : MirrorPc → Bool
  | .retiring _ _ | .recording _ => true
  | _ => false

/-- The inbox id that the task has in hand. -/
def entryId : MirrorPc → Option ApprovalId
  | .withdrawing id _ => id
  | .storing _ id _ => some id
  | _ => none

end MirrorPc

namespace Mirror

/-- The run waits for the approval of a request. -/
def WaitsFor (mirror : Mirror) (requestId : Option String) : Prop :=
  ∃ pending, mirror.row.pending = some pending ∧
    pending.kind = .approval ∧ pending.requestId = requestId

/-- The row names the entry, and the entry is for its request. -/
def Names (mirror : Mirror) (entry : InboxEntry) : Prop :=
  ∃ pending, mirror.row.pending = some pending ∧
    pending.kind = .approval ∧ pending.requestId = some entry.requestId ∧
      pending.approvalId = some entry.id

/-- The row waits for no approval. -/
def NoApproval (mirror : Mirror) : Prop :=
  ∀ pending, mirror.row.pending = some pending → pending.kind ≠ .approval

end Mirror

/-- What a task in a section knows of the pending entries. -/
def MirrorPc.Knows (mirror : Mirror) : MirrorPc → Prop
  | .retiring _ id =>
    mirror.row.isLive = true ∧
      ∀ entry ∈ mirror.inbox.pendingEntries, some entry.id = id
  | .recording frame =>
    mirror.row.isLive = true ∧
      ∀ entry ∈ mirror.inbox.pendingEntries,
        some entry.requestId = frame.requestId
  | .filing pending _ =>
    mirror.row.isLive = true ∧ mirror.WaitsFor pending.requestId ∧
      ∀ entry ∈ mirror.inbox.pendingEntries,
        some entry.requestId = pending.requestId
  | .storing requestId id _ =>
    mirror.row.isLive = true ∧ mirror.WaitsFor (some requestId) ∧
      ∀ entry ∈ mirror.inbox.pendingEntries,
        entry.requestId = requestId ∧ entry.id = id
  | .retiringEnd _ _ _ id =>
    mirror.row.isLive = true ∧
      ∀ entry ∈ mirror.inbox.pendingEntries, some entry.id = id
  | .writingEnd _ _ _ => mirror.inbox.pendingEntries = []
  | _ => True

namespace MirrorWorld

variable (world : MirrorWorld)

/-- No task is inside the section. -/
def SectionFree : Prop :=
  ∀ task pc, world.tasks task = some pc → pc.inSection = false

/-- A task is about to withdraw the entry. -/
def Doomed (entry : InboxEntry) : Prop :=
  ∃ task watches, world.tasks task =
    some (.withdrawing (some entry.id) watches)

end MirrorWorld

open MirrorWorld (SectionFree Doomed)

/-! ## The races -/

/-- No pending entry is about to be withdrawn. -/
def NoneDoomed (world : MirrorWorld) : Prop :=
  ∀ entry ∈ world.shared.inbox.pendingEntries, ¬ Doomed world entry

/-- An answer does not settle a request with an entry of its own. -/
def SettlesAnswered (mirror : Mirror) (requestId : String) : Prop :=
  ∀ entry ∈ mirror.inbox.pendingEntries,
    mirror.Names entry → entry.requestId ≠ requestId

/-- What a task may do at its next turn. -/
def UnracedTurn (world : MirrorWorld) : MirrorPc → MirrorReply → Prop
  | .requesting _, _ => NoneDoomed world
  | .ending _ _ _, _ => NoneDoomed world
  | .writingEnd _ _ false, _ => world.shared.claimed = none
  | .settling requestId, _ => SettlesAnswered world.shared requestId
  | .probing _, .probed true =>
    world.shared.claimed = none → world.shared.row.isLive = true
  | .attaching row, _ => world.shared.row.pending = row.pending
  | _, _ => True

/--
The watcher records no request and nobody ends the run while an entry is
still to be withdrawn; an answer clears no newer copy of its request; a
re-attachment marks only a run which nobody watches, and attaches only with a
row that is still current; and a watch is started of a run which has only
been inserted.
-/
def Unraced (world : MirrorWorld) : MirrorAction → Prop
  | .task (.resume task reply) =>
    ∀ pc, world.tasks task = some pc → UnracedTurn world pc reply
  | .task (.occur (.settle requestId _)) =>
    SettlesAnswered world.shared requestId
  | .task (.start _ .watching) =>
    world.shared.row.isLive = true ∧ world.shared.row.pending = none
  | _ => True

/-! ## The invariant -/

/-- The inbox and the row agree, up to what tasks still do. -/
structure Mirrored (world : MirrorWorld) : Prop where
  few : world.shared.inbox.pendingEntries.length ≤ 1
  locked : ∀ task pc, world.tasks task = some pc → pc.inSection = true →
    world.shared.lock = some task
  claimed : ∀ task pc, world.tasks task = some pc → pc.isWatcher = true →
    world.shared.claimed = some task
  live : world.shared.claimed.isSome = true →
    world.shared.row.isLive = true
  knows : ∀ task pc, world.tasks task = some pc → pc.Knows world.shared
  cover : SectionFree world →
    ∀ entry ∈ world.shared.inbox.pendingEntries,
      world.shared.row.isLive = true ∧
        (world.shared.Names entry ∨ Doomed world entry)
  late : ∀ entry ∈ world.shared.inbox.pendingEntries,
    Doomed world entry → world.shared.NoApproval
  clear : ∀ task pc, world.tasks task = some pc → pc.supersedes = true →
    NoneDoomed world
  freshEntries : ∀ entry ∈ world.shared.inbox.entries,
    entry.id < world.shared.inbox.next
  freshRow : ∀ id, world.shared.approvalId = some id →
    id < world.shared.inbox.next
  freshTasks : ∀ task pc, world.tasks task = some pc →
    ∀ id, pc.entryId = some id → id < world.shared.inbox.next

/-! ## The inbox -/

namespace RunInbox

variable {inbox : RunInbox} {id : ApprovalId} {entry : InboxEntry}

theorem mem_pendingEntries :
    entry ∈ inbox.pendingEntries ↔
      entry ∈ inbox.entries ∧ entry.pending = true :=
  mem_filter

theorem mem_pendingEntries_resolve :
    entry ∈ (inbox.resolve id).pendingEntries ↔
      entry ∈ inbox.pendingEntries ∧ entry.id ≠ id := by
  rw [mem_pendingEntries, mem_pendingEntries]
  simp only [resolve, mem_map]
  constructor
  · rintro ⟨⟨old, mem, rfl⟩, pending⟩
    split at pending
    · cases pending
    · rename_i differs
      rw [if_neg differs]
      exact ⟨⟨mem, pending⟩, differs⟩
  · rintro ⟨⟨mem, pending⟩, differs⟩
    exact ⟨⟨entry, mem, if_neg differs⟩, pending⟩

theorem length_resolve_le :
    (inbox.resolve id).pendingEntries.length ≤
      inbox.pendingEntries.length := by
  unfold pendingEntries resolve
  rw [← countP_eq_length_filter, ← countP_eq_length_filter, countP_map]
  refine countP_mono_left fun entry _ pending => ?_
  simp only [Function.comp_apply] at pending
  split at pending
  · cases pending
  · exact pending

theorem ids_resolve {bound : Nat}
    (fresh : ∀ entry ∈ inbox.entries, entry.id < bound) :
    ∀ entry ∈ (inbox.resolve id).entries, entry.id < bound := by
  intro entry mem
  obtain ⟨old, oldMem, rfl⟩ := mem_map.mp mem
  split
  · exact fresh old oldMem
  · exact fresh old oldMem

/-- A withdrawal takes entries away, and the one it names. -/
structure Shrinks (inbox after : RunInbox) : Prop where
  mem : ∀ entry ∈ after.pendingEntries, entry ∈ inbox.pendingEntries
  length : after.pendingEntries.length ≤ inbox.pendingEntries.length
  next : after.next = inbox.next
  ids : ∀ bound : Nat, (∀ entry ∈ inbox.entries, entry.id < bound) →
    ∀ entry ∈ after.entries, entry.id < bound

theorem Shrinks.refl (inbox : RunInbox) : Shrinks inbox inbox :=
  ⟨fun _ => id, le_rfl, rfl, fun _ => id⟩

theorem Shrinks.resolve (inbox : RunInbox) (id : ApprovalId) :
    Shrinks inbox (inbox.resolve id) where
  mem := fun _ mem => (mem_pendingEntries_resolve.mp mem).1
  length := length_resolve_le
  next := rfl
  ids := fun _ => ids_resolve

theorem Shrinks.withdraw (inbox : RunInbox) (id : Option ApprovalId) :
    Shrinks inbox (inbox.withdraw id) := by
  cases id with
  | none => exact .refl inbox
  | some id => exact .resolve inbox id

theorem not_mem_withdraw (inbox : RunInbox) (id : ApprovalId) :
    ∀ entry ∈ (inbox.withdraw (some id)).pendingEntries, entry.id ≠ id :=
  fun _ mem => (mem_pendingEntries_resolve.mp mem).2

theorem withdraw_eq_nil {id : Option ApprovalId}
    (only : ∀ entry ∈ inbox.pendingEntries, some entry.id = id) :
    (inbox.withdraw id).pendingEntries = [] := by
  rw [eq_nil_iff_forall_not_mem]
  intro entry mem
  have before := (Shrinks.withdraw inbox id).mem entry mem
  have named := only entry before
  subst named
  exact not_mem_withdraw inbox entry.id entry mem rfl

/-- After `enqueue` the entry which it returns is the pending one. -/
theorem enqueue_pendingEntries (requestId : String)
    (generation : Option Int) (few : inbox.pendingEntries.length ≤ 1)
    (same : ∀ entry ∈ inbox.pendingEntries, entry.requestId = requestId) :
    ∃ entry, (inbox.enqueue requestId generation).1.pendingEntries =
        [entry] ∧ entry.id = (inbox.enqueue requestId generation).2 ∧
      entry.requestId = requestId := by
  cases pending : inbox.pendingEntries with
  | nil =>
    refine ⟨⟨inbox.next, requestId, generation, true⟩, ?_, ?_, rfl⟩
    · simp only [enqueue, pending]
      simp only [pendingEntries] at pending ⊢
      rw [filter_append, pending]
      rfl
    · simp only [enqueue, pending]
  | cons entry rest =>
    have alone : rest = [] := by
      rw [pending] at few
      exact length_eq_zero_iff.mp (by simpa using few)
    refine ⟨entry, ?_, ?_, same entry (by simp [pending])⟩
    · simp only [enqueue, pending, alone]
    · simp only [enqueue, pending]

/-- The drawn id is above every id of the inbox. -/
theorem enqueue_fresh (requestId : String) (generation : Option Int)
    (fresh : ∀ entry ∈ inbox.entries, entry.id < inbox.next) :
    inbox.next ≤ (inbox.enqueue requestId generation).1.next ∧
      (∀ entry ∈ (inbox.enqueue requestId generation).1.entries,
        entry.id < (inbox.enqueue requestId generation).1.next) ∧
      (inbox.enqueue requestId generation).2 <
        (inbox.enqueue requestId generation).1.next := by
  cases pending : inbox.pendingEntries with
  | nil =>
    simp only [enqueue, pending]
    refine ⟨le_succ _, ?_, lt_succ_self _⟩
    intro entry mem
    rcases mem_append.mp mem with old | isNew
    · exact lt_succ_of_lt (fresh entry old)
    · rw [mem_singleton.mp isNew]
      exact lt_succ_self _
  | cons entry rest =>
    have listed : entry ∈ inbox.entries :=
      (mem_pendingEntries.mp (by simp [pending])).1
    simp only [enqueue, pending]
    exact ⟨le_rfl, fresh, fresh entry listed⟩

theorem enqueue_id (inbox : RunInbox) (requestId : String)
    (generation : Option Int) :
    (∃ entry ∈ inbox.pendingEntries,
        entry.id = (inbox.enqueue requestId generation).2) ∨
      (inbox.enqueue requestId generation).2 = inbox.next := by
  cases pending : inbox.pendingEntries with
  | nil => exact .inr (by simp only [enqueue, pending])
  | cons entry rest =>
    exact .inl ⟨entry, by simp, by simp only [enqueue, pending]⟩

end RunInbox

/-! ## The kinds of turns -/

section Turns

variable {world : MirrorWorld} {task : TaskId} {after : Mirror}
  {prior next : Option MirrorPc} {pc : MirrorPc} {entry : InboxEntry}

theorem MirrorPc.knows_of_outside {mirror : Mirror}
    (outside : pc.inSection = false) : pc.Knows mirror := by
  cases pc <;> trivial

theorem inSection_of_supersedes (supersedes : pc.supersedes = true) :
    pc.inSection = true := by
  cases pc <;> trivial

/-- What a task knows survives a settled entry. -/
theorem MirrorPc.Knows.shrink {mirror : Mirror} (knows : pc.Knows mirror)
    (row : after.row = mirror.row)
    (shrinks : mirror.inbox.Shrinks after.inbox) : pc.Knows after := by
  cases pc with
  | retiring frame id =>
    exact ⟨row ▸ knows.1, fun entry mem =>
      knows.2 entry (shrinks.mem entry mem)⟩
  | recording frame =>
    exact ⟨row ▸ knows.1, fun entry mem =>
      knows.2 entry (shrinks.mem entry mem)⟩
  | filing pending watches =>
    refine ⟨row ▸ knows.1, ?_, fun entry mem =>
      knows.2.2 entry (shrinks.mem entry mem)⟩
    unfold Mirror.WaitsFor
    rw [row]
    exact knows.2.1
  | storing requestId id watches =>
    refine ⟨row ▸ knows.1, ?_, fun entry mem =>
      knows.2.2 entry (shrinks.mem entry mem)⟩
    unfold Mirror.WaitsFor
    rw [row]
    exact knows.2.1
  | retiringEnd ending tail watches id =>
    exact ⟨row ▸ knows.1, fun entry mem =>
      knows.2 entry (shrinks.mem entry mem)⟩
  | writingEnd ending tail watches =>
    have none := shrinks.length
    rw [show mirror.inbox.pendingEntries = [] from knows] at none
    exact length_eq_zero_iff.mp (le_zero.mp none)
  | _ => trivial

theorem entryId_of_outside (outside : pc.inSection = false)
    (busy : ∀ id watches, pc ≠ .withdrawing id watches) :
    pc.entryId = none := by
  cases pc with
  | withdrawing id watches => exact absurd rfl (busy id watches)
  | storing requestId id watches => cases outside
  | _ => rfl

theorem doomed_of_put (doomed : Doomed (world.put task after next) entry) :
    (∃ watches, next = some (.withdrawing (some entry.id) watches)) ∨
      ∃ other watches, other ≠ task ∧
        world.tasks other = some (.withdrawing (some entry.id) watches) := by
  obtain ⟨other, watches, at_⟩ := doomed
  rw [World.put_tasks] at at_
  split at at_
  · exact .inl ⟨watches, at_⟩
  · rename_i differs
    exact .inr ⟨other, watches, differs, at_⟩

theorem doomed_put (before : world.tasks task = prior)
    (handed : ∀ watches, prior = some (.withdrawing (some entry.id) watches) →
      ∃ other, next = some (.withdrawing (some entry.id) other))
    (doomed : Doomed world entry) :
    Doomed (world.put task after next) entry := by
  obtain ⟨other, watches, at_⟩ := doomed
  by_cases same : other = task
  · subst same
    obtain ⟨its, moved⟩ := handed watches (before.symm.trans at_)
    exact ⟨other, its, by simp [World.put_tasks, moved]⟩
  · refine ⟨other, watches, ?_⟩
    rw [World.put_tasks, if_neg same]
    exact at_

theorem sectionFree_of_put
    (outside : ∀ pc, prior = some pc → pc.inSection = false)
    (before : world.tasks task = prior)
    (free : SectionFree (world.put task after next)) :
    SectionFree world := by
  intro other pc at_
  by_cases same : other = task
  · subst same
    exact outside pc (before.symm.trans at_)
  · refine free other pc ?_
    rw [World.put_tasks, if_neg same]
    exact at_

/-- A step which leaves the row and files nothing. -/
theorem Mirrored.calm (mirrored : Mirrored world)
    (before : world.tasks task = prior)
    (outside : ∀ pc, prior = some pc → pc.inSection = false)
    (row : after.row = world.shared.row)
    (lock : after.lock = world.shared.lock)
    (shrinks : world.shared.inbox.Shrinks after.inbox)
    (moved : ∀ pc, next = some pc → pc.inSection = false ∧
      ∀ id watches, pc ≠ .withdrawing id watches)
    (withdrawn : ∀ id watches,
      prior = some (.withdrawing (some id) watches) →
        ∀ entry ∈ after.inbox.pendingEntries, entry.id ≠ id)
    (claims : after.claimed = world.shared.claimed ∧
        (∀ pc, next = some pc → pc.isWatcher = true →
          world.shared.claimed = some task) ∨
      world.shared.claimed = none ∧ after.claimed = some task ∧
        world.shared.row.isLive = true) :
    Mirrored (world.put task after next) := by
  have sameId : after.approvalId = world.shared.approvalId := by
    simp only [Mirror.approvalId, row]
  have undoomed : ∀ entry, Doomed (world.put task after next) entry →
      Doomed world entry := by
    intro entry doomed
    rcases doomed_of_put doomed with ⟨watches, at_⟩ | ⟨other, watches, _, at_⟩
    · exact absurd rfl ((moved _ at_).2 _ _)
    · exact ⟨other, watches, at_⟩
  constructor
  · exact shrinks.length.trans mirrored.few
  · intro other pc at_ inside
    rw [World.put_tasks] at at_
    split at at_
    · rw [(moved pc at_).1] at inside
      cases inside
    · rw [World.put_shared, lock]
      exact mirrored.locked other pc at_ inside
  · intro other pc at_ watcher
    rw [World.put_tasks] at at_
    split at at_
    · rename_i same
      subst same
      rcases claims with ⟨kept, own⟩ | ⟨_, own, _⟩
      · exact kept.trans (own pc at_ watcher)
      · exact own
    · have held := mirrored.claimed other pc at_ watcher
      rcases claims with ⟨kept, _⟩ | ⟨none, _, _⟩
      · exact kept.trans held
      · rw [none] at held
        cases held
  · intro isClaimed
    show after.row.isLive = true
    rw [row]
    rcases claims with ⟨kept, _⟩ | ⟨_, _, live⟩
    · rw [World.put_shared, kept] at isClaimed
      exact mirrored.live isClaimed
    · exact live
  · intro other pc at_
    rw [World.put_tasks] at at_
    split at at_
    · exact MirrorPc.knows_of_outside (moved pc at_).1
    · exact (mirrored.knows other pc at_).shrink row shrinks
  · intro free entry mem
    obtain ⟨live, named | doomed⟩ :=
      mirrored.cover (sectionFree_of_put outside before free) entry
        (shrinks.mem entry mem)
    · refine ⟨row ▸ live, .inl ?_⟩
      unfold Mirror.Names
      rw [World.put_shared, row]
      exact named
    · refine ⟨row ▸ live, .inr (doomed_put before ?_ doomed)⟩
      intro watches at_
      exact absurd rfl (withdrawn _ watches at_ entry mem)
  · intro entry mem doomed
    have none := mirrored.late entry (shrinks.mem entry mem)
      (undoomed entry doomed)
    unfold Mirror.NoApproval
    rw [World.put_shared, row]
    exact none
  · intro other pc at_ supersedes entry mem doomed
    rw [World.put_tasks] at at_
    split at at_
    · have inside := inSection_of_supersedes supersedes
      rw [(moved pc at_).1] at inside
      cases inside
    · exact mirrored.clear other pc at_ supersedes entry
        (shrinks.mem entry mem) (undoomed entry doomed)
  · rw [World.put_shared, shrinks.next]
    exact shrinks.ids _ mirrored.freshEntries
  · rw [World.put_shared, shrinks.next, sameId]
    exact mirrored.freshRow
  · intro other pc at_ id isId
    rw [World.put_shared, shrinks.next]
    rw [World.put_tasks] at at_
    split at at_
    · rw [entryId_of_outside (moved pc at_).1 (moved pc at_).2] at isId
      cases isId
    · exact mirrored.freshTasks other pc at_ id isId

theorem Mirrored.sectionFree (mirrored : Mirrored world)
    (free : world.shared.lock = none) : SectionFree world := by
  intro task pc at_
  cases inside : pc.inSection with
  | false => rfl
  | true =>
    have held := mirrored.locked task pc at_ inside
    rw [free] at held
    cases held

/-- What a transaction on the row has to keep. -/
structure Rewritten (mirror : Mirror) (after : Mirror) : Prop where
  inbox : after.inbox = mirror.inbox
  lock : after.lock = mirror.lock
  claimed : after.claimed = mirror.claimed
  live : mirror.row.isLive = true → after.row.isLive = true
  quiet : mirror.NoApproval → after.NoApproval
  id : ∀ id, after.approvalId = some id → mirror.approvalId = some id

section

variable (mirrored : Mirrored world)
include mirrored

/-- A write of the row outside the section. -/
theorem Mirrored.rewrite (before : world.tasks task = some pc)
    (free : world.shared.lock = none)
    (rewritten : Rewritten world.shared after)
    (idle : ∀ id watches, pc ≠ .withdrawing id watches)
    (outside : ∀ pc, next = some pc → pc.inSection = false)
    (watcher : ∀ its, next = some its → its.isWatcher = true →
      pc.isWatcher = true)
    (names : ∀ entry ∈ world.shared.inbox.pendingEntries,
      world.shared.Names entry → after.Names entry ∨
        ∃ watches, next = some (.withdrawing (some entry.id) watches))
    (withdraws : ∀ id watches, next = some (.withdrawing (some id) watches) →
      after.NoApproval ∧ world.shared.approvalId = some id) :
    Mirrored (world.put task after next) := by
  have sectionFree := mirrored.sectionFree free
  have wasOutside := sectionFree task pc before
  have inbox : after.inbox = world.shared.inbox := rewritten.inbox
  constructor
  · rw [World.put_shared, inbox]
    exact mirrored.few
  · intro other its at_ inside
    rw [World.put_tasks] at at_
    split at at_
    · rw [outside its at_] at inside
      cases inside
    · rw [sectionFree other its at_] at inside
      cases inside
  · intro other its at_ isWatcher
    rw [World.put_shared, rewritten.claimed]
    rw [World.put_tasks] at at_
    split at at_
    · rename_i same
      subst same
      exact mirrored.claimed other pc before (watcher its at_ isWatcher)
    · exact mirrored.claimed other its at_ isWatcher
  · rw [World.put_shared, rewritten.claimed]
    exact fun isClaimed => rewritten.live (mirrored.live isClaimed)
  · intro other its at_
    rw [World.put_tasks] at at_
    split at at_
    · exact MirrorPc.knows_of_outside (outside its at_)
    · exact MirrorPc.knows_of_outside (sectionFree other its at_)
  · intro _ entry mem
    rw [World.put_shared, inbox] at mem
    obtain ⟨live, named | doomed⟩ := mirrored.cover sectionFree entry mem
    · refine ⟨rewritten.live live, ?_⟩
      rcases names entry mem named with still | ⟨watches, at_⟩
      · exact .inl still
      · exact .inr ⟨task, watches, by simp [World.put_tasks, at_]⟩
    · refine ⟨rewritten.live live, .inr (doomed_put before ?_ doomed)⟩
      intro watches at_
      exact absurd (Option.some.inj at_) (idle _ _)
  · intro entry mem doomed
    rw [World.put_shared, inbox] at mem
    rcases doomed_of_put doomed with ⟨watches, at_⟩ | ⟨other, watches, _, at_⟩
    · exact (withdraws _ watches at_).1
    · exact rewritten.quiet (mirrored.late entry mem ⟨other, watches, at_⟩)
  · intro other its at_ supersedes
    have inside := inSection_of_supersedes supersedes
    rw [World.put_tasks] at at_
    split at at_
    · rw [outside its at_] at inside
      cases inside
    · rw [sectionFree other its at_] at inside
      cases inside
  · rw [World.put_shared, inbox]
    exact mirrored.freshEntries
  · intro id isId
    rw [World.put_shared, inbox]
    exact mirrored.freshRow id (rewritten.id id isId)
  · intro other its at_ id isId
    rw [World.put_shared, inbox]
    rw [World.put_tasks] at at_
    split at at_
    · have nowOutside := outside its at_
      cases its with
      | withdrawing own watches =>
        cases isId
        exact mirrored.freshRow id (withdraws id watches at_).2
      | storing requestId own watches => cases nowOutside
      | _ => cases isId
    · exact mirrored.freshTasks other its at_ id isId

/-- A write which is no task's. -/
theorem Mirrored.occurs (free : world.shared.lock = none)
    (rewritten : Rewritten world.shared after)
    (names : ∀ entry ∈ world.shared.inbox.pendingEntries,
      world.shared.Names entry → after.Names entry) :
    Mirrored { world with shared := after } := by
  have sectionFree := mirrored.sectionFree free
  have inbox : after.inbox = world.shared.inbox := rewritten.inbox
  constructor
  · rw [show after.inbox = _ from inbox]
    exact mirrored.few
  · intro task its at_ inside
    rw [sectionFree task its at_] at inside
    cases inside
  · intro task its at_ isWatcher
    exact rewritten.claimed.trans (mirrored.claimed task its at_ isWatcher)
  · intro isClaimed
    rw [show after.claimed = _ from rewritten.claimed] at isClaimed
    exact rewritten.live (mirrored.live isClaimed)
  · intro task its at_
    exact MirrorPc.knows_of_outside (sectionFree task its at_)
  · intro _ entry mem
    rw [show after.inbox = _ from inbox] at mem
    obtain ⟨live, named | doomed⟩ := mirrored.cover sectionFree entry mem
    · exact ⟨rewritten.live live, .inl (names entry mem named)⟩
    · exact ⟨rewritten.live live, .inr doomed⟩
  · intro entry mem doomed
    rw [show after.inbox = _ from inbox] at mem
    exact rewritten.quiet (mirrored.late entry mem doomed)
  · intro task its at_ supersedes
    have inside := inSection_of_supersedes supersedes
    rw [sectionFree task its at_] at inside
    cases inside
  · rw [show after.inbox = _ from inbox]
    exact mirrored.freshEntries
  · intro id isId
    rw [show after.inbox = _ from inbox]
    exact mirrored.freshRow id (rewritten.id id isId)
  · intro task its at_ id isId
    rw [show after.inbox = _ from inbox]
    exact mirrored.freshTasks task its at_ id isId

/-- A task enters the section. -/
theorem Mirrored.acquire {its : MirrorPc} (before : world.tasks task = some pc)
    (free : world.shared.lock = none) (inside : its.inSection = true)
    (watcher : its.isWatcher = true → pc.isWatcher = true)
    (knows : its.Knows world.shared) (unnamed : its.entryId = none)
    (clear : its.supersedes = true → NoneDoomed world) :
    Mirrored (world.put task { world.shared with lock := some task }
      (some its)) := by
  have sectionFree := mirrored.sectionFree free
  have undoomed : ∀ entry, Doomed (world.put task
      { world.shared with lock := some task } (some its)) entry →
        Doomed world entry := by
    intro entry doomed
    rcases doomed_of_put doomed with ⟨watches, at_⟩ | ⟨other, watches, _, at_⟩
    · rw [Option.some.inj at_] at inside
      cases inside
    · exact ⟨other, watches, at_⟩
  constructor
  · exact mirrored.few
  · intro other counter at_ isInside
    rw [World.put_tasks] at at_
    split at at_
    · rename_i same
      exact congrArg some same.symm
    · rw [sectionFree other counter at_] at isInside
      cases isInside
  · intro other counter at_ isWatcher
    rw [World.put_tasks] at at_
    split at at_
    · rename_i same
      subst same
      obtain rfl := Option.some.inj at_
      exact mirrored.claimed other pc before (watcher isWatcher)
    · exact mirrored.claimed other counter at_ isWatcher
  · exact mirrored.live
  · intro other counter at_
    rw [World.put_tasks] at at_
    split at at_
    · obtain rfl := Option.some.inj at_
      exact knows.shrink rfl (.refl _)
    · exact MirrorPc.knows_of_outside (sectionFree other counter at_)
  · intro nowFree
    have contradiction := nowFree task its (by simp [World.put_tasks])
    rw [inside] at contradiction
    cases contradiction
  · intro entry mem doomed
    exact mirrored.late entry mem (undoomed entry doomed)
  · intro other counter at_ supersedes entry mem doomed
    rw [World.put_tasks] at at_
    split at at_
    · obtain rfl := Option.some.inj at_
      exact clear supersedes entry mem (undoomed entry doomed)
    · have isInside := inSection_of_supersedes supersedes
      rw [sectionFree other counter at_] at isInside
      cases isInside
  · exact mirrored.freshEntries
  · exact mirrored.freshRow
  · intro other counter at_ id isId
    rw [World.put_tasks] at at_
    split at at_
    · obtain rfl := Option.some.inj at_
      rw [unnamed] at isId
      cases isId
    · exact mirrored.freshTasks other counter at_ id isId

theorem Mirrored.alone (before : world.tasks task = some pc)
    (inside : pc.inSection = true) {other : TaskId} {its : MirrorPc}
    (differs : other ≠ task)
    (at_ : world.tasks other = some its) : its.inSection = false := by
  cases isInside : its.inSection with
  | false => rfl
  | true =>
    have own := mirrored.locked task pc before inside
    rw [mirrored.locked other its at_ isInside] at own
    exact absurd (Option.some.inj own) differs

/-- A step inside the section. -/
theorem Mirrored.within (before : world.tasks task = some pc)
    (inside : pc.inSection = true)
    (few : after.inbox.pendingEntries.length ≤ 1)
    (lock : ∀ its, next = some its → its.inSection = true →
      after.lock = some task)
    (watcher : ∀ its, next = some its → its.isWatcher = true →
      pc.isWatcher = true ∧ after.claimed = world.shared.claimed)
    (claimed : after.claimed = world.shared.claimed ∨
      after.claimed = none ∧ pc.isWatcher = true)
    (live : after.claimed.isSome = true → after.row.isLive = true)
    (knows : ∀ its, next = some its → its.Knows after)
    (undoomed : ∀ entry ∈ after.inbox.pendingEntries, ¬ Doomed world entry)
    (moved : ∀ its, next = some its → ∀ id watches,
      its ≠ .withdrawing id watches)
    (cover : (∀ its, next = some its → its.inSection = false) →
      ∀ entry ∈ after.inbox.pendingEntries,
        after.row.isLive = true ∧ after.Names entry)
    (grows : world.shared.inbox.next ≤ after.inbox.next)
    (freshEntries : ∀ entry ∈ after.inbox.entries,
      entry.id < after.inbox.next)
    (freshRow : ∀ id, after.approvalId = some id → id < after.inbox.next)
    (freshOwn : ∀ its, next = some its → ∀ id, its.entryId = some id →
      id < after.inbox.next) :
    Mirrored (world.put task after next) := by
  have stillDoomed : ∀ entry, Doomed (world.put task after next) entry →
      Doomed world entry := by
    intro entry doomed
    rcases doomed_of_put doomed with ⟨watches, at_⟩ | ⟨other, watches, _, at_⟩
    · exact absurd rfl (moved _ at_ _ _)
    · exact ⟨other, watches, at_⟩
  constructor
  · exact few
  · intro other its at_ isInside
    rw [World.put_tasks] at at_
    split at at_
    · rename_i same
      rw [same]
      exact lock its at_ isInside
    · rename_i differs
      rw [mirrored.alone before inside differs at_] at isInside
      cases isInside
  · intro other its at_ isWatcher
    rw [World.put_tasks] at at_
    split at at_
    · rename_i same
      subst same
      obtain ⟨was, kept⟩ := watcher its at_ isWatcher
      exact kept.trans (mirrored.claimed other pc before was)
    · rename_i differs
      have held := mirrored.claimed other its at_ isWatcher
      rcases claimed with kept | ⟨_, own⟩
      · exact kept.trans held
      · rw [mirrored.claimed task pc before own] at held
        exact absurd (Option.some.inj held).symm differs
  · exact live
  · intro other its at_
    rw [World.put_tasks] at at_
    split at at_
    · exact knows its at_
    · rename_i differs
      exact MirrorPc.knows_of_outside
        (mirrored.alone before inside differs at_)
  · intro free entry mem
    have isOutside : ∀ its, next = some its → its.inSection = false := by
      intro its at_
      exact free task its (by simp [World.put_tasks, at_])
    obtain ⟨isLive, named⟩ := cover isOutside entry mem
    exact ⟨isLive, .inl named⟩
  · intro entry mem doomed
    exact absurd (stillDoomed entry doomed) (undoomed entry mem)
  · intro _ _ _ _ entry mem doomed
    exact undoomed entry mem (stillDoomed entry doomed)
  · exact freshEntries
  · exact freshRow
  · intro other its at_ id isId
    rw [World.put_tasks] at at_
    split at at_
    · exact freshOwn its at_ id isId
    · exact lt_of_lt_of_le (mirrored.freshTasks other its at_ id isId)
        grows

end

end Turns

/-! ## The transactions on the row -/

section Rows

variable {mirror : Mirror} {entry : InboxEntry} {now : Time}
  {event : Option StoredEvent} {decide : RunRow → Changes}

theorem rowAfter_pending (row : RunRow) (event : Option StoredEvent)
    (changes : Changes) (now : Time) :
    (Ledger.rowAfter row event changes now).pending =
      changes.pending.getD row.pending := by
  unfold Ledger.rowAfter
  split
  · rename_i empty
    rw [Ledger.eq_of_isEmpty empty]
    cases event <;> rfl
  · cases event <;> rfl

/-- The write leaves the request alone. -/
theorem Rewritten.of_same
    (live : mirror.row.isLive = true →
      (mirror.write event decide now).row.isLive = true)
    (same : (decide mirror.row).pending = none) :
    Rewritten mirror (mirror.write event decide now) := by
  have pending : (mirror.write event decide now).row.pending =
      mirror.row.pending := by
    simp [Mirror.write, rowAfter_pending, same]
  constructor
  · rfl
  · rfl
  · rfl
  · exact live
  · intro none
    unfold Mirror.NoApproval
    rw [pending]
    exact none
  · unfold Mirror.approvalId
    rw [pending]
    exact fun _ isId => isId

theorem names_of_same (same : (decide mirror.row).pending = none)
    (names : mirror.Names entry) :
    (mirror.write event decide now).Names entry := by
  unfold Mirror.Names
  rw [show (mirror.write event decide now).row.pending = mirror.row.pending by
    simp [Mirror.write, rowAfter_pending, same]]
  exact names

theorem noApproval_of_changes {pending : Option Pending}
    (changed : (decide mirror.row).pending = some pending)
    (none : ∀ its, pending = some its → its.kind ≠ .approval) :
    (mirror.write event decide now).NoApproval := by
  unfold Mirror.NoApproval
  rw [show (mirror.write event decide now).row.pending = pending by
    simp [Mirror.write, rowAfter_pending, changed]]
  exact none

/-- The write takes the approval away. -/
theorem Rewritten.of_cleared {pending : Option Pending}
    (live : mirror.row.isLive = true →
      (mirror.write event decide now).row.isLive = true)
    (changed : (decide mirror.row).pending = some pending)
    (none : ∀ its, pending = some its → its.kind ≠ .approval)
    (unnamed : ∀ its, pending = some its → its.approvalId = Option.none) :
    Rewritten mirror (mirror.write event decide now) := by
  have isPending : (mirror.write event decide now).row.pending = pending := by
    simp [Mirror.write, rowAfter_pending, changed]
  constructor
  · rfl
  · rfl
  · rfl
  · exact live
  · exact fun _ => noApproval_of_changes changed none
  · intro id isId
    unfold Mirror.approvalId at isId
    rw [isPending] at isId
    cases pending with
    | none => cases isId
    | some its =>
      rw [Option.bind_some, unnamed its rfl] at isId
      cases isId

theorem writeLive_of_live (live : mirror.row.isLive = true) :
    mirror.writeLive event decide now = mirror.write event decide now :=
  if_pos live

theorem writeLive_of_over (isOver : mirror.row.isLive = false) :
    mirror.writeLive event decide now = mirror := by
  unfold Mirror.writeLive
  rw [isOver]
  rfl

theorem Rewritten.refl (mirror : Mirror) : Rewritten mirror mirror :=
  ⟨rfl, rfl, rfl, fun live => live, fun none => none, fun _ isId => isId⟩

theorem isLive_write
    (live : (!((decide mirror.row).status.getD
      mirror.row.status).isTerminal) = true) :
    (mirror.write event decide now).row.isLive = true := by
  unfold RunRow.isLive Mirror.write
  rw [Ledger.rowAfter_status]
  exact live

theorem Mirror.Names.waitsFor (names : mirror.Names entry) :
    mirror.WaitsFor (some entry.requestId) := by
  obtain ⟨pending, isPending, kind, request, _⟩ := names
  exact ⟨pending, isPending, kind, request⟩

theorem Mirror.Names.approvalId (names : mirror.Names entry) :
    mirror.approvalId = some entry.id := by
  obtain ⟨pending, isPending, _, _, id⟩ := names
  simp [Mirror.approvalId, isPending, id]

theorem Mirror.WaitsFor.not_noApproval {requestId : Option String}
    (waits : mirror.WaitsFor requestId) : ¬ mirror.NoApproval := by
  obtain ⟨pending, isPending, kind, _⟩ := waits
  exact fun none => none pending isPending kind

theorem Mirror.WaitsFor.isPending {requestId : Option String}
    (waits : mirror.WaitsFor requestId) :
    mirror.row.isPending .approval none = true := by
  obtain ⟨pending, isPending, kind, _⟩ := waits
  simp [RunRow.isPending, isPending, kind]

/-- `_is_pending`, of an approval. -/
theorem waitsFor_of_isPending {requestId : String}
    (isPending : mirror.row.isPending .approval (some requestId) = true) :
    mirror.WaitsFor (some requestId) := by
  unfold RunRow.isPending at isPending
  cases pending : mirror.row.pending with
  | none =>
    rw [pending] at isPending
    cases isPending
  | some its =>
    rw [pending] at isPending
    simp only [Option.any_some, Option.isNone_some, Bool.false_or,
      Bool.and_eq_true, decide_eq_true_eq] at isPending
    exact ⟨its, pending, isPending⟩

end Rows

/-! ## What the writers set -/

section Changes

variable {row : RunRow} {frame : Frame} {now : Time}

theorem clearPending_pending (requestId : Option String) :
    (row.clearPending requestId).pending = none ∨
      (row.clearPending requestId).pending = some none := by
  unfold RunRow.clearPending
  split
  · exact .inl rfl
  · split
    · exact .inl rfl
    · exact .inr rfl

theorem clearPending_of_other {pending : Pending} {requestId : String}
    (isPending : row.pending = some pending)
    (other : pending.requestId ≠ some requestId) :
    (row.clearPending (some requestId)).pending = none := by
  simp [RunRow.clearPending, isPending, other]

/--
What a frame does to the request: nothing, clear it, or ask a question
instead.
-/
theorem Frame.changes_pending (other : frame.name ≠ "approval.request") :
    (frame.changes now row).pending = none ∨
      ∃ pending, (frame.changes now row).pending = some pending ∧
        (∀ its, pending = some its → its.kind ≠ .approval) ∧
          ∀ its, pending = some its → its.approvalId = none := by
  unfold Frame.changes
  rw [if_neg other]
  split
  · refine .inr ⟨_, rfl, ?_, ?_⟩
    · intro its same
      cases same
      exact fun kind => by cases kind
    · intro its same
      cases same
      rfl
  · unfold Frame.otherChanges Frame.settledChanges
    split_ifs
    all_goals first
      | exact .inl rfl
      | skip
    all_goals
      rcases @clearPending_pending row none with keeps | clears
      · exact .inl keeps
      · refine .inr ⟨none, clears, ?_, ?_⟩ <;> intro its same <;> cases same

/-- A superseding frame takes the approval away. -/
theorem Frame.changes_of_supersedes
    (supersedes : Mirror.supersedes frame row = true) :
    ∃ pending, (frame.changes now row).pending = some pending ∧
      ∀ its, pending = some its → its.kind ≠ .approval := by
  unfold Mirror.supersedes at supersedes
  simp only [Bool.or_eq_true, Bool.and_eq_true, decide_eq_true_eq]
    at supersedes
  rcases supersedes with ⟨name, _⟩ | ⟨name, settles⟩
  · refine ⟨some { kind := .clarify, frame := frame, receivedAt := now },
      by simp [Frame.changes, name, Frame.requestChanges], ?_⟩
    intro its same
    cases same
    exact fun kind => by cases kind
  · refine ⟨none, ?_, fun its same => by cases same⟩
    have waits : ∃ pending, row.pending = some pending := by
      unfold RunRow.isPending at settles
      cases pending : row.pending with
      | none =>
        rw [pending] at settles
        cases settles
      | some its => exact ⟨its, rfl⟩
    obtain ⟨pending, isPending⟩ := waits
    simp [Frame.changes, name, Frame.otherChanges, Frame.settledChanges,
      settles, RunRow.clearPending, isPending]

/-- Any other frame leaves it. -/
theorem Frame.changes_of_not_supersedes {pending : Pending}
    (other : frame.name ≠ "approval.request")
    (keeps : Mirror.supersedes frame row = false)
    (isPending : row.pending = some pending)
    (kind : pending.kind = .approval) :
    (frame.changes now row).pending = none := by
  unfold Mirror.supersedes at keeps
  simp only [Bool.or_eq_false_iff, Bool.and_eq_false_imp,
    decide_eq_true_eq] at keeps
  obtain ⟨clarify, settled⟩ := keeps
  have waits : row.isPending .approval none = true := by
    simp [RunRow.isPending, isPending, kind]
  have answers : row.isPending .clarify frame.requestId = false := by
    simp [RunRow.isPending, isPending, kind]
  have noQuestion : frame.name ≠ "clarify.request" := by
    intro name
    rw [clarify name] at waits
    cases waits
  by_cases name : frame.name = "approval.settled"
  · simp [Frame.changes, name, Frame.otherChanges, Frame.settledChanges,
      settled name]
  · unfold Frame.changes Frame.otherChanges
    rw [if_neg other, if_neg noQuestion, if_neg name]
    simp only [Frame.settledChanges, answers, Bool.false_eq_true, if_false]
    split_ifs <;> rfl

end Changes

/-! ## The steps -/

theorem eq_of_afterwards {watches : Bool} {pc : MirrorPc}
    (goesOn : Mirror.afterwards watches = some pc) :
    pc = .watching ∧ watches = true := by
  unfold Mirror.afterwards at goesOn
  split at goesOn
  · rename_i isWatcher
    exact ⟨(Option.some.inj goesOn).symm, isWatcher⟩
  · cases goesOn

section Steps

variable {world next : MirrorWorld} {task : TaskId} {pc : MirrorPc}
  {after : Mirror} {now : Time}

variable {entry : InboxEntry}

theorem Mirrored.names_of_noneDoomed (mirrored : Mirrored world)
    (free : world.shared.lock = none) (none : NoneDoomed world)
    (mem : entry ∈ world.shared.inbox.pendingEntries) :
    world.shared.row.isLive = true ∧ world.shared.Names entry := by
  obtain ⟨live, named | doomed⟩ :=
    mirrored.cover (mirrored.sectionFree free) entry mem
  · exact ⟨live, named⟩
  · exact absurd doomed (none entry mem)

theorem Mirrored.noneDoomed (mirrored : Mirrored world)
    {requestId : Option String} (waits : world.shared.WaitsFor requestId) :
    NoneDoomed world :=
  fun entry mem doomed =>
    waits.not_noApproval (mirrored.late entry mem doomed)

theorem Mirrored.requestId_of_waitsFor (mirrored : Mirrored world)
    (free : world.shared.lock = none) {requestId : Option String}
    (waits : world.shared.WaitsFor requestId)
    (mem : entry ∈ world.shared.inbox.pendingEntries) :
    some entry.requestId = requestId := by
  obtain ⟨_, pending, isPending, _, request, _⟩ :=
    mirrored.names_of_noneDoomed free (mirrored.noneDoomed waits) mem
  obtain ⟨its, isIts, _, same⟩ := waits
  rw [isPending] at isIts
  cases isIts
  exact request.symm.trans same

variable {its : Option MirrorPc}

section

variable (mirrored : Mirrored world)
include mirrored

theorem Mirrored.moves (before : world.tasks task = some pc)
    (outside : pc.inSection = false)
    (idle : ∀ id watches, pc ≠ .withdrawing id watches)
    (row : after.row = world.shared.row)
    (inbox : after.inbox = world.shared.inbox)
    (lock : after.lock = world.shared.lock)
    (claimed : after.claimed = world.shared.claimed)
    (moved : ∀ pc, its = some pc → pc.inSection = false ∧
      ∀ id watches, pc ≠ .withdrawing id watches)
    (watcher : ∀ other, its = some other → other.isWatcher = true →
      pc.isWatcher = true) :
    Mirrored (world.put task after its) := by
  refine mirrored.calm before ?_ row lock ?_ moved ?_ (.inl ⟨claimed, ?_⟩)
  · intro other same
    cases same
    exact outside
  · rw [inbox]
    exact .refl _
  · intro id watches same
    exact absurd (Option.some.inj same) (idle _ _)
  · intro other at_ isWatcher
    exact mirrored.claimed task pc before (watcher other at_ isWatcher)

theorem Mirrored.leaves (before : world.tasks task = some pc)
    (outside : pc.inSection = false)
    (idle : ∀ id watches, pc ≠ .withdrawing id watches) (spent : List String) :
    Mirrored (world.put task { world.shared with spent := spent } none) := by
  refine mirrored.moves before outside idle ?_ ?_ ?_ ?_ ?_ ?_
  · rfl
  · rfl
  · rfl
  · rfl
  · exact fun _ at_ => by cases at_
  · exact fun _ at_ => by cases at_

theorem Mirrored.requesting {frame : Frame}
    (before : world.tasks task = some (.requesting frame))
    (none : NoneDoomed world)
    (turned : world.shared.turn task (.requesting frame) now =
      some (after, its)) :
    Mirrored (world.put task after its) := by
  have live := mirrored.live (by
    rw [mirrored.claimed task _ before rfl]
    rfl)
  simp only [Mirror.turn, Mirror.locking] at turned
  split at turned
  · cases turned
  · rename_i free
    cases turned
    refine mirrored.acquire before free ?_ (fun _ => rfl) ?_ ?_
      fun _ => none
    · split <;> rfl
    · split
      · rename_i prior isPrior
        refine ⟨live, fun entry mem => ?_⟩
        obtain ⟨_, pending, isPending, _, _, id⟩ :=
          mirrored.names_of_noneDoomed free none mem
        unfold Mirror.superseded at isPrior
        rw [isPending] at isPrior
        obtain ⟨same, _⟩ := Option.filter_eq_some_iff.mp isPrior
        cases same
        exact id.symm
      · rename_i isNone
        refine ⟨live, fun entry mem => ?_⟩
        obtain ⟨_, pending, isPending, kind, request, _⟩ :=
          mirrored.names_of_noneDoomed free none mem
        unfold Mirror.superseded at isNone
        rw [isPending] at isNone
        simp only [Option.filter_some, kind, decide_true, Bool.true_and,
          ne_eq, decide_not, Bool.not_eq_true', decide_eq_false_iff_not,
          ite_eq_right_iff, reduceCtorEq, imp_false, not_not] at isNone
        exact request.symm.trans isNone
    · split <;> rfl

/-- The entries of the run are withdrawn. -/
theorem Mirrored.withdraws {its : MirrorPc} {id : Option ApprovalId}
    (before : world.tasks task = some pc) (inside : pc.inSection = true)
    (only : ∀ entry ∈ world.shared.inbox.pendingEntries, some entry.id = id)
    (stays : its.inSection = true) (watcher : its.isWatcher = pc.isWatcher)
    (unnamed : its.entryId = none)
    (knows : (world.shared.inbox.withdraw id).pendingEntries = [] →
      its.Knows
        { world.shared with inbox := world.shared.inbox.withdraw id }) :
    Mirrored (world.put task
      { world.shared with inbox := world.shared.inbox.withdraw id }
      (some its)) := by
  have empty := RunInbox.withdraw_eq_nil only
  have shrinks := RunInbox.Shrinks.withdraw world.shared.inbox id
  refine mirrored.within before inside ?_ ?_ ?_ (.inl rfl) ?_ ?_ ?_ ?_ ?_
    ?_ ?_ ?_ ?_
  · simp [empty]
  · intro _ _ _
    exact mirrored.locked task pc before inside
  · intro other at_ isWatcher
    cases at_
    exact ⟨watcher ▸ isWatcher, rfl⟩
  · exact mirrored.live
  · intro other at_
    cases at_
    exact knows empty
  · simp [empty]
  · intro other at_ id watches same
    cases at_
    rw [same] at stays
    cases stays
  · simp [empty]
  · exact le_of_eq shrinks.next.symm
  · simp only [shrinks.next]
    exact shrinks.ids _ mirrored.freshEntries
  · simp only [shrinks.next]
    exact mirrored.freshRow
  · intro other at_ id isId
    cases at_
    rw [unnamed] at isId
    cases isId

theorem Mirrored.recording {frame : Frame}
    (before : world.tasks task = some (.recording frame)) :
    Mirrored (world.put task
      (world.shared.write (some (frame.stored now))
        (fun _ => frame.requestChanges .approval now) now)
      (some (.filing
        { kind := .approval, frame := frame, receivedAt := now } true))) := by
  have isPending : (world.shared.write (some (frame.stored now))
      (fun _ => frame.requestChanges .approval now) now).row.pending =
        some { kind := .approval, frame := frame, receivedAt := now } := by
    simp [Mirror.write, rowAfter_pending, Frame.requestChanges]
  have live : (world.shared.write (some (frame.stored now))
      (fun _ => frame.requestChanges .approval now) now).row.isLive =
        true := isLive_write rfl
  have knows := (mirrored.knows task _ before).2
  refine mirrored.within before rfl mirrored.few ?_ ?_ (.inl rfl)
    (fun _ => live) ?_ (mirrored.clear task _ before rfl) ?_ ?_ le_rfl
    mirrored.freshEntries ?_ ?_
  · intro _ _ _
    exact mirrored.locked task _ before rfl
  · intro _ _ _
    exact ⟨rfl, rfl⟩
  · intro its at_
    cases at_
    exact ⟨live, ⟨_, isPending, rfl, rfl⟩, knows⟩
  · intro its at_ id watches
    cases at_
    exact fun same => by cases same
  · intro outside
    cases outside _ rfl
  · intro id isId
    simp [Mirror.approvalId, isPending] at isId
  · intro its at_ id isId
    cases at_
    cases isId

end

variable {watches : Bool}

theorem Mirrored.filing {pending : Pending} (mirrored : Mirrored world)
    (before : world.tasks task = some (.filing pending watches))
    (turned : world.shared.turn task (.filing pending watches) now =
      some (after, its)) :
    Mirrored (world.put task after its) := by
  obtain ⟨live, waits, same⟩ := mirrored.knows task _ before
  have clear := mirrored.noneDoomed waits
  simp only [Mirror.turn] at turned
  split at turned
  · rename_i request
    cases turned
    have empty : world.shared.inbox.pendingEntries = [] := by
      rw [eq_nil_iff_forall_not_mem]
      intro entry mem
      have contradiction := same entry mem
      rw [request] at contradiction
      cases contradiction
    refine mirrored.within before rfl mirrored.few ?_ ?_ (.inl rfl)
      mirrored.live ?_ clear ?_ ?_ le_rfl mirrored.freshEntries
      mirrored.freshRow ?_
    · intro other at_ inside
      obtain ⟨rfl, _⟩ := eq_of_afterwards at_
      cases inside
    · intro other at_ _
      exact ⟨(eq_of_afterwards at_).2, rfl⟩
    · intro other at_
      obtain ⟨rfl, _⟩ := eq_of_afterwards at_
      trivial
    · intro other at_ id its
      obtain ⟨rfl, _⟩ := eq_of_afterwards at_
      exact fun same => by cases same
    · intro _ entry mem
      rw [show world.shared.release.inbox = world.shared.inbox from rfl,
        empty] at mem
      cases mem
    · intro other at_ id isId
      obtain ⟨rfl, _⟩ := eq_of_afterwards at_
      cases isId
  · rename_i requestId request
    cases turned
    have only : ∀ entry ∈ world.shared.inbox.pendingEntries,
        entry.requestId = requestId := by
      intro entry mem
      exact Option.some.inj ((same entry mem).trans request)
    obtain ⟨filed, isFiled, id, own⟩ :=
      RunInbox.enqueue_pendingEntries requestId
        pending.frame.executionGeneration mirrored.few only
    obtain ⟨grows, freshEntries, freshId⟩ :=
      RunInbox.enqueue_fresh requestId pending.frame.executionGeneration
        mirrored.freshEntries
    refine mirrored.within before rfl ?_ ?_ ?_ (.inl rfl) mirrored.live ?_ ?_
      ?_ ?_ grows freshEntries ?_ ?_
    · simp [isFiled]
    · intro _ _ _
      exact mirrored.locked task _ before rfl
    · intro other at_ isWatcher
      cases at_
      exact ⟨isWatcher, rfl⟩
    · intro other at_
      cases at_
      refine ⟨live, request ▸ waits, fun entry mem => ?_⟩
      simp only [isFiled, mem_singleton] at mem
      subst mem
      exact ⟨own, id⟩
    · intro entry mem doomed
      simp only [isFiled, mem_singleton] at mem
      subst mem
      obtain ⟨other, its, at_⟩ := doomed
      rcases RunInbox.enqueue_id world.shared.inbox requestId
        pending.frame.executionGeneration with
        ⟨old, oldMem, sameId⟩ | isNext
      · refine clear old oldMem ⟨other, its, ?_⟩
        rw [sameId, ← id]
        exact at_
      · have fresh := mirrored.freshTasks other _ at_ _ rfl
        rw [id, isNext] at fresh
        exact absurd fresh (lt_irrefl _)
    · intro other at_ id its
      cases at_
      exact fun same => by cases same
    · intro outside
      cases outside _ rfl
    · intro id isId
      exact lt_of_lt_of_le (mirrored.freshRow id isId) grows
    · intro other at_ id isId
      cases at_
      cases isId
      exact freshId

variable {mirror : Mirror}

/-- The row names the entry after `_store_approval_id`. -/
theorem names_of_storeApprovalId
    (waits : mirror.WaitsFor (some entry.requestId)) :
    (mirror.write none
      ((Writer.storeApprovalId entry.requestId entry.id).changes now)
        now).Names entry := by
  obtain ⟨pending, isPending, kind, request⟩ := waits
  unfold Mirror.Names Mirror.write
  rw [rowAfter_pending]
  simp only [Writer.changes, isPending, kind, request]
  by_cases stored : pending.approvalId = some entry.id
  · refine ⟨pending, ?_, kind, request, stored⟩
    simp [stored]
  · refine ⟨{ pending with approvalId := some entry.id }, ?_, kind, request,
      rfl⟩
    simp [stored, kind]

variable {requestId : String} {id : ApprovalId}

theorem approvalId_of_storeApprovalId {own : ApprovalId}
    (isId : (mirror.write none
      ((Writer.storeApprovalId requestId own).changes now) now).approvalId =
        some id) :
    mirror.approvalId = some id ∨ id = own := by
  unfold Mirror.approvalId Mirror.write at isId
  rw [rowAfter_pending] at isId
  simp only [Writer.changes] at isId
  unfold Mirror.approvalId
  split at isId
  · exact .inl isId
  · split at isId
    · exact .inl isId
    · simp only [Option.getD_some, Option.bind_some, Option.some.injEq]
        at isId
      exact .inr isId.symm

theorem Mirrored.storing (mirrored : Mirrored world)
    (before : world.tasks task = some (.storing requestId id watches))
    (turned : world.shared.turn task (.storing requestId id watches) now =
      some (after, its)) :
    Mirrored (world.put task after its) := by
  obtain ⟨live, waits, same⟩ := mirrored.knows task _ before
  simp only [Mirror.turn, writeLive_of_live live] at turned
  cases turned
  have stillLive : (world.shared.write none
      ((Writer.storeApprovalId requestId id).changes now) now).row.isLive =
        true := isLive_write (Writer.changes_live live)
  refine mirrored.within before rfl mirrored.few ?_ ?_ (.inl rfl)
    (fun _ => stillLive) ?_ (mirrored.noneDoomed waits) ?_ ?_ le_rfl
    mirrored.freshEntries ?_ ?_
  · intro other at_ inside
    obtain ⟨rfl, _⟩ := eq_of_afterwards at_
    cases inside
  · intro other at_ _
    exact ⟨(eq_of_afterwards at_).2, rfl⟩
  · intro other at_
    obtain ⟨rfl, _⟩ := eq_of_afterwards at_
    trivial
  · intro other at_ id its
    obtain ⟨rfl, _⟩ := eq_of_afterwards at_
    exact fun same => by cases same
  · intro _ entry mem
    obtain ⟨rfl, rfl⟩ := same entry mem
    exact ⟨stillLive, names_of_storeApprovalId waits⟩
  · intro other isId
    rcases approvalId_of_storeApprovalId isId with was | rfl
    · exact mirrored.freshRow other was
    · exact mirrored.freshTasks task _ before other rfl
  · intro other at_ id isId
    obtain ⟨rfl, _⟩ := eq_of_afterwards at_
    cases isId

theorem Mirrored.withdrawing {id : Option ApprovalId}
    (mirrored : Mirrored world)
    (before : world.tasks task = some (.withdrawing id watches)) :
    Mirrored (world.put task
      { world.shared with inbox := world.shared.inbox.withdraw id }
      (Mirror.afterwards watches)) := by
  refine mirrored.calm before ?_ rfl rfl (.withdraw _ id) ?_ ?_
    (.inl ⟨rfl, ?_⟩)
  · intro pc same
    cases same
    rfl
  · intro pc at_
    obtain ⟨rfl, _⟩ := eq_of_afterwards at_
    exact ⟨rfl, nofun⟩
  · intro own its same
    cases same
    exact RunInbox.not_mem_withdraw world.shared.inbox own
  · intro pc at_ _
    exact mirrored.claimed task _ before (eq_of_afterwards at_).2

variable {tail : Tail}

theorem Mirrored.ending {ending : Ending} (mirrored : Mirrored world)
    (before : world.tasks task = some (.ending ending tail watches))
    (none : NoneDoomed world)
    (turned : world.shared.turn task (.ending ending tail watches) now =
      some (after, its)) :
    Mirrored (world.put task after its) := by
  simp only [Mirror.turn, Mirror.locking] at turned
  split at turned
  · cases turned
  · rename_i free
    cases turned
    split
    · rename_i waiting
      refine mirrored.acquire before free rfl (fun isWatcher => isWatcher)
        ⟨?_, fun entry mem => ?_⟩ rfl fun supersedes => by cases supersedes
      · exact And.left (by simpa using waiting)
      · exact (mirrored.names_of_noneDoomed free none mem).2.approvalId.symm
    · rename_i quiet
      refine mirrored.acquire before free rfl (fun isWatcher => isWatcher)
        ?_ rfl fun supersedes => by cases supersedes
      show world.shared.inbox.pendingEntries = []
      rw [eq_nil_iff_forall_not_mem]
      intro entry mem
      obtain ⟨live, named⟩ := mirrored.names_of_noneDoomed free none mem
      exact quiet (by simp [live, named.waitsFor.isPending])

theorem Mirrored.writingEnd {ending : Ending} (mirrored : Mirrored world)
    (before : world.tasks task = some (.writingEnd ending tail watches))
    (unclaimed : watches = false → world.shared.claimed = none)
    (turned : world.shared.turn task (.writingEnd ending tail watches) now =
      some (after, its)) :
    Mirrored (world.put task after its) := by
  have empty : world.shared.inbox.pendingEntries = [] :=
    mirrored.knows task _ before
  simp only [Mirror.turn] at turned
  cases turned
  have inbox : (world.shared.writeLive
      (ending.frame.map fun frame => frame.stored now)
      (ending.changes tail) now).inbox = world.shared.inbox := by
    unfold Mirror.writeLive
    split <;> rfl
  have claimed : (world.shared.writeLive
      (ending.frame.map fun frame => frame.stored now)
      (ending.changes tail) now).claimed = world.shared.claimed := by
    unfold Mirror.writeLive
    split <;> rfl
  refine mirrored.within before rfl ?_ ?_ ?_ ?_ ?_ ?_ ?_ ?_ ?_ ?_ ?_ ?_ ?_
  · simp [inbox, empty]
  · exact fun its at_ => by cases at_
  · exact fun its at_ => by cases at_
  · cases watches with
    | true => exact .inr ⟨rfl, rfl⟩
    | false => exact .inl claimed
  · intro isClaimed
    cases watches with
    | true => cases isClaimed
    | false =>
      simp [claimed, unclaimed rfl] at isClaimed
  · exact fun its at_ => by cases at_
  · simp [inbox, empty]
  · exact fun its at_ => by cases at_
  · simp [inbox, empty]
  · exact le_of_eq (congrArg RunInbox.next inbox.symm)
  · simp only [inbox]
    exact mirrored.freshEntries
  · intro id isId
    simp only [inbox]
    refine mirrored.freshRow id ?_
    unfold Mirror.approvalId Mirror.writeLive at isId
    split at isId
    · simp [Mirror.write, rowAfter_pending, Ending.changes] at isId
    · exact isId
  · exact fun its at_ => by cases at_

theorem Mirrored.transacts {event : Option StoredEvent}
    {decide : RunRow → Changes} (mirrored : Mirrored world)
    (before : world.tasks task = some pc) (free : world.shared.lock = none)
    (idle : ∀ id watches, pc ≠ .withdrawing id watches)
    (live : world.shared.row.isLive = true →
      (world.shared.write event decide now).row.isLive = true)
    (clears : (decide world.shared.row).pending = none ∨
      (decide world.shared.row).pending = some none)
    (names : ∀ entry ∈ world.shared.inbox.pendingEntries,
      world.shared.Names entry →
        (decide world.shared.row).pending = none) :
    Mirrored (world.put task (world.shared.writeLive event decide now)
      none) := by
  cases isLive : world.shared.row.isLive with
  | false =>
    rw [writeLive_of_over isLive]
    refine mirrored.rewrite before free (.refl _) idle ?_ ?_ ?_ ?_
    · exact fun its at_ => by cases at_
    · exact fun its at_ => by cases at_
    · exact fun entry mem named => .inl named
    · exact nofun
  | true =>
    rw [writeLive_of_live isLive]
    have rewritten : Rewritten world.shared
        (world.shared.write event decide now) := by
      rcases clears with keeps | cleared
      · exact .of_same live keeps
      · exact .of_cleared live cleared (fun its same => by cases same)
          fun its same => by cases same
    refine mirrored.rewrite before free rewritten idle ?_ ?_ ?_ ?_
    · exact fun its at_ => by cases at_
    · exact fun its at_ => by cases at_
    · exact fun entry mem named =>
        .inl (names_of_same (names entry mem named) named)
    · exact nofun

theorem settle_keeps (answered : SettlesAnswered mirror requestId)
    (mem : entry ∈ mirror.inbox.pendingEntries) (named : mirror.Names entry) :
    ((Writer.settle requestId).changes now mirror.row).pending = none := by
  have differs := answered entry mem named
  obtain ⟨pending, isPending, _, request, _⟩ := named
  refine clearPending_of_other isPending ?_
  rw [request]
  exact fun same => differs (Option.some.inj same)

section

variable (mirrored : Mirrored world)
include mirrored

theorem Mirrored.settling
    (before : world.tasks task = some (.settling requestId))
    (answered : SettlesAnswered world.shared requestId)
    (turned : world.shared.turn task (.settling requestId) now =
      some (after, its)) :
    Mirrored (world.put task after its) := by
  simp only [Mirror.turn] at turned
  split at turned
  · cases turned
  · rename_i free
    cases turned
    refine mirrored.transacts before free (nofun) ?_
      ?_ ?_
    · exact fun live => isLive_write (Writer.changes_live live)
    · exact clearPending_pending (some requestId)
    · exact fun entry mem named => settle_keeps answered mem named

theorem Mirrored.answering {generation : Option Int}
    (before : world.tasks task = some (.answering id requestId generation))
    (turned : world.shared.turn task (.answering id requestId generation)
      now = some (after, its)) :
    Mirrored (world.put task after its) := by
  have idle : ∀ own watches, MirrorPc.answering id requestId generation ≠
      .withdrawing own watches := nofun
  simp only [Mirror.turn] at turned
  split at turned
  · cases turned
  · split at turned
    · cases turned
      exact mirrored.leaves before rfl idle world.shared.spent
    · split at turned
      · cases turned
        exact mirrored.leaves before rfl idle _
      · cases turned
        refine mirrored.moves before rfl idle rfl rfl rfl rfl ?_ ?_
        · intro pc at_
          cases at_
          exact ⟨rfl, nofun⟩
        · intro pc at_ isWatcher
          cases at_
          cases isWatcher

theorem Mirrored.refiling
    (before : world.tasks task = some (.refiling requestId))
    (turned : world.shared.turn task (.refiling requestId) now =
      some (after, its)) :
    Mirrored (world.put task after its) := by
  have idle : ∀ own watches, MirrorPc.refiling requestId ≠
      .withdrawing own watches := nofun
  have ends : Mirrored (world.put task world.shared none) :=
    mirrored.leaves before rfl idle world.shared.spent
  simp only [Mirror.turn] at turned
  split at turned
  · split at turned <;> cases turned
    exact ends
  · rename_i pending isPending
    split at turned
    · split at turned <;> cases turned
      exact ends
    · rename_i waiting
      simp only [Bool.or_eq_true, Bool.not_eq_true', not_or,
        Bool.not_eq_false] at waiting
      obtain ⟨live, asked⟩ := waiting
      unfold Mirror.locking at turned
      split at turned
      · cases turned
      · rename_i free
        cases turned
        have waits : world.shared.WaitsFor pending.requestId := by
          obtain ⟨its, isIts, kind, _⟩ := waitsFor_of_isPending asked
          rw [isPending] at isIts
          cases isIts
          exact ⟨pending, isPending, kind, rfl⟩
        refine mirrored.acquire before free rfl
          (fun isWatcher => by cases isWatcher) ⟨live, waits, ?_⟩ rfl
          fun supersedes => by cases supersedes
        exact fun entry mem => mirrored.requestId_of_waitsFor free waits mem

theorem Mirrored.stopping {reported : Option String}
    (before : world.tasks task = some (.stopping reported))
    (turned : world.shared.turn task (.stopping reported) now =
      some (after, its)) :
    Mirrored (world.put task after its) := by
  have idle : ∀ own watches, MirrorPc.stopping reported ≠
      .withdrawing own watches := nofun
  simp only [Mirror.turn] at turned
  split at turned
  · cases turned
  · rename_i free
    cases turned
    cases waits : world.shared.row.pending with
    | none =>
      simp only [Option.isSome_none, Bool.and_false, Bool.false_eq_true,
        if_false]
      refine mirrored.transacts before free idle ?_ ?_ ?_
      · exact fun live => isLive_write (Writer.changes_live live)
      · exact .inl (by simp [Writer.changes, RunRow.stopChanges, waits])
      · exact fun _ _ _ =>
          by simp [Writer.changes, RunRow.stopChanges, waits]
    | some pending =>
      cases isLive : world.shared.row.isLive with
      | false =>
        rw [writeLive_of_over isLive]
        exact mirrored.leaves before rfl idle world.shared.spent
      | true =>
        rw [writeLive_of_live isLive]
        have cleared : ((Writer.stopping reported).changes now
            world.shared.row).pending = some none := by
          simp [Writer.changes, RunRow.stopChanges, waits]
        refine mirrored.rewrite before free
          (.of_cleared (fun live => isLive_write
            (Writer.changes_live live)) cleared
            (fun its same => by cases same)
            fun its same => by cases same) idle ?_ ?_ ?_ ?_
        · intro pc at_
          cases at_
          rfl
        · intro pc at_ isWatcher
          cases at_
          cases isWatcher
        · intro entry _ named
          refine .inr ⟨false, ?_⟩
          simp [named.approvalId]
        · intro id watches at_
          simp only [Option.isSome_some, Bool.and_self, if_true,
            Option.some.injEq, MirrorPc.withdrawing.injEq] at at_
          refine ⟨noApproval_of_changes cleared ?_, at_.1⟩
          exact fun its same => by cases same

theorem Mirrored.attaching {row : RunRow}
    (before : world.tasks task = some (.attaching row))
    (current : world.shared.row.pending = row.pending)
    (turned : world.shared.turn task (.attaching row) now =
      some (after, its)) :
    Mirrored (world.put task after its) := by
  have watches : Mirrored
      (world.put task world.shared (some .watching)) := by
    refine mirrored.moves before rfl (nofun) rfl rfl
      rfl rfl ?_ fun _ _ _ => rfl
    intro pc at_
    cases at_
    exact ⟨rfl, nofun⟩
  simp only [Mirror.turn] at turned
  split at turned
  · cases turned
    exact watches
  · rename_i pending isPending
    split at turned
    · rename_i asks
      simp only [Bool.and_eq_true, decide_eq_true_eq] at asks
      unfold Mirror.locking at turned
      split at turned
      · cases turned
      · rename_i free
        cases turned
        have live := mirrored.live (by
          rw [mirrored.claimed task _ before rfl]
          rfl)
        have waits : world.shared.WaitsFor pending.requestId :=
          ⟨pending, current.trans isPending, asks.1, rfl⟩
        refine mirrored.acquire before free rfl (fun _ => rfl)
          ⟨live, waits, ?_⟩ rfl fun supersedes => by cases supersedes
        exact fun entry mem => mirrored.requestId_of_waitsFor free waits mem
    · cases turned
      exact watches

/-- Every turn of a task keeps the mirror. -/
theorem Mirrored.turn (before : world.tasks task = some pc)
    (unraced : UnracedTurn world pc (.turn now))
    (turned : world.shared.turn task pc now = some (after, its)) :
    Mirrored (world.put task after its) := by
  cases pc with
  | watching => cases turned
  | requesting frame => exact mirrored.requesting before unraced turned
  | retiring frame id =>
    obtain ⟨live, only⟩ := mirrored.knows task _ before
    cases turned
    refine mirrored.withdraws before rfl only rfl rfl rfl fun empty => ?_
    exact ⟨live, by simp [empty]⟩
  | recording frame =>
    cases turned
    exact mirrored.recording before
  | filing pending watches => exact mirrored.filing before turned
  | storing requestId id watches => exact mirrored.storing before turned
  | withdrawing id watches =>
    cases turned
    exact mirrored.withdrawing before
  | ending ending tail watches =>
    exact mirrored.ending before unraced turned
  | retiringEnd ending tail watches id =>
    cases turned
    exact mirrored.withdraws before rfl (mirrored.knows task _ before).2
      rfl rfl rfl fun empty => empty
  | writingEnd ending tail watches =>
    refine mirrored.writingEnd before ?_ turned
    rintro rfl
    exact unraced
  | answering id requestId generation =>
    exact mirrored.answering before turned
  | posting requestId => cases turned
  | settling requestId => exact mirrored.settling before unraced turned
  | refiling requestId => exact mirrored.refiling before turned
  | stopping reported => exact mirrored.stopping before turned
  | reattaching =>
    cases turned
    refine mirrored.moves before rfl (nofun) rfl
      rfl rfl rfl ?_ ?_
    · intro pc at_
      split at at_ <;> cases at_
      exact ⟨rfl, nofun⟩
    · intro pc at_ isWatcher
      split at at_ <;> cases at_
      cases isWatcher
  | probing row => cases turned
  | attaching row => exact mirrored.attaching before unraced turned

/-- Every frame keeps it. -/
theorem Mirrored.onFrame {frame : Frame}
    (before : world.tasks task = some .watching)
    (turned : world.shared.onFrame frame now = some (after, its)) :
    Mirrored (world.put task after its) := by
  have idle : ∀ own watches, MirrorPc.watching ≠
      .withdrawing own watches := nofun
  unfold Mirror.onFrame at turned
  split at turned
  · cases turned
  · split at turned
    · cases turned
      refine mirrored.moves before rfl idle rfl rfl rfl rfl ?_
        fun _ _ _ => rfl
      intro pc at_
      cases at_
      exact ⟨rfl, nofun⟩
    · rename_i other
      split at turned
      · cases turned
      · rename_i free
        cases turned
        have live : world.shared.row.isLive = true →
            (world.shared.write (some (frame.stored now))
              (frame.changes now) now).row.isLive = true :=
          fun live => isLive_write (Frame.changes_live live)
        have rewritten : Rewritten world.shared
            (world.shared.write (some (frame.stored now))
              (frame.changes now) now) := by
          rcases @Frame.changes_pending world.shared.row frame now other
            with keeps | ⟨pending, changed, none, unnamed⟩
          · exact .of_same live keeps
          · exact .of_cleared live changed none unnamed
        refine mirrored.rewrite before free rewritten idle ?_
          (fun _ _ _ => rfl) ?_ ?_
        · intro pc at_
          cases at_
          split <;> rfl
        · intro entry _ named
          cases supersedes : Mirror.supersedes frame world.shared.row with
          | true =>
            refine .inr ⟨true, ?_⟩
            simp [named.approvalId]
          | false =>
            obtain ⟨pending, isPending, kind, _⟩ := id named
            exact .inl (names_of_same (Frame.changes_of_not_supersedes
              other supersedes isPending kind) named)
        · intro id watches at_
          split at at_
          · rename_i supersedes
            obtain ⟨pending, changed, none⟩ :=
              @Frame.changes_of_supersedes world.shared.row frame now
                supersedes
            simp only [Option.some.injEq, MirrorPc.withdrawing.injEq] at at_
            exact ⟨noApproval_of_changes changed none, at_.1⟩
          · cases at_

end

theorem textChanges_live {row : RunRow} (live : row.isLive = true) :
    (!((tail.textChanges row).status.getD row.status).isTerminal) =
      true := by
  simp only [Tail.textChanges]
  split
  · rfl
  · exact live

section

variable (mirrored : Mirrored world)
include mirrored

theorem Mirrored.flush (before : world.tasks task = some .watching)
    (free : world.shared.lock = none) :
    Mirrored (world.put task
      (world.shared.write (some (tail.textEvent now)) tail.textChanges now)
      (some .watching)) := by
  have rewritten : Rewritten world.shared
      (world.shared.write (some (tail.textEvent now)) tail.textChanges
        now) :=
    .of_same (fun live => isLive_write (textChanges_live live)) rfl
  refine mirrored.rewrite before free rewritten
    (nofun) ?_ (fun _ _ _ => rfl) ?_ ?_
  · intro pc at_
    cases at_
    rfl
  · exact fun entry _ named => .inl (names_of_same rfl named)
  · exact nofun

/-- Every step of a task keeps it. -/
theorem Mirrored.resume {reply : MirrorReply}
    (before : world.tasks task = some pc)
    (unraced : UnracedTurn world pc reply)
    (resumed : world.shared.resume task pc reply = some (after, its)) :
    Mirrored (world.put task after its) := by
  cases reply with
  | turn now =>
    refine mirrored.turn before ?_ resumed
    cases pc <;> exact unraced
  | flush tail now =>
    simp only [Mirror.resume] at resumed
    split at resumed
    · rename_i free
      cases resumed
      exact mirrored.flush before free
    · cases resumed
  | frame frame now =>
    simp only [Mirror.resume] at resumed
    split at resumed
    · exact mirrored.onFrame before resumed
    · cases resumed
  | ends ending tail =>
    simp only [Mirror.resume] at resumed
    split at resumed
    · cases resumed
      refine mirrored.moves before rfl (nofun) rfl
        rfl rfl rfl ?_ fun _ _ _ => rfl
      intro pc at_
      cases at_
      exact ⟨rfl, nofun⟩
    · cases resumed
  | posted outcome =>
    have goesOn : ∀ requestId, pc = .posting requestId → ∀ its,
        its = .settling requestId ∨ its = .refiling requestId →
          Mirrored (world.put task world.shared (some its)) := by
      rintro requestId rfl its isIts
      refine mirrored.moves before rfl (nofun) rfl
        rfl rfl rfl ?_ ?_
      · intro pc at_
        cases at_
        rcases isIts with rfl | rfl <;>
          exact ⟨rfl, nofun⟩
      · intro pc at_ isWatcher
        cases at_
        rcases isIts with rfl | rfl <;> cases isWatcher
    simp only [Mirror.resume] at resumed
    split at resumed
    · cases resumed
      exact goesOn _ rfl _ (.inl rfl)
    · cases resumed
      exact mirrored.leaves before rfl (nofun) _
    · cases resumed
      exact goesOn _ rfl _ (.inr rfl)
    · cases resumed
      exact goesOn _ rfl _ (.inr rfl)
    · cases resumed
  | probed known =>
    simp only [Mirror.resume] at resumed
    split at resumed
    · rename_i row
      split at resumed
      · cases resumed
        refine mirrored.moves before rfl (nofun)
          rfl rfl rfl rfl ?_ ?_
        · intro pc at_
          cases at_
          exact ⟨rfl, nofun⟩
        · intro pc at_ isWatcher
          cases at_
          cases isWatcher
      · rename_i isKnown
        obtain rfl : known = true := by simpa using isKnown
        split at resumed
        · cases resumed
          exact mirrored.leaves before rfl (nofun)
            world.shared.spent
        · rename_i unclaimed
          cases resumed
          have none : world.shared.claimed = none := by
            simpa using And.right (by simpa using unclaimed)
          refine mirrored.calm before ?_ rfl rfl (.refl _) ?_ ?_
            (.inr ⟨none, rfl, unraced none⟩)
          · intro pc same
            cases same
            rfl
          · intro pc at_
            cases at_
            exact ⟨rfl, nofun⟩
          · exact nofun
    · cases resumed

/-- A new task keeps it. -/
theorem Mirrored.start (unused : world.tasks task = none)
    (unraced : Unraced world (.task (.start task pc)))
    (started : world.shared.start task pc = some after) :
    Mirrored (world.put task after (some pc)) := by
  have same : ∀ pc : MirrorPc, pc.inSection = false →
      pc.isWatcher = false → (∀ id watches, pc ≠ .withdrawing id watches) →
        Mirrored (world.put task world.shared (some pc)) := by
    intro pc outside other idle
    refine mirrored.calm unused (fun _ at_ => by cases at_) rfl rfl
      (.refl _) ?_ (fun _ _ at_ => by cases at_) (.inl ⟨rfl, ?_⟩)
    · intro its at_
      cases at_
      exact ⟨outside, idle⟩
    · intro its at_ isWatcher
      cases at_
      rw [other] at isWatcher
      cases isWatcher
  cases pc with
  | watching =>
    simp only [Mirror.start] at started
    split at started
    · cases started
    · rename_i unclaimed
      simp only [Bool.not_eq_true, Option.isSome_eq_false_iff,
        Option.isNone_iff_eq_none] at unclaimed
      cases started
      refine mirrored.calm unused (fun _ at_ => by cases at_) rfl rfl
        (.refl _) ?_ (fun _ _ at_ => by cases at_)
        (.inr ⟨unclaimed, rfl, unraced.1⟩)
      intro pc at_
      cases at_
      exact ⟨rfl, nofun⟩
  | answering id requestId generation =>
    simp only [Mirror.start] at started
    split at started
    · cases started
      refine mirrored.calm unused (fun _ at_ => by cases at_) rfl rfl
        (.resolve _ id) ?_ (fun _ _ at_ => by cases at_) (.inl ⟨rfl, ?_⟩)
      · intro pc at_
        cases at_
        exact ⟨rfl, nofun⟩
      · intro pc at_ isWatcher
        cases at_
        cases isWatcher
    · cases started
  | stopping reported =>
    cases started
    exact same _ rfl rfl nofun
  | reattaching =>
    cases started
    exact same _ rfl rfl nofun
  | _ => cases started

/-- A write of a live run keeps it. -/
theorem Mirrored.occursLive {writer : Writer} (free : world.shared.lock = none)
    (clears : (writer.changes now world.shared.row).pending = none ∨
      (writer.changes now world.shared.row).pending = some none)
    (names : ∀ entry ∈ world.shared.inbox.pendingEntries,
      world.shared.Names entry →
        (writer.changes now world.shared.row).pending = none) :
    Mirrored { world with
      shared := world.shared.writeLive none (writer.changes now) now } := by
  cases isLive : world.shared.row.isLive with
  | false =>
    rw [writeLive_of_over isLive]
    exact mirrored
  | true =>
    rw [writeLive_of_live isLive]
    have live : world.shared.row.isLive = true →
        (world.shared.write none (writer.changes now) now).row.isLive =
          true := fun live => isLive_write (Writer.changes_live live)
    refine mirrored.occurs free ?_ ?_
    · rcases clears with keeps | cleared
      · exact .of_same live keeps
      · exact .of_cleared live cleared (fun its same => by cases same)
          fun its same => by cases same
    · exact fun entry mem named =>
        names_of_same (names entry mem named) named

/-- Every event keeps it. -/
theorem Mirrored.occur {event : MirrorEvent}
    (unraced : Unraced world (.task (.occur event)))
    (occurred : world.shared.occur event = some after) :
    Mirrored { world with shared := after } := by
  cases event with
  | settle requestId now =>
    simp only [Mirror.occur] at occurred
    split at occurred
    · cases occurred
    · rename_i free
      cases occurred
      exact mirrored.occursLive free (clearPending_pending (some requestId))
        fun entry mem named => settle_keeps unraced mem named
  | clarifyDeadline requestId error now =>
    simp only [Mirror.occur] at occurred
    split at occurred
    · cases occurred
    · rename_i free
      cases occurred
      refine mirrored.occursLive free ?_ ?_
      · simp only [Writer.changes]
        split
        · exact .inr rfl
        · exact .inl rfl
      · rintro entry _ ⟨pending, isPending, kind, _⟩
        simp [Writer.changes, RunRow.isPending, isPending, kind]
  | stopDelivered now =>
    simp only [Mirror.occur] at occurred
    split at occurred
    · cases occurred
    · rename_i free
      cases occurred
      have keeps : (Writer.stopDelivered.changes now
          world.shared.row).pending = none := by
        simp only [Writer.changes]
        split <;> rfl
      exact mirrored.occursLive free (.inl keeps) fun _ _ _ => keeps

/-- A restart begins with an empty inbox. -/
theorem Mirrored.restarted :
    Mirrored (MirrorWorld.restarted world) := by
  have only : ∀ task pc, (MirrorWorld.restarted world).tasks task = some pc →
      pc = .reattaching := by
    intro task pc at_
    simp only [MirrorWorld.restarted] at at_
    split at at_ <;> cases at_
    rfl
  constructor
  · exact zero_le _
  · intro task pc at_ inside
    cases only task pc at_
    cases inside
  · intro task pc at_ isWatcher
    cases only task pc at_
    cases isWatcher
  · intro isClaimed
    cases isClaimed
  · intro task pc at_
    cases only task pc at_
    trivial
  · exact fun _ entry mem => by cases mem
  · exact fun entry mem => by cases mem
  · exact fun _ _ _ _ entry mem => by cases mem
  · exact fun entry mem => by cases mem
  · exact mirrored.freshRow
  · intro task pc at_ id isId
    cases only task pc at_
    cases isId

theorem mirrored_of_step {action : MirrorAction}
    (unraced : Unraced world action)
    (moved : mirrorStep world action = some next) : Mirrored next := by
  cases action with
  | restart =>
    cases moved
    exact mirrored.restarted
  | task action =>
    cases Program.moves_of_step moved with
    | start unused started => exact mirrored.start unused unraced started
    | resume suspended resumed =>
      exact mirrored.resume suspended (unraced _ suspended) resumed
    | cancel suspended cancelled => cases cancelled
    | occur occurred => exact mirrored.occur unraced occurred

end

/-- It holds when the run is stored. -/
theorem mirrored_admitted {row : RunRow} (quiet : row.pending = none) :
    Mirrored (World.quiet (Mirror.admitted row)) where
  few := zero_le _
  locked := fun _ _ at_ => by cases at_
  claimed := fun _ _ at_ => by cases at_
  live := fun isClaimed => by cases isClaimed
  knows := fun _ _ at_ => by cases at_
  cover := fun _ _ mem => by cases mem
  late := fun _ mem => by cases mem
  clear := fun _ _ at_ => by cases at_
  freshEntries := fun _ mem => by cases mem
  freshRow := by
    intro id isId
    simp [World.quiet, Mirror.admitted, Mirror.approvalId, quiet] at isId
  freshTasks := fun _ _ at_ => by cases at_

end Steps

end Hal0.Bridge
