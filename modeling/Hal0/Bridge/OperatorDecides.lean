import Hal0.Bridge.TerminalStays

/-!
# The operator can decide a run which waits

A live run which waits for an approval is never forgotten: its request has an
entry in the inbox, or a task sees to it (files it, decides it, attaches to
the run), or a decision of it came to its end for good.  Where nothing is
going on only the entry is left, or that end.

A decision comes to its end for good where Hermes answers that the request is
not pending, or where no execution generation is known which could be sent
with it.  Neither puts the request back in the inbox.
-/

namespace Hal0.Bridge

open List Option
open Hal0.Transition Hal0.Tasks
open Hal0.Mcp (ApprovalId)

/-! ## Who sees to a request -/

namespace MirrorPc

/-- The request which the task carries a decision of. -/
def decides : MirrorPc → Option String
  | .answering _ requestId _ | .posting requestId | .settling requestId
  | .refiling requestId => some requestId
  | _ => none

/-- The task is about to watch the run again. -/
def attaches : MirrorPc → Bool
  | .attaching _ => true
  | _ => false

/-- The task knows of the request. -/
def sees (requestId : String) (pc : MirrorPc) : Bool :=
  pc.inSection || pc.decides = some requestId || pc.attaches

/-- The task belongs to a re-attach. -/
def returns : MirrorPc → Bool
  | .reattaching | .probing _ => true
  | .ending _ _ watches => !watches
  | _ => false

end MirrorPc

/-- The request is not forgotten. -/
inductive Attended (world : MirrorWorld) (requestId : String) : Prop where
  | seen (task : TaskId) {pc : MirrorPc}
      (at_ : world.tasks task = some pc) (sees : pc.sees requestId = true)
  | filed {entry : InboxEntry}
      (mem : entry ∈ world.shared.inbox.pendingEntries)
      (names : world.shared.Names entry)
  | spent (mem : requestId ∈ world.shared.spent)
  | returning (task : TaskId) {pc : MirrorPc}
      (unclaimed : world.shared.claimed = none)
      (at_ : world.tasks task = some pc) (returns : pc.returns = true)

/-- The entry which is about to be named is there, or is being decided. -/
def Stored (world : MirrorWorld) (requestId : String) (id : ApprovalId) :
    Prop :=
  (∃ entry ∈ world.shared.inbox.pendingEntries,
      entry.requestId = requestId ∧ entry.id = id) ∨
    ∃ task generation,
      world.tasks task = some (.answering id requestId generation)

/-- No request of the run is forgotten. -/
structure Waited (world : MirrorWorld) : Prop where
  attended : ∀ requestId, world.shared.row.isLive = true →
    world.shared.WaitsFor (some requestId) → Attended world requestId
  stored : ∀ task requestId id watches,
    world.tasks task = some (.storing requestId id watches) →
      Stored world requestId id
  probes : ∀ task row, world.tasks task = some (.probing row) →
    row.isLive = true
  held : ∀ task, world.shared.lock = some task →
    ∃ pc, world.tasks task = some pc ∧ pc.inSection = true

section Turns

variable {world next : MirrorWorld} {task : TaskId} {pc : MirrorPc}
  {prior its : Option MirrorPc} {after : Mirror} {requestId : String}
  {now : Time}

theorem Attended.moved {its : MirrorPc} (sees : its.sees requestId = true) :
    Attended (world.put task after (some its)) requestId := by
  refine .seen task ?_ sees
  simp [World.put_tasks]

theorem Attended.returned {its : MirrorPc} (unclaimed : after.claimed = none)
    (returns : its.returns = true) :
    Attended (world.put task after (some its)) requestId := by
  refine .returning task unclaimed ?_ returns
  simp [World.put_tasks]

/-- What a step must show for the request. -/
theorem Attended.put (attended : Attended world requestId)
    (before : world.tasks task = prior)
    (sees : ∀ pc, prior = some pc → pc.sees requestId = true →
      Attended (world.put task after its) requestId)
    (filed : ∀ entry ∈ world.shared.inbox.pendingEntries,
      world.shared.Names entry →
        Attended (world.put task after its) requestId)
    (spent : ∀ other ∈ world.shared.spent, other ∈ after.spent)
    (claimed : world.shared.claimed = none → after.claimed = none ∨
      Attended (world.put task after its) requestId)
    (returns : ∀ pc, prior = some pc → pc.returns = true →
      world.shared.claimed = none →
        Attended (world.put task after its) requestId) :
    Attended (world.put task after its) requestId := by
  cases attended with
  | seen other at_ isSeen =>
    by_cases same : other = task
    · subst same
      exact sees _ (before.symm.trans at_) isSeen
    · refine .seen other ?_ isSeen
      rw [World.put_tasks, if_neg same]
      exact at_
  | filed mem names => exact filed _ mem names
  | spent mem => exact .spent (spent _ mem)
  | returning other unclaimed at_ isReturning =>
    by_cases same : other = task
    · subst same
      exact returns _ (before.symm.trans at_) isReturning unclaimed
    · rcases claimed unclaimed with still | done
      · refine .returning other still ?_ isReturning
        rw [World.put_tasks, if_neg same]
        exact at_
      · exact done

/-- A step which leaves row and inbox alone. -/
theorem Attended.keeps (attended : Attended world requestId)
    (before : world.tasks task = some pc)
    (unseen : pc.sees requestId = false) (here : pc.returns = false)
    (pending : after.row.pending = world.shared.row.pending)
    (inbox : ∀ entry ∈ world.shared.inbox.pendingEntries,
      world.shared.Names entry → entry ∈ after.inbox.pendingEntries)
    (spent : ∀ other ∈ world.shared.spent, other ∈ after.spent)
    (claimed : after.claimed = world.shared.claimed) :
    Attended (world.put task after its) requestId := by
  refine attended.put before ?_ ?_ spent ?_ ?_
  · intro other same isSeen
    cases same
    rw [unseen] at isSeen
    cases isSeen
  · intro entry mem names
    refine .filed (inbox entry mem names) ?_
    unfold Mirror.Names at names ⊢
    rw [World.put_shared, pending]
    exact names
  · exact fun unclaimed => .inl (claimed.trans unclaimed)
  · intro other same isReturning
    cases same
    rw [here] at isReturning
    cases isReturning

variable {mirror : Mirror}

theorem waitsFor_of_pending {requestId : Option String}
    (pending : after.row.pending = mirror.row.pending)
    (waits : after.WaitsFor requestId) : mirror.WaitsFor requestId := by
  unfold Mirror.WaitsFor at waits ⊢
  rw [← pending]
  exact waits

theorem isPending_of_waitsFor (waits : mirror.WaitsFor (some requestId)) :
    mirror.row.isPending .approval (some requestId) = true := by
  obtain ⟨pending, isPending, kind, request⟩ := waits
  simp [RunRow.isPending, isPending, kind, request]

theorem waitsFor_inj {one other : Option String} (waits : mirror.WaitsFor one)
    (waitsToo : mirror.WaitsFor other) :
    one = other := by
  obtain ⟨pending, isPending, _, request⟩ := waits
  obtain ⟨its, isIts, _, requestToo⟩ := waitsToo
  rw [isPending] at isIts
  cases isIts
  exact request.symm.trans requestToo

/-- `_store_approval_id` leaves the request as it is. -/
theorem waitsFor_of_storeApprovalId {own : String} {id : ApprovalId}
    {requestId : Option String}
    (waits : (mirror.write none
      ((Writer.storeApprovalId own id).changes now) now).WaitsFor
        requestId) : mirror.WaitsFor requestId := by
  obtain ⟨pending, isPending, kind, request⟩ := waits
  unfold Mirror.write at isPending
  rw [rowAfter_pending] at isPending
  simp only [Writer.changes] at isPending
  split at isPending
  · exact ⟨pending, isPending, kind, request⟩
  · rename_i stored isStored
    split at isPending
    · exact ⟨pending, isPending, kind, request⟩
    · simp only [getD_some, some.injEq] at isPending
      subst isPending
      exact ⟨stored, isStored, kind, request⟩

theorem not_waitsFor_of_cleared {event : Option StoredEvent}
    {decide : RunRow → Changes} {requestId : Option String}
    (cleared : (decide mirror.row).pending = some none) :
    ¬ (mirror.write event decide now).WaitsFor requestId := by
  intro waits
  refine waits.not_noApproval (noApproval_of_changes cleared ?_)
  exact nofun

theorem pending_of_same {event : Option StoredEvent}
    {decide : RunRow → Changes} (same : (decide mirror.row).pending = none) :
    (mirror.write event decide now).row.pending = mirror.row.pending := by
  simp [Mirror.write, rowAfter_pending, same]

theorem pending_of_settle {own : String}
    (waits : (mirror.write none ((Writer.settle own).changes now)
      now).WaitsFor (some requestId)) :
    (mirror.write none ((Writer.settle own).changes now) now).row.pending =
        mirror.row.pending ∧ own ≠ requestId := by
  rcases @clearPending_pending mirror.row (some own) with keeps | clears
  · have pending : (mirror.write none ((Writer.settle own).changes now)
        now).row.pending = mirror.row.pending := pending_of_same keeps
    refine ⟨pending, ?_⟩
    rintro rfl
    obtain ⟨its, isIts, _, request⟩ := waitsFor_of_pending pending waits
    simp [RunRow.clearPending, isIts, request] at keeps
  · exact absurd waits (not_waitsFor_of_cleared clears)

end Turns

/-! ## The steps -/

section Steps

variable {world next : MirrorWorld} {task : TaskId} {pc : MirrorPc}
  {its : Option MirrorPc} {after : Mirror} {requestId : String}
  {now : Time}

variable {own : String} {id : ApprovalId} {watches : Bool}

/-- The id is stored, or the entry withdrawn. -/
theorem Attended.storing (mirrored : Mirrored world)
    (before : world.tasks task = some (.storing own id watches))
    (stored : Stored world own id)
    (turned : world.shared.turn task (.storing own id watches) now =
      some (after, its)) (waits : after.WaitsFor (some requestId)) :
    Attended (world.put task after its) requestId := by
  obtain ⟨live, waited, _⟩ := mirrored.knows task _ before
  simp only [Mirror.turn, writeLive_of_live live] at turned
  cases turned
  have waitedToo := waitsFor_of_storeApprovalId waits
  obtain rfl := some.inj (waitsFor_inj waited waitedToo)
  rcases stored with ⟨entry, mem, rfl, rfl⟩ | ⟨other, generation, at_⟩
  · exact .filed mem (names_of_storeApprovalId waited)
  · have sees : (MirrorPc.answering id own generation).sees own = true := by
      simp [MirrorPc.sees, MirrorPc.decides]
    refine .seen other ?_ sees
    rw [World.put_tasks, if_neg ?_]
    · exact at_
    · rintro rfl
      rw [before] at at_
      cases at_

theorem Attended.withdrawing {id : Option ApprovalId}
    (mirrored : Mirrored world) (attended : Attended world requestId)
    (before : world.tasks task = some (.withdrawing id watches))
    (waits : world.shared.WaitsFor (some requestId)) :
    Attended (world.put task
      { world.shared with inbox := world.shared.inbox.withdraw id }
      (Mirror.afterwards watches)) requestId := by
  refine attended.keeps before rfl rfl rfl ?_ (fun _ mem => mem) rfl
  intro entry mem _
  cases id with
  | none => exact mem
  | some id =>
    refine RunInbox.mem_pendingEntries_resolve.mpr ⟨mem, ?_⟩
    rintro rfl
    exact mirrored.noneDoomed waits entry mem ⟨task, watches, before⟩

/-- A decision is taken up, or comes again. -/
theorem Attended.answering {generation : Option Int}
    (attended : Attended world requestId)
    (before : world.tasks task = some (.answering id own generation))
    (turned : world.shared.turn task (.answering id own generation) now =
      some (after, its)) (live : world.shared.row.isLive = true)
    (waits : world.shared.WaitsFor (some requestId)) :
    Attended (world.put task after its) requestId := by
  simp only [Mirror.turn] at turned
  split at turned
  · cases turned
  · by_cases same : own = requestId
    · subst same
      rw [live, isPending_of_waitsFor waits] at turned
      split at turned
      · rename_i absent
        cases absent
      · split at turned
        · cases turned
          exact .spent (by simp)
        · cases turned
          exact .moved (by simp [MirrorPc.sees, MirrorPc.decides])
    · have unseen : (MirrorPc.answering id own generation).sees requestId =
          false := by
        simp [MirrorPc.sees, MirrorPc.inSection, MirrorPc.decides,
          MirrorPc.attaches, same]
      split at turned
      · cases turned
        exact attended.keeps before unseen rfl rfl (fun _ mem _ => mem)
          (fun _ mem => mem) rfl
      · split at turned
        · cases turned
          exact attended.keeps before unseen rfl rfl (fun _ mem _ => mem)
            (fun _ mem => mem_append_left _ mem) rfl
        · cases turned
          exact attended.keeps before unseen rfl rfl (fun _ mem _ => mem)
            (fun _ mem => mem) rfl

theorem Attended.settling (attended : Attended world requestId)
    (before : world.tasks task = some (.settling own))
    (turned : world.shared.turn task (.settling own) now =
      some (after, its)) (live : world.shared.row.isLive = true)
    (waits : after.WaitsFor (some requestId)) :
    Attended (world.put task after its) requestId := by
  simp only [Mirror.turn, writeLive_of_live live] at turned
  split at turned <;> cases turned
  obtain ⟨pending, differs⟩ := pending_of_settle waits
  refine attended.keeps before ?_ rfl pending (fun _ mem _ => mem)
    (fun _ mem => mem) rfl
  simp [MirrorPc.sees, MirrorPc.inSection, MirrorPc.decides,
    MirrorPc.attaches, differs]

/-- The request is filed again. -/
theorem Attended.refiling (attended : Attended world requestId)
    (before : world.tasks task = some (.refiling own))
    (turned : world.shared.turn task (.refiling own) now =
      some (after, its)) (live : world.shared.row.isLive = true)
    (waits : world.shared.WaitsFor (some requestId)) :
    Attended (world.put task after its) requestId := by
  obtain ⟨pending, isPending, _, _⟩ := id waits
  simp only [Mirror.turn, isPending] at turned
  split at turned
  · rename_i absent
    have differs : own ≠ requestId := by
      rintro rfl
      rw [live, isPending_of_waitsFor waits] at absent
      cases absent
    split at turned <;> cases turned
    refine attended.keeps before ?_ rfl rfl (fun _ mem _ => mem)
      (fun _ mem => mem) rfl
    simp [MirrorPc.sees, MirrorPc.inSection, MirrorPc.decides,
      MirrorPc.attaches, differs]
  · unfold Mirror.locking at turned
    split at turned <;> cases turned
    exact .moved rfl

theorem Attended.attaching {row : RunRow}
    (current : world.shared.row.pending = row.pending)
    (turned : world.shared.turn task (.attaching row) now =
      some (after, its))
    (waits : world.shared.WaitsFor (some requestId)) :
    Attended (world.put task after its) requestId := by
  obtain ⟨pending, isPending, kind, request⟩ := waits
  simp only [Mirror.turn, ← current, isPending, kind, request] at turned
  simp only [decide_true, isSome_some, Bool.and_self, if_true,
    Mirror.locking] at turned
  split at turned <;> cases turned
  exact .moved rfl

/-- After a turn somebody attends to the request. -/
theorem Waited.attended_of_turn (waited : Waited world)
    (mirrored : Mirrored world) (before : world.tasks task = some pc)
    (unraced : UnracedTurn world pc (.turn now))
    (turned : world.shared.turn task pc now = some (after, its))
    (live : after.row.isLive = true)
    (waits : after.WaitsFor (some requestId)) :
    Attended (world.put task after its) requestId := by
  have wasLive : world.shared.row.isLive = true := by
    cases isOver : world.shared.row.isLive with
    | true => rfl
    | false =>
      rw [mirrored.row_of_turn isOver before turned, isOver] at live
      cases live
  cases pc with
  | requesting frame =>
    simp only [Mirror.turn, Mirror.locking] at turned
    split at turned <;> cases turned
    refine .moved ?_
    split <;> rfl
  | retiring frame id =>
    cases turned
    exact .moved rfl
  | recording frame =>
    cases turned
    exact .moved rfl
  | filing pending watches =>
    simp only [Mirror.turn] at turned
    split at turned
    · rename_i request
      cases turned
      have waited := (mirrored.knows task _ before).2.1
      rw [request] at waited
      cases waitsFor_inj waited waits
    · cases turned
      exact .moved rfl
  | storing own id watches =>
    exact .storing mirrored before (waited.stored task _ _ _ before)
      turned waits
  | withdrawing id watches =>
    cases turned
    exact (waited.attended requestId wasLive waits).withdrawing mirrored
      before waits
  | ending ending tail watches =>
    simp only [Mirror.turn, Mirror.locking] at turned
    split at turned <;> cases turned
    refine .moved ?_
    split <;> rfl
  | retiringEnd ending tail watches id =>
    cases turned
    exact .moved rfl
  | writingEnd ending tail watches =>
    simp only [Mirror.turn, writeLive_of_live wasLive] at turned
    cases turned
    simp [Mirror.write, RunRow.isLive, Ending.changes, ending.terminal]
      at live
  | answering id own generation =>
    have row : after.row = world.shared.row := by
      simp only [Mirror.turn] at turned
      split at turned
      · cases turned
      · split at turned
        · cases turned
          rfl
        · split at turned <;> cases turned <;> rfl
    have waiting := waitsFor_of_pending (congrArg RunRow.pending row) waits
    exact (waited.attended requestId wasLive waiting).answering before
      turned wasLive waiting
  | settling own =>
    have pending : after.row.pending = world.shared.row.pending := by
      simp only [Mirror.turn, writeLive_of_live wasLive] at turned
      split at turned <;> cases turned
      exact (pending_of_settle waits).1
    exact (waited.attended requestId wasLive
      (waitsFor_of_pending pending waits)).settling before turned wasLive
        waits
  | refiling own =>
    have row : after.row = world.shared.row := by
      simp only [Mirror.turn] at turned
      split at turned
      · split at turned <;> cases turned
        rfl
      · split at turned
        · split at turned <;> cases turned
          rfl
        · exact row_of_locking turned
    have waiting := waitsFor_of_pending (congrArg RunRow.pending row) waits
    exact (waited.attended requestId wasLive waiting).refiling before
      turned wasLive waiting
  | stopping reported =>
    simp only [Mirror.turn, writeLive_of_live wasLive] at turned
    split at turned <;> cases turned
    cases pending : world.shared.row.pending with
    | none =>
      have same : (world.shared.write none
          ((Writer.stopping reported).changes now) now).row.pending =
            none := by
        rw [pending_of_same, pending]
        simp [Writer.changes, RunRow.stopChanges, pending]
      obtain ⟨its, isIts, _⟩ := waits
      rw [same] at isIts
      cases isIts
    | some asked =>
      refine absurd waits (not_waitsFor_of_cleared ?_)
      simp [Writer.changes, RunRow.stopChanges, pending]
  | reattaching =>
    cases turned
    rw [if_pos wasLive]
    refine (waited.attended requestId wasLive waits).put before ?_ ?_
      (fun _ mem => mem) (fun unclaimed => .inl unclaimed) ?_
    · intro other same isSeen
      cases same
      cases isSeen
    · exact fun entry mem names => .filed mem names
    · intro other _ _ unclaimed
      exact .returned unclaimed rfl
  | attaching row =>
    have same : after.row = world.shared.row := by
      simp only [Mirror.turn] at turned
      split at turned
      · cases turned
        rfl
      · split at turned
        · exact row_of_locking turned
        · cases turned
          rfl
    exact .attaching unraced turned
      (waitsFor_of_pending (congrArg RunRow.pending same) waits)
  | _ => cases turned

theorem Attended.onFrame {frame : Frame} (attended : Attended world requestId)
    (before : world.tasks task = some .watching)
    (turned : world.shared.onFrame frame now = some (after, its))
    (pending : after.row.pending = world.shared.row.pending) :
    Attended (world.put task after its) requestId := by
  unfold Mirror.onFrame at turned
  split at turned
  · cases turned
  · split at turned
    · cases turned
      exact attended.keeps before rfl rfl rfl (fun _ mem _ => mem)
        (fun _ mem => mem) rfl
    · split at turned <;> cases turned
      exact attended.keeps before rfl rfl pending (fun _ mem _ => mem)
        (fun _ mem => mem) rfl

variable {mirror : Mirror}

/-- A frame takes no approval up by itself. -/
theorem pending_of_onFrame {frame : Frame}
    (turned : mirror.onFrame frame now = some (after, its)) :
    after.row.pending = mirror.row.pending ∨ after.NoApproval := by
  unfold Mirror.onFrame at turned
  split at turned
  · cases turned
  · split at turned
    · cases turned
      exact .inl rfl
    · rename_i other
      split at turned <;> cases turned
      rcases @Frame.changes_pending mirror.row frame now other with
        keeps | ⟨pending, changed, none, _⟩
      · exact .inl (pending_of_same keeps)
      · exact .inr (noApproval_of_changes changed none)

/-- The answer was sent. -/
theorem Attended.posted (attended : Attended world requestId)
    (before : world.tasks task = some (.posting own))
    (spent : ∀ other ∈ world.shared.spent, other ∈ after.spent)
    (row : after.row = world.shared.row)
    (inbox : after.inbox = world.shared.inbox)
    (claimed : after.claimed = world.shared.claimed)
    (goesOn : own ∈ after.spent ∨ ∃ pc, its = some pc ∧
      pc.decides = some own) :
    Attended (world.put task after its) requestId := by
  refine attended.put before ?_ ?_ spent
    (fun unclaimed => .inl (claimed.trans unclaimed)) ?_
  · intro pc same sees
    cases same
    have isOwn : own = requestId := by
      simpa [MirrorPc.sees, MirrorPc.inSection, MirrorPc.decides,
        MirrorPc.attaches] using sees
    subst isOwn
    rcases goesOn with isSpent | ⟨pc, rfl, decides⟩
    · exact .spent isSpent
    · exact .moved (by simp [MirrorPc.sees, decides])
  · intro entry mem names
    refine .filed (inbox ▸ mem) ?_
    unfold Mirror.Names at names ⊢
    rw [World.put_shared, row]
    exact names
  · intro pc same returns
    cases same
    cases returns

/-- Hermes knows the run, or it is over. -/
theorem Attended.probed {row : RunRow} {known : Bool}
    (attended : Attended world requestId)
    (before : world.tasks task = some (.probing row))
    (live : row.isLive = true)
    (resumed : world.shared.resume task (.probing row) (.probed known) =
      some (after, its)) :
    Attended (world.put task after its) requestId := by
  have unseen : ∀ pc, some (MirrorPc.probing row) = some pc →
      pc.sees requestId = true →
        Attended (world.put task after its) requestId := by
    intro pc same sees
    cases same
    cases sees
  simp only [Mirror.resume, live, Bool.not_true, Bool.false_or] at resumed
  split at resumed
  · cases resumed
    exact attended.put before unseen (fun _ mem names => .filed mem names)
      (fun _ mem => mem) (fun unclaimed => .inl unclaimed)
      fun _ _ _ unclaimed => .returned unclaimed rfl
  · split at resumed
    · rename_i isClaimed
      cases resumed
      refine attended.put before unseen
        (fun _ mem names => .filed mem names) (fun _ mem => mem)
        (fun unclaimed => .inl unclaimed) ?_
      intro _ _ _ unclaimed
      rw [unclaimed] at isClaimed
      cases isClaimed
    · cases resumed
      exact .moved rfl

variable {reply : MirrorReply}

/-- After a task's step somebody attends to it. -/
theorem Waited.attended_of_resume (waited : Waited world)
    (mirrored : Mirrored world) (before : world.tasks task = some pc)
    (unraced : UnracedTurn world pc reply)
    (resumed : world.shared.resume task pc reply = some (after, its))
    (live : after.row.isLive = true)
    (waits : after.WaitsFor (some requestId)) :
    Attended (world.put task after its) requestId := by
  have wasLive : world.shared.row.isLive = true := by
    cases isOver : world.shared.row.isLive with
    | true => rfl
    | false =>
      rw [mirrored.row_of_resume isOver before resumed, isOver] at live
      cases live
  cases reply with
  | turn now =>
    refine waited.attended_of_turn mirrored before ?_ resumed live waits
    cases pc <;> exact unraced
  | flush tail now =>
    simp only [Mirror.resume] at resumed
    split at resumed
    · cases resumed
      have pending : (world.shared.write (some (tail.textEvent now))
          tail.textChanges now).row.pending = world.shared.row.pending :=
        pending_of_same rfl
      exact (waited.attended requestId wasLive
        (waitsFor_of_pending pending waits)).keeps before rfl rfl pending
          (fun _ mem _ => mem) (fun _ mem => mem) rfl
    · cases resumed
  | frame frame now =>
    simp only [Mirror.resume] at resumed
    split at resumed
    · rcases pending_of_onFrame resumed with pending | none
      · exact (waited.attended requestId wasLive
          (waitsFor_of_pending pending waits)).onFrame before resumed
            pending
      · exact absurd none waits.not_noApproval
    · cases resumed
  | ends ending tail =>
    simp only [Mirror.resume] at resumed
    split at resumed
    · cases resumed
      exact (waited.attended requestId wasLive waits).keeps before rfl rfl
        rfl (fun _ mem _ => mem) (fun _ mem => mem) rfl
    · cases resumed
  | posted outcome =>
    simp only [Mirror.resume] at resumed
    split at resumed
    · cases resumed
      exact (waited.attended requestId wasLive waits).posted before
        (fun _ mem => mem) rfl rfl rfl (.inr ⟨_, rfl, rfl⟩)
    · cases resumed
      exact (waited.attended requestId wasLive waits).posted before
        (fun _ mem => mem_append_left _ mem) rfl rfl rfl
        (.inl (by simp))
    · cases resumed
      exact (waited.attended requestId wasLive waits).posted before
        (fun _ mem => mem) rfl rfl rfl (.inr ⟨_, rfl, rfl⟩)
    · cases resumed
      exact (waited.attended requestId wasLive waits).posted before
        (fun _ mem => mem) rfl rfl rfl (.inr ⟨_, rfl, rfl⟩)
    · cases resumed
  | probed known =>
    cases pc with
    | probing row =>
      have same : after.row = world.shared.row := by
        simp only [Mirror.resume] at resumed
        split at resumed
        · cases resumed
          rfl
        · split at resumed <;> cases resumed <;> rfl
      exact (waited.attended requestId wasLive (waitsFor_of_pending
        (congrArg RunRow.pending same) waits)).probed before
          (waited.probes task row before) resumed
    | _ => cases resumed

theorem Mirrored.eq_of_pending (mirrored : Mirrored world)
    {one other : InboxEntry}
    (mem : one ∈ world.shared.inbox.pendingEntries)
    (memToo : other ∈ world.shared.inbox.pendingEntries) : one = other := by
  have few := mirrored.few
  obtain ⟨place, bound, rfl⟩ := mem_iff_getElem.mp mem
  obtain ⟨placeToo, boundToo, rfl⟩ := mem_iff_getElem.mp memToo
  have same : place = placeToo := by omega
  subst same
  rfl

/-- So it is when a task starts. -/
theorem Waited.attended_of_start (waited : Waited world)
    (mirrored : Mirrored world) (unused : world.tasks task = none)
    (unraced : Unraced world (.task (.start task pc)))
    (started : world.shared.start task pc = some after)
    (live : after.row.isLive = true)
    (waits : after.WaitsFor (some requestId)) :
    Attended (world.put task after (some pc)) requestId := by
  have row : after.row = world.shared.row := row_of_start started
  have waiting := waitsFor_of_pending (congrArg RunRow.pending row) waits
  have attended := waited.attended requestId (row ▸ live) waiting
  cases pc with
  | watching =>
    obtain ⟨pending, isPending, _⟩ := waiting
    rw [unraced.2] at isPending
    cases isPending
  | answering id own generation =>
    simp only [Mirror.start] at started
    split at started
    · rename_i listed
      cases started
      refine attended.put unused (fun _ at_ => by cases at_) ?_
        (fun _ mem => mem) (fun unclaimed => .inl unclaimed)
        (fun _ at_ => by cases at_)
      intro entry mem names
      by_cases same : entry.id = id
      · have decided : ⟨id, own, generation, true⟩ ∈
            world.shared.inbox.pendingEntries :=
          RunInbox.mem_pendingEntries.mpr ⟨listed, rfl⟩
        obtain rfl := mirrored.eq_of_pending mem decided
        obtain rfl := some.inj (waitsFor_inj names.waitsFor waiting)
        exact .moved (by simp [MirrorPc.sees, MirrorPc.decides])
      · exact .filed
          (RunInbox.mem_pendingEntries_resolve.mpr ⟨mem, same⟩) names
    · cases started
  | stopping reported =>
    cases started
    exact attended.put unused (fun _ at_ => by cases at_)
      (fun _ mem names => .filed mem names) (fun _ mem => mem)
      (fun unclaimed => .inl unclaimed) (fun _ at_ => by cases at_)
  | reattaching =>
    cases started
    exact attended.put unused (fun _ at_ => by cases at_)
      (fun _ mem names => .filed mem names) (fun _ mem => mem)
      (fun unclaimed => .inl unclaimed) (fun _ at_ => by cases at_)
  | _ => cases started

theorem Attended.shared (attended : Attended world requestId)
    (pending : after.row.pending = world.shared.row.pending)
    (inbox : after.inbox = world.shared.inbox)
    (claimed : after.claimed = world.shared.claimed)
    (spent : after.spent = world.shared.spent) :
    Attended { world with shared := after } requestId := by
  cases attended with
  | seen other at_ sees => exact .seen other at_ sees
  | filed mem names =>
    refine .filed (inbox ▸ mem) ?_
    unfold Mirror.Names at names ⊢
    rw [pending]
    exact names
  | spent mem => exact .spent (spent ▸ mem)
  | returning other unclaimed at_ returns =>
    exact .returning other (claimed.trans unclaimed) at_ returns

/-- So it is after an event. -/
theorem Waited.attended_of_occur {event : MirrorEvent}
    (waited : Waited world)
    (occurred : world.shared.occur event = some after)
    (live : after.row.isLive = true)
    (waits : after.WaitsFor (some requestId)) :
    Attended { world with shared := after } requestId := by
  have wasLive : world.shared.row.isLive = true := by
    cases isOver : world.shared.row.isLive with
    | true => rfl
    | false =>
      rw [row_of_occur isOver occurred, isOver] at live
      cases live
  have keeps : ∀ (writer : Writer) (at_ : Time),
      after = world.shared.write none (writer.changes at_) at_ →
      after.row.pending = world.shared.row.pending →
        Attended { world with shared := after } requestId := by
    rintro writer at_ rfl pending
    exact (waited.attended requestId wasLive
      (waitsFor_of_pending pending waits)).shared pending rfl rfl rfl
  cases event with
  | settle own now =>
    simp only [Mirror.occur, writeLive_of_live wasLive] at occurred
    split at occurred <;> cases occurred
    exact keeps _ _ rfl (pending_of_settle waits).1
  | clarifyDeadline own error now =>
    simp only [Mirror.occur, writeLive_of_live wasLive] at occurred
    split at occurred <;> cases occurred
    by_cases asked : world.shared.row.isPending .clarify (some own) = true
    · refine absurd waits (not_waitsFor_of_cleared ?_)
      simp [Writer.changes, asked]
    · exact keeps _ _ rfl (pending_of_same (by
        simp [Writer.changes, asked]))
  | stopDelivered now =>
    simp only [Mirror.occur, writeLive_of_live wasLive] at occurred
    split at occurred <;> cases occurred
    refine keeps _ _ rfl (pending_of_same ?_)
    simp only [Writer.changes]
    split <;> rfl

/-! ## The entry which is about to be named -/

/-- What a reply does to the inbox, and where it never leads. -/
structure Replied (mirror after : Mirror) (pc : MirrorPc)
    (its : Option MirrorPc) : Prop where
  inbox : after.inbox = mirror.inbox
  lock : after.lock = mirror.lock
  outside : pc.inSection = false
  answers : ∀ id own generation, pc ≠ .answering id own generation
  stores : ∀ own id watches, its ≠ some (.storing own id watches)
  probes : ∀ row, its ≠ some (.probing row)

/-- The tasks which a frame leads to. -/
theorem Replied.of_onFrame {frame : Frame}
    (turned : mirror.onFrame frame now = some (after, its)) :
    Replied mirror after .watching its := by
  unfold Mirror.onFrame at turned
  split at turned
  · cases turned
  · split at turned
    · cases turned
      constructor <;> simp [MirrorPc.inSection]
    · split at turned <;> cases turned
      constructor
      · rfl
      · rfl
      · rfl
      · simp
      · split <;> simp
      · split <;> simp

/-- The tasks which an answer leads to. -/
theorem Replied.of_resume (other : ∀ now, reply ≠ .turn now)
    (resumed : mirror.resume task pc reply = some (after, its)) :
    Replied mirror after pc its := by
  cases reply with
  | turn now => exact absurd rfl (other now)
  | frame frame now =>
    simp only [Mirror.resume] at resumed
    split at resumed
    · exact .of_onFrame resumed
    · cases resumed
  | flush tail now =>
    simp only [Mirror.resume] at resumed
    split at resumed <;> cases resumed
    constructor <;> simp [Mirror.write, MirrorPc.inSection]
  | ends ending tail =>
    simp only [Mirror.resume] at resumed
    split at resumed <;> cases resumed
    constructor <;> simp [MirrorPc.inSection]
  | posted outcome =>
    simp only [Mirror.resume] at resumed
    split at resumed <;> cases resumed <;> constructor <;>
          simp [MirrorPc.inSection]
  | probed known =>
    simp only [Mirror.resume] at resumed
    split at resumed
    · split at resumed
      · cases resumed
        constructor <;> simp [MirrorPc.inSection]
      · split at resumed <;> cases resumed <;> constructor <;>
          simp [MirrorPc.inSection]
    · cases resumed

theorem lock_of_turn (turned : mirror.turn task pc now = some (after, its)) :
    (after.lock = mirror.lock ∧
        (pc.inSection = true → ∃ other, its = some other ∧
          other.inSection = true)) ∨
      (after.lock = some task ∧ ∃ other, its = some other ∧
        other.inSection = true) ∨
      after.lock = none := by
  cases pc <;> grind [Mirror.turn, Mirror.locking, Mirror.afterwards,
    Mirror.write, Mirror.writeLive, Mirror.release, MirrorPc.inSection]

theorem filing_of_storing
    (turned : mirror.turn task pc now =
      some (after, some (.storing own id watches))) :
    ∃ pending, pc = .filing pending watches ∧
      pending.requestId = some own ∧
        after.inbox =
          (mirror.inbox.enqueue own pending.frame.executionGeneration).1 ∧
        id = (mirror.inbox.enqueue own
          pending.frame.executionGeneration).2 := by
  cases pc with
  | filing pending its =>
    simp only [Mirror.turn] at turned
    split at turned
    · obtain ⟨contradiction, _⟩ :=
        eq_of_afterwards (Prod.mk.inj (some.inj turned)).2
      cases contradiction
    · rename_i request
      cases turned
      exact ⟨pending, rfl, request, rfl, rfl⟩
  | _ => grind [Mirror.turn, Mirror.locking, Mirror.afterwards]

theorem live_of_probing {row : RunRow}
    (turned : mirror.turn task pc now =
      some (after, some (.probing row))) : row.isLive = true := by
  cases pc <;> grind [Mirror.turn, Mirror.locking, Mirror.afterwards]

theorem inbox_of_locked {holder : TaskId} (locked : mirror.lock = some holder)
    (outside : pc.inSection = false)
    (turned : mirror.turn task pc now = some (after, its)) :
    (∀ id own generation, pc ≠ .answering id own generation) ∧
      (after.inbox = mirror.inbox ∨ ∃ id watches,
        pc = .withdrawing id watches ∧
          after.inbox = mirror.inbox.withdraw id) := by
  cases pc <;> grind [Mirror.turn, Mirror.locking, MirrorPc.inSection]

theorem Stored.put {prior : Option MirrorPc} (stored : Stored world own id)
    (before : world.tasks task = prior)
    (inbox : ∀ entry ∈ world.shared.inbox.pendingEntries,
      entry.requestId = own → entry.id = id →
        entry ∈ after.inbox.pendingEntries ∨
          ∃ generation, its = some (.answering id own generation))
    (answers : ∀ generation, prior ≠ some (.answering id own generation)) :
    Stored (world.put task after its) own id := by
  rcases stored with ⟨entry, mem, isOwn, isId⟩ | ⟨other, generation, at_⟩
  · rcases inbox entry mem isOwn isId with still | ⟨generation, rfl⟩
    · exact .inl ⟨entry, still, isOwn, isId⟩
    · exact .inr ⟨task, generation, by simp [World.put_tasks]⟩
  · refine .inr ⟨other, generation, ?_⟩
    rw [World.put_tasks, if_neg ?_]
    · exact at_
    · rintro rfl
      exact answers generation (before.symm.trans at_)

/-- The step of another task leaves it. -/
theorem Stored.beside {holder : TaskId} (mirrored : Mirrored world)
    (stored : Stored world own id) (before : world.tasks task = some pc)
    (differs : holder ≠ task)
    (holds : world.tasks holder = some (.storing own id watches))
    (resumed : world.shared.resume task pc reply = some (after, its)) :
    Stored (world.put task after its) own id := by
  have locked := mirrored.locked holder _ holds rfl
  have waits := (mirrored.knows holder _ holds).2.1
  have outside : pc.inSection = false :=
    mirrored.alone holds rfl (Ne.symm differs) before
  have moved : (∀ id own generation, pc ≠ .answering id own generation) ∧
      (after.inbox = world.shared.inbox ∨ ∃ id watches,
        pc = .withdrawing id watches ∧
          after.inbox = world.shared.inbox.withdraw id) := by
    cases reply with
    | turn now => exact inbox_of_locked locked outside resumed
    | _ =>
      have replied := Replied.of_resume (by simp) resumed
      exact ⟨replied.answers, .inl replied.inbox⟩
  obtain ⟨answers, same | ⟨gone, its, rfl, withdrawn⟩⟩ := moved
  · refine stored.put before (fun entry mem _ _ => .inl (same ▸ mem)) ?_
    exact fun generation at_ => answers _ _ _ (some.inj at_)
  · refine stored.put before ?_ nofun
    rintro entry mem _ rfl
    rw [withdrawn]
    cases gone with
    | none => exact .inl mem
    | some gone =>
      refine .inl (RunInbox.mem_pendingEntries_resolve.mpr ⟨mem, ?_⟩)
      rintro rfl
      exact mirrored.noneDoomed waits entry mem ⟨task, its, before⟩

/-- The id in hand is of the entry just filed. -/
theorem Stored.filed (mirrored : Mirrored world)
    (before : world.tasks task = some pc)
    (turned : world.shared.turn task pc now =
      some (after, some (.storing own id watches))) :
    Stored (world.put task after (some (.storing own id watches))) own
      id := by
  obtain ⟨pending, rfl, request, inbox, rfl⟩ := filing_of_storing turned
  have same := (mirrored.knows task _ before).2.2
  have only : ∀ entry ∈ world.shared.inbox.pendingEntries,
      entry.requestId = own := by
    intro entry mem
    exact some.inj ((same entry mem).trans request)
  obtain ⟨entry, isFiled, isId, isOwn⟩ :=
    RunInbox.enqueue_pendingEntries own pending.frame.executionGeneration
      mirrored.few only
  refine .inl ⟨entry, ?_, isOwn, isId⟩
  rw [World.put_shared, inbox, isFiled]
  exact mem_singleton_self entry

/-- The section stays with a task that is in it. -/
theorem Waited.held_of_put (waited : Waited world)
    (before : world.tasks task = some pc)
    (moved : (after.lock = world.shared.lock ∧
        (pc.inSection = true → ∃ other, its = some other ∧
          other.inSection = true)) ∨
      (after.lock = some task ∧ ∃ other, its = some other ∧
        other.inSection = true) ∨
      after.lock = none) :
    ∀ holder, after.lock = some holder →
      ∃ pc, (world.put task after its).tasks holder = some pc ∧
        pc.inSection = true := by
  intro holder isHeld
  rw [World.put_tasks]
  rcases moved with ⟨same, stays⟩ | ⟨taken, enters⟩ | free
  · obtain ⟨own, at_, inside⟩ := waited.held holder (same ▸ isHeld)
    by_cases isTask : holder = task
    · subst isTask
      obtain rfl := some.inj (before.symm.trans at_)
      rw [if_pos rfl]
      exact stays inside
    · rw [if_neg isTask]
      exact ⟨own, at_, inside⟩
  · obtain rfl := some.inj (taken.symm.trans isHeld)
    rw [if_pos rfl]
    exact enters
  · rw [free] at isHeld
    cases isHeld

/-- A task's step keeps it. -/
theorem Waited.resume (waited : Waited world) (mirrored : Mirrored world)
    (before : world.tasks task = some pc)
    (unraced : UnracedTurn world pc reply)
    (resumed : world.shared.resume task pc reply = some (after, its)) :
    Waited (world.put task after its) := by
  constructor
  · exact fun requestId live waits => waited.attended_of_resume mirrored
      before unraced resumed live waits
  · intro other own id watches at_
    rw [World.put_tasks] at at_
    split at at_
    · subst at_
      cases reply with
      | turn now => exact .filed mirrored before resumed
      | _ =>
        exact absurd rfl ((Replied.of_resume (by simp) resumed).stores _
          _ _)
    · rename_i differs
      exact (waited.stored other own id watches at_).beside mirrored before
        differs at_ resumed
  · intro other row at_
    rw [World.put_tasks] at at_
    split at at_
    · subst at_
      cases reply with
      | turn now => exact live_of_probing resumed
      | _ =>
        exact absurd rfl ((Replied.of_resume (by simp) resumed).probes _)
    · exact waited.probes other row at_
  · refine waited.held_of_put before ?_
    cases reply with
    | turn now => exact lock_of_turn resumed
    | _ =>
      have replied := Replied.of_resume (by simp) resumed
      refine .inl ⟨replied.lock, fun inside => ?_⟩
      rw [replied.outside] at inside
      cases inside

/-- A new task keeps it. -/
theorem Waited.start (waited : Waited world) (mirrored : Mirrored world)
    (unused : world.tasks task = none)
    (unraced : Unraced world (.task (.start task pc)))
    (started : world.shared.start task pc = some after) :
    Waited (world.put task after (some pc)) := by
  constructor
  · exact fun requestId live waits => waited.attended_of_start mirrored
      unused unraced started live waits
  · intro other own id watches at_
    rw [World.put_tasks] at at_
    split at at_
    · cases at_
      cases started
    · refine (waited.stored other own id watches at_).put unused ?_
        fun _ at_ => by cases at_
      rintro entry mem rfl rfl
      cases pc with
      | answering gone decided generation =>
        simp only [Mirror.start] at started
        split at started
        · rename_i listed
          cases started
          by_cases same : entry.id = gone
          · obtain rfl := mirrored.eq_of_pending mem
              (RunInbox.mem_pendingEntries.mpr ⟨listed, rfl⟩)
            exact .inr ⟨generation, rfl⟩
          · exact .inl
              (RunInbox.mem_pendingEntries_resolve.mpr ⟨mem, same⟩)
        · cases started
      | watching =>
        simp only [Mirror.start] at started
        split at started <;> cases started
        exact .inl mem
      | stopping reported =>
        cases started
        exact .inl mem
      | reattaching =>
        cases started
        exact .inl mem
      | _ => cases started
  · intro other row at_
    rw [World.put_tasks] at at_
    split at at_
    · cases at_
      cases started
    · exact waited.probes other row at_
  · intro holder isHeld
    have lock : after.lock = world.shared.lock := by
      cases pc with
      | watching =>
        simp only [Mirror.start] at started
        split at started <;> cases started
        rfl
      | answering id own generation =>
        simp only [Mirror.start] at started
        split at started <;> cases started
        rfl
      | stopping reported =>
        cases started
        rfl
      | reattaching =>
        cases started
        rfl
      | _ => cases started
    obtain ⟨own, at_, inside⟩ := waited.held holder (lock ▸ isHeld)
    refine ⟨own, ?_, inside⟩
    rw [World.put_tasks, if_neg ?_]
    · exact at_
    · rintro rfl
      rw [unused] at at_
      cases at_

/-- An event keeps it. -/
theorem Waited.occur {event : MirrorEvent} (waited : Waited world)
    (occurred : world.shared.occur event = some after) :
    Waited { world with shared := after } := by
  have inbox : after.inbox = world.shared.inbox := by
    cases event <;> simp only [Mirror.occur, Mirror.writeLive] at occurred <;>
      split at occurred <;> cases occurred <;> split <;> rfl
  constructor
  · exact fun requestId live waits =>
      waited.attended_of_occur occurred live waits
  · intro task own id watches at_
    rcases waited.stored task own id watches at_ with
      ⟨entry, mem, isOwn, isId⟩ | answering
    · exact .inl ⟨entry, inbox ▸ mem, isOwn, isId⟩
    · exact .inr answering
  · exact waited.probes
  · intro holder isHeld
    refine waited.held holder ?_
    rw [← isHeld]
    cases event <;> simp only [Mirror.occur, Mirror.writeLive] at occurred <;>
      split at occurred <;> cases occurred <;> split <;> rfl

/-- After a restart the runs are re-attached. -/
theorem waited_restarted : Waited (MirrorWorld.restarted world) := by
  have only : ∀ task pc, (MirrorWorld.restarted world).tasks task = some pc →
      pc = .reattaching := by
    intro task pc at_
    simp only [MirrorWorld.restarted] at at_
    split at at_ <;> cases at_
    rfl
  constructor
  · exact fun requestId _ _ => .returning 0 rfl rfl rfl
  · intro task own id watches at_
    cases only task _ at_
  · intro task row at_
    cases only task _ at_
  · exact fun holder isHeld => by cases isHeld

/-- Every step keeps it. -/
theorem waited_of_step {action : MirrorAction} (waited : Waited world)
    (mirrored : Mirrored world) (unraced : Unraced world action)
    (moved : mirrorStep world action = some next) : Waited next := by
  cases action with
  | restart =>
    cases moved
    exact waited_restarted
  | task action =>
    cases Program.moves_of_step moved with
    | start unused started =>
      exact waited.start mirrored unused unraced started
    | resume suspended resumed =>
      exact waited.resume mirrored suspended (unraced _ suspended) resumed
    | cancel suspended cancelled => cases cancelled
    | occur occurred => exact waited.occur occurred

end Steps

/-! ## Where nothing is going on -/

/-- Every task is a watcher that waits for a frame. -/
def Quiescent (world : MirrorWorld) : Prop :=
  ∀ task pc, world.tasks task = some pc → pc = .watching

/-- A decision of the entry is taken, and posts the request. -/
def PostsDecision (mirror : Mirror) (entry : InboxEntry) : Prop :=
  ∀ task now, ∃ decided,
    mirror.start task (.answering entry.id entry.requestId
      entry.generation) = some decided ∧
    ((entry.generation.or mirror.row.executionGeneration).isSome = true →
      decided.turn task (.answering entry.id entry.requestId
        entry.generation) now =
          some (decided, some (.posting entry.requestId)))

/-- A decision reaches Hermes where the run waits. -/
theorem postsDecision_of_waitsFor {mirror : Mirror} {entry : InboxEntry}
    (mem : entry ∈ mirror.inbox.pendingEntries) (free : mirror.lock = none)
    (live : mirror.row.isLive = true)
    (waits : mirror.WaitsFor (some entry.requestId)) :
    PostsDecision mirror entry := by
  intro task now
  obtain ⟨listed, pending⟩ := RunInbox.mem_pendingEntries.mp mem
  have listedSo : (⟨entry.id, entry.requestId, entry.generation, true⟩ :
      InboxEntry) ∈ mirror.inbox.entries := by
    rw [← pending]
    exact listed
  refine ⟨{ mirror with inbox := mirror.inbox.resolve entry.id },
    by simp [Mirror.start, listedSo], fun known => ?_⟩
  have isKnown : (entry.generation.or
      mirror.row.executionGeneration).isNone = false := by
    rw [isNone_eq_false_iff]
    exact known
  simp only [Mirror.turn, free, live, isPending_of_waitsFor waits, isKnown]
  rfl

/-- It holds in every run. -/
theorem waited_of_run {row : RunRow} {world : MirrorWorld}
    {actions : List MirrorAction} (quiet : row.pending = none)
    (reached : Run mirrorStep Unraced (.quiet (.admitted row)) actions
      world) : Waited world := by
  have kept : Mirrored world ∧ Waited world := by
    refine reached.invariant (fun state => Mirrored state ∧ Waited state)
      ⟨mirrored_admitted quiet, ?_⟩ ?_
    · constructor
      · rintro requestId _ ⟨pending, isPending, _⟩
        rw [show (World.quiet (Mirror.admitted row) :
          MirrorWorld).shared.row.pending = none from quiet] at isPending
        cases isPending
      · exact fun _ _ _ _ at_ => by cases at_
      · exact fun _ _ at_ => by cases at_
      · exact fun _ isHeld => by cases isHeld
    · rintro state action target ⟨mirrored, waited⟩ unraced moved
      exact ⟨mirrored_of_step mirrored unraced moved,
        waited_of_step waited mirrored unraced moved⟩
  exact kept.2

section Quiescence

variable {world : MirrorWorld}

theorem Mirrored.names_of_quiescent (mirrored : Mirrored world)
    (idle : Quiescent world) {entry : InboxEntry}
    (mem : entry ∈ world.shared.inbox.pendingEntries) :
    world.shared.Names entry := by
  have free : MirrorWorld.SectionFree world := by
    intro task pc at_
    cases idle task pc at_
    rfl
  rcases (mirrored.cover free entry mem).2 with named | ⟨task, _, at_⟩
  · exact named
  · cases idle task _ at_

theorem Attended.filed_of_quiescent {requestId : String}
    (attended : Attended world requestId) (idle : Quiescent world)
    (goesOn : requestId ∉ world.shared.spent) :
    ∃ entry, entry ∈ world.shared.inbox.pendingEntries := by
  cases attended with
  | seen task at_ sees =>
    cases idle task _ at_
    cases sees
  | filed mem _ => exact ⟨_, mem⟩
  | spent mem => exact absurd mem goesOn
  | returning task _ at_ returns =>
    cases idle task _ at_
    cases returns

end Quiescence

/--
Where nothing is going on, a live run which waits for an approval has at most
one pending entry; deciding it posts the request; and it is there unless a
decision of the request came to its end for good.  A run which waits for no
approval has none.
-/
theorem operator_decides {row : RunRow} (quiet : row.pending = none)
    {world : MirrorWorld} {actions : List MirrorAction}
    (reached : Run mirrorStep Unraced (.quiet (.admitted row)) actions world)
    (idle : Quiescent world) :
    (∀ requestId, world.shared.row.isLive = true →
      world.shared.WaitsFor (some requestId) →
        world.shared.inbox.pendingEntries.length ≤ 1 ∧
        (∀ entry ∈ world.shared.inbox.pendingEntries,
          entry.requestId = requestId ∧ PostsDecision world.shared entry) ∧
        (requestId ∉ world.shared.spent →
          ∃ entry, world.shared.inbox.pendingEntries = [entry])) ∧
    (world.shared.NoApproval →
      world.shared.inbox.pendingEntries = []) := by
  have mirrored := mirrored_of_run quiet reached
  have waited := waited_of_run quiet reached
  have free : world.shared.lock = none := by
    cases lock : world.shared.lock with
    | none => rfl
    | some holder =>
      obtain ⟨pc, at_, inside⟩ := waited.held holder lock
      cases idle holder pc at_
      cases inside
  constructor
  · intro requestId live waits
    refine ⟨mirrored.few, ?_, ?_⟩
    · intro entry mem
      have named := mirrored.names_of_quiescent idle mem
      refine ⟨some.inj (waitsFor_inj named.waitsFor waits), ?_⟩
      exact postsDecision_of_waitsFor mem free live named.waitsFor
    · intro goesOn
      obtain ⟨entry, mem⟩ := (waited.attended requestId live
        waits).filed_of_quiescent idle goesOn
      refine ⟨entry, ?_⟩
      have single := Nat.le_antisymm mirrored.few
        (length_pos_of_mem mem)
      obtain ⟨only, isOnly⟩ := length_eq_one_iff.mp single
      rw [isOnly] at mem ⊢
      rw [mem_singleton.mp mem]
  · intro none
    rw [eq_nil_iff_forall_not_mem]
    intro entry mem
    exact (mirrored.names_of_quiescent idle mem).waitsFor.not_noApproval none

/-! ## A decision which fails -/

/-- The watcher asks, and the operator decides: what comes before the post. -/
def askedAndDecided : List MirrorAction :=
  [.task (.start 0 .watching),
    .task (.resume 0 (.frame approvalRequest 1)),
    .task (.resume 0 (.turn 2)), .task (.resume 0 (.turn 3)),
    .task (.resume 0 (.turn 4)), .task (.resume 0 (.turn 5)),
    .task (.start 1 (.answering 0 "q1" none)),
    .task (.resume 1 (.turn 6))]

/-- Hermes answers 409, and the request is not put back. -/
theorem refused_decision_not_filed :
    ∃ world,
      Run mirrorStep Anything (.quiet (.admitted startedRow))
        (askedAndDecided ++
          [.task (.resume 1 (.posted .noLongerPending))]) world ∧
      Quiescent world ∧ world.shared.row.isLive = true ∧
      world.shared.WaitsFor (some "q1") ∧
      world.shared.inbox.pendingEntries = [] := by
  refine ⟨_,
    .cons trivial rfl <| .cons trivial rfl <| .cons trivial rfl <|
      .cons trivial rfl <| .cons trivial rfl <| .cons trivial rfl <|
      .cons trivial rfl <| .cons trivial rfl <| .cons trivial rfl <|
      .nil _, ?_, rfl, ⟨_, rfl, rfl, rfl⟩, rfl⟩
  intro task pc at_
  by_cases isDecision : task = 1
  · subst isDecision
    cases at_
  · by_cases isWatcher : task = 0
    · subst isWatcher
      cases at_
      rfl
    · simp [World.put, World.quiet, isWatcher, isDecision] at at_

/-- The post fails, and the request is back in the inbox. -/
theorem failed_decision_filed_again :
    ∃ world entry,
      Run mirrorStep Unraced (.quiet (.admitted startedRow))
        (askedAndDecided ++
          [.task (.resume 1 (.posted .failed)), .task (.resume 1 (.turn 7)),
            .task (.resume 1 (.turn 8)), .task (.resume 1 (.turn 9))])
        world ∧
      Quiescent world ∧ world.shared.WaitsFor (some "q1") ∧
      world.shared.inbox.pendingEntries = [entry] ∧
      PostsDecision world.shared entry := by
  have reached : ∃ world,
      Run mirrorStep Unraced (.quiet (.admitted startedRow))
        (askedAndDecided ++
          [.task (.resume 1 (.posted .failed)), .task (.resume 1 (.turn 7)),
            .task (.resume 1 (.turn 8)), .task (.resume 1 (.turn 9))])
        world ∧
      Quiescent world ∧ world.shared.row.isLive = true ∧
      world.shared.WaitsFor (some "q1") ∧ world.shared.spent = [] := by
    refine ⟨_,
      .cons ⟨rfl, rfl⟩ rfl <| .cons (fun _ at_ => ?_) rfl <|
        .cons (fun _ at_ => ?_) rfl <| .cons (fun _ at_ => ?_) rfl <|
        .cons (fun _ at_ => ?_) rfl <| .cons (fun _ at_ => ?_) rfl <|
        .cons trivial rfl <| .cons (fun _ at_ => ?_) rfl <|
        .cons (fun _ at_ => ?_) rfl <| .cons (fun _ at_ => ?_) rfl <|
        .cons (fun _ at_ => ?_) rfl <| .cons (fun _ at_ => ?_) rfl <|
        .nil _, fun task pc at_ => ?_, rfl, ⟨_, rfl, rfl, rfl⟩, rfl⟩
    · cases at_
      trivial
    · cases at_
      exact nofun
    · cases at_
      trivial
    · cases at_
      trivial
    · cases at_
      trivial
    · cases at_
      trivial
    · cases at_
      trivial
    · cases at_
      trivial
    · cases at_
      trivial
    · cases at_
      trivial
    · by_cases isDecision : task = 1
      · subst isDecision
        cases at_
      · by_cases isWatcher : task = 0
        · subst isWatcher
          cases at_
          rfl
        · simp [World.put, World.quiet, isWatcher, isDecision] at at_
  obtain ⟨world, run, idle, live, waits, unspent⟩ := reached
  obtain ⟨_, decides, filed⟩ :=
    (operator_decides rfl run idle).1 "q1" live waits
  obtain ⟨entry, only⟩ := filed (by simp [unspent])
  exact ⟨world, entry, run, idle, waits, only,
    (decides entry (by simp [only])).2⟩

end Hal0.Bridge
