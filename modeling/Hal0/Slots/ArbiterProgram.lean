import Hal0.Slots.ArbiterTasks

/-!
# The GPU arbiter as a program around its lock

What the steps of the arbiter's tasks do, one statement for each function:
those taken beside the switch lock, those of `ensure_img`, and those of a
restore.  The theorems about whole runs start from these and unfold no task.
-/

namespace Hal0.Slots.Arbiter

open Option
open Hal0.Transition Hal0.Monitor

/-- The mode a task leaves behind when it awaits here. -/
def Pc.expects : Pc → Option GpuMode
  | .letServed _ _ | .switchConfigs _ _ => some .llm
  | .drain _ _ _ _ | .awaitLoads _ _ _ _ _ _ | .unload _ _ _ _ _ _
  | .finishConfigs _ _ _ | .reviveConfigs _ | .loadImg _ _ _
  | .imgReady _ _ _ _ | .rollbackUnload _ _ _ | .rollbackLoad _ _ _
  | .rendering _ true | .restoreWork | .decisionWork _ | .decisionQueue _
  | .restoreConfigs _ | .restoreFree _ _ | .restoreLoad _ _ _ => some .img
  | _ => none

theorem Pc.expects_of_outside {pc : Pc} (outside : pc.holds = false)
    (jobless : pc.job = none) : pc.expects = none := by
  cases pc with
  | rendering job switched => cases jobless
  | _ => first | rfl | simp [Pc.holds] at outside

theorem Pc.restoreCall_of_outside {pc : Pc} (outside : pc.holds = false) :
    pc.restoreCall = none := by
  cases pc with
  | _ => first | rfl | simp [Pc.holds] at outside

namespace GpuArbiter

/-! ## Steps beside the lock -/

/-- What only the owner of the switch lock changes is as it was. -/
structure Unswitched (before after : GpuArbiter) : Prop where
  state : after.state = before.state
  file : after.file = before.file
  slots : after.slots = before.slots
  unloaded : after.unloaded = before.unloaded

theorem Unswitched.refl (arbiter : GpuArbiter) :
    Unswitched arbiter arbiter := ⟨rfl, rfl, rfl, rfl⟩

variable {first second third : GpuArbiter}

theorem Unswitched.trans (left : Unswitched first second)
    (right : Unswitched second third) :
    Unswitched first third where
  state := right.state.trans left.state
  file := right.file.trans left.file
  slots := right.slots.trans left.slots
  unloaded := right.unloaded.trans left.unloaded

/-- What neither a switch nor a restore adds to. -/
structure Frame (before after : GpuArbiter) : Prop where
  now : after.now = before.now
  leases : after.demandLeases ⊆ before.demandLeases
  nextLease : after.nextLease = before.nextLease
  nextJob : after.nextJob = before.nextJob

theorem Frame.refl (arbiter : GpuArbiter) : Frame arbiter arbiter :=
  ⟨rfl, List.Subset.refl _, rfl, rfl⟩

theorem Frame.trans (left : Frame first second) (right : Frame second third) :
    Frame first third where
  now := right.now.trans left.now
  leases := List.Subset.trans right.leases left.leases
  nextLease := right.nextLease.trans left.nextLease
  nextJob := right.nextJob.trans left.nextJob

/-- No image job opens or closes. -/
structure SameJobs (before after : GpuArbiter) : Prop where
  count : after.imageJobs = before.imageJobs
  jobs : after.openJobs = before.openJobs

theorem SameJobs.refl (arbiter : GpuArbiter) : SameJobs arbiter arbiter :=
  ⟨rfl, rfl⟩

theorem SameJobs.trans (left : SameJobs first second)
    (right : SameJobs second third) :
    SameJobs first third :=
  ⟨right.count.trans left.count, right.jobs.trans left.jobs⟩

/-- A step which leaves the task outside the lock and switches nothing. -/
structure Aside (arbiter : GpuArbiter) (turn : Turn) : Prop where
  kept : Unswitched arbiter turn.1
  frame : Frame arbiter turn.1
  jobs : SameJobs arbiter turn.1
  outside : ∀ next, turn.2 = some next →
    next.holds = false ∧ next.job = none

namespace Aside

variable {arbiter after : GpuArbiter}

theorem ended (kept : Unswitched arbiter after) (frame : Frame arbiter after)
    (jobs : SameJobs arbiter after) : Aside arbiter (after, none) :=
  ⟨kept, frame, jobs, nofun⟩

theorem waits {pc : Pc} (outside : pc.holds = false)
    (jobless : pc.job = none) : Aside arbiter (arbiter, some pc) := by
  refine ⟨.refl arbiter, .refl arbiter, .refl arbiter, ?_⟩
  intro next awaited
  cases awaited
  exact ⟨outside, jobless⟩

theorem returns : Aside arbiter (arbiter, none) :=
  .ended (.refl arbiter) (.refl arbiter) (.refl arbiter)

theorem endDemand (task : DemandId) :
    Aside arbiter (arbiter.endDemand task, none) :=
  .ended ⟨rfl, rfl, rfl, rfl⟩ ⟨rfl, List.Subset.refl _, rfl, rfl⟩ ⟨rfl, rfl⟩

end Aside

section

variable (arbiter : GpuArbiter)
include arbiter

theorem restoreOnDemand_aside (task : DemandId) (recheckAt : Nat) :
    Aside arbiter (arbiter.restoreOnDemand task recheckAt) := by
  unfold restoreOnDemand
  split_ifs
  · exact .endDemand task
  · exact .endDemand task
  · exact .waits rfl rfl
  · exact .waits rfl rfl

theorem idleBusy_aside (force : Bool)
    (deadline : Nat) : Aside arbiter (arbiter.idleBusy force deadline) := by
  unfold idleBusy
  split_ifs
  · exact .returns
  · exact .waits rfl rfl

theorem idleCheck_aside (force : Bool)
    (deadline : Nat) : Aside arbiter (arbiter.idleCheck force deadline) := by
  unfold idleCheck
  split_ifs
  · exact idleBusy_aside arbiter force deadline
  · exact .waits rfl rfl

theorem refuse_aside (call : RestoreCall)
    (refused : Refused) : Aside arbiter (arbiter.refuse call refused) := by
  cases call with
  | restoreLlm force => exact .returns
  | tick => exact .returns
  | demand task =>
    simp only [refuse]
    split_ifs
    · exact restoreOnDemand_aside arbiter task _
    · exact .endDemand task
  | whenIdle deadline =>
    simp only [refuse]
    split_ifs
    · exact .returns
    · exact idleBusy_aside arbiter false deadline

theorem endRestore_aside (call : RestoreCall) :
    Aside arbiter (arbiter.endRestore call) := by
  cases call with
  | demand task => exact .endDemand task
  | restoreLlm force => exact .returns
  | tick => exact .returns
  | whenIdle deadline => exact .returns

theorem restoreLlmWhenIdle_aside (force : Bool) (maxWait : Nat) :
    Aside arbiter (arbiter.restoreLlmWhenIdle force maxWait) := by
  unfold restoreLlmWhenIdle
  split_ifs
  · exact .returns
  · exact .returns
  · exact idleCheck_aside arbiter force _

theorem idleOnWork_aside (force : Bool) (deadline : Nat) (reply : Reply) :
    Aside arbiter (arbiter.idleOnWork force deadline reply) := by
  unfold idleOnWork
  split
  · exact .returns
  · split_ifs
    · exact idleBusy_aside arbiter force deadline
    · exact .waits rfl rfl

theorem idleOnQueue_aside (force : Bool) (deadline : Nat) (queue : QueueRead) :
    Aside arbiter (arbiter.idleOnQueue force deadline queue) := by
  have idle : Aside arbiter
      (if force then (arbiter, some (.restoreLock true))
        else (arbiter, some (.decisionLock (.whenIdle deadline)))) := by
    split_ifs
    · exact .waits rfl rfl
    · exact .waits rfl rfl
  cases queue with
  | unknown => exact idleBusy_aside arbiter force deadline
  | refused => exact idle
  | counts running pending =>
    unfold idleOnQueue
    dsimp only
    by_cases busy : 0 < running + pending
    · rw [if_pos busy]
      exact idleBusy_aside arbiter force deadline
    · rw [if_neg busy]
      exact idle

theorem restoreTick_aside :
    Aside arbiter arbiter.restoreTick := by
  unfold restoreTick
  split_ifs
  · exact .returns
  · exact .ended ⟨rfl, rfl, rfl, rfl⟩ ⟨rfl, List.Subset.refl _, rfl, rfl⟩
      ⟨rfl, rfl⟩
  · exact .waits rfl rfl
  · exact .returns

theorem slotGroup_aside (slot : String) (toml : Option SlotConfig) :
    Aside arbiter ((arbiter.slotGroup slot toml).1, none) := by
  unfold slotGroup
  split
  · exact .returns
  · split
    · exact .ended ⟨rfl, rfl, rfl, rfl⟩ ⟨rfl, List.Subset.refl _, rfl, rfl⟩
        ⟨rfl, rfl⟩
    · exact .returns

theorem joinDemand_aside :
    Aside arbiter (arbiter.joinDemand.1, none) := by
  have created : Aside arbiter (arbiter.createDemand.1, none) :=
    .ended ⟨rfl, rfl, rfl, rfl⟩ ⟨rfl, List.Subset.refl _, rfl, rfl⟩
      ⟨rfl, rfl⟩
  unfold joinDemand
  split
  · split_ifs
    · exact created
    · exact .returns
  · exact created

theorem makeRoomForLlm_aside (request : RequestId) (slot : String)
    (maxWait : Nat) (toml : Option SlotConfig) :
    Aside arbiter (arbiter.makeRoomForLlm request slot maxWait toml) := by
  have looked := slotGroup_aside arbiter slot toml
  unfold makeRoomForLlm
  split_ifs
  · exact .returns
  · dsimp only
    split_ifs
    · exact looked
    · have joined := joinDemand_aside (arbiter.slotGroup slot toml).1
      have kept := looked.kept.trans joined.kept
      have frame := looked.frame.trans joined.frame
      have jobs := looked.jobs.trans joined.jobs
      refine ⟨⟨kept.state, kept.file, kept.slots, kept.unloaded⟩,
        ⟨frame.now, frame.leases, frame.nextLease, frame.nextJob⟩,
        ⟨jobs.count, jobs.jobs⟩, ?_⟩
      intro next awaited
      cases awaited
      exact ⟨rfl, rfl⟩

theorem releaseDemandLease_aside (request : RequestId) :
    Aside arbiter (arbiter.releaseDemandLease request, none) := by
  unfold releaseDemandLease
  split
  · exact .returns
  · exact .ended ⟨rfl, rfl, rfl, rfl⟩
      ⟨rfl, List.filter_sublist.subset, rfl, rfl⟩ ⟨rfl, rfl⟩

theorem wakeWaiter_unswitched (request : RequestId) (task : DemandId) :
    Unswitched arbiter (arbiter.wakeWaiter request task) := by
  have left : Unswitched arbiter (arbiter.leaveDemandWait task) :=
    ⟨rfl, rfl, rfl, rfl⟩
  have released := left.trans
    (releaseDemandLease_aside (arbiter.leaveDemandWait task) request).kept
  unfold wakeWaiter
  dsimp only
  split_ifs
  · exact ⟨released.state, released.file, released.slots, released.unloaded⟩
  · exact left

end

variable {arbiter : GpuArbiter} {pc : Pc} {turn : Turn}

/-- Off the lock no step touches the mode. -/
theorem resume_aside {reply : Reply}
    (resumed : arbiter.resume pc reply = some turn)
    (outside : pc.holds = false) (unlocked : pc.acquires = false) :
    (∃ job switched, pc = .rendering job switched ∧
      turn = (arbiter.closeJob job, none)) ∨
    (∃ request task deadline, pc = .waiting request task deadline ∧
      turn = (arbiter.wakeWaiter request task, none)) ∨
    Aside arbiter turn ∧ pc.job = none := by
  cases pc with
  | rendering job switched =>
    cases resumed
    exact Or.inl ⟨job, switched, rfl, rfl⟩
  | waiting request task deadline =>
    simp only [resume, ite_none_right_eq_some] at resumed
    obtain ⟨-, woken⟩ := resumed
    cases woken
    exact Or.inr (Or.inl ⟨request, task, deadline, rfl, rfl⟩)
  | idleStart force maxWait =>
    cases resumed
    exact Or.inr (Or.inr
      ⟨restoreLlmWhenIdle_aside arbiter force maxWait, rfl⟩)
  | idleWork force deadline =>
    cases resumed
    exact Or.inr (Or.inr
      ⟨idleOnWork_aside arbiter force deadline reply, rfl⟩)
  | idleQueue force deadline =>
    cases resumed
    exact Or.inr (Or.inr
      ⟨idleOnQueue_aside arbiter force deadline reply.queue, rfl⟩)
  | idleSleep force deadline =>
    cases resumed
    exact Or.inr (Or.inr ⟨idleCheck_aside arbiter force deadline, rfl⟩)
  | tick =>
    cases resumed
    exact Or.inr (Or.inr ⟨restoreTick_aside arbiter, rfl⟩)
  | demandLoop task recheckAt =>
    cases resumed
    exact Or.inr (Or.inr
      ⟨restoreOnDemand_aside arbiter task recheckAt, rfl⟩)
  | makeRoom request slot maxWait =>
    cases resumed
    exact Or.inr (Or.inr
      ⟨makeRoomForLlm_aside arbiter request slot maxWait reply.toml, rfl⟩)
  | _ => simp [Pc.holds, Pc.acquires] at outside unlocked

theorem resume_unswitched {reply : Reply}
    (resumed : arbiter.resume pc reply = some turn)
    (outside : pc.holds = false) (unlocked : pc.acquires = false) :
    Unswitched arbiter turn.1 ∧
      ∀ next, turn.2 = some next → next.holds = false := by
  rcases resume_aside resumed outside unlocked with
    ⟨job, switched, rfl, rfl⟩ | ⟨request, task, deadline, rfl, rfl⟩ |
      ⟨aside, -⟩
  · exact ⟨⟨rfl, rfl, rfl, rfl⟩, nofun⟩
  · exact ⟨wakeWaiter_unswitched arbiter request task,
      nofun⟩
  · exact ⟨aside.kept, fun next awaited => (aside.outside next awaited).1⟩

/-! ## Steps of `ensure_img` -/

/-- Nothing that an invariant names has changed. -/
structure Still (before after : GpuArbiter) : Prop where
  frame : Frame before after
  jobs : SameJobs before after

theorem setSlot_still (arbiter : GpuArbiter) (slot : String)
    (status : SlotStatus) : Still arbiter (arbiter.setSlot slot status) :=
  ⟨⟨rfl, List.Subset.refl _, rfl, rfl⟩, ⟨rfl, rfl⟩⟩

theorem persist_still (arbiter : GpuArbiter) (state : ArbiterState)
    (written : Bool) : Still arbiter (arbiter.persist state written) :=
  ⟨⟨rfl, List.Subset.refl _, rfl, rfl⟩, ⟨rfl, rfl⟩⟩

theorem refreshGroupCache_still (arbiter : GpuArbiter)
    (configs : List SlotConfig) :
    Still arbiter (arbiter.refreshGroupCache configs) :=
  ⟨⟨rfl, List.Subset.refl _, rfl, rfl⟩, ⟨rfl, rfl⟩⟩

theorem attemptLoad_still (arbiter : GpuArbiter) (slot : String) :
    Still arbiter (arbiter.attemptLoad slot) :=
  ⟨⟨rfl, List.Subset.refl _, rfl, rfl⟩, ⟨rfl, rfl⟩⟩

theorem pruneDemandLeases_still (arbiter : GpuArbiter) :
    Still arbiter arbiter.pruneDemandLeases :=
  ⟨⟨rfl, List.filter_sublist.subset, rfl, rfl⟩, ⟨rfl, rfl⟩⟩

/-- The image job of a task stays open, or the task ends and closes it. -/
inductive JobTurn (arbiter : GpuArbiter) (job : Option JobId)
    (turn : Turn) : Prop where
  | kept (same : SameJobs arbiter turn.1)
      (goesOn : turn.2.bind Pc.job = job)
  | closed {held : JobId} (mine : job = some held)
      (count : turn.1.imageJobs = arbiter.imageJobs - 1)
      (jobs : turn.1.openJobs = arbiter.openJobs.erase held)
      (ended : turn.2 = none)

/--
A step of `ensure_img`.  It never enters a restore, it leaves the mode its
next counter expects, and it goes on to read the configs before the flip
without a lease in place, unless its wait timed out.
-/
structure EnsureTurn (arbiter : GpuArbiter) (call : EnsureCall)
    (turn : Turn) : Prop where
  frame : Frame arbiter turn.1
  jobs : JobTurn arbiter call.job turn
  outsideBody : ∀ pc, turn.2 = some pc → pc.restoreCall = none
  expects : ∀ pc mode, turn.2 = some pc → pc.expects = some mode →
    turn.1.state.mode = mode
  unleased : ∀ other, turn.2 = some (.switchConfigs other false) →
    turn.1.demandLeases = []

namespace EnsureTurn

variable {arbiter middle after : GpuArbiter} {call : EnsureCall}
  {turn : Turn} {pc : Pc}

theorem after_still (still : Still arbiter middle)
    (later : EnsureTurn middle call turn) : EnsureTurn arbiter call turn where
  frame := still.frame.trans later.frame
  jobs := by
    cases later.jobs with
    | kept same goesOn => exact .kept (still.jobs.trans same) goesOn
    | closed mine count jobs ended =>
      refine .closed mine ?_ ?_ ended
      · rw [count, still.jobs.count]
      · rw [jobs, still.jobs.jobs]
  outsideBody := later.outsideBody
  expects := later.expects
  unleased := later.unleased

theorem goesOn (still : Still arbiter after) (job : pc.job = call.job)
    (body : pc.restoreCall = none)
    (expects : ∀ mode, pc.expects = some mode → after.state.mode = mode)
    (unleased : ∀ other, pc = .switchConfigs other false →
      after.demandLeases = []) :
    EnsureTurn arbiter call (after, some pc) where
  frame := still.frame
  jobs := .kept still.jobs job
  outsideBody := by
    intro next awaited
    cases awaited
    exact body
  expects := by
    intro next mode awaited
    cases awaited
    exact expects mode
  unleased := by
    intro other awaited
    exact unleased other (some.inj awaited)

theorem ends (frame : Frame arbiter after)
    (jobs : JobTurn arbiter call.job (after, none)) :
    EnsureTurn arbiter call (after, none) where
  frame := frame
  jobs := jobs
  outsideBody := nofun
  expects := nofun
  unleased := nofun

/-- `ensure_img` awaits in image mode. -/
theorem awaits (still : Still arbiter after) (job : pc.job = call.job)
    (body : pc.restoreCall = none) (expects : pc.expects = some .img)
    (mode : after.state.mode = .img) :
    EnsureTurn arbiter call (after, some pc) := by
  refine .goesOn still job body ?_ ?_
  · intro expected found
    rw [expects] at found
    exact mode.trans (some.inj found)
  · intro other same
    rw [same] at expects
    cases expects

end EnsureTurn

theorem endEnsure_turn (arbiter : GpuArbiter) (call : EnsureCall)
    (result : EnsureResult)
    (mode : result = .returned → arbiter.state.mode = .img) :
    EnsureTurn arbiter call (arbiter.endEnsure call result) := by
  obtain ⟨pin, job⟩ := call
  have left : Still arbiter arbiter.leaveSwitch :=
    ⟨⟨rfl, List.Subset.refl _, rfl, rfl⟩, ⟨rfl, rfl⟩⟩
  cases job with
  | none => exact .ends left.frame (.kept left.jobs rfl)
  | some job =>
    cases result with
    | returned => exact .awaits left rfl rfl rfl (mode rfl)
    | imgSlotMissing =>
      refine .goesOn left rfl rfl ?_ ?_
      · intro expected found
        cases found
      · intro other same
        cases same
    | raised =>
      exact .ends ⟨rfl, List.Subset.refl _, rfl, rfl⟩
        (.closed rfl rfl rfl rfl)

section ImageMode

variable {arbiter : GpuArbiter} {call : EnsureCall}

theorem rollbackLoads_turn (reply : Reply) (slots : List String)
    (mode : arbiter.state.mode = .img) :
    EnsureTurn arbiter call (arbiter.rollbackLoads call reply slots) := by
  cases slots with
  | cons slot rest =>
    exact .awaits (attemptLoad_still arbiter slot) rfl rfl rfl mode
  | nil =>
    apply EnsureTurn.after_still (persist_still arbiter _ _)
    apply endEnsure_turn
    intro impossible
    cases impossible

theorem rollbackToLlm_turn (slots : List String) (img : String)
    (unloadImg : Bool) (reply : Reply) (mode : arbiter.state.mode = .img) :
    EnsureTurn arbiter call
      (arbiter.rollbackToLlm call slots img unloadImg reply) := by
  unfold rollbackToLlm
  split_ifs
  · exact .awaits ⟨.refl _, .refl _⟩ rfl rfl rfl mode
  · exact rollbackLoads_turn reply slots mode

theorem coldStartImg_turn (img : String) (saved : List String)
    (mode : arbiter.state.mode = .img) :
    EnsureTurn arbiter call (arbiter.coldStartImg call img saved) :=
  .awaits (attemptLoad_still arbiter img) rfl rfl rfl mode

theorem pollImg_turn (img : String) (saved : List String) (deadline : Nat)
    (reply : Reply) (mode : arbiter.state.mode = .img) :
    EnsureTurn arbiter call
      (arbiter.pollImg call img saved deadline reply) := by
  unfold pollImg
  dsimp only
  split_ifs
  · exact endEnsure_turn arbiter call .returned fun _ => mode
  · exact rollbackToLlm_turn saved img true reply mode
  · exact rollbackToLlm_turn saved img true reply mode
  · exact .awaits ⟨.refl _, .refl _⟩ rfl rfl rfl mode

theorem loadImgReturned_turn (img : String) (saved : List String)
    (reply : Reply) (mode : arbiter.state.mode = .img) :
    EnsureTurn arbiter call
      (arbiter.loadImgReturned call img saved reply) := by
  apply EnsureTurn.after_still (setSlot_still arbiter img reply.status)
  unfold loadImgReturned
  dsimp only
  split_ifs
  · exact rollbackToLlm_turn saved img false reply mode
  · exact pollImg_turn img saved _ reply mode

theorem afterUnloads_turn (branch : Branch) (saved : List String)
    (img : String) (mode : arbiter.state.mode = .img) :
    EnsureTurn arbiter call
      (arbiter.afterUnloads call branch saved img) := by
  cases branch with
  | flip =>
    simp only [afterUnloads]
    split_ifs
    · exact endEnsure_turn arbiter call .returned fun _ => mode
    · exact coldStartImg_turn img saved mode
  | already => exact .awaits ⟨.refl _, .refl _⟩ rfl rfl rfl mode

theorem unloadForImg_turn (branch : Branch) (slots saved : List String)
    (img : String) (mode : arbiter.state.mode = .img) :
    EnsureTurn arbiter call
      (arbiter.unloadForImg call branch slots saved img) := by
  cases slots with
  | cons slot rest => exact .awaits ⟨.refl _, .refl _⟩ rfl rfl rfl mode
  | nil => exact afterUnloads_turn branch saved img mode

theorem unloadReturned_turn (branch : Branch) (slot : String)
    (rest saved : List String) (img : String) (reply : Reply)
    (mode : arbiter.state.mode = .img) :
    EnsureTurn arbiter call
      (arbiter.unloadReturned call branch slot rest saved img reply) := by
  unfold unloadReturned
  split_ifs
  · apply EnsureTurn.after_still (setSlot_still arbiter slot reply.status)
    exact rollbackToLlm_turn _ img false reply mode
  · have still : Still arbiter
        { arbiter.setSlot slot { reply.status with state := .offline } with
          unloaded := slot :: arbiter.unloaded } :=
      ⟨⟨rfl, List.Subset.refl _, rfl, rfl⟩, ⟨rfl, rfl⟩⟩
    apply EnsureTurn.after_still still
    exact unloadForImg_turn branch rest saved img mode

theorem awaitLoads_turn (branch : Branch) (slots saved : List String)
    (img : String) (deadline : Nat) (reply : Reply)
    (mode : arbiter.state.mode = .img) :
    EnsureTurn arbiter call
      (arbiter.awaitLoads call branch slots saved img deadline reply) := by
  unfold awaitLoads
  dsimp only
  split_ifs
  · exact unloadForImg_turn branch slots saved img mode
  · exact rollbackToLlm_turn _ img false reply mode
  · exact .awaits ⟨.refl _, .refl _⟩ rfl rfl rfl mode

theorem drain_turn (saved : List String) (img : String) (deadline : Nat)
    (reply : Reply) (mode : arbiter.state.mode = .img) :
    EnsureTurn arbiter call
      (arbiter.drain call saved img deadline reply) := by
  unfold drain
  split_ifs
  · exact .awaits ⟨.refl _, .refl _⟩ rfl rfl rfl mode
  · exact awaitLoads_turn .flip saved saved img _ reply mode

theorem finishUnloads_turn (mode : arbiter.state.mode = .img) :
    EnsureTurn arbiter call (arbiter.finishUnloads call) := by
  unfold finishUnloads
  dsimp only
  split
  · exact .awaits ⟨.refl _, .refl _⟩ rfl rfl rfl mode
  · exact .awaits ⟨.refl _, .refl _⟩ rfl rfl rfl mode

theorem finishUnloadsFrom_turn (loaded saved : List String) (reply : Reply)
    (mode : arbiter.state.mode = .img) :
    EnsureTurn arbiter call
      (arbiter.finishUnloadsFrom call loaded saved reply) := by
  unfold finishUnloadsFrom
  split
  · exact endEnsure_turn arbiter call .raised fun impossible => by
      cases impossible
  · exact awaitLoads_turn .already loaded saved _ _ reply mode

theorem reviveImg_turn (reply : Reply) (mode : arbiter.state.mode = .img) :
    EnsureTurn arbiter call (arbiter.reviveImg call reply) := by
  unfold reviveImg
  split
  · exact endEnsure_turn arbiter call .raised fun impossible => by
      cases impossible
  · rename_i configs _
    apply EnsureTurn.after_still (refreshGroupCache_still arbiter configs)
    dsimp only
    split
    · exact endEnsure_turn _ call .returned fun _ => mode
    · split_ifs
      · exact endEnsure_turn _ call .returned fun _ => mode
      · exact coldStartImg_turn _ _ mode

end ImageMode

theorem switchToImg_turn (arbiter : GpuArbiter) (call : EnsureCall)
    (reply : Reply) :
    EnsureTurn arbiter call (arbiter.switchToImg call reply) := by
  unfold switchToImg
  split
  · exact endEnsure_turn arbiter call .raised fun impossible => by
      cases impossible
  · rename_i configs _
    apply EnsureTurn.after_still (refreshGroupCache_still arbiter configs)
    dsimp only
    split
    · exact endEnsure_turn _ call .imgSlotMissing fun impossible => by
        cases impossible
    · split_ifs
      · exact endEnsure_turn _ call .raised fun impossible => by
          cases impossible
      · apply EnsureTurn.after_still (persist_still _ _ reply.written)
        exact drain_turn _ _ _ reply rfl
      · apply EnsureTurn.after_still (persist_still _ _ reply.written)
        exact endEnsure_turn _ call .raised fun impossible => by
          cases impossible

theorem pruneDemandLeases_eq_nil
    (served : ¬ arbiter.servedRequestsPending = true) :
    arbiter.pruneDemandLeases.demandLeases = [] := by
  simp only [servedRequestsPending, Bool.or_eq_true, not_or,
    Bool.not_eq_true', Bool.not_eq_false] at served
  exact List.isEmpty_iff.mp served.1

theorem letServedRequestsDispatch_turn (arbiter : GpuArbiter)
    (call : EnsureCall) (deadline : Nat)
    (mode : arbiter.state.mode = .llm) :
    EnsureTurn arbiter call
      (arbiter.letServedRequestsDispatch call deadline) := by
  have still := pruneDemandLeases_still arbiter
  unfold letServedRequestsDispatch
  dsimp only
  split_ifs with pending late
  · refine .goesOn still rfl rfl ?_ ?_
    · intro expected found
      cases found
      exact mode
    · intro other same
      cases same
  · refine .goesOn still rfl rfl ?_ ?_
    · intro expected found
      cases found
      exact mode
    · intro other same
      cases same
  · refine .goesOn still rfl rfl ?_ ?_
    · intro expected found
      cases found
      exact mode
    · intro other same
      exact pruneDemandLeases_eq_nil pending

theorem ensureImgLocked_turn (arbiter : GpuArbiter) (call : EnsureCall)
    (reply : Reply) :
    EnsureTurn arbiter call (arbiter.ensureImgLocked call reply) := by
  have entering : Still arbiter { arbiter with enteringImg := true } :=
    ⟨⟨rfl, List.Subset.refl _, rfl, rfl⟩, ⟨rfl, rfl⟩⟩
  apply EnsureTurn.after_still entering
  unfold ensureImgLocked
  dsimp only
  split_ifs with mode pins written
  · apply EnsureTurn.after_still (persist_still _ _ reply.written)
    exact finishUnloads_turn mode
  · apply EnsureTurn.after_still (persist_still _ _ reply.written)
    exact endEnsure_turn _ call .raised nofun
  · exact finishUnloads_turn mode
  · apply letServedRequestsDispatch_turn
    cases found : arbiter.state.mode with
    | llm => rfl
    | img => exact absurd found mode

/-! ## Steps of a restore -/

/--
A step of a restore, or of a task that may start one; `body` is the restore
whose locked body it is in.  Only the body switches anything, and it is
entered at its head, by force or while no image job is open.
-/
structure RestoreTurn (arbiter : GpuArbiter) (body : Option RestoreCall)
    (turn : Turn) : Prop where
  frame : Frame arbiter turn.1
  jobs : SameJobs arbiter turn.1
  kept : Unswitched arbiter turn.1 ∨ body.isSome
  jobless : ∀ pc, turn.2 = some pc → pc.job = none
  outsideSwitch : ∀ pc, turn.2 = some pc → pc.holds = true →
    pc.ensureCall = none
  expects : ∀ pc mode, turn.2 = some pc → pc.expects = some mode →
    turn.1.state.mode = mode
  enters : ∀ pc call, turn.2 = some pc → pc.restoreCall = some call →
    body = some call ∨ (pc = .restoreConfigs call ∧
      (call.forced = true ∨ arbiter.imageJobs = 0))

namespace RestoreTurn

variable {arbiter middle after : GpuArbiter} {body : Option RestoreCall}
  {turn : Turn} {pc : Pc}

theorem of_aside (aside : Aside arbiter turn) :
    RestoreTurn arbiter body turn where
  frame := aside.frame
  jobs := aside.jobs
  kept := Or.inl aside.kept
  jobless := fun pc awaited => (aside.outside pc awaited).2
  outsideSwitch := by
    intro pc awaited held
    rw [(aside.outside pc awaited).1] at held
    cases held
  expects := by
    intro pc mode awaited found
    obtain ⟨outside, jobless⟩ := aside.outside pc awaited
    rw [Pc.expects_of_outside outside jobless] at found
    cases found
  enters := by
    intro pc call awaited entered
    rw [Pc.restoreCall_of_outside (aside.outside pc awaited).1] at entered
    cases entered

theorem after_still (still : Still arbiter middle)
    (kept : Unswitched arbiter middle ∨ body.isSome)
    (later : RestoreTurn middle body turn) : RestoreTurn arbiter body turn where
  frame := still.frame.trans later.frame
  jobs := still.jobs.trans later.jobs
  kept := by
    rcases kept with first | inside
    · rcases later.kept with second | inside
      · exact Or.inl (first.trans second)
      · exact Or.inr inside
    · exact Or.inr inside
  jobless := later.jobless
  outsideSwitch := later.outsideSwitch
  expects := later.expects
  enters := by
    intro pc call awaited entered
    rw [← still.jobs.count]
    exact later.enters pc call awaited entered

theorem awaits (still : Still arbiter after) (jobless : pc.job = none)
    (outsideSwitch : pc.ensureCall = none)
    (expects : pc.expects = some .img)
    (image : after.state.mode = .img)
    (kept : Unswitched arbiter after ∨ body.isSome)
    (enters : ∀ call, pc.restoreCall = some call →
      body = some call ∨ (pc = .restoreConfigs call ∧
        (call.forced = true ∨ arbiter.imageJobs = 0))) :
    RestoreTurn arbiter body (after, some pc) where
  frame := still.frame
  jobs := still.jobs
  kept := kept
  jobless := by
    intro next awaited
    cases awaited
    exact jobless
  outsideSwitch := by
    intro next awaited _
    cases awaited
    exact outsideSwitch
  expects := by
    intro next expected awaited found
    cases awaited
    rw [expects] at found
    exact image.trans (some.inj found)
  enters := by
    intro next call awaited
    cases awaited
    exact enters call

theorem asks (jobless : pc.job = none) (outsideSwitch : pc.ensureCall = none)
    (expects : pc.expects = some .img)
    (image : arbiter.state.mode = .img)
    (enters : ∀ call, pc.restoreCall = some call →
      pc = .restoreConfigs call ∧
        (call.forced = true ∨ arbiter.imageJobs = 0)) :
    RestoreTurn arbiter none (arbiter, some pc) :=
  .awaits ⟨.refl _, .refl _⟩ jobless outsideSwitch expects image
    (Or.inl (.refl _)) fun call entered => Or.inr (enters call entered)

end RestoreTurn

theorem imageJobs_eq_zero_of_no_work {configs : List SlotConfig}
    (idle : ¬ arbiter.hal0ImageWork configs = true) :
    arbiter.imageJobs = 0 := by
  simp only [hal0ImageWork, Bool.or_eq_true, not_or, decide_eq_true_eq] at idle
  omega

theorem holdForPrompt_aside (arbiter : GpuArbiter) :
    Aside arbiter (arbiter.holdForPrompt, none) := by
  unfold holdForPrompt
  split_ifs
  · exact .ended ⟨rfl, rfl, rfl, rfl⟩ ⟨rfl, List.Subset.refl _, rfl, rfl⟩
      ⟨rfl, rfl⟩
  · exact .returns

/-- A restore begins. -/
theorem restoreLlm_turn (arbiter : GpuArbiter) (force : Bool) :
    RestoreTurn arbiter none (arbiter.restoreLlm force) := by
  unfold restoreLlm
  split_ifs with other pinned forced jobs
  · exact .of_aside .returns
  · exact .of_aside .returns
  · refine .asks rfl rfl rfl (not_not.mp other) ?_
    intro call entered
    cases entered
    exact ⟨rfl, Or.inl rfl⟩
  · exact .of_aside .returns
  · refine .asks rfl rfl rfl (not_not.mp other) ?_
    intro call entered
    cases entered

theorem restoreUnlessWork_turn (reply : Reply)
    (mode : arbiter.state.mode = .img) :
    RestoreTurn arbiter none (arbiter.restoreUnlessWork reply) := by
  unfold restoreUnlessWork
  split
  · exact .of_aside .returns
  · split_ifs with work
    · exact .of_aside .returns
    · refine .asks rfl rfl rfl mode ?_
      intro call entered
      cases entered
      exact ⟨rfl, Or.inr (imageJobs_eq_zero_of_no_work work)⟩

theorem restoreDecision_turn (arbiter : GpuArbiter) (call : RestoreCall) :
    RestoreTurn arbiter none (arbiter.restoreDecision call) := by
  unfold restoreDecision
  split_ifs with other
  · exact .of_aside (refuse_aside arbiter call .notImageMode)
  · exact .of_aside (refuse_aside arbiter call .pinned)
  · exact .of_aside (refuse_aside arbiter call .busy)
  · exact .of_aside (refuse_aside arbiter call .grace)
  · exact .of_aside (refuse_aside arbiter call .busy)
  · refine .asks rfl rfl rfl (not_not.mp other) ?_
    intro entered found
    cases found

theorem decideOnWork_turn (call : RestoreCall) (reply : Reply)
    (mode : arbiter.state.mode = .img) :
    RestoreTurn arbiter none (arbiter.decideOnWork call reply) := by
  unfold decideOnWork
  split
  · exact .of_aside (endRestore_aside arbiter call)
  · split_ifs
    · exact .of_aside (refuse_aside arbiter call .busy)
    · refine .asks rfl rfl rfl mode ?_
      intro entered found
      cases found

theorem decideOnQueue_turn (call : RestoreCall) (queue : QueueRead)
    (mode : arbiter.state.mode = .img) :
    RestoreTurn arbiter none (arbiter.decideOnQueue call queue) := by
  have noisy (refused : Refused) : RestoreTurn arbiter none
      ({ arbiter with quietSince := some arbiter.now }.refuse call
        refused) := by
    have still : Still arbiter
        { arbiter with quietSince := some arbiter.now } :=
      ⟨⟨rfl, List.Subset.refl _, rfl, rfl⟩, ⟨rfl, rfl⟩⟩
    exact .after_still still (Or.inl ⟨rfl, rfl, rfl, rfl⟩)
      (.of_aside (refuse_aside _ call refused))
  have idle : RestoreTurn arbiter none
      (if 0 < arbiter.imageJobs then arbiter.refuse call .busy
        else if arbiter.state.pinned then arbiter.refuse call .pinned
        else arbiter.restoreLlmLocked call) := by
    split_ifs with jobs
    · exact .of_aside (refuse_aside arbiter call .busy)
    · exact .of_aside (refuse_aside arbiter call .pinned)
    · refine .asks rfl rfl rfl mode ?_
      intro entered found
      cases found
      exact ⟨rfl, Or.inr (Nat.eq_zero_of_not_pos jobs)⟩
  cases queue with
  | unknown => exact noisy .unreadable
  | refused => exact idle
  | counts running pending =>
    unfold decideOnQueue
    dsimp only
    by_cases busy : 0 < running + pending
    · rw [if_pos busy]
      exact noisy .busy
    · rw [if_neg busy]
      exact idle

theorem freeComfyui_turn (call : RestoreCall) (reply : Reply)
    (mode : arbiter.state.mode = .img) :
    RestoreTurn arbiter (some call) (arbiter.freeComfyui call reply) := by
  unfold freeComfyui
  split
  · exact .of_aside (endRestore_aside arbiter call)
  · refine .awaits (refreshGroupCache_still arbiter _) rfl rfl rfl mode
      (Or.inr rfl) ?_
    intro entered found
    exact Or.inl found

/-- The slots are loaded again. -/
theorem restoreLoads_turn (call : RestoreCall) (reply : Reply)
    (slots : List String) (mode : arbiter.state.mode = .img) :
    RestoreTurn arbiter (some call)
      (arbiter.restoreLoads call reply slots) := by
  cases slots with
  | cons slot rest =>
    refine .awaits (attemptLoad_still arbiter slot) rfl rfl rfl mode
      (Or.inr rfl) ?_
    intro entered found
    exact Or.inl found
  | nil =>
    have written := persist_still arbiter ⟨.llm, false, []⟩ reply.written
    have cleared : Still arbiter
        (arbiter.persist ⟨.llm, false, []⟩ reply.written).clearClocks :=
      ⟨⟨rfl, List.Subset.refl _, rfl, rfl⟩, ⟨rfl, rfl⟩⟩
    simp only [restoreLoads]
    split_ifs
    · exact .after_still cleared (Or.inr rfl)
        (.of_aside (endRestore_aside _ call))
    · exact .after_still written (Or.inr rfl)
        (.of_aside (endRestore_aside _ call))

/-! ## What one step of a task does -/

/-- Where a step stands, and what it does. -/
inductive Progress (arbiter : GpuArbiter) (pc : Pc) (turn : Turn) :
    Prop where
  | ensure {call : EnsureCall} (inside : pc.ensureCall = some call)
      (outsideBody : pc.restoreCall = none) (job : pc.job = call.job)
      (taken : EnsureTurn arbiter call turn)
  | restore (outside : pc.ensureCall = none) (jobless : pc.job = none)
      (taken : RestoreTurn arbiter pc.restoreCall turn)
  | rendered {job : JobId} {switched : Bool}
      (rendering : pc = .rendering job switched)
      (closed : turn = (arbiter.closeJob job, none))
  | woken {request : RequestId} {task : DemandId} {deadline : Nat}
      (waited : pc = .waiting request task deadline)
      (left : turn = (arbiter.wakeWaiter request task, none))

/-- The mode is what the task takes it for. -/
def Expected (arbiter : GpuArbiter) (pc : Pc) : Prop :=
  ∀ mode, pc.expects = some mode → arbiter.state.mode = mode

/-- Every step of a task. -/
theorem progress_of_resume {reply : Reply}
    (resumed : arbiter.resume pc reply = some turn)
    (expected : pc.holds = true → Expected arbiter pc) :
    Progress arbiter pc turn := by
  cases pc with
  | ensureLock call =>
    cases resumed
    exact .ensure rfl rfl rfl (ensureImgLocked_turn arbiter call reply)
  | letServed call deadline =>
    cases resumed
    exact .ensure rfl rfl rfl (letServedRequestsDispatch_turn arbiter call
      deadline (expected rfl _ rfl))
  | switchConfigs call timedOut =>
    cases resumed
    exact .ensure rfl rfl rfl (switchToImg_turn arbiter call reply)
  | drain call saved img deadline =>
    cases resumed
    exact .ensure rfl rfl rfl
      (drain_turn saved img deadline reply (expected rfl _ rfl))
  | awaitLoads call branch slots saved img deadline =>
    cases resumed
    exact .ensure rfl rfl rfl (awaitLoads_turn branch slots saved img
      deadline reply (expected rfl _ rfl))
  | unload call branch slot rest saved img =>
    cases resumed
    exact .ensure rfl rfl rfl (unloadReturned_turn branch slot rest saved
      img reply (expected rfl _ rfl))
  | finishConfigs call loaded saved =>
    cases resumed
    exact .ensure rfl rfl rfl
      (finishUnloadsFrom_turn loaded saved reply (expected rfl _ rfl))
  | reviveConfigs call =>
    cases resumed
    exact .ensure rfl rfl rfl (reviveImg_turn reply (expected rfl _ rfl))
  | loadImg call img saved =>
    cases resumed
    exact .ensure rfl rfl rfl
      (loadImgReturned_turn img saved reply (expected rfl _ rfl))
  | imgReady call img saved deadline =>
    cases resumed
    exact .ensure rfl rfl rfl
      (pollImg_turn img saved deadline reply (expected rfl _ rfl))
  | rollbackUnload call img slots =>
    cases resumed
    exact .ensure rfl rfl rfl
      (.after_still (setSlot_still arbiter img reply.status)
        (rollbackLoads_turn reply slots (expected rfl _ rfl)))
  | rollbackLoad call slot rest =>
    cases resumed
    exact .ensure rfl rfl rfl
      (.after_still (setSlot_still arbiter slot reply.status)
        (rollbackLoads_turn reply rest (expected rfl _ rfl)))
  | restoreLock force =>
    cases resumed
    exact .restore rfl rfl (restoreLlm_turn arbiter force)
  | restoreWork =>
    cases resumed
    exact .restore rfl rfl
      (restoreUnlessWork_turn reply (expected rfl _ rfl))
  | decisionLock call =>
    cases resumed
    exact .restore rfl rfl (restoreDecision_turn arbiter call)
  | decisionWork call =>
    cases resumed
    exact .restore rfl rfl
      (decideOnWork_turn call reply (expected rfl _ rfl))
  | decisionQueue call =>
    cases resumed
    exact .restore rfl rfl
      (decideOnQueue_turn call reply.queue (expected rfl _ rfl))
  | restoreConfigs call =>
    cases resumed
    exact .restore rfl rfl (freeComfyui_turn call reply (expected rfl _ rfl))
  | restoreFree call saved =>
    cases resumed
    exact .restore rfl rfl
      (restoreLoads_turn call reply saved (expected rfl _ rfl))
  | restoreLoad call slot rest =>
    cases resumed
    exact .restore rfl rfl
      (.after_still (setSlot_still arbiter slot reply.status) (Or.inr rfl)
        (restoreLoads_turn call reply rest (expected rfl _ rfl)))
  | holdLock =>
    cases resumed
    exact .restore rfl rfl (.of_aside (holdForPrompt_aside arbiter))
  | _ =>
    rcases resume_aside resumed rfl rfl with
      ⟨job, switched, same, closed⟩ |
        ⟨request, task, deadline, same, left⟩ | ⟨aside, jobless⟩
    · exact .rendered same closed
    · exact .woken same left
    · exact .restore rfl jobless (.of_aside aside)

theorem Progress.expected {counter : Pc} (progress : Progress arbiter pc turn)
    (awaited : turn.2 = some counter) : Expected turn.1 counter := by
  intro mode found
  cases progress with
  | ensure inside outsideBody job taken =>
    exact taken.expects counter mode awaited found
  | restore outside jobless taken =>
    exact taken.expects counter mode awaited found
  | rendered rendering closed =>
    cases closed
    cases awaited
  | woken waited left =>
    cases left
    cases awaited

theorem wakeWaiter_jobs (arbiter : GpuArbiter) (request : RequestId)
    (task : DemandId) :
    SameJobs arbiter (arbiter.wakeWaiter request task) ∧
      (arbiter.wakeWaiter request task).nextJob = arbiter.nextJob := by
  have released :=
    releaseDemandLease_aside (arbiter.leaveDemandWait task) request
  unfold wakeWaiter
  dsimp only
  split_ifs
  · exact ⟨⟨released.jobs.count, released.jobs.jobs⟩, released.frame.nextJob⟩
  · exact ⟨⟨rfl, rfl⟩, rfl⟩

theorem Progress.jobs (progress : Progress arbiter pc turn) :
    JobTurn arbiter pc.job turn ∧ turn.1.nextJob = arbiter.nextJob := by
  cases progress with
  | ensure inside outsideBody job taken =>
    rw [job]
    exact ⟨taken.jobs, taken.frame.nextJob⟩
  | restore outside jobless taken =>
    refine ⟨.kept taken.jobs ?_, taken.frame.nextJob⟩
    rw [jobless]
    cases awaited : turn.2 with
    | none => rfl
    | some next => exact taken.jobless next awaited
  | rendered rendering closed =>
    cases rendering
    cases closed
    exact ⟨.closed rfl rfl rfl rfl, rfl⟩
  | @woken request task deadline waited left =>
    cases waited
    cases left
    obtain ⟨same, next⟩ := wakeWaiter_jobs arbiter request task
    exact ⟨.kept same rfl, next⟩

/-! ## Calls, cancellations and events -/

/-- A new task switches nothing; an image request opens a fresh job. -/
structure Started (arbiter : GpuArbiter) (pc : Pc) (started : GpuArbiter) :
    Prop where
  kept : Unswitched arbiter started
  now : started.now = arbiter.now
  leases : started.demandLeases = arbiter.demandLeases
  nextLease : started.nextLease = arbiter.nextLease
  jobs : (pc.job = none ∧ SameJobs arbiter started ∧
      started.nextJob = arbiter.nextJob) ∨
    (pc.job = some arbiter.nextJob ∧
      started.imageJobs = arbiter.imageJobs + 1 ∧
      started.openJobs = arbiter.nextJob :: arbiter.openJobs ∧
      started.nextJob = arbiter.nextJob + 1)

theorem Started.unchanged (arbiter : GpuArbiter)
    (jobless : pc.job = none) : Started arbiter pc arbiter :=
  ⟨.refl _, rfl, rfl, rfl, Or.inl ⟨jobless, .refl _, rfl⟩⟩

theorem started_of_start {started : GpuArbiter}
    (begun : arbiter.start pc = some started) :
    Started arbiter pc started := by
  cases pc with
  | ensureLock call =>
    obtain ⟨pin, job⟩ := call
    cases job with
    | none =>
      cases begun
      exact .unchanged arbiter rfl
    | some job =>
      simp only [start, ite_none_right_eq_some] at begun
      obtain ⟨rfl, opened⟩ := begun
      cases opened
      exact ⟨⟨rfl, rfl, rfl, rfl⟩, rfl, rfl, rfl,
        Or.inr ⟨rfl, rfl, rfl, rfl⟩⟩
  | demandLoop task recheckAt =>
    cases recheckAt with
    | succ later => cases begun
    | zero =>
      simp only [start, ite_none_right_eq_some] at begun
      obtain ⟨-, scheduled⟩ := begun
      cases scheduled
      exact ⟨⟨rfl, rfl, rfl, rfl⟩, rfl, rfl, rfl,
        Or.inl ⟨rfl, ⟨rfl, rfl⟩, rfl⟩⟩
  | restoreLock force =>
    cases begun
    exact .unchanged arbiter rfl
  | idleStart force maxWait =>
    cases begun
    exact .unchanged arbiter rfl
  | tick =>
    cases begun
    exact .unchanged arbiter rfl
  | holdLock =>
    cases begun
    exact .unchanged arbiter rfl
  | makeRoom request slot maxWait =>
    cases begun
    exact .unchanged arbiter rfl
  | _ => cases begun

/-- A cancelled task switches nothing and closes its image job. -/
structure Abandoned (arbiter : GpuArbiter) (pc : Pc) (after : GpuArbiter) :
    Prop where
  kept : Unswitched arbiter after
  frame : Frame arbiter after
  jobs : JobTurn arbiter pc.job (after, none)

theorem abandoned_of_abandon {after : GpuArbiter}
    (left : arbiter.abandon pc = some after) :
    Abandoned arbiter pc after := by
  simp only [abandon, ite_none_left_eq_some] at left
  obtain ⟨-, left⟩ := left
  have switched : ∀ middle,
      (if pc.holds && pc.ensureCall.isSome then arbiter.leaveSwitch
        else arbiter) = middle →
      Unswitched arbiter middle ∧ Frame arbiter middle ∧
        SameJobs arbiter middle := by
    rintro middle rfl
    split_ifs
    · exact ⟨⟨rfl, rfl, rfl, rfl⟩, ⟨rfl, List.Subset.refl _, rfl, rfl⟩,
        ⟨rfl, rfl⟩⟩
    · exact ⟨.refl _, .refl _, .refl _⟩
  generalize middle : (if pc.holds && pc.ensureCall.isSome then
    arbiter.leaveSwitch else arbiter) = between at left
  obtain ⟨kept, frame, jobs⟩ := switched between middle
  split at left
  · cases left
    exact ⟨⟨kept.state, kept.file, kept.slots, kept.unloaded⟩,
      ⟨frame.now, frame.leases, frame.nextLease, frame.nextJob⟩,
      .kept ⟨jobs.count, jobs.jobs⟩ rfl⟩
  · rename_i held
    cases left
    refine ⟨⟨kept.state, kept.file, kept.slots, kept.unloaded⟩,
      ⟨frame.now, frame.leases, frame.nextLease, frame.nextJob⟩,
      .closed held ?_ ?_ rfl⟩
    · show between.imageJobs - 1 = arbiter.imageJobs - 1
      rw [jobs.count]
    · show between.openJobs.erase _ = arbiter.openJobs.erase _
      rw [jobs.jobs]
  · rename_i held
    cases left
    exact ⟨kept, frame, .kept jobs held.symm⟩

/-- Time, other clients and the dispatcher leave mode and saved set alone. -/
structure Occurred (arbiter after : GpuArbiter) : Prop where
  mode : after.state.mode = arbiter.state.mode
  saved : after.state.savedLlmSlots = arbiter.state.savedLlmSlots
  unloaded : after.unloaded = arbiter.unloaded
  jobs : SameJobs arbiter after
  nextJob : after.nextJob = arbiter.nextJob
  now : arbiter.now ≤ after.now
  leases : after.demandLeases ⊆ arbiter.demandLeases
  nextLease : after.nextLease = arbiter.nextLease

theorem Occurred.of_aside
    (aside : Aside arbiter turn) : Occurred arbiter turn.1 where
  mode := by rw [aside.kept.state]
  saved := by rw [aside.kept.state]
  unloaded := aside.kept.unloaded
  jobs := aside.jobs
  nextJob := aside.frame.nextJob
  now := Nat.le_of_eq aside.frame.now.symm
  leases := aside.frame.leases
  nextLease := aside.frame.nextLease

theorem Occurred.trans (left : Occurred first second)
    (right : Occurred second third) :
    Occurred first third where
  mode := right.mode.trans left.mode
  saved := right.saved.trans left.saved
  unloaded := right.unloaded.trans left.unloaded
  jobs := left.jobs.trans right.jobs
  nextJob := right.nextJob.trans left.nextJob
  now := Nat.le_trans left.now right.now
  leases := List.Subset.trans right.leases left.leases
  nextLease := right.nextLease.trans left.nextLease

theorem setSlot_occurred (arbiter : GpuArbiter) (slot : String)
    (status : SlotStatus) :
    Occurred arbiter (arbiter.setSlot slot status) :=
  ⟨rfl, rfl, rfl, ⟨rfl, rfl⟩, rfl, Nat.le_refl _, List.Subset.refl _, rfl⟩

theorem guardDispatch_aside (arbiter : GpuArbiter) (slot : String)
    (toml : Option SlotConfig) :
    Aside arbiter ((arbiter.guardDispatch slot toml).1, none) := by
  have looked := slotGroup_aside arbiter slot toml
  unfold guardDispatch
  dsimp only
  split_ifs
  · exact looked
  · exact looked
  · exact looked

theorem dispatch_occurred (arbiter : GpuArbiter) (request : RequestId)
    (slot : String) (toml : Option SlotConfig) :
    Occurred arbiter (arbiter.dispatch request slot toml) := by
  have guarded := Occurred.of_aside (guardDispatch_aside arbiter slot toml)
  have released := guarded.trans (Occurred.of_aside
    (releaseDemandLease_aside (arbiter.guardDispatch slot toml).1 request))
  unfold dispatch
  dsimp only
  split
  · exact released
  · exact released.trans (setSlot_occurred _ slot _)

/-- Every event. -/
theorem occur_occurred (arbiter : GpuArbiter) (event : Event) :
    Occurred arbiter (arbiter.occur event) := by
  cases event with
  | elapse duration =>
    exact ⟨rfl, rfl, rfl, ⟨rfl, rfl⟩, rfl, Nat.le_add_right _ _,
      List.Subset.refl _, rfl⟩
  | slotChanges slot status => exact setSlot_occurred arbiter slot status
  | setPin pinned written =>
    simp only [occur, setPin]
    split_ifs
    · exact ⟨rfl, rfl, rfl, ⟨rfl, rfl⟩, rfl, Nat.le_refl _,
        List.Subset.refl _, rfl⟩
    · exact ⟨rfl, rfl, rfl, ⟨rfl, rfl⟩, rfl, Nat.le_refl _,
        List.Subset.refl _, rfl⟩
  | dispatch request slot toml =>
    exact dispatch_occurred arbiter request slot toml
  | releaseDemandLease request =>
    exact .of_aside (releaseDemandLease_aside arbiter request)

theorem startsOutside {started : GpuArbiter}
    (begun : arbiter.start pc = some started) :
    pc.holds = false ∧ pc.readsConfigs = false := by
  unfold start at begun
  split at begun <;> first | exact ⟨rfl, rfl⟩ | cases begun

end GpuArbiter

/--
The arbiter's tasks around the switch lock.  `suspends` says whether
`iter_configs` suspends its caller; that of hal0's slot manager reads the
config files without an await that does.
-/
def program (suspends : Bool) : Program GpuArbiter Pc Reply Event where
  holds := Pc.holds
  acquires := Pc.acquires
  atomic := fun pc => !suspends && pc.readsConfigs
  start := GpuArbiter.start
  resume := GpuArbiter.resume
  abandon := GpuArbiter.abandon
  occur := fun arbiter event => some (arbiter.occur event)
  restart := GpuArbiter.restart
  startsOutside := by
    intro arbiter pc started begun
    obtain ⟨outside, unread⟩ := GpuArbiter.startsOutside begun
    exact ⟨outside, by simp [unread]⟩
  entersByLock := by
    intro arbiter pc reply resumed next turned held
    by_contra neither
    rw [not_or, Bool.not_eq_true, Bool.not_eq_true] at neither
    have aside := GpuArbiter.resume_unswitched turned neither.2 neither.1
    rw [aside.2 next rfl] at held
    cases held

abbrev ArbiterWorld := World GpuArbiter Pc
abbrev ArbiterAction := Action Pc Reply Event

/-! ## The mode inside the lock -/

/-- The mode stays what its task takes it for. -/
theorem expected_protects (suspends : Bool)
    (allowed : ArbiterWorld → ArbiterAction → Prop) :
    Protects (program suspends) allowed (fun _ => True)
      GpuArbiter.Expected where
  start := by
    intro world task pc shared _ _ begun
    refine ⟨trivial, ?_⟩
    intro other _ _ expected mode found
    rw [(GpuArbiter.started_of_start begun).kept.state]
    exact expected mode found
  resume := by
    intro world task pc reply shared next _ _ suspended expected resumed
    refine ⟨trivial, ?_, ?_⟩
    · intro counter awaited held
      exact (GpuArbiter.progress_of_resume resumed expected).expected awaited
    · intro outside unlocked other _ _ kept mode found
      rw [(GpuArbiter.resume_unswitched resumed outside unlocked).1.state]
      exact kept mode found
  cancel := by
    intro world task pc shared _ _ suspended expected abandoned
    refine ⟨trivial, ?_⟩
    intro _ other _ _ kept mode found
    rw [(GpuArbiter.abandoned_of_abandon abandoned).kept.state]
    exact kept mode found
  occur := by
    intro world event shared _ _ occurred
    cases occurred
    refine ⟨trivial, ?_⟩
    intro other _ _ kept mode found
    rw [(GpuArbiter.occur_occurred world.shared event).mode]
    exact kept mode found
  restart := fun _ _ _ => trivial

/-- The lock is kept, and its owner finds the mode it expects. -/
def ModeKnown (suspends : Bool) (world : ArbiterWorld) : Prop :=
  Safe (program suspends) (fun _ => True) GpuArbiter.Expected world

theorem ModeKnown.quiet (suspends : Bool) (arbiter : GpuArbiter) :
    ModeKnown suspends (.quiet arbiter) :=
  Safe.quiet trivial

variable {suspends : Bool} {world : ArbiterWorld}

theorem ModeKnown.step {next : ArbiterWorld} {action : ArbiterAction}
    (known : ModeKnown suspends world)
    (moved : (program suspends).step world action = some next) :
    ModeKnown suspends next :=
  known.moves (expected_protects suspends Anything) trivial
    (Program.moves_of_step moved)

theorem ModeKnown.progress (known : ModeKnown suspends world) {task : TaskId}
    {pc : Pc} {reply : Reply} {turn : Turn}
    (suspended : world.tasks task = some pc)
    (resumed : world.shared.resume pc reply = some turn) :
    world.shared.Progress pc turn :=
  GpuArbiter.progress_of_resume resumed (known.owner task pc suspended)

theorem modeKnown_along {allowed : ArbiterWorld → ArbiterAction → Prop}
    {actions : List ArbiterAction} {source : ArbiterWorld}
    (known : ModeKnown suspends source)
    (run : Run (program suspends).step allowed source actions world) :
    Run (program suspends).step
      (fun state action => allowed state action ∧ ModeKnown suspends state)
      source actions world :=
  run.along (ModeKnown suspends) known fun _ _ _ kept _ moved =>
    kept.step moved

theorem modeKnown_of_run {allowed : ArbiterWorld → ArbiterAction → Prop}
    {actions : List ArbiterAction} {source : ArbiterWorld}
    (known : ModeKnown suspends source)
    (run : Run (program suspends).step allowed source actions world) :
    ModeKnown suspends world :=
  run.invariant (ModeKnown suspends) known fun _ _ _ kept _ moved =>
    kept.step moved

/-! ## A machine with two slots -/

/-- One LLM slot and the image slot, both on the GPU's default device. -/
def chatAndImg : List SlotConfig :=
  [⟨"chat", "", "", "", "llama-server", "chat"⟩,
    ⟨"img", "", "", "", "comfyui", "image"⟩]

/-- A machine with every slot ready. -/
def readyMachine : ArbiterWorld :=
  .quiet (.boot 10000 .missing fun _ => ⟨.ready, false, 0⟩)

/-- An image request switches the GPU, up to the unload of the chat slot. -/
def switchingActions : List ArbiterAction :=
  [.start 0 (.ensureLock ⟨false, some 0⟩), .resume 0 {},
    .resume 0 { configs := some chatAndImg }]

end Hal0.Slots.Arbiter
