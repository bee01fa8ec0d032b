import Hal0.Core.Tickets
import Hal0.Slots.ArbiterProgram

/-!
# Image mode outlasts the image jobs it was switched for

`_image_jobs` counts the open image jobs in every run, and the locked body of
a restore is entered by force or at a moment when the counter is zero.  So a
render keeps its image mode until its job closes, as long as nobody forces a
restore and no other switch fails and rolls back.
-/

namespace Hal0.Slots.Arbiter

open Function
open Hal0.Transition Hal0.Monitor Hal0.Tickets

/-! ## The counter of open jobs -/

theorem GpuArbiter.JobTurn.mem_of_mem {arbiter : GpuArbiter}
    {held : Option JobId} {turn : Turn} {job : JobId}
    (taken : GpuArbiter.JobTurn arbiter held turn)
    (still : job ∈ turn.1.openJobs) : job ∈ arbiter.openJobs := by
  cases taken with
  | kept same goesOn =>
    rw [same.jobs] at still
    exact still
  | closed mine count jobs ended =>
    rw [jobs] at still
    exact List.mem_of_mem_erase still

/-- The job that a task works for. -/
def jobOf (world : ArbiterWorld) (task : TaskId) : Option JobId :=
  (world.tasks task).bind Pc.job

/-- The counter, the open jobs and the requests inside them agree. -/
def Booked (world : ArbiterWorld) : Prop :=
  Ledger world.shared.imageJobs world.shared.openJobs world.shared.nextJob
    (jobOf world)

namespace Booked

variable {suspends : Bool} {world next : ArbiterWorld}

section

variable (booked : Booked world)
include booked

theorem congr (count : next.shared.imageJobs = world.shared.imageJobs)
    (jobs : next.shared.openJobs = world.shared.openJobs)
    (issued : next.shared.nextJob = world.shared.nextJob)
    (held : jobOf next = jobOf world) : Booked next := by
  unfold Booked
  rw [count, jobs, issued, held]
  exact booked

theorem put {task : TaskId} {pc : Pc} {shared : GpuArbiter} {after : Option Pc}
    (suspended : world.tasks task = some pc)
    (jobs : GpuArbiter.JobTurn world.shared pc.job (shared, after))
    (issued : shared.nextJob = world.shared.nextJob) :
    Booked ((program suspends).put world task pc shared after) := by
  have mine : jobOf world task = pc.job := by simp [jobOf, suspended]
  have held : jobOf ((program suspends).put world task pc shared after) =
      update (jobOf world) task (after.bind Pc.job) :=
    Function.comp_update (fun counter => Option.bind counter Pc.job)
      world.tasks task after
  cases jobs with
  | kept same goesOn =>
    refine booked.congr same.count same.jobs issued ?_
    rw [held, show after.bind Pc.job = pc.job from goesOn, ← mine,
      update_eq_self]
  | closed has count jobs ended =>
    obtain rfl : after = none := ended
    unfold Booked
    rw [held, Program.put_shared, issued,
      show shared.imageJobs = _ from count,
      show shared.openJobs = _ from jobs]
    exact booked.giveBack (mine.trans has)

theorem start {task : TaskId} {pc : Pc} {shared : GpuArbiter}
    (unused : world.tasks task = none)
    (started : GpuArbiter.Started world.shared pc shared) :
    Booked
      { world with
        shared := shared
        tasks := update world.tasks task (some pc) } := by
  have mine : jobOf world task = none := by simp [jobOf, unused]
  have held : jobOf
      { world with
        shared := shared
        tasks := update world.tasks task (some pc) } =
      update (jobOf world) task pc.job :=
    Function.comp_update (fun counter => Option.bind counter Pc.job)
      world.tasks task (some pc)
  rcases started.jobs with ⟨jobless, same, issued⟩ |
    ⟨opened, count, jobs, issued⟩
  · refine booked.congr same.count same.jobs issued ?_
    rw [held, jobless, ← mine, update_eq_self]
  · unfold Booked
    rw [held, opened, show shared.imageJobs = _ from count,
      show shared.openJobs = _ from jobs,
      show shared.nextJob = _ from issued]
    exact booked.issue task

theorem step (known : ModeKnown suspends world) {action : ArbiterAction}
    (moved : (program suspends).step world action = some next) :
    Booked next := by
  cases Program.moves_of_step moved with
  | start unused started settled =>
    exact booked.start unused (GpuArbiter.started_of_start started)
  | resume suspended scheduled free resumed =>
    obtain ⟨jobs, issued⟩ := (known.progress suspended resumed).jobs
    exact booked.put suspended jobs issued
  | cancel suspended settled abandoned =>
    have left := GpuArbiter.abandoned_of_abandon abandoned
    exact booked.put suspended left.jobs left.frame.nextJob
  | @occur event shared settled occurred =>
    cases occurred
    have kept := GpuArbiter.occur_occurred world.shared event
    exact booked.congr kept.jobs.count kept.jobs.jobs kept.nextJob rfl
  | restart => exact Ledger.empty

theorem none_open
    (idle : world.shared.imageJobs = 0) : world.shared.openJobs = [] := by
  rw [← List.length_eq_zero_iff, ← booked.counted]
  exact idle

end

end Booked

/-! ## Who ends image mode -/

/--
The step by which a forced restore, or the rollback of a failed switch, ends
image mode.
-/
def endsByForceOrRollback (world : ArbiterWorld) : ArbiterAction → Bool
  | .resume task reply =>
    match world.tasks task with
    | none => false
    | some pc =>
      (pc.ensureCall.isSome || pc.restoreCall.any RestoreCall.forced) &&
        (world.shared.state.mode == .img) &&
        (world.shared.resume pc reply).any fun turn =>
          turn.1.state.mode == .llm
  | _ => false

/-- No job is ended by force or rollback. -/
def Spared (world : ArbiterWorld) (action : ArbiterAction) : Prop :=
  endsByForceOrRollback world action = false

instance (world : ArbiterWorld) (action : ArbiterAction) :
    Decidable (Spared world action) :=
  inferInstanceAs (Decidable (endsByForceOrRollback world action = false))

variable {world : ArbiterWorld}

theorem Spared.unforced {task : TaskId} {pc : Pc} {reply : Reply} {turn : Turn}
    (spared : Spared world (.resume task reply))
    (suspended : world.tasks task = some pc)
    (resumed : world.shared.resume pc reply = some turn)
    (before : world.shared.state.mode = .img)
    (after : turn.1.state.mode = .llm) :
    pc.ensureCall = none ∧
      ∀ call, pc.restoreCall = some call → call.forced = false := by
  simp only [Spared, endsByForceOrRollback, suspended, resumed, before,
    Option.any_some, after, beq_self_eq_true, Bool.and_true,
    Bool.or_eq_false_iff] at spared
  refine ⟨by simpa using spared.1, ?_⟩
  intro call inside
  simpa [inside] using spared.2

/-- While the job is open, the mode is image mode. -/
def KeepsMode (job : JobId) (arbiter : GpuArbiter) : Prop :=
  job < arbiter.nextJob ∧
    (job ∈ arbiter.openJobs → arbiter.state.mode = .img)

/-- While the job is open, only a forced restore is under way. -/
def OnlyForced (job : JobId) (arbiter : GpuArbiter) (pc : Pc) : Prop :=
  job ∈ arbiter.openJobs → ∀ call, pc.restoreCall = some call →
    call.forced = true

theorem Pc.holds_of_restoreCall {pc : Pc} {call : RestoreCall}
    (inside : pc.restoreCall = some call) : pc.holds = true := by
  cases held : pc.holds with
  | true => rfl
  | false =>
    rw [Pc.restoreCall_of_outside held] at inside
    cases inside

/-- Image mode stays while the job runs. -/
theorem keepsMode_protects (suspends : Bool) (job : JobId) :
    Protects (program suspends)
      (fun world action => Spared world action ∧
        ModeKnown suspends world ∧ Booked world)
      (KeepsMode job) (OnlyForced job) where
  start := by
    intro world task pc shared ⟨issued, kept⟩ _ begun
    have started := GpuArbiter.started_of_start begun
    have earlier : job ∈ shared.openJobs → job ∈ world.shared.openJobs := by
      intro still
      rcases started.jobs with ⟨-, same, -⟩ | ⟨-, -, jobs, -⟩
      · rw [same.jobs] at still
        exact still
      · rw [jobs, List.mem_cons] at still
        rcases still with rfl | old
        · exact absurd issued (Nat.lt_irrefl _)
        · exact old
    refine ⟨⟨?_, ?_⟩, ?_⟩
    · rcases started.jobs with ⟨-, -, same⟩ | ⟨-, -, -, next⟩
      · rw [same]
        exact issued
      · rw [next]
        exact Nat.lt_succ_of_lt issued
    · intro still
      rw [started.kept.state]
      exact kept (earlier still)
    · intro other _ _ forced still
      exact forced (earlier still)
  resume := by
    intro world task pc reply shared next ⟨issued, kept⟩
      ⟨spared, known, booked⟩ suspended forced resumed
    have progress := known.progress suspended resumed
    obtain ⟨jobs, same⟩ := progress.jobs
    have earlier : job ∈ shared.openJobs → job ∈ world.shared.openJobs :=
      jobs.mem_of_mem
    refine ⟨⟨?_, ?_⟩, ?_, ?_⟩
    · rw [show shared.nextJob = _ from same]
      exact issued
    · intro still
      have image := kept (earlier still)
      cases mode : shared.state.mode with
      | img => rfl
      | llm =>
        obtain ⟨outside, unforced⟩ :=
          spared.unforced suspended resumed image mode
        cases progress with
        | ensure inside outsideBody held taken =>
          rw [outside] at inside
          cases inside
        | restore apart jobless taken =>
          rcases taken.kept with same | body
          · rw [show shared.state = _ from same.state, image] at mode
            cases mode
          · obtain ⟨call, inside⟩ := Option.isSome_iff_exists.mp body
            have wasForced := forced (Pc.holds_of_restoreCall inside)
              (earlier still) call inside
            rw [unforced call inside] at wasForced
            cases wasForced
        | rendered rendering closed =>
          cases closed
          exact absurd mode (by
            rw [show (world.shared.closeJob _).state.mode = _ from image]
            decide)
        | woken waited left =>
          cases left
          rw [(GpuArbiter.wakeWaiter_unswitched world.shared _ _).state,
            image] at mode
          cases mode
    · intro counter awaited _ still call inside
      cases progress with
      | ensure within outsideBody held taken =>
        rw [taken.outsideBody counter awaited] at inside
        cases inside
      | restore apart jobless taken =>
        rcases taken.enters counter call awaited inside with
          same | ⟨-, wasForced | idle⟩
        · exact forced (Pc.holds_of_restoreCall same) (earlier still) call
            same
        · exact wasForced
        · have open_ := earlier still
          rw [booked.none_open idle] at open_
          cases open_
      | rendered rendering closed =>
        cases closed
        cases awaited
      | woken waited left =>
        cases left
        cases awaited
    · intro _ _ other _ _ otherForced still
      exact otherForced (earlier still)
  cancel := by
    intro world task pc shared ⟨issued, kept⟩ _ suspended forced abandoned
    have left := GpuArbiter.abandoned_of_abandon abandoned
    have earlier : job ∈ shared.openJobs → job ∈ world.shared.openJobs :=
      left.jobs.mem_of_mem
    refine ⟨⟨?_, ?_⟩, ?_⟩
    · rw [left.frame.nextJob]
      exact issued
    · intro still
      rw [left.kept.state]
      exact kept (earlier still)
    · intro _ other _ _ otherForced still
      exact otherForced (earlier still)
  occur := by
    intro world event shared ⟨issued, kept⟩ _ occurred
    cases occurred
    have unchanged := GpuArbiter.occur_occurred world.shared event
    have earlier : job ∈ (world.shared.occur event).openJobs →
        job ∈ world.shared.openJobs := by
      intro still
      rw [unchanged.jobs.jobs] at still
      exact still
    refine ⟨⟨?_, ?_⟩, ?_⟩
    · rw [unchanged.nextJob]
      exact issued
    · intro still
      rw [unchanged.mode]
      exact kept (earlier still)
    · intro other _ _ otherForced still
      exact otherForced (earlier still)
  restart := by
    intro world ⟨issued, kept⟩ _
    refine ⟨issued, ?_⟩
    intro still
    cases still

/-! ## Runs -/

variable {suspends : Bool}

theorem booked_along {allowed : ArbiterWorld → ArbiterAction → Prop}
    {actions : List ArbiterAction} {source : ArbiterWorld}
    (known : ModeKnown suspends source) (booked : Booked source)
    (run : Run (program suspends).step allowed source actions world) :
    Run (program suspends).step
      (fun state action => allowed state action ∧
        ModeKnown suspends state ∧ Booked state)
      source actions world :=
  run.along (fun state => ModeKnown suspends state ∧ Booked state)
    ⟨known, booked⟩ fun _ _ _ kept _ moved =>
      ⟨kept.1.step moved, kept.2.step kept.1 moved⟩

theorem booked_of_run {allowed : ArbiterWorld → ArbiterAction → Prop}
    {actions : List ArbiterAction} {source : ArbiterWorld}
    (known : ModeKnown suspends source) (booked : Booked source)
    (run : Run (program suspends).step allowed source actions world) :
    ModeKnown suspends world ∧ Booked world :=
  run.invariant (fun state => ModeKnown suspends state ∧ Booked state)
    ⟨known, booked⟩ fun _ _ _ kept _ moved =>
      ⟨kept.1.step moved, kept.2.step kept.1 moved⟩

theorem Pc.locks_of_ensureCall {pc : Pc} {call : EnsureCall}
    (inside : pc.ensureCall = some call) :
    pc.acquires = true ∨ pc.holds = true := by
  cases pc with
  | ensureLock other => exact Or.inl rfl
  | _ => first | exact Or.inr rfl | cases inside

/-- A successful return from `ensure_img` leaves image mode and no owner. -/
theorem keepsMode_of_return {switched : ArbiterWorld} {task : TaskId}
    {job : JobId} {reply : Reply} (known : ModeKnown suspends world)
    (booked : Booked world)
    (moved : (program suspends).step world (.resume task reply) =
      some switched)
    (returned : switched.tasks task = some (.rendering job true)) :
    Safe (program suspends) (KeepsMode job) (OnlyForced job) switched := by
  have after := known.step moved
  have books := booked.step known moved
  have issued : job < switched.shared.nextJob :=
    books.below job (books.inside task job (by simp [jobOf, returned, Pc.job]))
  cases Program.moves_of_step moved with
  | @resume task pc reply shared next suspended scheduled free resumed =>
    have awaited : next = some (.rendering job true) := by
      simpa [Program.put_tasks] using returned
    cases known.progress suspended resumed with
    | ensure inside outsideBody held taken =>
      refine ⟨after.orderly, ⟨issued, fun _ => ?_⟩, ?_⟩
      · exact taken.expects _ .img awaited rfl
      · intro other otherPc otherSuspended otherHolds
        exfalso
        rw [Program.put_tasks, update_apply] at otherSuspended
        split_ifs at otherSuspended with same
        · rw [awaited] at otherSuspended
          cases otherSuspended
          cases otherHolds
        · obtain ⟨outside, unlocked⟩ := known.orderly.apart same
            suspended free otherSuspended otherHolds
          rcases Pc.locks_of_ensureCall inside with waits | holds
          · rw [show pc.acquires = false from unlocked] at waits
            cases waits
          · rw [show pc.holds = false from outside] at holds
            cases holds
    | restore outside jobless taken =>
      have none := taken.jobless _ awaited
      cases none
    | rendered rendering closed =>
      cases closed
      cases awaited
    | woken waited left =>
      cases left
      cases awaited

theorem none_open_of_entry {next : ArbiterWorld} {action : ArbiterAction}
    {task : TaskId} {pc : Pc} {call : RestoreCall}
    (known : ModeKnown suspends world) (booked : Booked world)
    (moved : (program suspends).step world action = some next)
    (suspended : next.tasks task = some pc)
    (inside : pc.restoreCall = some call) (unforced : call.forced = false)
    (outside : ∀ previous, world.tasks task = some previous →
      previous.restoreCall = none) :
    world.shared.openJobs = [] := by
  have unmoved (was : world.tasks task = some pc) : False := by
    rw [outside pc was] at inside
    cases inside
  cases Program.moves_of_step moved with
  | @start starter first shared unused started settled =>
    simp only [update_apply] at suspended
    split_ifs at suspended
    · cases suspended
      rw [Pc.restoreCall_of_outside
        ((program suspends).startsOutside _ _ _ started).1] at inside
      cases inside
    · exact (unmoved suspended).elim
  | @resume mover previous reply shared after was scheduled free resumed =>
    rw [Program.put_tasks, update_apply] at suspended
    split_ifs at suspended with same
    · subst same
      cases known.progress was resumed with
      | ensure within outsideBody held taken =>
        rw [taken.outsideBody pc suspended] at inside
        cases inside
      | restore apart jobless taken =>
        rcases taken.enters pc call suspended inside with
          body | ⟨-, wasForced | idle⟩
        · rw [outside previous was] at body
          cases body
        · rw [unforced] at wasForced
          cases wasForced
        · exact booked.none_open idle
      | rendered rendering closed =>
        cases closed
        cases suspended
      | woken waited left =>
        cases left
        cases suspended
    · exact (unmoved suspended).elim
  | @cancel mover previous shared was settled abandoned =>
    rw [Program.put_tasks, update_apply] at suspended
    split_ifs at suspended
    exact (unmoved suspended).elim
  | occur settled occurred => exact (unmoved suspended).elim
  | restart => cases suspended

/--
Once an image request inside its `image_job` has returned from `ensure_img`,
the mode stays image mode until the job closes, unless a forced restore or the
rollback of a failed switch ends it.  A restore nobody forced enters its
locked body only while no image job is open.
-/
theorem img_mode_kept_for_open_job (suspends : Bool) (restoreGrace : Nat)
    (file : StateFile) (slots : String → SlotStatus)
    {before : List ArbiterAction} {world : ArbiterWorld}
    (reached : Run (program suspends).step Anything
      (.quiet (.boot restoreGrace file slots)) before world) :
    (∀ (task : TaskId) (job : JobId) (reply : Reply)
      (switched final : ArbiterWorld) (actions : List ArbiterAction),
      (program suspends).step world (.resume task reply) = some switched →
      switched.tasks task = some (.rendering job true) →
      Run (program suspends).step Spared switched actions final →
      job ∈ final.shared.openJobs →
        final.shared.state.mode = .img) ∧
    (∀ (action : ArbiterAction) (next : ArbiterWorld) (task : TaskId)
      (pc : Pc) (call : RestoreCall),
      (program suspends).step world action = some next →
      next.tasks task = some pc → pc.restoreCall = some call →
      call.forced = false →
      (∀ previous, world.tasks task = some previous →
        previous.restoreCall = none) →
        world.shared.openJobs = []) := by
  have start : Booked (.quiet (.boot restoreGrace file slots)) :=
    Ledger.empty
  obtain ⟨known, booked⟩ :=
    booked_of_run (ModeKnown.quiet suspends _) start reached
  constructor
  · intro task job reply switched final actions moved returned later still
    have safe := keepsMode_of_return known booked moved returned
    have kept := safe.run (keepsMode_protects suspends job)
      (booked_along (known.step moved) (booked.step known moved) later)
    exact kept.state.2 still
  · intro action next task pc call moved suspended inside unforced outside
    exact none_open_of_entry known booked moved suspended inside unforced
      outside

/--
A render is under way while `restore_llm` is refused; once it is over, the
restore goes ahead.
-/
theorem img_mode_kept_for_open_job_render :
    (∃ final : ArbiterWorld, 0 ∈ final.shared.openJobs ∧
      final.shared.state.mode = .img) ∧
    (∃ world next : ArbiterWorld,
      (program true).step world
        (.resume 1 { configs := some chatAndImg }) = some next ∧
      next.tasks 1 = some (.restoreConfigs (.restoreLlm false)) ∧
      world.shared.openJobs = []) := by
  constructor
  · obtain ⟨world, reached, tested⟩ := Run.exists_of_exec
      (program true).step Anything readyMachine switchingActions
      (fun world => ((program true).step world (.resume 0 {})).any
        fun switched =>
          (switched.tasks 0 == some (.rendering 0 true)) &&
            (exec (program true).step Spared switched
              [.start 1 (.restoreLock false), .resume 1 {}]).any
                fun final => final.shared.openJobs.contains 0)
      (by decide +kernel)
    obtain ⟨switched, moved, tested⟩ := (Option.any_eq_true _ _).mp tested
    simp only [Bool.and_eq_true, beq_iff_eq] at tested
    obtain ⟨final, evaluated, still⟩ :=
      (Option.any_eq_true _ _).mp tested.2
    have open_ : 0 ∈ final.shared.openJobs := List.contains_iff_mem.mp still
    exact ⟨final, open_, (img_mode_kept_for_open_job true 10000 .missing _
      reached).1 0 0 {} switched final _ moved tested.1
        (.of_exec evaluated) open_⟩
  · obtain ⟨world, reached, tested⟩ := Run.exists_of_exec
      (program true).step Anything readyMachine
      (switchingActions ++ [.resume 0 {}, .resume 0 {},
        .start 1 (.restoreLock false), .resume 1 {}])
      (fun world => (world.tasks 1 == some .restoreWork) &&
        ((program true).step world
          (.resume 1 { configs := some chatAndImg })).any fun next =>
            next.tasks 1 == some (.restoreConfigs (.restoreLlm false)))
      (by decide +kernel)
    simp only [Bool.and_eq_true, beq_iff_eq] at tested
    obtain ⟨outside, entered⟩ := tested
    obtain ⟨next, moved, inside⟩ := (Option.any_eq_true _ _).mp entered
    have inside := beq_iff_eq.mp inside
    refine ⟨world, next, moved, inside,
      (img_mode_kept_for_open_job true 10000 .missing _ reached).2 _ next 1
        _ _ moved inside rfl rfl ?_⟩
    intro previous was
    rw [outside] at was
    cases was
    rfl

end Hal0.Slots.Arbiter
