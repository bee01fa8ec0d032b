import Hal0.Mcp.ApprovalDecisions

/-!
# Every decision comes to an end

`deny` and `withdraw` resolve the entry in the section under the lock.
`approve` leaves it approved over two awaits, the fan-out of the event and
the executor, and only the call itself writes the outcome.  As long as no
approve call is cancelled there, an approved entry has a call which runs it,
and a resolved entry has let go of its callables.
-/

namespace Hal0.Mcp

open Function Option
open Hal0.Transition Hal0.Tasks

/-! ## The calls which run an entry -/

/-- The approved row that the task works on. -/
def Pc.runs : Pc → Option ApprovalId
  | .approveEmitting id _ => some id
  | .executing id => some id
  | _ => none

/-- The row has let go of its callables. -/
def ApprovalEntry.Released (entry : ApprovalEntry) : Prop :=
  entry.executor = none ∧ entry.onDeny = none

/-- Approved entries are run, and resolved ones released. -/
structure Attended (objects : ApprovalId → Option ApprovalEntry)
    (tasks : TaskId → Option Pc) : Prop where
  approved : ∀ id entry, objects id = some entry →
    entry.state = .approved → ∃ task pc, tasks task = some pc ∧
      pc.runs = some id
  released : ∀ id entry, objects id = some entry →
    entry.state.isResolved = true → entry.Released
  executing : ∀ task id entry, tasks task = some (.executing id) →
    objects id = some entry → entry.Released

namespace Attended

variable {objects : ApprovalId → Option ApprovalEntry}
  {tasks : TaskId → Option Pc} {task : TaskId} {pc : Pc} {next : Option Pc}
  {id : ApprovalId} {change : ApprovalEntry → ApprovalEntry}

section

variable (attended : Attended objects tasks)
include attended

theorem runner (suspended : tasks task = some pc) {entry : ApprovalEntry}
    (found : objects id = some entry) (approved : entry.state = .approved)
    (elsewhere : pc.runs ≠ some id) :
    ∃ other counter, update tasks task next other = some counter ∧
      counter.runs = some id := by
  rcases attended.approved id entry found approved with
    ⟨other, counter, runs, same⟩
  refine ⟨other, counter, ?_, same⟩
  rw [update_of_ne, runs]
  rintro rfl
  rw [suspended, some.injEq] at runs
  exact elsewhere (runs ▸ same)

theorem idle (suspended : tasks task = some pc) (idle : pc.runs = none)
    (nothing : ∀ other, next ≠ some (.executing other)) :
    Attended objects (update tasks task next) where
  approved := by
    intro other entry found approved
    exact attended.runner suspended found approved (by simp [idle])
  released := attended.released
  executing := by
    intro other found entry runs present
    by_cases same : other = task
    · rw [same, update_self] at runs
      exact absurd runs (nothing found)
    · rw [update_of_ne same] at runs
      exact attended.executing other found entry runs present

theorem write (suspended : tasks task = some pc)
    (own : ∀ other, pc.runs = some other → other = id)
    (approves : ∀ entry, objects id = some entry →
      (change entry).state = .approved →
        (∃ counter, next = some counter ∧ counter.runs = some id) ∨
          entry.state = .approved ∧ pc.runs = none)
    (resolves : ∀ entry, objects id = some entry →
      (change entry).state.isResolved = true → (change entry).Released)
    (keeps : ∀ entry, objects id = some entry → entry.Released →
      (change entry).Released)
    (calls : ∀ other, next = some (.executing other) → other = id ∧
      ∀ entry, objects id = some entry → (change entry).Released) :
    Attended (update objects id ((objects id).map change))
      (update tasks task next) where
  approved := by
    intro other entry found approved
    by_cases same : other = id
    · subst same
      rw [update_self, map_eq_some_iff] at found
      rcases found with ⟨before, present, rfl⟩
      rcases approves before present approved with
        ⟨counter, rfl, runs⟩ | ⟨was, idle⟩
      · exact ⟨task, counter, update_self .., runs⟩
      · exact attended.runner suspended present was (by simp [idle])
    · rw [update_of_ne same] at found
      apply attended.runner suspended found approved
      intro runs
      exact same (own other runs)
  released := by
    intro other entry found resolved
    by_cases same : other = id
    · subst same
      rw [update_self, map_eq_some_iff] at found
      rcases found with ⟨before, present, rfl⟩
      exact resolves before present resolved
    · rw [update_of_ne same] at found
      exact attended.released other entry found resolved
  executing := by
    intro other found entry runs present
    by_cases same : found = id
    · subst same
      rw [update_self, map_eq_some_iff] at present
      rcases present with ⟨before, was, rfl⟩
      by_cases isTask : other = task
      · rw [isTask, update_self] at runs
        exact (calls found runs).2 before was
      · rw [update_of_ne isTask] at runs
        exact keeps before was (attended.executing other found before runs was)
    · rw [update_of_ne same] at present
      by_cases isTask : other = task
      · rw [isTask, update_self] at runs
        exact absurd (calls found runs).1 same
      · rw [update_of_ne isTask] at runs
        exact attended.executing other found entry runs present

theorem create (suspended : tasks task = some pc) (idle : pc.runs = none)
    (nothing : ∀ other, next ≠ some (.executing other))
    (unrun : ∀ other, tasks other ≠ some (.executing id))
    {entry : ApprovalEntry} (pending : entry.state = .pending) :
    Attended (update objects id (some entry))
      (update tasks task next) where
  approved := by
    intro other found present approved
    by_cases same : other = id
    · rw [same, update_self, some.injEq] at present
      rw [← present, pending] at approved
      cases approved
    · rw [update_of_ne same] at present
      exact attended.runner suspended present approved (by simp [idle])
  released := by
    intro other found present resolved
    by_cases same : other = id
    · rw [same, update_self, some.injEq] at present
      rw [← present, pending] at resolved
      cases resolved
    · rw [update_of_ne same] at present
      exact attended.released other found present resolved
  executing := by
    intro other found _ runs present
    by_cases isTask : other = task
    · rw [isTask, update_self] at runs
      exact absurd runs (nothing found)
    · rw [update_of_ne isTask] at runs
      rw [update_of_ne] at present
      · exact attended.executing other found _ runs present
      · rintro rfl
        exact unrun other runs

end

end Attended

section Turns

variable {python : Python} {inbox after : Inbox} {tasks : TaskId → Option Pc}
  {task : TaskId} {next : Option Pc} {id : ApprovalId}

variable {pc : Pc} {change : ApprovalEntry → ApprovalEntry}

section

variable (attended : Attended inbox.queue.objects tasks)
include attended

/-- A task that runs nothing settles a row. -/
theorem Attended.resolve {counter : Pc} (suspended : tasks task = some pc)
    (idle : pc.runs = none)
    (resolves : ∀ entry, (change entry).state.isResolved = true)
    (releases : ∀ entry, (change entry).Released)
    (quiet : counter.runs = none) :
    Attended (inbox.queue.write id change).objects
      (update tasks task (some counter)) := by
  apply attended.write suspended
  · intro other runs
    rw [idle] at runs
    cases runs
  · intro entry present approved
    have resolved := resolves entry
    rw [approved] at resolved
    cases resolved
  · intro entry _ _
    exact releases entry
  · intro entry _ _
    exact releases entry
  · intro other same
    obtain rfl := some.inj same
    cases quiet

/-- A row is approved and its executor taken. -/
theorem Attended.approve {now : Time} {executor : Option Callable}
    (suspended : tasks task = some pc) (idle : pc.runs = none) :
    Attended
      (inbox.queue.write id fun entry =>
        { entry with state := .approved, decidedAt := some now }).objects
      (update tasks task (some (.approveEmitting id executor))) := by
  apply attended.write suspended
  · intro other runs
    rw [idle] at runs
    cases runs
  · intro entry _ _
    exact .inl ⟨_, rfl, rfl⟩
  · intro entry _ resolved
    cases resolved
  · intro entry _ released
    exact released
  · intro other same
    cases same

/-- The row lets go, and the executor runs. -/
theorem Attended.call {executor : Option Callable}
    (suspended : tasks task = some (.approveEmitting id executor)) :
    Attended (inbox.queue.write id ApprovalEntry.release).objects
      (update tasks task (some (.executing id))) := by
  apply attended.write suspended
  · intro other runs
    exact (some.inj runs).symm
  · intro entry _ _
    exact .inl ⟨_, rfl, rfl⟩
  · intro entry _ _
    exact ⟨rfl, rfl⟩
  · intro entry _ _
    exact ⟨rfl, rfl⟩
  · intro other same
    cases same
    exact ⟨rfl, fun _ _ => ⟨rfl, rfl⟩⟩

/-- The row is settled by the task that runs it. -/
theorem Attended.conclude (suspended : tasks task = some pc)
    (runs : pc.runs = some id)
    (resolves : ∀ entry, (change entry).state.isResolved = true)
    (releases : ∀ entry, inbox.queue.objects id = some entry →
      (change entry).Released) :
    Attended (inbox.queue.write id change).objects
      (update tasks task (some (.resolvedEmitting id))) := by
  apply attended.write suspended
  · intro other same
    rw [runs] at same
    exact (some.inj same).symm
  · intro entry _ approved
    have resolved := resolves entry
    rw [approved] at resolved
    cases resolved
  · intro entry present _
    exact releases entry present
  · intro entry present _
    exact releases entry present
  · intro other same
    cases same

/-- A note which leaves the state alone. -/
theorem Attended.annotate (suspended : tasks task = some pc)
    (idle : pc.runs = none)
    (stays : ∀ entry, (change entry).state = entry.state)
    (keeps : ∀ entry, entry.Released → (change entry).Released) :
    Attended (inbox.queue.write id change).objects
      (update tasks task none) := by
  apply attended.write suspended
  · intro other runs
    rw [idle] at runs
    cases runs
  · intro entry _ approved
    exact .inr ⟨stays entry ▸ approved, idle⟩
  · intro entry present resolved
    rw [stays] at resolved
    exact keeps entry (attended.released id entry present resolved)
  · intro entry _ released
    exact keeps entry released
  · intro other same
    cases same

end

/-- The queue section of `enqueue`, for a call which runs no entry. -/
theorem Attended.enqueue {request : Request} {now : Time}
    (valid : Valid python inbox)
    (entitled : ∀ other pc, tasks other = some pc →
      Entitled inbox other pc) (attended : Attended inbox.queue.objects tasks)
    (suspended : tasks task = some pc) (idle : pc.runs = none)
    (nothing : ∀ other, next ≠ some (.executing other)) :
    Attended (inbox.queue.enqueue python request now).1.objects
      (update tasks task next) := by
  rcases enqueue_eq valid.sound request now with
    ⟨existing, entry, found, pending, -, joins⟩ | ⟨-, creates⟩
  · rw [joins]
    apply attended.write suspended
    · intro other runs
      rw [idle] at runs
      cases runs
    · intro before present approved
      rw [found] at present
      obtain rfl := some.inj present
      simp only [ApprovalEntry.hit, pending] at approved
      cases approved
    · intro before present resolved
      rw [found] at present
      obtain rfl := some.inj present
      simp only [ApprovalEntry.hit, pending] at resolved
      cases resolved
    · intro before _ released
      exact released
    · intro other same
      exact absurd same (nothing other)
  · rw [creates]
    apply attended.create suspended idle nothing
    · intro other runs
      have decided := entitled other _ runs
      rw [Entitled, valid.recorded.created _ valid.sound.unminted] at decided
      cases decided
    · rfl

/-! ## A resumed task, by where it is suspended -/

section
variable {reply : Reply} (attended : Attended inbox.queue.objects tasks)
include attended

theorem Attended.resume_approveEntering
    (suspended : tasks task = some (.approveEntering id))
    (resumed : Mcp.resume python inbox task (.approveEntering id) reply =
      some (after, next)) :
    Attended after.queue.objects (update tasks task next) := by
  cases reply with
  | turn now =>
    simp only [Mcp.resume, ApprovalQueue.approve] at resumed
    cases asked : inbox.queue.undecided id with
    | error refusal =>
      simp only [asked, Except.map] at resumed
      cases resumed
      exact attended.idle suspended rfl (by simp)
    | ok entry =>
      simp only [asked, Except.map] at resumed
      cases resumed
      exact attended.approve suspended rfl
  | returned value => cases resumed
  | raised error => cases resumed

theorem Attended.resume_approveEmitting {executor : Option Callable}
    (suspended : tasks task = some (.approveEmitting id executor))
    (resumed : Mcp.resume python inbox task (.approveEmitting id executor)
      reply = some (after, next)) :
    Attended after.queue.objects (update tasks task next) := by
  cases reply with
  | turn now =>
    cases executor with
    | none =>
      cases resumed
      rw [ApprovalQueue.write_write]
      exact attended.conclude suspended rfl (fun _ => rfl)
        fun _ _ => ⟨rfl, rfl⟩
    | some executor =>
      obtain ⟨entry, -, same⟩ := map_eq_some_iff.1 resumed
      cases same
      exact attended.call suspended
  | returned value => cases executor <;> cases resumed
  | raised error => cases executor <;> cases resumed

theorem Attended.resume_executing
    (suspended : tasks task = some (.executing id))
    (resumed : Mcp.resume python inbox task (.executing id) reply =
      some (after, next)) :
    Attended after.queue.objects (update tasks task next) := by
  cases reply with
  | turn now => cases resumed
  | returned value =>
    cases resumed
    exact attended.conclude suspended rfl (fun _ => rfl)
      fun entry present => attended.executing task id entry suspended
        present
  | raised error =>
    cases resumed
    exact attended.conclude suspended rfl (fun _ => rfl)
      fun entry present => attended.executing task id entry suspended
        present

theorem Attended.resume_denyEntering
    (suspended : tasks task = some (.denyEntering id))
    (resumed : Mcp.resume python inbox task (.denyEntering id) reply =
      some (after, next)) :
    Attended after.queue.objects (update tasks task next) := by
  cases reply with
  | turn now =>
    simp only [Mcp.resume, ApprovalQueue.deny] at resumed
    cases asked : inbox.queue.undecided id with
    | error refusal =>
      simp only [asked, Except.map] at resumed
      cases resumed
      exact attended.idle suspended rfl (by simp)
    | ok entry =>
      simp only [asked, Except.map] at resumed
      cases resumed
      exact attended.resolve suspended rfl (fun _ => rfl)
        (fun _ => ⟨rfl, rfl⟩) rfl
  | returned value => cases resumed
  | raised error => cases resumed

theorem Attended.resume_denyEmitting {hook : Option Callable}
    (suspended : tasks task = some (.denyEmitting id hook))
    (resumed : Mcp.resume python inbox task (.denyEmitting id hook) reply =
      some (after, next)) :
    Attended after.queue.objects (update tasks task next) := by
  cases reply with
  | turn now =>
    cases hook with
    | none =>
      cases resumed
      exact attended.idle suspended rfl (by simp)
    | some hook =>
      obtain ⟨entry, -, same⟩ := map_eq_some_iff.1 resumed
      cases same
      exact attended.idle suspended rfl (by simp)
  | returned value => cases hook <;> cases resumed
  | raised error => cases hook <;> cases resumed

theorem Attended.resume_denying
    (suspended : tasks task = some (.denying id))
    (resumed : Mcp.resume python inbox task (.denying id) reply =
      some (after, next)) :
    Attended after.queue.objects (update tasks task next) := by
  cases reply with
  | turn now => cases resumed
  | returned value =>
    cases resumed
    exact attended.annotate suspended rfl (fun _ => rfl)
      fun _ released => released
  | raised error =>
    cases resumed
    exact attended.annotate suspended rfl (fun _ => rfl)
      fun _ released => released

theorem Attended.resume_withdrawEntering {reason : String}
    (suspended : tasks task = some (.withdrawEntering id reason))
    (resumed : Mcp.resume python inbox task (.withdrawEntering id reason)
      reply = some (after, next)) :
    Attended after.queue.objects (update tasks task next) := by
  cases reply with
  | turn now =>
    simp only [Mcp.resume, ApprovalQueue.withdraw] at resumed
    cases asked : inbox.queue.undecided id with
    | error refusal =>
      simp only [asked, Except.toOption, map_none] at resumed
      cases resumed
      exact attended.idle suspended rfl (by simp)
    | ok entry =>
      simp only [asked, Except.toOption, map_some] at resumed
      cases resumed
      exact attended.resolve suspended rfl (fun _ => rfl)
        (fun _ => ⟨rfl, rfl⟩) rfl
  | returned value => cases resumed
  | raised error => cases resumed

end

/-- Every step of a task. -/
theorem Attended.resume {reply : Reply} (valid : Valid python inbox)
    (entitled : ∀ other pc, tasks other = some pc →
      Entitled inbox other pc) (attended : Attended inbox.queue.objects tasks)
    (suspended : tasks task = some pc)
    (resumed : Mcp.resume python inbox task pc reply = some (after, next)) :
    Attended after.queue.objects (update tasks task next) := by
  cases pc with
  | enqueueEntering request =>
    cases reply with
    | turn now =>
      cases resumed
      apply attended.enqueue valid entitled suspended rfl
      intro other
      split <;> simp
    | returned value => cases resumed
    | raised error => cases resumed
  | enqueueEmitting id =>
    cases reply with
    | turn now =>
      cases resumed
      exact attended.idle suspended rfl (by simp)
    | returned value => cases resumed
    | raised error => cases resumed
  | approveEntering id =>
    exact attended.resume_approveEntering suspended resumed
  | approveEmitting id executor =>
    exact attended.resume_approveEmitting suspended resumed
  | executing id =>
    exact attended.resume_executing suspended resumed
  | denyEntering id =>
    exact attended.resume_denyEntering suspended resumed
  | denyEmitting id hook =>
    exact attended.resume_denyEmitting suspended resumed
  | denying id =>
    exact attended.resume_denying suspended resumed
  | withdrawEntering id reason =>
    exact attended.resume_withdrawEntering suspended resumed
  | resolvedEmitting id =>
    cases reply with
    | turn now =>
      cases resumed
      exact attended.idle suspended rfl (by simp)
    | returned value => cases resumed
    | raised error => cases resumed

end Turns

/-! ## Runs in which no approval is cut off -/

/-- No task at an approved row is cancelled. -/
def Uncut (world : InboxWorld) : InboxAction → Prop
  | .cancel task => (world.tasks task).bind Pc.runs = none
  | _ => True

instance (world : InboxWorld) (action : InboxAction) :
    Decidable (Uncut world action) :=
  match action with
  | .cancel task =>
    inferInstanceAs (Decidable ((world.tasks task).bind Pc.runs = none))
  | .start _ _ | .resume _ _ | .occur _ => inferInstanceAs (Decidable True)

/-- Attended all along, with what the calls rely on. -/
structure Accounted (python : Python) (world : InboxWorld) : Prop where
  safe : Safe (Valid python) Entitled world
  attended : Attended world.shared.queue.objects world.tasks

/-- Every uncut step. -/
theorem Accounted.step {python : Python} {world next : InboxWorld}
    {action : InboxAction} (accounted : Accounted python world)
    (uncut : Uncut world action)
    (moved : (calls python).step world action = some next) :
    Accounted python next := by
  refine ⟨accounted.safe.moves (calls_keep python Anything) trivial
    (Program.moves_of_step moved), ?_⟩
  have attended := accounted.attended
  cases Program.moves_of_step moved with
  | @start task pc shared unused started =>
    obtain ⟨entry, same⟩ := ite_none_right_eq_some.1 started
    obtain rfl := some.inj same
    refine ⟨?_, attended.released, ?_⟩
    · intro id found present approved
      rcases attended.approved id found present approved with
        ⟨other, counter, runs, isRunner⟩
      refine ⟨other, counter, ?_, isRunner⟩
      rw [World.put_tasks, if_neg, runs]
      rintro rfl
      rw [unused] at runs
      cases runs
    · intro other id found runs present
      rw [World.put_tasks] at runs
      split_ifs at runs
      · obtain rfl := some.inj runs
        cases entry
      · exact attended.executing other id found runs present
  | @cancel task pc shared suspended cancelled =>
    obtain rfl := some.inj cancelled
    have idle : pc.runs = none := by
      simpa [Uncut, suspended] using uncut
    exact attended.idle suspended idle (by simp)
  | @resume task pc reply shared after suspended resumed =>
    exact attended.resume accounted.safe.state accounted.safe.task suspended
      resumed
  | @occur event => exact event.elim

/-- The entry is decided for good: released, and open to pruning. -/
structure Settled (queue : ApprovalQueue) (id : ApprovalId)
    (entry : ApprovalEntry) : Prop where
  resolved : entry.state.isResolved = true
  released : entry.Released
  prunable : id ∈ queue.entries → id ∈ queue.oldestFirst

/--
No approval is half-decided: an approved entry has a call which runs it, and
an entry is settled once the call which decided on it runs it no more.
-/
structure NothingHalfDecided (world : InboxWorld) : Prop where
  running : ∀ id entry, world.shared.queue.objects id = some entry →
    entry.state = .approved → ∃ task pc, world.tasks task = some pc ∧
      pc.runs = some id
  settled : ∀ id entry task decision,
    world.shared.queue.objects id = some entry →
    (task, decision) ∈ decisions world.shared.log id →
    (world.tasks task).bind Pc.runs ≠ some id →
      Settled world.shared.queue id entry

/-- Who runs a row has approved it. -/
theorem decided_of_runs {inbox : Inbox} {task : TaskId} {pc : Pc}
    {id : ApprovalId} (entitled : Entitled inbox task pc)
    (runs : pc.runs = some id) :
    decisions inbox.log id = [(task, .approve)] := by
  cases pc with
  | approveEmitting own executor =>
    obtain rfl := some.inj runs
    exact entitled.1
  | executing own =>
    obtain rfl := some.inj runs
    exact entitled
  | enqueueEntering request => cases runs
  | enqueueEmitting own => cases runs
  | approveEntering own => cases runs
  | denyEntering own => cases runs
  | denyEmitting own hook => cases runs
  | denying own => cases runs
  | withdrawEntering own reason => cases runs
  | resolvedEmitting own => cases runs

/-- No approved row is left behind. -/
theorem Accounted.nothingHalfDecided {python : Python} {world : InboxWorld}
    (accounted : Accounted python world) : NothingHalfDecided world where
  running := accounted.attended.approved
  settled := by
    intro id entry task decision found decided ended
    have resolved : entry.state.isResolved = true := by
      cases state : entry.state with
      | pending =>
        rw [(accounted.safe.state.recorded.undecided id entry found).mp
          state] at decided
        cases decided
      | approved =>
        rcases accounted.attended.approved id entry found state with
          ⟨runner, pc, suspended, runs⟩
        have own := decided_of_runs
          (accounted.safe.task runner pc suspended) runs
        rw [own, List.mem_singleton, Prod.mk.injEq] at decided
        obtain ⟨rfl, -⟩ := decided
        exact absurd (by rw [suspended]; exact runs) ended
      | denied => rfl
      | executed => rfl
      | failed => rfl
    refine ⟨resolved, accounted.attended.released id entry found resolved, ?_⟩
    intro listed
    rw [ApprovalQueue.mem_oldestFirst]
    refine ⟨listed, ?_⟩
    simp [ApprovalQueue.resolved, found, resolved]

/--
In every run in which no approve call is cancelled between its decision and
its outcome, no approval is half-decided.
-/
theorem settled_of_uncut (python : Python) {actions : List InboxAction}
    {world : InboxWorld}
    (run : Run (calls python).step Uncut (World.quiet Inbox.empty) actions
      world) : NothingHalfDecided world := by
  have accounted := run.invariant (Accounted python)
    ⟨.quiet (.empty _), ⟨by simp [World.quiet, Inbox.empty,
      ApprovalQueue.empty], by simp [World.quiet, Inbox.empty,
      ApprovalQueue.empty], by simp [World.quiet]⟩⟩
    fun _ _ _ holds permitted moved => holds.step permitted moved
  exact accounted.nothingHalfDecided

/-- A call of `model_pull` is asked for. -/
def pullAsked : List InboxAction :=
  [.start 0 (.enqueueEntering
      { tool := "model_pull"
        args := [("model_id", .str "qwen3")]
        clientId := "agent"
        executor := 7
        onDeny := some 8 }),
    .resume 0 (.turn 1), .resume 0 (.turn 1)]

/-- A second approve call is cancelled while it waits for the lock. -/
def approvedOnce : List InboxAction :=
  pullAsked ++
    [.start 1 (.approveEntering 0), .start 2 (.approveEntering 0),
      .resume 1 (.turn 2), .cancel 2, .resume 1 (.turn 3),
      .resume 1 (.raised "TimeoutError: pull"), .resume 1 (.turn 4)]

/-- A row is queued, approved and executed. -/
theorem settled_approved_once :
    ∃ world : InboxWorld,
      Run (calls plainPython).step Uncut (World.quiet Inbox.empty)
          approvedOnce world ∧
        NothingHalfDecided world ∧
        ((world.shared.queue.objects 0).map ApprovalEntry.state) =
          some .failed := by
  obtain ⟨world, run, passed⟩ :=
    Run.exists_of_exec (calls plainPython).step Uncut
      (World.quiet Inbox.empty) approvedOnce
      (fun world : InboxWorld =>
        ((world.shared.queue.objects 0).map ApprovalEntry.state) =
          some .failed)
      (by decide +kernel)
  exact ⟨world, run, settled_of_uncut plainPython run, by simpa using passed⟩

/-- A task cut after it approved. -/
def cutWhileEmitting : List InboxAction :=
  pullAsked ++
    [.start 1 (.approveEntering 0), .resume 1 (.turn 2), .cancel 1]

/-- The owner's browser goes away while the model is pulled. -/
def cutWhileExecuting : List InboxAction :=
  pullAsked ++
    [.start 1 (.approveEntering 0), .resume 1 (.turn 2), .resume 1 (.turn 3),
      .cancel 1]

/--
The entry stays approved with no call left; in the first run it keeps its
callables too.
-/
theorem cut_approval_half_decided :
    (∃ world : InboxWorld,
      Run (calls plainPython).step Anything (World.quiet Inbox.empty)
          cutWhileEmitting world ∧
        ¬ NothingHalfDecided world ∧ world.tasks 1 = none ∧
        ((world.shared.queue.objects 0).map fun entry =>
          (entry.state, entry.executor)) = some (.approved, some 7)) ∧
      ∃ world : InboxWorld,
        Run (calls plainPython).step Anything (World.quiet Inbox.empty)
            cutWhileExecuting world ∧
          ¬ NothingHalfDecided world ∧ world.tasks 1 = none ∧
          ((world.shared.queue.objects 0).map ApprovalEntry.state) =
            some .approved := by
  have refute : ∀ world : InboxWorld,
      decisions world.shared.log 0 = [(1, .approve)] →
      world.tasks 1 = none →
      (world.shared.queue.objects 0).map ApprovalEntry.state =
        some .approved → ¬ NothingHalfDecided world := by
    intro world decided ended approved whole
    rcases map_eq_some_iff.mp approved with ⟨entry, found, state⟩
    have settled := whole.settled 0 entry 1 .approve found
      (by rw [decided]; exact List.mem_singleton.mpr rfl) (by simp [ended])
    have resolved := settled.resolved
    rw [state] at resolved
    cases resolved
  constructor
  · obtain ⟨world, run, passed⟩ :=
      Run.exists_of_exec (calls plainPython).step Anything
        (World.quiet Inbox.empty) cutWhileEmitting
        (fun world : InboxWorld =>
          (decisions world.shared.log 0 = [(1, .approve)]) &&
          (world.tasks 1).isNone &&
          ((world.shared.queue.objects 0).map fun entry =>
            (entry.state, entry.executor)) = some (.approved, some 7))
        (by decide +kernel)
    simp only [Bool.and_eq_true, decide_eq_true_eq,
      isNone_iff_eq_none] at passed
    rcases passed with ⟨⟨decided, ended⟩, shown⟩
    refine ⟨world, run, refute world decided ended ?_, ended, shown⟩
    rcases map_eq_some_iff.mp shown with ⟨entry, found, state⟩
    rw [found, map_some, (Prod.mk.inj state).1]
  · obtain ⟨world, run, passed⟩ :=
      Run.exists_of_exec (calls plainPython).step Anything
        (World.quiet Inbox.empty) cutWhileExecuting
        (fun world : InboxWorld =>
          (decisions world.shared.log 0 = [(1, .approve)]) &&
          (world.tasks 1).isNone &&
          ((world.shared.queue.objects 0).map ApprovalEntry.state) =
            some .approved)
        (by decide +kernel)
    simp only [Bool.and_eq_true, decide_eq_true_eq,
      isNone_iff_eq_none] at passed
    rcases passed with ⟨⟨decided, ended⟩, shown⟩
    exact ⟨world, run, refute world decided ended shown, ended, shown⟩

end Hal0.Mcp
