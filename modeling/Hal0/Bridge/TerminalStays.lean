import Hal0.Bridge.MirrorSound

/-!
# A run which is over stays as it ended

While a run is over nobody watches it and no task is in a section which
records a request, so the only writers left are those which look at the
status inside their transaction.  What is left in the inbox is nothing: the
end of the run has withdrawn its entry.

This needs the runs which are not raced.  A re-attachment which marks a run
unknown while a watcher follows it is undone by the next request of that
watcher.
-/

namespace Hal0.Bridge

open Hal0.Transition Hal0.Tasks

section Over

variable {world next : MirrorWorld} {task : TaskId} {pc : MirrorPc}
  {after : Mirror} {now : Time}

theorem Mirrored.not_watcher (mirrored : Mirrored world)
    (isOver : world.shared.row.isLive = false)
    (at_ : world.tasks task = some pc) : pc.isWatcher = false := by
  cases isWatcher : pc.isWatcher with
  | false => rfl
  | true =>
    have live := mirrored.live (by
      rw [mirrored.claimed task pc at_ isWatcher]
      rfl)
    rw [isOver] at live
    cases live

/-- A run which is over has no entry. -/
theorem Mirrored.pendingEntries_of_over (mirrored : Mirrored world)
    (isOver : world.shared.row.isLive = false) :
    world.shared.inbox.pendingEntries = [] := by
  have dead : world.shared.row.isLive ≠ true := by simp [isOver]
  by_cases sectionFree : MirrorWorld.SectionFree world
  · rw [List.eq_nil_iff_forall_not_mem]
    intro entry mem
    exact dead (mirrored.cover sectionFree entry mem).1
  · unfold MirrorWorld.SectionFree at sectionFree
    push Not at sectionFree
    obtain ⟨task, pc, at_, inside⟩ := sectionFree
    have knows := mirrored.knows task pc at_
    cases pc with
    | retiring frame id => exact absurd knows.1 dead
    | recording frame => exact absurd knows.1 dead
    | filing pending watches => exact absurd knows.1 dead
    | storing requestId id watches => exact absurd knows.1 dead
    | retiringEnd ending tail watches id => exact absurd knows.1 dead
    | writingEnd ending tail watches => exact knows
    | _ => exact absurd rfl inside

variable {mirror : Mirror}

theorem row_of_locking {its : MirrorPc} {next : Option MirrorPc}
    (locked : mirror.locking task its = some (after, next)) :
    after.row = mirror.row := by
  unfold Mirror.locking at locked
  split at locked <;> cases locked
  rfl

/-- No turn changes a row which is over. -/
theorem Mirrored.row_of_turn {its : Option MirrorPc}
    (mirrored : Mirrored world) (isOver : world.shared.row.isLive = false)
    (at_ : world.tasks task = some pc)
    (turned : world.shared.turn task pc now = some (after, its)) :
    after.row = world.shared.row := by
  cases pc with
  | recording frame => cases mirrored.not_watcher isOver at_
  | requesting frame => exact row_of_locking turned
  | ending ending tail watches => exact row_of_locking turned
  | filing pending watches =>
    simp only [Mirror.turn] at turned
    split at turned <;> cases turned <;> rfl
  | storing requestId id watches =>
    simp only [Mirror.turn, writeLive_of_over isOver] at turned
    cases turned
    rfl
  | writingEnd ending tail watches =>
    simp only [Mirror.turn, writeLive_of_over isOver] at turned
    cases turned
    rfl
  | answering id requestId generation =>
    simp only [Mirror.turn, isOver] at turned
    split at turned <;> cases turned
    rfl
  | settling requestId =>
    simp only [Mirror.turn, writeLive_of_over isOver] at turned
    split at turned <;> cases turned
    rfl
  | refiling requestId =>
    simp only [Mirror.turn, isOver, Bool.not_false, Bool.true_or, if_true]
      at turned
    split at turned
    · split at turned <;> cases turned
      rfl
    · split at turned <;> cases turned
      rfl
  | stopping reported =>
    simp only [Mirror.turn, writeLive_of_over isOver] at turned
    split at turned <;> cases turned
    rfl
  | attaching row => cases mirrored.not_watcher isOver at_
  | retiring frame id =>
    cases turned
    rfl
  | withdrawing id watches =>
    cases turned
    rfl
  | retiringEnd ending tail watches id =>
    cases turned
    rfl
  | reattaching =>
    cases turned
    rfl
  | _ => cases turned

/-- No step of a task does. -/
theorem Mirrored.row_of_resume {reply : MirrorReply} {its : Option MirrorPc}
    (mirrored : Mirrored world) (isOver : world.shared.row.isLive = false)
    (at_ : world.tasks task = some pc)
    (resumed : world.shared.resume task pc reply = some (after, its)) :
    after.row = world.shared.row := by
  have unwatched : pc ≠ .watching := by
    rintro rfl
    cases mirrored.not_watcher isOver at_
  cases reply with
  | turn now => exact mirrored.row_of_turn isOver at_ resumed
  | posted outcome =>
    simp only [Mirror.resume] at resumed
    split at resumed <;> cases resumed <;> rfl
  | probed known =>
    simp only [Mirror.resume] at resumed
    split at resumed
    · split at resumed
      · cases resumed
        rfl
      · split at resumed <;> cases resumed <;> rfl
    · cases resumed
  | flush tail now =>
    simp only [Mirror.resume] at resumed
    split at resumed
    · exact absurd rfl unwatched
    · cases resumed
  | frame frame now =>
    simp only [Mirror.resume] at resumed
    cases resumed
  | ends ending tail =>
    simp only [Mirror.resume] at resumed
    cases resumed

/-- No new task does. -/
theorem row_of_start (started : mirror.start task pc = some after) :
    after.row = mirror.row := by
  cases pc with
  | watching =>
    simp only [Mirror.start] at started
    split at started <;> cases started
    rfl
  | answering id requestId generation =>
    simp only [Mirror.start] at started
    split at started <;> cases started
    rfl
  | stopping reported =>
    cases started
    rfl
  | reattaching =>
    cases started
    rfl
  | _ => cases started

theorem row_of_occur {event : MirrorEvent} (isOver : mirror.row.isLive = false)
    (occurred : mirror.occur event = some after) :
    after.row = mirror.row := by
  cases event <;>
    simp only [Mirror.occur, writeLive_of_over isOver] at occurred <;>
    split at occurred <;> cases occurred <;> rfl

theorem Mirrored.row_of_step {action : MirrorAction}
    (mirrored : Mirrored world) (isOver : world.shared.row.isLive = false)
    (moved : mirrorStep world action = some next) :
    next.shared.row = world.shared.row := by
  cases action with
  | restart =>
    cases moved
    rfl
  | task action =>
    cases Program.moves_of_step moved with
    | start unused started => exact row_of_start started
    | resume suspended resumed =>
      exact mirrored.row_of_resume isOver suspended resumed
    | cancel suspended cancelled => cases cancelled
    | occur occurred => exact row_of_occur isOver occurred

end Over

theorem mirrored_of_run {row : RunRow} {world : MirrorWorld}
    {actions : List MirrorAction} (quiet : row.pending = none)
    (reached : Run mirrorStep Unraced (.quiet (.admitted row)) actions
      world) : Mirrored world :=
  reached.invariant Mirrored (mirrored_admitted quiet)
    fun _ _ _ mirrored unraced moved =>
      mirrored_of_step mirrored unraced moved

/--
Once a run is over, nothing which happens later changes its status, its
output, its error or its request, and nothing of it is pending in the inbox.
-/
theorem terminal_run_stays {row : RunRow} (quiet : row.pending = none)
    {world later : MirrorWorld} {actions more : List MirrorAction}
    (reached : Run mirrorStep Unraced (.quiet (.admitted row)) actions world)
    (isOver : world.shared.row.status.isTerminal = true)
    (goesOn : Run mirrorStep Unraced world more later) :
    later.shared.row.status = world.shared.row.status ∧
      later.shared.row.output = world.shared.row.output ∧
      later.shared.row.error = world.shared.row.error ∧
      later.shared.row.pending = world.shared.row.pending ∧
      later.shared.inbox.pendingEntries = [] := by
  have mirrored := mirrored_of_run quiet reached
  have dead : world.shared.row.isLive = false := by
    simp [RunRow.isLive, isOver]
  have kept : Mirrored later ∧ later.shared.row = world.shared.row := by
    refine goesOn.invariant
      (fun state => Mirrored state ∧ state.shared.row = world.shared.row)
      ⟨mirrored, rfl⟩ ?_
    rintro middle action target ⟨held, same⟩ unraced moved
    refine ⟨mirrored_of_step held unraced moved, ?_⟩
    exact (held.row_of_step (same ▸ dead) moved).trans same
  obtain ⟨held, same⟩ := kept
  rw [same]
  exact ⟨rfl, rfl, rfl, rfl, held.pendingEntries_of_over (same ▸ dead)⟩

/-! ## One run, raced and not -/

/-- A run which Hermes has started. -/
def startedRow : RunRow where
  runId := "r1"
  client := "claude"
  agent := "hermes"
  profile := "default"
  sessionKey := none
  status := .running
  createdAt := 0
  updatedAt := 0
  inputPreview := "task"
  output := none
  error := none
  usage := none
  admissionId := none
  executionGeneration := some 1
  pending := none
  lastSeq := 0

/-- A request for an approval. -/
def approvalRequest : Frame where
  seq := 1
  event := "approval.request"
  requestId := some "q1"

/--
A second re-attachment marks the run unknown while it is watched, and the
next request of the watcher brings it back.
-/
theorem marked_run_revived :
    ∃ actions world more later,
      Run mirrorStep Anything (.quiet (.admitted startedRow)) actions world ∧
      world.shared.row.status = .unknown ∧
      Run mirrorStep Anything world more later ∧
      later.shared.row.status = .waitingForApproval ∧
      later.shared.inbox.pendingEntries ≠ [] := by
  refine ⟨[.task (.start 0 .watching), .task (.start 1 .reattaching),
      .task (.resume 1 (.turn 1)), .task (.resume 1 (.probed false)),
      .task (.resume 1 (.turn 2)), .task (.resume 1 (.turn 3))], _,
    [.task (.resume 0 (.frame approvalRequest 4)),
      .task (.resume 0 (.turn 5)), .task (.resume 0 (.turn 6)),
      .task (.resume 0 (.turn 7))], _,
    .cons trivial rfl <| .cons trivial rfl <| .cons trivial rfl <|
      .cons trivial rfl <| .cons trivial rfl <| .cons trivial rfl <|
      .nil _, rfl,
    .cons trivial rfl <| .cons trivial rfl <| .cons trivial rfl <|
      .cons trivial rfl <| .nil _, rfl, ?_⟩
  exact nofun

theorem completed_isTerminal : RunStatus.completed.isTerminal = true := rfl

/-- The run completes. -/
def completion : Ending where
  status := .completed
  terminal := completed_isTerminal
  output := some "done"

/--
The same request, and the run completes while the operator has not decided;
a stop which comes later changes nothing.
-/
theorem completed_run_stays :
    ∃ actions world more later,
      Run mirrorStep Unraced (.quiet (.admitted startedRow)) actions world ∧
      world.shared.row.status = .completed ∧
      Run mirrorStep Unraced world more later ∧
      later.shared.row.status = .completed ∧
      later.shared.inbox.pendingEntries = [] := by
  have ends : ∃ world,
      Run mirrorStep Unraced (.quiet (.admitted startedRow))
        [.task (.start 0 .watching),
          .task (.resume 0 (.frame approvalRequest 1)),
          .task (.resume 0 (.turn 2)), .task (.resume 0 (.turn 3)),
          .task (.resume 0 (.turn 4)), .task (.resume 0 (.turn 5)),
          .task (.resume 0 (.ends completion (.of startedRow))),
          .task (.resume 0 (.turn 6)), .task (.resume 0 (.turn 7)),
          .task (.resume 0 (.turn 8))] world ∧
      world.shared.row.status = .completed ∧
      ∃ later, Run mirrorStep Unraced world
        [.task (.start 1 (.stopping none)), .task (.resume 1 (.turn 9))]
        later := by
    refine ⟨_,
      .cons ⟨rfl, rfl⟩ rfl <| .cons (fun _ at_ => ?_) rfl <|
        .cons (fun _ at_ => ?_) rfl <| .cons (fun _ at_ => ?_) rfl <|
        .cons (fun _ at_ => ?_) rfl <| .cons (fun _ at_ => ?_) rfl <|
        .cons (fun _ at_ => ?_) rfl <| .cons (fun _ at_ => ?_) rfl <|
        .cons (fun _ at_ => ?_) rfl <| .cons (fun _ at_ => ?_) rfl <|
        .nil _, rfl, _,
      .cons trivial rfl <| .cons (fun _ at_ => ?_) rfl <| .nil _⟩ <;>
      cases at_
    · trivial
    · exact nofun
    · trivial
    · trivial
    · trivial
    · trivial
    · rintro entry _ ⟨task, watches, at_⟩
      by_cases isWatcher : task = 0
      · subst isWatcher
        cases at_
      · simp [World.put, World.quiet, isWatcher] at at_
    · trivial
    · trivial
    · trivial
  obtain ⟨world, reached, completed, later, goesOn⟩ := ends
  obtain ⟨status, _, _, _, empty⟩ := terminal_run_stays rfl reached
    (by rw [completed]; rfl) goesOn
  exact ⟨_, world, _, later, reached, completed, goesOn,
    status.trans completed, empty⟩

end Hal0.Bridge
