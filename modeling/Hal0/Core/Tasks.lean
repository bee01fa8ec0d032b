import Hal0.Core.Transition
import Mathlib.Logic.Function.Basic

/-!
# Tasks which share a state

The tasks of one event loop, or of several processes, act on a shared state.
A task is known by the counter at which it is suspended; `resume` runs it
from there to its next suspension or to its end.  Unlike `Hal0.Core.Monitor`
no lock is singled out: the shared state holds whatever locks the program
has, and a task which waits for one has no resumption until it is free.

`Keeps` is the proof rule.  A predicate of the shared state, and a predicate
of every suspended task and its counter, are kept by every run, if the task
which moves keeps both and disturbs no other task.
-/

namespace Hal0.Tasks

open Hal0.Transition

abbrev TaskId := Nat

/-- The tasks of a program.  Every function is told which task it runs for. -/
structure Program (Shared Pc Reply Event : Type) where
  start : Shared → TaskId → Pc → Option Shared
  resume : Shared → TaskId → Pc → Reply → Option (Shared × Option Pc)
  cancel : Shared → TaskId → Pc → Option Shared
  occur : Shared → Event → Option Shared

/-- A shared state and the tasks that run over it. -/
structure World (Shared Pc : Type) where
  shared : Shared
  tasks : TaskId → Option Pc

/-- A step of one task, or an event beside them. -/
inductive Action (Pc Reply Event : Type) where
  | start (task : TaskId) (pc : Pc)
  | resume (task : TaskId) (reply : Reply)
  | cancel (task : TaskId)
  | occur (event : Event)

variable {Shared Pc Reply Event : Type}

/-- The task which an action is for. -/
def Action.task : Action Pc Reply Event → Option TaskId
  | .start task _ | .resume task _ | .cancel task => some task
  | .occur _ => none

/-- No task runs. -/
def World.quiet (shared : Shared) : World Shared Pc :=
  ⟨shared, fun _ => none⟩

/-- `task` is now at `next`, or has ended. -/
def World.put (world : World Shared Pc) (task : TaskId) (shared : Shared)
    (next : Option Pc) : World Shared Pc :=
  ⟨shared, Function.update world.tasks task next⟩

@[simp]
theorem World.put_shared (world : World Shared Pc) (task : TaskId)
    (shared : Shared) (next : Option Pc) :
    (world.put task shared next).shared = shared := rfl

theorem World.put_tasks (world : World Shared Pc) (task other : TaskId)
    (shared : Shared) (next : Option Pc) :
    (world.put task shared next).tasks other =
      if other = task then next else world.tasks other := by
  simp [World.put, Function.update_apply]

namespace Program

variable (program : Program Shared Pc Reply Event)

/-- One turn. -/
def step : StepFunction (World Shared Pc) (Action Pc Reply Event)
  | world, .start task pc =>
    match world.tasks task with
    | some _ => none
    | none =>
      (program.start world.shared task pc).map fun shared =>
        world.put task shared (some pc)
  | world, .resume task reply =>
    match world.tasks task with
    | none => none
    | some pc =>
      (program.resume world.shared task pc reply).map fun turn =>
        world.put task turn.1 turn.2
  | world, .cancel task =>
    match world.tasks task with
    | none => none
    | some pc =>
      (program.cancel world.shared task pc).map fun shared =>
        world.put task shared none
  | world, .occur event =>
    (program.occur world.shared event).map fun shared =>
      { world with shared := shared }

/-- What one turn can do. -/
inductive Moves (world : World Shared Pc) :
    Action Pc Reply Event → World Shared Pc → Prop where
  | start {task : TaskId} {pc : Pc} {shared : Shared}
      (unused : world.tasks task = none)
      (started : program.start world.shared task pc = some shared) :
      Moves world (.start task pc) (world.put task shared (some pc))
  | resume {task : TaskId} {pc : Pc} {reply : Reply} {shared : Shared}
      {next : Option Pc}
      (suspended : world.tasks task = some pc)
      (resumed : program.resume world.shared task pc reply =
        some (shared, next)) :
      Moves world (.resume task reply) (world.put task shared next)
  | cancel {task : TaskId} {pc : Pc} {shared : Shared}
      (suspended : world.tasks task = some pc)
      (cancelled : program.cancel world.shared task pc = some shared) :
      Moves world (.cancel task) (world.put task shared none)
  | occur {event : Event} {shared : Shared}
      (occurred : program.occur world.shared event = some shared) :
      Moves world (.occur event) { world with shared := shared }

variable {program}

variable {world next : World Shared Pc}

/-- What one step can do. -/
theorem moves_of_step {action : Action Pc Reply Event}
    (moved : program.step world action = some next) :
    program.Moves world action next := by
  cases action with
  | start task pc =>
    cases present : world.tasks task with
    | some other => simp [step, present] at moved
    | none =>
      simp only [step, present, Option.map_eq_some_iff] at moved
      obtain ⟨shared, started, rfl⟩ := moved
      exact .start present started
  | resume task reply =>
    cases suspended : world.tasks task with
    | none => simp [step, suspended] at moved
    | some pc =>
      simp only [step, suspended, Option.map_eq_some_iff] at moved
      obtain ⟨turn, resumed, rfl⟩ := moved
      exact .resume suspended resumed
  | cancel task =>
    cases suspended : world.tasks task with
    | none => simp [step, suspended] at moved
    | some pc =>
      simp only [step, suspended, Option.map_eq_some_iff] at moved
      obtain ⟨shared, cancelled, rfl⟩ := moved
      exact .cancel suspended cancelled
  | occur event =>
    simp only [step, Option.map_eq_some_iff] at moved
    obtain ⟨shared, occurred, rfl⟩ := moved
    exact .occur occurred

/-- A step moves one task at most. -/
theorem Moves.tasks_eq {action : Action Pc Reply Event} {task : TaskId}
    (moves : program.Moves world action next)
    (other : action.task ≠ some task) :
    next.tasks task = world.tasks task := by
  cases moves with
  | start unused started =>
    rw [World.put_tasks, if_neg]
    rintro rfl
    exact other rfl
  | resume suspended resumed =>
    rw [World.put_tasks, if_neg]
    rintro rfl
    exact other rfl
  | cancel suspended cancelled =>
    rw [World.put_tasks, if_neg]
    rintro rfl
    exact other rfl
  | occur occurred => rfl

theorem tasks_eq_of_run
    {allowed : World Shared Pc → Action Pc Reply Event → Prop}
    {actions : List (Action Pc Reply Event)} {task : TaskId}
    (run : Run program.step allowed world actions next)
    (others : ∀ action ∈ actions, action.task ≠ some task) :
    next.tasks task = world.tasks task := by
  induction run with
  | nil => rfl
  | snoc prior permitted moved reached =>
    rw [(moves_of_step moved).tasks_eq (others _ (by simp))]
    exact reached fun action listed => others action (by simp [listed])

end Program

/-! ## The proof rule -/

/-- The other tasks keep what they rely on when the state changes. -/
def Undisturbed (mine : Shared → TaskId → Pc → Prop)
    (world : World Shared Pc) (task : TaskId) (after : Shared) : Prop :=
  ∀ other pc, other ≠ task → world.tasks other = some pc →
    mine world.shared other pc → mine after other pc

/-- Every turn keeps `good`, and `mine` for every task. -/
structure Keeps (program : Program Shared Pc Reply Event)
    (allowed : World Shared Pc → Action Pc Reply Event → Prop)
    (good : Shared → Prop) (mine : Shared → TaskId → Pc → Prop) : Prop where
  start : ∀ world task pc shared, good world.shared →
    allowed world (.start task pc) → world.tasks task = none →
    program.start world.shared task pc = some shared →
      good shared ∧ mine shared task pc ∧
        Undisturbed mine world task shared
  resume : ∀ world task pc reply shared next, good world.shared →
    allowed world (.resume task reply) → world.tasks task = some pc →
    mine world.shared task pc →
    program.resume world.shared task pc reply = some (shared, next) →
      good shared ∧ (∀ counter, next = some counter →
        mine shared task counter) ∧ Undisturbed mine world task shared
  cancel : ∀ world task pc shared, good world.shared →
    allowed world (.cancel task) → world.tasks task = some pc →
    mine world.shared task pc →
    program.cancel world.shared task pc = some shared →
      good shared ∧ Undisturbed mine world task shared
  occur : ∀ world event shared, good world.shared →
    allowed world (.occur event) →
    program.occur world.shared event = some shared →
      good shared ∧ ∀ other pc, world.tasks other = some pc →
        mine world.shared other pc → mine shared other pc

/-- The state is good, and every task finds what it relies on. -/
structure Safe (good : Shared → Prop) (mine : Shared → TaskId → Pc → Prop)
    (world : World Shared Pc) : Prop where
  state : good world.shared
  task : ∀ task pc, world.tasks task = some pc → mine world.shared task pc

namespace Safe

variable {program : Program Shared Pc Reply Event}
  {allowed : World Shared Pc → Action Pc Reply Event → Prop}
  {good : Shared → Prop} {mine : Shared → TaskId → Pc → Prop}
  {world next : World Shared Pc} {action : Action Pc Reply Event}

theorem quiet {shared : Shared} (state : good shared) :
    Safe good mine (World.quiet shared : World Shared Pc) where
  state := state
  task := nofun

theorem put (safe : Safe good mine world) {task : TaskId} {shared : Shared}
    {after : Option Pc}
    (state : good shared)
    (own : ∀ counter, after = some counter → mine shared task counter)
    (others : Undisturbed mine world task shared) :
    Safe good mine (world.put task shared after) := by
  refine ⟨state, ?_⟩
  intro other pc suspended
  rw [World.put_tasks] at suspended
  split_ifs at suspended with same
  · subst same
    exact own pc suspended
  · exact others other pc same suspended (safe.task other pc suspended)

/-- A step keeps what the invariant needs. -/
theorem moves (safe : Safe good mine world)
    (keeps : Keeps program allowed good mine)
    (permitted : allowed world action)
    (moved : program.Moves world action next) : Safe good mine next := by
  cases moved with
  | @start task pc shared unused started =>
    obtain ⟨state, own, others⟩ :=
      keeps.start world task pc shared safe.state permitted unused started
    apply safe.put state _ others
    intro counter present
    cases present
    exact own
  | @resume task pc reply shared after suspended resumed =>
    obtain ⟨state, own, others⟩ :=
      keeps.resume world task pc reply shared after safe.state permitted
        suspended (safe.task task pc suspended) resumed
    exact safe.put state own others
  | @cancel task pc shared suspended cancelled =>
    obtain ⟨state, others⟩ :=
      keeps.cancel world task pc shared safe.state permitted suspended
        (safe.task task pc suspended) cancelled
    apply safe.put state _ others
    intro counter present
    cases present
  | @occur event shared occurred =>
    obtain ⟨state, others⟩ :=
      keeps.occur world event shared safe.state permitted occurred
    refine ⟨state, ?_⟩
    intro other pc suspended
    exact others other pc suspended (safe.task other pc suspended)

theorem run {actions : List (Action Pc Reply Event)}
    (safe : Safe good mine world)
    (keeps : Keeps program allowed good mine)
    (run : Run program.step allowed world actions next) :
    Safe good mine next :=
  run.invariant (Safe good mine) safe
    fun _ _ _ kept permitted moved =>
      kept.moves keeps permitted (Program.moves_of_step moved)

end Safe

end Hal0.Tasks
