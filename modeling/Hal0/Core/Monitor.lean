import Hal0.Core.Transition
import Mathlib.Logic.Function.Basic

/-!
# Cooperative tasks around one lock

The tasks of one event loop share a state and one lock.  A task is known by
the program counter at which it is suspended; `resume` runs it from there to
its next suspension or to its end, and nothing else runs meanwhile.  A
counter may be marked `atomic`: the task awaits there, but the awaited call
does not suspend, so the loop runs no other task before this one goes on.

`Protects` and `Shields` are the proof rules.  A predicate of the shared state
and a predicate of the owner's counter are kept by every run, if every task
keeps them by its own steps, and the steps taken outside the lock disturb no
owner.
-/

namespace Hal0.Monitor

open Function Option
open Hal0.Transition

abbrev TaskId := Nat

/--
The tasks of an event loop.  `holds` marks the counters inside the lock and
`acquires` those which wait for it.  The laws say that the lock is the only
way in.
-/
structure Program (Shared Pc Reply Event : Type) where
  holds : Pc → Bool
  acquires : Pc → Bool
  atomic : Pc → Bool
  start : Shared → Pc → Option Shared
  resume : Shared → Pc → Reply → Option (Shared × Option Pc)
  abandon : Shared → Pc → Option Shared
  occur : Shared → Event → Option Shared
  restart : Shared → Shared
  startsOutside : ∀ shared pc started, start shared pc = some started →
    holds pc = false ∧ atomic pc = false
  entersByLock : ∀ shared pc reply resumed next,
    resume shared pc reply = some (resumed, some next) →
      holds next = true → acquires pc = true ∨ holds pc = true

/-- The shared state, the suspended tasks, and the owner of the lock. -/
structure World (Shared Pc : Type) where
  shared : Shared
  tasks : TaskId → Option Pc
  owner : Option TaskId
  running : Option TaskId

/-- A step of one task, or an event beside them. -/
inductive Action (Pc Reply Event : Type) where
  | start (task : TaskId) (pc : Pc)
  | resume (task : TaskId) (reply : Reply)
  | cancel (task : TaskId)
  | occur (event : Event)
  | restart

variable {Shared Pc Reply Event : Type}

/-- Nobody runs, holds the lock or waits. -/
def World.quiet (shared : Shared) : World Shared Pc :=
  ⟨shared, fun _ => none, none, none⟩

namespace Program

variable (program : Program Shared Pc Reply Event)

/-- `task` goes on from `pc`; it takes, keeps or leaves the lock. -/
def put (world : World Shared Pc) (task : TaskId) (pc : Pc)
    (shared : Shared) (next : Option Pc) : World Shared Pc :=
  { shared := shared
    tasks := update world.tasks task next
    owner :=
      if next.any program.holds then some task
      else if program.holds pc then none
      else world.owner
    running := if next.any program.atomic then some task else none }

/-- One turn of the event loop. -/
def step : StepFunction (World Shared Pc) (Action Pc Reply Event)
  | world, .start task pc =>
    if world.running = none ∧ world.tasks task = none then
      (program.start world.shared pc).map fun shared =>
        { world with
          shared := shared
          tasks := update world.tasks task (some pc) }
    else none
  | world, .resume task reply =>
    match world.tasks task with
    | none => none
    | some pc =>
      if (world.running = none ∨ world.running = some task) ∧
          (program.acquires pc = true → world.owner = none) then
        (program.resume world.shared pc reply).map fun turn =>
          program.put world task pc turn.1 turn.2
      else none
  | world, .cancel task =>
    match world.tasks task with
    | none => none
    | some pc =>
      if world.running = none then
        (program.abandon world.shared pc).map fun shared =>
          program.put world task pc shared none
      else none
  | world, .occur event =>
    if world.running = none then
      (program.occur world.shared event).map fun shared =>
        { world with shared := shared }
    else none
  | world, .restart => some (.quiet (program.restart world.shared))

/-- What one turn can do, with the guard it passed. -/
inductive Moves (world : World Shared Pc) :
    Action Pc Reply Event → World Shared Pc → Prop where
  | start {task : TaskId} {pc : Pc} {shared : Shared}
      (unused : world.tasks task = none)
      (started : program.start world.shared pc = some shared)
      (settled : world.running = none) :
      Moves world (.start task pc)
        { world with
          shared := shared
          tasks := update world.tasks task (some pc) }
  | resume {task : TaskId} {pc : Pc} {reply : Reply} {shared : Shared}
      {next : Option Pc}
      (suspended : world.tasks task = some pc)
      (scheduled : world.running = none ∨ world.running = some task)
      (free : program.acquires pc = true → world.owner = none)
      (resumed : program.resume world.shared pc reply =
        some (shared, next)) :
      Moves world (.resume task reply)
        (program.put world task pc shared next)
  | cancel {task : TaskId} {pc : Pc} {shared : Shared}
      (suspended : world.tasks task = some pc)
      (settled : world.running = none)
      (abandoned : program.abandon world.shared pc = some shared) :
      Moves world (.cancel task) (program.put world task pc shared none)
  | occur {event : Event} {shared : Shared}
      (settled : world.running = none)
      (occurred : program.occur world.shared event = some shared) :
      Moves world (.occur event) { world with shared := shared }
  | restart : Moves world .restart (.quiet (program.restart world.shared))

variable {program}

/-- What one step can do. -/
theorem moves_of_step {world next : World Shared Pc}
    {action : Action Pc Reply Event}
    (moved : program.step world action = some next) :
    program.Moves world action next := by
  cases action with
  | start task pc =>
    simp only [step, ite_none_right_eq_some, map_eq_some_iff] at moved
    obtain ⟨⟨settled, unused⟩, shared, started, rfl⟩ := moved
    exact .start unused started settled
  | resume task reply =>
    cases suspended : world.tasks task with
    | none => simp [step, suspended] at moved
    | some pc =>
      simp only [step, suspended, ite_none_right_eq_some,
        map_eq_some_iff] at moved
      obtain ⟨⟨scheduled, free⟩, turn, resumed, rfl⟩ := moved
      exact .resume suspended scheduled free resumed
  | cancel task =>
    cases suspended : world.tasks task with
    | none => simp [step, suspended] at moved
    | some pc =>
      simp only [step, suspended, ite_none_right_eq_some,
        map_eq_some_iff] at moved
      obtain ⟨settled, shared, abandoned, rfl⟩ := moved
      exact .cancel suspended settled abandoned
  | occur event =>
    simp only [step, ite_none_right_eq_some, map_eq_some_iff] at moved
    obtain ⟨settled, shared, occurred, rfl⟩ := moved
    exact .occur settled occurred
  | restart =>
    obtain rfl := some.inj moved
    exact .restart

@[simp]
theorem put_shared (world : World Shared Pc) (task : TaskId) (pc : Pc)
    (shared : Shared) (next : Option Pc) :
    (program.put world task pc shared next).shared = shared := rfl

theorem put_tasks (world : World Shared Pc) (task : TaskId) (pc : Pc)
    (shared : Shared) (next : Option Pc) :
    (program.put world task pc shared next).tasks =
      update world.tasks task next := rfl

/-- A task which never starts never runs. -/
theorem unstarted {allowed : World Shared Pc → Action Pc Reply Event → Prop}
    {shared : Shared} {actions : List (Action Pc Reply Event)}
    {world : World Shared Pc} {task : TaskId}
    (run : Run program.step allowed (.quiet shared) actions world)
    (never : ∀ pc, Action.start task pc ∉ actions) :
    world.tasks task = none := by
  refine run.history
    (fun past world => (∀ pc, Action.start task pc ∉ past) →
      world.tasks task = none) (fun _ => rfl) ?_ never
  intro past world action next absent _ moved unstarted
  have before : world.tasks task = none :=
    absent fun pc present =>
      unstarted pc (List.mem_append_left _ present)
  have elsewhere : ∀ {other : TaskId} {pc : Pc} (found : Option Pc),
      world.tasks other = some pc →
        update world.tasks other found task = none := by
    intro other pc found suspended
    rw [update_of_ne, before]
    rintro rfl
    rw [before] at suspended
    cases suspended
  cases moves_of_step moved with
  | @start other pc shared unused started settled =>
    refine (update_of_ne ?_ _ _).trans before
    rintro rfl
    exact unstarted pc (List.mem_append_right _ (List.mem_singleton_self _))
  | resume suspended scheduled free resumed => exact elsewhere _ suspended
  | cancel suspended settled abandoned => exact elsewhere _ suspended
  | occur settled occurred => exact before
  | restart => rfl

end Program

/-! ## The lock and the scheduler -/

/--
The recorded owner is the one task inside the lock, and a task at an atomic
counter is the one the loop runs next.
-/
structure Orderly (program : Program Shared Pc Reply Event)
    (world : World Shared Pc) : Prop where
  inside : ∀ task pc, world.tasks task = some pc →
    program.holds pc = true → world.owner = some task
  unsuspended : ∀ task pc, world.tasks task = some pc →
    program.atomic pc = true → world.running = some task

namespace Orderly

variable {program : Program Shared Pc Reply Event}
  {world next : World Shared Pc} {action : Action Pc Reply Event}

theorem quiet (shared : Shared) :
    Orderly program (World.quiet shared) := by
  constructor <;> intro task pc suspended <;> cases suspended

variable {task : TaskId} {pc : Pc}

section

variable (orderly : Orderly program world)
include orderly

theorem suspends_of_settled (settled : world.running = none)
    (suspended : world.tasks task = some pc) :
    program.atomic pc = false := by
  rw [Bool.eq_false_iff]
  intro atomic
  have runs := orderly.unsuspended task pc suspended atomic
  rw [settled] at runs
  cases runs

theorem suspends_of_scheduled {other : TaskId}
    (scheduled : world.running = none ∨ world.running = some task)
    (distinct : other ≠ task) (suspended : world.tasks other = some pc) :
    program.atomic pc = false := by
  rcases scheduled with settled | ours
  · exact orderly.suspends_of_settled settled suspended
  · rw [Bool.eq_false_iff]
    intro atomic
    have runs := orderly.unsuspended other pc suspended atomic
    rw [ours] at runs
    exact distinct (some.inj runs).symm

theorem outside {other : TaskId} {otherPc : Pc} (distinct : other ≠ task)
    (suspended : world.tasks task = some pc)
    (otherSuspended : world.tasks other = some otherPc)
    (otherHolds : program.holds otherPc = true) :
    program.holds pc = false := by
  have owned := orderly.inside other otherPc otherSuspended otherHolds
  rw [Bool.eq_false_iff]
  intro held
  rw [orderly.inside task pc suspended held] at owned
  exact distinct (some.inj owned).symm

theorem apart {other : TaskId} {otherPc : Pc} (distinct : other ≠ task)
    (suspended : world.tasks task = some pc)
    (free : program.acquires pc = true → world.owner = none)
    (otherSuspended : world.tasks other = some otherPc)
    (otherHolds : program.holds otherPc = true) :
    program.holds pc = false ∧ program.acquires pc = false := by
  refine ⟨orderly.outside distinct suspended otherSuspended otherHolds, ?_⟩
  rw [Bool.eq_false_iff]
  intro waits
  have owned := orderly.inside other otherPc otherSuspended otherHolds
  rw [free waits] at owned
  cases owned

/-- A scheduled task goes on. -/
theorem put {shared : Shared} {after : Option Pc}
    (suspended : world.tasks task = some pc)
    (scheduled : world.running = none ∨ world.running = some task)
    (free : program.acquires pc = true → world.owner = none)
    (entered : ∀ counter, after = some counter →
      program.holds counter = true →
        program.acquires pc = true ∨ program.holds pc = true) :
    Orderly program (program.put world task pc shared after) := by
  constructor
  · intro other otherPc otherSuspended otherHolds
    rw [Program.put_tasks, update_apply] at otherSuspended
    split_ifs at otherSuspended with same
    · subst same
      simp [Program.put, otherSuspended, otherHolds]
    · obtain ⟨outside, unlocked⟩ :=
        orderly.apart same suspended free otherSuspended otherHolds
      have stays : ¬ after.any program.holds = true := by
        intro taken
        cases after with
        | none => cases taken
        | some counter =>
          rcases entered counter rfl taken with waits | inside
          · rw [waits] at unlocked
            cases unlocked
          · rw [inside] at outside
            cases outside
      simp only [Program.put, if_neg stays, outside]
      exact orderly.inside other otherPc otherSuspended otherHolds
  · intro other otherPc otherSuspended otherAtomic
    rw [Program.put_tasks, update_apply] at otherSuspended
    split_ifs at otherSuspended with same
    · subst same
      simp [Program.put, otherSuspended, otherAtomic]
    · rw [orderly.suspends_of_scheduled scheduled same otherSuspended]
        at otherAtomic
      cases otherAtomic

/-- A step keeps the lock in order. -/
theorem moves
    (moved : program.Moves world action next) : Orderly program next := by
  cases moved with
  | @start task pc shared unused started settled =>
    obtain ⟨outside, suspends⟩ := program.startsOutside _ _ _ started
    constructor
    · intro other otherPc otherSuspended otherHolds
      simp only [update_apply] at otherSuspended
      split_ifs at otherSuspended
      · cases otherSuspended
        rw [outside] at otherHolds
        cases otherHolds
      · exact orderly.inside other otherPc otherSuspended otherHolds
    · intro other otherPc otherSuspended otherAtomic
      simp only [update_apply] at otherSuspended
      split_ifs at otherSuspended
      · cases otherSuspended
        rw [suspends] at otherAtomic
        cases otherAtomic
      · exact orderly.unsuspended other otherPc otherSuspended otherAtomic
  | resume suspended scheduled free resumed =>
    apply orderly.put suspended scheduled free
    intro counter present held
    subst present
    exact program.entersByLock _ _ _ _ _ resumed held
  | @cancel task pc shared suspended settled abandoned =>
    constructor
    · intro other otherPc otherSuspended otherHolds
      rw [Program.put_tasks, update_apply] at otherSuspended
      split_ifs at otherSuspended with same
      have outside :=
        orderly.outside same suspended otherSuspended otherHolds
      have owned := orderly.inside other otherPc otherSuspended otherHolds
      simpa [Program.put, outside] using owned
    · intro other otherPc otherSuspended otherAtomic
      rw [Program.put_tasks, update_apply] at otherSuspended
      split_ifs at otherSuspended
      rw [orderly.suspends_of_settled settled otherSuspended] at otherAtomic
      cases otherAtomic
  | occur settled occurred => exact ⟨orderly.inside, orderly.unsuspended⟩
  | restart => exact quiet _

end

end Orderly

/-! ## The proof rule -/

/-- What an owner may rely on is not disturbed by a change of the state. -/
def Stable (program : Program Shared Pc Reply Event)
    (owns : Shared → Pc → Prop) (before after : Shared) : Prop :=
  ∀ pc, program.holds pc = true → program.atomic pc = false →
    owns before pc → owns after pc

/--
Every task keeps `good`, and `owns` for itself while it is inside the lock;
outside the lock it leaves `owns` to the owner.
-/
structure Protects (program : Program Shared Pc Reply Event)
    (allowed : World Shared Pc → Action Pc Reply Event → Prop)
    (good : Shared → Prop) (owns : Shared → Pc → Prop) : Prop where
  start : ∀ world task pc shared, good world.shared →
    allowed world (.start task pc) →
    program.start world.shared pc = some shared →
      good shared ∧ Stable program owns world.shared shared
  resume : ∀ world task pc reply shared next, good world.shared →
    allowed world (.resume task reply) →
    world.tasks task = some pc →
    (program.holds pc = true → owns world.shared pc) →
    program.resume world.shared pc reply = some (shared, next) →
      good shared ∧ (∀ counter, next = some counter →
        program.holds counter = true → owns shared counter) ∧
      (program.holds pc = false → program.acquires pc = false →
        Stable program owns world.shared shared)
  cancel : ∀ world task pc shared, good world.shared →
    allowed world (.cancel task) →
    world.tasks task = some pc →
    (program.holds pc = true → owns world.shared pc) →
    program.abandon world.shared pc = some shared →
      good shared ∧ (program.holds pc = false →
        Stable program owns world.shared shared)
  occur : ∀ world event shared, good world.shared →
    allowed world (.occur event) →
    program.occur world.shared event = some shared →
      good shared ∧ Stable program owns world.shared shared
  restart : ∀ world, good world.shared → allowed world .restart →
    good (program.restart world.shared)

/--
The same, where a step outside the lock may disturb what the lock guards while
no task holds it.
-/
structure Shields (program : Program Shared Pc Reply Event)
    (allowed : World Shared Pc → Action Pc Reply Event → Prop)
    (good : Shared → Prop) (owns : Shared → Pc → Prop) : Prop where
  start : ∀ world task pc shared, good world.shared →
    allowed world (.start task pc) →
    program.start world.shared pc = some shared →
      good shared ∧
        (world.owner ≠ none → Stable program owns world.shared shared)
  resume : ∀ world task pc reply shared next, good world.shared →
    allowed world (.resume task reply) →
    world.tasks task = some pc →
    (program.holds pc = true → owns world.shared pc) →
    program.resume world.shared pc reply = some (shared, next) →
      good shared ∧ (∀ counter, next = some counter →
        program.holds counter = true → owns shared counter) ∧
      (program.holds pc = false → program.acquires pc = false →
        world.owner ≠ none → Stable program owns world.shared shared)
  cancel : ∀ world task pc shared, good world.shared →
    allowed world (.cancel task) →
    world.tasks task = some pc →
    (program.holds pc = true → owns world.shared pc) →
    program.abandon world.shared pc = some shared →
      good shared ∧ (program.holds pc = false → world.owner ≠ none →
        Stable program owns world.shared shared)
  occur : ∀ world event shared, good world.shared →
    allowed world (.occur event) →
    program.occur world.shared event = some shared →
      good shared ∧
        (world.owner ≠ none → Stable program owns world.shared shared)
  restart : ∀ world, good world.shared → allowed world .restart →
    good (program.restart world.shared)

/-- Ownership by one task at a time. -/
theorem Protects.shields {program : Program Shared Pc Reply Event}
    {allowed : World Shared Pc → Action Pc Reply Event → Prop}
    {good : Shared → Prop} {owns : Shared → Pc → Prop}
    (protects : Protects program allowed good owns) :
    Shields program allowed good owns where
  start := by
    intro world task pc shared kept permitted started
    obtain ⟨state, stable⟩ :=
      protects.start world task pc shared kept permitted started
    exact ⟨state, fun _ => stable⟩
  resume := by
    intro world task pc reply shared next kept permitted suspended owned
      resumed
    obtain ⟨state, goesOn, stable⟩ := protects.resume world task pc reply
      shared next kept permitted suspended owned resumed
    exact ⟨state, goesOn, fun outside unlocked _ => stable outside unlocked⟩
  cancel := by
    intro world task pc shared kept permitted suspended owned abandoned
    obtain ⟨state, stable⟩ := protects.cancel world task pc shared kept
      permitted suspended owned abandoned
    exact ⟨state, fun outside _ => stable outside⟩
  occur := by
    intro world event shared kept permitted occurred
    obtain ⟨state, stable⟩ :=
      protects.occur world event shared kept permitted occurred
    exact ⟨state, fun _ => stable⟩
  restart := protects.restart

/-- The state is good, and whoever is inside the lock finds what it owns. -/
structure Safe (program : Program Shared Pc Reply Event)
    (good : Shared → Prop) (owns : Shared → Pc → Prop)
    (world : World Shared Pc) : Prop where
  orderly : Orderly program world
  state : good world.shared
  owner : ∀ task pc, world.tasks task = some pc →
    program.holds pc = true → owns world.shared pc

namespace Safe

variable {program : Program Shared Pc Reply Event}
  {allowed : World Shared Pc → Action Pc Reply Event → Prop}
  {good : Shared → Prop} {owns : Shared → Pc → Prop}
  {world next : World Shared Pc} {action : Action Pc Reply Event}

theorem quiet {shared : Shared} (state : good shared) :
    Safe program good owns (World.quiet shared) where
  orderly := .quiet shared
  state := state
  owner := nofun

section

variable (safe : Safe program good owns world)
include safe

/-- A step keeps what is shielded. -/
theorem shielded (shields : Shields program allowed good owns)
    (permitted : allowed world action)
    (moved : program.Moves world action next) :
    Safe program good owns next := by
  have orderly := safe.orderly.moves moved
  have owned : ∀ other otherPc, world.tasks other = some otherPc →
      program.holds otherPc = true → world.owner ≠ none := by
    intro other otherPc suspended held
    rw [safe.orderly.inside other otherPc suspended held]
    exact some_ne_none other
  cases moved with
  | @start task pc shared unused started settled =>
    obtain ⟨kept, stable⟩ :=
      shields.start world task pc shared safe.state permitted started
    refine ⟨orderly, kept, ?_⟩
    intro other otherPc otherSuspended otherHolds
    simp only [update_apply] at otherSuspended
    split_ifs at otherSuspended
    · cases otherSuspended
      rw [(program.startsOutside _ _ _ started).1] at otherHolds
      cases otherHolds
    · exact stable (owned other otherPc otherSuspended otherHolds) otherPc
        otherHolds (safe.orderly.suspends_of_settled settled otherSuspended)
        (safe.owner other otherPc otherSuspended otherHolds)
  | @resume task pc reply shared after suspended scheduled free resumed =>
    obtain ⟨kept, goesOn, stable⟩ :=
      shields.resume world task pc reply shared after safe.state
        permitted suspended (safe.owner task pc suspended) resumed
    refine ⟨orderly, kept, ?_⟩
    intro other otherPc otherSuspended otherHolds
    rw [Program.put_tasks, update_apply] at otherSuspended
    split_ifs at otherSuspended with same
    · exact goesOn otherPc otherSuspended otherHolds
    · obtain ⟨outside, unlocked⟩ := safe.orderly.apart same suspended free
        otherSuspended otherHolds
      exact stable outside unlocked
        (owned other otherPc otherSuspended otherHolds) otherPc otherHolds
        (safe.orderly.suspends_of_scheduled scheduled same otherSuspended)
        (safe.owner other otherPc otherSuspended otherHolds)
  | @cancel task pc shared suspended settled abandoned =>
    obtain ⟨kept, stable⟩ :=
      shields.cancel world task pc shared safe.state permitted suspended
        (safe.owner task pc suspended) abandoned
    refine ⟨orderly, kept, ?_⟩
    intro other otherPc otherSuspended otherHolds
    rw [Program.put_tasks, update_apply] at otherSuspended
    split_ifs at otherSuspended with same
    exact stable
      (safe.orderly.outside same suspended otherSuspended otherHolds)
      (owned other otherPc otherSuspended otherHolds) otherPc otherHolds
      (safe.orderly.suspends_of_settled settled otherSuspended)
      (safe.owner other otherPc otherSuspended otherHolds)
  | @occur event shared settled occurred =>
    obtain ⟨kept, stable⟩ :=
      shields.occur world event shared safe.state permitted occurred
    refine ⟨orderly, kept, ?_⟩
    intro other otherPc otherSuspended otherHolds
    exact stable (owned other otherPc otherSuspended otherHolds) otherPc
      otherHolds (safe.orderly.suspends_of_settled settled otherSuspended)
      (safe.owner other otherPc otherSuspended otherHolds)
  | restart =>
    exact .quiet (shields.restart world safe.state permitted)

theorem shielded_run {actions : List (Action Pc Reply Event)}
    (shields : Shields program allowed good owns)
    (run : Run program.step allowed world actions next) :
    Safe program good owns next :=
  run.invariant (Safe program good owns) safe
    fun _ _ _ kept permitted moved =>
      kept.shielded shields permitted (Program.moves_of_step moved)

theorem moves (protects : Protects program allowed good owns)
    (permitted : allowed world action)
    (moved : program.Moves world action next) :
    Safe program good owns next :=
  safe.shielded protects.shields permitted moved

theorem run {actions : List (Action Pc Reply Event)}
    (protects : Protects program allowed good owns)
    (run : Run program.step allowed world actions next) :
    Safe program good owns next :=
  safe.shielded_run protects.shields run

end

end Safe

end Hal0.Monitor
