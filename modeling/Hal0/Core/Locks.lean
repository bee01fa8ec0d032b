import Mathlib.Logic.Relation
import Mathlib.Logic.Function.Basic

/-!
# Lock tables and wait cycles

A table gives each lock its owner.  `transfer` moves one task to a new set of
held locks; `Accurate` says that the table agrees with what the tasks hold by
their own program counters.

A task is blocked on another one when it waits for a lock the other one owns.
A deadlock is a cycle of this relation.  `not_deadlocked_of_rank` is the rule
used to exclude one: a rank which falls along every blocked pair.
-/

namespace Hal0.Locks

variable {Task Lock : Type}

/-- `waiting` waits for a lock which `holding` owns. -/
def BlockedOn (waits : Task → Option Lock) (owner : Lock → Option Task)
    (waiting holding : Task) : Prop :=
  ∃ lock, waits waiting = some lock ∧ owner lock = some holding

/-- A cycle of tasks, each waiting for a lock held by the next. -/
def Deadlocked (waits : Task → Option Lock)
    (owner : Lock → Option Task) : Prop :=
  ∃ task, Relation.TransGen (BlockedOn waits owner) task task

variable {owner : Lock → Option Task}

theorem not_deadlocked_of_rank {waits : Task → Option Lock} (rank : Task → Nat)
    (falls : ∀ waiting holding, BlockedOn waits owner waiting holding →
      rank holding < rank waiting) :
    ¬ Deadlocked waits owner := by
  rintro ⟨task, cycle⟩
  have descends : ∀ later,
      Relation.TransGen (BlockedOn waits owner) task later →
        rank later < rank task := by
    intro later path
    induction path with
    | single blocked => exact falls _ _ blocked
    | tail _ blocked descended =>
      exact Nat.lt_trans (falls _ _ blocked) descended
  exact Nat.lt_irrefl _ (descends task cycle)

theorem deadlocked_of_pair {waits : Task → Option Lock} {left right : Task}
    (forth : BlockedOn waits owner left right)
    (back : BlockedOn waits owner right left) :
    Deadlocked waits owner :=
  ⟨left, .tail (.single forth) back⟩

/-- The owner of each lock is the one task which holds it. -/
def Accurate (owner : Lock → Option Task)
    (holds : Task → Lock → Bool) : Prop :=
  ∀ lock task, owner lock = some task ↔ holds task lock = true

variable [DecidableEq Task]

/-- `task` now holds exactly the locks of `held`. -/
def transfer (owner : Lock → Option Task) (task : Task)
    (held : Lock → Bool) : Lock → Option Task :=
  fun lock =>
    if held lock then some task
    else if owner lock = some task then none
    else owner lock

/-- A task takes and gives up locks. -/
theorem Accurate.transfer {holds : Task → Lock → Bool} {task : Task}
    {held : Lock → Bool} (accurate : Accurate owner holds)
    (available : ∀ lock, held lock = true →
      owner lock = none ∨ owner lock = some task) :
    Accurate (transfer owner task held)
      (Function.update holds task held) := by
  intro lock other
  have before := accurate lock other
  by_cases same : other = task
  · subst same
    by_cases taken : held lock = true
    · simp [Locks.transfer, taken]
    · by_cases ours : owner lock = some other <;>
        simp [Locks.transfer, taken, ours]
  · rw [Function.update_of_ne same, ← before]
    have distinct : ¬ task = other := fun equal => same equal.symm
    by_cases taken : held lock = true
    · rcases available lock taken with free | ours
      · simp [Locks.transfer, taken, free, distinct]
      · simp [Locks.transfer, taken, ours, distinct]
    · by_cases ours : owner lock = some task
      · simp [Locks.transfer, taken, ours, distinct]
      · simp [Locks.transfer, taken, ours]

theorem owner_of_transfer {task other : Task} {held : Lock → Bool}
    {lock : Lock} (owned : transfer owner task held lock = some other)
    (distinct : other ≠ task) :
    owner lock = some other := by
  simp only [transfer] at owned
  split at owned
  · exact absurd (Option.some.inj owned).symm distinct
  · split at owned
    · cases owned
    · exact owned

end Hal0.Locks
