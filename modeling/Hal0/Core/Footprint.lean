import Hal0.Core.Transition

/-!
# Machines which keep to their own cells

Machines with a private state share a store of cells.  A step looks at the
store and gives back the writes which it makes.  A machine is confined to a
set of cells when it reads and writes no others.

Machines which are confined to disjoint sets do not disturb each other:
`Run.alone` says that in every interleaving each of them is where its own
events, alone, would have brought it.
-/

namespace Hal0.Footprint

open Function List
open Hal0.Transition

variable {Index Private Event Cell Value : Type}

/-- All cells which `touches` chooses get the same value. -/
structure Write (Cell Value : Type) where
  touches : Cell → Bool
  value : Value

namespace Write

/-- The store after the write. -/
def apply (write : Write Cell Value) (store : Cell → Value) : Cell → Value :=
  fun cell => if write.touches cell then write.value else store cell

/-- The writes of a step, in their order. -/
def applyAll (writes : List (Write Cell Value)) (store : Cell → Value) :
    Cell → Value :=
  writes.foldl (fun current write => write.apply current) store

@[simp]
theorem applyAll_cons (write : Write Cell Value)
    (writes : List (Write Cell Value)) (store : Cell → Value) :
    applyAll (write :: writes) store = applyAll writes (write.apply store) :=
  rfl

end Write

/-- The stores are the same on what is owned. -/
def Agree (owns : Cell → Prop) (left right : Cell → Value) : Prop :=
  ∀ cell, owns cell → left cell = right cell

variable {owns : Cell → Prop}

theorem Agree.applyAll {left right : Cell → Value}
    (agree : Agree owns left right) (writes : List (Write Cell Value)) :
    Agree owns (Write.applyAll writes left) (Write.applyAll writes right) := by
  induction writes generalizing left right with
  | nil => exact agree
  | cons write rest later =>
    apply later
    intro cell owned
    simp only [Write.apply, agree cell owned]

/-- The writes are to cells of a set. -/
def Within (owns : Cell → Prop) (writes : List (Write Cell Value)) : Prop :=
  ∀ write ∈ writes, ∀ cell, write.touches cell = true → owns cell

@[simp]
theorem within_nil (owns : Cell → Prop) :
    Within owns ([] : List (Write Cell Value)) := by
  simp [Within]

@[simp]
theorem within_append {left right : List (Write Cell Value)} :
    Within owns (left ++ right) ↔ Within owns left ∧ Within owns right := by
  simp only [Within, mem_append]
  constructor
  · exact fun all => ⟨fun write listed => all write (.inl listed),
      fun write listed => all write (.inr listed)⟩
  · rintro ⟨first, second⟩ write (listed | listed)
    · exact first write listed
    · exact second write listed

/-- Writes elsewhere leave the own cells alone. -/
theorem agree_applyAll {writes : List (Write Cell Value)}
    (elsewhere : Within (fun cell => ¬ owns cell) writes)
    (store : Cell → Value) :
    Agree owns (Write.applyAll writes store) store := by
  induction writes generalizing store with
  | nil => exact fun _ _ => rfl
  | cons write rest later =>
    intro cell owned
    have untouched : write.touches cell = false := by
      cases touched : write.touches cell with
      | false => rfl
      | true =>
        exact absurd owned (elsewhere write mem_cons_self cell touched)
    have same := later (fun other listed =>
      elsewhere other (mem_cons_of_mem _ listed)) (write.apply store)
      cell owned
    rw [Write.applyAll_cons, same, Write.apply, untouched]
    rfl

/-- A step of a machine: its private state, and what it writes. -/
abbrev Machine (Private Event Cell Value : Type) :=
  Private → (Cell → Value) → Event →
    Option (Private × List (Write Cell Value))

/-- The machine reads and writes only cells of `owns`. -/
structure Confined (machine : Machine Private Event Cell Value)
    (owns : Cell → Prop) : Prop where
  reads : ∀ {left right}, Agree owns left right → ∀ state event,
    machine state left event = machine state right event
  writes : ∀ {state store event next writes},
    machine state store event = some (next, writes) → Within owns writes

/-- One machine, with the store for itself. -/
def solo (machine : Machine Private Event Cell Value) :
    StepFunction (Private × (Cell → Value)) Event :=
  fun state event =>
    (machine state.1 state.2 event).map fun result =>
      (result.1, Write.applyAll result.2 state.2)

section Shared

variable [DecidableEq Index]

/-- The machines take their steps in any order. -/
def shared (machines : Index → Machine Private Event Cell Value) :
    StepFunction ((Index → Private) × (Cell → Value)) (Index × Event) :=
  fun state action =>
    (machines action.1 (state.1 action.1) state.2 action.2).map fun result =>
      (update state.1 action.1 result.1,
        Write.applyAll result.2 state.2)

/-- The events of one machine. -/
def eventsOf (index : Index) (actions : List (Index × Event)) : List Event :=
  (actions.filter fun action => action.1 = index).map Prod.snd

theorem eventsOf_append (index : Index) (left right : List (Index × Event)) :
    eventsOf index (left ++ right) =
      eventsOf index left ++ eventsOf index right := by
  simp [eventsOf]

theorem shared_eq_some {machines : Index → Machine Private Event Cell Value}
    {state next : (Index → Private) × (Cell → Value)}
    {action : Index × Event} (moved : shared machines state action = some next) :
    ∃ after writes,
      machines action.1 (state.1 action.1) state.2 action.2 =
        some (after, writes) ∧
      next = (update state.1 action.1 after,
        Write.applyAll writes state.2) := by
  obtain ⟨⟨after, writes⟩, stepped, rfl⟩ := Option.map_eq_some_iff.mp moved
  exact ⟨after, writes, stepped, rfl⟩

/-- Each machine runs as it would alone. -/
theorem Run.alone {machines : Index → Machine Private Event Cell Value}
    {owns : Index → Cell → Prop}
    (confined : ∀ index, Confined (machines index) (owns index))
    (apart : ∀ index other cell, index ≠ other → owns index cell →
      ¬ owns other cell)
    {source target : (Index → Private) × (Cell → Value)}
    {actions : List (Index × Event)}
    (run : Run (shared machines) Anything source actions target)
    (index : Index) :
    ∃ store, Run (solo (machines index)) Anything
        (source.1 index, source.2) (eventsOf index actions)
        (target.1 index, store) ∧
      Agree (owns index) store target.2 := by
  induction run with
  | nil => exact ⟨source.2, .nil _, fun _ _ => rfl⟩
  | snoc prior permitted moved before =>
    rename_i middle target past action
    obtain ⟨store, alone, agree⟩ := before
    obtain ⟨after, writes, stepped, rfl⟩ := shared_eq_some moved
    obtain ⟨actor, event⟩ := action
    have written := (confined actor).writes stepped
    rw [eventsOf_append]
    by_cases own : actor = index
    · subst own
      refine ⟨Write.applyAll writes store, ?_, agree.applyAll writes⟩
      have again := (confined actor).reads agree (middle.1 actor) event
      simp only [eventsOf, filter_cons, filter_nil, decide_true,
        if_true, map_cons, map_nil, update_self]
      refine .snoc alone trivial ?_
      simp only [solo, again]
      rw [stepped]
      rfl
    · refine ⟨store, ?_, ?_⟩
      · simp only [eventsOf, filter_cons, filter_nil, own, decide_false,
          Bool.false_eq_true, if_false, map_nil, append_nil]
        rw [update_of_ne (Ne.symm own)]
        exact alone
      · intro cell owned
        have elsewhere : Agree (owns index)
            (Write.applyAll writes middle.2) middle.2 :=
          agree_applyAll (fun write listed touched isTouched ownedToo =>
            apart actor index touched own
              (written write listed touched isTouched) ownedToo) middle.2
        exact (agree cell owned).trans (elsewhere cell owned).symm

end Shared

end Hal0.Footprint
