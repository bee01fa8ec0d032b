import Hal0.Core.Transition
import Hal0.Slots.ConfigDirectory
import Mathlib.Logic.Function.Basic

/-!
# Interleavings of the slot writers

Processes share the slots directory and the lock over all its files.  What a
writer does inside the lock is one step; a create and a stack apply are more
than one, since they read the directory before they take it.

`log` is not in the source: it has the updates, stack applies and capability
applies which were carried out, in the order in which they held the lock.
-/

namespace Hal0.Slots.ConfigFiles

open Function
open Std Hal0.Transition

abbrev TaskId := Nat

/-- Where a create is, with the config it is going to write. -/
inductive Creating where
  | prepared (name : SlotName) (cfg : Doc)
  | npuChecked (name : SlotName) (cfg : Doc)
  | marked (name : SlotName) (cfg : Doc)
  | checked (name : SlotName) (cfg : Doc)

/-- A stack being planned. -/
structure Applying where
  entries : List StackEntry
  rest : List StackEntry
  changes : List Change

/-- What a client asks of the slots directory. -/
inductive Operation where
  | update (name : SlotName) (updates : Updates) (record : Option StateRecord)
  | stack (entries : List StackEntry)
  | capability (selection : Selection)

/-- The directory, and who writes to it. -/
structure Writers where
  dir : Directory
  creating : TaskId → Option Creating
  applying : TaskId → Option Applying
  log : List Operation

/-- A directory, and no writer at work. -/
def Writers.start (dir : Directory) : Writers where
  dir := dir
  creating := fun _ => none
  applying := fun _ => none
  log := []

/-- A step of a writer. -/
inductive Action where
  /-- `update_config`. -/
  | update (name : SlotName) (updates : Updates) (record : Option StateRecord)
  /-- `_persist_model_default` at the end of a load. -/
  | persist (name : SlotName) (model : String) (record : Option StateRecord)
  /-- `create`, up to its checks. -/
  | create (task : TaskId) (name : SlotName) (cfg : Doc)
  | checkNpu (task : TaskId)
  | markDefault (task : TaskId)
  | checkDefault (task : TaskId)
  /-- The locked part of a create. -/
  | writeNew (task : TaskId) (port : Option Leaf)
  /-- `StackApplyEngine.plan`, and the next of its entries. -/
  | plan (task : TaskId) (entries : List StackEntry)
  | planNext (task : TaskId)
  /-- `apply_config`. -/
  | applyConfig (task : TaskId)
  /-- `apply_and_commit`. -/
  | capability (selection : Selection)

namespace Writers

/-- A write under the lock, with the operation it carries out. -/
def wrote (state : Writers) (operation : Operation) (dir : Directory) :
    Writers :=
  { state with dir := dir, log := state.log ++ [operation] }

def setCreating (state : Writers) (task : TaskId) (now : Option Creating) :
    Writers :=
  { state with creating := update state.creating task now }

def setApplying (state : Writers) (task : TaskId) (now : Option Applying) :
    Writers :=
  { state with applying := update state.applying task now }

@[simp]
theorem applying_setApplying (state : Writers) (task : TaskId)
    (now : Option Applying) :
    (state.setApplying task now).applying =
      update state.applying task now := rfl

@[simp]
theorem dir_setApplying (state : Writers) (task : TaskId)
    (now : Option Applying) : (state.setApplying task now).dir = state.dir :=
  rfl

@[simp]
theorem creating_setCreating (state : Writers) (task : TaskId)
    (now : Option Creating) :
    (state.setCreating task now).creating =
      update state.creating task now := rfl

/-- One step of a create; `none` where it raises. -/
def stepCreate (rows : Rows) (state : Writers) (task : TaskId) :
    Creating → Action → Option Writers
  | .prepared name cfg, .checkNpu _ =>
    if checkNpuExclusivity state.dir name cfg then
      some (state.setCreating task (some (.npuChecked name cfg)))
    else none
  | .npuChecked name cfg, .markDefault _ =>
    some (state.setCreating task
      (some (.marked name (ConfigFiles.markDefault state.dir name cfg))))
  | .marked name cfg, .checkDefault _ =>
    if checkDefaultUniqueness state.dir name cfg then
      some (state.setCreating task (some (.checked name cfg)))
    else none
  | .checked name cfg, .writeNew _ port =>
    (ConfigFiles.writeNew rows state.dir name cfg port).map fun dir =>
      { state.setCreating task none with dir := dir }
  | _, _ => none

/-- The step of the create `task`, if it is under way. -/
def createStep (rows : Rows) (state : Writers) (task : TaskId)
    (action : Action) : Option Writers :=
  (state.creating task).bind fun creating =>
    state.stepCreate rows task creating action

/-- One entry of the plan. -/
def planNextEntry (rules : Rules) (state : Writers) (task : TaskId)
    (applying : Applying) : Option Writers :=
  match applying.rest with
  | [] => none
  | entry :: rest =>
    some (state.setApplying task (some { applying with
      rest := rest
      changes := applying.changes ++ [planEntry rules state.dir entry] }))

/-- The commit of a change set which is complete. -/
def commitPlan (state : Writers) (task : TaskId) (applying : Applying) :
    Option Writers :=
  if applying.rest.isEmpty then
    some ((state.setApplying task none).wrote (.stack applying.entries)
      (commit state.dir applying.changes))
  else none

/-- One step of a writer. -/
def step (rules : Rules) (rows : Rows) (state : Writers) :
    Action → Option Writers
  | .update name updates record =>
    (updateConfig rules rows state.dir name updates record).map
      (state.wrote (.update name updates record))
  | .persist name model record =>
    (persistModelDefault rules rows state.dir name model record).map
      fun dir => { state with dir := dir }
  | .create task name cfg =>
    if (state.creating task).isNone then
      (preparedConfig rules cfg).map fun cfg =>
        state.setCreating task (some (.prepared name cfg))
    else none
  | .checkNpu task => state.createStep rows task (.checkNpu task)
  | .markDefault task => state.createStep rows task (.markDefault task)
  | .checkDefault task => state.createStep rows task (.checkDefault task)
  | .writeNew task port => state.createStep rows task (.writeNew task port)
  | .plan task entries =>
    if (state.applying task).isNone then
      some (state.setApplying task
        (some ⟨entries, planned entries, []⟩))
    else none
  | .planNext task =>
    (state.applying task).bind (state.planNextEntry rules task)
  | .applyConfig task =>
    (state.applying task).bind (state.commitPlan task)
  | .capability selection =>
    some (state.wrote (.capability selection)
      (applyAndCommit rules state.dir selection))

end Writers

end Hal0.Slots.ConfigFiles
