import Hal0.Slots.Layout
import Hal0.Slots.State

/-!
# Converging on a stack

`converge` loads, swaps or restarts the primary slots of a stack, applies its
capabilities and unloads what the stack does not touch, all after one snapshot
of the slots.  Any of its calls may fail; a failure is recorded and the next
call is made.  `planned_unloads` foretells the last pass from the stack alone.

The slots which are touched are compared by the names the stack has for them,
and the manager reads an alias as another slot.  So a slot which an entry
brings up by an alias is unloaded again, unless the stack names it too.  No
slot is stored or deleted under an alias while a stack is applied.
-/

namespace Hal0.Stacks

open List
open Hal0.Slots (SlotState)
open Hal0.Slots.Layout (Directory resolveSlotStem)

/-! ## Stacks and snapshots -/

/-- `StackCapabilityRow` -/
structure CapabilityRow where
  child : String
  device : String
  provider : String
  model : String
  enabled : Bool

/-- What `converge` reads of a `StackSlotEntry`. -/
structure SlotEntry where
  slot : String
  model : Option String
  capabilities : List CapabilityRow

/-- The entries of a `StackConfig`. -/
structure StackConfig where
  slots : List SlotEntry

/-- What `converge` reads of a snapshot of `SlotManager.list()`. -/
structure Snapshot where
  name : String
  state : SlotState
  modelId : Option String

abbrev Snapshots := List (String × Snapshot)

/-- `snapshots[name] = snapshot` -/
def setSnapshot (snapshots : Snapshots) (snapshot : Snapshot) : Snapshots :=
  if (snapshots.lookup snapshot.name).isSome then
    snapshots.map fun item =>
      if item.1 = snapshot.name then (item.1, snapshot) else item
  else snapshots ++ [(snapshot.name, snapshot)]

/-- `{s.name: s for s in listed}` -/
def byName (listed : List Snapshot) : Snapshots :=
  listed.foldl setSnapshot []

/-- `entry.model`, where it is truthy. -/
def SlotEntry.carried (entry : SlotEntry) : Option String :=
  entry.model.filter fun model => model ≠ ""

/-- `_TRANSITIONAL` -/
def isTransitional : SlotState → Bool
  | .pulling | .starting | .warming | .unloading => true
  | _ => false

/-- `_CHILD_TO_GROUP` -/
def childToGroup : List (String × String) :=
  [("embed", "embed"), ("rerank", "embed"), ("stt", "voice"),
    ("tts", "voice"), ("img", "img")]

/-- `_RETIRED_CHILDREN` -/
def retiredChildren : List String :=
  ["vision"]

/-- `_CHILD_TO_SLOT_NAME` -/
def childToSlotName : List (String × String) :=
  [("embed", "embed"), ("rerank", "rerank"), ("stt", "stt"), ("tts", "tts"),
    ("img", "img")]

/-- `_CHILD_TO_SLOT` of the orchestrator, by group and child. -/
def childToSlot : List ((String × String) × String) :=
  [(("embed", "embed"), "embed"), (("embed", "rerank"), "rerank"),
    (("voice", "stt"), "stt"), (("voice", "tts"), "tts"),
    (("img", "img"), "img")]

/-! ## Aliases -/

/-- `SLOT_ALIASES` -/
def slotAliases : List (String × String) :=
  [("embed-rerank", "rerank"), ("qwen3:4b", "flm"), ("qwen3-4b", "flm")]

/--
`SlotManager._resolve_alias`.  A slot which is stored under an alias keeps it;
`none` is the error of the reader of the slots directory.
-/
def resolveAlias (dir : Directory) (name : String) : Option String :=
  match slotAliases.lookup name with
  | none => some name
  | some canonical =>
    (resolveSlotStem dir name).map fun stem =>
      if stem.isSome then name else canonical

/-! ## The preview -/

/-- The slot of a row which `_stack_touched_slots` counts. -/
def touchedByRow (row : CapabilityRow) : Option String :=
  if !row.enabled then none
  else if (childToGroup.lookup row.child).isNone then none
  else childToSlotName.lookup row.child

/-- `_stack_touched_slots`, the members of the set. -/
def stackTouchedSlots (stack : StackConfig) : List String :=
  (stack.slots.filter fun entry => entry.carried.isSome).map SlotEntry.slot ++
    stack.slots.flatMap fun entry => entry.capabilities.filterMap touchedByRow

/-- `_unload_targets` -/
def unloadTargets (snapshots : Snapshots) (touched : List String) :
    List String :=
  (snapshots.filter fun item =>
    item.1 ∉ touched && item.2.state.isDispatchable).map Prod.fst

/-- `planned_unloads` -/
def plannedUnloads (listed : List Snapshot) (stack : StackConfig) :
    List String :=
  unloadTargets (byName listed) (stackTouchedSlots stack)

/-! ## The commit -/

/-- The calls of the slot manager and of the orchestrator. -/
inductive Call where
  | resetLoadFailures (slot : String)
  | load (slot model : String)
  | swap (slot model : String)
  | restart (slot : String)
  | apply (group child device provider model : String)
  | unload (slot : String)

/-- `ConvergeReport` -/
structure ConvergeReport where
  loaded : List String
  swapped : List String
  skipped : List String
  unloaded : List String
  capabilitiesApplied : List String
  errors : List (String × String)
  reloaded : List String

def ConvergeReport.empty : ConvergeReport :=
  ⟨[], [], [], [], [], [], []⟩

/-- A run of `converge`: its calls, in order, with what it has noted. -/
structure Converging where
  report : ConvergeReport
  touched : List String
  calls : List Call

/--
What comes of a call, by all calls up to it: nothing, or the text of an
exception.
-/
abbrev Outcome := List Call → Option String

/-- An entry of the report. -/
def Converging.note (state : Converging)
    (noted : ConvergeReport → ConvergeReport) : Converging :=
  { state with report := noted state.report }

/-- `report.errors.append((target, str(exc)))` -/
def Converging.fail (state : Converging) (target message : String) :
    Converging :=
  state.note fun report =>
    { report with errors := report.errors ++ [(target, message)] }

/-- A call is made. -/
def Converging.called (state : Converging) (call : Call) : Converging :=
  { state with calls := state.calls ++ [call] }

/-- A call which is noted where it returns, and recorded where it raises. -/
def Converging.attempt (outcome : Outcome) (state : Converging) (call : Call)
    (target : String) (noted : ConvergeReport → ConvergeReport) :
    Converging :=
  match outcome (state.calls ++ [call]) with
  | none => (state.called call).note noted
  | some message => (state.called call).fail target message

/-- `touched.add(slot)` -/
def Converging.touch (state : Converging) (slot : String) : Converging :=
  { state with touched := state.touched ++ [slot] }

/-- `load(slot, model_id=model)` -/
def loadModel (outcome : Outcome) (slot model : String)
    (state : Converging) : Converging :=
  state.attempt outcome (.load slot model) slot fun report =>
    { report with loaded := report.loaded ++ [slot] }

/-- The failures are reset, where the manager can, and the model is loaded. -/
def loadPrimary (outcome : Outcome) (resets : Bool) (slot model : String)
    (state : Converging) : Converging :=
  if resets then
    match outcome (state.calls ++ [.resetLoadFailures slot]) with
    | none =>
      loadModel outcome slot model (state.called (.resetLoadFailures slot))
    | some message =>
      (state.called (.resetLoadFailures slot)).fail slot message
  else loadModel outcome slot model state

/-- `_converge_primary` -/
def convergePrimary (outcome : Outcome) (resets : Bool)
    (changedSlots : List String) (slot model : String)
    (snapshot : Option Snapshot) (state : Converging) : Converging :=
  let skip : Converging := state.note fun report =>
    { report with skipped := report.skipped ++ [slot] }
  match snapshot with
  | none => loadPrimary outcome resets slot model state
  | some snapshot =>
    if isTransitional snapshot.state then skip
    else if !snapshot.state.isDispatchable then
      loadPrimary outcome resets slot model state
    else if snapshot.modelId ≠ some model then
      state.attempt outcome (.swap slot model) slot fun report =>
        { report with swapped := report.swapped ++ [slot] }
    else if slot ∈ changedSlots then
      state.attempt outcome (.restart slot) slot fun report =>
        { report with reloaded := report.reloaded ++ [slot] }
    else skip

/-- The first pass, over the entries which carry a model. -/
def convergeEntry (outcome : Outcome) (resets : Bool)
    (changedSlots : List String) (snapshots : Snapshots)
    (state : Converging) (entry : SlotEntry) : Converging :=
  match entry.carried with
  | none => state
  | some model =>
    convergePrimary outcome resets changedSlots entry.slot model
      (snapshots.lookup entry.slot) (state.touch entry.slot)

/-- One row of `_converge_capabilities`. -/
def convergeRow (outcome : Outcome) (state : Converging)
    (row : CapabilityRow) : Converging :=
  if !row.enabled then state
  else
    match childToGroup.lookup row.child, childToSlotName.lookup row.child with
    | some group, some slotName =>
      (state.touch slotName).attempt outcome
        (.apply group row.child row.device row.provider row.model)
        (slotName ++ "/" ++ row.child) fun report =>
          { report with capabilitiesApplied :=
              report.capabilitiesApplied ++ [slotName ++ "/" ++ row.child] }
    | _, _ =>
      if row.child ∈ retiredChildren then state
      else state.fail ("capability:" ++ row.child) "unknown capability child"

/-- `_converge_capabilities`, for one entry. -/
def convergeRows (outcome : Outcome) (state : Converging)
    (entry : SlotEntry) : Converging :=
  entry.capabilities.foldl (convergeRow outcome) state

/-- One slot of `_converge_unload`. -/
def convergeUnload (outcome : Outcome) (state : Converging)
    (name : String) : Converging :=
  state.attempt outcome (.unload name) name fun report =>
    { report with unloaded := report.unloaded ++ [name] }

/-- The first two passes of `converge`. -/
def startPasses (outcome : Outcome) (resets : Bool)
    (changedSlots : List String) (listed : List Snapshot)
    (stack : StackConfig) : Converging :=
  stack.slots.foldl (convergeRows outcome)
    (stack.slots.foldl
      (convergeEntry outcome resets changedSlots (byName listed))
      ⟨.empty, [], []⟩)

/-- `converge` -/
def converge (outcome : Outcome) (resets : Bool) (changedSlots : List String)
    (listed : List Snapshot) (stack : StackConfig) : Converging :=
  let started := startPasses outcome resets changedSlots listed stack
  (unloadTargets (byName listed) started.touched).foldl
    (convergeUnload outcome) started

/-! ## What is expected of it -/

/-- The slot that the call unloads. -/
def Call.unloads : Call → Option String
  | .unload slot => some slot
  | _ => none

/--
The name of the slot which a call is to bring up; a capability is applied to
the slot which the orchestrator has for it.
-/
def Call.starts : Call → Option String
  | .load slot _ | .swap slot _ | .restart slot => some slot
  | .apply group child _ _ _ => childToSlot.lookup (group, child)
  | _ => none

/-- The slot which a call brings up. -/
def Call.bringsUp (dir : Directory) (call : Call) : Option String :=
  call.starts.bind (resolveAlias dir)

/-- The slot which a call takes down. -/
def Call.takesDown (dir : Directory) (call : Call) : Option String :=
  call.unloads.bind (resolveAlias dir)

/-- The preview tells what a commit unloads, which is nothing it brought up. -/
structure Truthful (dir : Directory) (outcome : Outcome) (resets : Bool)
    (changedSlots : List String) (listed : List Snapshot)
    (stack : StackConfig) : Prop where
  preview : (converge outcome resets changedSlots listed stack).calls.filterMap
      Call.unloads = plannedUnloads listed stack
  spared : ∀ call ∈ (converge outcome resets changedSlots listed stack).calls,
    ∀ slot, call.bringsUp dir = some slot →
      ∀ other ∈ (converge outcome resets changedSlots listed stack).calls,
        other.takesDown dir ≠ some slot

/-! ## When it is met -/

/-- The first pass makes no call: the slot is moving, or as it is to be. -/
def skips (changedSlots : List String) (slot model : String) :
    Option Snapshot → Bool
  | none => false
  | some snapshot => isTransitional snapshot.state ||
      snapshot.state.isDispatchable && snapshot.modelId = some model &&
        slot ∉ changedSlots

/-- The stack has the name, for an entry with a model or for a capability. -/
def StackConfig.Names (stack : StackConfig) (name : String) : Prop :=
  (∃ entry ∈ stack.slots, entry.carried.isSome ∧ entry.slot = name) ∨
    ∃ entry ∈ stack.slots, ∃ row ∈ entry.capabilities,
      touchedByRow row = some name

/-- The stack has the name for a slot which is to be brought up. -/
def StackConfig.Starts (changedSlots : List String) (listed : List Snapshot)
    (stack : StackConfig) (name : String) : Prop :=
  (∃ entry ∈ stack.slots, ∃ model, entry.carried = some model ∧
      entry.slot = name ∧
      skips changedSlots name model ((byName listed).lookup name) = false) ∨
    ∃ entry ∈ stack.slots, ∃ row ∈ entry.capabilities,
      touchedByRow row = some name

/--
No running slot which the stack has no name for is, by an alias, one which is
to be brought up.
-/
def AliasesApart (dir : Directory) (changedSlots : List String)
    (listed : List Snapshot) (stack : StackConfig) : Prop :=
  ∀ item ∈ byName listed, item.2.state.isDispatchable = true →
    ¬ stack.Names item.1 →
      ∀ name, stack.Starts changedSlots listed name →
        ∀ slot, resolveAlias dir name = some slot →
          resolveAlias dir item.1 ≠ some slot

/-! ## The first two passes -/

def Converging.unloads (state : Converging) : List String :=
  state.calls.filterMap Call.unloads

def Converging.starts (state : Converging) : List String :=
  state.calls.filterMap Call.starts

/--
A step touches the slots of a list, unloads none, and is to bring up those of
another list: these and no others where every call returns.
-/
structure Makes (outcome : Outcome) (before after : Converging)
    (slots names : List String) : Prop where
  touched : after.touched = before.touched ++ slots
  unloads : after.unloads = before.unloads
  starts : ∃ made, made <+ names ∧ after.starts = before.starts ++ made
  exact : (∀ calls, outcome calls = none) →
    after.starts = before.starts ++ names

section
variable {outcome : Outcome} {resets : Bool} {changedSlots : List String}
  {snapshots : Snapshots} {before middle after state : Converging}
  {first second one two : List String}

theorem Makes.refl (state : Converging) : Makes outcome state state [] [] where
  touched := (append_nil _).symm
  unloads := rfl
  starts := ⟨[], .refl _, (append_nil _).symm⟩
  exact := fun _ => (append_nil _).symm

theorem Makes.trans (left : Makes outcome before middle first one)
    (right : Makes outcome middle after second two) :
    Makes outcome before after (first ++ second) (one ++ two) where
  touched := by
    rw [right.touched, left.touched, append_assoc]
  unloads := right.unloads.trans left.unloads
  starts := by
    obtain ⟨early, isEarly, madeEarly⟩ := left.starts
    obtain ⟨late, isLate, madeLate⟩ := right.starts
    refine ⟨early ++ late, isEarly.append isLate, ?_⟩
    rw [madeLate, madeEarly, append_assoc]
  exact := by
    intro returns
    rw [right.exact returns, left.exact returns, append_assoc]

theorem Makes.noted (makes : Makes outcome before after first one)
    (noted : ConvergeReport → ConvergeReport) :
    Makes outcome before (after.note noted) first one :=
  ⟨makes.touched, makes.unloads, makes.starts, makes.exact⟩

theorem Makes.failed (makes : Makes outcome before after first one)
    (target message : String) :
    Makes outcome before (after.fail target message) first one :=
  makes.noted _

theorem Makes.touch (state : Converging) (slot : String) :
    Makes outcome state (state.touch slot) [slot] [] where
  touched := rfl
  unloads := rfl
  starts := ⟨[], .refl _, (append_nil _).symm⟩
  exact := fun _ => (append_nil _).symm

theorem Makes.called (call : Call) (loads : call.unloads = none) :
    Makes outcome state (state.called call) [] call.starts.toList := by
  have starts : (state.called call).starts =
      state.starts ++ call.starts.toList := by
    rw [Converging.starts, Converging.called, filterMap_append]
    cases made : call.starts with
    | none => rw [filterMap_cons_none made]; rfl
    | some name => rw [filterMap_cons_some made]; rfl
  refine ⟨(append_nil _).symm, ?_, ⟨_, .refl _, starts⟩, fun _ => starts⟩
  rw [Converging.unloads, Converging.called, filterMap_append,
    filterMap_cons_none loads]
  exact append_nil _

/-- A call is made, whether it returns or not. -/
theorem Makes.attempt (call : Call) (loads : call.unloads = none)
    (target : String) (report : ConvergeReport → ConvergeReport) :
    Makes outcome state (state.attempt outcome call target report) []
      call.starts.toList := by
  have called : Makes outcome state (state.called call) []
      call.starts.toList := .called call loads
  rw [Converging.attempt]
  split
  · exact called.noted _
  · exact called.failed _ _

theorem makes_loadModel (slot model : String) :
    Makes outcome state (loadModel outcome slot model state) [] [slot] :=
  Makes.attempt (.load slot model) rfl _ _

/-- Only where the reset raises, the model is not loaded. -/
theorem makes_loadPrimary (slot model : String) :
    Makes outcome state (loadPrimary outcome resets slot model state) []
      [slot] := by
  have reset : Makes outcome state
      (state.called (.resetLoadFailures slot)) [] [] :=
    Makes.called (.resetLoadFailures slot) rfl
  rw [loadPrimary]
  split
  · split
    · exact reset.trans (makes_loadModel slot model)
    · next message raises =>
        have failed := reset.failed slot message
        refine ⟨failed.touched, failed.unloads, ?_, ?_⟩
        · obtain ⟨made, isMade, starts⟩ := failed.starts
          exact ⟨made, isMade.trans (nil_sublist _), starts⟩
        · intro returns
          rw [returns] at raises
          cases raises
  · exact makes_loadModel slot model

/-- An entry unloads nothing. -/
theorem makes_convergePrimary (slot model : String)
    (snapshot : Option Snapshot) :
    Makes outcome state
      (convergePrimary outcome resets changedSlots slot model snapshot state)
      [] (if skips changedSlots slot model snapshot then [] else [slot]) := by
  have restarts : ∀ noted, Makes outcome state
      (state.attempt outcome (.restart slot) slot noted) [] [slot] :=
    Makes.attempt (.restart slot) rfl slot
  have swaps : ∀ noted, Makes outcome state
      (state.attempt outcome (.swap slot model) slot noted) [] [slot] :=
    Makes.attempt (.swap slot model) rfl slot
  cases snapshot with
  | none => exact makes_loadPrimary slot model
  | some snapshot =>
    by_cases moves : isTransitional snapshot.state
    · simp only [convergePrimary, skips, moves, if_true, Bool.true_or]
      exact (Makes.refl state).noted _
    by_cases runs : snapshot.state.isDispatchable
    · by_cases serves : snapshot.modelId = some model
      · by_cases changed : slot ∈ changedSlots
        · simpa [convergePrimary, skips, moves, runs, serves, changed] using
            restarts _
        · simpa [convergePrimary, skips, moves, runs, serves, changed] using
            (Makes.refl state).noted _
      · simpa [convergePrimary, skips, moves, runs, serves] using
          swaps _
    · simpa [convergePrimary, skips, moves, runs] using
        makes_loadPrimary slot model

/-- The name of an entry which is not skipped. -/
def SlotEntry.started (changedSlots : List String) (snapshots : Snapshots)
    (entry : SlotEntry) : List String :=
  match entry.carried with
  | none => []
  | some model =>
    if skips changedSlots entry.slot model (snapshots.lookup entry.slot) then []
    else [entry.slot]

theorem makes_convergeEntry (state : Converging) (entry : SlotEntry) :
    Makes outcome state
      (convergeEntry outcome resets changedSlots snapshots state entry)
      (if entry.carried.isSome then [entry.slot] else [])
      (entry.started changedSlots snapshots) := by
  rw [convergeEntry, SlotEntry.started]
  cases entry.carried with
  | none => exact .refl state
  | some model =>
    exact (Makes.touch state entry.slot).trans
      (makes_convergePrimary entry.slot model _)

theorem mem_of_lookup {Key Value : Type} [BEq Key] [LawfulBEq Key]
    {items : List (Key × Value)} {key : Key} {value : Value}
    (found : items.lookup key = some value) : (key, value) ∈ items := by
  obtain ⟨before, after, rfl, _⟩ := lookup_eq_some_iff.mp found
  exact mem_append_right _ mem_cons_self

theorem childToSlot_agrees {group child slot : String}
    (isGroup : childToGroup.lookup child = some group)
    (isSlot : childToSlotName.lookup child = some slot) :
    childToSlot.lookup (group, child) = some slot := by
  have agrees : ∀ first ∈ childToGroup, ∀ second ∈ childToSlotName,
      first.1 = second.1 →
        childToSlot.lookup (first.2, first.1) = some second.2 := by
    decide
  exact agrees _ (mem_of_lookup isGroup) _ (mem_of_lookup isSlot) rfl

/-- Nor does a capability. -/
theorem makes_convergeRow (state : Converging) (row : CapabilityRow) :
    Makes outcome state (convergeRow outcome state row)
      (touchedByRow row).toList (touchedByRow row).toList := by
  rw [convergeRow, touchedByRow]
  split
  · exact .refl state
  · split
    · next group slot isGroup isSlot =>
        have applied := @Makes.attempt outcome (state.touch slot)
          (.apply group row.child row.device row.provider row.model) rfl
        rw [Call.starts, childToSlot_agrees isGroup isSlot] at applied
        rw [isGroup, isSlot]
        exact (Makes.touch state slot).trans (applied _ _)
    · next unknown =>
        have noSlot : (if (childToGroup.lookup row.child).isNone = true then
            none else childToSlotName.lookup row.child) = none := by
          cases isGroup : childToGroup.lookup row.child with
          | none => rfl
          | some group =>
            cases isSlot : childToSlotName.lookup row.child with
            | none => rfl
            | some slot => exact absurd isSlot (unknown group slot isGroup)
        rw [noSlot]
        split
        · exact .refl state
        · exact (Makes.refl state).failed _ _

theorem Makes.foldl {Item : Type} {step : Converging → Item → Converging}
    {slots names : Item → List String}
    (each : ∀ state item,
      Makes outcome state (step state item) (slots item) (names item))
    (items : List Item) (state : Converging) :
    Makes outcome state (items.foldl step state) (items.flatMap slots)
      (items.flatMap names) := by
  induction items generalizing state with
  | nil => exact .refl state
  | cons item items ih =>
    exact (each state item).trans (ih (step state item))

theorem makes_convergeRows (state : Converging) (entry : SlotEntry) :
    Makes outcome state (convergeRows outcome state entry)
      (entry.capabilities.filterMap touchedByRow)
      (entry.capabilities.filterMap touchedByRow) := by
  have rows : Makes outcome state
      (entry.capabilities.foldl (convergeRow outcome) state)
      (entry.capabilities.flatMap fun row => (touchedByRow row).toList)
      (entry.capabilities.flatMap fun row => (touchedByRow row).toList) :=
    Makes.foldl makes_convergeRow _ _
  rw [← filterMap_eq_flatMap_toList] at rows
  exact rows

end

theorem flatMap_carried (entries : List SlotEntry) :
    (entries.flatMap fun entry =>
      if entry.carried.isSome then [entry.slot] else []) =
      (entries.filter fun entry => entry.carried.isSome).map
        SlotEntry.slot := by
  induction entries with
  | nil => rfl
  | cons entry entries ih =>
    rw [flatMap_cons, ih, filter_cons]
    cases entry.carried.isSome <;> rfl

theorem mem_stackTouchedSlots {stack : StackConfig} {name : String} :
    name ∈ stackTouchedSlots stack ↔ stack.Names name := by
  simp only [stackTouchedSlots, StackConfig.Names, mem_append, mem_map,
    mem_filter, mem_flatMap, mem_filterMap, and_assoc]

/-- What the first two passes are to bring up, entries first. -/
def StackConfig.started (changedSlots : List String) (listed : List Snapshot)
    (stack : StackConfig) : List String :=
  stack.slots.flatMap (SlotEntry.started changedSlots (byName listed)) ++
    stack.slots.flatMap fun entry => entry.capabilities.filterMap touchedByRow

theorem mem_entry_started {changedSlots : List String} {snapshots : Snapshots}
    {entry : SlotEntry} {name : String} :
    name ∈ entry.started changedSlots snapshots ↔
      ∃ model, entry.carried = some model ∧ entry.slot = name ∧
        skips changedSlots name model (snapshots.lookup name) = false := by
  rw [SlotEntry.started]
  cases entry.carried with
  | none => simp
  | some model =>
    by_cases same : entry.slot = name
    · subst same
      cases skipped : skips changedSlots entry.slot model
        (snapshots.lookup entry.slot) <;> simp
    · have differs : name ≠ entry.slot := Ne.symm same
      split <;> simp [same, differs]

theorem mem_started {changedSlots : List String} {listed : List Snapshot}
    {stack : StackConfig} {name : String} :
    name ∈ stack.started changedSlots listed ↔
      stack.Starts changedSlots listed name := by
  simp only [StackConfig.started, StackConfig.Starts, mem_append, mem_flatMap,
    mem_entry_started, mem_filterMap]

theorem makes_startPasses (outcome : Outcome) (resets : Bool)
    (changedSlots : List String) (listed : List Snapshot)
    (stack : StackConfig) :
    Makes outcome ⟨.empty, [], []⟩
      (startPasses outcome resets changedSlots listed stack)
      (stackTouchedSlots stack) (stack.started changedSlots listed) := by
  have primary : Makes outcome ⟨.empty, [], []⟩
      (stack.slots.foldl
        (convergeEntry outcome resets changedSlots (byName listed))
        ⟨.empty, [], []⟩)
      (stack.slots.flatMap fun entry =>
        if entry.carried.isSome then [entry.slot] else [])
      (stack.slots.flatMap
        (SlotEntry.started changedSlots (byName listed))) :=
    Makes.foldl makes_convergeEntry _ _
  rw [flatMap_carried] at primary
  exact primary.trans (Makes.foldl makes_convergeRows _ _)

/-! ## The unload pass -/

theorem calls_convergeUnload (outcome : Outcome) (names : List String)
    (state : Converging) :
    (names.foldl (convergeUnload outcome) state).calls =
      state.calls ++ names.map Call.unload := by
  induction names generalizing state with
  | nil => exact (append_nil _).symm
  | cons name names ih =>
    have tried : (convergeUnload outcome state name).calls =
        state.calls ++ [.unload name] := by
      rw [convergeUnload, Converging.attempt]
      split
      · rfl
      · rfl
    rw [foldl_cons, ih, tried, append_assoc]
    rfl

theorem filterMap_unload (names : List String) :
    (names.map Call.unload).filterMap Call.unloads = names := by
  induction names with
  | nil => rfl
  | cons name names ih =>
    exact congrArg (name :: ·) ih

theorem filterMap_starts_unload (names : List String) :
    (names.map Call.unload).filterMap Call.starts = [] := by
  induction names with
  | nil => rfl
  | cons name names ih => exact ih

section
variable (outcome : Outcome) (resets : Bool) (changedSlots : List String)
  (listed : List Snapshot) (stack : StackConfig)

theorem calls_converge :
    (converge outcome resets changedSlots listed stack).calls =
      (startPasses outcome resets changedSlots listed stack).calls ++
        (plannedUnloads listed stack).map Call.unload := by
  rw [converge, calls_convergeUnload,
    (makes_startPasses outcome resets changedSlots listed stack).touched]
  rfl

/-- The preview is what the last pass unloads, whatever fails. -/
theorem unloads_converge :
    (converge outcome resets changedSlots listed stack).unloads =
      plannedUnloads listed stack := by
  rw [Converging.unloads, calls_converge, filterMap_append, filterMap_unload]
  have quiet :=
    (makes_startPasses outcome resets changedSlots listed stack).unloads
  rw [Converging.unloads] at quiet
  rw [quiet]
  rfl

theorem starts_converge :
    (converge outcome resets changedSlots listed stack).starts =
      (startPasses outcome resets changedSlots listed stack).starts := by
  rw [Converging.starts, calls_converge, filterMap_append,
    filterMap_starts_unload, append_nil]
  rfl

theorem mem_plannedUnloads {name : String} :
    name ∈ plannedUnloads listed stack ↔
      ∃ item ∈ byName listed, item.2.state.isDispatchable = true ∧
        ¬ stack.Names item.1 ∧ item.1 = name := by
  simp only [plannedUnloads, unloadTargets, mem_map, mem_filter,
    Bool.and_eq_true, decide_eq_true_eq, mem_stackTouchedSlots]
  grind

end

section
variable {dir : Directory} {outcome : Outcome} {resets : Bool}
  {changedSlots : List String} {listed : List Snapshot} {stack : StackConfig}

/-- Whatever fails, what is brought up is not unloaded. -/
theorem AliasesApart.truthful
    (apart : AliasesApart dir changedSlots listed stack) :
    Truthful dir outcome resets changedSlots listed stack := by
  refine ⟨unloads_converge outcome resets changedSlots listed stack, ?_⟩
  intro call isCall slot isUp other isOther isDown
  obtain ⟨name, isName, reads⟩ := Option.bind_eq_some_iff.mp isUp
  obtain ⟨target, isTarget, readsToo⟩ := Option.bind_eq_some_iff.mp isDown
  have started : name ∈ stack.started changedSlots listed := by
    have made := mem_filterMap.mpr ⟨call, isCall, isName⟩
    obtain ⟨names, within, starts⟩ :=
      (makes_startPasses outcome resets changedSlots listed stack).starts
    rw [← Converging.starts, starts_converge, starts] at made
    exact within.subset made
  have unloaded : target ∈ plannedUnloads listed stack := by
    rw [← unloads_converge outcome resets changedSlots]
    exact mem_filterMap.mpr ⟨other, isOther, isTarget⟩
  obtain ⟨item, isItem, runs, unnamed, rfl⟩ :=
    (mem_plannedUnloads listed stack).mp unloaded
  exact apart item isItem runs unnamed name (mem_started.mp started) slot
    reads readsToo

/-- Where every call returns, each slot which is to be brought up is. -/
theorem Truthful.apart
    (truthful : Truthful dir (fun _ => none) resets changedSlots listed
      stack) :
    AliasesApart dir changedSlots listed stack := by
  intro item isItem runs unnamed name starts slot reads readsToo
  have made : name ∈ (converge (fun _ => none) resets changedSlots listed
      stack).starts := by
    rw [starts_converge, (makes_startPasses (fun _ => none) resets
      changedSlots listed stack).exact fun _ => rfl]
    exact mem_append_right _ (mem_started.mpr starts)
  have unloaded : item.1 ∈ (converge (fun _ => none) resets changedSlots
      listed stack).unloads := by
    rw [unloads_converge]
    exact (mem_plannedUnloads listed stack).mpr
      ⟨item, isItem, runs, unnamed, rfl⟩
  obtain ⟨call, isCall, isName⟩ := mem_filterMap.mp made
  obtain ⟨other, isOther, isTarget⟩ := mem_filterMap.mp unloaded
  refine truthful.spared call isCall slot ?_ other isOther ?_
  · exact Option.bind_eq_some_iff.mpr ⟨name, isName, reads⟩
  · exact Option.bind_eq_some_iff.mpr ⟨item.1, isTarget, readsToo⟩

end

/--
Aliases apart are enough whatever fails, and needed already where no call
does.
-/
theorem converge_truthful (dir : Directory) (resets : Bool)
    (changedSlots : List String) (listed : List Snapshot)
    (stack : StackConfig) :
    ((∀ outcome, Truthful dir outcome resets changedSlots listed stack) ↔
        AliasesApart dir changedSlots listed stack) ∧
      (Truthful dir (fun _ => none) resets changedSlots listed stack ↔
        AliasesApart dir changedSlots listed stack) :=
  ⟨⟨fun truthful => (truthful _).apart, fun apart _ => apart.truthful⟩,
    ⟨Truthful.apart, AliasesApart.truthful⟩⟩

/-! ## A slot under its old name -/

/-- The only slot of the box, which serves. -/
def rerankDirectory : Directory where
  files := [("rerank", .parsed ⟨some (.text "rerank"), none⟩)]
  ordered := by decide
  named := by decide

def rerankListed : List Snapshot :=
  [⟨"rerank", .ready, some "reranker"⟩]

/-- A stack which was saved when the slot was `embed-rerank`. -/
def oldStack : StackConfig :=
  ⟨[⟨"embed-rerank", some "reranker", []⟩]⟩

/-- The slot is loaded by its alias, and unloaded in the same run. -/
theorem alias_unloaded :
    (converge (fun _ => none) true [] rerankListed oldStack).calls =
        [.resetLoadFailures "embed-rerank", .load "embed-rerank" "reranker",
          .unload "rerank"] ∧
      resolveAlias rerankDirectory "embed-rerank" = some "rerank" ∧
      ¬ Truthful rerankDirectory (fun _ => none) true [] rerankListed
        oldStack := by
  have calls : (converge (fun _ => none) true [] rerankListed
      oldStack).calls = [.resetLoadFailures "embed-rerank",
        .load "embed-rerank" "reranker", .unload "rerank"] := by
    rfl
  have reads : resolveAlias rerankDirectory "embed-rerank" =
      some "rerank" := by
    decide
  refine ⟨calls, reads, fun truthful => ?_⟩
  have spared := truthful.spared
  rw [calls] at spared
  refine spared (.load "embed-rerank" "reranker") (by simp) "rerank" reads
    (.unload "rerank") (by simp) ?_
  decide

end Hal0.Stacks
