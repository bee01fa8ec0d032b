import Hal0.Slots.CrossSlot
import Hal0.Slots.StackSerial

/-!
# The slot files under every writer

The creates, updates, persisted models and stack applies of several processes,
in any order.  The conditions of the writers are in `guarded`; each of them is
needed, as the runs at the end show.
-/

namespace Hal0.Slots.ConfigFiles

open Function Option
open Std Hal0.Transition

/-! ## The conditions -/

/-- The step is one of the three writers. -/
def Writing (_ : Writers) (action : Action) : Prop :=
  (match action with
    | .capability _ => false
    | _ => true) = true

/-- The persisted model passes the check which the load does not make. -/
def persistPasses (rules : Rules) (rows : Rows) (dir : Directory)
    (name : SlotName) (model : String) (record : Option StateRecord) : Bool :=
  (baseConfig rules rows dir name record).all fun base =>
    checkNpuExclusivity dir name (withModelDefault base model)

/-- The checks of a create pass at its write as well. -/
def checksStand (dir : Directory) : Creating → Bool
  | .checked name cfg =>
    checkNpuExclusivity dir name cfg && checkDefaultUniqueness dir name cfg
  | _ => true

/-- The condition of each writer. -/
def guarded (rules : Rules) (rows : Rows) (state : Writers) : Action → Bool
  | .update name updates _ =>
    validName name && "slot" ∉ updates.keys && "name" ∉ updates.keys &&
      keepsMarker rows state.dir name updates
  | .persist name model record =>
    validName name && keepsMarker rows state.dir name [] &&
      persistPasses rules rows state.dir name model record
  | .create _ name cfg =>
    validName name && (slotTable cfg).isNone &&
      (nameOf cfg = none || nameOf cfg = some (.leaf (.text name)))
  | .writeNew task _ => (state.creating task).all (checksStand state.dir)
  | .applyConfig task =>
    (state.applying task).all fun applying =>
      asPlanned rules state.dir applying &&
        oneAnchor state.dir applying.entries
  | .capability _ => false
  | _ => true

/-- The step is checked, and nothing came between. -/
def Guarded (rules : Rules) (rows : Rows) (state : Writers)
    (action : Action) : Prop :=
  guarded rules rows state action = true

instance (state : Writers) (action : Action) :
    Decidable (Writing state action) :=
  inferInstanceAs (Decidable (_ = true))

instance (rules : Rules) (rows : Rows) (state : Writers) (action : Action) :
    Decidable (Guarded rules rows state action) :=
  inferInstanceAs (Decidable (_ = true))

/-! ## Runs -/

/-- The config was accepted. -/
def Creating.Sound : Creating → Prop
  | .prepared name cfg | .npuChecked name cfg | .marked name cfg
  | .checked name cfg => Creatable name cfg

/-- What holds across the slots, with what is known of the open writers. -/
structure Coherent (rules : Rules) (rows : Rows) (state : Writers) : Prop where
  cross : CrossSlot state.dir
  keyed : Keyed rows state.dir
  creates : ∀ task creating, state.creating task = some creating →
    creating.Sound
  plans : ∀ task applying, state.applying task = some applying →
    Planning rules applying

namespace Coherent

variable {rules : Rules} {rows : Rows} {state next : Writers}

variable {dir : Directory}

theorem start (cross : CrossSlot dir)
    (keyed : Keyed rows dir) : Coherent rules rows (.start dir) where
  cross := cross
  keyed := keyed
  creates _ _ pending := by cases pending
  plans _ _ pending := by cases pending

section

variable (coherent : Coherent rules rows state)
include coherent

theorem withDir (written : CrossSlot dir ∧ Keyed rows dir) :
    Coherent rules rows { state with dir := dir } where
  cross := written.1
  keyed := written.2
  creates := coherent.creates
  plans := coherent.plans

theorem wrote (written : CrossSlot dir ∧ Keyed rows dir)
    (operation : Operation) :
    Coherent rules rows (state.wrote operation dir) where
  cross := written.1
  keyed := written.2
  creates := coherent.creates
  plans := coherent.plans

theorem setCreating (task : TaskId) {now : Option Creating}
    (sound : ∀ creating, now = some creating → creating.Sound) :
    Coherent rules rows (state.setCreating task now) where
  cross := coherent.cross
  keyed := coherent.keyed
  creates other creating pending := by
    by_cases same : other = task
    · subst same
      rw [Writers.creating_setCreating, update_self] at pending
      exact sound creating pending
    · rw [Writers.creating_setCreating, update_of_ne same] at pending
      exact coherent.creates other creating pending
  plans := coherent.plans

theorem setApplying (task : TaskId) {now : Option Applying}
    (sound : ∀ applying, now = some applying → Planning rules applying) :
    Coherent rules rows (state.setApplying task now) where
  cross := coherent.cross
  keyed := coherent.keyed
  creates := coherent.creates
  plans other applying pending := by
    by_cases same : other = task
    · subst same
      rw [Writers.applying_setApplying, update_self] at pending
      exact sound applying pending
    · rw [Writers.applying_setApplying, update_of_ne same] at pending
      exact coherent.plans other applying pending

end

variable {action : Action}

section

variable (coherent : Coherent rules rows state)
include coherent

theorem stepCreate {task : TaskId} {creating : Creating}
    (pending : state.creating task = some creating)
    (stands : ∀ port, action = .writeNew task port →
      checksStand state.dir creating = true)
    (isTask : ∀ other port, action = .writeNew other port → other = task)
    (moved : state.stepCreate rows task creating action = some next) :
    Coherent rules rows next := by
  have sound := coherent.creates task creating pending
  unfold Writers.stepCreate at moved
  split at moved
  · split at moved
    · cases moved
      apply coherent.setCreating task
      intro now isNow
      cases isNow
      exact sound
    · cases moved
  · cases moved
    apply coherent.setCreating task
    intro now isNow
    cases isNow
    exact Creatable.agree sound (agreeOff_markDefault _ _ _) (by decide)
  · split at moved
    · cases moved
      apply coherent.setCreating task
      intro now isNow
      cases isNow
      exact sound
    · cases moved
  · next name cfg other port =>
      obtain ⟨dir, written, rfl⟩ := map_eq_some_iff.mp moved
      obtain rfl := isTask other port rfl
      have passes := stands port rfl
      rw [checksStand, Bool.and_eq_true] at passes
      exact (coherent.setCreating other (by simp)).withDir
        (coherent.cross.writeNew coherent.keyed sound passes.1 passes.2
          written)
  · cases moved

theorem createStep {task : TaskId}
    (stands : ∀ port, action = .writeNew task port →
      (state.creating task).all (checksStand state.dir) = true)
    (isTask : ∀ other port, action = .writeNew other port → other = task)
    (moved : state.createStep rows task action = some next) :
    Coherent rules rows next := by
  obtain ⟨creating, pending, stepped⟩ := bind_eq_some_iff.mp moved
  apply coherent.stepCreate pending _ isTask stepped
  intro port isWrite
  simpa [pending] using stands port isWrite

theorem commitPlan {task : TaskId} {applying : Applying}
    (pending : state.applying task = some applying)
    (same : asPlanned rules state.dir applying = true)
    (one : oneAnchor state.dir applying.entries = true)
    (moved : state.commitPlan task applying = some next) :
    Coherent rules rows next := by
  unfold Writers.commitPlan at moved
  split at moved
  · next complete =>
      cases moved
      have changes := (coherent.plans task applying pending).changes_eq
        (List.isEmpty_iff.mp complete) same
      apply (coherent.setApplying task (by simp)).wrote
      rw [changes]
      exact ⟨coherent.cross.commit coherent.keyed one,
        coherent.keyed.commit⟩
  · cases moved

theorem step (permitted : Guarded rules rows state action)
    (moved : state.step rules rows action = some next) :
    Coherent rules rows next := by
  unfold Guarded at permitted
  cases action with
  | update name updates record =>
    obtain ⟨dir, updated, rfl⟩ := map_eq_some_iff.mp moved
    simp only [guarded, Bool.and_eq_true, decide_eq_true_eq] at permitted
    obtain ⟨⟨⟨valid, noSlot⟩, noName⟩, keeps⟩ := permitted
    exact coherent.wrote (coherent.cross.updateConfig coherent.keyed valid
      noSlot noName keeps updated) _
  | persist name model record =>
    obtain ⟨dir, persisted, rfl⟩ := map_eq_some_iff.mp moved
    obtain ⟨base, loaded, rfl⟩ := map_eq_some_iff.mp persisted
    simp only [guarded, persistPasses, loaded, all_some,
      Bool.and_eq_true] at permitted
    obtain ⟨⟨valid, keeps⟩, npu⟩ := permitted
    exact coherent.withDir (coherent.cross.persistModelDefault
      coherent.keyed valid loaded npu keeps)
  | create task name cfg =>
    simp only [Writers.step] at moved
    split at moved
    · obtain ⟨prepared, isPrepared, rfl⟩ :=
        map_eq_some_iff.mp moved
      simp only [guarded, Bool.and_eq_true, Bool.or_eq_true,
        isNone_iff_eq_none, decide_eq_true_eq] at permitted
      have creatable : Creatable name cfg :=
        ⟨permitted.1.1, permitted.1.2, permitted.2⟩
      apply coherent.setCreating task
      intro now isNow
      cases isNow
      exact creatable.agree (agreeOff_preparedConfig isPrepared) (by decide)
    · cases moved
  | checkNpu task => exact coherent.createStep (by simp) (by simp) moved
  | markDefault task => exact coherent.createStep (by simp) (by simp) moved
  | checkDefault task => exact coherent.createStep (by simp) (by simp) moved
  | writeNew task port =>
    exact coherent.createStep (fun _ _ => permitted) (by simp [eq_comm])
      moved
  | plan task entries =>
    simp only [Writers.step] at moved
    split at moved
    · cases moved
      apply coherent.setApplying task
      intro now isNow
      cases isNow
      exact .begin rules entries
    · cases moved
  | planNext task =>
    obtain ⟨applying, pending, planned⟩ :=
      bind_eq_some_iff.mp moved
    unfold Writers.planNextEntry at planned
    split at planned
    · cases planned
    · next entry rest isNext =>
        cases planned
        apply coherent.setApplying task
        intro now isNow
        cases isNow
        exact (coherent.plans task applying pending).next state.dir isNext
  | applyConfig task =>
    obtain ⟨applying, pending, committed⟩ :=
      bind_eq_some_iff.mp moved
    simp only [guarded, pending, all_some, Bool.and_eq_true]
      at permitted
    exact coherent.commitPlan pending permitted.1 permitted.2 committed
  | capability selection => exact absurd permitted Bool.false_ne_true

end

end Coherent

/--
From a directory whose files are keyed by the names or the ids of their slots,
with one NPU anchor and one default of every type, every run whose steps meet
the conditions of their writers leaves it so.
-/
theorem crossSlot_of_guarded (rules : Rules) (rows : Rows) (dir : Directory)
    (keyed : Keyed rows dir) (cross : CrossSlot dir) (actions : List Action)
    (target : Writers)
    (run : Run (Writers.step rules rows) (Guarded rules rows) (.start dir)
      actions target) :
    CrossSlot target.dir := by
  have coherent := run.invariant (Coherent rules rows) (.start cross keyed)
    fun _ _ _ coherent permitted moved => coherent.step permitted moved
  exact coherent.cross

/-! ## Checking a directory -/

/-- Two files which claim one thing are of one slot. -/
def compatible (first second : Stem × Doc) : Bool :=
  slotOf first.1 first.2 = slotOf second.1 second.2 ||
    (!(claimsNpuAnchor (hoist first.2) && claimsNpuAnchor (hoist second.2)) &&
      ((defaultType (hoist first.2)).isNone ||
        defaultType (hoist first.2) ≠ defaultType (hoist second.2)))

/-- Every two files can stand together. -/
def crossChecked (dir : Directory) : Bool :=
  dir.toList.all fun first => dir.toList.all (compatible first)

/-- The rules can be evaluated. -/
theorem crossChecked_iff (dir : Directory) :
    crossChecked dir = true ↔ CrossSlot dir := by
  simp only [crossChecked, List.all_eq_true, Prod.forall,
    ExtTreeMap.mem_toList_iff_getElem?_eq_some]
  constructor
  · intro checked
    constructor
    · intro stem doc other second here there claims claimsToo
      simpa [compatible, claims, claimsToo] using
        checked stem doc here other second there
    · intro type stem doc other second here there marked markedToo
      simp only [isDefaultOf, decide_eq_true_eq] at marked markedToo
      simpa [compatible, marked, markedToo] using
        checked stem doc here other second there
  · intro cross stem doc here other second there
    by_cases same : slotOf stem doc = slotOf other second
    · simp [compatible, same]
    · have noAnchor : (claimsNpuAnchor (hoist doc) &&
          claimsNpuAnchor (hoist second)) = false := by
        rw [Bool.eq_false_iff, ne_eq, Bool.and_eq_true]
        rintro ⟨claims, claimsToo⟩
        exact same (cross.anchor _ _ _ _ here there claims claimsToo)
      have noDefault : (defaultType (hoist doc)).isNone = true ∨
          defaultType (hoist doc) ≠ defaultType (hoist second) := by
        cases marked : defaultType (hoist doc) with
        | none => exact Or.inl rfl
        | some type =>
          right
          intro markedToo
          exact same (cross.default type _ _ _ _ here there
            (by simp [isDefaultOf, marked])
            (by simp [isDefaultOf, ← markedToo]))
      simpa [compatible, same, noAnchor] using noDefault

instance (dir : Directory) : Decidable (CrossSlot dir) :=
  decidable_of_iff (crossChecked dir = true) (crossChecked_iff dir)

/-- Every file is under its slot's name. -/
def nameKeyed (dir : Directory) : Bool :=
  dir.toList.all fun file =>
    !isIdStem file.1 &&
      (nameOf file.2 = none || nameOf file.2 = some (.leaf (.text file.1)))

theorem keyed_of_nameKeyed {rows : Rows} {dir : Directory}
    (checked : nameKeyed dir = true) : Keyed rows dir := by
  intro stem doc found
  have file := List.all_eq_true.mp checked (stem, doc)
    (ExtTreeMap.mem_toList_iff_getElem?_eq_some.mpr found)
  simp only [Bool.and_eq_true, Bool.not_eq_true', Bool.or_eq_true,
    decide_eq_true_eq] at file
  refine ⟨fun _ => file.2, fun isId => ?_⟩
  rw [file.1] at isId
  cases isId

/-! ## A run which keeps the invariants, and the runs which do not -/

/-- Two slots for the NPU, without a model. -/
def idleAnchors : Directory :=
  ((∅ : Directory).insert "flm" (slotDoc "flm" "llm" "npu" "")).insert
    "npu" (slotDoc "npu" "llm" "npu" "")

/-- The first of them has a model, and there is a default chat slot. -/
def boundAnchor : Directory :=
  ((idleAnchors.insert "flm" (slotDoc "flm" "llm" "npu" "gemma")).insert
    "chat" ((slotDoc "chat" "llm" "gpu-vulkan" "qwen").insert
      "default" (.leaf (.flag true)))).insert
    "embed" ((slotDoc "embed" "embedding" "cpu" "nomic").insert
      "default" (.leaf (.flag true)))

/-- The other one has the nested shape. -/
def nestedAnchor : Directory :=
  boundAnchor.insert "npu"
    (((∅ : Doc).insert "slot" (.table ((((∅ : Table).insert
      "name" (.text "npu")).insert "type" (.text "llm")).insert
      "device" (.text "npu")))).insert
      "model" (.table ((∅ : Table).insert "default" (.text ""))))

def bindModel (slot : SlotName) : StackEntry :=
  { bindGemma with slot := slot }

/-- A stack apply from its plan to its commit. -/
def applyStack (entries : List StackEntry) : List Action :=
  .plan 1 entries :: entries.map (fun _ => .planNext 1) ++ [.applyConfig 1]

/-- A create which is let through by its checks. -/
def createChecked (name : SlotName) (cfg : Doc) : List Action :=
  [.create 1 name cfg, .checkNpu 1, .markDefault 1, .checkDefault 1]

/-- A stack binds one of the slots, and a slot of a new type is created. -/
def bindAndCreate : List Action :=
  applyStack [bindModel "flm"] ++
    createChecked "tts" (slotDoc "tts" "tts" "cpu" "kokoro") ++
    [.writeNew 1 none]

/-- A stack is applied and a slot created. -/
theorem crossSlot_bind_and_create :
    ∃ target,
      Run (Writers.step plainRules noRows) (Guarded plainRules noRows)
          (.start idleAnchors) bindAndCreate target ∧
        CrossSlot target.dir ∧
        (target.dir["flm"]?.any fun doc => claimsNpuAnchor (hoist doc)) =
          true := by
  obtain ⟨target, run, claims⟩ := Run.exists_of_exec
    (Writers.step plainRules noRows) (Guarded plainRules noRows)
    (.start idleAnchors) bindAndCreate
    (fun state =>
      state.dir["flm"]?.any fun doc => claimsNpuAnchor (hoist doc))
    (by decide +kernel)
  exact ⟨target, run, crossSlot_of_guarded plainRules noRows idleAnchors
    (keyed_of_nameKeyed (by decide +kernel)) (by decide +kernel) _ target run,
    claims⟩

/-- From a keyed directory in which they hold, the run ends where one fails. -/
def Breaks (dir : Directory) (actions : List Action) : Prop :=
  Keyed noRows dir ∧ CrossSlot dir ∧
    ∃ target, Run (Writers.step plainRules noRows) Writing (.start dir)
      actions target ∧ ¬ CrossSlot target.dir

theorem breaks_of_exec {dir : Directory} {actions : List Action}
    (keyed : nameKeyed dir = true) (cross : CrossSlot dir)
    (ends : (exec (Writers.step plainRules noRows) Writing (.start dir)
      actions).any (fun state => !crossChecked state.dir) = true) :
    Breaks dir actions := by
  refine ⟨keyed_of_nameKeyed keyed, cross, ?_⟩
  obtain ⟨target, run, fails⟩ := Run.exists_of_exec
    (Writers.step plainRules noRows) Writing (.start dir) actions
    (fun state => !crossChecked state.dir) ends
  refine ⟨target, run, fun holds => ?_⟩
  rw [(crossChecked_iff target.dir).mpr holds] at fails
  cases fails

/--
One stack binds two NPU slots; a stack binds the nested one, whose scalars the
guard does not see; a slot is bound between the checks of a create and its
write; a load persists the model of a second NPU slot; an update gives a
default the type of another; an update carries a `[slot]` table.
-/
theorem invariants_broken :
    Breaks idleAnchors (applyStack [bindModel "flm", bindModel "npu"]) ∧
    Breaks nestedAnchor (applyStack [bindModel "npu"]) ∧
    Breaks idleAnchors
      (createChecked "third" (slotDoc "third" "llm" "npu" "qwen") ++
        [.update "flm" [("model", .table [("default", some (.text "gemma"))])]
          none, .writeNew 1 none]) ∧
    Breaks boundAnchor [.persist "npu" "qwen" none] ∧
    Breaks boundAnchor
      [.update "embed" [("type", .leaf (.text "llm"))] none] ∧
    Breaks boundAnchor
      [.update "chat" [("slot", .table [("device", some (.text "npu"))])]
        none] :=
  ⟨breaks_of_exec (by decide +kernel) (by decide +kernel) (by decide +kernel),
    breaks_of_exec (by decide +kernel) (by decide +kernel) (by decide +kernel),
    breaks_of_exec (by decide +kernel) (by decide +kernel) (by decide +kernel),
    breaks_of_exec (by decide +kernel) (by decide +kernel) (by decide +kernel),
    breaks_of_exec (by decide +kernel) (by decide +kernel) (by decide +kernel),
    breaks_of_exec (by decide +kernel) (by decide +kernel) (by decide +kernel)⟩

end Hal0.Slots.ConfigFiles
