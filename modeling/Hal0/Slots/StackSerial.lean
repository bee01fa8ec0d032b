import Hal0.Slots.ConfigWriters
import Mathlib.Data.List.Permutation

/-!
# Stack applies among the other writers

`update_config` and a capability apply read what they change inside the lock;
a stack commits what it planned before it had the lock.  When the files and
the verdicts its plan read are still there at the commit, the stack does what
it would have done with the lock held all along, and the directory is that of
the operations one after the other.  When they are not, what another writer
wrote in between is lost.
-/

namespace Hal0.Slots.ConfigFiles

open List
open Std Hal0.Transition

/-! ## One operation after the other -/

/-- An operation with nothing in between; a refused one changes nothing. -/
def Operation.serially (rules : Rules) (rows : Rows) (dir : Directory) :
    Operation → Directory
  | .update name updates record =>
    (updateConfig rules rows dir name updates record).getD dir
  | .stack entries =>
    commit dir ((planned entries).map (planEntry rules dir))
  | .capability selection => applyAndCommit rules dir selection

/-- The directory is that of some order of the operations carried out. -/
def Serial (rules : Rules) (rows : Rows) (dir : Directory)
    (state : Writers) : Prop :=
  ∃ order : List Operation, order.Perm state.log ∧
    state.dir = order.foldl (Operation.serially rules rows) dir

/-- The step is of an update, a stack or a capability. -/
def sharesFiles : Action → Bool
  | .update .. | .plan .. | .planNext _ | .applyConfig _ | .capability _ => true
  | _ => false

/-- All that the plan of `applying` read is as it was. -/
def asPlanned (rules : Rules) (dir : Directory) (applying : Applying) : Bool :=
  applying.changes.all fun change =>
    change.entry.reads rules dir = change.reads

/-- No stack commits a plan whose reads have changed. -/
def undisturbed (rules : Rules) (state : Writers) : Action → Bool
  | .applyConfig task => (state.applying task).all (asPlanned rules state.dir)
  | _ => true

/-- Only these writers take steps. -/
def Sharing (_ : Writers) (action : Action) : Prop :=
  sharesFiles action = true

/-- Nothing comes between plan and commit. -/
def Undisturbed (rules : Rules) (state : Writers) (action : Action) : Prop :=
  sharesFiles action = true ∧ undisturbed rules state action = true

instance (state : Writers) (action : Action) :
    Decidable (Sharing state action) :=
  inferInstanceAs (Decidable (_ = true))

instance (rules : Rules) (state : Writers) (action : Action) :
    Decidable (Undisturbed rules state action) :=
  inferInstanceAs (Decidable (_ = true ∧ _ = true))

/-! ## A plan and its commit -/

/-- A change set is that of the entries planned so far, by what they read. -/
structure Planning (rules : Rules) (applying : Applying) : Prop where
  entries : applying.changes.map Change.entry ++ applying.rest =
    planned applying.entries
  after : ∀ change ∈ applying.changes,
    change.after = change.entry.result rules change.reads

theorem Planning.begin (rules : Rules) (entries : List StackEntry) :
    Planning rules ⟨entries, planned entries, []⟩ where
  entries := rfl
  after := by simp

variable {rules : Rules} {entry : StackEntry}

theorem Planning.next {applying : Applying}
    (planning : Planning rules applying) (dir : Directory)
    {rest : List StackEntry} (pending : applying.rest = entry :: rest) :
    Planning rules { applying with
      rest := rest
      changes := applying.changes ++ [planEntry rules dir entry] } where
  entries := by
    rw [← planning.entries, pending]
    simp [planEntry]
  after change inside := by
    rcases mem_append.mp inside with earlier | isNew
    · exact planning.after change earlier
    · rw [mem_singleton.mp isNew]
      exact planEntry_after rules dir entry

theorem Planning.changes_eq {applying : Applying}
    (planning : Planning rules applying) {dir : Directory}
    (complete : applying.rest = [])
    (same : asPlanned rules dir applying = true) :
    applying.changes = (planned applying.entries).map (planEntry rules dir) := by
  have each : ∀ change ∈ applying.changes,
      change = planEntry rules dir change.entry := by
    intro change inside
    have read : change.entry.reads rules dir = change.reads := by
      simpa using all_eq_true.mp same change inside
    have after : change.after = (planEntry rules dir change.entry).after := by
      rw [planning.after change inside, planEntry_after, read]
    obtain ⟨entry, reads, result⟩ := change
    simp only [planEntry, Change.mk.injEq, true_and]
    exact ⟨read.symm, after⟩
  have entries := planning.entries
  rw [complete, append_nil] at entries
  calc applying.changes
      = applying.changes.map id := (map_id _).symm
    _ = applying.changes.map (planEntry rules dir ∘ Change.entry) :=
        map_congr_left each
    _ = (planned applying.entries).map (planEntry rules dir) := by
        rw [← entries, map_map]

/-! ## The keys a stack does not set -/

/-- A key of the `[model]` table. -/
def modelKey (doc : Doc) (key : String) : Option Leaf :=
  match (hoist doc)["model"]? with
  | some (.table entries) => entries[key]?
  | _ => none

/-- The keys which the stack's entries for a file can touch. -/
def stackKeys (dir : Directory) (entries : List StackEntry) (stem : Stem) :
    List String :=
  (planned entries).flatMap fun entry =>
    if slotStem dir entry.slot = stem then touchedKeys entry.updates else []

/--
Every file keeps its keys off those the stack sets for it, and of its
`[model]` table all but `default`.
-/
def KeepsKeys (entries : List StackEntry) (before after : Directory) : Prop :=
  ∀ stem doc, before[stem]? = some doc → ∃ now, after[stem]? = some now ∧
    (∀ key, key ∉ stackKeys before entries stem →
      (hoist now)[key]? = (hoist doc)[key]?) ∧
    ∀ key, key ≠ "default" → modelKey now key = modelKey doc key

theorem modelKey_congr {first second : Doc}
    (model : (hoist first)["model"]? = (hoist second)["model"]?)
    (key : String) : modelKey first key = modelKey second key := by
  simp only [modelKey, model]

/-- Setting `[model].default` leaves the rest of the table. -/
theorem modelKey_putTable (doc : Doc) (leaf : Leaf) {key : String}
    (notDefault : key ≠ "default") :
    modelKey (putTable doc "model" [("default", some leaf)]) key =
      modelKey doc key := by
  have differs : ¬ "default" = key := fun same => notDefault same.symm
  have shape : slotTable (putTable doc "model" [("default", some leaf)]) =
      slotTable doc := Projection.slotTable_putTable (by decide) doc _
  unfold modelKey
  rw [getElem?_hoist, getElem?_hoist, shape]
  cases (slotTable doc).bind (·["model"]?) with
  | some scalar => rfl
  | none =>
    rcases found : doc["model"]? with _ | _ | entries
    all_goals
      simp [putTable, found, mergeTable, Table.put,
        ExtTreeMap.getElem?_insert, differs]

theorem modelKey_projectSlotUpdates {base result : Doc}
    (projected : projectSlotUpdates rules base entry.updates = some result)
    {key : String} (notDefault : key ≠ "default") :
    modelKey result key = modelKey base key := by
  have noModel : "model" ∉ entry.placement.keys := fun inside =>
    absurd (entry.keys_placement _ inside) (by decide)
  have noSlot : "slot" ∉ entry.placement.keys := fun inside =>
    absurd (entry.keys_placement _ inside) (by decide)
  have derived : "model" ∉ derivedKeys entry.updates := fun inside =>
    absurd (derivedKeys_subset _ _ inside) (by decide)
  have merged : (hoist result)["model"]? =
      (hoist (putTable base "model"
        [("default", some (.text entry.model))]))["model"]? := by
    rw [(agreeOff_after_merge projected).off "model" derived,
      mergeSlotConfig_eq_foldl entry.slot_not_mem, StackEntry.updates,
      foldl_cons]
    exact (agreeOff_foldl_putUpdate noSlot _).off "model" noModel
  rw [modelKey_congr merged, modelKey_putTable base _ notDefault]

theorem planEntry_keeps {dir : Directory} {doc now : Doc}
    (found : dir[slotStem dir entry.slot]? = some doc)
    (after : (planEntry rules dir entry).after = some now) :
    (∀ key, key ∉ touchedKeys entry.updates →
      (hoist now)[key]? = (hoist doc)[key]?) ∧
    ∀ key, key ≠ "default" → modelKey now key = modelKey doc key := by
  simp only [planEntry, found, Option.map_some, Option.some.injEq] at after
  cases guarded : reconcileAndGuard rules dir (slotStem dir entry.slot) doc
      entry.updates with
  | none =>
    rw [guarded] at after
    cases after
    exact ⟨fun _ _ => rfl, fun _ _ => rfl⟩
  | some merged =>
    rw [guarded] at after
    cases after
    have projected := (reconcileAndGuard_eq_some guarded).1
    exact ⟨(agreeOff_projectSlotUpdates entry.slot_not_mem projected).off,
      fun key notDefault =>
        modelKey_projectSlotUpdates projected notDefault⟩

theorem keepsKeys_commit (rules : Rules) (dir : Directory)
    (entries : List StackEntry) :
    KeepsKeys entries dir
      (commit dir ((planned entries).map (planEntry rules dir))) := by
  intro stem doc found
  rcases getElem?_commit ((planned entries).map (planEntry rules dir)) dir
    stem with same | ⟨change, inside, isStem, written⟩
  · exact ⟨doc, same.trans found, fun _ _ => rfl, fun _ _ => rfl⟩
  · obtain ⟨entry, isPlanned, rfl⟩ := mem_map.mp inside
    have stems : slotStem dir entry.slot = stem := isStem
    have read : dir[slotStem dir entry.slot]? = some doc := by
      rw [stems, found]
    cases after : (planEntry rules dir entry).after with
    | none => simp [planEntry, read] at after
    | some now =>
      have kept := planEntry_keeps read after
      refine ⟨now, written.trans after, fun key outside => ?_, kept.2⟩
      apply kept.1
      intro touched
      apply outside
      rw [stackKeys, mem_flatMap]
      exact ⟨entry, isPlanned, by rwa [if_pos stems]⟩

/-! ## Runs -/

/-- The directory is that of the log, and every plan is by its reads. -/
structure Ordered (rules : Rules) (rows : Rows) (dir : Directory)
    (state : Writers) : Prop where
  serial : state.dir = state.log.foldl (Operation.serially rules rows) dir
  plans : ∀ task applying, state.applying task = some applying →
    Planning rules applying

namespace Ordered

variable {rules : Rules} {rows : Rows} {dir : Directory} {state : Writers}

theorem start (rules : Rules) (rows : Rows) (dir : Directory) :
    Ordered rules rows dir (.start dir) where
  serial := rfl
  plans _ _ pending := by cases pending

section

variable (ordered : Ordered rules rows dir state)
include ordered

theorem wrote {operation : Operation} {after : Directory}
    (does : after = operation.serially rules rows state.dir) :
    Ordered rules rows dir (state.wrote operation after) where
  serial := by
    simp only [Writers.wrote, foldl_append, foldl_cons,
      foldl_nil, ← ordered.serial, does]
  plans := ordered.plans

theorem setApplying (task : TaskId) {now : Option Applying}
    (plans : ∀ applying, now = some applying → Planning rules applying) :
    Ordered rules rows dir (state.setApplying task now) where
  serial := ordered.serial
  plans other applying pending := by
    by_cases same : other = task
    · subst same
      rw [Writers.applying_setApplying, Function.update_self] at pending
      exact plans applying pending
    · rw [Writers.applying_setApplying, Function.update_of_ne same] at pending
      exact ordered.plans other applying pending

theorem commitPlan {task : TaskId} {applying : Applying}
    (pending : state.applying task = some applying)
    (same : asPlanned rules state.dir applying = true) {next : Writers}
    (moved : state.commitPlan task applying = some next) :
    Ordered rules rows dir next := by
  unfold Writers.commitPlan at moved
  split at moved
  · next complete =>
      cases moved
      have changes := (ordered.plans task applying pending).changes_eq
        (isEmpty_iff.mp complete) same
      apply wrote (ordered.setApplying task (by simp))
      simp only [Operation.serially, Writers.dir_setApplying, changes]
  · cases moved

theorem step {action : Action} {next : Writers}
    (permitted : Undisturbed rules state action)
    (moved : state.step rules rows action = some next) :
    Ordered rules rows dir next := by
  cases action with
  | update name updates record =>
    obtain ⟨after, updated, rfl⟩ := Option.map_eq_some_iff.mp moved
    exact ordered.wrote (by simp [Operation.serially, updated])
  | plan task entries =>
    simp only [Writers.step] at moved
    split at moved
    · cases moved
      apply ordered.setApplying task
      intro applying isNow
      cases isNow
      exact .begin rules entries
    · cases moved
  | planNext task =>
    obtain ⟨applying, pending, planned⟩ :=
      Option.bind_eq_some_iff.mp moved
    unfold Writers.planNextEntry at planned
    split at planned
    · cases planned
    · next entry rest isNext =>
        cases planned
        apply ordered.setApplying task
        intro planning isNow
        cases isNow
        exact (ordered.plans task applying pending).next state.dir isNext
  | applyConfig task =>
    obtain ⟨applying, pending, committed⟩ :=
      Option.bind_eq_some_iff.mp moved
    have same : asPlanned rules state.dir applying = true := by
      simpa [undisturbed, pending] using permitted.2
    exact ordered.commitPlan pending same committed
  | capability selection =>
    cases moved
    exact ordered.wrote rfl
  | persist name model record => exact absurd permitted.1 Bool.false_ne_true
  | create task name cfg => exact absurd permitted.1 Bool.false_ne_true
  | checkNpu task => exact absurd permitted.1 Bool.false_ne_true
  | markDefault task => exact absurd permitted.1 Bool.false_ne_true
  | checkDefault task => exact absurd permitted.1 Bool.false_ne_true
  | writeNew task port => exact absurd permitted.1 Bool.false_ne_true

end

theorem run {actions : List Action} {target : Writers}
    (run : Run (Writers.step rules rows) (Undisturbed rules) (.start dir)
      actions target) :
    Ordered rules rows dir target :=
  run.invariant (Ordered rules rows dir) (start rules rows dir)
    fun _ _ _ ordered permitted moved => ordered.step permitted moved

end Ordered

/--
In every run of updates, capability applies and stack applies in which no
stack commits a plan whose reads have changed, the directory is that of the
operations one after the other, and every commit keeps the keys which its
stack does not set.
-/
theorem serial_of_undisturbed (rules : Rules) (rows : Rows) (dir : Directory)
    (actions : List Action) (target : Writers)
    (run : Run (Writers.step rules rows) (Undisturbed rules) (.start dir)
      actions target) :
    Serial rules rows dir target ∧
    ∀ task applying next, target.applying task = some applying →
      Undisturbed rules target (.applyConfig task) →
      target.step rules rows (.applyConfig task) = some next →
      KeepsKeys applying.entries target.dir next.dir := by
  have ordered := Ordered.run run
  refine ⟨⟨target.log, .refl _, ordered.serial⟩, ?_⟩
  intro task applying next pending permitted moved
  have same : asPlanned rules target.dir applying = true := by
    simpa [undisturbed, pending] using permitted.2
  simp only [Writers.step, pending, Option.bind_some, Writers.commitPlan]
    at moved
  split at moved
  · next complete =>
      cases moved
      have changes := (ordered.plans task applying pending).changes_eq
        (isEmpty_iff.mp complete) same
      simp only [Writers.wrote, changes]
      exact keepsKeys_commit rules target.dir applying.entries
  · cases moved

/-! ## An update before the plan, and one behind it -/

def noRows : Rows where
  stem := fun _ => none
  isId := nofun

/-- A flat slot file. -/
def slotDoc (name type device model : String) : Doc :=
  ((((∅ : Doc).insert "name" (.leaf (.text name))).insert
    "type" (.leaf (.text type))).insert
    "device" (.leaf (.text device))).insert
    "model" (.table ((∅ : Table).insert "default" (.text model)))

def chatDir : Directory :=
  (∅ : Directory).insert "chat" (slotDoc "chat" "llm" "gpu-vulkan" "qwen")

def bindGemma : StackEntry where
  slot := "chat"
  model := "gemma"
  device := ""
  provider := ""
  profile := none
  tune := none

def setAutoload : Action :=
  .update "chat" [("autoload", .leaf (.flag true))] none

/-- The plan sees the update. -/
def updateThenPlan : List Action :=
  [setAutoload, .plan 1 [bindGemma], .planNext 1, .applyConfig 1]

/-- The plan is older than the update. -/
def updateBehindPlan : List Action :=
  [.plan 1 [bindGemma], .planNext 1, setAutoload, .applyConfig 1]

theorem serial_update_then_plan :
    ∃ target,
      Run (Writers.step plainRules noRows) (Undisturbed plainRules)
          (.start chatDir) updateThenPlan target ∧
        Serial plainRules noRows chatDir target ∧
        (target.dir["chat"]?.bind (·["autoload"]?)) =
          some (.leaf (.flag true)) := by
  obtain ⟨target, run, kept⟩ := Run.exists_of_exec
    (Writers.step plainRules noRows) (Undisturbed plainRules)
    (.start chatDir) updateThenPlan
    (fun state => (state.dir["chat"]?.bind (·["autoload"]?)) =
      some (.leaf (.flag true)))
    (by decide +kernel)
  exact ⟨target, run,
    (serial_of_undisturbed plainRules noRows chatDir _ target run).1,
    by simpa using kept⟩

/--
The update returned before the commit, its key is not the stack's, and it is
gone: no order of the two operations leaves the file so.
-/
theorem update_lost_behind_plan :
    ∃ target,
      Run (Writers.step plainRules noRows) Sharing (.start chatDir)
          updateBehindPlan target ∧
        ¬ Serial plainRules noRows chatDir target ∧
        (target.dir["chat"]?.bind (·["autoload"]?)) = none := by
  obtain ⟨target, run, lost⟩ := Run.exists_of_exec
    (Writers.step plainRules noRows) Sharing (.start chatDir)
    updateBehindPlan
    (fun state =>
      (state.log.permutations'.all fun order =>
        state.dir ≠
          order.foldl (Operation.serially plainRules noRows) chatDir) &&
      (state.dir["chat"]?.bind (·["autoload"]?)) = none)
    (by decide +kernel)
  rw [Bool.and_eq_true, all_eq_true, decide_eq_true_eq] at lost
  refine ⟨target, run, ?_, lost.2⟩
  rintro ⟨order, permuted, same⟩
  have differs := lost.1 order (mem_permutations'.mpr permuted)
  exact absurd same (by simpa using differs)

end Hal0.Slots.ConfigFiles
