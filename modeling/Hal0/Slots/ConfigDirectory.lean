import Hal0.Slots.ConfigGuards
import Mathlib.Data.String.Basic

/-!
# The writers of the slots directory

A slot file is known by its stem, the slot's name or its id.  Each writer
finds the stem of its slot, projects its payload on what it reads there and
writes the whole document back.  `update_config`, the load which persists its
model and a capability apply read and write under `slot_write_lock`; a create
checks the other slots before it takes the lock, and a stack plans all its
entries before.

The functions here are what one writer computes on a directory; the
interleavings are in `Hal0.Slots.ConfigWriters`.  Every slot file parses, and
no write fails.
-/

namespace Hal0.Slots.ConfigFiles

open List
open Std

abbrev SlotName := String
abbrev Stem := String

/-- The files `slots/*.toml`. -/
abbrev Directory := ExtTreeMap Stem Doc

/-! ## Stems -/

/-- `is_id_stem`. -/
def isIdStem (stem : Stem) : Bool :=
  stem ≠ "" && stem.toList.all fun char => '0' ≤ char && char ≤ '9'

/-- `read_slot_display_name`. -/
def displayName (doc : Doc) : Option String :=
  let embedded :=
    match doc["name"]? with
    | some (.leaf (.text name)) => some name
    | _ =>
      match (slotTable doc).bind (·["name"]?) with
      | some (.text name) => some name
      | _ => none
  embedded.filter fun name => name ≠ "" && !isIdStem name

/-- `slot_stems_by_name(...).get(name)`: the first file of the listing. -/
def stemByName (dir : Directory) (name : String) : Option Stem :=
  (dir.keys.mergeSort fun first second =>
    first ++ ".toml" ≤ second ++ ".toml").find? fun stem =>
      (dir[stem]?.bind displayName) = some name

/-- `resolve_slot_stem`. -/
def resolveSlotStem (dir : Directory) (key : String) : Option Stem :=
  if key = "" then none
  else if dir.contains key then some key
  else stemByName dir key

/-- `_slot_path` of the stacks and of the capabilities. -/
def slotStem (dir : Directory) (name : String) : Stem :=
  (resolveSlotStem dir name).getD name

/--
The identity rows of the slots, by the stems of their ids.  A row made later
has a fresh id, and no file under it.
-/
structure Rows where
  stem : SlotName → Option Stem
  isId : ∀ name id, stem name = some id → isIdStem id

/-- `_config_file_for`. -/
def configFileFor (rows : Rows) (dir : Directory) (name : SlotName) : Stem :=
  match rows.stem name with
  | some stem => if dir.contains stem then stem else name
  | none => name

/-! ## The other slots -/

/-- `_iter_peer_configs(key)` does not skip the file. -/
def isPeer (key : String) (stem : Stem) (doc : Doc) : Bool :=
  stem ≠ key && (hoist doc)["name"]? ≠ some (.leaf (.text key))

/-- Some other slot's file passes the test. -/
def anyPeer (dir : Directory) (key : String) (test : Doc → Bool) : Bool :=
  dir.toList.any fun file => isPeer key file.1 file.2 && test (hoist file.2)

/-- Some other slot claims the NPU. -/
def peerClaims (dir : Directory) (key : String) : Bool :=
  anyPeer dir key claimsNpuAnchor

/-- Another slot is the default of `type`. -/
def peerDefault (dir : Directory) (key : String) (type : Value) : Bool :=
  anyPeer dir key fun peer => defaultType peer = some type

/-- Another slot has the type `type`. -/
def peerOfType (dir : Directory) (key : String) (type : Value) : Bool :=
  anyPeer dir key fun peer => peer["type"]? = some type

variable {dir : Directory} {key : String}

theorem anyPeer_eq_false {test : Doc → Bool} :
    anyPeer dir key test = false ↔
      ∀ stem doc, dir[stem]? = some doc → isPeer key stem doc = true →
        test (hoist doc) = false := by
  simp only [anyPeer, any_eq_false, Prod.forall,
    ExtTreeMap.mem_toList_iff_getElem?_eq_some, Bool.and_eq_true, not_and,
    Bool.not_eq_true]

/-- `check_npu_exclusivity` passes. -/
def checkNpuExclusivity (dir : Directory) (key : String) (cfg : Doc) : Bool :=
  !claimsNpuAnchor cfg || !peerClaims dir key

/-- `check_default_uniqueness` passes, when it is not skipped. -/
def checkDefaultUniqueness (dir : Directory) (key : String) (cfg : Doc) :
    Bool :=
  match defaultType cfg with
  | none => true
  | some type => !peerDefault dir key type

/-- `reconcile_and_guard_slot_config`. -/
def reconcileAndGuard (rules : Rules) (dir : Directory) (key : String)
    (base : Doc) (updates : Updates) : Option Doc :=
  (projectSlotUpdates rules base updates).bind fun merged =>
    if checkNpuExclusivity dir key merged &&
        ("default" ∉ updates.keys || checkDefaultUniqueness dir key merged) then
      some merged
    else none

theorem reconcileAndGuard_eq_some {rules : Rules} {base merged : Doc}
    {updates : Updates}
    (guarded : reconcileAndGuard rules dir key base updates = some merged) :
    projectSlotUpdates rules base updates = some merged ∧
      checkNpuExclusivity dir key merged = true ∧
      ("default" ∈ updates.keys →
        checkDefaultUniqueness dir key merged = true) := by
  obtain ⟨projected, isProjected, passes⟩ :=
    Option.bind_eq_some_iff.mp guarded
  split at passes
  · next checked =>
      cases passes
      simp only [Bool.and_eq_true, Bool.or_eq_true, decide_eq_true_eq]
        at checked
      exact ⟨isProjected, checked.1, fun carried =>
        checked.2.resolve_left (not_not_intro carried)⟩
  · cases passes

theorem peerClaims_of_check {cfg : Doc}
    (passes : checkNpuExclusivity dir key cfg = true)
    (claims : claimsNpuAnchor cfg = true) : peerClaims dir key = false := by
  simpa [checkNpuExclusivity, claims] using passes

theorem peerDefault_of_check {cfg : Doc}
    (passes : checkDefaultUniqueness dir key cfg = true) {type : Value}
    (marked : defaultType cfg = some type) :
    peerDefault dir key type = false := by
  simpa [checkDefaultUniqueness, marked] using passes

/-! ## `update_config` and the persisted model -/

/-- What the state keeps of a slot. -/
structure StateRecord where
  port : Leaf
  provider : String
  modelId : String
  backend : Option String

/-- The config which stands in for a missing file. -/
def StateRecord.config (record : StateRecord) (name : SlotName) : Doc :=
  let doc : Doc := (((∅ : Doc).insert "name" (.leaf (.text name))).insert
    "port" (.leaf record.port)).insert "provider" (.leaf (.text record.provider))
  let doc := doc.insert "model"
    (.table ((∅ : Table).insert "default" (.text record.modelId)))
  match record.backend with
  | some backend => doc.insert "backend" (.leaf (.text backend))
  | none => doc

/-- The config a writer of the manager starts from. -/
def baseConfig (rules : Rules) (rows : Rows) (dir : Directory)
    (name : SlotName) (record : Option StateRecord) : Option Doc :=
  match dir[configFileFor rows dir name]? with
  | some doc => some (loadSlotConfig rules name doc)
  | none => record.map fun record => record.config name

/-- No `None` is left for the TOML writer in a table which was not merged. -/
def writable (base : Doc) (updates : Updates) : Bool :=
  updates.all fun update =>
    match update.2, base[update.1]? with
    | .table _, some (.table _) => true
    | .table entries, _ =>
      update.1 = "tune" || entries.all fun entry => entry.2.isSome
    | _, _ => true

/-- `SlotManager.update_config`, inside the lock. -/
def updateConfig (rules : Rules) (rows : Rows) (dir : Directory)
    (name : SlotName) (updates : Updates) (record : Option StateRecord) :
    Option Directory :=
  (baseConfig rules rows dir name record).bind fun base =>
    (reconcileAndGuard rules dir name base updates).bind fun merged =>
      if writable base updates then
        some (dir.insert (configFileFor rows dir name) merged)
      else none

/-- The config with `[model].default` set to the loaded model. -/
def withModelDefault (base : Doc) (model : String) : Doc :=
  let entries :=
    match base["model"]? with
    | some (.table entries) => entries
    | _ => ∅
  base.insert "model" (.table (entries.insert "default" (.text model)))

/-- `_persist_model_default`, inside the lock. -/
def persistModelDefault (rules : Rules) (rows : Rows) (dir : Directory)
    (name : SlotName) (model : String) (record : Option StateRecord) :
    Option Directory :=
  (baseConfig rules rows dir name record).map fun base =>
    dir.insert (configFileFor rows dir name) (withModelDefault base model)

/-! ## `create` -/

/-- A config as a payload. -/
def Value.toUpdate : Value → Update
  | .leaf value => .leaf value
  | .table entries =>
    .table (entries.toList.map fun entry => (entry.1, some entry.2))

/-- Every key of a config as an update. -/
def toUpdates (cfg : Doc) : Updates :=
  cfg.toList.map fun entry => (entry.1, entry.2.toUpdate)

/-- The profile which the type implies, where the config has none. -/
def withImpliedProfile (rules : Rules) (cfg : Doc) : Doc :=
  if (cfg["profile"]?.map Value.truthy).getD false then cfg
  else
    match rules.typeImpliedProfile cfg with
    | some profile =>
      if profile = "" then cfg
      else cfg.insert "profile" (.leaf (.text profile))
    | none => cfg

/-- `create` up to its checks against the other slots. -/
def preparedConfig (rules : Rules) (cfg : Doc) : Option Doc :=
  if rules.payloadAccepted (toUpdates cfg) then
    let cfg := withImpliedProfile rules cfg
    (reconcileDeviceProfile rules cfg cfg.keys).bind fun cfg =>
      if runnerFamilyAccepted rules cfg cfg.keys then
        match cfg["tune"]? with
        | some tune =>
          guardAndNormalizeTune rules cfg [("tune", tune.toUpdate)]
            (some tune.toUpdate)
        | none => some cfg
      else none
  else none

/-- The first slot of its type becomes the type's default. -/
def markDefault (dir : Directory) (name : SlotName) (cfg : Doc) : Doc :=
  if cfg["default"]? = some (.leaf (.flag true)) then cfg
  else
    match cfg["type"]? with
    | some type =>
      if type.truthy && !peerOfType dir name type then
        cfg.insert "default" (.leaf (.flag true))
      else cfg
    | none => cfg

/-- The port, where there is one. -/
def withPort (cfg : Doc) : Option Leaf → Doc
  | some port => cfg.insert "port" (.leaf port)
  | none => cfg

/-- The locked part of `create`: it never writes over a file. -/
def writeNew (rows : Rows) (dir : Directory) (name : SlotName) (cfg : Doc)
    (port : Option Leaf) : Option Directory :=
  if dir.contains (configFileFor rows dir name) then none
  else some (dir.insert (configFileFor rows dir name) (withPort cfg port))

theorem agreeOff_withImpliedProfile (rules : Rules) (cfg : Doc) :
    AgreeOff ["profile"] (withImpliedProfile rules cfg) cfg := by
  unfold withImpliedProfile
  split
  · exact .refl _ cfg
  · split
    · split
      · exact .refl _ cfg
      · exact agreeOff_insert (by decide) cfg _
    · exact .refl _ cfg

theorem agreeOff_preparedConfig {rules : Rules} {cfg prepared : Doc}
    (isPrepared : preparedConfig rules cfg = some prepared) :
    AgreeOff ["profile", "binary", "device", "tune"] prepared cfg := by
  unfold preparedConfig at isPrepared
  split at isPrepared
  · obtain ⟨reconciled, isReconciled, rest⟩ :=
      Option.bind_eq_some_iff.mp isPrepared
    have before : AgreeOff ["profile", "binary", "device", "tune"]
        reconciled cfg :=
      ((agreeOff_reconcile isReconciled).mono (by simp)).trans
        ((agreeOff_withImpliedProfile rules cfg).mono (by simp))
    split at rest
    · split at rest
      · exact ((agreeOff_tune rest).mono (by simp)).trans before
      · cases rest
        exact before
    · cases rest
  · cases isPrepared

theorem agreeOff_markDefault (dir : Directory) (name : SlotName) (cfg : Doc) :
    AgreeOff ["default"] (markDefault dir name cfg) cfg := by
  unfold markDefault
  split
  · exact .refl _ cfg
  · split
    · split
      · exact agreeOff_insert (by decide) cfg _
      · exact .refl _ cfg
    · exact .refl _ cfg

theorem agreeOff_withPort (cfg : Doc) (port : Option Leaf) :
    AgreeOff ["port"] (withPort cfg port) cfg := by
  cases port with
  | none => exact .refl _ cfg
  | some port => exact agreeOff_insert (by decide) cfg _

/-! ## Stacks -/

/-- A `StackSlotEntry`; its tune is the dump without the unset overrides. -/
structure StackEntry where
  slot : SlotName
  model : String
  device : String
  provider : String
  profile : Option String
  tune : Option (List (String × Leaf))

/-- What an entry carries beside its model; an empty text is no opinion. -/
def StackEntry.placement (entry : StackEntry) : Updates :=
  (if canonicalDevice entry.device = "" then []
    else [("device", .leaf (.text (canonicalDevice entry.device)))]) ++
    (if entry.provider = "" then []
      else [("provider", .leaf (.text entry.provider))]) ++
    (match entry.profile with
      | none => []
      | some profile => [("profile", .leaf (.text profile))]) ++
    (match entry.tune with
      | none => []
      | some tune =>
        [("tune", .table (tune.map fun item => (item.1, some item.2)))])

/-- What an entry writes into its file. -/
def StackEntry.updates (entry : StackEntry) : Updates :=
  ("model", .table [("default", some (.text entry.model))]) :: entry.placement

/--
What the plan of an entry reads of the directory: the entry's file, and
whether the NPU check finds another anchor for what it would write.
-/
structure Reads where
  stem : Stem
  before : Option Doc
  contested : Bool
deriving DecidableEq

/-- What planning an entry reads. -/
def StackEntry.reads (rules : Rules) (dir : Directory) (entry : StackEntry) :
    Reads :=
  let stem := slotStem dir entry.slot
  let projected := dir[stem]?.bind fun before =>
    projectSlotUpdates rules before entry.updates
  { stem := stem
    before := dir[stem]?
    contested := projected.any fun merged =>
      !checkNpuExclusivity dir stem merged }

/-- One planned change. -/
structure Change where
  entry : StackEntry
  reads : Reads
  after : Option Doc

/-- `_reconciled_stack_slot` of the entry; a refusal keeps the file. -/
def planEntry (rules : Rules) (dir : Directory) (entry : StackEntry) :
    Change where
  entry := entry
  reads := entry.reads rules dir
  after :=
    dir[slotStem dir entry.slot]?.map fun before =>
      (reconcileAndGuard rules dir (slotStem dir entry.slot) before
        entry.updates).getD before

/-- The entries which have a model. -/
def planned (entries : List StackEntry) : List StackEntry :=
  entries.filter fun entry => entry.model ≠ ""

/-- One change is written, unless it is none. -/
def commitChange (dir : Directory) (change : Change) : Directory :=
  if change.reads.before = change.after then dir
  else
    match change.after with
    | some doc => dir.insert change.reads.stem doc
    | none => dir.erase change.reads.stem

/-- `SlotConfigStore.commit`, inside the lock. -/
def commit (dir : Directory) (changes : List Change) : Directory :=
  changes.foldl commitChange dir

/-- What is written for an entry, by what its plan read. -/
def StackEntry.result (rules : Rules) (entry : StackEntry) (reads : Reads) :
    Option Doc :=
  reads.before.map fun before =>
    match projectSlotUpdates rules before entry.updates with
    | some merged => if reads.contested then before else merged
    | none => before

theorem StackEntry.keys_placement (entry : StackEntry) :
    ∀ key ∈ entry.placement.keys,
      key ∈ ["device", "provider", "profile", "tune"] := by
  intro key inside
  simp only [placement, Updates.keys, map_append, mem_append]
    at inside
  rcases inside with ((inside | inside) | inside) | inside
  all_goals split at inside <;> simp_all

theorem StackEntry.keys_updates (entry : StackEntry) :
    ∀ key ∈ entry.updates.keys,
      key ∈ ["model", "device", "provider", "profile", "tune"] := by
  intro key inside
  rcases mem_cons.mp inside with isModel | carried
  · rw [isModel]
    exact mem_cons_self
  · exact mem_cons_of_mem _ (entry.keys_placement key carried)

theorem StackEntry.default_not_mem (entry : StackEntry) :
    "default" ∉ entry.updates.keys := fun inside =>
  absurd (entry.keys_updates _ inside) (by decide)

theorem StackEntry.slot_not_mem (entry : StackEntry) :
    "slot" ∉ entry.updates.keys := fun inside =>
  absurd (entry.keys_updates _ inside) (by decide)

theorem planEntry_after (rules : Rules) (dir : Directory)
    (entry : StackEntry) :
    (planEntry rules dir entry).after =
      entry.result rules (entry.reads rules dir) := by
  simp only [planEntry, StackEntry.result, StackEntry.reads]
  rcases Option.eq_none_or_eq_some dir[slotStem dir entry.slot]? with
    absent | ⟨before, found⟩
  · simp [absent]
  · rcases Option.eq_none_or_eq_some
      (projectSlotUpdates rules before entry.updates) with
      refused | ⟨merged, projected⟩
    · simp [found, reconcileAndGuard, refused]
    · by_cases passes :
          checkNpuExclusivity dir (slotStem dir entry.slot) merged = true <;>
        simp [found, reconcileAndGuard, projected, entry.default_not_mem,
          passes]

/-- Of changes of one file the last counts. -/
theorem getElem?_commit (changes : List Change) (dir : Directory)
    (stem : Stem) :
    (commit dir changes)[stem]? = dir[stem]? ∨
      ∃ change ∈ changes, change.reads.stem = stem ∧
        (commit dir changes)[stem]? = change.after := by
  have one : ∀ (dir : Directory) (change : Change),
      (commitChange dir change)[stem]? = dir[stem]? ∨
        (change.reads.stem = stem ∧
          (commitChange dir change)[stem]? = change.after) := by
    intro dir change
    unfold commitChange
    split
    · exact Or.inl rfl
    · by_cases same : change.reads.stem = stem
      · right
        refine ⟨same, ?_⟩
        cases after : change.after <;> simp [same]
      · left
        cases after : change.after <;>
          simp [ExtTreeMap.getElem?_insert, ExtTreeMap.getElem?_erase, same]
  induction changes generalizing dir with
  | nil => exact Or.inl rfl
  | cons change rest ih =>
    rcases ih (commitChange dir change) with kept | ⟨later, inside, found⟩
    · rcases one dir change with same | ⟨isStem, written⟩
      · exact Or.inl (kept.trans same)
      · exact Or.inr ⟨change, mem_cons_self, isStem,
          kept.trans written⟩
    · exact Or.inr ⟨later, mem_cons_of_mem _ inside, found⟩

/-! ## Capabilities -/

/-- The updates of a capability selection. -/
def Selection.updates (rules : Rules) (selection : Selection) : Updates :=
  let engineSwitch := selection.child = "tts" || selection.child = "stt"
  if !selection.enabled then [("model", .table [("default", some (.text ""))])]
  else
    (if canonicalDevice selection.device = "" then []
      else [("device", .leaf (.text (canonicalDevice selection.device)))]) ++
    (if selection.provider = "" ||
        (engineSwitch && selection.provider = "llama-server") then []
      else [("provider", .leaf (.text selection.provider))]) ++
    (if selection.model = "" then []
      else [("model", .table [("default", some (.text selection.model))])]) ++
    (match if engineSwitch then rules.engineProfile selection else none with
      | none => []
      | some profile => [("profile", .leaf (.text profile))])

/-- `SlotConfigStore.apply_and_commit`, of the slot file. -/
def applyAndCommit (rules : Rules) (dir : Directory) (selection : Selection) :
    Directory :=
  let stem := slotStem dir selection.slotName
  match dir[stem]? with
  | some before =>
    if before = mergeSlotConfig before (selection.updates rules) then dir
    else dir.insert stem (mergeSlotConfig before (selection.updates rules))
  | none => dir

end Hal0.Slots.ConfigFiles
