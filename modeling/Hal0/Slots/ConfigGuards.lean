import Hal0.Slots.ConfigDoc

/-!
# The guarded write of a slot config

`reconcile_and_guard_slot_config` merges a payload, lets a profile which names
a runner set the slot's binary and device, and normalizes `[tune]`; the checks
against the other slot files come after it.  What it reads beside the slot
files, the profiles, the runners and the host, is in `Rules`.
-/

namespace Hal0.Slots.ConfigFiles

open Std

/-! ## What the writers read beside the slot files -/

/-- What a runner can do. -/
structure Runner where
  supportedBackends : List String
  deviceClass : String

/-- A `CapabilitySelection` for the slot `slotName`. -/
structure Selection where
  slotName : String
  child : String
  enabled : Bool
  device : String
  provider : String
  model : String

/-- What the guards ask. -/
structure Rules where
  /-- `guard_slot_write_payload`. -/
  payloadAccepted : Updates → Bool
  /-- The runner which a profile of `profiles.toml` names. -/
  profileRunner : String → Option String
  /-- `get_runner`. -/
  runner : String → Option Runner
  rocmLanePresent : Bool
  /-- `runner_family_mismatch`. -/
  runnerFamilyMismatch : Doc → Bool
  /-- The tune table which lands, or a refusal. -/
  normalizeTune : Doc → Updates → List (String × Option Leaf) → Option Table
  /-- `infer_non_chat_type` of the profile and the name. -/
  inferNonChatType : Option Value → Option Value → Option String
  /-- `type_implied_profile`. -/
  typeImpliedProfile : Doc → Option String
  /-- `_engine_profile_for`. -/
  engineProfile : Selection → Option String

/-- A host whose profiles name no runner. -/
def plainRules : Rules where
  payloadAccepted := fun _ => true
  profileRunner := fun _ => none
  runner := fun _ => none
  rocmLanePresent := false
  runnerFamilyMismatch := fun _ => false
  normalizeTune := fun _ _ _ => none
  inferNonChatType := fun _ _ => none
  typeImpliedProfile := fun _ => none
  engineProfile := fun _ => none

/-- `map_backend_to_device`; the canonical devices map to themselves. -/
def mapBackendToDevice (backend : String) : String :=
  if backend = "" then "gpu-rocm"
  else if backend = "rocm" || backend = "gpu-rocm" then "gpu-rocm"
  else if backend = "vulkan" || backend = "gpu-vulkan" then "gpu-vulkan"
  else if backend = "cuda" || backend = "gpu-cuda" then "gpu-cuda"
  else if backend = "flm" || backend = "npu" then "npu"
  else "cpu"

/-- `canonical_device`; `""` is no opinion. -/
def canonicalDevice (device : String) : String :=
  if device = "" then "" else mapBackendToDevice device

/-! ## Reading a slot's config -/

/-- A `type` which is absent or blank. -/
def typeMissing (doc : Doc) : Bool :=
  stripped (rendered doc["type"]?) = []

/-- A `[model]` table served by `llama-server`, and no `[image]` table. -/
def llmShaped (doc : Doc) : Bool :=
  let provider := stripped (rendered doc["provider"]?)
  (match doc["model"]? with
    | some (.table _) => true
    | _ => false) &&
  (match doc["image"]? with
    | some (.table _) => false
    | _ => true) &&
  (provider = [] || provider.map Char.toLower = "llama-server".toList)

/-- `heal_missing_llm_type`. -/
def healMissingLlmType (rules : Rules) (doc : Doc) : Doc :=
  if typeMissing doc && llmShaped doc then
    doc.insert "type" (.leaf (.text
      ((rules.inferNonChatType doc["profile"]? doc["name"]?).getD "llm")))
  else doc

/-- The hoisted document with the slot's name in it. -/
def named (name : String) (doc : Doc) : Doc :=
  if (hoist doc).contains "name" then hoist doc
  else (hoist doc).insert "name" (.leaf (.text name))

/-- `_load_slot_config` of the file of the slot `name`. -/
def loadSlotConfig (rules : Rules) (name : String) (doc : Doc) : Doc :=
  healMissingLlmType rules (named name doc)

theorem slotTable_named (name : String) (doc : Doc) :
    slotTable (named name doc) = none := by
  unfold named
  split
  · exact slotTable_hoist doc
  · rw [slotTable_insert (by decide), slotTable_hoist]

theorem getElem?_named_of_ne (name : String) (doc : Doc) {key : String}
    (notName : key ≠ "name") : (named name doc)[key]? = (hoist doc)[key]? := by
  unfold named
  split
  · rfl
  · simp [ExtTreeMap.getElem?_insert, Ne.symm notName]

theorem getElem?_named_name (name : String) (doc : Doc) :
    (named name doc)["name"]? =
      some (((hoist doc)["name"]?).getD (.leaf (.text name))) := by
  unfold named
  cases found : (hoist doc)["name"]? with
  | none =>
    have absent : (hoist doc).contains "name" = false := by
      rw [ExtTreeMap.contains_eq_isSome_getElem?, found]
      rfl
    simp [absent]
  | some value =>
    have present : (hoist doc).contains "name" = true := by
      rw [ExtTreeMap.contains_eq_isSome_getElem?, found]
      rfl
    simp [present, found]

theorem agreeOff_healMissingLlmType (rules : Rules) (doc : Doc) :
    AgreeOff ["type"] (healMissingLlmType rules doc) doc := by
  unfold healMissingLlmType
  split
  · exact agreeOff_insert (by decide) doc _
  · exact .refl _ doc

theorem slotTable_loadSlotConfig (rules : Rules) (name : String) (doc : Doc) :
    slotTable (loadSlotConfig rules name doc) = none :=
  (agreeOff_healMissingLlmType rules _).flat (slotTable_named name doc)

theorem getElem?_loadSlotConfig (rules : Rules) (name : String) (doc : Doc)
    {key : String} (notType : key ≠ "type") (notSlot : key ≠ "slot") :
    (loadSlotConfig rules name doc)[key]? = (named name doc)[key]? := by
  rw [← getElem?_hoist_of_flat (slotTable_loadSlotConfig rules name doc)
      notSlot,
    ← getElem?_hoist_of_flat (slotTable_named name doc) notSlot]
  exact (agreeOff_healMissingLlmType rules (named name doc)).off key
    (by simpa using notType)

/-! ## The checked values -/

/-- `is_activated`: a model is bound. -/
def isActivated (doc : Doc) : Bool :=
  match doc["model"]? with
  | some (.table entries) =>
    match entries["default"]? with
    | some (.text model) => stripped model ≠ []
    | _ => false
  | _ => false

/-- `claims_npu_anchor`. -/
def claimsNpuAnchor (doc : Doc) : Bool :=
  doc["device"]? = some (.leaf (.text "npu")) &&
    doc["type"]? = some (.leaf (.text "llm")) && isActivated doc

/-- The type whose default the slot is. -/
def defaultType (doc : Doc) : Option Value :=
  if doc["default"]? = some (.leaf (.flag true)) then
    doc["type"]?.filter Value.truthy
  else none

theorem claimsNpuAnchor_congr {first second : Doc}
    (device : first["device"]? = second["device"]?)
    (type : first["type"]? = second["type"]?)
    (model : first["model"]? = second["model"]?) :
    claimsNpuAnchor first = claimsNpuAnchor second := by
  simp only [claimsNpuAnchor, isActivated, device, type, model]

theorem defaultType_congr {first second : Doc}
    (type : first["type"]? = second["type"]?)
    (marker : first["default"]? = second["default"]?) :
    defaultType first = defaultType second := by
  simp only [defaultType, type, marker]

theorem claimsNpuAnchor_hoist_of_flat {doc : Doc}
    (flat : slotTable doc = none) :
    claimsNpuAnchor (hoist doc) = claimsNpuAnchor doc :=
  claimsNpuAnchor_congr (getElem?_hoist_of_flat flat (by decide))
    (getElem?_hoist_of_flat flat (by decide))
    (getElem?_hoist_of_flat flat (by decide))

theorem defaultType_hoist_of_flat {doc : Doc} (flat : slotTable doc = none) :
    defaultType (hoist doc) = defaultType doc :=
  defaultType_congr (getElem?_hoist_of_flat flat (by decide))
    (getElem?_hoist_of_flat flat (by decide))

/-! ## The runtime a profile carries -/

/-- The runner which the slot's profile names. -/
def carriedRunner (rules : Rules) (cfg : Doc) : Option String :=
  match scalar cfg "profile" with
  | some (.leaf (.text profile)) =>
    if profile = "" then none else rules.profileRunner profile
  | _ => none

/--
The device a runner asks for, when it supports one backend; `none` where the
host has no lane for it.
-/
def laneDevice (rules : Rules) (runner : Runner) : Option (Option String) :=
  match runner.supportedBackends with
  | [lane] =>
    if lane = "rocm" then
      if rules.rocmLanePresent then some (some (mapBackendToDevice lane))
      else none
    else if lane = "vulkan" || lane = "cuda" then
      some (some (mapBackendToDevice lane))
    else if runner.deviceClass = "cpu" then some (some "cpu")
    else some none
  | _ => some none

/-- `_reconcile_device_profile`; `none` is the refusal. -/
def reconcileDeviceProfile (rules : Rules) (cfg : Doc) (changed : List String) :
    Option Doc :=
  match carriedRunner rules cfg with
  | none =>
    if "profile" ∈ changed && "binary" ∉ changed &&
        rules.runnerFamilyMismatch (flattened cfg) then
      some (putScalar cfg "binary" none)
    else some cfg
  | some key =>
    if "profile" ∈ changed then
      match rules.runner key with
      | none => some cfg
      | some runner =>
        match laneDevice rules runner with
        | none => none
        | some none => some (putScalar cfg "binary" (some (.text key)))
        | some (some device) =>
          some (putScalar (putScalar cfg "binary" (some (.text key)))
            "device" (some (.text device)))
    else some cfg

/-- `check_runner_family`. -/
def runnerFamilyAccepted (rules : Rules) (cfg : Doc) (changed : List String) :
    Bool :=
  !("binary" ∈ changed || "profile" ∈ changed) ||
    !rules.runnerFamilyMismatch (flattened cfg)

variable {rules : Rules}

theorem laneDevice_ne_npu {runner : Runner} {device : String}
    (lane : laneDevice rules runner = some (some device)) :
    device ≠ "npu" := by
  unfold laneDevice at lane
  split at lane
  · split_ifs at lane with isRocm present isGpu isCpu
    · subst isRocm
      cases lane
      decide
    · simp only [Bool.or_eq_true, decide_eq_true_eq] at isGpu
      rcases isGpu with rfl | rfl <;> cases lane <;> decide
    · cases lane
      decide
    · cases lane
  · cases lane

variable {changed : List String}

theorem reconcile_of_not_mem {cfg : Doc} (noProfile : "profile" ∉ changed) :
    reconcileDeviceProfile rules cfg changed = some cfg := by
  unfold reconcileDeviceProfile
  split <;> simp [noProfile]

/-- Only derived keys change. -/
theorem agreeOff_reconcile {cfg result : Doc}
    (reconciled : reconcileDeviceProfile rules cfg changed = some result) :
    AgreeOff ["binary", "device"] result cfg := by
  have binary : ∀ leaf, AgreeOff ["binary", "device"]
      (putScalar cfg "binary" leaf) cfg := fun leaf =>
    (agreeOff_putScalar (by decide) cfg leaf).mono (by simp)
  unfold reconcileDeviceProfile at reconciled
  split at reconciled
  · split at reconciled <;> cases reconciled
    · exact binary none
    · exact .refl _ cfg
  · split at reconciled
    · split at reconciled
      · cases reconciled
        exact .refl _ cfg
      · split at reconciled <;> cases reconciled
        · exact binary _
        · exact ((agreeOff_putScalar (by decide) _ _).mono (by simp)).trans
            (binary _)
    · cases reconciled
      exact .refl _ cfg

/-- The device of the NPU is never derived. -/
theorem npu_of_reconcile {cfg result : Doc}
    (reconciled : reconcileDeviceProfile rules cfg changed = some result)
    (npu : (hoist result)["device"]? = some (.leaf (.text "npu"))) :
    (hoist cfg)["device"]? = some (.leaf (.text "npu")) := by
  have binary : ∀ leaf, (hoist (putScalar cfg "binary" leaf))["device"]? =
      (hoist cfg)["device"]? := fun leaf =>
    (agreeOff_putScalar (by decide) cfg leaf).off "device" (by decide)
  unfold reconcileDeviceProfile at reconciled
  split at reconciled
  · split at reconciled <;> cases reconciled
    · rwa [binary] at npu
    · exact npu
  · split at reconciled
    · split at reconciled
      · cases reconciled
        exact npu
      · split at reconciled
        · cases reconciled
        · cases reconciled
          rwa [binary] at npu
        · next lane =>
            cases reconciled
            rw [getElem?_hoist_putScalar (by decide)] at npu
            cases npu
            exact absurd rfl (laneDevice_ne_npu lane)
    · cases reconciled
      exact npu

/-! ## The tune overrides -/

/-- The stored overrides which a profile switch judges again. -/
def judgedTune (stored : Table) : List (String × Option Leaf) :=
  ["ctx_size", "speculation"].filterMap fun key =>
    stored[key]?.map fun leaf => (key, some leaf)

/-- `_tune_updates_for_profile_switch`; a stored scalar has no keys to read. -/
def tuneUpdate (merged : Doc) (updates : Updates) : Option (Option Update) :=
  match updates.lookup "tune" with
  | some update => some (some update)
  | none =>
    if "profile" ∈ updates.keys then
      match merged["tune"]? with
      | some (.table stored) =>
        if (judgedTune stored).isEmpty then some none
        else some (some (.table (judgedTune stored)))
      | some (.leaf leaf) =>
        if (Value.leaf leaf).truthy then none else some none
      | none => some none
    else some none

/-- `guard_and_normalize_tune`. -/
def guardAndNormalizeTune (rules : Rules) (merged : Doc) (updates : Updates) :
    Option Update → Option Doc
  | none => some merged
  | some .null => some (merged.erase "tune")
  | some (.leaf _) => none
  | some (.table entries) =>
    (rules.normalizeTune merged updates entries).map fun normalized =>
      if normalized.isEmpty then merged.erase "tune"
      else merged.insert "tune" (.table normalized)

variable {updates : Updates}

theorem agreeOff_tune {merged result : Doc} {update : Option Update}
    (normalized :
      guardAndNormalizeTune rules merged updates update = some result) :
    AgreeOff ["tune"] result merged := by
  rcases update with _ | _ | _ | entries
  · cases normalized
    exact .refl _ merged
  · cases normalized
    exact agreeOff_erase (by decide) merged
  · cases normalized
  · simp only [guardAndNormalizeTune, Option.map_eq_some_iff] at normalized
    obtain ⟨table, -, rfl⟩ := normalized
    split
    · exact agreeOff_erase (by decide) merged
    · exact agreeOff_insert (by decide) merged _

theorem tuneUpdate_of_not_mem {merged : Doc} (noTune : "tune" ∉ updates.keys)
    (noProfile : "profile" ∉ updates.keys) :
    tuneUpdate merged updates = some none := by
  have absent : updates.lookup "tune" = none := by
    rw [List.lookup_eq_none_iff]
    intro update inside
    rw [bne_iff_ne]
    intro same
    exact noTune (same ▸ List.mem_map_of_mem inside)
  simp [tuneUpdate, absent, noProfile]

/-! ## The projection of a write -/

/-- `reconcile_and_guard_slot_config` before it looks at the other slots. -/
def projectSlotUpdates (rules : Rules) (base : Doc) (updates : Updates) :
    Option Doc :=
  if rules.payloadAccepted updates then
    (reconcileDeviceProfile rules (mergeSlotConfig base updates)
      updates.keys).bind fun merged =>
        if runnerFamilyAccepted rules merged updates.keys then
          (tuneUpdate merged updates).bind
            (guardAndNormalizeTune rules merged updates)
        else none
  else none

variable {base : Doc}

theorem projectSlotUpdates_eq_some {result : Doc}
    (projected : projectSlotUpdates rules base updates = some result) :
    ∃ merged update,
      reconcileDeviceProfile rules (mergeSlotConfig base updates)
        updates.keys = some merged ∧
      tuneUpdate merged updates = some update ∧
      guardAndNormalizeTune rules merged updates update = some result := by
  unfold projectSlotUpdates at projected
  split at projected
  · obtain ⟨merged, reconciled, rest⟩ :=
      Option.bind_eq_some_iff.mp projected
    split at rest
    · obtain ⟨update, judged, normalized⟩ :=
        Option.bind_eq_some_iff.mp rest
      exact ⟨merged, update, reconciled, judged, normalized⟩
    · cases rest
  · cases projected

/-- The keys a guarded write can touch beside those of its payload. -/
def derivedKeys (updates : Updates) : List String :=
  if "profile" ∈ updates.keys then ["binary", "device", "tune"]
  else if "tune" ∈ updates.keys then ["tune"]
  else []

/-- The keys which a write can change. -/
def touchedKeys (updates : Updates) : List String :=
  updates.keys ++ derivedKeys updates

theorem derivedKeys_subset (updates : Updates) :
    ∀ key ∈ derivedKeys updates, key ∈ ["binary", "device", "tune"] := by
  intro key inside
  unfold derivedKeys at inside
  split_ifs at inside
  · exact inside
  · exact List.mem_cons_of_mem _ (List.mem_cons_of_mem _ inside)
  · cases inside

theorem agreeOff_after_merge {result : Doc}
    (projected : projectSlotUpdates rules base updates = some result) :
    AgreeOff (derivedKeys updates) result (mergeSlotConfig base updates) := by
  obtain ⟨merged, update, reconciled, judged, normalized⟩ :=
    projectSlotUpdates_eq_some projected
  by_cases profile : "profile" ∈ updates.keys
  · rw [derivedKeys, if_pos profile]
    exact ((agreeOff_tune normalized).mono (by simp)).trans
      ((agreeOff_reconcile reconciled).mono (by simp))
  · rw [reconcile_of_not_mem profile] at reconciled
    cases reconciled
    by_cases tune : "tune" ∈ updates.keys
    · rw [derivedKeys, if_neg profile, if_pos tune]
      exact agreeOff_tune normalized
    · rw [tuneUpdate_of_not_mem tune profile] at judged
      cases judged
      cases normalized
      exact .refl _ _

theorem agreeOff_projectSlotUpdates {result : Doc}
    (noSlot : "slot" ∉ updates.keys)
    (projected : projectSlotUpdates rules base updates = some result) :
    AgreeOff (touchedKeys updates) result base :=
  ((agreeOff_after_merge projected).mono fun _ inside =>
    List.mem_append_right _ inside).trans
      ((agreeOff_mergeSlotConfig noSlot base).mono fun _ inside =>
        List.mem_append_left _ inside)

theorem npu_of_projectSlotUpdates {result : Doc}
    (projected : projectSlotUpdates rules base updates = some result)
    (npu : (hoist result)["device"]? = some (.leaf (.text "npu"))) :
    (hoist (mergeSlotConfig base updates))["device"]? =
      some (.leaf (.text "npu")) := by
  obtain ⟨merged, update, reconciled, -, normalized⟩ :=
    projectSlotUpdates_eq_some projected
  rw [(agreeOff_tune normalized).off "device" (by decide)] at npu
  exact npu_of_reconcile reconciled npu

end Hal0.Slots.ConfigFiles
