import Hal0.Stacks.Schema

/-!
# Records are validated as they were dumped

Each record is validated to what it was before it was dumped, and its dump has
each key once.
-/

namespace Hal0.Stacks.Portable

open Option
open Hal0.Json

variable {Real : Type} (pydantic : Pydantic Real)

/-! ## Words and bounded values -/

@[simp]
theorem asEffort_text (effort : ReasoningEffort) :
    asEffort (.str effort.text : Value Real) = some effort := by
  cases effort <;> rfl

@[simp]
theorem asVision_text (vision : Vision) :
    asVision (.str vision.text : Value Real) = some vision := by
  cases vision <;> rfl

@[simp]
theorem asSpeculation_text (mode : SpeculationMode) :
    asSpeculation (.str mode.text : Value Real) = some mode := by
  cases mode <;> rfl

@[simp]
theorem asWithin_value {low high : Int} (number : Within low high) :
    asWithin pydantic low high (.int number.value) = some number := by
  rw [asWithin, pydantic.asInt_int, bind_some,
    dif_pos ⟨number.above, number.below⟩]

@[simp]
theorem asDevice_text (device : Device) :
    asDevice pydantic (.str device.text) = some device := by
  rw [asDevice, pydantic.asStr_str, bind_some, dif_pos device.valid]

@[simp]
theorem asSlotName_text (name : SlotName) :
    asSlotName pydantic (.str name.text) = some name := by
  rw [asSlotName, pydantic.asStr_str, bind_some, dif_pos name.valid]

@[simp]
theorem idNonempty_text (id : ModelId) : idNonempty id.text = some id := by
  have solid : Slots.ConfigFiles.stripped id.text ≠ [] := by
    rw [id.trimmed]
    exact fun isEmpty => id.nonempty (String.toList_eq_nil_iff.mp isEmpty)
  have same : String.ofList (Slots.ConfigFiles.stripped id.text) = id.text := by
    rw [id.trimmed, String.ofList_toList]
  unfold idNonempty
  rw [dif_pos solid, some.injEq]
  obtain ⟨text, trimmed, nonempty⟩ := id
  simp only [ModelId.mk.injEq]
  exact same

/-! ## Records -/

/-- A dumped tune is read back. -/
theorem validateTune_body (tune : SlotTuneConfig) :
    validateTune pydantic (tuneBody tune) = some tune := by
  have names : ((tuneFields tune).map
      (Prod.fst : String × Option (Value Real) → String)).Nodup :=
    show tuneKeys.Nodup by decide
  have ctxSize := member_nullable tune.ctxSize
    (asWithin_value pydantic) (by simp)
      (lookup_field names "ctx_size" (by simp [tuneFields]))
  have enableThinking := member_nullable tune.enableThinking
    pydantic.asBool_bool (by simp)
      (lookup_field names "enable_thinking" (by simp [tuneFields]))
  have reasoningEffort := member_nullable tune.reasoningEffort asEffort_text
    (by simp) (lookup_field names "reasoning_effort" (by simp [tuneFields]))
  have reasoningBudget := member_nullable tune.reasoningBudget
    (asWithin_value pydantic) (by simp)
      (lookup_field names "reasoning_budget" (by simp [tuneFields]))
  have vision := member_nullable tune.vision asVision_text (by simp)
    (lookup_field names "vision" (by simp [tuneFields]))
  have speculation := member_nullable tune.speculation asSpeculation_text
    (by simp) (lookup_field names "speculation" (by simp [tuneFields]))
  have isKnown : known tuneKeys (dumpFields
      (tuneFields tune : List (String × Option (Value Real)))) = true :=
    known_dumpFields rfl
  rw [tuneBody, validateTune, isKnown, if_pos rfl]
  simp only [ctxSize, enableThinking, reasoningEffort, reasoningBudget, vision,
    speculation]
  rfl

theorem isDefaultEffort_text (effort : ReasoningEffort) :
    isDefaultEffort (.str effort.text : Value Real) = true ↔
      effort = .default := by
  cases effort <;> simp [isDefaultEffort, ReasoningEffort.text]

variable {entries : List (String × Value Real)}

theorem member_effort (effort : ReasoningEffort)
    (found : entries.lookup "reasoning_effort" =
      (some (.str effort.text)).filter fun value : Value Real =>
        !isDefaultEffort value) :
    member entries "reasoning_effort" (some .default) asEffort =
      some effort := by
  rw [member, found, filter_some]
  by_cases isDefault : effort = .default
  · subst isDefault
    rfl
  · have kept : isDefaultEffort (.str effort.text : Value Real) = false :=
      Bool.eq_false_iff.mpr fun dropped =>
        isDefault ((isDefaultEffort_text effort).mp dropped)
    rw [kept]
    exact asEffort_text effort

theorem member_budget (budget : ReasoningBudget)
    (found : entries.lookup "reasoning_budget" =
      (some (.int budget.value)).filter fun value : Value Real =>
        !isUnlimited value) :
    member entries "reasoning_budget" (some ⟨-1, by decide, by decide⟩)
      (asWithin pydantic (-1) (2 ^ 24)) = some budget := by
  rw [member, found, filter_some]
  obtain ⟨value, above, below⟩ := budget
  by_cases unlimited : value = -1
  · subst unlimited
    rfl
  · have kept : isUnlimited (.int value : Value Real) = false :=
      decide_eq_false unlimited
    simp only [kept, Bool.not_false, if_true]
    exact asWithin_value pydantic ⟨value, above, below⟩

theorem validateProfile_of_members {profile : ProfileConfig}
    (isKnown : known profileKeys entries = true)
    (dumped : ∀ (key : String) (value : Option (Value Real)),
      (key, value) ∈ profileFields profile →
      key ≠ "reasoning_effort" → key ≠ "reasoning_budget" →
      entries.lookup key = value)
    (reasoningEffort : member entries "reasoning_effort" (some .default)
      asEffort = some profile.reasoningEffort)
    (reasoningBudget : member entries "reasoning_budget"
      (some ⟨-1, by decide, by decide⟩) (asWithin pydantic (-1) (2 ^ 24)) =
        some profile.reasoningBudget) :
    validateProfile pydantic (.dict entries) = some profile := by
  have flags := member_some (some "") (pydantic.asStr_str profile.flags)
    (dumped "flags" _ (by simp [profileFields]) (by decide) (by decide))
  have ctxSize := member_nullable profile.ctxSize (asWithin_value pydantic)
    (by simp)
    (dumped "ctx_size" _ (by simp [profileFields]) (by decide) (by decide))
  have enableThinking := member_nullable profile.enableThinking
    pydantic.asBool_bool (by simp)
    (dumped "enable_thinking" _ (by simp [profileFields]) (by decide)
      (by decide))
  have vision := member_some (some .auto) (asVision_text profile.vision)
    (dumped "vision" _ (by simp [profileFields]) (by decide) (by decide))
  have speculation := member_some (some .auto)
    (asSpeculation_text profile.speculation)
    (dumped "speculation" _ (by simp [profileFields]) (by decide) (by decide))
  have runner := member_nullable profile.runner pydantic.asStr_str (by simp)
    (dumped "runner" _ (by simp [profileFields]) (by decide) (by decide))
  have clonedFrom := member_nullable profile.clonedFrom pydantic.asStr_str
    (by simp)
    (dumped "cloned_from" _ (by simp [profileFields]) (by decide) (by decide))
  have intent := member_some (some "") (pydantic.asStr_str profile.intent)
    (dumped "intent" _ (by simp [profileFields]) (by decide) (by decide))
  rw [validateProfile, isKnown, if_pos rfl]
  simp only [flags, ctxSize, enableThinking, vision, reasoningEffort,
    reasoningBudget, speculation, runner, clonedFrom, intent]
  rfl

theorem lookup_profileBody (profile : ProfileConfig) (key : String)
    {value : Option (Value Real)}
    (isField : (key, value) ∈ profileFields profile) :
    (dumpFields (profileFields profile)).lookup key = value := by
  have names : ((profileFields profile).map
      (Prod.fst : String × Option (Value Real) → String)).Nodup :=
    show profileKeys.Nodup by decide
  exact lookup_field names key isField

theorem validateProfile_body (profile : ProfileConfig) :
    validateProfile pydantic (profileBody profile) = some profile := by
  refine validateProfile_of_members pydantic (known_dumpFields rfl)
    (fun key _ isField _ _ => lookup_profileBody profile key isField) ?_ ?_
  · exact member_some (some .default) (asEffort_text profile.reasoningEffort)
      (lookup_profileBody profile "reasoning_effort" (by simp [profileFields]))
  · exact member_some _ (asWithin_value pydantic profile.reasoningBudget)
      (lookup_profileBody profile "reasoning_budget" (by simp [profileFields]))

/-- So is a profile. -/
theorem validateProfile_dump (profile : ProfileConfig) :
    validateProfile pydantic (profileSparseDump profile) = some profile := by
  have effort : (sparseProfileBody (dumpFields (profileFields profile))).lookup
      "reasoning_effort" =
      (some (.str profile.reasoningEffort.text)).filter
        fun value : Value Real => !isDefaultEffort value := by
    rw [sparseProfileBody, lookup_dropWhen_of_ne (by decide),
      lookup_dropWhen_self]
    exact congrArg _ (lookup_profileBody profile "reasoning_effort"
      (by simp [profileFields]))
  have budget : (sparseProfileBody (dumpFields (profileFields profile))).lookup
      "reasoning_budget" =
      (some (.int profile.reasoningBudget.value)).filter
        fun value : Value Real => !isUnlimited value := by
    rw [sparseProfileBody, lookup_dropWhen_self,
      lookup_dropWhen_of_ne (by decide)]
    exact congrArg _ (lookup_profileBody profile "reasoning_budget"
      (by simp [profileFields]))
  refine validateProfile_of_members pydantic
    (known_dropWhen (known_dropWhen (known_dumpFields rfl) _ _) _ _) ?_
    (member_effort profile.reasoningEffort effort)
    (member_budget pydantic profile.reasoningBudget budget)
  intro key value isField notEffort notBudget
  rw [sparseProfileBody, lookup_dropWhen_of_ne notBudget,
    lookup_dropWhen_of_ne notEffort]
  exact lookup_profileBody profile key isField

/-- So is a model. -/
theorem validateModel_body (model : StackModelMeta) :
    validateModel pydantic (modelBody model) = some model := by
  have names : ((modelFields model).map
      (Prod.fst : String × Option (Value Real) → String)).Nodup :=
    show modelKeys.Nodup by decide
  have dumped : ∀ (key : String) (value : Option (Value Real)),
      (key, value) ∈ modelFields model →
      (dumpFields (modelFields model)).lookup key = value :=
    fun key _ isField => lookup_field names key isField
  have id : member (dumpFields (modelFields model)) "id" none
      (fun value => (pydantic.asStr value).bind idNonempty) =
        some model.id := by
    rw [member, dumped "id" (some (.str model.id.text)) (by simp [modelFields])]
    simp only [pydantic.asStr_str, bind_some, idNonempty_text]
  have name := member_some (some "") (pydantic.asStr_str model.name)
    (dumped "name" _ (by simp [modelFields]))
  have hfRepo := member_some (some "") (pydantic.asStr_str model.hfRepo)
    (dumped "hf_repo" _ (by simp [modelFields]))
  have hfFilename := member_some (some "")
    (pydantic.asStr_str model.hfFilename)
    (dumped "hf_filename" _ (by simp [modelFields]))
  have sizeBytes := member_some (some 0) (pydantic.asInt_int model.sizeBytes)
    (dumped "size_bytes" _ (by simp [modelFields]))
  have quant := member_some (some "") (pydantic.asStr_str model.quant)
    (dumped "quant" _ (by simp [modelFields]))
  have capabilities := member_some (some [])
    (readList_map pydantic.asStr_str model.capabilities)
    (dumped "capabilities" _ (by simp [modelFields]))
  have backends := member_some (some [])
    (readList_map pydantic.asStr_str model.backends)
    (dumped "backends" _ (by simp [modelFields]))
  have provider := member_nullable model.provider pydantic.asStr_str (by simp)
    (dumped "provider" _ (by simp [modelFields]))
  have mmproj := member_nullable model.mmproj pydantic.asStr_str (by simp)
    (dumped "mmproj" _ (by simp [modelFields]))
  have isKnown : known modelKeys (dumpFields
      (modelFields model : List (String × Option (Value Real)))) = true :=
    known_dumpFields rfl
  rw [modelBody, validateModel, isKnown, if_pos rfl]
  simp only [id, name, hfRepo, hfFilename, sizeBytes, quant, capabilities,
    backends, provider, mmproj]
  rfl

/-- So is a capability. -/
theorem validateRow_body (row : StackCapabilityRow) :
    validateRow pydantic (rowBody row) = some row := by
  have names : ((rowFields row).map
      (Prod.fst : String × Option (Value Real) → String)).Nodup :=
    show rowKeys.Nodup by decide
  have dumped : ∀ (key : String) (value : Option (Value Real)),
      (key, value) ∈ rowFields row →
      (dumpFields (rowFields row)).lookup key = value :=
    fun key _ isField => lookup_field names key isField
  have child := member_some none (pydantic.asStr_str row.child)
    (dumped "child" _ (by simp [rowFields]))
  have device := member_some none
    (asDevice_text pydantic row.device)
    (dumped "device" _ (by simp [rowFields]))
  have provider := member_some none (pydantic.asStr_str row.provider)
    (dumped "provider" _ (by simp [rowFields]))
  have model := member_some none (pydantic.asStr_str row.model)
    (dumped "model" _ (by simp [rowFields]))
  have enabled := member_some (some true) (pydantic.asBool_bool row.enabled)
    (dumped "enabled" _ (by simp [rowFields]))
  have isKnown : known rowKeys (dumpFields
      (rowFields row : List (String × Option (Value Real)))) = true :=
    known_dumpFields rfl
  rw [rowBody, validateRow, isKnown, if_pos rfl]
  simp only [child, device, provider, model, enabled]
  rfl

/-- So is an entry. -/
theorem validateEntry_body (entry : StackSlotEntry) :
    validateEntry pydantic (entryBody entry) = some entry := by
  have names : ((entryFields entry).map
      (Prod.fst : String × Option (Value Real) → String)).Nodup :=
    show entryKeys.Nodup by decide
  have dumped : ∀ (key : String) (value : Option (Value Real)),
      (key, value) ∈ entryFields entry →
      (dumpFields (entryFields entry)).lookup key = value :=
    fun key _ isField => lookup_field names key isField
  have slot := member_some none
    (asSlotName_text pydantic entry.slot)
    (dumped "slot" _ (by simp [entryFields]))
  have profile := member_nullable entry.profile pydantic.asStr_str (by simp)
    (dumped "profile" _ (by simp [entryFields]))
  have model := member_nullable entry.model pydantic.asStr_str (by simp)
    (dumped "model" _ (by simp [entryFields]))
  have device := member_nullable entry.device
    (asDevice_text pydantic) (by simp)
    (dumped "device" _ (by simp [entryFields]))
  have provider := member_nullable entry.provider pydantic.asStr_str (by simp)
    (dumped "provider" _ (by simp [entryFields]))
  have capabilities := member_some (some [])
    (readList_map (validateRow_body pydantic) entry.capabilities)
    (dumped "capabilities" _ (by simp [entryFields]))
  have tune := member_nullable entry.tune
    (validateTune_body pydantic) (by simp [tuneBody])
    (dumped "tune" _ (by simp [entryFields]))
  have isKnown : known entryKeys (dumpFields
      (entryFields entry : List (String × Option (Value Real)))) = true :=
    known_dumpFields rfl
  rw [entryBody, validateEntry, isKnown, if_pos rfl]
  simp only [slot, profile, model, device, provider, capabilities, tune]
  rfl

/-- A stack is validated to what it was before it was dumped, if each profile
is. -/
theorem validateStack_fields {dump : ProfileConfig → Value Real}
    (back : ∀ profile, validateProfile pydantic (dump profile) = some profile)
    (stack : StackConfig) :
    validateStack pydantic (.dict (dumpFields (stackFields dump stack))) =
      some stack := by
  have names : ((stackFields dump stack).map
      (Prod.fst : String × Option (Value Real) → String)).Nodup :=
    show stackKeys.Nodup by decide
  have dumped : ∀ (key : String) (value : Option (Value Real)),
      (key, value) ∈ stackFields dump stack →
      (dumpFields (stackFields dump stack)).lookup key = value :=
    fun key _ isField => lookup_field names key isField
  have name := member_some (some "") (pydantic.asStr_str stack.name)
    (dumped "name" _ (by simp [stackFields]))
  have description := member_some (some "")
    (pydantic.asStr_str stack.description)
    (dumped "description" _ (by simp [stackFields]))
  have author := member_some (some "") (pydantic.asStr_str stack.author)
    (dumped "author" _ (by simp [stackFields]))
  have icon := member_some (some "") (pydantic.asStr_str stack.icon)
    (dumped "icon" _ (by simp [stackFields]))
  have tags := member_some (some [])
    (readList_map pydantic.asStr_str stack.tags)
    (dumped "tags" _ (by simp [stackFields]))
  have schemaVersion := member_some (some stackSchemaVersionCurrent)
    (pydantic.asInt_int stack.schemaVersion)
    (dumped "schema_version" _ (by simp [stackFields]))
  have hal0Version := member_some (some "")
    (pydantic.asStr_str stack.hal0Version)
    (dumped "hal0_version" _ (by simp [stackFields]))
  have slots := member_some (some [])
    (readList_map (validateEntry_body pydantic) stack.slots)
    (dumped "slots" _ (by simp [stackFields]))
  have profiles := member_some (some ⟨[], List.nodup_nil⟩)
    (readTable_map back stack.profiles)
    (dumped "profiles" _ (by simp [stackFields]))
  have models := member_some (some ⟨[], List.nodup_nil⟩)
    (readTable_map (validateModel_body pydantic) stack.models)
    (dumped "models" _ (by simp [stackFields]))
  have isKnown : known stackKeys (dumpFields
      (stackFields dump stack)) = true :=
    known_dumpFields rfl
  rw [validateStack, isKnown, if_pos rfl]
  simp only [name, description, author, icon, tags, schemaVersion, hal0Version,
    slots, profiles, models]
  rfl

theorem validateStack_body (stack : StackConfig) :
    validateStack pydantic (stackBody stack) = some stack :=
  validateStack_fields pydantic (validateProfile_dump pydantic) stack

theorem validateStack_stored (stack : StackConfig) :
    validateStack pydantic (storedStackBody stack) = some stack :=
  validateStack_fields pydantic (validateProfile_body pydantic) stack

/-! ## Each key once -/

theorem distinct_texts (texts : List String) :
    Distinct (.list (texts.map .str) : Value Real) :=
  distinct_list distinct_str texts

theorem distinct_tune (tune : SlotTuneConfig) :
    Distinct (tuneBody tune : Value Real) := by
  refine distinct_dumpFields (show tuneKeys.Nodup by decide) ?_
  simp [tuneFields, -Bool.exists_bool, -Bool.forall_bool]

theorem distinct_profile (profile : ProfileConfig) :
    Distinct (profileSparseDump profile : Value Real) := by
  refine distinct_dropWhen (distinct_dropWhen ?_ _ _) _ _
  refine distinct_dumpFields (show profileKeys.Nodup by decide) ?_
  simp [profileFields, -Bool.exists_bool, -Bool.forall_bool]

theorem distinct_model (model : StackModelMeta) :
    Distinct (modelBody model : Value Real) := by
  refine distinct_dumpFields (show modelKeys.Nodup by decide) ?_
  have capabilities :
      Distinct (.list (model.capabilities.map .str) : Value Real) :=
    distinct_texts model.capabilities
  have backends : Distinct (.list (model.backends.map .str) : Value Real) :=
    distinct_texts model.backends
  simp [modelFields, capabilities, backends]

theorem distinct_row (row : StackCapabilityRow) :
    Distinct (rowBody row : Value Real) := by
  refine distinct_dumpFields (show rowKeys.Nodup by decide) ?_
  simp [rowFields]

theorem distinct_entry (entry : StackSlotEntry) :
    Distinct (entryBody entry : Value Real) := by
  refine distinct_dumpFields (show entryKeys.Nodup by decide) ?_
  have capabilities :
      Distinct (.list (entry.capabilities.map rowBody) : Value Real) :=
    distinct_list distinct_row entry.capabilities
  have tune : ∀ tune, Distinct (tuneBody tune : Value Real) := distinct_tune
  simp [entryFields, capabilities, tune]

/-- A dumped stack repeats no key. -/
theorem distinct_stack (stack : StackConfig) :
    Distinct (stackBody stack : Value Real) := by
  refine distinct_dumpFields (show stackKeys.Nodup by decide) ?_
  have tags : Distinct (.list (stack.tags.map .str) : Value Real) :=
    distinct_texts stack.tags
  have slots : Distinct (.list (stack.slots.map entryBody) : Value Real) :=
    distinct_list distinct_entry stack.slots
  have profiles : Distinct (.dict (stack.profiles.entries.map fun profile =>
      (profile.1, profileSparseDump profile.2)) : Value Real) :=
    distinct_table distinct_profile stack.profiles
  have models : Distinct (.dict (stack.models.entries.map fun model =>
      (model.1, modelBody model.2)) : Value Real) :=
    distinct_table distinct_model stack.models
  simp [stackFields, tags, slots, profiles, models]

end Hal0.Stacks.Portable
