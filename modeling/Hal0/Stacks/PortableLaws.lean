import Hal0.Stacks.Portable

/-!
# What was exported is imported

An envelope which is written and read again has a right checksum, and is
parsed to the stack which was exported with its references.  Under its checksum
no other stack passes.
-/

namespace Hal0.Stacks.Portable

open List Option
open Hal0.Json
open Hal0.Slots.ConfigFiles (stripped)

/-! ## References -/

section References

variable {sources : Sources} {stack embedded : StackConfig}

/-- The id that the metadata has. -/
def metaId (sources : Sources) (mid : String) : String :=
  ((sources.registry mid).map Model.id).getD mid

/-- The metadata has a name to go by. -/
def isNamed (sources : Sources) (mid : String) : Bool :=
  stripped (metaId sources mid) ≠ []

theorem idNonempty_isSome {text : String} :
    (idNonempty text).isSome = true ↔ stripped text ≠ [] := by
  unfold idNonempty
  split
  · next solid => simpa using solid
  · next blank => simpa using blank

theorem embedModel_isSome {mid : String} :
    (embedModel sources mid).isSome = true ↔ isNamed sources mid = true := by
  unfold embedModel isNamed metaId
  cases sources.registry mid with
  | none => simpa using idNonempty_isSome
  | some model => simpa using idNonempty_isSome

theorem embedModels_isSome {mids : List String} {models : Table StackModelMeta} :
    (embedModels sources mids models).isSome = true ↔
      ∀ mid ∈ mids, isNamed sources mid = true := by
  induction mids generalizing models with
  | nil => simp [embedModels]
  | cons mid rest ih =>
    rw [forall_mem_cons, ← embedModel_isSome, embedModels]
    cases embedModel sources mid with
    | none => simp
    | some model => simpa using ih

theorem mem_inOrder {names : List String} {name : String} :
    name ∈ inOrder names ↔ name ∈ names :=
  mem_insertionSort _

theorem embedReferences_isSome :
    (embedReferences sources stack).isSome = true ↔
      ∀ mid ∈ referencedModelIds stack, isNamed sources mid = true := by
  rw [embedReferences, isSome_map, embedModels_isSome]
  simp only [mem_inOrder]

section

variable (isEmbedded : embedReferences sources stack = some embedded)
include isEmbedded

theorem embedReferences_eq_some :
    ∃ models, embedModels sources (inOrder (referencedModelIds stack))
        Table.empty = some models ∧
      embedded = { stack with
        profiles := (inOrder (referencedProfileNames stack)).foldl
          (embedProfile sources) Table.empty
        models := models
        hal0Version := sources.version } := by
  obtain ⟨models, built, same⟩ := map_eq_some_iff.mp isEmbedded
  exact ⟨models, built, same.symm⟩

theorem slots_of_embedded :
    embedded.slots = stack.slots := by
  obtain ⟨models, -, rfl⟩ := embedReferences_eq_some isEmbedded
  rfl

theorem schemaVersion_of_embedded :
    embedded.schemaVersion = stack.schemaVersion := by
  obtain ⟨models, -, rfl⟩ := embedReferences_eq_some isEmbedded
  rfl

end

end References

/-! ## The checksum -/

section Checksum

variable {Real : Type} {floats : Floats Real} {hash : List Char → String}
  {embedded : StackConfig} {exportedAt : String}

theorem distinct_envelope : Distinct
    (.dict (envelopeOf floats hash embedded exportedAt) : Value Real) := by
  have names : ((envelopeOf floats hash embedded exportedAt).map
      (Prod.fst : String × Value Real → String)).Nodup :=
    show ["kind", "schema_version", "hal0_version", "exported_at", "checksum",
      "stack"].Nodup by decide
  refine ⟨names, distinctEntries_iff.mpr ?_⟩
  simp [envelopeOf, distinct_stack]

theorem lookup_stack_envelope :
    (envelopeOf floats hash embedded exportedAt).lookup "stack" =
      some (stackBody embedded : Value Real) := by
  simp [envelopeOf, lookup_cons]

theorem lookup_checksum_envelope :
    (envelopeOf floats hash embedded exportedAt).lookup "checksum" =
      some (.str (checksum floats hash (stackBody embedded)) : Value Real) := by
  simp [envelopeOf, lookup_cons]

theorem verifyChecksum_envelope :
    verifyChecksum floats hash (envelopeOf floats hash embedded exportedAt) =
      true := by
  unfold verifyChecksum
  rw [lookup_stack_envelope, lookup_checksum_envelope]
  exact decide_eq_true rfl

theorem checksum_injective (injective : Function.Injective hash)
    {first second : Value Real}
    (same : checksum floats hash first = checksum floats hash second) :
    sorted first = sorted second := by
  have sameHash : hash (dumpsSorted floats first) =
      hash (dumpsSorted floats second) :=
    String.append_right_inj _ |>.mp same
  exact sorted_eq_of_dumps (injective sameHash)

theorem sorted_eq_of_verified (injective : Function.Injective hash)
    {changed : Value Real}
    (verified : verifyChecksum floats hash
      (setEntry (envelopeOf floats hash embedded exportedAt) "stack"
        changed) = true) :
    sorted changed = sorted (stackBody embedded) := by
  unfold verifyChecksum at verified
  rw [lookup_setEntry, lookup_setEntry, if_pos rfl, if_neg (by decide),
    lookup_checksum_envelope] at verified
  cases changed with
  | dict body =>
    exact (checksum_injective injective (of_decide_eq_true verified)).symm
  | _ => exact absurd verified Bool.false_ne_true

end Checksum

/-! ## Parsing -/

section Parsing

variable {Real : Type} {floats : Floats Real} {hash : List Char → String}
  {pydantic : Pydantic Real} {embedded : StackConfig} {exportedAt : String}

theorem lookup_stackBody (key : String) {value : Option (Value Real)}
    (isField : (key, value) ∈ stackFields profileSparseDump embedded) :
    (dumpFields (stackFields profileSparseDump embedded)).lookup key = value := by
  have names : ((stackFields profileSparseDump embedded).map
      (Prod.fst : String × Option (Value Real) → String)).Nodup :=
    show stackKeys.Nodup by decide
  exact lookup_field names key isField

theorem stampedVersions_envelope :
    stampedVersions (envelopeOf floats hash embedded exportedAt :
        List (String × Value Real)) =
      [.int embedded.schemaVersion, .int embedded.schemaVersion] := by
  have inner : (dumpFields (stackFields profileSparseDump embedded)).lookup
      "schema_version" = some (.int embedded.schemaVersion : Value Real) :=
    lookup_stackBody "schema_version" (by simp [stackFields])
  have outer : (envelopeOf floats hash embedded exportedAt).lookup
      "schema_version" = some (.int embedded.schemaVersion : Value Real) := by
    simp [envelopeOf, lookup_cons]
  unfold stampedVersions
  rw [outer, lookup_stack_envelope]
  simp [stackBody, inner]

theorem refuseOldSchema_envelope :
    refuseOldSchema (envelopeOf floats hash embedded exportedAt :
        List (String × Value Real)) = .ok () ↔
      stackEnvelopeSchemaMin ≤ embedded.schemaVersion := by
  have isLeast : least (([.int embedded.schemaVersion,
      .int embedded.schemaVersion] : List (Value Real)).filterMap fun version =>
        (asNumber version).map fun number => (number, version)) =
      some (embedded.schemaVersion, .int embedded.schemaVersion) := by
    simp [asNumber, least]
  unfold refuseOldSchema
  rw [stampedVersions_envelope, isLeast]
  by_cases old : embedded.schemaVersion < stackEnvelopeSchemaMin
  · simp [old]
  · simpa [old] using not_lt.mp old

theorem predatesSpeculation_dump (profile : ProfileConfig) :
    predatesSpeculation (profileSparseDump profile : Value Real) = false := by
  have names : ((profileFields profile).map
      (Prod.fst : String × Option (Value Real) → String)).Nodup :=
    show profileKeys.Nodup by decide
  have missing : (sparseProfileBody (dumpFields
      (profileFields profile : List (String × Option (Value Real))))).lookup
        "mtp" = none := by
    rw [sparseProfileBody, lookup_dropWhen_of_ne (by decide),
      lookup_dropWhen_of_ne (by decide), lookup_dumpFields names]
    rfl
  rw [profileSparseDump, predatesSpeculation, missing]
  rfl

theorem staleProfiles_envelope :
    staleProfiles (envelopeOf floats hash embedded exportedAt :
      List (String × Value Real)) = [] := by
  have inner : (dumpFields (stackFields profileSparseDump embedded)).lookup
      "profiles" = some (.dict (embedded.profiles.entries.map fun profile =>
        (profile.1, profileSparseDump profile.2)) : Value Real) :=
    lookup_stackBody "profiles" (by simp [stackFields])
  have isFresh : (embedded.profiles.entries.map fun profile =>
      (profile.1, (profileSparseDump profile.2 : Value Real))).filter
        (fun profile => predatesSpeculation profile.2) = [] := by
    rw [filter_eq_nil_iff]
    intro profile isIn
    obtain ⟨stored, -, rfl⟩ := mem_map.mp isIn
    simp [predatesSpeculation_dump]
  unfold staleProfiles
  rw [lookup_stack_envelope]
  simp only [stackBody, inner, isFresh]
  rfl

theorem validateEnvelope_envelope :
    validateEnvelope pydantic (envelopeOf floats hash embedded exportedAt) =
      some ⟨envelopeKind, embedded.schemaVersion, embedded.hal0Version,
        exportedAt, checksum floats hash (stackBody embedded : Value Real),
        embedded⟩ := by
  unfold validateEnvelope
  simp only [member, envelopeOf, lookup_cons]
  simp [pydantic.asStr_str, pydantic.asInt_int, validateStack_body]

/-- The envelopes which are read. -/
theorem parseEnvelope_eq_ok {data : List (String × Value Real)}
    {parsed : StackEnvelope} :
    parseEnvelope pydantic (.dict data) = .ok parsed ↔
      isEnvelopeKind ((data.lookup "kind").getD .null) = true ∧
        refuseOldSchema data = .ok () ∧ refusePreSpeculation data = .ok () ∧
          validateEnvelope pydantic data = some parsed := by
  simp only [parseEnvelope]
  cases isEnvelopeKind ((data.lookup "kind").getD .null) with
  | false => simp
  | true =>
    cases refuseOldSchema data with
    | error refusal => simp [bind, Except.bind]
    | ok passed =>
      cases refusePreSpeculation data with
      | error refusal => simp [bind, Except.bind]
      | ok passed =>
        cases validateEnvelope pydantic data with
        | none => simp [bind, Except.bind]
        | some envelope => simp [bind, Except.bind]

/-- An export is read again. -/
theorem parseEnvelope_envelope :
    (∃ parsed, parseEnvelope pydantic
        (.dict (envelopeOf floats hash embedded exportedAt)) = .ok parsed ∧
      parsed.stack = embedded) ↔
      stackEnvelopeSchemaMin ≤ embedded.schemaVersion := by
  have kind : isEnvelopeKind (((envelopeOf floats hash embedded
      exportedAt).lookup "kind").getD (.null : Value Real)) = true := by
    simp [envelopeOf, isEnvelopeKind]
  have fresh : refusePreSpeculation (envelopeOf floats hash embedded
      exportedAt : List (String × Value Real)) = .ok () := by
    rw [refusePreSpeculation, if_pos staleProfiles_envelope]
  constructor
  · rintro ⟨parsed, isParsed, -⟩
    obtain ⟨-, recent, -, -⟩ := parseEnvelope_eq_ok.mp isParsed
    exact refuseOldSchema_envelope.mp recent
  · intro recent
    exact ⟨_, parseEnvelope_eq_ok.mpr ⟨kind,
      refuseOldSchema_envelope.mpr recent, fresh, validateEnvelope_envelope⟩,
      rfl⟩

end Parsing

/-! ## The round trip -/

section RoundTrip

variable {Real : Type}

/-- Some path tells the values apart. -/
def Differs (first second : Value Real) : Prop :=
  ∃ path, (inside first path).map sorted ≠ (inside second path).map sorted

/-- An envelope which was written, read and parsed again is as it was, and no
change of its stack passes under its checksum. -/
structure Trip (floats : Floats Real) (hash : List Char → String)
    (pydantic : Pydantic Real) (style : Style) (stack embedded : StackConfig)
    (envelope back : List (String × Value Real)) (parsed : StackEnvelope) :
    Prop where
  isRead : loads floats (write floats style 0 (.dict envelope)) =
    some (.dict back)
  verified : verifyChecksum floats hash back = true
  isParsed : parseEnvelope pydantic (.dict back) = .ok parsed
  same : parsed.stack = embedded
  slots : parsed.stack.slots = stack.slots
  tamper : ∀ changed, Differs changed (stackBody embedded) →
    verifyChecksum floats hash (setEntry back "stack" changed) = false

/-- A stack is exported, and comes back. -/
def RoundTrips (floats : Floats Real) (hash : List Char → String)
    (pydantic : Pydantic Real) (style : Style) (sources : Sources)
    (stack : StackConfig) (exportedAt : String) : Prop :=
  ∃ embedded envelope back parsed,
    embedReferences sources stack = some embedded ∧
      exportEnvelope floats hash sources stack exportedAt = some envelope ∧
        Trip floats hash pydantic style stack embedded envelope back parsed

variable {floats : Floats Real} {hash : List Char → String}
  {pydantic : Pydantic Real} {style : Style} {sources : Sources}
  {stack embedded : StackConfig} {exportedAt : String}

theorem exportEnvelope_of_embedded
    (isEmbedded : embedReferences sources stack = some embedded) :
    exportEnvelope floats hash sources stack exportedAt =
      some (envelopeOf floats hash embedded exportedAt) := by
  rw [exportEnvelope, isEmbedded, map_some]

theorem loads_envelope :
    loads floats (write floats style 0
      (.dict (envelopeOf floats hash embedded exportedAt))) =
        some (.dict (envelopeOf floats hash embedded exportedAt)) :=
  loads_write distinct_envelope

theorem verifyChecksum_of_differs (injective : Function.Injective hash)
    {changed : Value Real} (differs : Differs changed (stackBody embedded)) :
    verifyChecksum floats hash
      (setEntry (envelopeOf floats hash embedded exportedAt) "stack"
        changed) = false := by
  rw [Bool.eq_false_iff]
  intro verified
  have same := sorted_eq_of_verified injective verified
  obtain ⟨path, differ⟩ := differs
  apply differ
  rw [← inside_sorted, ← inside_sorted, same]

theorem schemaVersion_of_roundTrips
    (trips : RoundTrips floats hash pydantic style sources stack exportedAt) :
    stackEnvelopeSchemaMin ≤ stack.schemaVersion := by
  obtain ⟨embedded, envelope, back, parsed, isEmbedded, isExported, trip⟩ :=
    trips
  rw [exportEnvelope_of_embedded isEmbedded, some.injEq] at isExported
  have isBack := trip.isRead
  rw [← isExported, loads_envelope, some.injEq, Value.dict.injEq]
    at isBack
  have isParsed := trip.isParsed
  rw [← isBack] at isParsed
  rw [← schemaVersion_of_embedded isEmbedded]
  exact parseEnvelope_envelope.mp ⟨parsed, isParsed, trip.same⟩

/-- An export comes back as it was, unless the stack is of an older schema
than the importer reads or refers to a model with a blank id. -/
theorem roundTrips_iff (injective : Function.Injective hash) :
    RoundTrips floats hash pydantic style sources stack exportedAt ↔
      stackEnvelopeSchemaMin ≤ stack.schemaVersion ∧
        ∀ mid ∈ referencedModelIds stack, isNamed sources mid = true := by
  constructor
  · intro trips
    refine ⟨schemaVersion_of_roundTrips trips, ?_⟩
    obtain ⟨embedded, -, -, -, isEmbedded, -⟩ := trips
    exact embedReferences_isSome.mp (isSome_of_eq_some isEmbedded)
  · rintro ⟨recent, named⟩
    obtain ⟨embedded, isEmbedded⟩ :=
      isSome_iff_exists.mp (embedReferences_isSome.mpr named)
    rw [← schemaVersion_of_embedded isEmbedded] at recent
    have parses : ∃ parsed, parseEnvelope pydantic
        (.dict (envelopeOf floats hash embedded exportedAt)) = .ok parsed ∧
          parsed.stack = embedded :=
      parseEnvelope_envelope.mpr recent
    obtain ⟨parsed, isParsed, same⟩ := parses
    exact ⟨embedded, envelopeOf floats hash embedded exportedAt, _, parsed,
      isEmbedded, exportEnvelope_of_embedded isEmbedded,
      { isRead := loads_envelope
        verified := verifyChecksum_envelope
        isParsed := isParsed
        same := same
        slots := by rw [same, slots_of_embedded isEmbedded]
        tamper := fun changed differs =>
          verifyChecksum_of_differs injective differs }⟩

end RoundTrip

/-! ## Two exports -/

/-- Texts, numbers and truth values as they stand. -/
def uncoerced : Pydantic Empty where
  asStr | .str text => some text | _ => none
  asInt | .int value => some value | _ => none
  asBool | .bool value => some value | _ => none
  report _ := "Input should be a valid value"
  asStr_str _ := rfl
  asInt_int _ := rfl
  asBool_bool _ := rfl

/-- An empty registry, and an empty catalogue. -/
def bareSources : Sources where
  registry _ := none
  curated _ := none
  profiles := Table.empty
  version := "1.5.0"
  lower text := text.map Char.toLower

/-- A stack of one slot, as it is stored under a schema version. -/
def chatStack (version : Int) : StackConfig where
  name := "Chat"
  description := ""
  author := ""
  icon := ""
  tags := []
  schemaVersion := version
  hal0Version := ""
  slots :=
    [{ slot := ⟨"chat", by decide⟩
       profile := some "tuned"
       model := some "qwen3-4b"
       device := none
       provider := none
       capabilities := []
       tune := none }]
  profiles := Table.empty
  models := Table.empty

/-- What the checksum of the exported stack is taken of. -/
def chatText : String :=
  "\x7b\"author\": \"\", \"description\": \"\", \"hal0_version\": \"1.5.0\", " ++
  "\"icon\": \"\", \"models\": \x7b\"qwen3-4b\": \x7b\"backends\": [], " ++
  "\"capabilities\": [], \"hf_filename\": \"\", \"hf_repo\": \"\", " ++
  "\"id\": \"qwen3-4b\", \"name\": \"\", \"quant\": \"\", " ++
  "\"size_bytes\": 0\x7d\x7d, \"name\": \"Chat\", \"profiles\": \x7b\x7d, " ++
  "\"schema_version\": 3, \"slots\": [\x7b\"capabilities\": [], " ++
  "\"model\": \"qwen3-4b\", \"profile\": \"tuned\", " ++
  "\"slot\": \"chat\"\x7d], \"tags\": []\x7d"

/-- The digest of that text, and some other text for any other. -/
def digest (text : List Char) : String :=
  if text = chatText.toList then
    "7af5a8b2fbce37c1b1e2f760589fd1a063c54870fca37fad48e1f3441390fcab"
  else String.ofList ('x' :: text)

theorem digest_injective : Function.Injective digest := by
  have isHex : ∀ text : List Char,
      "7af5a8b2fbce37c1b1e2f760589fd1a063c54870fca37fad48e1f3441390fcab" ≠
        String.ofList ('x' :: text) := by
    intro text same
    have chars := congrArg String.toList same
    rw [String.toList_ofList] at chars
    simp at chars
  intro first second same
  unfold digest at same
  split at same
  · next isFirst =>
      split at same
      · next isSecond => rw [isFirst, isSecond]
      · exact absurd same (isHex second)
  · split at same
    · exact absurd same.symm (isHex first)
    · have chars := congrArg String.toList same
      rw [String.toList_ofList, String.toList_ofList] at chars
      exact (List.cons.inj chars).2

/-- A stack of one chat slot. -/
theorem chat_roundTrips :
    RoundTrips noFloats digest uncoerced plain bareSources (chatStack 3)
      "2026-08-01T00:00:00+00:00" :=
  (roundTrips_iff digest_injective).mpr ⟨by decide, by decide⟩

/-- A stack which is stored under the schema before is exported to an envelope
which is refused. -/
theorem old_not_roundTrips :
    ¬ RoundTrips noFloats digest uncoerced plain bareSources (chatStack 2)
      "2026-08-01T00:00:00+00:00" :=
  fun trips => absurd (schemaVersion_of_roundTrips trips) (by decide)

end Hal0.Stacks.Portable
