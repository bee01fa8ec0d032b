import Hal0.Registry.ModelRows

/-!
# Rows which are read back

A model is the same after it was written to a row just if none of its metadata
keys is reserved and it has no value which a row takes for an absent one: an
empty license, an empty tokenizer repository, or a context length of null.
-/

namespace Hal0.Registry.Rows

open List
open Hal0.Json

variable {Real : Type} {floats : Floats Real}

/-! ## Texts -/

@[simp]
theorem orNone_orElse (text : String) : orElse (orNone text) "" = text := by
  unfold orElse orNone
  by_cases isEmpty : text = ""
  · simp [isEmpty]
  · simp [isEmpty]

@[simp]
theorem orElse_some (text other : String) :
    orElse (some text) other = if text = "" then other else text := by
  unfold orElse orNone
  by_cases isEmpty : text = ""
  · simp [isEmpty]
  · simp [isEmpty]

@[simp]
theorem ite_empty (text : String) : (if text = "" then "" else text) = text := by
  split
  · next isEmpty => exact isEmpty.symm
  · rfl

theorem map_of_map_text (words : List Word) :
    (words.map Word.text).map Word.of = words := by
  rw [map_map]
  exact map_id'' Word.of_text words

@[simp]
theorem option_of_text (word : Option Word) :
    (word.map Word.text).map Word.of = word := by
  cases word <;> simp

@[simp]
theorem readDraftKind_text (kind : Option DraftKind) :
    readDraftKind (kind.map DraftKind.text) = some kind := by
  rcases kind with _ | _ | _ | _ | _ <;> rfl

@[simp]
theorem readTriState_triState (truth : Truth Real) (value : Option Bool) :
    readTriState truth (triState value) = value := by
  cases value <;> rfl

/-- The words are read back. -/
theorem readWords_wordsJson (words : List Word) :
    readWords floats (some (wordsJson floats words)) = some words := by
  have back : loads floats (wordsJson floats words) =
      some (.list (words.map fun word => .str word.text)) :=
    loads_write (distinct_list (fun word => distinct_str word.text) words)
  have isRead : readList (asText : Value Real → Option String)
      (.list ((words.map Word.text).map .str)) = some (words.map Word.text) :=
    @readList_map Real String asText .str (fun _ => rfl) (words.map Word.text)
  rw [map_map] at isRead
  obtain ⟨first, rest, isText⟩ : ∃ first rest,
      wordsJson floats words = first :: rest := by
    cases words <;> exact ⟨_, _, rfl⟩
  rw [isText] at back ⊢
  rw [readWords, back, Option.bind_some]
  refine (congrArg (Option.map (List.map Word.of)) isRead).trans ?_
  rw [Option.map_some, map_of_map_text]
  nofun

/-! ## Folded fields -/

theorem readFlags_flagsEntry (truth : Truth Real) (flags : ModelCapabilities) :
    readFlags truth (flagsEntry flags) = some flags := by
  rcases flags with ⟨_ | _ | _⟩ <;> rfl

theorem readModalities_modalitiesEntry (modalities : Option (List Modality)) :
    readModalities (modalities.map modalitiesEntry : Option (Value Real)) =
      some modalities := by
  cases modalities with
  | none => rfl
  | some modalities =>
    have isRead : readList (readWord Modality.modalities Modality.text)
        (modalitiesEntry modalities : Value Real) = some modalities :=
      readList_map (fun modality => by cases modality <;> rfl) modalities
    exact congrArg (Option.map some) isRead

theorem readProvider_entry (provider : Option Word) :
    readProvider (provider.map fun word => (.str word.text : Value Real)) =
      provider := by
  cases provider with
  | none => rfl
  | some word => exact congrArg some word.of_text

theorem readDefault_defaultEntry (truth : Truth Real) (isDefault : Bool) :
    readDefault truth (defaultEntry isDefault) = isDefault := by
  cases isDefault <;> rfl

theorem readTokenizerRepo_tokenizerEntry (tokenizerRepo : Option Word) :
    readTokenizerRepo (tokenizerEntry tokenizerRepo : Option (Value Real)) =
      tokenizerRepo.filter fun word => word.text ≠ "" := by
  cases tokenizerRepo with
  | none => rfl
  | some word =>
    by_cases isEmpty : word.text = ""
    · simp [tokenizerEntry, readTokenizerRepo, orNone, isEmpty, Option.filter]
    · simp [tokenizerEntry, readTokenizerRepo, orNone, isEmpty, asText,
        Option.filter]

/-! ## The blob -/

theorem distinct_flagsEntry (flags : ModelCapabilities) :
    ∀ value ∈ (flagsEntry flags : Option (Value Real)), Distinct value := by
  intro value isEntry
  obtain ⟨_ | calling⟩ := flags
  · cases isEntry
  · cases isEntry
    simp [Distinct, DistinctEntries, dumpFields]

theorem distinct_modalitiesEntry (modalities : List Modality) :
    Distinct (modalitiesEntry modalities : Value Real) :=
  @distinct_list Real Modality (fun modality => .str modality.text)
    (fun modality => distinct_str modality.text) modalities

/-- An entry which is read back as it is. -/
def Plain (key : String) (value : Value Real) : Prop :=
  strip key = key ∧ Distinct value

/-- No dict of the metadata repeats a key. -/
def Model.Serialisable (model : Model Real) : Prop :=
  model.metadata.table.Each fun _ value => Distinct value

theorem strip_contextLengthKey : strip contextLengthKey = contextLengthKey := by
  decide

theorem strip_reserved : ∀ key ∈ reservedKeys, strip key = key := by
  decide

theorem each_foldedMetadata {model : Model Real}
    (serialisable : model.Serialisable) :
    (foldedMetadata model).Each Plain := by
  have plain : model.metadata.table.Each Plain := fun key value found =>
    ⟨model.metadata.keysStripped key value found,
      serialisable key value found⟩
  unfold foldedMetadata
  refine (((((plain.remove _).stamp ?_).stamp ?_).stamp ?_).stamp ?_).stamp ?_
  · exact fun value isEntry => ⟨strip_reserved _ (by decide),
      distinct_flagsEntry model.capabilityFlags value isEntry⟩
  · intro value isEntry
    obtain ⟨modalities, -, rfl⟩ := Option.map_eq_some_iff.mp isEntry
    exact ⟨strip_reserved _ (by decide), distinct_modalitiesEntry modalities⟩
  · intro value isEntry
    obtain ⟨word, -, rfl⟩ := Option.map_eq_some_iff.mp isEntry
    exact ⟨strip_reserved _ (by decide), distinct_str word.text⟩
  · intro value isEntry
    refine ⟨strip_reserved _ (by decide), ?_⟩
    unfold defaultEntry at isEntry
    split at isEntry
    · cases isEntry
      exact distinct_bool true
    · cases isEntry
  · intro value isEntry
    obtain ⟨text, -, rfl⟩ := Option.map_eq_some_iff.mp isEntry
    exact ⟨strip_reserved _ (by decide), distinct_str text⟩

/-- The metadata is read back. -/
theorem readExtra_extraJson {table : Table (Value Real)}
    (distinct : table.Each fun _ value => Distinct value) :
    ∃ back, readExtra floats (extraJson floats table) = some back ∧
      ∀ name, back.get name = table.get name := by
  obtain ⟨entries, distinctKeys⟩ := table
  cases entries with
  | nil => exact ⟨Table.empty, rfl, fun _ => rfl⟩
  | cons entry rest =>
    have isValue : Distinct (.dict (entry :: rest) : Value Real) := by
      rw [Distinct, distinctEntries_iff]
      exact ⟨distinctKeys, fun found isIn =>
        distinct found.1 found.2 (lookup_of_mem distinctKeys isIn)⟩
    have back : loads floats (dumpsCompact floats (.dict (entry :: rest))) =
        some (.dict (entry :: rest)) := loads_write isValue
    refine ⟨Table.empty.putAll (entry :: rest), ?_, ?_⟩
    · have written : ∃ text, dumpsCompact floats (.dict (entry :: rest)) =
          '\x7b' :: text := ⟨_, rfl⟩
      obtain ⟨text, isText⟩ := written
      rw [isText] at back
      change readExtra floats (some (dumpsCompact floats _)) = _
      rw [isText, readExtra, back]
      exact cons_ne_nil _ _
    · intro name
      rw [Table.get_putAll _ distinctKeys, Table.get_empty, Option.or_none]
      rfl

/-! ## Metadata -/

theorem get_foldedMetadata (model : Model Real) {name : String}
    (notReserved : name ∉ reservedKeys) :
    (foldedMetadata model).get name =
      if name = contextLengthKey then none
      else model.metadata.table.get name := by
  simp only [reservedKeys, mem_cons, not_mem_nil, or_false,
    not_or] at notReserved
  simp only [foldedMetadata, Table.get_stamp, Table.get_remove, notReserved,
    if_false]

/-- A context length of null is not told from an absent one. -/
def contextLengthOf (model : Model Real) : Option (Value Real) :=
  (model.metadata.table.get contextLengthKey).filter fun value => !isNull value

variable {metadata : Table (Value Real)}

theorem get_withLength (noLength : metadata.get contextLengthKey = none)
    (length : Option (Value Real)) (name : String) :
    (if isNull (length.getD .null) then metadata
      else metadata.put contextLengthKey (length.getD .null)).get name =
      if name = contextLengthKey then length.filter fun value => !isNull value
      else metadata.get name := by
  cases length with
  | none =>
    by_cases isLength : name = contextLengthKey
    · simp [isLength, isNull, noLength]
    · simp [isLength, isNull]
  | some value =>
    rw [Option.getD_some]
    cases isAbsent : isNull value with
    | true =>
      by_cases isLength : name = contextLengthKey
      · simp [isLength, isAbsent, noLength, Option.filter]
      · simp [isLength]
    | false =>
      by_cases isLength : name = contextLengthKey
      · simp [isLength, isAbsent, Option.filter]
      · simp [isLength, Table.get_put_of_ne _ isLength]

/-- The metadata of a row are those which were folded, and the context
length. -/
theorem readMetadata_modelToRow (now : String) {model : Model Real}
    (serialisable : model.Serialisable) (createdAt updatedAt : Option String) :
    ∃ metadata,
      readMetadata floats (modelToRow floats now model createdAt updatedAt) =
        some metadata ∧
      ∀ name, metadata.get name =
        if name = contextLengthKey then contextLengthOf model
        else (foldedMetadata model).get name := by
  obtain ⟨back, isRead, same⟩ := @readExtra_extraJson Real floats
    (foldedMetadata model)
    fun key value found => (each_foldedMetadata serialisable key value found).2
  have noLength : back.get contextLengthKey = none := by
    rw [same, get_foldedMetadata model (by decide), if_pos rfl]
  refine ⟨_, congrArg (Option.map _) isRead, ?_⟩
  intro name
  have found := get_withLength noLength
    (model.metadata.table.get contextLengthKey) name
  rw [same] at found
  exact found

theorem get_splitMetadata (metadata : Table (Value Real)) (name : String) :
    (splitMetadata metadata).metadata.get name =
      if name ∈ reservedKeys then none else metadata.get name := by
  by_cases isReserved : name ∈ reservedKeys
  · rw [if_pos isReserved]
    simp only [reservedKeys, mem_cons, not_mem_nil, or_false]
      at isReserved
    simp only [splitMetadata, Table.get_remove]
    rcases isReserved with rfl | rfl | rfl | rfl | rfl <;> simp
  · rw [if_neg isReserved]
    simp only [reservedKeys, mem_cons, not_mem_nil, or_false,
      not_or] at isReserved
    simp only [splitMetadata, Table.get_remove, isReserved, if_false]

theorem get_metadata_of
    (isStripped : metadata.Each fun key _ => strip key = key) (name : String) :
    (Metadata.of metadata).table.get name = metadata.get name := by
  have same : metadata.entries.map (fun entry => (strip entry.1, entry.2)) =
      metadata.entries := by
    conv_rhs => rw [← map_id metadata.entries]
    refine map_congr_left fun entry isIn => ?_
    have found := Table.mem_entries_iff.mp isIn
    rw [isStripped entry.1 entry.2 found]
    rfl
  change (Table.empty.putAll _).get name = _
  rw [same, Table.get_putAll _ metadata.distinct, Table.get_empty,
    Option.or_none]
  rfl

/-- The metadata which are read back: without the reserved keys, and without
a context length of null. -/
theorem get_metadata_back {model : Model Real}
    (serialisable : model.Serialisable)
    (same : ∀ name, metadata.get name =
      if name = contextLengthKey then contextLengthOf model
      else (foldedMetadata model).get name) (name : String) :
    (Metadata.of (splitMetadata metadata).metadata).table.get name =
      if name ∈ reservedKeys then none
      else if name = contextLengthKey then contextLengthOf model
      else model.metadata.table.get name := by
  have isStripped : metadata.Each fun key _ => strip key = key := by
    intro key value found
    rw [same] at found
    split at found
    · next isLength => rw [isLength, strip_contextLengthKey]
    · exact (each_foldedMetadata serialisable key value found).1
  rw [get_metadata_of]
  · rw [get_splitMetadata]
    by_cases isReserved : name ∈ reservedKeys
    · rw [if_pos isReserved, if_pos isReserved]
    · rw [if_neg isReserved, if_neg isReserved, same,
        get_foldedMetadata model isReserved]
      split
      · rfl
      · rfl
  · intro key value found
    rw [get_splitMetadata] at found
    split at found
    · cases found
    · exact isStripped key value found

/-- Where no key is reserved, the folded fields are found as they were
written. -/
theorem splitMetadata_folded {model : Model Real}
    (notReserved : ∀ key ∈ reservedKeys, model.metadata.table.get key = none)
    (same : ∀ name, metadata.get name =
      if name = contextLengthKey then contextLengthOf model
      else (foldedMetadata model).get name) :
    splitMetadata metadata =
      { capabilityFlags := flagsEntry model.capabilityFlags
        modalitiesOverride := model.modalitiesOverride.map modalitiesEntry
        provider := model.provider.map fun word => .str word.text
        default := defaultEntry model.default
        tokenizerRepo := tokenizerEntry model.tokenizerRepo
        metadata := (splitMetadata metadata).metadata } := by
  have flags := notReserved capabilityFlagsExtraKey (by decide)
  have modalities := notReserved modalitiesOverrideExtraKey (by decide)
  have provider := notReserved providerExtraKey (by decide)
  have default := notReserved defaultExtraKey (by decide)
  have tokenizer := notReserved tokenizerRepoExtraKey (by decide)
  simp only [capabilityFlagsExtraKey, modalitiesOverrideExtraKey,
    providerExtraKey, defaultExtraKey, tokenizerRepoExtraKey] at *
  simp [splitMetadata, same, foldedMetadata, capabilityFlagsExtraKey,
    modalitiesOverrideExtraKey, providerExtraKey, defaultExtraKey,
    tokenizerRepoExtraKey, contextLengthKey, flags, modalities, provider,
    default, tokenizer]

/-! ## Lossless rows -/

def Metadata.empty : Metadata Real := ⟨Table.empty, nofun⟩

/-- Two models are equal field by field; dictionaries are equal whatever the
order of their keys. -/
structure Model.Same (first second : Model Real) : Prop where
  fields : ({ first with metadata := Metadata.empty } : Model Real) =
    { second with metadata := Metadata.empty }
  metadata : ∀ key,
    first.metadata.table.get key = second.metadata.table.get key

/-- Nothing of the model is taken for something else by a row. -/
structure Model.Lossless (model : Model Real) : Prop where
  license : model.license.text ≠ ""
  tokenizerRepo : ∀ word ∈ model.tokenizerRepo, word.text ≠ ""
  contextLength : model.metadata.table.get contextLengthKey ≠ some .null
  notReserved : ∀ key ∈ reservedKeys, model.metadata.table.get key = none

/-- The license that is read back. -/
def licenseBack (license : Word) : Word :=
  Word.of (if license.text = "" then "unknown" else license.text)

/-- Where no key is reserved, only the license, the tokenizer repository and
the metadata may change. -/
theorem rowToModel_modelToRow (truth : Truth Real) (now : String)
    {model : Model Real}
    (notReserved : ∀ key ∈ reservedKeys, model.metadata.table.get key = none)
    (createdAt updatedAt : Option String)
    (isRead : readMetadata floats
      (modelToRow floats now model createdAt updatedAt) = some metadata)
    (same : ∀ name, metadata.get name =
      if name = contextLengthKey then contextLengthOf model
      else (foldedMetadata model).get name) :
    rowToModel floats truth (modelToRow floats now model createdAt updatedAt)
        (some (model.backends.map Word.text)) =
      some { model with
        license := licenseBack model.license
        tokenizerRepo := model.tokenizerRepo.filter fun word => word.text ≠ ""
        metadata := Metadata.of (splitMetadata metadata).metadata } := by
  have split := splitMetadata_folded notReserved same
  have capabilities := @readWords_wordsJson Real floats model.capabilities
  have tags := @readWords_wordsJson Real floats model.tags
  rw [rowToModel, isRead]
  simp only [Option.bind_eq_bind, Option.bind_some]
  rw [split]
  simp only [readFlags_flagsEntry, readModalities_modalitiesEntry,
    readProvider_entry, readDefault_defaultEntry,
    readTokenizerRepo_tokenizerEntry, Option.bind_some]
  simp only [modelToRow, SolidWord.of_text, capabilities, tags,
    readDraftKind_text, Option.bind_some, ite_empty, Word.of_text,
    option_of_text, orNone_orElse, readTriState_triState, Option.getD_some,
    map_of_map_text, orElse_some, licenseBack]

theorem rowToModel_eq_some {truth : Truth Real} {row : Row Real}
    {backends : Option (List String)} {back : Model Real}
    (isRead : readMetadata floats row = some metadata)
    (isBack : rowToModel floats truth row backends = some back) :
    back.metadata = Metadata.of (splitMetadata metadata).metadata := by
  rw [rowToModel, isRead] at isBack
  simp only [Option.bind_eq_bind, Option.bind_some, Option.bind_eq_some_iff]
    at isBack
  obtain ⟨_, -, _, -, _, -, _, -, _, -, _, -, _, -, isModel⟩ := isBack
  cases isModel
  rfl

theorem filter_nonempty_iff {word : Option Word} :
    (word.filter fun word => word.text ≠ "") = word ↔
      ∀ given ∈ word, given.text ≠ "" := by
  cases word with
  | none => simp
  | some word =>
    by_cases isEmpty : word.text = ""
    · simp [Option.filter, isEmpty]
    · simp [Option.filter, isEmpty]

theorem licenseBack_eq_iff {license : Word} :
    licenseBack license = license ↔ license.text ≠ "" := by
  unfold licenseBack
  constructor
  · intro same isEmpty
    rw [if_pos isEmpty] at same
    rw [← same] at isEmpty
    exact absurd isEmpty (by decide)
  · intro nonempty
    rw [if_neg nonempty, Word.of_text]

theorem contextLengthOf_eq_iff {model : Model Real} :
    contextLengthOf model = model.metadata.table.get contextLengthKey ↔
      model.metadata.table.get contextLengthKey ≠ some .null := by
  unfold contextLengthOf
  cases model.metadata.table.get contextLengthKey with
  | none => simp
  | some value => cases value <;> simp [Option.filter, isNull]

/-- Whether the model is the same after it was written to a row. -/
def Model.SurvivesRow (floats : Floats Real) (truth : Truth Real) (now : String)
    (model : Model Real) (createdAt updatedAt : Option String) : Prop :=
  ∃ back,
    rowToModel floats truth (modelToRow floats now model createdAt updatedAt)
      (some (model.backends.map Word.text)) = some back ∧
    back.Same model

/-- What survives comes back. -/
theorem lossless_of_survives {truth : Truth Real} {now : String}
    {model : Model Real} (serialisable : model.Serialisable)
    {createdAt updatedAt : Option String}
    (survives : model.SurvivesRow floats truth now createdAt updatedAt) :
    model.Lossless := by
  obtain ⟨metadata, isRead, same⟩ := @readMetadata_modelToRow Real floats now
    model serialisable createdAt updatedAt
  have metadataBack := get_metadata_back serialisable same
  obtain ⟨back, isBack, isSame⟩ := survives
  have notReserved : ∀ key ∈ reservedKeys,
      model.metadata.table.get key = none := by
    intro key isReserved
    rw [← isSame.metadata, rowToModel_eq_some isRead isBack, metadataBack,
      if_pos isReserved]
  have readBack := rowToModel_modelToRow truth now notReserved createdAt
    updatedAt isRead same
  rw [readBack, Option.some.injEq] at isBack
  subst isBack
  have length := isSame.metadata contextLengthKey
  rw [metadataBack, if_neg (by decide), if_pos rfl] at length
  exact {
    license := licenseBack_eq_iff.mp (congrArg Model.license isSame.fields)
    tokenizerRepo := filter_nonempty_iff.mp
      (congrArg Model.tokenizerRepo isSame.fields)
    contextLength := contextLengthOf_eq_iff.mp length
    notReserved }

/-- What comes back has survived. -/
theorem survives_of_lossless (truth : Truth Real) (now : String)
    {model : Model Real} (serialisable : model.Serialisable)
    (createdAt updatedAt : Option String) (lossless : model.Lossless) :
    model.SurvivesRow floats truth now createdAt updatedAt := by
  obtain ⟨metadata, isRead, same⟩ := @readMetadata_modelToRow Real floats now
    model serialisable createdAt updatedAt
  have metadataBack := get_metadata_back serialisable same
  refine ⟨_, rowToModel_modelToRow truth now lossless.notReserved createdAt
    updatedAt isRead same, ?_, ?_⟩
  · rw [licenseBack_eq_iff.mpr lossless.license,
      filter_nonempty_iff.mpr lossless.tokenizerRepo]
  · intro key
    rw [metadataBack]
    split
    · next isReserved => exact (lossless.notReserved key isReserved).symm
    · split
      · next isLength =>
          rw [contextLengthOf_eq_iff.mpr lossless.contextLength, isLength]
      · rfl

/-- A model survives its row just if nothing of it is taken for something
else. -/
theorem row_lossless_iff (truth : Truth Real) (now : String)
    (model : Model Real) (serialisable : model.Serialisable)
    (createdAt updatedAt : Option String) :
    model.SurvivesRow floats truth now createdAt updatedAt ↔ model.Lossless :=
  ⟨lossless_of_survives serialisable,
    survives_of_lossless truth now serialisable createdAt updatedAt⟩

/-! ## Two models -/

def noTruth : Truth Empty := ⟨Empty.elim, Empty.elim⟩

/-- A small model with one metadata entry. -/
def smallModel (key : String) (value : Value Empty) : Model Empty where
  id := ⟨Word.of "m", by decide⟩
  name := Word.of ""
  path := ⟨Word.of "/models/m.gguf", by decide⟩
  sizeBytes := 0
  quant := none
  license := Word.of "unknown"
  capabilities := [Word.of "chat"]
  hfRepo := Word.of ""
  hfFilename := Word.of ""
  tags := []
  backends := [Word.of "cpu"]
  mmproj := none
  draft := none
  draftKind := some .mtp
  chatTemplate := none
  tokenizerRepo := none
  mtp := some false
  jinja := none
  default := true
  metadata := Metadata.of ⟨[(key, value)], nodup_singleton key⟩
  architecture := none
  modalitiesOverride := some [.chat]
  provider := none
  capabilityFlags := ⟨some true⟩

theorem serialisable_smallModel (key : String) {value : Value Empty}
    (distinct : Distinct value) : (smallModel key value).Serialisable := by
  intro name found isFound
  have isIn := ((Table.get_putAll_eq_some
    (Table.get_empty name)).mp isFound).mem
  rw [map_singleton, mem_singleton] at isIn
  cases isIn
  exact distinct

/-- A context length survives. -/
theorem row_lossless_iff_small :
    (smallModel "context_length" (.int 4096)).SurvivesRow noFloats noTruth
      "2026-01-01T00:00:00+00:00" none none := by
  refine (row_lossless_iff noTruth _ _
    (serialisable_smallModel _ (distinct_int 4096)) none none).mpr ?_
  have isLength : (smallModel "context_length" (.int 4096)).metadata.table.get
      contextLengthKey = some (.int 4096) := rfl
  exact {
    license := by decide
    tokenizerRepo := nofun
    contextLength := by
      intro isNone
      rw [isNone] at isLength
      cases isLength
    notReserved := by
      have absent : ∀ key ∈ reservedKeys, ((smallModel "context_length"
          (.int 4096)).metadata.table.get key).isNone = true := by
        decide
      intro key isReserved
      exact Option.isNone_iff_eq_none.mp (absent key isReserved) }

/-- A metadata entry under a reserved key is taken for the provider. -/
theorem provider_entry_lost :
    ¬ (smallModel "_provider" (.str "flm")).SurvivesRow noFloats noTruth
      "2026-01-01T00:00:00+00:00" none none := by
  intro survives
  have lossless := lossless_of_survives
    (serialisable_smallModel _ (distinct_str "flm")) survives
  have absent := lossless.notReserved providerExtraKey (by decide)
  have isThere : ((smallModel "_provider" (.str "flm")).metadata.table.get
      providerExtraKey).isSome = true := by decide
  rw [absent] at isThere
  cases isThere

end Hal0.Registry.Rows
