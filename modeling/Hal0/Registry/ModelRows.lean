import Hal0.Core.Tables
import Hal0.Core.Trim
import Hal0.Slots.ConfigDoc

/-!
# Models and their rows

A model of the registry is one row of the `model` table.  The fields without a
column are folded into the `extra` blob, beside the metadata and under keys of
their own, and are split out of it again when the row is read.
-/

namespace Hal0.Registry.Rows

open Hal0.Json
open Hal0.Slots.ConfigFiles (stripped)

/-! ## Words -/

/-- `char::is_whitespace`, after which the validator strips. -/
def isWhitespace (char : Char) : Bool :=
  let code := char.toNat
  (9 ≤ code && code ≤ 13) || code = 32 || code = 133 || code = 160 ||
    code = 5760 || (8192 ≤ code && code ≤ 8202) || code = 8232 ||
    code = 8233 || code = 8239 || code = 8287 || code = 12288

/-- `str.strip` -/
def strip (text : String) : String :=
  String.ofList (Trim.trim isWhitespace text.toList)

theorem strip_strip (text : String) : strip (strip text) = strip text := by
  rw [strip, strip, String.toList_ofList, Trim.trim_trim]

/-- A text as `str_strip_whitespace` leaves it. -/
structure Word where
  text : String
  isStripped : strip text = text
deriving DecidableEq

/-- A text, stripped. -/
def Word.of (text : String) : Word := ⟨strip text, strip_strip text⟩

@[simp]
theorem Word.of_text (word : Word) : Word.of word.text = word := by
  obtain ⟨text, isStripped⟩ := word
  exact Word.mk.injEq .. ▸ isStripped

/-- A word which `id_nonempty` and `path_nonempty` let pass. -/
structure SolidWord where
  word : Word
  solid : stripped word.text ≠ []
deriving DecidableEq

def SolidWord.of (text : String) : Option SolidWord :=
  if solid : stripped (Word.of text).text ≠ [] then some ⟨Word.of text, solid⟩
  else none

@[simp]
theorem SolidWord.of_text (name : SolidWord) :
    SolidWord.of name.word.text = some name := by
  obtain ⟨word, solid⟩ := name
  unfold SolidWord.of
  rw [dif_pos (by rw [Word.of_text]; exact solid)]
  simp

/-! ## Models -/

/-- The kinds of a draft model. -/
inductive DraftKind where
  | dflash | eagle3 | mtp | simple
deriving DecidableEq

namespace DraftKind

def text : DraftKind → String
  | dflash => "dflash"
  | eagle3 => "eagle3"
  | mtp => "mtp"
  | simple => "simple"

def kinds : List DraftKind := [dflash, eagle3, mtp, simple]

end DraftKind

/-- What a model takes and gives. -/
inductive Modality where
  | chat | vision | embed | rerank | asr | tts | image | video
deriving DecidableEq

namespace Modality

def text : Modality → String
  | chat => "chat"
  | vision => "vision"
  | embed => "embed"
  | rerank => "rerank"
  | asr => "asr"
  | tts => "tts"
  | image => "image"
  | video => "video"

def modalities : List Modality :=
  [chat, vision, embed, rerank, asr, tts, image, video]

end Modality

/-- `ModelCapabilities` -/
structure ModelCapabilities where
  toolCalling : Option Bool
deriving DecidableEq

/-- The metadata of a model; its keys are stripped as its texts are. -/
structure Metadata (Real : Type) where
  table : Table (Value Real)
  keysStripped : ∀ key value, table.get key = some value → strip key = key

/-- A model as its validator lets it pass. -/
structure Model (Real : Type) where
  id : SolidWord
  name : Word
  path : SolidWord
  sizeBytes : Int
  quant : Option Word
  license : Word
  capabilities : List Word
  hfRepo : Word
  hfFilename : Word
  tags : List Word
  backends : List Word
  mmproj : Option Word
  draft : Option Word
  draftKind : Option DraftKind
  chatTemplate : Option Word
  tokenizerRepo : Option Word
  mtp : Option Bool
  jinja : Option Bool
  default : Bool
  metadata : Metadata Real
  architecture : Option Word
  modalitiesOverride : Option (List Modality)
  provider : Option Word
  capabilityFlags : ModelCapabilities

/-- The columns of the `model` table. -/
structure Row (Real : Type) where
  id : String
  sourceRepo : Option String
  revision : Option String
  path : String
  mmproj : Option String
  draft : Option String
  draftKind : Option String
  architecture : Option String
  contextLength : Value Real
  mtp : Value Real
  jinja : Value Real
  name : Option String
  sizeBytes : Option Int
  quant : Option String
  license : Option String
  hfFilename : Option String
  chatTemplate : Option String
  capabilities : Option (List Char)
  tags : Option (List Char)
  sha256 : Option String
  pulledAt : Option String
  createdAt : String
  updatedAt : String
  extra : Option (List Char)

/-! ## Keys -/

def contextLengthKey : String := "context_length"
def capabilityFlagsExtraKey : String := "_capability_flags"
def modalitiesOverrideExtraKey : String := "_modalities_override"
def providerExtraKey : String := "_provider"
def defaultExtraKey : String := "_default"
def tokenizerRepoExtraKey : String := "_tokenizer_repo"

/-- The keys of the fields which are folded into the blob. -/
def reservedKeys : List String :=
  [capabilityFlagsExtraKey, modalitiesOverrideExtraKey, providerExtraKey,
    defaultExtraKey, tokenizerRepoExtraKey]

section Rows

variable {Real : Type}

/-! ## Writing -/

/-- `capability_flags.model_dump(exclude_none=True)`, unless it is empty. -/
def flagsEntry (flags : ModelCapabilities) : Option (Value Real) :=
  let body := dumpFields [("tool_calling", flags.toolCalling.map .bool)]
  if body.isEmpty then none else some (.dict body)

/-- The modalities as a reserved entry. -/
def modalitiesEntry (modalities : List Modality) : Value Real :=
  .list (modalities.map fun modality => .str modality.text)

/-- Written only where it is set. -/
def defaultEntry (isDefault : Bool) : Option (Value Real) :=
  if isDefault then some (.bool true) else none

/-- `text or None` -/
def orNone (text : String) : Option String :=
  if text = "" then none else some text

/-- Written only where there is one. -/
def tokenizerEntry (tokenizerRepo : Option Word) : Option (Value Real) :=
  (tokenizerRepo.bind fun word => orNone word.text).map .str

/-- The metadata with what is folded into it. -/
def foldedMetadata (model : Model Real) : Table (Value Real) :=
  model.metadata.table.remove contextLengthKey
    |>.stamp capabilityFlagsExtraKey (flagsEntry model.capabilityFlags)
    |>.stamp modalitiesOverrideExtraKey
      (model.modalitiesOverride.map modalitiesEntry)
    |>.stamp providerExtraKey (model.provider.map fun word => .str word.text)
    |>.stamp defaultExtraKey (defaultEntry model.default)
    |>.stamp tokenizerRepoExtraKey (tokenizerEntry model.tokenizerRepo)

/-- The column `extra_json`. -/
def extraJson (floats : Floats Real) (metadata : Table (Value Real)) :
    Option (List Char) :=
  if metadata.entries.isEmpty then none
  else some (dumpsCompact floats (.dict metadata.entries))

/-- A column which is a list of words. -/
def wordsJson (floats : Floats Real) (words : List Word) : List Char :=
  dumpsCompact floats (.list (words.map fun word => .str word.text))

/-- A flag, or nothing. -/
def triState : Option Bool → Value Real
  | none => .null
  | some value => .bool value

/-- `first or second` -/
def orElse (first : Option String) (second : String) : String :=
  (first.bind orNone).getD second

/-- `model_to_row` -/
def modelToRow (floats : Floats Real) (now : String) (model : Model Real)
    (createdAt updatedAt : Option String) : Row Real :=
  let time := orElse updatedAt now
  { id := model.id.word.text
    sourceRepo := orNone model.hfRepo.text
    revision := none
    path := model.path.word.text
    mmproj := model.mmproj.map Word.text
    draft := model.draft.map Word.text
    draftKind := model.draftKind.map DraftKind.text
    architecture := model.architecture.map Word.text
    contextLength := (model.metadata.table.get contextLengthKey).getD .null
    mtp := triState model.mtp
    jinja := triState model.jinja
    name := some model.name.text
    sizeBytes := some model.sizeBytes
    quant := model.quant.map Word.text
    license := some model.license.text
    hfFilename := some model.hfFilename.text
    chatTemplate := model.chatTemplate.map Word.text
    capabilities := some (wordsJson floats model.capabilities)
    tags := some (wordsJson floats model.tags)
    sha256 := none
    pulledAt := none
    createdAt := orElse createdAt time
    updatedAt := time
    extra := extraJson floats (foldedMetadata model) }

/-! ## Reading -/

/-- How a float is taken for a truth value: by `bool`, and by the validator. -/
structure Truth (Real : Type) where
  truthy : Real → Bool
  asBool : Real → Option Bool

/-- `bool(value)` -/
def truthy (truth : Truth Real) : Value Real → Bool
  | .null => false
  | .bool value => value
  | .int value => value ≠ 0
  | .real value => truth.truthy value
  | .str text => text ≠ ""
  | .list items => !items.isEmpty
  | .dict entries => !entries.isEmpty

/-- What the validator takes for a truth value. -/
def asBool (truth : Truth Real) : Value Real → Option Bool
  | .bool value => some value
  | .int 0 => some false
  | .int 1 => some true
  | .real value => truth.asBool value
  | .str text =>
    if text.toLower ∈ ["0", "f", "n", "no", "off", "false"] then some false
    else if text.toLower ∈ ["1", "t", "y", "on", "yes", "true"] then
      some true
    else none
  | _ => none

def asText : Value Real → Option String
  | .str text => some text
  | _ => none

/-- `json.loads(text) if text else {}`, which must be a dictionary. -/
def readExtra (floats : Floats Real) :
    Option (List Char) → Option (Table (Value Real))
  | none | some [] => some Table.empty
  | some text =>
    match loads floats text with
    | some (.dict entries) => some (Table.empty.putAll entries)
    | _ => none

def isNull : Value Real → Bool
  | .null => true
  | _ => false

/-- The blob with the context length of its column. -/
def readMetadata (floats : Floats Real) (row : Row Real) :
    Option (Table (Value Real)) :=
  (readExtra floats row.extra).map fun metadata =>
    if isNull row.contextLength then metadata
    else metadata.put contextLengthKey row.contextLength

/-- `ModelCapabilities(**raw)`; what is no dictionary counts as absent. -/
def readFlags (truth : Truth Real) :
    Option (Value Real) → Option ModelCapabilities
  | some (.dict entries) =>
    if known ["tool_calling"] entries then
      (member entries "tool_calling" (some none)
        (nullable (asBool truth))).map ModelCapabilities.mk
    else none
  | _ => some ⟨none⟩

/-- What is no list counts as absent. -/
def readModalities : Option (Value Real) → Option (Option (List Modality))
  | some (.list items) =>
    (readList (readWord Modality.modalities Modality.text)
      (.list items)).map some
  | _ => some none

/-- The reserved provider of the metadata. -/
def readProvider (raw : Option (Value Real)) : Option Word :=
  (raw.bind asText).map Word.of

/-- The reserved default flag. -/
def readDefault (truth : Truth Real) (raw : Option (Value Real)) : Bool :=
  (raw.map (truthy truth)).getD false

/-- The reserved tokenizer. -/
def readTokenizerRepo (raw : Option (Value Real)) : Option Word :=
  ((raw.bind asText).bind orNone).map Word.of

/-- An unknown kind is not read. -/
def readDraftKind : Option String → Option (Option DraftKind)
  | none => some none
  | some text =>
    (DraftKind.kinds.find? fun kind => kind.text = text).map some

/-- `json.loads(text) if text else []`, which must be texts. -/
def readWords (floats : Floats Real) :
    Option (List Char) → Option (List Word)
  | none | some [] => some []
  | some text => (loads floats text).bind fun value =>
    (readList asText value).map (List.map Word.of)

/-- `None if value is None else bool(value)` -/
def readTriState (truth : Truth Real) : Value Real → Option Bool
  | .null => none
  | value => some (truthy truth value)

/-- The validator strips the keys of a dictionary, and the last of one key
wins. -/
def Metadata.of (table : Table (Value Real)) : Metadata Real where
  table := Table.empty.putAll
    (table.entries.map fun entry => (strip entry.1, entry.2))
  keysStripped := by
    intro key value found
    have isIn := ((Table.get_putAll_eq_some (Table.get_empty key)).mp found).mem
    obtain ⟨entry, -, isEntry⟩ := List.mem_map.mp isIn
    cases isEntry
    exact strip_strip entry.1

/-- The fields which are split out of the blob, and what is left of it. -/
structure Split (Real : Type) where
  capabilityFlags : Option (Value Real)
  modalitiesOverride : Option (Value Real)
  provider : Option (Value Real)
  default : Option (Value Real)
  tokenizerRepo : Option (Value Real)
  metadata : Table (Value Real)

/-- The keys are popped one after another. -/
def splitMetadata (metadata : Table (Value Real)) : Split Real :=
  let afterFlags := metadata.remove capabilityFlagsExtraKey
  let afterModalities := afterFlags.remove modalitiesOverrideExtraKey
  let afterProvider := afterModalities.remove providerExtraKey
  let afterDefault := afterProvider.remove defaultExtraKey
  { capabilityFlags := metadata.get capabilityFlagsExtraKey
    modalitiesOverride := afterFlags.get modalitiesOverrideExtraKey
    provider := afterModalities.get providerExtraKey
    default := afterProvider.get defaultExtraKey
    tokenizerRepo := afterDefault.get tokenizerRepoExtraKey
    metadata := afterDefault.remove tokenizerRepoExtraKey }

/-- `row_to_model` -/
def rowToModel (floats : Floats Real) (truth : Truth Real) (row : Row Real)
    (backends : Option (List String)) : Option (Model Real) := do
  let metadata ← readMetadata floats row
  let split := splitMetadata metadata
  let capabilityFlags ← readFlags truth split.capabilityFlags
  let modalitiesOverride ← readModalities split.modalitiesOverride
  let id ← SolidWord.of row.id
  let path ← SolidWord.of row.path
  let capabilities ← readWords floats row.capabilities
  let tags ← readWords floats row.tags
  let draftKind ← readDraftKind row.draftKind
  some {
    id
    name := Word.of (orElse row.name "")
    path
    sizeBytes := row.sizeBytes.getD 0
    quant := row.quant.map Word.of
    license := Word.of (orElse row.license "unknown")
    capabilities
    hfRepo := Word.of (orElse row.sourceRepo "")
    hfFilename := Word.of (orElse row.hfFilename "")
    tags
    backends := (backends.getD []).map Word.of
    mmproj := row.mmproj.map Word.of
    draft := row.draft.map Word.of
    draftKind
    chatTemplate := row.chatTemplate.map Word.of
    tokenizerRepo := readTokenizerRepo split.tokenizerRepo
    mtp := readTriState truth row.mtp
    jinja := readTriState truth row.jinja
    default := readDefault truth split.default
    metadata := Metadata.of split.metadata
    architecture := row.architecture.map Word.of
    modalitiesOverride
    provider := readProvider split.provider
    capabilityFlags }

end Rows

end Hal0.Registry.Rows
