import Hal0.Core.Records
import Hal0.Core.Trim
import Hal0.Slots.ConfigDoc
import Mathlib.Algebra.Ring.Int.Defs

/-!
# The schema of portable stacks

A stack with its slots, its profiles and the metadata of its models: what its
records hold, what they are dumped to, and how they are validated.  A field
without a value is left out of a dump, and has its default when it is
validated again.
-/

namespace Hal0.Stacks.Portable

open Hal0.Json
open Hal0.Slots.ConfigFiles (stripped isSpace)

/-! ## Words -/

/-- The efforts a tune can ask for. -/
inductive ReasoningEffort where
  | default | minimal | low | medium | high | xhigh | max
deriving DecidableEq

namespace ReasoningEffort

def text : ReasoningEffort → String
  | default => "default"
  | minimal => "minimal"
  | low => "low"
  | medium => "medium"
  | high => "high"
  | xhigh => "xhigh"
  | max => "max"

def words : List ReasoningEffort :=
  [default, minimal, low, medium, high, xhigh, max]

end ReasoningEffort

inductive Vision where
  | auto | off
deriving DecidableEq

def Vision.text : Vision → String
  | auto => "auto"
  | off => "off"

inductive SpeculationMode where
  | auto | off | ngram
deriving DecidableEq

def SpeculationMode.text : SpeculationMode → String
  | auto => "auto"
  | off => "off"
  | ngram => "ngram"

/-! ## Bounded values -/

/-- A whole number from `low` to `high`. -/
structure Within (low high : Int) where
  value : Int
  above : low ≤ value
  below : value ≤ high

/-- From `CTX_SIZE_MIN` to `CTX_SIZE_MAX`. -/
abbrev CtxSize := Within 128 (2 ^ 24)

/-- From `-1` to `REASONING_BUDGET_MAX`. -/
abbrev ReasoningBudget := Within (-1) (2 ^ 24)

/-- `_VALID_DEVICES` -/
def validDevices : List String :=
  ["gpu-rocm", "gpu-vulkan", "gpu-cuda", "cpu", "npu"]

/-- One of the known devices. -/
structure Device where
  text : String
  valid : text ∈ validDevices

/-- `[a-z0-9]` -/
def startsName (char : Char) : Bool :=
  char.isLower || char.isDigit

/-- `[a-z0-9_-]` -/
def continuesName (char : Char) : Bool :=
  startsName char || char = '_' || char = '-'

/-- `[a-z0-9][a-z0-9_-]{0,31}` -/
def isBareName : List Char → Bool
  | [] => false
  | first :: rest =>
    startsName first && rest.length ≤ 31 && rest.all continuesName

/-- `_STACK_NAME_RE` from the start; `$` stands before a last line break too. -/
def isStackName (text : String) : Bool :=
  isBareName text.toList ||
    (text.toList.getLast? = some '\n' && isBareName text.toList.dropLast)

/-- A name that a stack may use. -/
structure SlotName where
  text : String
  valid : isStackName text = true

/-- A trimmed id which is not empty. -/
structure ModelId where
  text : String
  trimmed : stripped text = text.toList
  nonempty : text ≠ ""

/-! ## Records -/

/-- The tuning of a slot. -/
structure SlotTuneConfig where
  ctxSize : Option CtxSize
  enableThinking : Option Bool
  reasoningEffort : Option ReasoningEffort
  reasoningBudget : Option ReasoningBudget
  vision : Option Vision
  speculation : Option SpeculationMode

/-- A launch profile. -/
structure ProfileConfig where
  flags : String
  ctxSize : Option CtxSize
  enableThinking : Option Bool
  vision : Vision
  reasoningEffort : ReasoningEffort
  reasoningBudget : ReasoningBudget
  speculation : SpeculationMode
  runner : Option String
  clonedFrom : Option String
  intent : String

/-- Where a stack's model is from. -/
structure StackModelMeta where
  id : ModelId
  name : String
  hfRepo : String
  hfFilename : String
  sizeBytes : Int
  quant : String
  capabilities : List String
  backends : List String
  provider : Option String
  mmproj : Option String

/-- A capability that a stack switches on. -/
structure StackCapabilityRow where
  child : String
  device : Device
  provider : String
  model : String
  enabled : Bool

/-- A slot as a stack wants it. -/
structure StackSlotEntry where
  slot : SlotName
  profile : Option String
  model : Option String
  device : Option Device
  provider : Option String
  capabilities : List StackCapabilityRow
  tune : Option SlotTuneConfig

/-- A stack. -/
structure StackConfig where
  name : String
  description : String
  author : String
  icon : String
  tags : List String
  schemaVersion : Int
  hal0Version : String
  slots : List StackSlotEntry
  profiles : Table ProfileConfig
  models : Table StackModelMeta

/-- `STACK_SCHEMA_VERSION_CURRENT` -/
def stackSchemaVersionCurrent : Int := 3

/-! ## Dumps -/

section Dumps

variable {Real : Type}

/-- The fields as they are dumped. -/
def tuneFields (tune : SlotTuneConfig) :
    List (String × Option (Value Real)) :=
  [("ctx_size", tune.ctxSize.map fun size => .int size.value),
    ("enable_thinking", tune.enableThinking.map .bool),
    ("reasoning_effort", tune.reasoningEffort.map fun effort =>
      .str effort.text),
    ("reasoning_budget", tune.reasoningBudget.map fun budget =>
      .int budget.value),
    ("vision", tune.vision.map fun vision => .str vision.text),
    ("speculation", tune.speculation.map fun mode => .str mode.text)]

/-- `SlotTuneConfig.model_dump(exclude_none=True)` -/
def tuneBody (tune : SlotTuneConfig) : Value Real :=
  .dict (dumpFields (tuneFields tune))

/-- `body.get("reasoning_effort") == "default"` -/
def isDefaultEffort : Value Real → Bool
  | .str text => text = "default"
  | _ => false

/-- `body.get("reasoning_budget") == -1` -/
def isUnlimited : Value Real → Bool
  | .int value => value = -1
  | _ => false

/-- `sparse_profile_body` -/
def sparseProfileBody (body : List (String × Value Real)) :
    List (String × Value Real) :=
  dropWhen "reasoning_budget" isUnlimited
    (dropWhen "reasoning_effort" isDefaultEffort body)

/-- The fields as they are dumped. -/
def profileFields (profile : ProfileConfig) :
    List (String × Option (Value Real)) :=
  [("flags", some (.str profile.flags)),
    ("ctx_size", profile.ctxSize.map fun size => .int size.value),
    ("enable_thinking", profile.enableThinking.map .bool),
    ("vision", some (.str profile.vision.text)),
    ("reasoning_effort", some (.str profile.reasoningEffort.text)),
    ("reasoning_budget", some (.int profile.reasoningBudget.value)),
    ("speculation", some (.str profile.speculation.text)),
    ("runner", profile.runner.map .str),
    ("cloned_from", profile.clonedFrom.map .str),
    ("intent", some (.str profile.intent))]

/-- `ProfileConfig.model_dump(exclude_none=True)` -/
def profileBody (profile : ProfileConfig) : Value Real :=
  .dict (dumpFields (profileFields profile))

/-- `profile_sparse_dump` -/
def profileSparseDump (profile : ProfileConfig) : Value Real :=
  .dict (sparseProfileBody (dumpFields (profileFields profile)))

/-- The fields as they are dumped. -/
def modelFields (model : StackModelMeta) :
    List (String × Option (Value Real)) :=
  [("id", some (.str model.id.text)),
    ("name", some (.str model.name)),
    ("hf_repo", some (.str model.hfRepo)),
    ("hf_filename", some (.str model.hfFilename)),
    ("size_bytes", some (.int model.sizeBytes)),
    ("quant", some (.str model.quant)),
    ("capabilities", some (.list (model.capabilities.map .str))),
    ("backends", some (.list (model.backends.map .str))),
    ("provider", model.provider.map .str),
    ("mmproj", model.mmproj.map .str)]

/-- `StackModelMeta.model_dump(exclude_none=True)` -/
def modelBody (model : StackModelMeta) : Value Real :=
  .dict (dumpFields (modelFields model))

/-- The fields as they are dumped. -/
def rowFields (row : StackCapabilityRow) :
    List (String × Option (Value Real)) :=
  [("child", some (.str row.child)),
    ("device", some (.str row.device.text)),
    ("provider", some (.str row.provider)),
    ("model", some (.str row.model)),
    ("enabled", some (.bool row.enabled))]

/-- `StackCapabilityRow.model_dump(exclude_none=True)` -/
def rowBody (row : StackCapabilityRow) : Value Real :=
  .dict (dumpFields (rowFields row))

/-- The fields as they are dumped. -/
def entryFields (entry : StackSlotEntry) :
    List (String × Option (Value Real)) :=
  [("slot", some (.str entry.slot.text)),
    ("profile", entry.profile.map .str),
    ("model", entry.model.map .str),
    ("device", entry.device.map fun device => .str device.text),
    ("provider", entry.provider.map .str),
    ("capabilities", some (.list (entry.capabilities.map rowBody))),
    ("tune", entry.tune.map tuneBody)]

/-- `StackSlotEntry.model_dump(exclude_none=True)` -/
def entryBody (entry : StackSlotEntry) : Value Real :=
  .dict (dumpFields (entryFields entry))

/-- The fields of a stack, whose profiles are dumped in one of the ways. -/
def stackFields (dump : ProfileConfig → Value Real) (stack : StackConfig) :
    List (String × Option (Value Real)) :=
  [("name", some (.str stack.name)),
    ("description", some (.str stack.description)),
    ("author", some (.str stack.author)),
    ("icon", some (.str stack.icon)),
    ("tags", some (.list (stack.tags.map .str))),
    ("schema_version", some (.int stack.schemaVersion)),
    ("hal0_version", some (.str stack.hal0Version)),
    ("slots", some (.list (stack.slots.map entryBody))),
    ("profiles", some (.dict (stack.profiles.entries.map fun profile =>
      (profile.1, dump profile.2)))),
    ("models", some (.dict (stack.models.entries.map fun model =>
      (model.1, modelBody model.2))))]

/-- The stack as it is dumped. -/
def stackBody (stack : StackConfig) : Value Real :=
  .dict (dumpFields (stackFields profileSparseDump stack))

/-- `StackConfig.model_dump(exclude_none=True)` -/
def storedStackBody (stack : StackConfig) : Value Real :=
  .dict (dumpFields (stackFields profileBody stack))

end Dumps

/-! ## Validation -/

/-- How the validator coerces a value to a text, a number and a truth value,
and what it reports of a value which it refuses. -/
structure Pydantic (Real : Type) where
  asStr : Value Real → Option String
  asInt : Value Real → Option Int
  asBool : Value Real → Option Bool
  report : Value Real → String
  asStr_str : ∀ text, asStr (.str text) = some text
  asInt_int : ∀ value, asInt (.int value) = some value
  asBool_bool : ∀ value, asBool (.bool value) = some value

section Validation

variable {Real : Type} (pydantic : Pydantic Real)

/-- `ge` and `le` of a whole number. -/
def asWithin (low high : Int) (value : Value Real) :
    Option (Within low high) :=
  (pydantic.asInt value).bind fun value =>
    if inside : low ≤ value ∧ value ≤ high then
      some ⟨value, inside.1, inside.2⟩
    else none

def asEffort : Value Real → Option ReasoningEffort :=
  readWord ReasoningEffort.words ReasoningEffort.text

def asVision : Value Real → Option Vision :=
  readWord [.auto, .off] Vision.text

def asSpeculation : Value Real → Option SpeculationMode :=
  readWord [.auto, .off, .ngram] SpeculationMode.text

/-- `device_valid` -/
def asDevice (value : Value Real) : Option Device :=
  (pydantic.asStr value).bind fun text =>
    if valid : text ∈ validDevices then some ⟨text, valid⟩ else none

/-- `slot_valid` -/
def asSlotName (value : Value Real) : Option SlotName :=
  (pydantic.asStr value).bind fun text =>
    if valid : isStackName text = true then some ⟨text, valid⟩ else none

/-- `id_nonempty` -/
def idNonempty (text : String) : Option ModelId :=
  if nonempty : stripped text ≠ [] then
    some ⟨String.ofList (stripped text), by
      rw [String.toList_ofList]
      change Trim.trim isSpace (String.ofList
        (Trim.trim isSpace text.toList)).toList = Trim.trim isSpace text.toList
      rw [String.toList_ofList, Trim.trim_trim], by
      intro isEmpty
      apply nonempty
      rw [← String.toList_ofList (l := stripped text), isEmpty]
      rfl⟩
  else none

def tuneKeys : List String :=
  ["ctx_size", "enable_thinking", "reasoning_effort", "reasoning_budget",
    "vision", "speculation"]

/-- `SlotTuneConfig.model_validate` -/
def validateTune : Value Real → Option SlotTuneConfig
  | .dict entries =>
    if known tuneKeys entries then do
      let ctxSize ← member entries "ctx_size" (some none)
        (nullable (asWithin pydantic 128 (2 ^ 24)))
      let enableThinking ← member entries "enable_thinking" (some none)
        (nullable pydantic.asBool)
      let reasoningEffort ← member entries "reasoning_effort" (some none)
        (nullable asEffort)
      let reasoningBudget ← member entries "reasoning_budget" (some none)
        (nullable (asWithin pydantic (-1) (2 ^ 24)))
      let vision ← member entries "vision" (some none) (nullable asVision)
      let speculation ← member entries "speculation" (some none)
        (nullable asSpeculation)
      some ⟨ctxSize, enableThinking, reasoningEffort, reasoningBudget,
        vision, speculation⟩
    else none
  | _ => none

def profileKeys : List String :=
  ["flags", "ctx_size", "enable_thinking", "vision", "reasoning_effort",
    "reasoning_budget", "speculation", "runner", "cloned_from", "intent"]

/-- `ProfileConfig.model_validate` -/
def validateProfile : Value Real → Option ProfileConfig
  | .dict entries =>
    if known profileKeys entries then do
      let flags ← member entries "flags" (some "") pydantic.asStr
      let ctxSize ← member entries "ctx_size" (some none)
        (nullable (asWithin pydantic 128 (2 ^ 24)))
      let enableThinking ← member entries "enable_thinking" (some none)
        (nullable pydantic.asBool)
      let vision ← member entries "vision" (some .auto) asVision
      let reasoningEffort ← member entries "reasoning_effort"
        (some .default) asEffort
      let reasoningBudget ← member entries "reasoning_budget"
        (some ⟨-1, by decide, by decide⟩) (asWithin pydantic (-1) (2 ^ 24))
      let speculation ← member entries "speculation" (some .auto)
        asSpeculation
      let runner ← member entries "runner" (some none)
        (nullable pydantic.asStr)
      let clonedFrom ← member entries "cloned_from" (some none)
        (nullable pydantic.asStr)
      let intent ← member entries "intent" (some "") pydantic.asStr
      some ⟨flags, ctxSize, enableThinking, vision, reasoningEffort,
        reasoningBudget, speculation, runner, clonedFrom, intent⟩
    else none
  | _ => none

def modelKeys : List String :=
  ["id", "name", "hf_repo", "hf_filename", "size_bytes", "quant",
    "capabilities", "backends", "provider", "mmproj"]

/-- `StackModelMeta.model_validate` -/
def validateModel : Value Real → Option StackModelMeta
  | .dict entries =>
    if known modelKeys entries then do
      let id ← member entries "id" none fun value =>
        (pydantic.asStr value).bind idNonempty
      let name ← member entries "name" (some "") pydantic.asStr
      let hfRepo ← member entries "hf_repo" (some "") pydantic.asStr
      let hfFilename ← member entries "hf_filename" (some "") pydantic.asStr
      let sizeBytes ← member entries "size_bytes" (some 0) pydantic.asInt
      let quant ← member entries "quant" (some "") pydantic.asStr
      let capabilities ← member entries "capabilities" (some [])
        (readList pydantic.asStr)
      let backends ← member entries "backends" (some [])
        (readList pydantic.asStr)
      let provider ← member entries "provider" (some none)
        (nullable pydantic.asStr)
      let mmproj ← member entries "mmproj" (some none)
        (nullable pydantic.asStr)
      some ⟨id, name, hfRepo, hfFilename, sizeBytes, quant, capabilities,
        backends, provider, mmproj⟩
    else none
  | _ => none

def rowKeys : List String :=
  ["child", "device", "provider", "model", "enabled"]

/-- `StackCapabilityRow.model_validate` -/
def validateRow : Value Real → Option StackCapabilityRow
  | .dict entries =>
    if known rowKeys entries then do
      let child ← member entries "child" none pydantic.asStr
      let device ← member entries "device" none (asDevice pydantic)
      let provider ← member entries "provider" none pydantic.asStr
      let model ← member entries "model" none pydantic.asStr
      let enabled ← member entries "enabled" (some true) pydantic.asBool
      some ⟨child, device, provider, model, enabled⟩
    else none
  | _ => none

def entryKeys : List String :=
  ["slot", "profile", "model", "device", "provider", "capabilities", "tune"]

/-- `StackSlotEntry.model_validate` -/
def validateEntry : Value Real → Option StackSlotEntry
  | .dict entries =>
    if known entryKeys entries then do
      let slot ← member entries "slot" none (asSlotName pydantic)
      let profile ← member entries "profile" (some none)
        (nullable pydantic.asStr)
      let model ← member entries "model" (some none)
        (nullable pydantic.asStr)
      let device ← member entries "device" (some none)
        (nullable (asDevice pydantic))
      let provider ← member entries "provider" (some none)
        (nullable pydantic.asStr)
      let capabilities ← member entries "capabilities" (some [])
        (readList (validateRow pydantic))
      let tune ← member entries "tune" (some none)
        (nullable (validateTune pydantic))
      some ⟨slot, profile, model, device, provider, capabilities, tune⟩
    else none
  | _ => none

def stackKeys : List String :=
  ["name", "description", "author", "icon", "tags", "schema_version",
    "hal0_version", "slots", "profiles", "models"]

/-- `StackConfig.model_validate` -/
def validateStack : Value Real → Option StackConfig
  | .dict entries =>
    if known stackKeys entries then do
      let name ← member entries "name" (some "") pydantic.asStr
      let description ← member entries "description" (some "")
        pydantic.asStr
      let author ← member entries "author" (some "") pydantic.asStr
      let icon ← member entries "icon" (some "") pydantic.asStr
      let tags ← member entries "tags" (some []) (readList pydantic.asStr)
      let schemaVersion ← member entries "schema_version"
        (some stackSchemaVersionCurrent) pydantic.asInt
      let hal0Version ← member entries "hal0_version" (some "")
        pydantic.asStr
      let slots ← member entries "slots" (some [])
        (readList (validateEntry pydantic))
      let profiles ← member entries "profiles" (some ⟨[], List.nodup_nil⟩)
        (readTable (validateProfile pydantic))
      let models ← member entries "models" (some ⟨[], List.nodup_nil⟩)
        (readTable (validateModel pydantic))
      some ⟨name, description, author, icon, tags, schemaVersion,
        hal0Version, slots, profiles, models⟩
    else none
  | _ => none

end Validation

end Hal0.Stacks.Portable
