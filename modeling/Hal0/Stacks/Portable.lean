import Hal0.Core.JsonPaths
import Hal0.Core.Tables
import Hal0.Stacks.SchemaLaws

/-!
# Portable stacks

A stack is exported with the profiles and the metadata of the models which it
refers to, in an envelope with a checksum of its text.  An envelope is parsed
back after two screens: its schema must not be older than the oldest one which
is still read, and no embedded profile may have a field of an older shape.
-/

namespace Hal0.Stacks.Portable

open Hal0.Json
open Hal0.Slots.ConfigFiles (stripped)

/-! ## References -/

/-- The models that an entry names. -/
def entryModelIds (entry : StackSlotEntry) : List String :=
  entry.model.toList ++ entry.capabilities.map StackCapabilityRow.model

/-- `_referenced_model_ids` -/
def referencedModelIds (stack : StackConfig) : List String :=
  ((stack.slots.flatMap entryModelIds).filter (· ≠ "")).dedup

/-- `_referenced_profile_names` -/
def referencedProfileNames (stack : StackConfig) : List String :=
  ((stack.slots.filterMap StackSlotEntry.profile).filter (· ≠ "")).dedup

/-- `sorted`, of a set of names. -/
def inOrder (names : List String) : List String :=
  names.insertionSort (· ≤ ·)

/-- A row of the registry, as far as it is exported. -/
structure Model where
  id : String
  name : String
  sizeBytes : Int
  capabilities : List String
  backends : List String
  hfRepo : String
  hfFilename : String
  provider : Option String
  mmproj : Option String

/-- Where a curated model is from. -/
structure CuratedModel where
  hfRepo : String
  hfFile : String

/-- What an export reads: the registry, the curated catalogue, the profiles,
the version of the package, and `str.lower`. -/
structure Sources where
  registry : String → Option Model
  curated : String → Option CuratedModel
  profiles : Table ProfileConfig
  version : String
  lower : String → String

/-- `_PROVIDER_TAGS` -/
def providerTags : List (String × String) :=
  [("flm", "flm"), ("npu", "flm"), ("moonshine", "moonshine"),
    ("kokoro", "kokoro"), ("comfyui", "comfyui"), ("qwen3tts", "qwen3tts"),
    ("halogen", "halogen")]

/-- `derive_model_provider` -/
def deriveModelProvider (lower : String → String) (backends : List String) :
    String :=
  (backends.findSome? fun tag =>
    providerTags.lookup (lower (String.ofList (stripped tag)))).getD
      "llama-server"

/-- `first or second` -/
def orElse (first second : String) : String :=
  if first = "" then second else first

/-- The repository and the file of a row, or else of the catalogue. -/
def coordinates (sources : Sources) (mid : String) (model : Model) :
    String × String :=
  if model.hfRepo ≠ "" ∧ model.hfFilename ≠ "" then
    (model.hfRepo, model.hfFilename)
  else
    match sources.curated mid with
    | none => (model.hfRepo, model.hfFilename)
    | some curated => (orElse model.hfRepo curated.hfRepo,
        orElse model.hfFilename curated.hfFile)

/-- The metadata of a model; none when its id is refused. -/
def embedModel (sources : Sources) (mid : String) : Option StackModelMeta :=
  match sources.registry mid with
  | some model => (idNonempty model.id).map fun id =>
    { id := id
      name := model.name
      hfRepo := (coordinates sources mid model).1
      hfFilename := (coordinates sources mid model).2
      sizeBytes := model.sizeBytes
      quant := ""
      capabilities := model.capabilities
      backends := model.backends
      provider := some (orElse (model.provider.getD "")
        (deriveModelProvider sources.lower model.backends))
      mmproj := if model.mmproj.getD "" = "" then none else some "present" }
  | none => (idNonempty mid).map fun id =>
    { id := id
      name := ""
      hfRepo := ""
      hfFilename := ""
      sizeBytes := 0
      quant := ""
      capabilities := []
      backends := []
      provider := none
      mmproj := none }

/-- The metadata of the named models. -/
def embedModels (sources : Sources) :
    List String → Table StackModelMeta → Option (Table StackModelMeta)
  | [], models => some models
  | mid :: rest, models => (embedModel sources mid).bind fun model =>
    embedModels sources rest (models.put mid model)

/-- A profile that is named. -/
def embedProfile (sources : Sources) (profiles : Table ProfileConfig)
    (name : String) : Table ProfileConfig :=
  match sources.profiles.get name with
  | some profile => profiles.put name profile
  | none => profiles

/-- `embed_references` -/
def embedReferences (sources : Sources) (stack : StackConfig) :
    Option StackConfig :=
  (embedModels sources (inOrder (referencedModelIds stack)) Table.empty).map
    fun models =>
      { stack with
        profiles := (inOrder (referencedProfileNames stack)).foldl
          (embedProfile sources) Table.empty
        models := models
        hal0Version := sources.version }

/-! ## Export -/

section Envelopes

variable {Real : Type} (floats : Floats Real) (hash : List Char → String)

/-- `ENVELOPE_KIND` -/
def envelopeKind : String := "hal0.stack"

/-- `_checksum` -/
def checksum (body : Value Real) : String :=
  "sha256:" ++ hash (dumpsSorted floats body)

/-- The envelope of a stack with its references. -/
def envelopeOf (embedded : StackConfig) (exportedAt : String) :
    List (String × Value Real) :=
  [("kind", .str envelopeKind),
    ("schema_version", .int embedded.schemaVersion),
    ("hal0_version", .str embedded.hal0Version),
    ("exported_at", .str exportedAt),
    ("checksum", .str (checksum floats hash (stackBody embedded))),
    ("stack", stackBody embedded)]

/-- `export_envelope` -/
def exportEnvelope (sources : Sources) (stack : StackConfig)
    (exportedAt : String) : Option (List (String × Value Real)) :=
  (embedReferences sources stack).map fun embedded =>
    envelopeOf floats hash embedded exportedAt

/-- `verify_checksum` -/
def verifyChecksum (envelope : List (String × Value Real)) : Bool :=
  match envelope.lookup "stack" with
  | some (.dict body) =>
    match envelope.lookup "checksum" with
    | some (.str found) => found = checksum floats hash (.dict body)
    | _ => false
  | _ => false

end Envelopes

/-! ## Parsing -/

section Parsing

variable {Real : Type}

structure Hal0Error (Real : Type) where
  status : Nat
  message : String
  code : String
  details : List (String × Value Real)

/-- What an export holds. -/
structure StackEnvelope where
  kind : String
  schemaVersion : Int
  hal0Version : String
  exportedAt : String
  checksum : String
  stack : StackConfig

/-- `STACK_ENVELOPE_SCHEMA_MIN` -/
def stackEnvelopeSchemaMin : Int := 3

/-- `isinstance(value, int)`, which truth values are too. -/
def asNumber : Value Real → Option Int
  | .int value => some value
  | .bool true => some 1
  | .bool false => some 0
  | _ => none

/-- `str` of a number. -/
def numberText : Value Real → String
  | .int value => toString value
  | .bool true => "True"
  | .bool false => "False"
  | _ => ""

/-- The schema versions of an envelope and of its stack. -/
def stampedVersions (data : List (String × Value Real)) : List (Value Real) :=
  (data.lookup "schema_version").toList ++
    match data.lookup "stack" with
    | some (.dict inner) => (inner.lookup "schema_version").toList
    | _ => []

/-- `min` -/
def least : List (Int × Value Real) → Option (Int × Value Real)
  | [] => none
  | first :: rest => some (rest.foldl (fun best found =>
    if found.1 < best.1 then found else best) first)

/-- `_refuse_old_schema` -/
def refuseOldSchema (data : List (String × Value Real)) :
    Except (Hal0Error Real) Unit :=
  match least ((stampedVersions data).filterMap fun version =>
    (asNumber version).map fun number => (number, version)) with
  | none => .ok ()
  | some (number, got) =>
    if number < stackEnvelopeSchemaMin then
      .error
        { status := 400
          message := "stack envelope schema v" ++ numberText got ++
            " is no longer supported (need v3); " ++
            "re-export the stack from hal0 1.5 or newer"
          code := "stacks.envelope_schema_unsupported"
          details := [("got", got),
            ("supported_min", .int stackEnvelopeSchemaMin)] }
    else .ok ()

/-- The profile has the field which became `speculation`. -/
def predatesSpeculation : Value Real → Bool
  | .dict body => (body.lookup "mtp").isSome
  | _ => false

/-- The embedded profiles of an older shape. -/
def staleProfiles (data : List (String × Value Real)) : List String :=
  match data.lookup "stack" with
  | some (.dict stack) =>
    match stack.lookup "profiles" with
    | some (.dict profiles) => inOrder ((profiles.filter fun profile =>
      predatesSpeculation profile.2).map Prod.fst)
    | _ => []
  | _ => []

/-- `_refuse_pre_speculation` -/
def refusePreSpeculation (data : List (String × Value Real)) :
    Except (Hal0Error Real) Unit :=
  if staleProfiles data = [] then .ok ()
  else
    .error
      { status := 400
        message := "stack envelope was exported by a hal0 older than 1.5 " ++
          "(profile(s) " ++ ", ".intercalate (staleProfiles data) ++
          " carry 'mtp'); re-export the stack from hal0 1.5 or newer"
        code := "stacks.envelope_schema_unsupported"
        details := [("field", .str "mtp"),
          ("profiles", .list ((staleProfiles data).map .str)),
          ("supported_min", .int stackEnvelopeSchemaMin)] }

variable (pydantic : Pydantic Real)

/-- `StackEnvelope.model_validate`; other keys are ignored. -/
def validateEnvelope (data : List (String × Value Real)) :
    Option StackEnvelope := do
  let kind ← member data "kind" none pydantic.asStr
  let schemaVersion ← member data "schema_version"
    (some stackSchemaVersionCurrent) pydantic.asInt
  let hal0Version ← member data "hal0_version" (some "") pydantic.asStr
  let exportedAt ← member data "exported_at" (some "") pydantic.asStr
  let checksum ← member data "checksum" (some "") pydantic.asStr
  let stack ← member data "stack" none (validateStack pydantic)
  some ⟨kind, schemaVersion, hal0Version, exportedAt, checksum, stack⟩

/-- The kind is another. -/
def notAnEnvelope (kind : Value Real) : Hal0Error Real where
  status := 400
  message := "not a hal0.stack envelope"
  code := "stacks.bad_envelope"
  details := [("kind", kind)]

/-- The refusal of an envelope for what the validator reports of it. -/
def invalidEnvelope (data : List (String × Value Real)) : Hal0Error Real where
  status := 400
  message := "invalid stack envelope: " ++ pydantic.report (.dict data)
  code := "stacks.bad_envelope"
  details := [("reason", .str (pydantic.report (.dict data)))]

def isEnvelopeKind : Value Real → Bool
  | .str kind => kind = envelopeKind
  | _ => false

/-- `parse_envelope` -/
def parseEnvelope : Value Real → Except (Hal0Error Real) StackEnvelope
  | .dict data => do
      let kind := (data.lookup "kind").getD .null
      if isEnvelopeKind kind then
        refuseOldSchema data
        refusePreSpeculation data
        match validateEnvelope pydantic data with
        | some envelope => .ok envelope
        | none => .error (invalidEnvelope pydantic data)
      else .error (notAnEnvelope kind)
  | _ => .error (notAnEnvelope .null)

end Parsing

end Hal0.Stacks.Portable
