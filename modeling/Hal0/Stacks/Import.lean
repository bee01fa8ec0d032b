import Hal0.Stacks.CatalogLaws
import Hal0.Stacks.PortableLaws

/-!
# Importing a stack

An import writes two files: the profiles of the stack which are new here go to
the one, and then the stack itself goes to the other.  Each file is replaced as
a whole or not at all, but the refusals of the second come after the first is
written.
-/

namespace Hal0.Stacks.Portable

open Hal0.Json

variable {Real : Type}

/-- What an import raises. -/
inductive Raised (Real : Type) where
  | typed (error : Hal0Error Real)
  | file (error : FileError)
  | unwritable
  | registry

/-- The two files of an import. -/
structure Disk (Real : Type) where
  profilesToml : File Real
  stacksToml : File Real

/-- What an import depends on, besides the files: the seeds, the screens of
profiles, `repr`, which files can be replaced, and what `registry.has` answers,
if it does. -/
structure Machine (Real : Type) where
  pydantic : Pydantic Real
  seedProfiles : Table ProfileConfig
  seedStacks : Table StackConfig
  runtimeFamilyOf : String → ProfileConfig → String
  screenProfileFlags : String → String → Except (Hal0Error Real) Unit
  nativeCtxProblem : Option CtxSize → String → Option String
  repr : String → String
  profilesWritable : Bool
  stacksWritable : Bool
  has : String → Option Bool

section Machines

variable (machine : Machine Real)

/-! ## Profiles -/

/-- `screen_profile_speculation` -/
def screenProfileSpeculation (name : String) (speculation : SpeculationMode)
    (family : String) : Except (Hal0Error Real) Unit :=
  if family = "halogen" ∧ speculation = .ngram then
    .error
      { status := 422
        message := "profile " ++ machine.repr name ++ ": speculation 'ngram' " ++
          "is not available on the halogen engine (it takes 'auto' or 'off')"
        code := "profiles.speculation_unsupported"
        details := [("profile", .str name), ("speculation", .str "ngram"),
          ("runtime_family", .str "halogen")] }
  else .ok ()

/-- `screen_profile_context` -/
def screenProfileContext (name : String) (ctxSize : Option CtxSize)
    (flags family : String) : Except (Hal0Error Real) Unit :=
  if family ≠ "halogen" then .ok ()
  else
    match machine.nativeCtxProblem ctxSize flags with
    | none => .ok ()
    | some problem =>
      .error
        { status := 422
          message := "profile " ++ machine.repr name ++ ": " ++ problem
          code := "profiles.halogen_flag_out_of_range"
          details := [("profile", .str name),
            ("ctx_size", (ctxSize.map fun size => .int size.value).getD .null),
            ("needs", .str "HALOGEN_ROPE_YARN")] }

/-- The screens of one profile, in their order. -/
def screenProfile (name : String) (profile : ProfileConfig) :
    Except (Hal0Error Real) Unit := do
  let family := machine.runtimeFamilyOf name profile
  screenProfileSpeculation machine name profile.speculation family
  machine.screenProfileFlags profile.flags family
  screenProfileContext machine name profile.ctxSize profile.flags family

/-- Every profile is screened. -/
def screenProfiles :
    List (String × ProfileConfig) → Except (Hal0Error Real) Unit
  | [] => .ok ()
  | (name, profile) :: rest => do
      screenProfile machine name profile
      screenProfiles rest

/-- The embedded profiles which do not exist here. -/
def incoming (stack : StackConfig) (config : ProfilesConfig Real) :
    List (String × ProfileConfig) :=
  stack.profiles.entries.filter fun profile => !config.profile.has profile.1

/-- The file with the new profiles beside the others. -/
def withIncoming (stack : StackConfig) (config : ProfilesConfig Real) :
    File Real :=
  .table (saveProfilesConfig machine.seedProfiles
    { config with
      profile := config.profile.putAll (incoming stack config) })

/-- `_reconcile_profiles`, which replaces the file or leaves it. -/
def reconcileProfiles (stack : StackConfig) (file : File Real) :
    Except (Raised Real) (File Real) :=
  if stack.profiles.entries = [] then .ok file
  else
    match loadProfilesConfig machine.pydantic machine.seedProfiles file with
    | .error error => .error (.file error)
    | .ok config =>
      match screenProfiles machine (incoming stack config) with
      | .error error => .error (.typed error)
      | .ok () =>
        if incoming stack config = [] then .ok file
        else if machine.profilesWritable then
          .ok (withIncoming machine stack config)
        else .error .unwritable

/-! ## The stack -/

/-- A stack and where it is from. -/
structure ResolvedStack where
  slug : String
  stack : StackConfig
  seed : Bool

/-- `_validate_name` -/
def invalidName (slug : String) : Hal0Error Real where
  status := 409
  message := "stack slug must be kebab-case (a-z0-9_-), ≤32 chars, " ++
    "start with alphanumeric"
  code := "stacks.invalid_name"
  details := [("stack", .str slug)]

/-- The slug is taken. -/
def alreadyExists (slug : String) : Hal0Error Real where
  status := 409
  message := "stack " ++ machine.repr slug ++ " already exists"
  code := "stacks.exists"
  details := [("stack", .str slug)]

/-- `StacksCatalog.create`, with the file it leaves. -/
def create (slug : String) (stack : StackConfig) (file : File Real) :
    Except (Raised Real) (File Real × ResolvedStack) :=
  if isStackName slug then
    match loadStacksConfig machine.pydantic machine.seedStacks file with
    | .error error => .error (.file error)
    | .ok catalog =>
      if catalog.has slug then .error (.typed (alreadyExists machine slug))
      else if machine.stacksWritable then
        .ok (.table (saveStacksConfig machine.seedStacks
          (catalog.put slug stack)),
          ⟨slug, stack, machine.seedStacks.has slug⟩)
      else .error .unwritable
  else .error (.typed (invalidName slug))

/-! ## Models -/

/-- Whether a model is there or can be pulled. -/
inductive ModelStatus where
  | present | pullable | unresolvable
deriving DecidableEq

/-- The status of one model. -/
structure ModelResolution where
  modelId : String
  status : ModelStatus
  hfRepo : String
  hfFilename : String

/-- A model which is not here can be pulled if its metadata says from where. -/
def resolveMissing (stack : StackConfig) (mid : String) : ModelResolution :=
  match stack.models.get mid with
  | some model =>
    if model.hfRepo ≠ "" ∧ model.hfFilename ≠ "" then
      ⟨mid, .pullable, model.hfRepo, model.hfFilename⟩
    else ⟨mid, .unresolvable, "", ""⟩
  | none => ⟨mid, .unresolvable, "", ""⟩

/-- The rows of `resolve_models`; none when the registry raises. -/
def resolveEach (stack : StackConfig) :
    List String → Option (List ModelResolution)
  | [] => some []
  | mid :: rest => do
      let present ← machine.has mid
      let later ← resolveEach stack rest
      some ((if present then ⟨mid, .present, "", ""⟩
        else resolveMissing stack mid) :: later)

/-- `resolve_models` -/
def resolveModels (stack : StackConfig) : Option (List ModelResolution) :=
  resolveEach machine stack (inOrder (referencedModelIds stack))

/-! ## The import -/

/-- The stack is of a later version. -/
def envelopeTooNew (stack : StackConfig) : Hal0Error Real where
  status := 400
  message := "stack schema v" ++ toString stack.schemaVersion ++
    " is newer than supported v" ++ toString stackSchemaVersionCurrent
  code := "stacks.envelope_too_new"
  details := [("got", .int stack.schemaVersion),
    ("supported", .int stackSchemaVersionCurrent)]

/-- The stack of an envelope which is parsed, and is not too new. -/
def admitted (data : Value Real) : Except (Hal0Error Real) StackConfig :=
  match parseEnvelope machine.pydantic data with
  | .error error => .error error
  | .ok envelope =>
    if stackSchemaVersionCurrent < envelope.stack.schemaVersion then
      .error (envelopeTooNew envelope.stack)
    else .ok envelope.stack

/-- `import_stack`: the files it leaves, and what it returns or raises. -/
def importStack (data : Value Real) (slug : String) (disk : Disk Real) :
    Disk Real ×
      Except (Raised Real) (ResolvedStack × List ModelResolution) :=
  match admitted machine data with
  | .error error => (disk, .error (.typed error))
  | .ok stack =>
    match reconcileProfiles machine stack disk.profilesToml with
    | .error raised => (disk, .error raised)
    | .ok profilesToml =>
      match create machine slug stack disk.stacksToml with
      | .error raised => (⟨profilesToml, disk.stacksToml⟩, .error raised)
      | .ok (stacksToml, resolved) =>
        match resolveModels machine stack with
        | none => (⟨profilesToml, stacksToml⟩, .error .registry)
        | some report =>
          (⟨profilesToml, stacksToml⟩, .ok (resolved, report))

end Machines

/-! ## What an import may do -/

section Conditions

variable (machine : Machine Real)

/-- A profile which existed is as it was. -/
def KeepsProfiles (before after : File Real) : Prop :=
  ∀ config, loadProfilesConfig machine.pydantic machine.seedProfiles before =
      .ok config →
    ∃ now, loadProfilesConfig machine.pydantic machine.seedProfiles after =
      .ok now ∧
        ∀ name profile, config.profile.get name = some profile →
          now.profile.get name = some profile

/-- An import which raises changes nothing, and one which does not keeps the
profiles which existed. -/
def Whole (disk : Disk Real) : Disk Real ×
    Except (Raised Real) (ResolvedStack × List ModelResolution) → Prop
  | (after, .error _) => after = disk
  | (after, .ok _) =>
    KeepsProfiles machine disk.profilesToml after.profilesToml

/-- The embedded profiles pass: the catalog is loaded, the new ones pass their
screens, and are written if there are any. -/
def PassesProfiles (stack : StackConfig) (file : File Real) : Prop :=
  stack.profiles.entries ≠ [] →
    ∃ config, loadProfilesConfig machine.pydantic machine.seedProfiles file =
      .ok config ∧
        screenProfiles machine (incoming stack config) = .ok () ∧
          (incoming stack config ≠ [] → machine.profilesWritable = true)

/-- Some embedded profile does not exist here. -/
def AddsProfile (stack : StackConfig) (file : File Real) : Prop :=
  ∃ config, loadProfilesConfig machine.pydantic machine.seedProfiles file =
    .ok config ∧ incoming stack config ≠ []

/-- The catalog takes a stack under this slug. -/
def Accepts (slug : String) (file : File Real) : Prop :=
  isStackName slug = true ∧ machine.stacksWritable = true ∧
    ∃ catalog, loadStacksConfig machine.pydantic machine.seedStacks file =
      .ok catalog ∧ catalog.has slug = false

/-- The registry can be asked for every model. -/
def Answers (stack : StackConfig) : Prop :=
  ∀ mid ∈ referencedModelIds stack, (machine.has mid).isSome = true

/-- Once the profiles have passed, either nothing is refused any more, or the
catalog refuses and no profile was new. -/
def Settled (data : Value Real) (slug : String) (disk : Disk Real) : Prop :=
  ∀ stack, admitted machine data = .ok stack →
    PassesProfiles machine stack disk.profilesToml →
      (Accepts machine slug disk.stacksToml ∧ Answers machine stack) ∨
        (¬ Accepts machine slug disk.stacksToml ∧
          ¬ AddsProfile machine stack disk.profilesToml)

end Conditions

end Hal0.Stacks.Portable
