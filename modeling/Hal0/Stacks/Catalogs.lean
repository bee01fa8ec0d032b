import Hal0.Stacks.Portable

/-!
# The catalogs of profiles and stacks

Each catalog is a TOML file under the entries which are shipped with the
package: these are never written, and win over entries of the same name.  A
profile which is not valid is put aside, and is written back as it was.
-/

namespace Hal0.Stacks.Portable

open Hal0.Json

variable {Real : Type}

/-- A TOML file.  `Real` is the type of its floats and dates. -/
inductive File (Real : Type) where
  | missing
  | unreadable
  | table (raw : List (String × Value Real))

/-- Why a file is not read. -/
inductive FileError where
  | unreadable
  | invalid
deriving DecidableEq

/-! ## Profiles -/

/-- The file of profiles. -/
structure ProfilesConfig (Real : Type) where
  profile : Table ProfileConfig
  quarantined : Table (Value Real)
  unknown : List (String × Value Real)

section Profiles

variable (pydantic : Pydantic Real) (seeds : Table ProfileConfig)

/-- One stored entry: it is valid, or it is put aside. -/
def loadEntry (config : ProfilesConfig Real) (entry : String × Value Real) :
    ProfilesConfig Real :=
  match validateProfile pydantic entry.2 with
  | some profile =>
    { config with profile := config.profile.put entry.1 profile }
  | none =>
    { config with quarantined := config.quarantined.put entry.1 entry.2 }

/-- A seed under the profiles of the file. -/
def overlaySeed (config : ProfilesConfig Real)
    (seed : String × ProfileConfig) : ProfilesConfig Real :=
  { config with
    profile := config.profile.put seed.1 seed.2
    quarantined := config.quarantined.filter fun name => name ≠ seed.1 }

/-- The stored entries and the other keys, under the seeds. -/
def configOf (entries unknown : List (String × Value Real)) :
    ProfilesConfig Real :=
  seeds.entries.foldl overlaySeed
    { entries.foldl (loadEntry pydantic) ⟨Table.empty, Table.empty, []⟩ with
      unknown := unknown }

/-- `load_profiles_config` -/
def loadProfilesConfig : File Real → Except FileError (ProfilesConfig Real)
  | .missing => .ok ⟨seeds, Table.empty, []⟩
  | .unreadable => .error .unreadable
  | .table raw =>
    match raw.lookup "profile" with
    | none => .ok (configOf pydantic seeds [] raw)
    | some (.dict entries) => .ok (configOf pydantic seeds entries
        (raw.filter fun entry => entry.1 ≠ "profile"))
    | some _ => .error .invalid

/-- An entry which was put aside, unless its name is valid by now. -/
def keepQuarantined (data : Table (Value Real))
    (held : String × Value Real) : Table (Value Real) :=
  if data.has held.1 || seeds.has held.1 then data
  else data.put held.1 held.2

/-- The entries which are written: no seed, and what was put aside. -/
def savedProfiles (config : ProfilesConfig Real) : Table (Value Real) :=
  config.quarantined.entries.foldl (keepQuarantined seeds)
    ((config.profile.filter fun name => !seeds.has name).map profileSparseDump)

/-- `data.setdefault` -/
def setDefault (data : List (String × Value Real))
    (entry : String × Value Real) : List (String × Value Real) :=
  if (data.lookup entry.1).isSome then data else data ++ [entry]

/-- What `save_profiles_config` writes. -/
def saveProfilesConfig (config : ProfilesConfig Real) :
    List (String × Value Real) :=
  config.unknown.foldl setDefault
    [("profile", .dict (savedProfiles seeds config).entries)]

end Profiles

/-! ## Stacks -/

section Stacks

variable (pydantic : Pydantic Real) (seeds : Table StackConfig)

/-- `_with_seed_stacks` -/
def withSeedStacks (operator : Table StackConfig) : Table StackConfig :=
  seeds.putAll operator.entries

/-- The operator's entries; a seed's entry is ignored. -/
def operatorEntries (entries : List (String × Value Real)) :
    List (String × Value Real) :=
  entries.filter fun entry => !seeds.has entry.1

/-- `StacksConfig.model_validate` -/
def validateStacks (raw : List (String × Value Real)) :
    Option (Table StackConfig) :=
  if known ["stack"] raw then
    match raw.lookup "stack" with
    | none => some Table.empty
    | some (.dict entries) => readTable (validateStack pydantic)
        (.dict (operatorEntries seeds entries))
    | some _ => none
  else none

/-- `load_stacks_config` -/
def loadStacksConfig : File Real → Except FileError (Table StackConfig)
  | .missing => .ok (withSeedStacks seeds Table.empty)
  | .unreadable => .error .unreadable
  | .table raw =>
    match validateStacks pydantic seeds raw with
    | some operator => .ok (withSeedStacks seeds operator)
    | none => .error .invalid

/-- What `save_stacks_config` writes. -/
def saveStacksConfig (config : Table StackConfig) :
    List (String × Value Real) :=
  [("stack", .dict ((config.filter fun slug => !seeds.has slug).map
    storedStackBody).entries)]

end Stacks

end Hal0.Stacks.Portable
