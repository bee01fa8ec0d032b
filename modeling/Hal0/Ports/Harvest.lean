import Hal0.Core.Uniq
import Hal0.Slots.ConfigDoc
import Mathlib.Data.Prod.Lex
import Mathlib.Data.String.Basic

/-!
# Harvesting the ports in use

The harvester collects the claims on ports anew for each question: those of the
slot files, of the running slots, the reserved ones and the sockets which are
listening.  It reads a slot file as it stands, where the loader hoists the keys
of its `[slot]` table.
-/

namespace Hal0.Ports.Harvest

open Hal0.Slots.ConfigFiles (stripped)
open Hal0.Uniq

/-! ## Slot files -/

/-- A TOML value; `other` has its text and its truth value. -/
inductive Toml where
  | text (value : String)
  | integer (value : Int)
  | flag (value : Bool)
  | other (rendering : String) (truthy : Bool)
  | table (entries : List (String × Toml))

/-- A TOML table. -/
abbrev Table := List (String × Toml)

/-- `bool(value)` -/
def Toml.truthy : Toml → Bool
  | .text value => value ≠ ""
  | .integer value => value ≠ 0
  | .flag value => value
  | .other _ truthy => truthy
  | .table entries => !entries.isEmpty

def asTable : Toml → Option Table
  | .table entries => some entries
  | _ => none

/-- The table under a key. -/
def tableAt (table : Table) (key : String) : Option Table :=
  (table.lookup key).bind asTable

/-- `isinstance(value, int) and value > 0`; a truth value is a number. -/
def asPort : Toml → Option Int
  | .integer value => if 0 < value then some value else none
  | .flag true => some 1
  | _ => none

/-- `str`, and `infer_non_chat_type`. -/
structure Reader where
  str : Toml → String
  infer : Option Toml → Option Toml → Option String

/-- What opening and parsing a file comes to. -/
inductive Content where
  | table (entries : Table)
  /-- `OSError` or `TOMLDecodeError` -/
  | unreadable
  /-- `UnicodeDecodeError` -/
  | notUtf8

/-- A file of the slots directory. -/
structure SlotFile where
  stem : String
  content : Content

/-! ## `_flatten_slot_toml` -/

/-- `str(value or "").strip()` -/
def strippedText (reader : Reader) (value : Option Toml) : List Char :=
  match value with
  | none => []
  | some value => if value.truthy then stripped (reader.str value) else []

/-- `heal_missing_llm_type` -/
def healMissingLlmType (reader : Reader) (table : Table) : Table :=
  let provider := strippedText reader (table.lookup "provider")
  if strippedText reader (table.lookup "type") ≠ [] then table
  else if (tableAt table "model").isNone then table
  else if (tableAt table "image").isSome then table
  else if provider = [] ∨ provider.map Char.toLower = "llama-server".toList
  then ("type", .text ((reader.infer (table.lookup "profile")
    (table.lookup "name")).getD "llm")) :: table
  else table

/-- The scalars of the root; a key in front overrides one behind. -/
def rootScalars (raw : Table) : Table :=
  raw.filter fun item =>
    item.1 ≠ "slot" && item.1 ≠ "model" && (asTable item.2).isNone

/-- `out.setdefault("name", slot_name)` -/
def setName (stem : String) (table : Table) : Table :=
  if (table.lookup "name").isSome then table
  else ("name", .text stem) :: table

/-- `out["model"] = raw["model"]`, when it is a table. -/
def setModel (raw table : Table) : Table :=
  match tableAt raw "model" with
  | some entries => ("model", .table entries) :: table
  | none => table

/-- The sibling tables which `out` does not have. -/
def siblings (raw table : Table) : Table :=
  raw.filter fun item =>
    item.1 ≠ "slot" && item.1 ≠ "model" &&
      (table.lookup item.1).isNone && (asTable item.2).isSome

/-- `_flatten_slot_toml` -/
def flattenSlotToml (reader : Reader) (raw : Table) (stem : String) : Table :=
  let out := setModel raw
    (setName stem ((tableAt raw "slot").getD [] ++ rootScalars raw))
  let healed :=
    if (tableAt raw "image").isSome then out else healMissingLlmType reader out
  healed ++ siblings raw healed

/-! ## Claims -/

/-- Where a claim comes from. -/
inductive Source where
  | slotConfig
  | slotRuntime
  | reserved
  | listener
deriving DecidableEq

def Source.text : Source → String
  | .slotConfig => "slot-config"
  | .slotRuntime => "slot-runtime"
  | .reserved => "reserved"
  | .listener => "listener"

/-- One claim of a port. -/
structure PortClaim where
  port : Int
  owner : String
  source : Source
  group : Option String

/-- What the claims are sorted by. -/
def PortClaim.rank (claim : PortClaim) : Int ×ₗ String ×ₗ String :=
  toLex (claim.port, toLex (claim.source.text, claim.owner))

/-- What repeated claims share. -/
def PortClaim.key (claim : PortClaim) : Int × String × Source :=
  (claim.port, claim.owner, claim.source)

/-- The owner's name of a slot. -/
def slotOwner (name : String) : String :=
  "slot:" ++ name

/-- `str(cfg.get("name") or f.stem)` -/
def slotName (reader : Reader) (stem : String) (table : Table) : String :=
  match table.lookup "name" with
  | none => stem
  | some name => if name.truthy then reader.str name else stem

/-- The FLM trio shares the port of its process. -/
def npuGroup (table : Table) : Option String :=
  match table.lookup "device" with
  | some (.text device) => if device = "npu" then some "npu-flm-trio" else none
  | _ => none

/-- `port` and `[server].port` -/
def slotPorts (table : Table) : List Int :=
  ((table.lookup "port").bind asPort).toList ++
    ((tableAt table "server").bind fun server =>
      (server.lookup "port").bind asPort).toList

/-- The claims of one file, by the table which is read of it. -/
def tableClaims (reader : Reader) (stem : String) (table : Table) :
    List PortClaim :=
  (slotPorts table).map fun port =>
    ⟨port, slotOwner (slotName reader stem table), .slotConfig, npuGroup table⟩

/-- `_config_claims` -/
def configClaims (reader : Reader) : List SlotFile → Option (List PortClaim)
  | [] => some []
  | file :: rest =>
    match file.content with
    | .notUtf8 => none
    | .unreadable => configClaims reader rest
    | .table table => (configClaims reader rest).map fun later =>
      tableClaims reader file.stem table ++ later

/-- What is seen of a running slot. -/
structure Snapshot where
  name : String
  port : Toml
  group : String

/-- `_runtime_claims` -/
def runtimeClaims (snapshots : List Snapshot) : List PortClaim :=
  snapshots.filterMap fun snapshot =>
    (asPort snapshot.port).bind fun port =>
      if snapshot.name ≠ "" then
        some ⟨port, slotOwner snapshot.name, .slotRuntime,
          if snapshot.group ≠ "" then some snapshot.group else none⟩
      else none

/-- A bound port and its process. -/
structure Socket where
  port : Int
  process : Option String

/-- What is asked, and what else is known of the ports. -/
structure Question where
  start : Int
  stop : Int
  snapshots : List Snapshot
  reserved : List (Int × String)
  sockets : List Socket
  includeListeners : Bool

/-- `_listener_claims` -/
def listenerClaims (start stop : Int) (sockets : List Socket) :
    List PortClaim :=
  (sockets.filter fun socket =>
    start ≤ socket.port && socket.port ≤ stop).map fun socket =>
      ⟨socket.port, match socket.process with
        | none => "listener"
        | some name => "listener:" ++ name, .listener, none⟩

/-- The claims which are not of a slot file. -/
def otherClaims (question : Question) : List PortClaim :=
  runtimeClaims question.snapshots ++
    question.reserved.map (fun item => ⟨item.1, item.2, .reserved, none⟩) ++
      if question.includeListeners then
        listenerClaims question.start question.stop question.sockets
      else []

/-- The claims sorted, and one for each port, owner and source. -/
def arranged (claims : List PortClaim) : List PortClaim :=
  uniqueFrom PortClaim.key []
    (claims.mergeSort fun first second => first.rank ≤ second.rank)

/-- `collect_claims` -/
def collectClaims (reader : Reader) (files : List SlotFile)
    (question : Question) : Option (List PortClaim) :=
  (configClaims reader files).map fun config =>
    arranged (config ++ otherClaims question)

/-! ## Answers -/

/-- `range(start, end + 1)` -/
def pool (start stop : Int) : List Int :=
  (List.range (stop + 1 - start).toNat).map fun offset : Nat =>
    start + offset

/-- `next_free` -/
def nextFree (claims : List PortClaim) (start stop : Int) : Option Int :=
  (pool start stop).find? fun port => port ∉ claims.map PortClaim.port

/-- The owners of a port which are no listeners. -/
def namedOwners (claims : List PortClaim) (port : Int) : List String :=
  (claims.filter fun claim =>
    claim.port = port && claim.source ≠ .listener).map PortClaim.owner

/-- The processes which listen on a port. -/
def listenerOwners (claims : List PortClaim) (port : Int) : List String :=
  (claims.filter fun claim =>
    claim.port = port && claim.source = .listener).map PortClaim.owner

/-- `_owners`, the members of the set. -/
def owners (claims : List PortClaim) (port : Int) : List String :=
  if (namedOwners claims port).isEmpty then listenerOwners claims port
  else namedOwners claims port

/-- `groups.get(owner)`: the last claim of a key wins. -/
def groupOf (claims : List PortClaim) (port : Int) (owner : String) :
    Option String :=
  (claims.reverse.find? fun claim =>
    claim.port = port && claim.owner = owner && claim.group.isSome).bind
      PortClaim.group

/-- A port with several owners. -/
structure Conflict where
  port : Int
  owners : List String
  claims : List PortClaim

/-- Whether the owners of a port are more than one family. -/
def clashes (claims : List PortClaim) (port : Int) : Bool :=
  let groups := ((owners claims port).map (groupOf claims port)).dedup
  1 < (owners claims port).dedup.length &&
    !(groups.length = 1 && none ∉ groups)

/-- `conflicts` -/
def conflicts (claims : List PortClaim) : List Conflict :=
  (((claims.map PortClaim.port).dedup.mergeSort (· ≤ ·)).filter
    (clashes claims)).map fun port =>
      ⟨port, (owners claims port).dedup.mergeSort (· ≤ ·),
        claims.filter fun claim => claim.port = port⟩

/-! ## What is expected of them -/

/-- The claims of the slot files as the loader reads them. -/
def hoistedClaims (reader : Reader) (files : List SlotFile) :
    List PortClaim :=
  files.flatMap fun file =>
    match file.content with
    | .table table => tableClaims reader file.stem
        (flattenSlotToml reader table file.stem)
    | _ => []

/-- Somebody claims the port. -/
def Used (claims : List PortClaim) (port : Int) : Prop :=
  ∃ claim ∈ claims, claim.port = port

/-- An owner of a port: a named one or, where there is none, a listener. -/
def Owns (claims : List PortClaim) (port : Int) (owner : String) : Prop :=
  (∃ claim ∈ claims, claim.port = port ∧ claim.owner = owner ∧
      claim.source ≠ .listener) ∨
    ((∀ claim ∈ claims, claim.port = port → claim.source = .listener) ∧
      ∃ claim ∈ claims, claim.port = port ∧ claim.owner = owner)

/-- The group of the first claim with this key. -/
def firstGroup (claims : List PortClaim) (key : Int × String × Source) :
    Option String :=
  (claims.find? fun claim => claim.key = key).bind PortClaim.group

/-- The group which an owner runs in, or else the one which its file has. -/
def coresident (claims : List PortClaim) (port : Int) (owner : String) :
    Option String :=
  (firstGroup claims (port, owner, .slotRuntime)).or
    (firstGroup claims (port, owner, .slotConfig))

/-- Two owners of a port which are not of one group. -/
def Contested (claims : List PortClaim) (port : Int) : Prop :=
  ∃ first second, Owns claims port first ∧ Owns claims port second ∧
    first ≠ second ∧ ¬ ∃ group, coresident claims port first = some group ∧
      coresident claims port second = some group

/-- The lowest port of the pool which is not used, if there is one. -/
def Lowest (claims : List PortClaim) (start stop : Int) :
    Option Int → Prop
  | none => ∀ port, start ≤ port → port ≤ stop → Used claims port
  | some free => start ≤ free ∧ free ≤ stop ∧ ¬ Used claims free ∧
      ∀ port, start ≤ port → port < free → Used claims port

/-- The harvester answers by the claims of the hoisted files and the others. -/
structure Harvested (reader : Reader) (files : List SlotFile)
    (question : Question) (claims : List PortClaim) : Prop where
  free : Lowest (hoistedClaims reader files ++ otherClaims question)
    question.start question.stop
    (nextFree claims question.start question.stop)
  conflicts : ∀ port, port ∈ (conflicts claims).map Conflict.port ↔
    Contested (hoistedClaims reader files ++ otherClaims question) port

/-- It answers, and right. -/
def HarvestLaw (reader : Reader) (files : List SlotFile)
    (question : Question) : Prop :=
  ∃ claims, collectClaims reader files question = some claims ∧
    Harvested reader files question claims

/-! ## When it is met -/

/-- A table is read as it would be hoisted. -/
structure ReadsFlat (reader : Reader) (stem : String) (table : Table) :
    Prop where
  ports : ∀ port, port ∈ slotPorts table ↔
    port ∈ slotPorts (flattenSlotToml reader table stem)
  name : slotPorts table ≠ [] → slotName reader stem table =
    slotName reader stem (flattenSlotToml reader table stem)
  group : slotPorts table ≠ [] →
    npuGroup table = npuGroup (flattenSlotToml reader table stem)

/-- A file in UTF-8 which is read as it would be hoisted. -/
def SlotFile.Flat (reader : Reader) (file : SlotFile) : Prop :=
  match file.content with
  | .notUtf8 => False
  | .unreadable => True
  | .table table => ReadsFlat reader file.stem table

end Hal0.Ports.Harvest
