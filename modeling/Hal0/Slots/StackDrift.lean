import Hal0.Core.Latest
import Hal0.Slots.ChangeSet
import Hal0.Slots.Layout

/-!
# The fingerprint of an applied stack

A stack is planned against the slot files, its change set is committed, and a
hash of what the plan has for each slot name is recorded.  `drift_status`
finds the file of each name again, hashes what is there and compares.

A file which does not parse is no slot for its peers; a plan or a drift status
which has to read it raises, and one which is not UTF-8 raises for its peers
too.  The writes of the commit succeed, a document is read as it was written,
and a slot name of a stack can be a file's stem.
-/

namespace Hal0.Slots.StackDrift

open Std
open Hal0.Slots.ConfigFiles
open Hal0.Slots.ChangeSets (FileState ChangeSet changedStates)
open Hal0.Slots.Layout (SlotFile)
open Hal0.Latest (toDict)

/-! ## Slot files -/

/-- The files `slots/*.toml`. -/
abbrev Files := ExtTreeMap Stem (SlotFile Doc)

/-- The files which `_read_slot_toml_dict` has for the guards. -/
def readable (files : Files) : Directory :=
  files.filterMap fun _ file => file.content?

/-- The data of a file which parses. -/
def docAt (files : Files) (stem : Stem) : Option Doc :=
  files[stem]?.bind SlotFile.content?

/-- The stems in the order of `slot_stems_by_name`. -/
def listing (files : Files) : List Stem :=
  (files.keys.mergeSort fun first second =>
    first ++ ".toml" ≤ second ++ ".toml").filter
      fun stem => !Layout.hidden stem

/-- A file on which the parser raises a `UnicodeDecodeError`. -/
def undecodable (files : Files) (stem : Stem) : Bool :=
  files[stem]?.map SlotFile.decodes = some false

/-- The first file of the name. -/
def stemByName (files : Files) (name : String) : Option Stem :=
  (listing files).find? fun stem =>
    (docAt files stem).bind displayName = some name

/--
`resolve_slot_stem`; `none` is the error of `slot_stems_by_name`, which reads
every visible file.
-/
def resolveSlotStem (files : Files) (key : String) : Option (Option Stem) :=
  if key = "" then some none
  else if files.contains key then some (some key)
  else if (listing files).any (undecodable files) then none
  else some (stemByName files key)

/-- `_slot_stem` -/
def slotStem (files : Files) (name : ConfigFiles.SlotName) : Option Stem :=
  (resolveSlotStem files name).map fun stem => stem.getD name

/-- `_read_toml_or_none`; `none` is the error of the parser. -/
def readTomlOrNone (files : Files) (stem : Stem) : Option (Option Doc) :=
  match files[stem]? with
  | none => some none
  | some (.parsed doc) => some (some doc)
  | some .unreadable | some .undecodable => none

/-! ## Plan and commit -/

/-- A planned file. -/
structure Row where
  slot : ConfigFiles.SlotName
  stem : Stem
  before : Option Doc
  after : Option Doc

/-- What `reconcile_and_guard_slot_config` makes of a file for an entry. -/
def reconciled (rules : Rules) (files : Files) (stem : Stem)
    (entry : StackEntry) (before : Doc) : Option Doc :=
  reconcileAndGuard rules (readable files) stem before entry.updates

/--
The entry would claim the NPU, and a file which the check reads, any but the
one of the stem, is not UTF-8.  No entry carries `default`, so the other check
reads no files.
-/
def peersRaise (rules : Rules) (files : Files) (stem : Stem)
    (entry : StackEntry) (before : Doc) : Bool :=
  (projectSlotUpdates rules before entry.updates).any claimsNpuAnchor &&
    files.keys.any fun peer => peer ≠ stem && undecodable files peer

/--
`_reconciled_stack_slot`, where a refused entry keeps its file; `none` is the
error of a peer.
-/
def reconciledStackSlot (rules : Rules) (files : Files) (stem : Stem)
    (entry : StackEntry) : Option Doc → Option (Option Doc)
  | none => some none
  | some before =>
    if peersRaise rules files stem entry before then none
    else some (some ((reconciled rules files stem entry before).getD before))

/-- One round of `plan`. -/
def planEntry (rules : Rules) (files : Files) (entry : StackEntry) :
    Option Row :=
  (slotStem files entry.slot).bind fun stem =>
    (readTomlOrNone files stem).bind fun before =>
      (reconciledStackSlot rules files stem entry before).map fun after =>
        { slot := entry.slot
          stem := stem
          before := before
          after := after }

/-- `plan` -/
def plan (rules : Rules) (files : Files) (entries : List StackEntry) :
    Option (List Row) :=
  (planned entries).mapM (planEntry rules files)

/-- A file at one moment. -/
def snapshot (stem : Stem) (data : Option Doc) :
    FileState Stem (SlotFile Doc) where
  path := stem
  data := data.map .parsed

/-- The planned files before and after. -/
def changeSet (rows : List Row) : ChangeSet Stem (SlotFile Doc) where
  before := rows.map fun row => snapshot row.stem row.before
  after := rows.map fun row => snapshot row.stem row.after
  parallel := by simp [snapshot]

/-- `_write_state` -/
def writeState (files : Files) (state : FileState Stem (SlotFile Doc)) :
    Files :=
  match state.data with
  | some file => files.insert state.path file
  | none => files.erase state.path

/-- `apply_config`, when no write raises. -/
def applyConfig (files : Files) (rows : List Row) : Files :=
  (changedStates (changeSet rows).entries).foldl writeState files

/-! ## The projections -/

abbrev Projection := ExtTreeMap ConfigFiles.SlotName (Option Doc)

/-- `_projection_from_plan` -/
def projectionFromPlan (rows : List Row) : Projection :=
  toDict (rows.map fun row => (row.slot, row.after))

/-- What is read for the path of a slot; `none` is an error. -/
def readSlot (files : Files) (name : ConfigFiles.SlotName) :
    Option (Option Doc) :=
  (slotStem files name).bind (readTomlOrNone files)

/-- `_projection_live`; `none` is the error of a reader. -/
def projectionLive (files : Files) (entries : List StackEntry) :
    Option Projection :=
  ((planned entries).mapM fun entry =>
    (readSlot files entry.slot).map fun data => (entry.slot, data)).map toDict

/-! ## The recorded hash -/

/-- What `json.dumps` has of a value of a document. -/
inductive Json where
  | leaf (text : String)
  | table (entries : ExtTreeMap String String)
deriving DecidableEq

abbrev JsonDoc := ExtTreeMap String Json

/-- `json.dumps` of a value, and `sha256` over the sorted serialization. -/
structure Hashing (Digest : Type) where
  dumps : Leaf → String
  sha256 : ExtTreeMap ConfigFiles.SlotName (Option JsonDoc) → Digest
  injective : Function.Injective sha256

variable {Digest : Type} [DecidableEq Digest]

namespace Hashing

variable {Digest : Type}

/-- What `json.dumps` sees of a value. -/
def jsonValue (hashing : Hashing Digest) : Value → Json
  | .leaf leaf => .leaf (hashing.dumps leaf)
  | .table entries => .table (entries.map fun _ leaf => hashing.dumps leaf)

/-- What it sees of a file. -/
def jsonDoc (hashing : Hashing Digest) (doc : Doc) : JsonDoc :=
  doc.map fun _ value => hashing.jsonValue value

/-- The canonical form of a projection. -/
def canonical (hashing : Hashing Digest) (projection : Projection) :
    ExtTreeMap ConfigFiles.SlotName (Option JsonDoc) :=
  projection.map fun _ data => data.map hashing.jsonDoc

/-- `stack_content_hash` -/
def stackContentHash (hashing : Hashing Digest) (projection : Projection) :
    Digest :=
  hashing.sha256 (hashing.canonical projection)

end Hashing

/-- `StackStateRecord` -/
structure StackStateRecord (Digest : Type) where
  activeSlug : String
  contentHash : Digest
  convergeOk : Bool

/-- `record_active` -/
def recordActive (hashing : Hashing Digest) (slug : String)
    (rows : List Row) (convergeOk : Bool) : StackStateRecord Digest where
  activeSlug := slug
  contentHash := hashing.stackContentHash (projectionFromPlan rows)
  convergeOk := convergeOk

/-- `DriftStatus` -/
inductive DriftStatus where
  | none
  | clean
  | degraded
  | modified
deriving DecidableEq

/--
`drift_status`; the catalog has the entries of a stack, and `none` is the
error of a reader.
-/
def driftStatus (hashing : Hashing Digest)
    (catalog : String → Option (List StackEntry)) (files : Files) :
    Option (StackStateRecord Digest) → Option DriftStatus
  | none => some .none
  | some record =>
    match catalog record.activeSlug with
    | none => some .modified
    | some entries =>
      (projectionLive files entries).map fun live =>
        if hashing.stackContentHash live ≠ record.contentHash then
          .modified
        else if !record.convergeOk then .degraded
        else .clean

end Hal0.Slots.StackDrift
