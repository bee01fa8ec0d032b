import Hal0.Core.Transition
import Mathlib.Data.List.AList

/-!
# The model store and its accounting

Installed files are `model_file` rows; the distinct contents among them are
`store_blob` rows, with the path of one file which holds the content and a
count of the rows that refer to it.  Pulls install files and take references,
deletes and the collector give references back and unlink files.

The operations follow each other.  A pull is several steps, so that it can end
between two files; the other operations are one step each, and so is every
transaction.  What the network, the guards of a delete and the file system
decide is in the actions.

`digest` is not in the source: it is the hash for which a pull counts the file,
which is the one of the downloaded bytes or of the linked blob, also where the
row records none.
-/

namespace Hal0.Registry.ModelStore

open Hal0.Transition

abbrev Bytes := List UInt8

abbrev Sha := String

abbrev Path := String

abbrev ModelId := String

/-! ## Rows -/

inductive Role where
  | model | shard | mmproj | draft | sidecar | tokenizer | config | other
deriving DecidableEq

/-- A `store_blob` row, without its key. -/
structure Blob where
  blobPath : Path
  refcount : Nat
deriving DecidableEq

/-- A file which a pull has installed. -/
structure Installed where
  rel : String
  dest : Path
  sha256 : Option Sha
  role : Role
  shardIndex : Option Nat
  digest : Sha
deriving DecidableEq

/-- A `model_file` row. -/
structure FileRow extends Installed where
  modelId : ModelId
deriving DecidableEq

/-- Rows are keyed by model and relative path. -/
def FileRow.key (row : FileRow) : ModelId × String := (row.modelId, row.rel)

/-- The row of an installed file. -/
def Installed.row (file : Installed) (modelId : ModelId) : FileRow :=
  { file with modelId := modelId }

/-- `awaiting` is a downloaded file of a file set before its blob is counted. -/
structure Pull where
  modelId : ModelId
  isFileset : Bool
  installed : List Installed
  awaiting : Option Installed
deriving DecidableEq

/-- The files, the blobs and the rows. -/
structure Store where
  disk : Path → Option Bytes
  blobs : AList fun _ : Sha => Blob
  files : List FileRow

/-- The store and the running pull. -/
structure State extends Store where
  pull : Option Pull

/-- The hash, and `assert_under_store`. -/
structure Setting where
  hash : Bytes → Sha
  underStore : Path → Bool

namespace Store

variable (store : Store)

/-! ## Transactions -/

/-- `get_blob` -/
def getBlob (sha : Sha) : Option Blob := store.blobs.lookup sha

def putBlob (sha : Sha) (blob : Blob) : Store :=
  { store with blobs := store.blobs.insert sha blob }

def deleteBlob (sha : Sha) : Store :=
  { store with blobs := store.blobs.erase sha }

/-- `drop_blob_ref`; the count floors at 0. -/
def dropBlobRef (sha : Sha) : Store :=
  match store.getBlob sha with
  | some blob => store.putBlob sha { blob with refcount := blob.refcount - 1 }
  | none => store

/-- `bump_blob_ref` of a known blob, or `insert_blob`. -/
def insertOrBump (sha : Sha) (dest : Path) : Store :=
  match store.getBlob sha with
  | some blob => store.putBlob sha { blob with refcount := blob.refcount + 1 }
  | none => store.putBlob sha ⟨dest, 1⟩

/-- `set_blob_path` -/
def setBlobPath (sha : Sha) (path : Path) : Store :=
  match store.getBlob sha with
  | some blob => store.putBlob sha { blob with blobPath := path }
  | none => store

/-- `upsert_model_file` -/
def upsertModelFile (row : FileRow) : Store :=
  { store with
    files := store.files.filter (fun old => old.key ≠ row.key) ++ [row] }

def deleteRow (row : FileRow) : Store :=
  { store with files := store.files.filter fun old => old.key ≠ row.key }

def write (path : Path) (content : Option Bytes) : Store :=
  { store with disk := fun other => if other = path then content
      else store.disk other }

/-- An unlink behind `assert_under_store`, whose errors are suppressed. -/
def unlink (setting : Setting) (path : Path) : Store :=
  if setting.underStore path then store.write path none else store

/-- `ORDER BY (shard_index IS NULL), shard_index, rel` -/
def listedBefore (left right : FileRow) : Bool :=
  match left.shardIndex, right.shardIndex with
  | some _, none => true
  | none, some _ => false
  | none, none => left.rel ≤ right.rel
  | some first, some second =>
    first < second || (first = second && left.rel ≤ right.rel)

/-- `list_model_files` -/
def listModelFiles (modelId : ModelId) : List FileRow :=
  (store.files.filter fun row => row.modelId = modelId).mergeSort listedBefore

/-- `blob_referents` -/
def blobReferents (sha : Sha) (excluded : ModelId) : List FileRow :=
  (store.files.filter fun row =>
    row.sha256 = some sha && row.modelId ≠ excluded).mergeSort
      fun left right => left.modelId < right.modelId ||
        (left.modelId = right.modelId && left.rel ≤ right.rel)

/-- `_repoint_shared_blob` -/
def repointSharedBlob (sha : Sha) (deleted : Path) (excluded : ModelId) :
    Store :=
  match store.getBlob sha with
  | none => store
  | some blob =>
    if blob.blobPath ≠ deleted then store
    else
      match (store.blobReferents sha excluded).find? fun row =>
          row.dest ≠ deleted && (store.disk row.dest).isSome with
      | some row => store.setBlobPath sha row.dest
      | none => store

/-- `release_blob_ref` -/
def releaseBlobRef (setting : Setting) (modelId : ModelId) (keepBytes : Bool)
    (sha : Sha) (dest : Path) : Store :=
  match store.getBlob sha with
  | none => store
  | some blob =>
    if blob.refcount - 1 = 0 then
      if keepBytes then store.deleteBlob sha
      else (store.dropBlobRef sha).unlink setting blob.blobPath
    else (store.dropBlobRef sha).repointSharedBlob sha dest modelId

/-! ## Pulls -/

/-- One file of `_register_installed_files`; `prior` are the rows before. -/
def registerOne (prior : List FileRow) (modelId : ModelId)
    (file : Installed) : Store :=
  let oldSha := (prior.find? fun row => row.rel = file.rel).bind fun row =>
    row.sha256
  let counted :=
    if oldSha = file.sha256 then
      match file.sha256 with
      | some sha =>
        match store.getBlob sha with
        | some blob =>
          if (store.disk blob.blobPath).isSome then store
          else store.setBlobPath sha file.dest
        | none => store
      | none => store
    else
      let dropped :=
        match oldSha with
        | some sha => store.dropBlobRef sha
        | none => store
      match file.sha256 with
      | some sha => dropped.insertOrBump sha file.dest
      | none => dropped
  counted.upsertModelFile (file.row modelId)

/-- The rows which `_drop_superseded_model_files` forgets. -/
def superseded (prior : List FileRow) (installed : List Installed) :
    List FileRow :=
  prior.filter fun row =>
    !(installed.any fun file => file.rel = row.rel) &&
      (row.role = .model || row.role = .shard)

/-- The new files have this path too. -/
def reused (installed : List Installed) (row : FileRow) : Bool :=
  installed.any fun file => file.dest = row.dest

/-- One row of `_drop_superseded_model_files`. -/
def dropSuperseded (setting : Setting) (modelId : ModelId)
    (installed : List Installed) (row : FileRow) : Store :=
  let forgotten := store.deleteRow row
  let released :=
    match row.sha256 with
    | some sha => forgotten.releaseBlobRef setting modelId
        (reused installed row) sha row.dest
    | none => forgotten
  if reused installed row then released
  else released.unlink setting row.dest

/-- `_register_installed_files` -/
def registerInstalledFiles (setting : Setting) (modelId : ModelId)
    (installed : List Installed) : Store :=
  let prior := store.listModelFiles modelId
  let registered := installed.foldl
    (fun current file => current.registerOne prior modelId file) store
  (superseded prior installed).foldl
    (fun current row => current.dropSuperseded setting modelId installed row)
    registered

/-- The rows of `_register_pulled_fileset`. -/
def registerPulledFileset (modelId : ModelId) (installed : List Installed) :
    Store :=
  installed.foldl
    (fun current file => current.upsertModelFile (file.row modelId)) store

/-! ## Deletes -/

/-- One row of `plan_model_files`: a path once, with the first hash it has. -/
def planRow (planned : List (Path × Option Sha)) (row : FileRow) :
    List (Path × Option Sha) :=
  if planned.any fun entry => entry.1 = row.dest then
    planned.map fun entry =>
      if entry.1 = row.dest ∧ entry.2 = none then (entry.1, row.sha256)
      else entry
  else planned ++ [(row.dest, row.sha256)]

/-- `plan_model_files` -/
def planModelFiles (modelId : ModelId) : List (Path × Option Sha) :=
  (store.listModelFiles modelId).foldl planRow []

/-- `_References.owner` among the rows of the files. -/
def owned (path : Path) : Bool := store.files.any fun row => row.dest = path

/-- `registry.remove`; the rows of the files cascade. -/
def removeModel (modelId : ModelId) : Store :=
  { store with files := store.files.filter fun row => row.modelId ≠ modelId }

/-- The files which a delete unlinks; `refused` are those of other guards. -/
def unlinked (planned : List (Path × Option Sha)) (deleteFiles : Bool)
    (refused : List Path) : List (Path × Option Sha) :=
  planned.filter fun entry => deleteFiles && (store.disk entry.1).isSome &&
    !store.owned entry.1 && !refused.contains entry.1

/-- The paths which a delete unlinks. -/
def gone (modelId : ModelId) (deleteFiles : Bool) (refused : List Path) :
    List (Path × Option Sha) :=
  (store.removeModel modelId).unlinked (store.planModelFiles modelId)
    deleteFiles refused

/-- The paths which a delete leaves. -/
def left (modelId : ModelId) (deleteFiles : Bool) (refused : List Path) :
    List (Path × Option Sha) :=
  (store.planModelFiles modelId).filter fun entry =>
    entry ∉ store.gone modelId deleteFiles refused

/-- Every listed file is removed. -/
def clear (entries : List (Path × Option Sha)) : Store :=
  entries.foldl (fun current entry => current.write entry.1 none) store

/-- `release_blob_refs` of one list. -/
def releaseAll (setting : Setting) (modelId : ModelId) (keepBytes : Bool)
    (entries : List (Path × Option Sha)) : Store :=
  entries.foldl
    (fun current entry =>
      match entry.2 with
      | some sha =>
        current.releaseBlobRef setting modelId keepBytes sha entry.1
      | none => current)
    store

/-- `_remove_row_and_files`, with `delete_model_files_on_disk`. -/
def deleteModel (setting : Setting) (modelId : ModelId) (deleteFiles : Bool)
    (refused : List Path) : Store :=
  let gone := store.gone modelId deleteFiles refused
  let cleared := (store.removeModel modelId).clear gone
  (cleared.releaseAll setting modelId false gone).releaseAll setting modelId
    true (store.left modelId deleteFiles refused)

/-! ## The collector -/

/-- One row of `prune_orphans`, when its unlink does not fail. -/
def pruneOrphan (setting : Setting) (sha : Sha) : Store :=
  match store.getBlob sha with
  | some blob =>
    if blob.refcount = 0 ∧ setting.underStore blob.blobPath then
      (store.write blob.blobPath none).deleteBlob sha
    else store
  | none => store

/-- `prune_orphans`, with `dry_run` off -/
def pruneOrphans (setting : Setting) (shas : List Sha) : Store :=
  shas.foldl (fun current sha => current.pruneOrphan setting sha) store

/-- `_tracked_store_paths` -/
def tracked (path : Path) : Bool :=
  (store.blobs.entries.any fun entry => entry.2.blobPath = path) ||
    store.owned path

/-- One file of `reconcile_store_tree`. -/
def reap (setting : Setting) (path : Path) : Store :=
  if store.tracked path then store else store.unlink setting path

/-- `reconcile_store_tree`, with `dry_run` off -/
def reconcileStoreTree (setting : Setting) (paths : List Path) : Store :=
  paths.foldl (fun current path => current.reap setting path) store

end Store

/-! ## Steps -/

/-- A file of a pull; `lfs` is the hash which the file set plan has. -/
structure Planned where
  rel : String
  dest : Path
  role : Role
  shardIndex : Option Nat
  lfs : Option Sha
deriving DecidableEq

def Planned.installed (file : Planned) (sha : Option Sha) (digest : Sha) :
    Installed :=
  ⟨file.rel, file.dest, sha, file.role, file.shardIndex, digest⟩

/-- A step of a pull, or a deletion. -/
inductive Action where
  | startPull (modelId : ModelId) (isFileset : Bool)
  /-- `_download_one` has verified the bytes and renamed them into place. -/
  | download (file : Planned) (bytes : Bytes)
  /-- `_register_blob_after_install` -/
  | countBlob
  /-- `_maybe_hardlink_from_blob`, when it does not fail. -/
  | hardlink (file : Planned)
  /-- The accounting of a pull whose files are all installed. -/
  | register
  /-- The pull is cancelled, or fails, or is abandoned. -/
  | stopPull
  | deleteModel (modelId : ModelId) (deleteFiles : Bool)
      (refused : List Path)
  /-- `prune_orphans`, on the orphans whose unlink succeeds. -/
  | pruneOrphans (shas : List Sha)
  /-- `reconcile_store_tree`, on the files which it reaches. -/
  | reconcile (paths : List Path)

/-- A file of a plain pull is registered with its digest. -/
def installPlain (setting : Setting) (state : State) (pull : Pull)
    (file : Planned) (bytes : Bytes) : State :=
  let digest := setting.hash bytes
  let done := file.installed (some digest) digest
  { state.write file.dest (some bytes) with
    pull := some { pull with installed := pull.installed ++ [done] } }

/-- A file of a file set is registered with the hash of the plan. -/
def installFileset (setting : Setting) (state : State) (pull : Pull)
    (file : Planned) (bytes : Bytes) : State :=
  { state.write file.dest (some bytes) with
    pull := some { pull with
      awaiting := some (file.installed file.lfs (setting.hash bytes)) } }

/-- A verified file is put in place. -/
def download (setting : Setting) (state : State) (pull : Pull)
    (file : Planned) (bytes : Bytes) : Option State :=
  if ¬ pull.isFileset then some (installPlain setting state pull file bytes)
  else if pull.awaiting = none ∧
      (file.lfs = none ∨ file.lfs = some (setting.hash bytes)) then
    some (installFileset setting state pull file bytes)
  else none

/-- A blob is stored, or counted once more. -/
def countBlob (state : State) (pull : Pull) : Option State :=
  match pull.awaiting with
  | none => none
  | some file =>
    some { state.insertOrBump file.digest file.dest with
      pull := some { pull with
        installed := pull.installed ++ [file], awaiting := none } }

/-- A file is linked to a blob that is there. -/
def hardlink (state : State) (pull : Pull) (file : Planned) : Option State :=
  match file.lfs with
  | none => none
  | some sha =>
    match state.getBlob sha with
    | none => none
    | some blob =>
      match state.disk blob.blobPath with
      | none => none
      | some bytes =>
        if pull.isFileset ∧ pull.awaiting = none then
          some { (state.write file.dest (some bytes)).putBlob sha
              { blob with refcount := blob.refcount + 1 } with
            pull := some { pull with installed :=
              pull.installed ++ [file.installed (some sha) sha] } }
        else none

/-- The rows of the model are replaced. -/
def register (setting : Setting) (state : State) (pull : Pull) :
    Option State :=
  if pull.awaiting = none ∧ pull.installed ≠ [] then
    let registered :=
      if pull.isFileset then
        state.registerPulledFileset pull.modelId pull.installed
      else state.registerInstalledFiles setting pull.modelId pull.installed
    some { registered with pull := none }
  else none

/-- One step of the store. -/
def step (setting : Setting) : StepFunction State Action
  | state, .startPull modelId isFileset =>
    match state.pull with
    | none => some { state with pull := some ⟨modelId, isFileset, [], none⟩ }
    | some _ => none
  | state, .download file bytes =>
    state.pull.bind fun pull => download setting state pull file bytes
  | state, .countBlob => state.pull.bind fun pull => countBlob state pull
  | state, .hardlink file =>
    state.pull.bind fun pull => hardlink state pull file
  | state, .register => state.pull.bind fun pull => register setting state pull
  | state, .stopPull => state.pull.map fun _ => { state with pull := none }
  | state, .deleteModel modelId deleteFiles refused =>
    match state.pull with
    | none => some { state.deleteModel setting modelId deleteFiles
        refused with pull := none }
    | some _ => none
  | state, .pruneOrphans shas =>
    match state.pull with
    | none => some { state.pruneOrphans setting shas with pull := none }
    | some _ => none
  | state, .reconcile paths =>
    match state.pull with
    | none => some { state.reconcileStoreTree setting paths with
        pull := none }
    | some _ => none

/-- No files, blobs or rows. -/
def empty : State := ⟨⟨fun _ => none, ∅, []⟩, none⟩

end Hal0.Registry.ModelStore
