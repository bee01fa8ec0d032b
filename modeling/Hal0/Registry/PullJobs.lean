import Hal0.Core.Footprint
import Hal0.Registry.Download
import Hal0.Registry.PullNames
import Mathlib.Algebra.GroupWithZero.Nat

/-!
# Pulls on one disk

`run_pull` fetches the files of a model one after the other, each by
`_download_one`, and installs them; the parts of a split model wait in a
staging directory until all are there.  The job is mirrored to disk when it
begins, while it streams, and when it ends.

A pull is a machine which shares the disk with other pulls.  What the network,
the clock and the user decide is in the events.  The code between two `await`s
runs at once; what follows the last download is a few steps of their own
here, which allows more interleavings.
-/

namespace Hal0.Registry.Pulls

open Hal0.Footprint
open Hal0.Registry.Download (Bytes Version Url Response Interruption Staging)

/-- The files by their paths. -/
abbrev Disk := Path → Option Bytes

abbrev DiskWrite := Write Path (Option Bytes)

/-! ## Jobs -/

/-- The error of a job and its code. -/
structure Failure where
  error : String
  code : String
deriving DecidableEq

/-- The states of a job. -/
inductive JobState where
  | queued | running | completed | failed | cancelled
deriving DecidableEq

/-- An entry of the manifest. -/
structure PullFile where
  dest : Option Path := none
  bytesTotal : Nat := 0
  bytesDone : Nat := 0
  sha256 : Option String := none
  expectedSha256 : Option String := none
deriving DecidableEq

/-- What is left to do. -/
inductive Task where
  /-- `_plan_split_parts` -/
  | plan
  /-- A part of a split model, which may be staged already. -/
  | part (index : Nat)
  /-- `_download_one`, for a part into the staging directory. -/
  | fetch (slot : FileSlot) (staged : Bool)
  /-- `_install_split_parts` -/
  | install
  /-- From `_remove_mislabeled_canonical` to the end. -/
  | finish
deriving DecidableEq

/-- What `_register_pulled` writes to the registry. -/
structure Row where
  path : Path
  sizeBytes : Nat
  sha256 : String
  hfRepo : Name
  hfFilename : Name
  capability : Option Name
  mmproj : Option Path
  shards : List Path
  draft : Option Path
  draftSha256 : Option String
deriving DecidableEq

/-- The record of a pull. -/
structure Job where
  state : JobState
  startedAt : Nat
  finishedAt : Option Nat
  failure : Option Failure
  sha256 : Option String
  path : Option Path
  bytesDownloaded : Nat
  bytesTotal : Nat
  files : List (FileSlot × PullFile)
  tasks : List Task
  attempt : Option Download.Pc
  revision : String
  row : Option Row

/-- `make_job` -/
def Job.made (now : Nat) : Job where
  state := .queued
  startedAt := now
  finishedAt := none
  failure := none
  sha256 := none
  path := none
  bytesDownloaded := 0
  bytesTotal := 0
  files := []
  tasks := []
  attempt := none
  revision := "main"
  row := none

/-- `job.as_dict()` -/
structure Snapshot where
  modelId : Name
  state : JobState
  bytesDownloaded : Nat
  bytesTotal : Nat
  startedAt : Nat
  finishedAt : Option Nat
  failure : Option Failure
  sha256 : Option String
  path : Option Path
  files : List (FileSlot × Option Name × PullFile)

/-- The contents of `meta.json`. -/
structure ModelMeta where
  curatedId : Name
  hfRepo : Name
  hfFile : Name
  sha256 : String
  sizeBytes : Nat
  capability : Option Name

/-- The layout, with the hash and the JSON texts. -/
structure Setting extends Layout where
  hash : Bytes → String
  sidecarText : Download.Meta → Bytes
  readSidecar : Bytes → Option Download.Meta
  snapshotText : Snapshot → Bytes
  metaText : ModelMeta → Bytes
  /-- The `hf_file` of a `meta.json`. -/
  readMetaFile : Bytes → Option Name

variable (setting : Setting) (request : Request)

/-! ## The manifest -/

/-- The files, in the order of the manifest. -/
def slots : List FileSlot :=
  (List.range (request.models setting.toLayout).length).map .model ++
    (if request.mmprojFile.isSome then [.mmproj] else []) ++
    (if request.draftFile.isSome then [.draft] else []) ++
    (List.range request.extraFiles.length).map .sidecar

/-- What a pull has to do, in order. -/
def tasks : List Task :=
  let models := List.range (request.models setting.toLayout).length
  (if request.isSplit setting.toLayout then .plan :: models.map .part
    else models.map fun index => .fetch (.model index) false) ++
    (if request.mmprojFile.isSome then [.fetch .mmproj false] else []) ++
    (if request.draftFile.isSome then [.fetch .draft false] else []) ++
    (if request.isSplit setting.toLayout then [.install] else []) ++
    ((List.range request.extraFiles.length).map fun index =>
      .fetch (.sidecar index) false) ++
    [.finish]

/-- The install path of a file. -/
def finalOf (slot : FileSlot) : Option Path :=
  (request.installName setting.toLayout slot).map fun name =>
    request.directory setting.toLayout ++ [name]

/-- The path of a part in the staging directory. -/
def stagedOf (slot : FileSlot) : Option Path :=
  (request.installName setting.toLayout slot).map fun name =>
    request.splitStagingDir setting.toLayout ++ [name]

/-- Where a file of the pull is written. -/
def targetOf (slot : FileSlot) (staged : Bool) : Option Path :=
  if staged then stagedOf setting request slot
  else finalOf setting request slot

/-- `hf_download_url` -/
def hfDownloadUrl (repo file : Name) (revision : String) : Url :=
  let slash := fun char : Char => char = '/'
  String.ofList ("https://huggingface.co/".toList ++
    ((repo.dropWhile slash).reverse.dropWhile slash).reverse ++
    "/resolve/".toList ++ revision.toList ++ '/' :: file.dropWhile slash)

/-- The drafter may be in another repository, and is read from its `main`. -/
def urlOf (job : Job) (slot : FileSlot) (file : Name) : Url :=
  match slot with
  | .draft =>
    let repo := request.draftRepo.getD request.hfRepo
    hfDownloadUrl repo file
      (if repo = request.hfRepo then job.revision else "main")
  | .sidecar _ => hfDownloadUrl request.hfRepo file "main"
  | _ => hfDownloadUrl request.hfRepo file job.revision

namespace Job

variable (job : Job)

/-- The progress of one file. -/
def record (slot : FileSlot) : PullFile := (job.files.lookup slot).getD {}

/-- New progress of one file. -/
def setRecord (slot : FileSlot) (file : PullFile) : Job :=
  { job with files := job.files.map fun entry =>
      if entry.1 = slot then (slot, file) else entry }

def sumDone : Nat := (job.files.map fun entry => entry.2.bytesDone).sum

def sumTotal : Nat := (job.files.map fun entry => entry.2.bytesTotal).sum

/-- The aggregates which follow the record of a file. -/
def counted (knowsTotal : Bool) : Job :=
  { job with
    bytesDownloaded := job.sumDone
    bytesTotal := if knowsTotal then job.sumTotal else job.bytesTotal }

end Job

/-! ## Writes -/

/-- A file is written or removed. -/
def setFile (path : Path) (content : Option Bytes) : DiskWrite :=
  ⟨fun other => other = path, content⟩

/-- `shutil.rmtree` -/
def removeTree (directory : Path) : DiskWrite :=
  ⟨fun other => directory.isPrefixOf other, none⟩

def snapshotOf (job : Job) : Snapshot where
  modelId := request.modelId
  state := job.state
  bytesDownloaded := job.bytesDownloaded
  bytesTotal := job.bytesTotal
  startedAt := job.startedAt
  finishedAt := job.finishedAt
  failure := job.failure
  sha256 := job.sha256
  path := job.path
  files := job.files.map fun entry =>
    (entry.1, request.fileOf setting.toLayout entry.1, entry.2)

/-- `persist_pull_job` -/
def persistPullJob (job : Job) : DiskWrite :=
  setFile (request.pullJobFile setting.toLayout)
    (some (setting.snapshotText (snapshotOf setting request job)))

/-- The `except` and `finally` clauses. -/
def ends (job : Job) (state : JobState) (failure : Option Failure)
    (now : Nat) (writes : List DiskWrite) : Job × List DiskWrite :=
  let ended := { job with
    state := state, failure := failure, finishedAt := some now, tasks := [],
    attempt := none }
  (ended, writes ++ [persistPullJob setting request ended])

/-! ## One download -/

/-- What happens to the download under way. -/
inductive Signal where
  | begin
  | respond (version : Version) (contentLength : Option Nat)
      (response : Response)
  | rehashed
  | chunk (length : Nat)
  | finish
  | interrupt (interruption : Interruption)

/-- What the signal is to the download. -/
def Signal.action (signal : Signal) (url : Url) (preset : Option String) :
    Download.Action :=
  match signal with
  | .begin => .start url preset
  | .respond _ _ response => .respond response
  | .rehashed => .rehashed
  | .chunk length => .chunk length
  | .finish => .finish
  | .interrupt interruption => .interrupt interruption

/-- What the server has, as far as the signal says. -/
def Signal.served (signal : Signal) (url : Url) : List (Url × Version) :=
  match signal with
  | .respond version _ _ => [(url, version)]
  | _ => []

/-- The staging files of a file of the repository. -/
def stagingOf (disk : Disk) (file : Name) : Staging where
  part := disk (request.stagingPart setting.toLayout file)
  sidecar := (disk (request.stagingSidecar setting.toLayout file)).bind
    setting.readSidecar

/-- The staged files which change. -/
def stagingWrites (file : Name) (old new : Staging) : List DiskWrite :=
  (if new.part = old.part then []
    else [setFile (request.stagingPart setting.toLayout file) new.part]) ++
  (if new.sidecar.isSome ∧ new.sidecar = old.sidecar then []
    else [setFile (request.stagingSidecar setting.toLayout file)
      (new.sidecar.map setting.sidecarText)])

/-- The record of the file while it is downloaded. -/
def recordDuring (record : PullFile) (signal : Signal)
    (attempt : Download.Pc) : PullFile :=
  let answered :=
    match signal, attempt with
    | .respond version contentLength response, .streaming asked _ _ _
    | .respond version contentLength response, .rehashing asked _ =>
      { record with
        expectedSha256 := asked.expected version
        bytesTotal :=
          match response with
          | .partialContent (some (_, _, total)) => total
          | _ => contentLength.getD record.bytesTotal }
    | _, _ => record
  match attempt with
  | .streaming _ _ hashed _ => { answered with bytesDone := hashed.length }
  | _ => answered

/-- The response tells how long the file is. -/
def Signal.knowsTotal : Signal → Bool
  | .respond _ contentLength (.full) => contentLength.isSome
  | .respond _ _ (.partialContent _) => true
  | _ => false

/-- The record of the file once it is installed. -/
def recordInstalled (record : PullFile) (target : Path)
    (installed : Download.Install) : PullFile :=
  { record with
    dest := some target
    sha256 := some installed.digest
    bytesDone := installed.bytes.length
    bytesTotal := if record.bytesTotal = 0 then installed.bytes.length
      else record.bytesTotal }

/-- How a download which is cut short ends. -/
def Signal.endState : Signal → JobState
  | .interrupt .taskCancelled | .interrupt .userCancelled => .cancelled
  | _ => .failed

/-- A cancel of the user discards the staged parts too. -/
def Signal.discards (signal : Signal) (staged : Bool) : Bool :=
  match signal with
  | .interrupt .userCancelled => staged
  | _ => false

/-- One step of `_download_one`. -/
def downloadStep (job : Job) (disk : Disk) (slot : FileSlot) (staged : Bool)
    (rest : List Task) (signal : Signal) (failure : Failure) (now : Nat) :
    Option (Job × List DiskWrite) := do
  let file ← request.fileOf setting.toLayout slot
  let target ← targetOf setting request slot staged
  let url := urlOf request job slot file
  let old := stagingOf setting request disk file
  let record := job.record slot
  let after ← Download.step setting.hash
    ⟨signal.served url, old, job.attempt, []⟩
    (signal.action url record.expectedSha256)
  let writes := stagingWrites setting request file old after.staging
  match after.installs, after.attempt with
  | installed :: _, _ =>
    let counted :=
      (job.setRecord slot (recordInstalled record target installed)).counted
        true
    some ({ counted with attempt := none, tasks := rest },
      writes ++ [setFile target (some installed.bytes)])
  | [], some attempt =>
    some ({ (job.setRecord slot (recordDuring record signal attempt)).counted
      signal.knowsTotal with attempt := some attempt }, writes)
  | [], none =>
    let state := signal.endState
    some (ends setting request job state
      (if state = .failed then some failure else none) now
      (writes ++ (if signal.discards staged then
        [removeTree (request.splitStagingDir setting.toLayout)] else [])))

/-! ## Split models -/

/-- `_staged_part_ok` -/
def stagedPartOk (content : Option Bytes) (record : PullFile) : Bool :=
  match content with
  | none => false
  | some bytes =>
    bytes.length = record.bytesTotal &&
      match record.expectedSha256 with
      | none => true
      | some expected => expected = "" || setting.hash bytes = expected

/-- A part which is staged already. -/
def probePart (job : Job) (disk : Disk) (index : Nat) (rest : List Task) :
    Option (Job × List DiskWrite) := do
  let staged ← stagedOf setting request (.model index)
  let record := job.record (.model index)
  let content := disk staged
  if stagedPartOk setting content record then
    let kept := { record with
      bytesDone := record.bytesTotal
      sha256 := some ((record.expectedSha256.filter (· ≠ "")).getD
        (setting.hash (content.getD [])))
      dest := some staged }
    let counted := (job.setRecord (.model index) kept).counted false
    return ({ counted with tasks := rest }, [])
  else return ({ job with tasks := .fetch (.model index) true :: rest }, [])

abbrev TreeEntry := Name × Nat × Option String

/-- The files which the plan looks up. -/
def plannedSlots : List FileSlot :=
  (slots setting request).filter fun
    | .model _ | .mmproj => true
    | .draft => request.draftRepo.getD request.hfRepo = request.hfRepo
    | .sidecar _ => false

/-- Size and hash of a file, when the tree has it. -/
def entryOf (tree : List TreeEntry) (slot : FileSlot) :
    Option (Nat × Option String) :=
  (request.fileOf setting.toLayout slot).bind fun file => List.lookup file tree

/-- The records get the sizes and the hashes. -/
def plan (tree : List TreeEntry) (job : Job) : Job :=
  (plannedSlots setting request).foldl
    (fun current slot =>
      match entryOf setting request tree slot with
      | some (size, oid) =>
        current.setRecord slot { current.record slot with
          bytesTotal := size, expectedSha256 := oid }
      | none => current)
    job

/-- `_plan_split_parts`, once the tree is there. -/
def planStep (job : Job) (rest : List Task) (revision : String)
    (tree : List TreeEntry) (failure : Failure) (now : Nat) :
    Job × List DiskWrite :=
  if (plannedSlots setting request).all fun slot =>
      (entryOf setting request tree slot).isSome then
    let planned := plan setting request tree job
    ({ planned with
      tasks := rest, revision := revision, bytesTotal := planned.sumTotal }, [])
  else ends setting request job .failed (some failure) now []

/-- The parts, with their staged and their final paths. -/
def partMoves : List (FileSlot × Path × Path) :=
  (List.range (request.models setting.toLayout).length).filterMap fun index => do
    let staged ← stagedOf setting request (.model index)
    let final ← finalOf setting request (.model index)
    return (.model index, staged, final)

/-- The renames, up to the first part which is not there. -/
def moveParts : List (FileSlot × Path × Path) → Disk →
    List (FileSlot × Path) × List DiskWrite
  | [], _ => ([], [])
  | (slot, staged, final) :: rest, disk =>
    match disk staged with
    | none => ([], [])
    | some bytes =>
      let writes := [setFile staged none, setFile final (some bytes)]
      let (moved, later) := moveParts rest (Write.applyAll writes disk)
      ((slot, final) :: moved, writes ++ later)

/-- `_install_split_parts` -/
def installStep (job : Job) (disk : Disk) (rest : List Task)
    (failure : Failure) (now : Nat) : Job × List DiskWrite :=
  let moves := partMoves setting request
  let result := moveParts moves disk
  let placed := result.1.foldl
    (fun current entry => current.setRecord entry.1
      { current.record entry.1 with dest := some entry.2 }) job
  if result.1.length = moves.length then
    ({ placed with tasks := rest },
      result.2 ++ [removeTree (request.splitStagingDir setting.toLayout)])
  else ends setting request placed .failed (some failure) now result.2

/-! ## The end of a pull -/

def inDirectory (name : Name) : Path :=
  request.directory setting.toLayout ++ [name]

/-- `_remove_mislabeled_canonical` -/
def removeMislabeledCanonical (disk : Disk) : List DiskWrite :=
  if request.looksForMislabeled setting.toLayout then
    match disk (inDirectory setting request canonicalGgufName) with
    | none => []
    | some stale =>
      let noted := (disk (inDirectory setting request
        Request.metaName)).bind setting.readMetaFile
      let sameSize := (finalOf setting request (.model 0)).bind disk |>.any
        fun main => main.length = stale.length
      if noted = some request.hfFile ∨ sameSize then
        [setFile (inDirectory setting request canonicalGgufName) none]
      else []
  else []

/-- The digest of the first file. -/
def mainDigest (job : Job) : String :=
  (job.record (.model 0)).sha256.getD ""

/-- The bytes of the model itself. -/
def modelBytes (job : Job) : Nat :=
  ((List.range (request.models setting.toLayout).length).map fun index =>
    (job.record (.model index)).bytesDone).sum

/-- The arguments of `_register_pulled`. -/
def registeredRow (job : Job) : Row where
  path := inDirectory setting request (request.mainName setting.toLayout)
  sizeBytes := modelBytes setting request job +
    (job.record .mmproj).bytesDone + (job.record .draft).bytesDone
  sha256 := mainDigest job
  hfRepo := request.hfRepo
  hfFilename := request.hfFile
  capability := request.capability
  mmproj := finalOf setting request .mmproj
  shards :=
    if request.isSplit setting.toLayout then
      (partMoves setting request).map fun move => move.2.2
    else []
  draft := finalOf setting request .draft
  draftSha256 := (job.record .draft).sha256

/-- `write_model_meta` -/
def writeModelMeta (job : Job) : List DiskWrite :=
  if request.capability.isSome then
    [setFile (inDirectory setting request Request.metaName)
      (some (setting.metaText
        ⟨request.modelId, request.hfRepo, request.hfFile, mainDigest job,
          modelBytes setting request job, request.capability⟩))]
  else []

/-- The job once the model is registered. -/
def completed (job : Job) (now : Nat) : Job :=
  { job with
    row := some (registeredRow setting request job)
    path := some (inDirectory setting request
      (request.mainName setting.toLayout))
    sha256 := some (mainDigest job)
    bytesDownloaded := job.sumDone
    bytesTotal := if 0 < job.sumTotal then job.sumTotal else job.sumDone
    state := .completed
    finishedAt := some now
    tasks := [] }

/-- The last step of a pull. -/
def finishStep (job : Job) (disk : Disk) (abandoned : Bool) (now : Nat) :
    Job × List DiskWrite :=
  let removed := removeMislabeledCanonical setting request disk
  if abandoned then ends setting request job .cancelled none now removed
  else
    let done := completed setting request job now
    (done, removed ++ writeModelMeta setting request job ++
      [persistPullJob setting request done])

/-! ## Steps -/

/-- `refused` is an error of `refuse_image_asset`. -/
inductive Event where
  | start (now : Nat) (refused : Option Failure)
  | planned (revision : String) (tree : List TreeEntry) (failure : Failure)
      (now : Nat)
  | planFailed (failure : Failure) (now : Nat)
  | probe
  | download (signal : Signal) (failure : Failure) (now : Nat)
  /-- The snapshot of a stream, or the one which the caller adds. -/
  | persist
  | install (failure : Failure) (now : Nat)
  /-- `abandoned` is `_registration_abandoned`. -/
  | finish (abandoned : Bool) (now : Nat)
  /-- The task is cancelled between two downloads. -/
  | taskCancelled (now : Nat)

/-- The job begins; a refused split part or an empty source raises before. -/
def startStep (job : Job) (now : Nat) (refused : Option Failure) :
    Option (Job × List DiskWrite) :=
  if job.state = .queued ∧ request.hfRepo ≠ [] ∧ request.hfFile ≠ [] ∧
      (shardSet setting.digit request.hfFile).isSome then
    let running := { job with
      state := .running
      startedAt := now
      files := (slots setting request).map fun slot => (slot, {})
      tasks := tasks setting request }
    match refused with
    | none => some (running, [persistPullJob setting request running])
    | some failure =>
      some (ends setting request running .failed (some failure) now
        [persistPullJob setting request running])
  else none

/-- A pull as a machine. -/
def machine : Machine Job Event Path (Option Bytes) := fun job disk event =>
  match event, job.tasks with
  | .start now refused, _ => startStep setting request job now refused
  | .planned revision tree failure now, .plan :: rest =>
    some (planStep setting request job rest revision tree failure now)
  | .planFailed failure now, .plan :: _ =>
    some (ends setting request job .failed (some failure) now [])
  | .probe, .part index :: rest => probePart setting request job disk index rest
  | .download signal failure now, .fetch slot staged :: rest =>
    downloadStep setting request job disk slot staged rest signal failure now
  | .persist, _ =>
    if job.state = .queued then none
    else some (job, [persistPullJob setting request job])
  | .install failure now, .install :: rest =>
    some (installStep setting request job disk rest failure now)
  | .finish abandoned now, .finish :: _ =>
    some (finishStep setting request job disk abandoned now)
  | .taskCancelled now, .plan :: _ | .taskCancelled now, .part _ :: _ =>
    some (ends setting request job .cancelled none now [])
  | _, _ => none

end Hal0.Registry.Pulls
