import Hal0.Registry.Store
import Mathlib.Data.List.Nodup

/-!
# What the store operations do

`refs` is the count of a blob, which is 0 without a row, and `held` counts the
rows whose file was installed with a digest.  Each operation changes these, the
paths of the blobs and the disk in a few ways only, which are stated once here.
-/

namespace Hal0.Registry.ModelStore

open List Option

namespace Store

/-- The count of a blob. -/
def refs (store : Store) (sha : Sha) : Nat :=
  ((store.getBlob sha).map Blob.refcount).getD 0

/-- How many rows hold the blob. -/
def held (store : Store) (sha : Sha) : Nat :=
  store.files.countP fun row => row.digest = sha

variable (store : Store)

/-! ## Blobs -/

theorem getBlob_putBlob (sha other : Sha) (blob : Blob) :
    (store.putBlob sha blob).getBlob other =
      if other = sha then some blob else store.getBlob other := by
  by_cases same : other = sha
  · subst same
    simp [putBlob, getBlob]
  · simp [putBlob, getBlob, AList.lookup_insert_ne same, same]

theorem getBlob_deleteBlob (sha other : Sha) :
    (store.deleteBlob sha).getBlob other =
      if other = sha then none else store.getBlob other := by
  by_cases same : other = sha
  · subst same
    simp [deleteBlob, getBlob]
  · simp [deleteBlob, getBlob, AList.lookup_erase_ne same, same]

@[simp]
theorem files_deleteBlob (sha : Sha) :
    (store.deleteBlob sha).files = store.files := rfl

@[simp]
theorem disk_deleteBlob (sha : Sha) :
    (store.deleteBlob sha).disk = store.disk := rfl

@[simp]
theorem files_dropBlobRef (sha : Sha) :
    (store.dropBlobRef sha).files = store.files := by
  unfold dropBlobRef
  split <;> rfl

@[simp]
theorem disk_dropBlobRef (sha : Sha) :
    (store.dropBlobRef sha).disk = store.disk := by
  unfold dropBlobRef
  split <;> rfl

@[simp]
theorem files_insertOrBump (sha : Sha) (dest : Path) :
    (store.insertOrBump sha dest).files = store.files := by
  unfold insertOrBump
  split <;> rfl

@[simp]
theorem disk_insertOrBump (sha : Sha) (dest : Path) :
    (store.insertOrBump sha dest).disk = store.disk := by
  unfold insertOrBump
  split <;> rfl

@[simp]
theorem files_setBlobPath (sha : Sha) (path : Path) :
    (store.setBlobPath sha path).files = store.files := by
  unfold setBlobPath
  split <;> rfl

@[simp]
theorem disk_setBlobPath (sha : Sha) (path : Path) :
    (store.setBlobPath sha path).disk = store.disk := by
  unfold setBlobPath
  split <;> rfl

@[simp]
theorem files_write (path : Path) (content : Option Bytes) :
    (store.write path content).files = store.files := rfl

@[simp]
theorem getBlob_write (path : Path) (content : Option Bytes) (sha : Sha) :
    (store.write path content).getBlob sha = store.getBlob sha := rfl

theorem disk_write (path other : Path) (content : Option Bytes) :
    (store.write path content).disk other =
      if other = path then content else store.disk other := rfl

@[simp]
theorem files_unlink (setting : Setting) (path : Path) :
    (store.unlink setting path).files = store.files := by
  unfold unlink
  split <;> rfl

@[simp]
theorem getBlob_unlink (setting : Setting) (path : Path) (sha : Sha) :
    (store.unlink setting path).getBlob sha = store.getBlob sha := by
  unfold unlink
  split <;> rfl

theorem disk_unlink (setting : Setting) {path other : Path}
    (differ : other ≠ path) :
    (store.unlink setting path).disk other = store.disk other := by
  unfold unlink
  split
  · simp [disk_write, differ]
  · rfl

theorem disk_of_unlink {setting : Setting} {path other : Path} {bytes : Bytes}
    (present : (store.unlink setting path).disk other = some bytes) :
    store.disk other = some bytes := by
  unfold unlink at present
  split at present
  · rw [disk_write] at present
    split at present
    · cases present
    · exact present
  · exact present

@[simp]
theorem disk_upsertModelFile (row : FileRow) :
    (store.upsertModelFile row).disk = store.disk := rfl

variable {row : FileRow}

theorem mem_upsertModelFile {other : FileRow} :
    other ∈ (store.upsertModelFile row).files ↔
      (other ∈ store.files ∧ other.key ≠ row.key) ∨ other = row := by
  simp [upsertModelFile, mem_filter]

theorem mem_deleteRow {other : FileRow} :
    other ∈ (store.deleteRow row).files ↔
      other ∈ store.files ∧ other.key ≠ row.key := by
  simp [deleteRow, mem_filter]

/-! ## References -/

@[simp]
theorem refs_unlink (setting : Setting) (path : Path) (sha : Sha) :
    (store.unlink setting path).refs sha = store.refs sha := by
  simp [refs]

@[simp]
theorem refs_upsertModelFile (row : FileRow) (sha : Sha) :
    (store.upsertModelFile row).refs sha = store.refs sha := rfl

@[simp]
theorem refs_deleteRow (row : FileRow) (sha : Sha) :
    (store.deleteRow row).refs sha = store.refs sha := rfl

theorem refs_dropBlobRef (sha other : Sha) :
    (store.dropBlobRef sha).refs other =
      store.refs other - if other = sha then 1 else 0 := by
  unfold dropBlobRef
  split
  · next blob known =>
      by_cases same : other = sha
      · subst same
        simp [refs, getBlob_putBlob, known]
      · simp [refs, getBlob_putBlob, same]
  · next absent =>
      by_cases same : other = sha
      · subst same
        simp [refs, absent]
      · simp [same]

theorem refs_insertOrBump (sha other : Sha) (dest : Path) :
    (store.insertOrBump sha dest).refs other =
      store.refs other + if other = sha then 1 else 0 := by
  unfold insertOrBump
  split
  · next blob known =>
      by_cases same : other = sha
      · subst same
        simp [refs, getBlob_putBlob, known]
      · simp [refs, getBlob_putBlob, same]
  · next absent =>
      by_cases same : other = sha
      · subst same
        simp [refs, getBlob_putBlob, absent]
      · simp [refs, getBlob_putBlob, same]

@[simp]
theorem refs_setBlobPath (sha other : Sha) (path : Path) :
    (store.setBlobPath sha path).refs other = store.refs other := by
  unfold setBlobPath
  split
  · next blob known =>
      by_cases same : other = sha
      · subst same
        simp [refs, getBlob_putBlob, known]
      · simp [refs, getBlob_putBlob, same]
  · rfl

/-! ## Releases -/

/-- What repointing can do. -/
theorem repointSharedBlob_cases (sha : Sha) (deleted : Path)
    (excluded : ModelId) :
    store.repointSharedBlob sha deleted excluded = store ∨
    ∃ row ∈ store.files, row.sha256 = some sha ∧ row.modelId ≠ excluded ∧
      (store.disk row.dest).isSome ∧
      store.repointSharedBlob sha deleted excluded =
        store.setBlobPath sha row.dest := by
  unfold repointSharedBlob
  split
  · exact .inl rfl
  · split
    · exact .inl rfl
    · split
      · next row found =>
          right
          have listed := mem_of_find?_eq_some found
          have chosen := find?_some found
          rw [blobReferents, mem_mergeSort, mem_filter] at listed
          simp only [Bool.and_eq_true, decide_eq_true_eq] at listed chosen
          exact ⟨row, listed.1, listed.2.1, by simpa using listed.2.2,
            chosen.2, rfl⟩
      · exact .inl rfl

/-- What a release can do. -/
theorem releaseBlobRef_cases (setting : Setting) (modelId : ModelId)
    (keepBytes : Bool) (sha : Sha) (dest : Path) :
    (store.releaseBlobRef setting modelId keepBytes sha dest = store ∧
      store.getBlob sha = none) ∨
    (∃ blob, store.getBlob sha = some blob ∧ blob.refcount - 1 = 0 ∧
      ((keepBytes = true ∧
          store.releaseBlobRef setting modelId keepBytes sha dest =
            store.deleteBlob sha) ∨
        (keepBytes = false ∧
          store.releaseBlobRef setting modelId keepBytes sha dest =
            (store.dropBlobRef sha).unlink setting blob.blobPath))) ∨
    (∃ blob, store.getBlob sha = some blob ∧ blob.refcount - 1 ≠ 0 ∧
      store.releaseBlobRef setting modelId keepBytes sha dest =
        (store.dropBlobRef sha).repointSharedBlob sha dest modelId) := by
  unfold releaseBlobRef
  cases known : store.getBlob sha with
  | none => exact .inl ⟨rfl, rfl⟩
  | some blob =>
    right
    by_cases last : blob.refcount - 1 = 0
    · left
      refine ⟨blob, rfl, last, ?_⟩
      cases keepBytes with
      | true => exact .inl ⟨rfl, by simp [last]⟩
      | false => exact .inr ⟨rfl, by simp [last]⟩
    · right
      exact ⟨blob, rfl, last, by simp [last]⟩

@[simp]
theorem files_repointSharedBlob (sha : Sha) (deleted : Path)
    (excluded : ModelId) :
    (store.repointSharedBlob sha deleted excluded).files = store.files := by
  rcases store.repointSharedBlob_cases sha deleted excluded with
    same | ⟨row, -, -, -, -, moved⟩
  · rw [same]
  · rw [moved, files_setBlobPath]

@[simp]
theorem disk_repointSharedBlob (sha : Sha) (deleted : Path)
    (excluded : ModelId) :
    (store.repointSharedBlob sha deleted excluded).disk = store.disk := by
  rcases store.repointSharedBlob_cases sha deleted excluded with
    same | ⟨row, -, -, -, -, moved⟩
  · rw [same]
  · rw [moved, disk_setBlobPath]

@[simp]
theorem refs_repointSharedBlob (sha other : Sha) (deleted : Path)
    (excluded : ModelId) :
    (store.repointSharedBlob sha deleted excluded).refs other =
      store.refs other := by
  rcases store.repointSharedBlob_cases sha deleted excluded with
    same | ⟨row, -, -, -, -, moved⟩
  · rw [same]
  · rw [moved, refs_setBlobPath]

variable (setting : Setting) (modelId : ModelId) (keepBytes : Bool)

@[simp]
theorem files_releaseBlobRef (sha : Sha) (dest : Path) :
    (store.releaseBlobRef setting modelId keepBytes sha dest).files =
      store.files := by
  rcases store.releaseBlobRef_cases setting modelId keepBytes sha dest with
    ⟨same, -⟩ | ⟨blob, -, -, ⟨-, deleted⟩ | ⟨-, unlinked⟩⟩ |
    ⟨blob, -, -, moved⟩
  · rw [same]
  · rw [deleted, files_deleteBlob]
  · rw [unlinked, files_unlink, files_dropBlobRef]
  · rw [moved, files_repointSharedBlob, files_dropBlobRef]

/-- One reference less. -/
theorem refs_releaseBlobRef (sha other : Sha) (dest : Path) :
    (store.releaseBlobRef setting modelId keepBytes sha dest).refs other =
      store.refs other - if other = sha then 1 else 0 := by
  rcases store.releaseBlobRef_cases setting modelId keepBytes sha dest with
    ⟨same, absent⟩ | ⟨blob, known, last, ⟨-, deleted⟩ | ⟨-, unlinked⟩⟩ |
    ⟨blob, known, -, moved⟩
  · rw [same]
    by_cases isSha : other = sha
    · subst isSha
      simp [refs, absent]
    · simp [isSha]
  · rw [deleted]
    by_cases isSha : other = sha
    · subst isSha
      simp [refs, getBlob_deleteBlob, known, last]
    · simp [refs, getBlob_deleteBlob, isSha]
  · rw [unlinked, refs_unlink, refs_dropBlobRef]
  · rw [moved, refs_repointSharedBlob, refs_dropBlobRef]

/-! ## Rows with a key -/

/-- No two rows have one key. -/
def Keyed (files : List FileRow) : Prop := (files.map FileRow.key).Nodup

theorem Keyed.eq_of_key {files : List FileRow} (keyed : Keyed files)
    {left right : FileRow} (isLeft : left ∈ files) (isRight : right ∈ files)
    (same : left.key = right.key) : left = right :=
  inj_on_of_nodup_map keyed isLeft isRight same

theorem Keyed.filter {files : List FileRow} (keyed : Keyed files)
    (keep : FileRow → Bool) : Keyed (files.filter keep) :=
  keyed.sublist (List.Sublist.map _ filter_sublist)

theorem keyed_upsertModelFile {store : Store} (keyed : Keyed store.files)
    (row : FileRow) : Keyed (store.upsertModelFile row).files := by
  have others := Keyed.filter keyed fun old => old.key ≠ row.key
  unfold Keyed upsertModelFile
  rw [map_append, nodup_append]
  refine ⟨others, by simp, ?_⟩
  intro first isFirst second isSecond same
  obtain ⟨old, listed, rfl⟩ := mem_map.mp isFirst
  obtain rfl : second = row.key := by simpa using isSecond
  simp [same] at listed

/-- How many rows of the key hold it. -/
def heldAt (key : ModelId × String) (sha : Sha) : Nat :=
  store.files.countP fun row => row.key = key && row.digest = sha

theorem held_eq_filter_add (key : ModelId × String) (sha : Sha) :
    store.held sha =
      (store.files.filter fun row => row.key ≠ key).countP
          (fun row => row.digest = sha) + store.heldAt key sha := by
  unfold held heldAt
  rw [countP_eq_countP_filter_add store.files
    (fun row => decide (row.digest = sha)) (fun row => decide (row.key ≠ key))]
  congr 1
  rw [countP_filter]
  refine countP_congr fun row _ => ?_
  simp [and_comm]

theorem held_upsertModelFile (row : FileRow) (sha : Sha) :
    (store.upsertModelFile row).held sha + store.heldAt row.key sha =
      store.held sha + if row.digest = sha then 1 else 0 := by
  rw [store.held_eq_filter_add row.key sha]
  unfold held upsertModelFile
  rw [countP_append]
  by_cases same : row.digest = sha
  · simp [same]
    omega
  · simp [same]

theorem held_deleteRow (row : FileRow) (sha : Sha) :
    (store.deleteRow row).held sha + store.heldAt row.key sha =
      store.held sha :=
  (store.held_eq_filter_add row.key sha).symm

theorem heldAt_of_mem {store : Store} (keyed : Keyed store.files)
    (listed : row ∈ store.files) (sha : Sha) :
    store.heldAt row.key sha = if row.digest = sha then 1 else 0 := by
  unfold heldAt
  have single : store.files.filter (fun other => other.key = row.key) =
      [row] := by
    have some : row ∈ store.files.filter fun other => other.key = row.key :=
      mem_filter.mpr ⟨listed, by simp⟩
    have nodup := (Keyed.filter keyed fun other => other.key = row.key)
    cases found : store.files.filter (fun other => other.key = row.key) with
    | nil => simp [found] at some
    | cons first rest =>
      have all : ∀ other ∈ first :: rest, other = row := by
        intro other isOther
        rw [← found] at isOther
        obtain ⟨isRow, sameKey⟩ := mem_filter.mp isOther
        exact keyed.eq_of_key isRow listed (by simpa using sameKey)
      obtain rfl := all first mem_cons_self
      cases rest with
      | nil => rfl
      | cons second later =>
        obtain rfl := all second (by simp)
        rw [found] at nodup
        simp [Keyed] at nodup
  have split := countP_filter (l := store.files)
    (p := fun other => decide (other.digest = sha))
    (q := fun other => decide (other.key = row.key))
  rw [single] at split
  by_cases same : row.digest = sha
  · simpa [same, Bool.and_comm] using split.symm
  · simpa [same, Bool.and_comm] using split.symm

theorem heldAt_of_no_row {store : Store} {key : ModelId × String}
    (absent : ∀ row ∈ store.files, row.key ≠ key) (sha : Sha) :
    store.heldAt key sha = 0 := by
  unfold heldAt
  rw [countP_eq_zero]
  intro row listed
  simp [absent row listed]

/-! ## Accounts -/

/-- The references are those of the rows, and `extra` ones. -/
def Accounted (store : Store) (extra : Sha → Nat) : Prop :=
  ∀ sha, store.refs sha = store.held sha + extra sha

/-- A named digest is the file's. -/
def Sound (file : Installed) : Prop :=
  ∀ sha, file.sha256 = some sha → sha = file.digest

/-- The row names the digest of its file. -/
def Tracks (file : Installed) : Prop := file.sha256 = some file.digest

variable {file : Installed}

theorem Tracks.sound (tracks : Tracks file) : Sound file := by
  intro sha same
  rw [Tracks, same] at tracks
  exact some.inj tracks

/-- The row that a file replaces. -/
def priorRow (prior : List FileRow) (file : Installed) : Option FileRow :=
  prior.find? fun row => row.rel = file.rel

/-- The row is the only one of the store with the key of the file. -/
def Finds (store : Store) (modelId : ModelId) (rel : String) :
    Option FileRow → Prop
  | some row => row ∈ store.files ∧ row.key = (modelId, rel)
  | none => ∀ row ∈ store.files, row.key ≠ (modelId, rel)

/-- 1 for a row of the content which records no hash. -/
def untracked (found : Option FileRow) (sha : Sha) : Nat :=
  match found with
  | some row => if row.sha256 = none ∧ row.digest = sha then 1 else 0
  | none => 0

/-- 1 for a row of the content. -/
def ofContent (found : Option FileRow) (sha : Sha) : Nat :=
  match found with
  | some row => if row.digest = sha then 1 else 0
  | none => 0

variable {found : Option FileRow}

theorem heldAt_of_finds {store : Store} (keyed : Keyed store.files)
    {modelId : ModelId} {rel : String} (finds : Finds store modelId rel found)
    (sha : Sha) :
    store.heldAt (modelId, rel) sha = ofContent found sha := by
  cases found with
  | some row =>
    obtain ⟨listed, key⟩ := finds
    rw [← key]
    exact heldAt_of_mem keyed listed sha
  | none => exact heldAt_of_no_row finds sha

theorem files_registerOne (prior : List FileRow) (modelId : ModelId)
    (file : Installed) :
    (store.registerOne prior modelId file).files =
      (store.upsertModelFile (file.row modelId)).files := by
  unfold registerOne upsertModelFile
  dsimp only
  congr 2
  · split
    · split
      · split
        · split <;> simp
        · rfl
      · rfl
    · split <;> split <;> simp

/-- The row takes one reference. -/
theorem refs_registerOne (prior : List FileRow) (modelId : ModelId)
    (tracks : Tracks file) (sha : Sha) :
    (store.registerOne prior modelId file).refs sha =
      if (priorRow prior file).bind (fun row => row.sha256) =
          some file.digest then
        store.refs sha
      else
        (store.refs sha -
          if (priorRow prior file).bind (fun row => row.sha256) = some sha
            then 1 else 0) +
          if file.digest = sha then 1 else 0 := by
  unfold registerOne priorRow
  dsimp only
  rw [refs_upsertModelFile, show file.sha256 = some file.digest from tracks]
  split
  · dsimp only
    split
    · split <;> simp
    · rfl
  · dsimp only
    rw [refs_insertOrBump]
    have flip : (if sha = file.digest then 1 else 0) =
        if file.digest = sha then 1 else 0 := by
      simp only [eq_comm]
    rw [flip]
    cases (prior.find? fun row => decide (row.rel = file.rel)).bind
        fun row => row.sha256 with
    | none => simp
    | some old =>
      dsimp only
      rw [refs_dropBlobRef]
      simp only [some.injEq, eq_comm]

variable {extra : Sha → Nat} {prior : List FileRow}

/-- The counts agree after it. -/
theorem accounted_registerOne {store : Store}
    (accounted : Accounted store extra) (keyed : Keyed store.files)
    (sound : ∀ row ∈ store.files, Sound row.toInstalled) {modelId : ModelId}
    (tracks : Tracks file)
    (finds : Finds store modelId file.rel (priorRow prior file)) :
    Accounted (store.registerOne prior modelId file)
      (fun sha => extra sha + untracked (priorRow prior file) sha) := by
  intro sha
  have before := accounted sha
  have rows := store.held_upsertModelFile (file.row modelId) sha
  have files := store.files_registerOne prior modelId file
  have held : (store.registerOne prior modelId file).held sha =
      (store.upsertModelFile (file.row modelId)).held sha := by
    rw [held, held, files]
  have key : (file.row modelId).key = (modelId, file.rel) := rfl
  have digest : (file.row modelId).digest = file.digest := rfl
  have atKey := heldAt_of_finds keyed finds sha
  rw [key, digest, atKey] at rows
  rw [held, refs_registerOne store prior modelId tracks]
  cases found : priorRow prior file with
  | none =>
    rw [found] at rows
    simp only [untracked, bind_none, reduceCtorEq, if_false]
    simp only [ofContent] at rows
    omega
  | some row =>
    rw [found] at rows finds
    have rowSound := sound row finds.1
    have atLeast : (if row.digest = sha then 1 else 0) ≤ store.held sha := by
      have part := store.held_eq_filter_add row.key sha
      rw [heldAt_of_mem keyed finds.1 sha] at part
      omega
    simp only [ofContent] at rows
    cases recorded : row.sha256 with
    | none =>
      simp only [untracked, bind_some, recorded, reduceCtorEq,
        if_false, true_and]
      omega
    | some old =>
      obtain rfl : old = row.digest := rowSound old recorded
      simp only [untracked, bind_some, recorded, reduceCtorEq,
        if_false, false_and, some.injEq]
      by_cases same : row.digest = file.digest
      · rw [if_pos same]
        rw [same] at rows
        omega
      · rw [if_neg same]
        omega

/-- A store whose counts are known. -/
structure Kept (store : Store) (extra : Sha → Nat) : Prop where
  keyed : Keyed store.files
  sound : ∀ row ∈ store.files, Sound row.toInstalled
  accounted : Accounted store extra

/-- Every row names its digest. -/
def AllTracked (store : Store) : Prop :=
  ∀ row ∈ store.files, Tracks row.toInstalled

theorem untracked_eq_zero {store : Store} (tracked : AllTracked store)
    {modelId : ModelId} {rel : String} (finds : Finds store modelId rel found)
    (sha : Sha) :
    untracked found sha = 0 := by
  cases found with
  | none => rfl
  | some row =>
    have records : row.sha256 = some row.digest := tracked row finds.1
    simp [untracked, records]

/-! ## Registering the files of a plain pull -/

theorem mem_registerOne {store : Store} {modelId : ModelId} :
    row ∈ (store.registerOne prior modelId file).files ↔
      (row ∈ store.files ∧ row.key ≠ (modelId, file.rel)) ∨
        row = file.row modelId := by
  rw [files_registerOne]
  exact store.mem_upsertModelFile

theorem kept_registerOne {store : Store} (kept : Kept store extra)
    {modelId : ModelId} (tracks : Tracks file)
    (finds : Finds store modelId file.rel (priorRow prior file)) :
    Kept (store.registerOne prior modelId file)
      (fun sha => extra sha + untracked (priorRow prior file) sha) where
  keyed := by
    rw [files_registerOne]
    exact keyed_upsertModelFile kept.keyed _
  sound := by
    intro row listed
    rcases mem_registerOne.mp listed with ⟨old, -⟩ | rfl
    · exact kept.sound row old
    · exact tracks.sound
  accounted := accounted_registerOne kept.accounted kept.keyed kept.sound
    tracks finds

theorem finds_registerOne {store : Store} {modelId : ModelId} {rel : String}
    (other : rel ≠ file.rel) (finds : Finds store modelId rel found) :
    Finds (store.registerOne prior modelId file) modelId rel found := by
  have differ : (modelId, rel) ≠ (modelId, file.rel) := by
    simpa using other
  cases found with
  | some row =>
    refine ⟨mem_registerOne.mpr (.inl ⟨finds.1, ?_⟩), finds.2⟩
    rw [finds.2]
    exact differ
  | none =>
    intro row listed
    rcases mem_registerOne.mp listed with ⟨old, -⟩ | rfl
    · exact finds row old
    · exact Ne.symm differ

theorem finds_listModelFiles {store : Store} (modelId : ModelId)
    (file : Installed) :
    Finds store modelId file.rel
      (priorRow (store.listModelFiles modelId) file) := by
  unfold priorRow
  cases found : (store.listModelFiles modelId).find?
      fun row => decide (row.rel = file.rel) with
  | some row =>
    have listed := mem_of_find?_eq_some found
    have sameRel := find?_some found
    rw [listModelFiles, mem_mergeSort, mem_filter] at listed
    simp only [decide_eq_true_eq] at sameRel listed
    exact ⟨listed.1, Prod.ext listed.2 sameRel⟩
  | none =>
    intro row listed same
    have absent := find?_eq_none.mp found row (by
      rw [listModelFiles, mem_mergeSort, mem_filter]
      exact ⟨listed, decide_eq_true (congrArg Prod.fst same)⟩)
    simp only [decide_eq_true_eq] at absent
    exact absent (congrArg Prod.snd same)

/-- The files of a pull, registered one after the other. -/
def registerAll (store : Store) (prior : List FileRow) (modelId : ModelId)
    (installed : List Installed) : Store :=
  installed.foldl
    (fun current file => current.registerOne prior modelId file) store

theorem files_registerAll {modelId : ModelId} :
    ∀ {installed : List Installed} {store other : Store},
      store.files = other.files →
      (store.registerAll prior modelId installed).files =
        (other.registerPulledFileset modelId installed).files
  | [], _, _, same => same
  | file :: rest, store, other, same => by
      have once : (store.registerOne prior modelId file).files =
          (other.upsertModelFile (file.row modelId)).files := by
        simp only [files_registerOne, upsertModelFile, same]
      change ((store.registerOne prior modelId file).registerAll prior modelId
        rest).files = ((other.upsertModelFile (file.row
          modelId)).registerPulledFileset modelId rest).files
      exact files_registerAll once

theorem of_mem_registerPulledFileset {modelId : ModelId} :
    ∀ {installed : List Installed} {store : Store},
      row ∈ (store.registerPulledFileset modelId installed).files →
      (row ∈ store.files ∧
        ∀ file ∈ installed, row.key ≠ (modelId, file.rel)) ∨
      ∃ file ∈ installed, row = file.row modelId
  | [], store, listed => .inl ⟨listed, by simp⟩
  | file :: rest, store, listed => by
      have after : row ∈ ((store.upsertModelFile (file.row
        modelId)).registerPulledFileset modelId rest).files := listed
      rcases of_mem_registerPulledFileset after with
        ⟨once, notRest⟩ | ⟨other, isRest, same⟩
      · rcases store.mem_upsertModelFile.mp once with ⟨old, notFile⟩ | same
        · refine .inl ⟨old, ?_⟩
          intro other isOther
          rcases mem_cons.mp isOther with rfl | isRest
          · exact notFile
          · exact notRest other isRest
        · exact .inr ⟨file, mem_cons_self, same⟩
      · exact .inr ⟨other, mem_cons_of_mem _ isRest, same⟩

theorem mem_registerPulledFileset {modelId : ModelId} :
    ∀ {installed : List Installed} {store : Store},
      (installed.map Installed.rel).Nodup →
      (row ∈ (store.registerPulledFileset modelId installed).files ↔
        (row ∈ store.files ∧
          ∀ file ∈ installed, row.key ≠ (modelId, file.rel)) ∨
        ∃ file ∈ installed, row = file.row modelId)
  | [], store, _ => by simp [registerPulledFileset]
  | file :: rest, store, distinct => by
      refine ⟨of_mem_registerPulledFileset, ?_⟩
      obtain ⟨fresh, restDistinct⟩ := nodup_cons.mp distinct
      have freshKey : ∀ other ∈ rest,
          (file.row modelId).key ≠ (modelId, other.rel) := by
        intro other listed same
        exact fresh (mem_map.mpr
          ⟨other, listed, (congrArg Prod.snd same).symm⟩)
      change _ → row ∈ ((store.upsertModelFile (file.row
        modelId)).registerPulledFileset modelId rest).files
      rw [mem_registerPulledFileset restDistinct, mem_upsertModelFile]
      rintro (⟨old, notAny⟩ | ⟨other, listed, rfl⟩)
      · exact .inl ⟨.inl ⟨old, notAny file mem_cons_self⟩,
          fun other isRest => notAny other (mem_cons_of_mem _ isRest)⟩
      · rcases mem_cons.mp listed with rfl | isRest
        · exact .inl ⟨.inr rfl, freshKey⟩
        · exact .inr ⟨other, isRest, rfl⟩

variable {installed : List Installed}

theorem of_mem_registerAll {modelId : ModelId} {store : Store}
    (listed : row ∈ (store.registerAll prior modelId installed).files) :
    (row ∈ store.files ∧
        ∀ file ∈ installed, row.key ≠ (modelId, file.rel)) ∨
      ∃ file ∈ installed, row = file.row modelId := by
  have same : (store.registerAll prior modelId installed).files =
      (store.registerPulledFileset modelId installed).files :=
    files_registerAll rfl
  rw [same] at listed
  exact of_mem_registerPulledFileset listed

theorem mem_registerAll {modelId : ModelId} {store : Store}
    (distinct : (installed.map Installed.rel).Nodup) :
    row ∈ (store.registerAll prior modelId installed).files ↔
      (row ∈ store.files ∧
        ∀ file ∈ installed, row.key ≠ (modelId, file.rel)) ∨
      ∃ file ∈ installed, row = file.row modelId := by
  have same : (store.registerAll prior modelId installed).files =
      (store.registerPulledFileset modelId installed).files :=
    files_registerAll rfl
  rw [same]
  exact mem_registerPulledFileset distinct

theorem kept_registerAll {modelId : ModelId} :
    ∀ {installed : List Installed} {store : Store} {extra : Sha → Nat},
      Kept store extra → (installed.map Installed.rel).Nodup →
      (∀ file ∈ installed, Tracks file ∧
        Finds store modelId file.rel (priorRow prior file)) →
      ∃ later, Kept (store.registerAll prior modelId installed) later ∧
        (∀ sha, extra sha ≤ later sha) ∧
        (AllTracked store → later = extra ∧
          AllTracked (store.registerAll prior modelId installed))
  | [], store, extra, kept, _, _ =>
    ⟨extra, kept, fun _ => Nat.le_refl _, fun tracked => ⟨rfl, tracked⟩⟩
  | file :: rest, store, extra, kept, distinct, known => by
      obtain ⟨fresh, restDistinct⟩ := nodup_cons.mp distinct
      obtain ⟨tracks, finds⟩ := known file mem_cons_self
      have once := kept_registerOne kept tracks finds
      obtain ⟨later, keptLater, atLeast, exact⟩ :=
        kept_registerAll once restDistinct (fun other listed => by
          obtain ⟨otherTracks, otherFinds⟩ :=
            known other (mem_cons_of_mem _ listed)
          refine ⟨otherTracks, finds_registerOne ?_ otherFinds⟩
          intro same
          exact fresh (mem_map.mpr ⟨other, listed, same⟩))
      refine ⟨later, keptLater, ?_, ?_⟩
      · intro sha
        have more := atLeast sha
        omega
      · intro tracked
        have onceTracked : AllTracked
            (store.registerOne prior modelId file) := by
          intro row listed
          rcases mem_registerOne.mp listed with ⟨old, -⟩ | rfl
          · exact tracked row old
          · exact tracks
        obtain ⟨same, allTracked⟩ := exact onceTracked
        refine ⟨?_, allTracked⟩
        rw [same]
        funext sha
        rw [untracked_eq_zero tracked finds, Nat.add_zero]

/-- A content which no file of a pull has loses the references of the rows
which the files replace. -/
theorem refs_registerAll_of_absent {modelId : ModelId} {sha : Sha} :
    ∀ {installed : List Installed} {store : Store},
      (∀ file ∈ installed, Tracks file ∧ file.digest ≠ sha) →
      (store.registerAll prior modelId installed).refs sha =
        store.refs sha - installed.countP fun file =>
          (priorRow prior file).bind (fun row => row.sha256) = some sha
  | [], _, _ => rfl
  | file :: rest, store, each => by
      obtain ⟨tracks, differs⟩ := each file mem_cons_self
      have once := store.refs_registerOne prior modelId tracks sha
      have later : ((store.registerOne prior modelId file).registerAll prior
          modelId rest).refs sha = _ :=
        refs_registerAll_of_absent fun other listed =>
          each other (mem_cons_of_mem _ listed)
      refine later.trans ?_
      rw [once, countP_cons]
      split
      · next same =>
          rw [same]
          simp [differs]
      · simp only [decide_eq_true_eq]
        omega

/-! ## Forgetting superseded rows -/

/-- A superseded row is forgotten, its reference released, and its path
unlinked unless it is reused. -/
theorem dropSuperseded_cases (setting : Setting) (modelId : ModelId)
    (installed : List Installed) (row : FileRow) :
    ∃ released : Store,
      store.dropSuperseded setting modelId installed row =
        (if reused installed row then released
          else released.unlink setting row.dest) ∧
      ((row.sha256 = none ∧ released = store.deleteRow row) ∨
        ∃ sha, row.sha256 = some sha ∧
          released = (store.deleteRow row).releaseBlobRef setting modelId
            (reused installed row) sha row.dest) := by
  refine ⟨_, rfl, ?_⟩
  cases recorded : row.sha256 with
  | none => exact .inl ⟨rfl, rfl⟩
  | some sha => exact .inr ⟨sha, rfl, rfl⟩

theorem files_dropSuperseded (setting : Setting) (modelId : ModelId)
    (installed : List Installed) (row : FileRow) :
    (store.dropSuperseded setting modelId installed row).files =
      (store.deleteRow row).files := by
  obtain ⟨released, dropped, ⟨-, rfl⟩ | ⟨sha, -, rfl⟩⟩ :=
    store.dropSuperseded_cases setting modelId installed row
  · rw [dropped]
    split <;> simp
  · rw [dropped]
    split <;> simp

theorem refs_dropSuperseded (setting : Setting) (modelId : ModelId)
    (installed : List Installed) (row : FileRow) (sha : Sha) :
    (store.dropSuperseded setting modelId installed row).refs sha =
      store.refs sha - if row.sha256 = some sha then 1 else 0 := by
  obtain ⟨released, dropped, ⟨missing, rfl⟩ | ⟨old, recorded, rfl⟩⟩ :=
    store.dropSuperseded_cases setting modelId installed row
  · rw [dropped, missing]
    split <;> simp
  · rw [dropped, recorded]
    split <;> simp [refs_releaseBlobRef, eq_comm]

/-- Dropping an old file does. -/
theorem kept_dropSuperseded {store : Store} (kept : Kept store extra)
    (setting : Setting) (modelId : ModelId) (installed : List Installed)
    (listed : row ∈ store.files) :
    Kept (store.dropSuperseded setting modelId installed row)
      (fun sha => extra sha + untracked (some row) sha) := by
  have files := store.files_dropSuperseded setting modelId installed row
  refine ⟨?_, ?_, ?_⟩
  · rw [files]
    exact kept.keyed.filter _
  · intro other isOther
    rw [files] at isOther
    exact kept.sound other (store.mem_deleteRow.mp isOther).1
  · intro sha
    have before := kept.accounted sha
    have rows := store.held_deleteRow row sha
    rw [heldAt_of_mem kept.keyed listed] at rows
    have held : (store.dropSuperseded setting modelId installed row).held sha =
        (store.deleteRow row).held sha := by
      rw [held, held, files]
    rw [held, refs_dropSuperseded]
    cases recorded : row.sha256 with
    | none =>
      simp only [untracked, recorded, reduceCtorEq, if_false, true_and]
      omega
    | some old =>
      obtain rfl : old = row.digest := kept.sound row listed old recorded
      simp only [untracked, recorded, reduceCtorEq, if_false, false_and,
        some.injEq]
      omega

/-- The superseded rows, forgotten one after the other. -/
def dropAll (store : Store) (setting : Setting) (modelId : ModelId)
    (installed : List Installed) (rows : List FileRow) : Store :=
  rows.foldl
    (fun current row => current.dropSuperseded setting modelId installed row)
    store

theorem mem_dropAll {setting : Setting} {modelId : ModelId} :
    ∀ {rows : List FileRow} {store : Store},
      row ∈ (store.dropAll setting modelId installed rows).files ↔
        row ∈ store.files ∧ ∀ gone ∈ rows, row.key ≠ gone.key
  | [], store => by simp [dropAll]
  | first :: rest, store => by
      change row ∈ ((store.dropSuperseded setting modelId installed
        first).dropAll setting modelId installed rest).files ↔ _
      rw [mem_dropAll, files_dropSuperseded, mem_deleteRow]
      simp [and_assoc]

theorem kept_dropAll (setting : Setting) (modelId : ModelId)
    (installed : List Installed) :
    ∀ {rows : List FileRow} {store : Store} {extra : Sha → Nat},
      Kept store extra → (rows.map FileRow.key).Nodup →
      (∀ row ∈ rows, row ∈ store.files) →
      ∃ later, Kept (store.dropAll setting modelId installed rows) later ∧
        (∀ sha, extra sha ≤ later sha) ∧
        (AllTracked store → later = extra)
  | [], store, extra, kept, _, _ =>
    ⟨extra, kept, fun _ => Nat.le_refl _, fun _ => rfl⟩
  | first :: rest, store, extra, kept, distinct, listed => by
      obtain ⟨fresh, restDistinct⟩ := nodup_cons.mp distinct
      have isFirst := listed first mem_cons_self
      have once := kept_dropSuperseded kept setting modelId installed isFirst
      have files := store.files_dropSuperseded setting modelId installed first
      obtain ⟨later, keptLater, atLeast, exact⟩ :=
        kept_dropAll setting modelId installed once restDistinct (by
          intro row isRest
          rw [files, mem_deleteRow]
          refine ⟨listed row (mem_cons_of_mem _ isRest), ?_⟩
          intro same
          exact fresh (same ▸ mem_map_of_mem isRest))
      refine ⟨later, keptLater, ?_, ?_⟩
      · intro sha
        have more := atLeast sha
        omega
      · intro tracked
        rw [exact fun row isRow => tracked row (by
          rw [files] at isRow
          exact (store.mem_deleteRow.mp isRow).1)]
        funext sha
        have records : first.sha256 = some first.digest :=
          tracked first isFirst
        simp [untracked, records]

theorem mem_listModelFiles {modelId : ModelId} :
    row ∈ store.listModelFiles modelId ↔
      row ∈ store.files ∧ row.modelId = modelId := by
  rw [listModelFiles, mem_mergeSort, mem_filter]
  simp

theorem keyed_listModelFiles {store : Store} (keyed : Keyed store.files)
    (modelId : ModelId) :
    ((store.listModelFiles modelId).map FileRow.key).Nodup := by
  have perm := mergeSort_perm
    (store.files.filter fun row => row.modelId = modelId) listedBefore
  exact ((perm.map FileRow.key).nodup_iff).mpr (keyed.filter _)

theorem mem_superseded :
    row ∈ superseded prior installed ↔
      row ∈ prior ∧ (∀ file ∈ installed, file.rel ≠ row.rel) ∧
        (row.role = .model ∨ row.role = .shard) := by
  simp [superseded, mem_filter]

theorem registerInstalledFiles_eq (setting : Setting) (modelId : ModelId)
    (installed : List Installed) :
    store.registerInstalledFiles setting modelId installed =
      (store.registerAll (store.listModelFiles modelId) modelId
        installed).dropAll setting modelId installed
          (superseded (store.listModelFiles modelId) installed) := rfl

theorem superseded_mem_registerAll {store : Store} {modelId : ModelId}
    (distinct : (installed.map Installed.rel).Nodup)
    (listed : row ∈ superseded (store.listModelFiles modelId) installed) :
    row ∈ (store.registerAll (store.listModelFiles modelId) modelId
      installed).files := by
  obtain ⟨isPrior, otherRel, -⟩ := mem_superseded.mp listed
  obtain ⟨isRow, -⟩ := store.mem_listModelFiles.mp isPrior
  refine (mem_registerAll distinct).mpr (.inl ⟨isRow, ?_⟩)
  intro file isFile same
  exact otherRel file isFile (congrArg Prod.snd same).symm

/-- A plain pull keeps the counts. -/
theorem kept_registerInstalledFiles {store : Store} (kept : Kept store extra)
    (setting : Setting) {modelId : ModelId}
    (distinct : (installed.map Installed.rel).Nodup)
    (tracks : ∀ file ∈ installed, Tracks file) :
    ∃ later,
      Kept (store.registerInstalledFiles setting modelId installed) later ∧
      (∀ sha, extra sha ≤ later sha) ∧
      (AllTracked store → later = extra ∧
        AllTracked (store.registerInstalledFiles setting modelId
          installed)) := by
  rw [registerInstalledFiles_eq]
  obtain ⟨middle, keptMiddle, atLeast, exact⟩ :=
    kept_registerAll kept distinct fun file listed =>
      ⟨tracks file listed, finds_listModelFiles modelId file⟩
  obtain ⟨later, keptLater, more, exactly⟩ :=
    kept_dropAll setting modelId installed keptMiddle
      ((keyed_listModelFiles kept.keyed modelId).sublist
        (List.Sublist.map _ filter_sublist))
      (fun row listed => superseded_mem_registerAll distinct listed)
  refine ⟨later, keptLater, fun sha =>
    Nat.le_trans (atLeast sha) (more sha), ?_⟩
  intro tracked
  obtain ⟨same, middleTracked⟩ := exact tracked
  refine ⟨(exactly middleTracked).trans same, ?_⟩
  intro row listed
  exact middleTracked row (mem_dropAll.mp listed).1

/-! ## Registering the files of a file set -/

theorem kept_upsertModelFile {store : Store} (kept : Kept store extra)
    {modelId : ModelId} (sound : Sound file)
    (taken : ∀ sha, (if file.digest = sha then 1 else 0) ≤ extra sha) :
    Kept (store.upsertModelFile (file.row modelId)) (fun sha =>
      extra sha - (if file.digest = sha then 1 else 0) +
        store.heldAt (modelId, file.rel) sha) where
  keyed := keyed_upsertModelFile kept.keyed _
  sound := by
    intro row listed
    rcases store.mem_upsertModelFile.mp listed with ⟨old, -⟩ | rfl
    · exact kept.sound row old
    · exact sound
  accounted := by
    intro sha
    have before := kept.accounted sha
    have rows := store.held_upsertModelFile (file.row modelId) sha
    have key : (file.row modelId).key = (modelId, file.rel) := rfl
    have digest : (file.row modelId).digest = file.digest := rfl
    have enough := taken sha
    rw [key, digest] at rows
    rw [refs_upsertModelFile]
    beta_reduce
    omega

/-- A fileset does. -/
theorem kept_registerPulledFileset {modelId : ModelId} :
    ∀ {installed : List Installed} {store : Store} {extra : Sha → Nat},
      Kept store extra → (installed.map Installed.rel).Nodup →
      (∀ file ∈ installed, Sound file) →
      (∀ sha, (installed.countP fun file => file.digest = sha) ≤ extra sha) →
      ∃ later,
        Kept (store.registerPulledFileset modelId installed) later ∧
        (∀ sha, extra sha ≤ later sha +
          installed.countP fun file => file.digest = sha) ∧
        ((∀ file ∈ installed, ∀ row ∈ store.files,
            row.key ≠ (modelId, file.rel)) →
          ∀ sha, later sha +
            (installed.countP fun file => file.digest = sha) = extra sha)
  | [], store, extra, kept, _, _, _ =>
    ⟨extra, kept, fun _ => Nat.le_refl _, fun _ _ => rfl⟩
  | file :: rest, store, extra, kept, distinct, sound, taken => by
      obtain ⟨fresh, restDistinct⟩ := nodup_cons.mp distinct
      have counts : ∀ sha, (file :: rest).countP
            (fun other => decide (other.digest = sha)) =
          rest.countP (fun other => decide (other.digest = sha)) +
            if file.digest = sha then 1 else 0 := by
        intro sha
        simp [countP_cons]
      have once : Kept (store.upsertModelFile (file.row modelId)) _ :=
        kept_upsertModelFile kept (sound file mem_cons_self)
          (fun sha => by
            have enough := taken sha
            rw [counts] at enough
            omega)
      obtain ⟨later, keptLater, atLeast, exact⟩ := kept_registerPulledFileset
        once restDistinct
        (fun other listed => sound other (mem_cons_of_mem _ listed))
        (fun sha => by
          have enough := taken sha
          rw [counts] at enough
          omega)
      refine ⟨later, keptLater, ?_, ?_⟩
      · intro sha
        have more := atLeast sha
        have enough := taken sha
        rw [counts] at enough ⊢
        omega
      · intro absent sha
        have noRow : store.heldAt (modelId, file.rel) sha = 0 :=
          heldAt_of_no_row (absent file mem_cons_self) sha
        have same := exact (by
          intro other listed row isRow
          rcases store.mem_upsertModelFile.mp isRow with ⟨old, -⟩ | rfl
          · exact absent other (mem_cons_of_mem _ listed) row old
          · intro same
            exact fresh (mem_map.mpr
              ⟨other, listed, (congrArg Prod.snd same).symm⟩)) sha
        have enough := taken sha
        rw [counts] at enough ⊢
        rw [noRow] at same
        omega

end Store

end Hal0.Registry.ModelStore
