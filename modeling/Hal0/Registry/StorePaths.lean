import Hal0.Registry.StoreDeletes

/-!
# The paths of the blobs

A blob keeps the path at which its content was first installed.  It gets
another path when its content is registered again after the file is gone, and
when a release moves it to a file of another model.  What is unlinked is the
path of a blob without references, and the paths of rows that are forgotten.
-/

namespace Hal0.Registry.ModelStore

namespace Store

/-- Where a blob is. -/
def pathOf (store : Store) (sha : Sha) : Option Path :=
  (store.getBlob sha).map Blob.blobPath

/-- A row of another model has the content at the path. -/
def Referent (store : Store) (modelId : ModelId) (sha : Sha) (path : Path) :
    Prop :=
  ∃ row ∈ store.files, row.sha256 = some sha ∧ row.modelId ≠ modelId ∧
    row.dest = path

variable {sha : Sha} {path : Path}

theorem entry_of_pathOf {store : Store}
    (found : store.pathOf sha = some path) :
    ∃ entry ∈ store.blobs.entries, entry.1 = sha ∧ entry.2.blobPath = path := by
  obtain ⟨blob, known, isPath⟩ := Option.map_eq_some_iff.mp found
  exact ⟨⟨sha, blob⟩, AList.mem_lookup_iff.mp known, rfl, isPath⟩

variable (store : Store)

/-! ## Transactions -/

theorem pathOf_putBlob (sha other : Sha) (blob : Blob) :
    (store.putBlob sha blob).pathOf other =
      if other = sha then some blob.blobPath else store.pathOf other := by
  unfold pathOf
  rw [getBlob_putBlob]
  split <;> rfl

theorem pathOf_bumped (store : Store) {blob : Blob}
    (known : store.getBlob sha = some blob) (refcount : Nat) (other : Sha) :
    (store.putBlob sha { blob with refcount := refcount }).pathOf other =
      store.pathOf other := by
  rw [pathOf_putBlob]
  split
  · next same => simp [same, pathOf, known]
  · rfl

theorem pathOf_deleteBlob (sha other : Sha) :
    (store.deleteBlob sha).pathOf other =
      if other = sha then none else store.pathOf other := by
  unfold pathOf
  rw [getBlob_deleteBlob]
  split <;> rfl

@[simp]
theorem pathOf_unlink (setting : Setting) (path : Path) (sha : Sha) :
    (store.unlink setting path).pathOf sha = store.pathOf sha := by
  simp [pathOf]

@[simp]
theorem pathOf_upsertModelFile (row : FileRow) (sha : Sha) :
    (store.upsertModelFile row).pathOf sha = store.pathOf sha := rfl

@[simp]
theorem pathOf_dropBlobRef (sha other : Sha) :
    (store.dropBlobRef sha).pathOf other = store.pathOf other := by
  unfold dropBlobRef
  split
  · next blob known =>
      rw [pathOf_putBlob]
      split
      · next same => simp [same, pathOf, known]
      · rfl
  · rfl

theorem pathOf_insertOrBump (sha other : Sha) (dest : Path) :
    (store.insertOrBump sha dest).pathOf other =
      if other = sha then some ((store.pathOf sha).getD dest)
      else store.pathOf other := by
  unfold insertOrBump
  split
  · next blob known =>
      rw [pathOf_putBlob]
      simp [pathOf, known]
  · next absent =>
      rw [pathOf_putBlob]
      simp [pathOf, absent]

theorem pathOf_setBlobPath (sha other : Sha) (path : Path) :
    (store.setBlobPath sha path).pathOf other =
      if other = sha then (store.pathOf sha).map fun _ => path
      else store.pathOf other := by
  unfold setBlobPath
  split
  · next blob known =>
      rw [pathOf_putBlob]
      simp [pathOf, known]
  · next absent =>
      split
      · next same => simp [same, pathOf, absent]
      · rfl

variable {other : Sha}

theorem pathOf_of_insertOrBump {store : Store} {dest : Path}
    (found : (store.insertOrBump sha dest).pathOf other = some path) :
    store.pathOf other = some path ∨ (other = sha ∧ dest = path) := by
  rw [pathOf_insertOrBump] at found
  split at found
  · next same =>
      subst same
      cases known : store.pathOf other with
      | some before =>
        rw [known] at found
        exact .inl found
      | none =>
        rw [known] at found
        exact .inr ⟨rfl, Option.some.inj found⟩
  · exact .inl found

/-! ## Releases -/

variable (setting : Setting) (modelId : ModelId) (keepBytes : Bool)

theorem pathOf_of_repointSharedBlob {store : Store} {modelId : ModelId}
    {deleted : Path}
    (found : (store.repointSharedBlob sha deleted modelId).pathOf other =
      some path) :
    store.pathOf other = some path ∨ store.Referent modelId other path := by
  rcases store.repointSharedBlob_cases sha deleted modelId with
    same | ⟨row, listed, records, apart, -, moved⟩
  · rw [same] at found
    exact .inl found
  · rw [moved, pathOf_setBlobPath] at found
    split at found
    · next same =>
        obtain ⟨-, -, rfl⟩ := Option.map_eq_some_iff.mp found
        exact .inr ⟨row, listed, same ▸ records, apart, rfl⟩
    · exact .inl found

theorem pathOf_of_releaseBlobRef {store : Store} {setting : Setting}
    {modelId : ModelId} {keepBytes : Bool} {dest : Path}
    (found : (store.releaseBlobRef setting modelId keepBytes sha dest).pathOf
      other = some path) :
    store.pathOf other = some path ∨ store.Referent modelId other path := by
  rcases store.releaseBlobRef_cases setting modelId keepBytes sha dest with
    ⟨same, -⟩ | ⟨blob, -, -, ⟨-, deleted⟩ | ⟨-, unlinked⟩⟩ |
    ⟨blob, -, -, moved⟩
  · rw [same] at found
    exact .inl found
  · rw [deleted, pathOf_deleteBlob] at found
    split at found
    · cases found
    · exact .inl found
  · rw [unlinked, pathOf_unlink, pathOf_dropBlobRef] at found
    exact .inl found
  · rw [moved] at found
    have before := pathOf_of_repointSharedBlob found
    rw [pathOf_dropBlobRef] at before
    unfold Referent at before ⊢
    rw [files_dropBlobRef] at before
    exact before

/-- A release removes one path at most. -/
theorem disk_releaseBlobRef (sha : Sha) (dest path : Path) :
    (store.releaseBlobRef setting modelId keepBytes sha dest).disk path =
        store.disk path ∨
      (keepBytes = false ∧ store.pathOf sha = some path ∧
        (store.releaseBlobRef setting modelId keepBytes sha dest).refs sha =
          0) := by
  have given := store.refs_releaseBlobRef setting modelId keepBytes sha sha dest
  rcases store.releaseBlobRef_cases setting modelId keepBytes sha dest with
    ⟨same, -⟩ | ⟨blob, known, last, ⟨-, deleted⟩ | ⟨unkept, unlinked⟩⟩ |
    ⟨blob, -, -, moved⟩
  · left
    rw [same]
  · left
    rw [deleted, disk_deleteBlob]
  · by_cases isPath : path = blob.blobPath
    · right
      refine ⟨unkept, by simp [pathOf, known, isPath], ?_⟩
      rw [given, if_pos rfl]
      simpa [refs, known] using last
    · left
      rw [unlinked, disk_unlink _ _ isPath, disk_dropBlobRef]
  · left
    rw [moved, disk_repointSharedBlob, disk_dropBlobRef]

variable {bytes : Bytes}

theorem disk_of_releaseBlobRef {store : Store} {setting : Setting}
    {modelId : ModelId} {keepBytes : Bool} {dest : Path}
    (present : (store.releaseBlobRef setting modelId keepBytes sha dest).disk
      path = some bytes) : store.disk path = some bytes := by
  rcases store.releaseBlobRef_cases setting modelId keepBytes sha dest with
    ⟨same, -⟩ | ⟨blob, known, last, ⟨-, deleted⟩ | ⟨-, unlinked⟩⟩ |
    ⟨blob, -, -, moved⟩
  · rwa [same] at present
  · rwa [deleted] at present
  · rw [unlinked] at present
    have before := disk_of_unlink _ present
    rwa [disk_dropBlobRef] at before
  · rwa [moved, disk_repointSharedBlob, disk_dropBlobRef] at present

/-! ## Registering -/

@[simp]
theorem disk_registerOne (prior : List FileRow) (file : Installed) :
    (store.registerOne prior modelId file).disk = store.disk := by
  unfold registerOne
  dsimp only
  rw [disk_upsertModelFile]
  split
  · split
    · split
      · split <;> simp
      · rfl
    · rfl
  · split <;> split <;> simp

@[simp]
theorem disk_registerAll (prior : List FileRow) (installed : List Installed) :
    (store.registerAll prior modelId installed).disk = store.disk :=
  List.foldlRecOn (motive := fun current : Store => current.disk = store.disk)
    installed _ rfl fun current same file _ => by rw [disk_registerOne, same]

theorem pathOf_of_registerOne {store : Store} {prior : List FileRow}
    {modelId : ModelId} {file : Installed}
    (found : (store.registerOne prior modelId file).pathOf sha = some path) :
    store.pathOf sha = some path ∨
      (file.sha256 = some sha ∧ file.dest = path) := by
  unfold registerOne at found
  dsimp only at found
  rw [pathOf_upsertModelFile] at found
  split at found
  · split at found
    · next own recorded =>
        split at found
        · split at found
          · exact .inl found
          · rw [pathOf_setBlobPath] at found
            split at found
            · next same =>
                obtain ⟨-, -, moved⟩ := Option.map_eq_some_iff.mp found
                exact .inr ⟨same ▸ recorded, moved⟩
            · exact .inl found
        · exact .inl found
    · exact .inl found
  · split at found
    · next own recorded =>
        rcases pathOf_of_insertOrBump found with before | ⟨same, moved⟩
        · split at before
          · rw [pathOf_dropBlobRef] at before
            exact .inl before
          · exact .inl before
        · exact .inr ⟨same ▸ recorded, moved⟩
    · split at found
      · rw [pathOf_dropBlobRef] at found
        exact .inl found
      · exact .inl found

theorem pathOf_of_registerAll {prior : List FileRow} {modelId : ModelId} :
    ∀ (installed : List Installed) {store : Store},
      (store.registerAll prior modelId installed).pathOf sha = some path →
      store.pathOf sha = some path ∨
        ∃ file ∈ installed, file.sha256 = some sha ∧ file.dest = path
  | [], _, found => .inl found
  | file :: rest, store, found => by
      rcases pathOf_of_registerAll rest found with
        once | ⟨other, listed, recorded, moved⟩
      · rcases pathOf_of_registerOne once with before | ⟨recorded, moved⟩
        · exact .inl before
        · exact .inr ⟨file, List.mem_cons_self, recorded, moved⟩
      · exact .inr ⟨other, List.mem_cons_of_mem _ listed, recorded, moved⟩

@[simp]
theorem disk_registerPulledFileset (installed : List Installed) :
    (store.registerPulledFileset modelId installed).disk = store.disk :=
  List.foldlRecOn (motive := fun current : Store => current.disk = store.disk)
    installed _ rfl fun current same file _ => by
      rw [disk_upsertModelFile, same]

@[simp]
theorem pathOf_registerPulledFileset (installed : List Installed) (sha : Sha) :
    (store.registerPulledFileset modelId installed).pathOf sha =
      store.pathOf sha :=
  List.foldlRecOn (motive := fun current : Store =>
      current.pathOf sha = store.pathOf sha)
    installed _ rfl fun current same file _ => by
      rw [pathOf_upsertModelFile, same]

/-! ## Forgetting superseded rows -/

theorem Referent.of_files {store other : Store} {modelId : ModelId}
    (referent : other.Referent modelId sha path)
    (files : ∀ row ∈ other.files, row ∈ store.files) :
    store.Referent modelId sha path := by
  obtain ⟨row, listed, rest⟩ := referent
  exact ⟨row, files row listed, rest⟩

variable {installed : List Installed}

theorem pathOf_of_dropSuperseded {store : Store} {setting : Setting}
    {modelId : ModelId} {row : FileRow}
    (found : (store.dropSuperseded setting modelId installed row).pathOf sha =
      some path) :
    store.pathOf sha = some path ∨ store.Referent modelId sha path := by
  obtain ⟨released, dropped, which⟩ :=
    store.dropSuperseded_cases setting modelId installed row
  have kept : released.pathOf sha = some path := by
    rw [dropped] at found
    split at found
    · exact found
    · rwa [pathOf_unlink] at found
  obtain ⟨-, rfl⟩ | ⟨old, -, rfl⟩ := which
  · exact .inl kept
  · rcases pathOf_of_releaseBlobRef kept with before | referent
    · exact .inl before
    · exact .inr (referent.of_files fun other listed =>
        (store.mem_deleteRow.mp listed).1)

theorem disk_of_dropSuperseded {store : Store} {setting : Setting}
    {modelId : ModelId} {row : FileRow}
    (present : (store.dropSuperseded setting modelId installed row).disk path =
      some bytes) : store.disk path = some bytes := by
  obtain ⟨released, dropped, which⟩ :=
    store.dropSuperseded_cases setting modelId installed row
  have kept : released.disk path = some bytes := by
    rw [dropped] at present
    split at present
    · exact present
    · exact disk_of_unlink _ present
  obtain ⟨-, rfl⟩ | ⟨old, -, rfl⟩ := which
  · exact kept
  · have before := disk_of_releaseBlobRef kept
    exact before

theorem pathOf_of_dropAll {setting : Setting} {modelId : ModelId} :
    ∀ (rows : List FileRow) {store : Store},
      (store.dropAll setting modelId installed rows).pathOf sha = some path →
      store.pathOf sha = some path ∨ store.Referent modelId sha path
  | [], _, found => .inl found
  | row :: rest, store, found => by
      rcases pathOf_of_dropAll rest found with once | referent
      · exact pathOf_of_dropSuperseded once
      · refine .inr (referent.of_files fun other listed => ?_)
        rw [files_dropSuperseded] at listed
        exact (store.mem_deleteRow.mp listed).1

theorem disk_of_dropAll {setting : Setting} {modelId : ModelId} :
    ∀ (rows : List FileRow) {store : Store},
      (store.dropAll setting modelId installed rows).disk path = some bytes →
      store.disk path = some bytes
  | [], _, present => present
  | _ :: rest, _, present =>
    disk_of_dropSuperseded (disk_of_dropAll rest present)

/-! ## Deletes -/

theorem pathOf_of_releaseAll {setting : Setting} {modelId : ModelId}
    {keepBytes : Bool} :
    ∀ (entries : List (Path × Option Sha)) {store : Store},
      (store.releaseAll setting modelId keepBytes entries).pathOf sha =
        some path →
      store.pathOf sha = some path ∨ store.Referent modelId sha path
  | [], _, found => .inl found
  | (_, none) :: rest, _, found =>
    pathOf_of_releaseAll rest found
  | (dest, some old) :: rest, store, found => by
      have fewer : ∀ row ∈ (store.releaseBlobRef setting modelId keepBytes old
          dest).files, row ∈ store.files := by
        intro row listed
        rwa [files_releaseBlobRef] at listed
      rcases pathOf_of_releaseAll rest found with once | referent
      · exact pathOf_of_releaseBlobRef once
      · exact .inr (referent.of_files fewer)

theorem disk_of_releaseAll {setting : Setting} {modelId : ModelId}
    {keepBytes : Bool} :
    ∀ (entries : List (Path × Option Sha)) {store : Store},
      (store.releaseAll setting modelId keepBytes entries).disk path =
        some bytes → store.disk path = some bytes
  | [], _, present => present
  | (_, none) :: rest, _, present =>
    disk_of_releaseAll rest present
  | (_, some _) :: rest, _, present =>
    disk_of_releaseBlobRef (disk_of_releaseAll rest present)

@[simp]
theorem pathOf_clear (entries : List (Path × Option Sha)) (sha : Sha) :
    (store.clear entries).pathOf sha = store.pathOf sha := by
  simp [pathOf]

theorem pathOf_of_deleteModel {store : Store} {setting : Setting}
    {modelId : ModelId} {deleteFiles : Bool} {refused : List Path}
    (found : (store.deleteModel setting modelId deleteFiles refused).pathOf
      sha = some path) :
    store.pathOf sha = some path ∨ store.Referent modelId sha path := by
  have fewer : ∀ row ∈ (store.removeModel modelId).files, row ∈ store.files :=
    fun row listed => (List.mem_filter.mp listed).1
  rw [deleteModel_eq] at found
  rcases pathOf_of_releaseAll _ found with once | referent
  · rcases pathOf_of_releaseAll _ once with before | referent
    · rw [pathOf_clear] at before
      exact .inl before
    · refine .inr (referent.of_files fun row listed => fewer row ?_)
      rwa [files_clear] at listed
  · refine .inr (referent.of_files fun row listed => fewer row ?_)
    rwa [files_releaseAll, files_clear] at listed

theorem disk_of_deleteModel {store : Store} {setting : Setting}
    {modelId : ModelId} {deleteFiles : Bool} {refused : List Path}
    (present : (store.deleteModel setting modelId deleteFiles refused).disk
      path = some bytes) : store.disk path = some bytes := by
  rw [deleteModel_eq] at present
  have removed : (store.removeModel modelId).disk path = some bytes :=
    disk_of_clear _ (disk_of_releaseAll _ (disk_of_releaseAll _ present))
  exact removed

/-! ## The collector -/

theorem pathOf_of_pruneOrphan {store : Store} {setting : Setting}
    (found : (store.pruneOrphan setting sha).pathOf other = some path) :
    store.pathOf other = some path := by
  rcases store.pruneOrphan_cases setting sha with same | ⟨blob, -, -, pruned⟩
  · rwa [same] at found
  · rw [pruned, pathOf_deleteBlob] at found
    split at found
    · cases found
    · exact found

theorem disk_of_pruneOrphan {store : Store} {setting : Setting}
    (present : (store.pruneOrphan setting sha).disk path = some bytes) :
    store.disk path = some bytes := by
  rcases store.pruneOrphan_cases setting sha with same | ⟨blob, -, -, pruned⟩
  · rwa [same] at present
  · rw [pruned, disk_deleteBlob, disk_write] at present
    split at present
    · cases present
    · exact present

theorem pathOf_of_pruneOrphans {setting : Setting} :
    ∀ (shas : List Sha) {store : Store},
      (store.pruneOrphans setting shas).pathOf other = some path →
      store.pathOf other = some path
  | [], _, found => found
  | _ :: rest, _, found =>
    pathOf_of_pruneOrphan (pathOf_of_pruneOrphans rest found)

theorem disk_of_pruneOrphans {setting : Setting} :
    ∀ (shas : List Sha) {store : Store},
      (store.pruneOrphans setting shas).disk path = some bytes →
      store.disk path = some bytes
  | [], _, present => present
  | _ :: rest, _, present =>
    disk_of_pruneOrphan (disk_of_pruneOrphans rest present)

@[simp]
theorem pathOf_reap (path : Path) (sha : Sha) :
    (store.reap setting path).pathOf sha = store.pathOf sha := by
  simp [pathOf]

theorem disk_of_reap {store : Store} {setting : Setting} {reaped : Path}
    (present : (store.reap setting reaped).disk path = some bytes) :
    store.disk path = some bytes := by
  rcases store.reap_cases setting reaped with same | ⟨-, unlinked⟩
  · rwa [same] at present
  · rw [unlinked] at present
    exact disk_of_unlink _ present

@[simp]
theorem pathOf_reconcileStoreTree (paths : List Path) (sha : Sha) :
    (store.reconcileStoreTree setting paths).pathOf sha = store.pathOf sha :=
  List.foldlRecOn (motive := fun current : Store =>
      current.pathOf sha = store.pathOf sha)
    paths _ rfl fun current same path _ => by rw [pathOf_reap, same]

theorem disk_of_reconcileStoreTree {setting : Setting} :
    ∀ (paths : List Path) {store : Store},
      (store.reconcileStoreTree setting paths).disk path = some bytes →
      store.disk path = some bytes
  | [], _, present => present
  | _ :: rest, _, present =>
    disk_of_reap (disk_of_reconcileStoreTree rest present)

end Store

end Hal0.Registry.ModelStore
