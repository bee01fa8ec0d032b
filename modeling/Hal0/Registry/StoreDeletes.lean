import Hal0.Registry.StoreFacts

/-!
# What a delete and the collector do

A delete plans each path of a model once, with the first hash which a row
records for it, and gives one reference back for each planned hash.  So it
gives back at most one reference for a row, and exactly one where no two rows
of the model share a path.  The collector gives none back.
-/

namespace Hal0.Registry.ModelStore

open List

/-! ## The plan -/

/-- How many entries give up the blob. -/
def given (entries : List (Path × Option Sha)) (sha : Sha) : Nat :=
  entries.countP fun entry => entry.2 = some sha

theorem given_cons (entry : Path × Option Sha)
    (rest : List (Path × Option Sha)) (sha : Sha) :
    given (entry :: rest) sha =
      given rest sha + if entry.2 = some sha then 1 else 0 := by
  simp [given, countP_cons]

theorem given_fill (dest : Path) (recorded : Option Sha) (sha : Sha) :
    ∀ {planned : List (Path × Option Sha)},
      (planned.map Prod.fst).Nodup →
      given (planned.map fun entry =>
          if entry.1 = dest ∧ entry.2 = none then (entry.1, recorded)
          else entry) sha ≤
        given planned sha + if recorded = some sha then 1 else 0
  | [], _ => by simp [given]
  | entry :: rest, distinct => by
      obtain ⟨fresh, restDistinct⟩ := nodup_cons.mp distinct
      rw [map_cons, given_cons, given_cons]
      by_cases filled : entry.1 = dest ∧ entry.2 = none
      · have others : rest.map (fun other =>
            if other.1 = dest ∧ other.2 = none then (other.1, recorded)
            else other) = rest := by
          refine Eq.trans (map_congr_left fun other listed => ?_)
            rest.map_id
          rw [if_neg, id]
          rintro ⟨same, -⟩
          exact fresh (filled.1.trans same.symm ▸ mem_map_of_mem listed)
        rw [others, if_pos filled, filled.2]
        simp
      · rw [if_neg filled]
        have rest := given_fill dest recorded sha restDistinct
        omega

theorem nodup_planRow {planned : List (Path × Option Sha)} (row : FileRow)
    (distinct : (planned.map Prod.fst).Nodup) :
    ((Store.planRow planned row).map Prod.fst).Nodup := by
  unfold Store.planRow
  split
  · rw [map_map]
    have paths : planned.map (Prod.fst ∘ fun entry =>
        if entry.1 = row.dest ∧ entry.2 = none then (entry.1, row.sha256)
        else entry) = planned.map Prod.fst := by
      refine map_congr_left fun entry _ => ?_
      rw [Function.comp_apply]
      split <;> rfl
    rw [paths]
    exact distinct
  · next absent =>
      rw [map_append, nodup_append]
      refine ⟨distinct, by simp, ?_⟩
      intro first isFirst second isSecond same
      obtain ⟨entry, listed, rfl⟩ := mem_map.mp isFirst
      obtain rfl : second = row.dest := by simpa using isSecond
      exact absent (any_eq_true.mpr ⟨entry, listed, by simpa using same⟩)

theorem given_planRow {planned : List (Path × Option Sha)} (row : FileRow)
    (distinct : (planned.map Prod.fst).Nodup) (sha : Sha) :
    given (Store.planRow planned row) sha ≤
      given planned sha + if row.sha256 = some sha then 1 else 0 := by
  unfold Store.planRow
  split
  · exact given_fill row.dest row.sha256 sha distinct
  · simp [given, countP_append, countP_cons]

theorem given_foldl_planRow (sha : Sha) :
    ∀ (rows : List FileRow) {planned : List (Path × Option Sha)},
      (planned.map Prod.fst).Nodup →
      given (rows.foldl Store.planRow planned) sha ≤ given planned sha +
        rows.countP fun row => row.sha256 = some sha
  | [], _, _ => Nat.le_refl _
  | row :: rest, planned, distinct => by
      have once := given_planRow row distinct sha
      have later := given_foldl_planRow sha rest (nodup_planRow row distinct)
      rw [foldl_cons, countP_cons]
      simp only [decide_eq_true_eq]
      omega

theorem foldl_planRow_of_distinct :
    ∀ {rows : List FileRow} {planned : List (Path × Option Sha)},
      (rows.map fun row => row.dest).Nodup →
      (∀ row ∈ rows, ∀ entry ∈ planned, entry.1 ≠ row.dest) →
      rows.foldl Store.planRow planned =
        planned ++ rows.map fun row => (row.dest, row.sha256)
  | [], planned, _, _ => by simp
  | row :: rest, planned, distinct, apart => by
      obtain ⟨fresh, restDistinct⟩ := nodup_cons.mp distinct
      have new : Store.planRow planned row =
          planned ++ [(row.dest, row.sha256)] := by
        unfold Store.planRow
        rw [if_neg]
        rw [any_eq_true]
        rintro ⟨entry, listed, same⟩
        exact apart row mem_cons_self entry listed (by simpa using same)
      rw [foldl_cons, new, foldl_planRow_of_distinct restDistinct]
      · simp
      · intro other isRest entry listed same
        rcases mem_append.mp listed with isPlanned | isNew
        · exact apart other (mem_cons_of_mem _ isRest) entry isPlanned
            same
        · obtain rfl : entry = (row.dest, row.sha256) := by simpa using isNew
          exact fresh (mem_map.mpr ⟨other, isRest, same.symm⟩)

namespace Store

variable (store : Store)

/-- The rows of a model. -/
def rowsOf (modelId : ModelId) : List FileRow :=
  store.files.filter fun row => row.modelId = modelId

theorem countP_listModelFiles (modelId : ModelId) (test : FileRow → Bool) :
    (store.listModelFiles modelId).countP test =
      (store.rowsOf modelId).countP test :=
  (mergeSort_perm _ _).countP_eq test

theorem given_planModelFiles (modelId : ModelId) (sha : Sha) :
    given (store.planModelFiles modelId) sha ≤
      (store.rowsOf modelId).countP fun row => row.sha256 = some sha := by
  have bound := given_foldl_planRow sha (store.listModelFiles modelId)
    (show (([] : List (Path × Option Sha)).map Prod.fst).Nodup by simp)
  rw [countP_listModelFiles] at bound
  simpa [given, planModelFiles] using bound

theorem given_planModelFiles_of_distinct {modelId : ModelId}
    (distinct : ((store.rowsOf modelId).map fun row => row.dest).Nodup)
    (sha : Sha) :
    given (store.planModelFiles modelId) sha =
      (store.rowsOf modelId).countP fun row => row.sha256 = some sha := by
  have perm := mergeSort_perm (store.rowsOf modelId) listedBefore
  have sorted : ((store.listModelFiles modelId).map
      fun row => row.dest).Nodup :=
    ((perm.map fun row => row.dest).nodup_iff).mpr distinct
  rw [planModelFiles, foldl_planRow_of_distinct sorted (by simp),
    nil_append, given, countP_map, ← countP_listModelFiles]
  rfl

/-! ## Releases of a plan -/

variable (setting : Setting) (modelId : ModelId)

@[simp]
theorem files_releaseAll (keepBytes : Bool) :
    ∀ (entries : List (Path × Option Sha)) (store : Store),
      (store.releaseAll setting modelId keepBytes entries).files = store.files
  | [], _ => rfl
  | (path, none) :: rest, store =>
    files_releaseAll keepBytes rest store
  | (path, some sha) :: rest, store => by
      refine (files_releaseAll keepBytes rest
        (store.releaseBlobRef setting modelId keepBytes sha path)).trans ?_
      exact store.files_releaseBlobRef setting modelId keepBytes sha path

theorem refs_releaseAll (keepBytes : Bool) (sha : Sha) :
    ∀ (entries : List (Path × Option Sha)) (store : Store),
      (store.releaseAll setting modelId keepBytes entries).refs sha =
        store.refs sha - given entries sha
  | [], _ => rfl
  | (path, none) :: rest, store => by
      have later := refs_releaseAll keepBytes sha rest store
      rw [given_cons]
      refine later.trans ?_
      simp
  | (path, some old) :: rest, store => by
      have later := refs_releaseAll keepBytes sha rest
        (store.releaseBlobRef setting modelId keepBytes old path)
      rw [refs_releaseBlobRef] at later
      rw [given_cons]
      refine later.trans ?_
      simp only [Option.some.injEq, eq_comm (a := old)]
      omega

@[simp]
theorem files_clear :
    ∀ (entries : List (Path × Option Sha)) (store : Store),
      (store.clear entries).files = store.files
  | [], _ => rfl
  | entry :: rest, store => files_clear rest (store.write entry.1 none)

@[simp]
theorem getBlob_clear (sha : Sha) :
    ∀ (entries : List (Path × Option Sha)) (store : Store),
      (store.clear entries).getBlob sha = store.getBlob sha
  | [], _ => rfl
  | entry :: rest, store => getBlob_clear sha rest (store.write entry.1 none)

@[simp]
theorem refs_clear (entries : List (Path × Option Sha)) (sha : Sha) :
    (store.clear entries).refs sha = store.refs sha := by
  simp [refs]

theorem disk_clear {path : Path} :
    ∀ (entries : List (Path × Option Sha)) {store : Store},
      (∀ entry ∈ entries, entry.1 ≠ path) →
      (store.clear entries).disk path = store.disk path
  | [], _, _ => rfl
  | entry :: rest, store, apart => by
      have later : ((store.write entry.1 none).clear rest).disk path =
          (store.write entry.1 none).disk path :=
        disk_clear rest fun other listed =>
          apart other (mem_cons_of_mem _ listed)
      rw [disk_write, if_neg (apart entry mem_cons_self).symm] at later
      exact later

theorem disk_of_clear {path : Path} {bytes : Bytes} :
    ∀ (entries : List (Path × Option Sha)) {store : Store},
      (store.clear entries).disk path = some bytes →
      store.disk path = some bytes
  | [], _, present => present
  | entry :: rest, store, present => by
      have before : (store.write entry.1 none).disk path = some bytes :=
        disk_of_clear rest present
      rw [disk_write] at before
      split at before
      · cases before
      · exact before

/-! ## Deletes -/

theorem deleteModel_eq (deleteFiles : Bool) (refused : List Path) :
    store.deleteModel setting modelId deleteFiles refused =
      (((store.removeModel modelId).clear
        (store.gone modelId deleteFiles refused)).releaseAll setting modelId
          false (store.gone modelId deleteFiles refused)).releaseAll setting
            modelId true (store.left modelId deleteFiles refused) := rfl

theorem files_deleteModel (deleteFiles : Bool) (refused : List Path) :
    (store.deleteModel setting modelId deleteFiles refused).files =
      (store.removeModel modelId).files := by
  rw [deleteModel_eq, files_releaseAll, files_releaseAll, files_clear]

theorem given_gone_add_left (deleteFiles : Bool) (refused : List Path)
    (sha : Sha) :
    given (store.gone modelId deleteFiles refused) sha +
        given (store.left modelId deleteFiles refused) sha =
      given (store.planModelFiles modelId) sha := by
  have kept : store.left modelId deleteFiles refused =
      (store.planModelFiles modelId).filter fun entry =>
        ¬ (deleteFiles && ((store.removeModel modelId).disk entry.1).isSome &&
          !(store.removeModel modelId).owned entry.1 &&
          !refused.contains entry.1) := by
    refine filter_congr fun entry listed => ?_
    simp [gone, unlinked, mem_filter, listed]
  rw [kept]
  unfold given gone unlinked
  rw [countP_eq_countP_filter_add (store.planModelFiles modelId) _
    fun entry => deleteFiles &&
      ((store.removeModel modelId).disk entry.1).isSome &&
        !(store.removeModel modelId).owned entry.1 &&
          !refused.contains entry.1]
  congr 2
  refine filter_congr fun entry _ => ?_
  simp [Bool.or_assoc]

theorem refs_deleteModel (deleteFiles : Bool) (refused : List Path)
    (sha : Sha) :
    (store.deleteModel setting modelId deleteFiles refused).refs sha =
      store.refs sha - given (store.planModelFiles modelId) sha := by
  have removed : (store.removeModel modelId).refs sha = store.refs sha := rfl
  rw [deleteModel_eq, refs_releaseAll, refs_releaseAll, refs_clear, removed,
    Nat.sub_sub, given_gone_add_left]

theorem held_removeModel (sha : Sha) :
    (store.removeModel modelId).held sha +
        (store.rowsOf modelId).countP (fun row => row.digest = sha) =
      store.held sha := by
  unfold held removeModel rowsOf
  rw [countP_eq_countP_filter_add store.files _
    fun row => row.modelId ≠ modelId]
  congr 2
  refine filter_congr fun row _ => ?_
  simp

theorem countP_recorded {store : Store}
    (sound : ∀ row ∈ store.files, Sound row.toInstalled) (modelId : ModelId)
    (sha : Sha) :
    ((store.rowsOf modelId).countP fun row => row.sha256 = some sha) ≤
      (store.rowsOf modelId).countP fun row => row.digest = sha := by
  refine countP_mono_left fun row listed recorded => ?_
  have isRow := (mem_filter.mp listed).1
  rw [decide_eq_true_eq] at recorded ⊢
  exact (sound row isRow sha recorded).symm

/-- A deletion keeps the counts. -/
theorem kept_deleteModel {store : Store} {extra : Sha → Nat}
    (kept : Kept store extra) (setting : Setting) (modelId : ModelId)
    (deleteFiles : Bool) (refused : List Path) :
    ∃ later,
      Kept (store.deleteModel setting modelId deleteFiles refused) later ∧
      (∀ sha, extra sha ≤ later sha) ∧
      (AllTracked store →
        ((store.rowsOf modelId).map fun row => row.dest).Nodup →
        later = extra) := by
  refine ⟨fun sha => extra sha +
    ((store.rowsOf modelId).countP (fun row => row.digest = sha) -
      given (store.planModelFiles modelId) sha), ?_, ?_, ?_⟩
  · refine ⟨?_, ?_, ?_⟩
    · rw [files_deleteModel]
      exact kept.keyed.filter _
    · intro row listed
      rw [files_deleteModel] at listed
      exact kept.sound row (mem_filter.mp listed).1
    · intro sha
      have before := kept.accounted sha
      have rows := store.held_removeModel modelId sha
      have planned := Nat.le_trans (store.given_planModelFiles modelId sha)
        (countP_recorded kept.sound modelId sha)
      have held : (store.deleteModel setting modelId deleteFiles
          refused).held sha = (store.removeModel modelId).held sha := by
        rw [Store.held, Store.held, files_deleteModel]
      rw [held, refs_deleteModel]
      beta_reduce
      omega
  · intro sha
    exact Nat.le_add_right _ _
  · intro tracked distinct
    funext sha
    have recorded : ((store.rowsOf modelId).countP fun row =>
          row.sha256 = some sha) =
        (store.rowsOf modelId).countP fun row => row.digest = sha := by
      refine countP_congr fun row listed => ?_
      have records : row.sha256 = some row.digest :=
        tracked row (mem_filter.mp listed).1
      simp [records]
    rw [given_planModelFiles_of_distinct store distinct, recorded,
      Nat.sub_self, Nat.add_zero]

theorem allTracked_deleteModel {store : Store} (tracked : AllTracked store)
    (setting : Setting) (modelId : ModelId) (deleteFiles : Bool)
    (refused : List Path) :
    AllTracked (store.deleteModel setting modelId deleteFiles refused) := by
  intro row listed
  rw [files_deleteModel] at listed
  exact tracked row (mem_filter.mp listed).1

/-! ## The collector -/

theorem pruneOrphan_cases (sha : Sha) :
    store.pruneOrphan setting sha = store ∨
    ∃ blob, store.getBlob sha = some blob ∧ blob.refcount = 0 ∧
      store.pruneOrphan setting sha =
        (store.write blob.blobPath none).deleteBlob sha := by
  unfold pruneOrphan
  split
  · next blob known =>
      split
      · next orphaned => exact .inr ⟨blob, known, orphaned.1, rfl⟩
      · exact .inl rfl
  · exact .inl rfl

@[simp]
theorem files_pruneOrphan (sha : Sha) :
    (store.pruneOrphan setting sha).files = store.files := by
  rcases store.pruneOrphan_cases setting sha with same | ⟨blob, -, -, pruned⟩
  · rw [same]
  · rw [pruned, files_deleteBlob, files_write]

@[simp]
theorem refs_pruneOrphan (sha other : Sha) :
    (store.pruneOrphan setting sha).refs other = store.refs other := by
  rcases store.pruneOrphan_cases setting sha with
    same | ⟨blob, known, orphaned, pruned⟩
  · rw [same]
  · rw [pruned]
    by_cases isSha : other = sha
    · subst isSha
      simp [refs, getBlob_deleteBlob, known, orphaned]
    · simp [refs, getBlob_deleteBlob, isSha]

theorem reap_cases (path : Path) :
    store.reap setting path = store ∨
    (store.tracked path = false ∧
      store.reap setting path = store.unlink setting path) := by
  unfold reap
  cases found : store.tracked path with
  | true => exact .inl (by simp)
  | false => exact .inr ⟨rfl, by simp⟩

@[simp]
theorem files_reap (path : Path) :
    (store.reap setting path).files = store.files := by
  rcases store.reap_cases setting path with same | ⟨-, reaped⟩
  · rw [same]
  · rw [reaped, files_unlink]

@[simp]
theorem getBlob_reap (path : Path) (sha : Sha) :
    (store.reap setting path).getBlob sha = store.getBlob sha := by
  rcases store.reap_cases setting path with same | ⟨-, reaped⟩
  · rw [same]
  · rw [reaped, getBlob_unlink]

@[simp]
theorem refs_reap (path : Path) (sha : Sha) :
    (store.reap setting path).refs sha = store.refs sha := by
  simp [refs]

@[simp]
theorem files_pruneOrphans (shas : List Sha) :
    (store.pruneOrphans setting shas).files = store.files :=
  List.foldlRecOn (motive := fun current : Store =>
      current.files = store.files) shas _
    rfl fun current same sha _ => by rw [files_pruneOrphan, same]

@[simp]
theorem refs_pruneOrphans (shas : List Sha) (other : Sha) :
    (store.pruneOrphans setting shas).refs other = store.refs other :=
  List.foldlRecOn (motive := fun current : Store =>
      current.refs other = store.refs other) shas _
    rfl fun current same sha _ => by rw [refs_pruneOrphan, same]

@[simp]
theorem files_reconcileStoreTree (paths : List Path) :
    (store.reconcileStoreTree setting paths).files = store.files :=
  List.foldlRecOn (motive := fun current : Store =>
      current.files = store.files) paths _
    rfl fun current same path _ => by rw [files_reap, same]

@[simp]
theorem refs_reconcileStoreTree (paths : List Path) (sha : Sha) :
    (store.reconcileStoreTree setting paths).refs sha = store.refs sha :=
  List.foldlRecOn (motive := fun current : Store =>
      current.refs sha = store.refs sha) paths _
    rfl fun current same path _ => by rw [refs_reap, same]

theorem Kept.of_same {store other : Store} {extra : Sha → Nat}
    (kept : Kept store extra) (files : other.files = store.files)
    (refs : ∀ sha, other.refs sha = store.refs sha) : Kept other extra where
  keyed := by
    rw [files]
    exact kept.keyed
  sound := by
    rw [files]
    exact kept.sound
  accounted := by
    intro sha
    have before := kept.accounted sha
    rw [refs, held, files]
    exact before

end Store

end Hal0.Registry.ModelStore
