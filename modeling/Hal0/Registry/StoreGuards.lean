import Hal0.Registry.StorePaths

/-!
# Files which releases leave on disk

`Guarded` is about rows which a series of releases must not touch: their files
are on disk, and a blob whose path one of them has is a blob of the row's
content, unless the content is `waived`.  A release which leaves a reference
to such a row's content unlinks none of these files.
-/

namespace Hal0.Registry.ModelStore

open List

namespace Store

/-- The files of the targets are on disk, and no blob of another content has
the path of one of them, apart from waived ones. -/
structure Guarded (store : Store) (modelId : ModelId)
    (targets : FileRow → Prop) (waived : Sha → Path → Prop) : Prop where
  listed : ∀ row, targets row → row ∈ store.files
  others : ∀ row ∈ store.files, row.modelId ≠ modelId → targets row
  present : ∀ row, targets row → (store.disk row.dest).isSome
  sound : ∀ row, targets row → Sound row.toInstalled
  alike : ∀ row other, targets row → targets other →
    row.dest = other.dest → row.digest = other.digest
  named : ∀ row, targets row → ∀ sha, store.pathOf sha = some row.dest →
    row.digest = sha ∨ waived sha row.dest

variable {store : Store}

theorem Kept.refs_pos {extra : Sha → Nat} (kept : Kept store extra)
    {row : FileRow} (listed : row ∈ store.files) :
    0 < store.refs row.digest := by
  have counted := kept.accounted row.digest
  have held : 0 < store.held row.digest :=
    countP_pos_iff.mpr ⟨row, listed, by simp⟩
  omega

/-! ## One release -/

theorem pathOf_releaseBlobRef_of_last (setting : Setting) (modelId : ModelId)
    {sha : Sha} {dest : Path}

    (last : (store.releaseBlobRef setting modelId true sha dest).refs sha = 0) :
    (store.releaseBlobRef setting modelId true sha dest).pathOf sha = none := by
  have given := store.refs_releaseBlobRef setting modelId true sha sha dest
  rw [last, if_pos rfl] at given
  rcases store.releaseBlobRef_cases setting modelId true sha dest with
    ⟨same, absent⟩ | ⟨blob, -, -, ⟨-, deleted⟩ | ⟨unkept, -⟩⟩ |
    ⟨blob, known, more, -⟩
  · rw [same]
    simp [pathOf, absent]
  · rw [deleted, pathOf_deleteBlob, if_pos rfl]
  · cases unkept
  · simp [refs, known] at given
    omega

variable {modelId : ModelId}

/-- A release of the path of a blob moves the blob, when a file of another
model can have it. -/
theorem pathOf_releaseBlobRef_of_moved (setting : Setting) (keepBytes : Bool)
    {sha : Sha} {dest : Path}
    (more : (store.releaseBlobRef setting modelId keepBytes sha dest).refs sha ≠
      0)
    (elsewhere : ∃ row ∈ store.files, row.sha256 = some sha ∧
      row.modelId ≠ modelId ∧ row.dest ≠ dest ∧
      (store.disk row.dest).isSome) :
    (store.releaseBlobRef setting modelId keepBytes sha dest).pathOf sha ≠
      some dest := by
  have given := store.refs_releaseBlobRef setting modelId keepBytes sha sha dest
  rw [if_pos rfl] at given
  rcases store.releaseBlobRef_cases setting modelId keepBytes sha dest with
    ⟨same, absent⟩ | ⟨blob, known, last, -⟩ | ⟨blob, known, -, moved⟩
  · rw [same]
    simp [pathOf, absent]
  · simp [refs, known] at given more
    omega
  · rw [moved]
    unfold repointSharedBlob
    obtain ⟨row, listed, records, apart, differs, present⟩ := elsewhere
    split
    · next absent => simp [pathOf, absent]
    · next dropped isDropped =>
        split
        · next away =>
            simpa [pathOf, isDropped] using away
        · split
          · next found isFound =>
              have chosen := find?_some isFound
              rw [Bool.and_eq_true, decide_eq_true_eq] at chosen
              rw [pathOf_setBlobPath, if_pos rfl]
              simpa [pathOf, isDropped] using chosen.1
          · next notFound =>
              have candidate : row ∈ ((store.dropBlobRef sha).blobReferents sha
                  modelId) := by
                rw [blobReferents, mem_mergeSort, mem_filter]
                simp [listed, records, apart]
              have refused := find?_eq_none.mp notFound row candidate
              simp [differs, present] at refused

variable {targets : FileRow → Prop} {waived : Sha → Path → Prop}

section

variable (guarded : Guarded store modelId targets waived)
include guarded

/-- A release unlinks no guarded path. -/
theorem Guarded.release {later : Sha → Path → Prop} (setting : Setting)
    {keepBytes : Bool} {sha : Sha} {dest : Path}
    (live : keepBytes = false →
      (store.releaseBlobRef setting modelId keepBytes sha dest).refs sha = 0 →
      ∀ row, targets row → store.pathOf sha ≠ some row.dest)
    (waives : ∀ other row, targets row → store.pathOf other = some row.dest →
      (store.releaseBlobRef setting modelId keepBytes sha dest).pathOf other =
        some row.dest → waived other row.dest → later other row.dest) :
    Guarded (store.releaseBlobRef setting modelId keepBytes sha dest) modelId
      targets later where
  listed := by
    rw [files_releaseBlobRef]
    exact guarded.listed
  others := by
    rw [files_releaseBlobRef]
    exact guarded.others
  present := by
    intro row target
    rcases store.disk_releaseBlobRef setting modelId keepBytes sha dest
      row.dest with same | ⟨unkept, isPath, last⟩
    · rw [same]
      exact guarded.present row target
    · exact absurd isPath (live unkept last row target)
  sound := guarded.sound
  alike := guarded.alike
  named := by
    intro row target other found
    rcases pathOf_of_releaseBlobRef found with
      before | ⟨held, listed, records, apart, same⟩
    · rcases guarded.named row target other before with own | waived
      · exact .inl own
      · exact .inr (waives other row target before found waived)
    · have isTarget := guarded.others held listed apart
      have own : other = held.digest :=
        guarded.sound held isTarget other records
      exact .inl ((guarded.alike row held target isTarget same.symm).trans
        own.symm)

theorem Guarded.mono {later : Sha → Path → Prop}
    (waives : ∀ sha path, waived sha path → later sha path) :
    Guarded store modelId targets later where
  listed := guarded.listed
  others := guarded.others
  present := guarded.present
  sound := guarded.sound
  alike := guarded.alike
  named := fun row target sha found =>
    (guarded.named row target sha found).imp_right (waives sha row.dest)

/-- The targets are left alone by what changes neither rows nor paths of blobs,
and unlinks none of their files. -/
theorem Guarded.of_same {other : Store}
    (listed : ∀ row, targets row → row ∈ other.files)
    (fewer : ∀ row ∈ other.files, row ∈ store.files)
    (paths : ∀ sha path, other.pathOf sha = some path →
      store.pathOf sha = some path)
    (disk : ∀ row, targets row →
      other.disk row.dest = store.disk row.dest) :
    Guarded other modelId targets waived where
  listed := listed
  others := fun row isRow => guarded.others row (fewer row isRow)
  present := by
    intro row target
    rw [disk row target]
    exact guarded.present row target
  sound := guarded.sound
  alike := guarded.alike
  named := fun row target sha found =>
    guarded.named row target sha (paths sha row.dest found)

end

/-! ## The releases of a delete -/

/-- Releases which leave `least` references of each content. -/
theorem Guarded.releaseAll {spare : Sha → Prop} {least : Sha → Nat}
    (setting : Setting) (keepBytes : Bool)
    (own : ∀ row, targets row → 0 < least row.digest)
    (spared : ∀ sha, spare sha → 0 < least sha) :
    ∀ (entries : List (Path × Option Sha)) {store : Store},
      Guarded store modelId targets (fun sha _ => spare sha) →
      (∀ sha, least sha + given entries sha ≤ store.refs sha) →
      Guarded (store.releaseAll setting modelId keepBytes entries) modelId
        targets (fun sha _ => spare sha)
  | [], _, guarded, _ => guarded
  | (path, none) :: rest, store, guarded, enough => by
      refine Guarded.releaseAll setting keepBytes own spared rest guarded ?_
      intro sha
      have all := enough sha
      rw [given_cons] at all
      simpa using all
  | (path, some old) :: rest, store, guarded, enough => by
      have after : ∀ sha, least sha + given rest sha ≤ (store.releaseBlobRef
          setting modelId keepBytes old path).refs sha := by
        intro sha
        have all := enough sha
        rw [given_cons] at all
        rw [refs_releaseBlobRef]
        simp only [Option.some.injEq, eq_comm (a := old)] at all
        omega
      refine Guarded.releaseAll setting keepBytes own spared rest
        (guarded.release setting ?_ ?_) after
      · intro _ last row target isPath
        have left := after old
        rw [last] at left
        have positive : 0 < least old := by
          rcases guarded.named row target old isPath with same | spare
          · rw [← same]
            exact own row target
          · exact spared old spare
        omega
      · exact fun _ _ _ _ _ waived => waived

/-! ## The releases of superseded rows -/

section Superseded

variable {modelId : ModelId} {installed : List Installed}
  {targets : FileRow → Prop} {spare : Sha → Prop}

/-- The references of a content are those of superseded rows, whose paths are
all reused. -/
def GivenUp (store : Store) (installed : List Installed)
    (rows : List FileRow) (sha : Sha) : Prop :=
  (∀ row ∈ rows, row.sha256 = some sha → reused installed row = true) ∧
  0 < (rows.countP fun row => row.sha256 = some sha) ∧
  store.refs sha = rows.countP fun row => row.sha256 = some sha

/-- A superseded row has the path, and a target of another model has another
file of the content. -/
def Shared (modelId : ModelId) (targets : FileRow → Prop)
    (rows : List FileRow) (sha : Sha) (path : Path) : Prop :=
  (∃ row ∈ rows, row.sha256 = some sha ∧ row.dest = path) ∧
  ∃ other, targets other ∧ other.modelId ≠ modelId ∧
    other.sha256 = some sha ∧ other.dest ≠ path

/-- What is waived while the superseded rows are forgotten. -/
def LetGo (store : Store) (modelId : ModelId) (installed : List Installed)
    (targets : FileRow → Prop) (spare : Sha → Prop) (rows : List FileRow)
    (sha : Sha) (path : Path) : Prop :=
  spare sha ∨ GivenUp store installed rows sha ∨
    Shared modelId targets rows sha path

variable {store : Store}

theorem letGo_nil {sha : Sha} {path : Path}
    (letGo : LetGo store modelId installed targets spare [] sha path) :
    spare sha := by
  rcases letGo with isSpare | ⟨-, positive, -⟩ | ⟨⟨row, listed, -⟩, -⟩
  · exact isSpare
  · simp at positive
  · simp at listed

variable {row : FileRow} {rest : List FileRow}

theorem LetGo.tail {other : Store} {sha : Sha} {path : Path}
    (letGo : LetGo store modelId installed targets spare (row :: rest) sha
      path) (differs : row.sha256 ≠ some sha)
    (refs : other.refs sha = store.refs sha) :
    LetGo other modelId installed targets spare rest sha path := by
  rcases letGo with isSpare | ⟨reused, positive, counted⟩ |
    ⟨⟨gone, listed, records, isPath⟩, shared⟩
  · exact .inl isSpare
  · refine .inr (.inl ⟨fun gone listed =>
      reused gone (mem_cons_of_mem _ listed), ?_, ?_⟩)
    · simpa [differs] using positive
    · rw [refs, counted]
      simp [differs]
  · rcases mem_cons.mp listed with rfl | isRest
    · exact absurd records differs
    · exact .inr (.inr ⟨⟨gone, isRest, records, isPath⟩, shared⟩)

theorem LetGo.of_refs {other : Store} {rows : List FileRow} {sha : Sha}
    {path : Path}
    (letGo : LetGo store modelId installed targets spare rows sha path)
    (refs : other.refs sha = store.refs sha) :
    LetGo other modelId installed targets spare rows sha path := by
  rcases letGo with isSpare | ⟨reused, positive, counted⟩ | shared
  · exact .inl isSpare
  · exact .inr (.inl ⟨reused, positive, refs.trans counted⟩)
  · exact .inr (.inr shared)

theorem Guarded.deleteRow {waived : Sha → Path → Prop}
    (guarded : Guarded store modelId targets waived)
    (keyed : Keyed store.files) (listed : row ∈ store.files)
    (gone : ¬ targets row) :
    Guarded (store.deleteRow row) modelId targets waived := by
  refine guarded.of_same ?_ ?_ (fun _ _ found => found) (fun _ _ => rfl)
  · intro other target
    refine store.mem_deleteRow.mpr ⟨guarded.listed other target, ?_⟩
    intro same
    have isRow : other = row :=
      keyed.eq_of_key (guarded.listed other target) listed same
    exact gone (isRow ▸ target)
  · intro other isOther
    exact (store.mem_deleteRow.mp isOther).1

theorem Guarded.releaseSuperseded {extra : Sha → Nat} (setting : Setting)
    {old : Sha} (recorded : row.sha256 = some old)
    (guarded : Guarded (store.deleteRow row) modelId targets
      (LetGo store modelId installed targets spare (row :: rest)))
    (kept : Kept (store.dropSuperseded setting modelId installed row) extra)
    (spared : ∀ sha, spare sha → 0 < extra sha) :
    Guarded ((store.deleteRow row).releaseBlobRef setting modelId
        (reused installed row) old row.dest) modelId targets
      (LetGo ((store.deleteRow row).releaseBlobRef setting modelId
        (reused installed row) old row.dest) modelId installed targets spare
          rest) := by
  have files : (store.dropSuperseded setting modelId installed row).files =
      (store.deleteRow row).files :=
    store.files_dropSuperseded setting modelId installed row
  have refsAfter : ∀ sha, ((store.deleteRow row).releaseBlobRef setting modelId
      (reused installed row) old row.dest).refs sha =
        (store.dropSuperseded setting modelId installed row).refs sha := by
    intro sha
    rw [refs_dropSuperseded, refs_releaseBlobRef, refs_deleteRow, recorded]
    simp only [Option.some.injEq, eq_comm]
  have live : ∀ sha, (spare sha ∨ ∃ target, targets target ∧
      target.digest = sha) → ((store.deleteRow row).releaseBlobRef setting
        modelId (reused installed row) old row.dest).refs sha ≠ 0 := by
    rintro sha (isSpare | ⟨target, isTarget, rfl⟩)
    · rw [refsAfter, kept.accounted]
      have more := spared sha isSpare
      omega
    · rw [refsAfter]
      have positive := kept.refs_pos
        (files ▸ guarded.listed target isTarget)
      omega
  refine guarded.release setting ?_ ?_
  · intro unkept last target isTarget isPath
    rcases guarded.named target isTarget old isPath with
      own | isSpare | ⟨allReused, -, -⟩ | ⟨-, other, isOther, -, records, -⟩
    · exact live old (.inr ⟨target, isTarget, own⟩) last
    · exact live old (.inl isSpare) last
    · rw [allReused row mem_cons_self recorded] at unkept
      cases unkept
    · have own : old = other.digest := guarded.sound other isOther old records
      exact live old (.inr ⟨other, isOther, own.symm⟩) last
  · intro sha target isTarget before after letGo
    by_cases same : sha = old
    · subst same
      rcases letGo with isSpare | ⟨allReused, positive, counted⟩ |
        ⟨⟨gone, listed, records, isPath⟩, shared⟩
      · exact .inl isSpare
      · have keeps := allReused row mem_cons_self recorded
        have once : (row :: rest).countP
              (fun other => decide (other.sha256 = some sha)) =
            rest.countP (fun other => decide (other.sha256 = some sha)) +
              1 := by
          simp [recorded]
        have refs : ((store.deleteRow row).releaseBlobRef setting modelId
            (reused installed row) sha row.dest).refs sha =
              rest.countP fun other => other.sha256 = some sha := by
          rw [refs_releaseBlobRef, refs_deleteRow, counted, once, if_pos rfl]
          omega
        refine .inr (.inl ⟨fun gone isRest =>
          allReused gone (mem_cons_of_mem _ isRest), ?_, refs⟩)
        rw [← refs]
        refine Nat.pos_of_ne_zero fun last => ?_
        rw [keeps] at last after
        rw [pathOf_releaseBlobRef_of_last setting modelId last] at after
        cases after
      · rcases mem_cons.mp listed with rfl | isRest
        · obtain ⟨other, isOther, apart, holds, differs⟩ := shared
          have own : sha = other.digest :=
            guarded.sound other isOther sha holds
          have moved := pathOf_releaseBlobRef_of_moved setting
            (reused installed gone)
            (live sha (.inr ⟨other, isOther, own.symm⟩))
            ⟨other, guarded.listed other isOther, holds, apart,
              isPath ▸ differs, guarded.present other isOther⟩
          exact absurd (isPath ▸ after) moved
        · exact .inr (.inr ⟨⟨gone, isRest, records, isPath⟩, shared⟩)
    · refine letGo.tail (fun records => same ?_) ?_
      · rw [recorded] at records
        exact (Option.some.inj records).symm
      · rw [refs_releaseBlobRef, refs_deleteRow, if_neg same]
        rfl

theorem Guarded.unlinkUnlessReused {waived : Sha → Path → Prop}
    (guarded : Guarded store modelId targets waived) (setting : Setting)
    (apart : reused installed row = false →
      ∀ other, targets other → other.dest ≠ row.dest) :
    Guarded (if reused installed row then store
      else store.unlink setting row.dest) modelId targets waived := by
  split
  · exact guarded
  · next unused =>
      rw [Bool.not_eq_true] at unused
      refine guarded.of_same ?_ ?_ ?_ ?_
      · rw [files_unlink]
        exact guarded.listed
      · intro other listed
        rwa [files_unlink] at listed
      · intro sha path found
        rwa [pathOf_unlink] at found
      · intro other target
        exact store.disk_unlink setting (apart unused other target)

/-- Nor does dropping an old file. -/
theorem Guarded.dropSuperseded {extra : Sha → Nat} (setting : Setting)
    (guarded : Guarded store modelId targets
      (LetGo store modelId installed targets spare (row :: rest)))
    (kept : Kept store extra) (spared : ∀ sha, spare sha → 0 < extra sha)
    (listed : row ∈ store.files) (gone : ¬ targets row)
    (apart : reused installed row = false →
      ∀ other, targets other → other.dest ≠ row.dest) :
    Guarded (store.dropSuperseded setting modelId installed row) modelId
      targets (LetGo (store.dropSuperseded setting modelId installed row)
        modelId installed targets spare rest) := by
  have forgotten := guarded.deleteRow kept.keyed listed gone
  have later := kept_dropSuperseded kept setting modelId installed listed
  obtain ⟨released, dropped, which⟩ :=
    store.dropSuperseded_cases setting modelId installed row
  have same : ∀ sha, (store.dropSuperseded setting modelId installed
      row).refs sha = released.refs sha := by
    intro sha
    rw [dropped]
    split <;> simp
  have isGuarded : Guarded released modelId targets
      (LetGo released modelId installed targets spare rest) := by
    obtain ⟨missing, rfl⟩ | ⟨old, recorded, rfl⟩ := which
    · exact forgotten.mono fun sha path letGo =>
        letGo.tail (by simp [missing]) rfl
    · exact Guarded.releaseSuperseded setting recorded forgotten later
        (fun sha isSpare => Nat.lt_add_right _ (spared sha isSpare))
  have without : Guarded released modelId targets
      (LetGo (store.dropSuperseded setting modelId installed row) modelId
        installed targets spare rest) :=
    isGuarded.mono fun sha _ letGo => letGo.of_refs (same sha)
  have unlinked := without.unlinkUnlessReused setting apart
  rwa [← dropped] at unlinked

theorem Guarded.dropAll (setting : Setting) :
    ∀ {rows : List FileRow} {store : Store} {extra : Sha → Nat},
      Guarded store modelId targets
        (LetGo store modelId installed targets spare rows) →
      Kept store extra → (∀ sha, spare sha → 0 < extra sha) →
      (rows.map FileRow.key).Nodup →
      (∀ row ∈ rows, row ∈ store.files ∧ ¬ targets row ∧
        (reused installed row = false →
          ∀ other, targets other → other.dest ≠ row.dest)) →
      Guarded (store.dropAll setting modelId installed rows) modelId targets
        (fun sha _ => spare sha)
  | [], store, _, guarded, _, _, _, _ =>
    guarded.mono fun _ _ letGo => letGo_nil letGo
  | row :: rest, store, extra, guarded, kept, spared, distinct, each => by
      obtain ⟨fresh, restDistinct⟩ := nodup_cons.mp distinct
      obtain ⟨listed, gone, apart⟩ := each row mem_cons_self
      change Guarded ((store.dropSuperseded setting modelId installed
        row).dropAll setting modelId installed rest) modelId targets _
      refine Guarded.dropAll setting
        (guarded.dropSuperseded setting kept spared listed gone apart)
        (kept_dropSuperseded kept setting modelId installed listed)
        (fun sha isSpare => Nat.lt_add_right _ (spared sha isSpare))
        restDistinct ?_
      intro other isRest
      obtain ⟨isRow, notTarget, otherApart⟩ :=
        each other (mem_cons_of_mem _ isRest)
      refine ⟨?_, notTarget, otherApart⟩
      rw [files_dropSuperseded, mem_deleteRow]
      refine ⟨isRow, ?_⟩
      intro same
      exact fresh (same ▸ mem_map_of_mem isRest)

end Superseded

end Store

end Hal0.Registry.ModelStore
