import Hal0.Registry.BlobCounts
import Hal0.Registry.StoreGuards

/-!
# The files of the remaining rows

A blob is unlinked by its path, which may have got other bytes since.
`LeavesFiles` says when registering a pull leaves no path of a blob to a row of
another content: the blobs at the installed paths have the installed contents,
or are forgotten or moved by the same pull.  Along runs whose pulls are
registered so, every row keeps its file, whatever is deleted or collected.
-/

namespace Hal0.Registry.ModelStore

open List
open Hal0.Transition
open Store

/-! ## The condition -/

/-- More references are counted than there are. -/
def Leaks (state : State) (sha : Sha) : Prop :=
  state.held sha + state.taken sha < state.refs sha

instance (state : State) (sha : Sha) : Decidable (Leaks state sha) :=
  inferInstanceAs (Decidable (_ < _))

/-- The rows which registering a plain pull forgets. -/
def State.supersededBy (state : State) (pull : Pull) : List FileRow :=
  superseded (state.listModelFiles pull.modelId) pull.installed

/-- The references of a content which a plain pull replaces under a name. -/
def State.replacedBy (state : State) (pull : Pull) (sha : Sha) : Nat :=
  pull.installed.countP fun file =>
    (priorRow (state.listModelFiles pull.modelId) file).bind
      (fun row => row.sha256) = some sha

/-- A plain pull gives all references of a content back, the last of them for a
path which it reuses. -/
def GivesUp (state : State) (pull : Pull) (sha : Sha) : Prop :=
  (∀ file ∈ pull.installed, file.digest ≠ sha) ∧
  (∀ row ∈ state.supersededBy pull, row.sha256 = some sha →
    reused pull.installed row = true) ∧
  0 < ((state.supersededBy pull).countP fun row => row.sha256 = some sha) ∧
  state.refs sha =
    ((state.supersededBy pull).countP fun row => row.sha256 = some sha) +
      state.replacedBy pull sha

instance (state : State) (pull : Pull) (sha : Sha) :
    Decidable (GivesUp state pull sha) :=
  inferInstanceAs (Decidable (_ ∧ _ ∧ _ ∧ _))

/-- A plain pull supersedes a row of the path, and another model has another
file of its content. -/
def MovesAway (state : State) (pull : Pull) (sha : Sha) (path : Path) : Prop :=
  (∃ row ∈ state.supersededBy pull, row.sha256 = some sha ∧ row.dest = path) ∧
  ∃ other ∈ state.files, other.modelId ≠ pull.modelId ∧
    other.sha256 = some sha ∧ other.dest ≠ path

instance (state : State) (pull : Pull) (sha : Sha) (path : Path) :
    Decidable (MovesAway state pull sha path) :=
  inferInstanceAs (Decidable (_ ∧ _))

/-- The blob at an installed path is not left with the file of a row. -/
def Clears (state : State) (pull : Pull) (file : Installed) (sha : Sha) :
    Prop :=
  sha = file.digest ∨ Leaks state sha ∨
    (pull.isFileset = false ∧
      (GivesUp state pull sha ∨ MovesAway state pull sha file.dest))

instance (state : State) (pull : Pull) (file : Installed) (sha : Sha) :
    Decidable (Clears state pull file sha) :=
  inferInstanceAs (Decidable (_ ∨ _ ∨ _))

/-- The files have different names, and one content at one path, which is also
the content of the other rows and of the blobs there; and no row is left at a
path which the pull unlinks. -/
def LeavesFiles (state : State) (pull : Pull) : Prop :=
  (pull.installed.map Installed.rel).Nodup ∧
  (∀ file ∈ pull.installed, ∀ other ∈ pull.installed,
    file.dest = other.dest → file.digest = other.digest) ∧
  (∀ file ∈ pull.installed, ∀ row ∈ state.files, ¬ pull.Replaces row →
    row.dest = file.dest → row.digest = file.digest) ∧
  (∀ file ∈ pull.installed, ∀ entry ∈ state.blobs.entries,
    entry.2.blobPath = file.dest → Clears state pull file entry.1) ∧
  (pull.isFileset = false → ∀ gone ∈ state.supersededBy pull,
    reused pull.installed gone = false →
      ∀ row ∈ state.files, ¬ pull.Replaces row → row.dest ≠ gone.dest)

instance (state : State) (pull : Pull) : Decidable (LeavesFiles state pull) :=
  inferInstanceAs (Decidable (_ ∧ _ ∧ _ ∧ _ ∧ _))

/-- The step takes no file from another model. -/
def KeepsFiles (state : State) (action : Action) : Prop :=
  match action with
  | .register => ∀ pull ∈ state.pull, LeavesFiles state pull
  | _ => True

instance (state : State) (action : Action) :
    Decidable (KeepsFiles state action) :=
  match action with
  | .register => inferInstanceAs
      (Decidable (∀ pull ∈ state.pull, LeavesFiles state pull))
  | .startPull .. | .download .. | .countBlob | .hardlink .. | .stopPull
  | .deleteModel .. | .pruneOrphans .. | .reconcile .. =>
    inferInstanceAs (Decidable True)

theorem KeepsFiles.named {state : State} {action : Action}
    (keeps : KeepsFiles state action) : Named state action := by
  cases action with
  | register => exact fun pull pulls => (keeps pull pulls).1
  | _ => trivial

/-! ## The invariant -/

/-- The rows and the files in flight are on disk, and the path of a row is that
of a blob of its content, of one that leaks, or of one which the pull in flight
has counted. -/
structure Safe (state : State) : Prop where
  present : ∀ row ∈ state.files, (state.disk row.dest).isSome
  flying : ∀ pull, state.pull = some pull → ∀ file ∈ pull.files,
    (state.disk file.dest).isSome
  alike : ∀ row ∈ state.files, ∀ other ∈ state.files,
    row.dest = other.dest → row.digest = other.digest
  named : ∀ row ∈ state.files, ∀ sha, state.pathOf sha = some row.dest →
    row.digest = sha ∨ Leaks state sha ∨
      ∃ pull, state.pull = some pull ∧ pull.isFileset = true ∧
        ∃ file ∈ pull.installed, file.dest = row.dest ∧ file.digest = sha

theorem Accounts.leaks_iff {state : State} {extra : Sha → Nat}
    (accounts : Accounts state extra) (sha : Sha) :
    Leaks state sha ↔ state.taken sha < extra sha := by
  have counted := accounts.kept.accounted sha
  unfold Leaks
  omega

theorem Leaks.next {state next : State} {extra later : Sha → Nat}
    (accounts : Accounts state extra) (after : Accounts next later)
    (keeps : Keeps state next extra later) {sha : Sha}
    (leaks : Leaks state sha) : Leaks next sha := by
  have before := (accounts.leaks_iff sha).mp leaks
  have more := keeps sha
  refine (after.leaks_iff sha).mpr ?_
  omega

section Steps

variable {setting : Setting} {state next : State} {pull : Pull}

variable {row : FileRow}

theorem Safe.named_of_idle (safe : Safe state) (idle : state.pull = none)
    (listed : row ∈ state.files) {sha : Sha}
    (found : state.pathOf sha = some row.dest) :
    row.digest = sha ∨ Leaks state sha := by
  rcases safe.named row listed sha found with
    own | leaks | ⟨pull, pulls, -⟩
  · exact .inl own
  · exact .inr leaks
  · rw [idle] at pulls
    cases pulls

/-- A file is put where no other model has one. -/
theorem Safe.install (safe : Safe state) (pulls : state.pull = some pull)
    {dest : Path} {bytes : Bytes} {after : Pull} {store : Store}
    (disk : store.disk = (state.write dest (some bytes)).disk)
    (paths : ∀ sha, store.pathOf sha = state.pathOf sha)
    (files : store.files = state.files)
    (flown : ∀ file ∈ after.files, file ∈ pull.files ∨ file.dest = dest)
    (kind : after.isFileset = pull.isFileset)
    (counted : ∀ file ∈ pull.installed, file ∈ after.installed)
    (leaks : ∀ sha, Leaks state sha →
      Leaks { store with pull := some after } sha) :
    Safe { store with pull := some after } := by
  have written : ∀ path, (state.disk path).isSome →
      (store.disk path).isSome := by
    intro path present
    rw [disk, disk_write]
    split
    · rfl
    · exact present
  refine ⟨?_, ?_, ?_, ?_⟩
  · intro row listed
    change row ∈ store.files at listed
    rw [files] at listed
    exact written row.dest (safe.present row listed)
  · rintro _ isAfter file isFile
    obtain rfl := Option.some.inj isAfter
    rcases flown file isFile with before | isNew
    · exact written file.dest (safe.flying pull pulls file before)
    · change (store.disk file.dest).isSome
      rw [disk, isNew, disk_write, if_pos rfl]
      rfl
  · change ∀ row ∈ store.files, ∀ other ∈ store.files, _
    rw [files]
    exact safe.alike
  · intro row listed sha found
    change row ∈ store.files at listed
    rw [files] at listed
    have before : state.pathOf sha = some row.dest :=
      (paths sha).symm.trans found
    rcases safe.named row listed sha before with
      own | leaking | ⟨other, isOther, isFileset, file, isFile, same⟩
    · exact .inl own
    · exact .inr (.inl (leaks sha leaking))
    · obtain rfl := Option.some.inj (pulls.symm.trans isOther)
      exact .inr (.inr ⟨after, rfl, kind.trans isFileset, file,
        counted file isFile, same⟩)

theorem safe_countBlob (safe : Safe state) {file : Installed}
    (pulls : state.pull = some pull) (waits : pull.awaiting = some file)
    (isFileset : pull.isFileset = true)
    (leaks : ∀ sha, Leaks state sha →
      Leaks { state.insertOrBump file.digest file.dest with
        pull := some { pull with
          installed := pull.installed ++ [file], awaiting := none } } sha) :
    Safe { state.insertOrBump file.digest file.dest with
      pull := some { pull with
        installed := pull.installed ++ [file], awaiting := none } } := by
  have files := files_insertOrBump state.toStore file.digest file.dest
  have disk := disk_insertOrBump state.toStore file.digest file.dest
  refine ⟨?_, ?_, ?_, ?_⟩
  · intro row listed
    change row ∈ (state.insertOrBump file.digest file.dest).files at listed
    change ((state.insertOrBump file.digest file.dest).disk row.dest).isSome
    rw [disk]
    rw [files] at listed
    exact safe.present row listed
  · rintro _ isAfter other listed
    obtain rfl := Option.some.inj isAfter
    change ((state.insertOrBump file.digest file.dest).disk
      other.dest).isSome
    rw [disk]
    refine safe.flying pull pulls other ?_
    simpa [Pull.files, waits] using listed
  · change ∀ row ∈ (state.insertOrBump file.digest file.dest).files,
      ∀ other ∈ (state.insertOrBump file.digest file.dest).files, _
    rw [files]
    exact safe.alike
  · intro row listed sha found
    change row ∈ (state.insertOrBump file.digest file.dest).files at listed
    rw [files] at listed
    rcases pathOf_of_insertOrBump found with before | ⟨same, isDest⟩
    · rcases safe.named row listed sha before with
        own | leaking | ⟨other, isOther, -, flown, isFlown, same⟩
      · exact .inl own
      · exact .inr (.inl (leaks sha leaking))
      · obtain rfl := Option.some.inj (pulls.symm.trans isOther)
        exact .inr (.inr ⟨_, rfl, isFileset, flown,
          mem_append_left _ isFlown, same⟩)
    · exact .inr (.inr ⟨_, rfl, isFileset, file, by simp, isDest, same.symm⟩)

/-! ## Registering -/

/-- The rows which are left when the pull has been registered. -/
def Remains (state : State) (pull : Pull) (row : FileRow) : Prop :=
  (row ∈ state.files ∧ ¬ pull.Replaces row) ∨
    ∃ file ∈ pull.installed, row = file.row pull.modelId

theorem remains_present (safe : Safe state) (pulls : state.pull = some pull)
    (remains : Remains state pull row) :
    (state.disk row.dest).isSome := by
  rcases remains with ⟨listed, -⟩ | ⟨file, isFile, rfl⟩
  · exact safe.present row listed
  · exact safe.flying pull pulls file (mem_append_left _ isFile)

theorem remains_alike (safe : Safe state) (leaves : LeavesFiles state pull)
    {other : FileRow} (isRow : Remains state pull row)
    (isOther : Remains state pull other) (same : row.dest = other.dest) :
    row.digest = other.digest := by
  obtain ⟨-, consistent, rows, -, -⟩ := leaves
  rcases isRow with ⟨listed, kept⟩ | ⟨file, isFile, rfl⟩
  · rcases isOther with ⟨otherListed, -⟩ | ⟨file, isFile, rfl⟩
    · exact safe.alike row listed other otherListed same
    · exact rows file isFile row listed kept same
  · rcases isOther with ⟨listed, kept⟩ | ⟨second, isSecond, rfl⟩
    · exact (rows file isFile other listed kept same.symm).symm
    · exact consistent file isFile second isSecond same

/-- A row which is left is at the path of a blob of its content, of one that
leaks, or of one which the pull clears away. -/
theorem remains_named (safe : Safe state) (pulls : state.pull = some pull)
    (leaves : LeavesFiles state pull) (remains : Remains state pull row)
    {sha : Sha} (found : state.pathOf sha = some row.dest) :
    row.digest = sha ∨ Leaks state sha ∨
      (pull.isFileset = false ∧
        (GivesUp state pull sha ∨ MovesAway state pull sha row.dest)) := by
  obtain ⟨-, -, rows, blobs, -⟩ := leaves
  rcases remains with ⟨listed, kept⟩ | ⟨file, isFile, rfl⟩
  · rcases safe.named row listed sha found with
      own | leaks | ⟨other, isOther, -, file, isFile, isDest, isSha⟩
    · exact .inl own
    · exact .inr (.inl leaks)
    · obtain rfl := Option.some.inj (pulls.symm.trans isOther)
      exact .inl ((rows file isFile row listed kept isDest.symm).trans isSha)
  · obtain ⟨entry, listed, rfl, isPath⟩ := entry_of_pathOf found
    rcases blobs file isFile entry listed isPath with own | cleared
    · exact .inl own.symm
    · exact .inr cleared

theorem safe_registerFileset (safe : Safe state)
    (pulls : state.pull = some pull) (isFileset : pull.isFileset = true)
    (leaves : LeavesFiles state pull)
    (leaks : ∀ sha, Leaks state sha →
      Leaks { state.registerPulledFileset pull.modelId
        pull.installed with pull := none } sha) :
    Safe { state.registerPulledFileset pull.modelId
      pull.installed with pull := none } where
  present := by
    intro row listed
    change ((state.registerPulledFileset pull.modelId
      pull.installed).disk row.dest).isSome
    rw [disk_registerPulledFileset]
    exact remains_present safe pulls (row_of_registerFileset isFileset listed)
  flying := by simp
  alike := fun row isRow other isOther same =>
    remains_alike safe leaves (row_of_registerFileset isFileset isRow)
      (row_of_registerFileset isFileset isOther) same
  named := by
    intro row listed sha found
    change (state.registerPulledFileset pull.modelId
      pull.installed).pathOf sha = some row.dest at found
    rw [pathOf_registerPulledFileset] at found
    rcases remains_named safe pulls leaves
      (row_of_registerFileset isFileset listed) found with
      own | leaking | ⟨plain, -⟩
    · exact .inl own
    · exact .inr (.inl (leaks sha leaking))
    · rw [isFileset] at plain
      cases plain

/-- The rows which are left, when the files of a plain pull have their rows and
the superseded rows are still there. -/
theorem guarded_registerAll (safe : Safe state)
    (pulls : state.pull = some pull) (leaves : LeavesFiles state pull)
    (sound : ∀ row ∈ state.files, Sound row.toInstalled)
    (tracks : ∀ file ∈ pull.installed, Tracks file) :
    Guarded (state.registerAll (state.listModelFiles pull.modelId)
        pull.modelId pull.installed) pull.modelId (Remains state pull)
      (LetGo (state.registerAll (state.listModelFiles pull.modelId)
        pull.modelId pull.installed) pull.modelId pull.installed
          (Remains state pull) (Leaks state) (state.supersededBy pull)) where
  listed := by
    rintro row (⟨listed, kept⟩ | isFile)
    · refine (mem_registerAll leaves.1).mpr (.inl ⟨listed, ?_⟩)
      intro file isFile same
      exact kept ⟨congrArg Prod.fst same,
        .inl ⟨file, isFile, (congrArg Prod.snd same).symm⟩⟩
    · exact (mem_registerAll leaves.1).mpr (.inr isFile)
  others := by
    intro row listed apart
    rcases of_mem_registerAll listed with ⟨old, -⟩ | isFile
    · exact .inl ⟨old, fun replaced => apart replaced.1⟩
    · exact .inr isFile
  present := by
    intro row remains
    rw [disk_registerAll]
    exact remains_present safe pulls remains
  sound := by
    rintro row (⟨listed, -⟩ | ⟨file, isFile, rfl⟩)
    · exact sound row listed
    · exact (tracks file isFile).sound
  alike := fun row other isRow isOther same =>
    remains_alike safe leaves isRow isOther same
  named := by
    intro row remains sha found
    rcases pathOf_of_registerAll _ found with
      before | ⟨file, isFile, recorded, isDest⟩
    · rcases remains_named safe pulls leaves remains before with
        own | leaks | ⟨-, ⟨absent, reused, positive, counted⟩ | moves⟩
      · exact .inl own
      · exact .inr (.inl leaks)
      · refine .inr (.inr (.inl ⟨reused, positive, ?_⟩))
        rw [refs_registerAll_of_absent fun file isFile =>
          ⟨tracks file isFile, absent file isFile⟩, counted]
        exact Nat.add_sub_cancel _ _
      · obtain ⟨gone, other, listed, apart, records, differs⟩ := moves
        refine .inr (.inr (.inr ⟨gone, other, .inl ⟨listed, ?_⟩, apart,
          records, differs⟩))
        exact fun replaced => apart replaced.1
    · have own : sha = file.digest := (tracks file isFile).sound sha recorded
      left
      rw [own]
      exact remains_alike safe leaves remains (.inr ⟨file, isFile, rfl⟩)
        isDest.symm

variable {extra : Sha → Nat}

theorem safe_registerPlain (safe : Safe state)
    (accounts : Accounts state extra) (pulls : state.pull = some pull)
    (plain : pull.isFileset = false) (leaves : LeavesFiles state pull)
    (tracks : ∀ file ∈ pull.installed, Tracks file)
    (leaks : ∀ sha, Leaks state sha →
      Leaks { state.registerInstalledFiles setting pull.modelId
        pull.installed with pull := none } sha) :
    Safe { state.registerInstalledFiles setting pull.modelId
      pull.installed with pull := none } := by
  obtain ⟨distinct, -, -, -, unlinked⟩ := id leaves
  obtain ⟨middle, keptMiddle, atLeast, -⟩ :=
    kept_registerAll accounts.kept distinct fun file listed =>
      ⟨tracks file listed, finds_listModelFiles pull.modelId file⟩
  have spared : ∀ sha, Leaks state sha → 0 < middle sha := by
    intro sha leaking
    have before := (accounts.leaks_iff sha).mp leaking
    have more := atLeast sha
    omega
  have keys : ((state.supersededBy pull).map FileRow.key).Nodup :=
    (keyed_listModelFiles accounts.kept.keyed pull.modelId).sublist
      (List.Sublist.map _ filter_sublist)
  have guarded : Guarded (state.registerInstalledFiles setting pull.modelId
      pull.installed) pull.modelId (Remains state pull)
      (fun sha _ => Leaks state sha) := Guarded.dropAll setting
    (guarded_registerAll safe pulls leaves accounts.kept.sound tracks)
    keptMiddle spared keys (by
      intro row superseded
      refine ⟨superseded_mem_registerAll distinct superseded, ?_, ?_⟩
      · obtain ⟨isPrior, otherRel, role⟩ := mem_superseded.mp superseded
        obtain ⟨-, own⟩ := state.mem_listModelFiles.mp isPrior
        rintro (⟨-, kept⟩ | ⟨file, isFile, rfl⟩)
        · exact kept ⟨own, .inr ⟨plain, role⟩⟩
        · exact otherRel file isFile rfl
      · intro unused other remains
        rcases remains with ⟨listed, kept⟩ | ⟨file, isFile, rfl⟩
        · exact unlinked plain row superseded unused other listed kept
        · intro same
          rw [reused, any_eq_false] at unused
          exact unused file isFile (decide_eq_true same))
  refine ⟨?_, by simp, ?_, ?_⟩
  · intro row listed
    exact guarded.present row (row_of_registerPlain listed)
  · intro row isRow other isOther same
    exact guarded.alike row other (row_of_registerPlain isRow)
      (row_of_registerPlain isOther) same
  · intro row listed sha found
    rcases guarded.named row (row_of_registerPlain listed) sha found with
      own | leaking
    · exact .inl own
    · exact .inr (.inl (leaks sha leaking))

/-! ## Deletes and the collector -/

theorem Safe.guarded (safe : Safe state) (idle : state.pull = none)
    (sound : ∀ row ∈ state.files, Sound row.toInstalled) (modelId : ModelId) :
    Guarded state.toStore modelId (fun row => row ∈ state.files)
      (fun sha _ => Leaks state sha) where
  listed := fun _ listed => listed
  others := fun _ listed _ => listed
  present := safe.present
  sound := sound
  alike := fun row other isRow isOther => safe.alike row isRow other isOther
  named := fun _ listed _ found => safe.named_of_idle idle listed found

theorem Safe.of_guarded {store : Store} (modelId : ModelId)
    (guarded : Guarded store modelId (fun row => row ∈ store.files)
      (fun sha _ => Leaks state sha))
    (leaks : ∀ sha, Leaks state sha →
      Leaks { store with pull := none } sha) :
    Safe { store with pull := none } where
  present := guarded.present
  flying := by simp
  alike := fun row isRow other isOther =>
    guarded.alike row other isRow isOther
  named := by
    intro row listed sha found
    rcases guarded.named row listed sha found with own | leaking
    · exact .inl own
    · exact .inr (.inl (leaks sha leaking))

/-- Deleting takes no other model's file. -/
theorem safe_deleteModel (safe : Safe state) (accounts : Accounts state extra)
    (idle : state.pull = none) (modelId : ModelId) (deleteFiles : Bool)
    (refused : List Path)
    (leaks : ∀ sha, Leaks state sha →
      Leaks { state.deleteModel setting modelId deleteFiles
        refused with pull := none } sha) :
    Safe { state.deleteModel setting modelId deleteFiles
      refused with pull := none } := by
  let removed := state.removeModel modelId
  have whole := safe.guarded idle accounts.kept.sound modelId
  have remaining : Guarded removed modelId (fun row => row ∈ removed.files)
      (fun sha _ => Leaks state sha) := {
    listed := fun _ listed => listed
    others := fun _ listed _ => listed
    present := fun row listed =>
      whole.present row (mem_filter.mp listed).1
    sound := fun row listed => whole.sound row (mem_filter.mp listed).1
    alike := fun row other isRow isOther =>
      whole.alike row other (mem_filter.mp isRow).1
        (mem_filter.mp isOther).1
    named := fun row listed sha found =>
      whole.named row (mem_filter.mp listed).1 sha found }
  have cleared : Guarded (removed.clear (state.gone modelId deleteFiles
      refused)) modelId (fun row => row ∈ removed.files)
      (fun sha _ => Leaks state sha) := by
    refine remaining.of_same ?_ ?_ ?_ ?_
    · simp
    · simp
    · intro sha path found
      rwa [pathOf_clear] at found
    · intro row listed
      refine disk_clear _ fun entry isGone same => ?_
      have unowned := (mem_filter.mp isGone).2
      simp only [Bool.and_eq_true, Bool.not_eq_true', owned,
        any_eq_false] at unowned
      exact unowned.1.2 row listed (decide_eq_true same.symm)
  have enough : ∀ sha, removed.held sha + extra sha +
      given (state.planModelFiles modelId) sha ≤ state.refs sha := by
    intro sha
    have counted := accounts.kept.accounted sha
    have rows := state.held_removeModel modelId sha
    have planned := Nat.le_trans (state.given_planModelFiles modelId sha)
      (countP_recorded accounts.kept.sound modelId sha)
    change (state.removeModel modelId).held sha + _ + _ ≤ _
    omega
  have own : ∀ row, row ∈ removed.files →
      0 < removed.held row.digest + extra row.digest := by
    intro row listed
    have held : 0 < removed.held row.digest :=
      countP_pos_iff.mpr ⟨row, listed, by simp⟩
    omega
  have spared : ∀ sha, Leaks state sha → 0 < removed.held sha + extra sha := by
    intro sha leaking
    have before := (accounts.leaks_iff sha).mp leaking
    omega
  have unlinked := Guarded.releaseAll setting false own spared
    (state.gone modelId deleteFiles refused) cleared (fun sha => by
      have all := enough sha
      have parts := state.given_gone_add_left modelId deleteFiles refused sha
      rw [refs_clear]
      change _ ≤ state.refs sha
      omega)
  have released := Guarded.releaseAll setting true own spared
    (state.left modelId deleteFiles refused) unlinked (fun sha => by
      have all := enough sha
      have parts := state.given_gone_add_left modelId deleteFiles refused sha
      have refs : removed.refs sha = state.refs sha := rfl
      rw [refs_releaseAll, refs_clear, refs]
      omega)
  rw [← deleteModel_eq] at released
  refine Safe.of_guarded modelId ?_ leaks
  rw [files_deleteModel]
  exact released

theorem safe_pruneOrphans (safe : Safe state) (accounts : Accounts state extra)
    (idle : state.pull = none) (shas : List Sha)
    (leaks : ∀ sha, Leaks state sha →
      Leaks { state.pruneOrphans setting shas with pull := none } sha) :
    Safe { state.pruneOrphans setting shas with pull := none } := by
  have live : ∀ row ∈ state.files, 0 < state.refs row.digest :=
    fun row listed => accounts.kept.refs_pos listed
  have spared : ∀ sha, Leaks state sha → 0 < state.refs sha :=
    fun sha leaking => Nat.zero_lt_of_lt leaking
  have guarded := List.foldlRecOn (motive := fun current : Store =>
      Guarded current "" (fun row => row ∈ state.files)
        (fun sha _ => Leaks state sha) ∧
      ∀ sha, current.refs sha = state.refs sha)
    shas (fun current sha => current.pruneOrphan setting sha)
    ⟨safe.guarded idle accounts.kept.sound "", fun _ => rfl⟩ (by
      rintro current ⟨before, refs⟩ sha -
      refine ⟨?_, fun other => by rw [refs_pruneOrphan, refs]⟩
      refine before.of_same ?_ ?_ (fun _ _ => pathOf_of_pruneOrphan) ?_
      · rw [files_pruneOrphan]
        exact before.listed
      · rw [files_pruneOrphan]
        exact fun _ listed => listed
      · intro row listed
        rcases current.pruneOrphan_cases setting sha with
          same | ⟨blob, known, orphaned, pruned⟩
        · rw [same]
        · rw [pruned, disk_deleteBlob, disk_write, if_neg]
          intro isPath
          have none : state.refs sha = 0 := by
            rw [← refs]
            simp [Store.refs, known, orphaned]
          rcases before.named row listed sha
            (by simp [pathOf, known, isPath]) with own | leaking
          · have positive := live row listed
            rw [own] at positive
            omega
          · have positive := spared sha leaking
            omega)
  refine Safe.of_guarded "" ?_ leaks
  rw [files_pruneOrphans]
  exact guarded.1

/-- Nor does reconciling. -/
theorem safe_reconcile (safe : Safe state)
    (sound : ∀ row ∈ state.files, Sound row.toInstalled)
    (idle : state.pull = none) (paths : List Path)
    (leaks : ∀ sha, Leaks state sha →
      Leaks { state.reconcileStoreTree setting paths with pull := none } sha) :
    Safe { state.reconcileStoreTree setting paths with pull := none } := by
  have guarded := List.foldlRecOn (motive := fun current : Store =>
      Guarded current "" (fun row => row ∈ state.files)
        (fun sha _ => Leaks state sha))
    paths (fun current path => current.reap setting path)
    (safe.guarded idle sound "") (by
      intro current before path _
      refine before.of_same ?_ ?_ ?_ ?_
      · rw [files_reap]
        exact before.listed
      · rw [files_reap]
        exact fun _ listed => listed
      · intro sha other found
        rwa [pathOf_reap] at found
      · intro row listed
        rcases current.reap_cases setting path with same | ⟨untracked, reaped⟩
        · rw [same]
        · rw [reaped]
          refine current.disk_unlink setting fun same => ?_
          rw [tracked, Bool.or_eq_false_iff] at untracked
          have unowned := untracked.2
          rw [owned, any_eq_false] at unowned
          exact unowned row (before.listed row listed) (decide_eq_true same))
  refine Safe.of_guarded "" ?_ leaks
  rw [files_reconcileStoreTree]
  exact guarded

/-- Every step keeps the files. -/
theorem safe_moves (safe : Safe state) {later : Sha → Nat}
    (accounts : Accounts state extra) (sound : PullsSound state)
    {action : Action} (moves : Moves setting state action next)
    (leaves : KeepsFiles state action) (after : Accounts next later)
    (keeps : Keeps state next extra later) : Safe next := by
  have leaks : ∀ sha, Leaks state sha → Leaks next sha :=
    fun sha leaking => leaking.next accounts after keeps
  cases moves with
  | startPull modelId isFileset idle =>
    refine ⟨safe.present, ?_, safe.alike, ?_⟩
    · rintro _ isPull file listed
      obtain rfl := Option.some.inj isPull
      simp [Pull.files] at listed
    · intro row listed sha found
      rcases safe.named_of_idle idle listed found with own | leaking
      · exact .inl own
      · exact .inr (.inl (leaks sha leaking))
  | downloadPlain pull file bytes pulls plain =>
    refine safe.install pulls rfl (fun _ => rfl) rfl ?_ rfl ?_ leaks
    · intro other listed
      simp only [Pull.files, append_assoc, mem_append,
        mem_singleton] at listed ⊢
      rcases listed with before | rfl | waiting
      · exact .inl (.inl before)
      · exact .inr rfl
      · exact .inl (.inr waiting)
    · exact fun other listed => mem_append_left _ listed
  | downloadFileset pull file bytes pulls isFileset ready verified =>
    refine safe.install pulls rfl (fun _ => rfl) rfl ?_ rfl
      (fun _ listed => listed) leaks
    intro other listed
    simp only [Pull.files, ready, Option.toList_some, Option.toList_none,
      append_nil, mem_append, mem_singleton] at listed ⊢
    rcases listed with before | rfl
    · exact .inl before
    · exact .inr rfl
  | countBlob pull file pulls waits =>
    exact safe_countBlob safe pulls waits
      ((sound pull pulls).awaits file waits).2 leaks
  | hardlink pull file sha blob bytes pulls isFileset ready hasHash known
      present =>
      refine safe.install pulls rfl
        (pathOf_bumped (state.write file.dest (some bytes)) known _) rfl ?_ rfl
        (fun other listed => mem_append_left _ listed) leaks
      intro other listed
      simp only [Pull.files, ready, Option.toList_none, append_nil,
        mem_append, mem_singleton] at listed ⊢
      rcases listed with before | rfl
      · exact .inl before
      · exact .inr rfl
  | registerPlain pull pulls plain ready =>
    exact safe_registerPlain safe accounts pulls plain (leaves pull pulls)
      ((sound pull pulls).tracks plain) leaks
  | registerFileset pull pulls isFileset ready =>
    exact safe_registerFileset safe pulls isFileset (leaves pull pulls) leaks
  | stopPull pull pulls =>
    refine ⟨safe.present, by simp, safe.alike, ?_⟩
    intro row listed sha found
    rcases safe.named row listed sha found with
      own | leaking | ⟨other, isOther, isFileset, file, isFile, -, isSha⟩
    · exact .inl own
    · exact .inr (.inl (leaks sha leaking))
    · obtain rfl := Option.some.inj (pulls.symm.trans isOther)
      have covers := accounts.covers sha
      rw [State.taken_of_pull pulls, Pull.taken_of_fileset isFileset]
        at covers
      have counted : 0 < pull.installed.countP
          fun flown => flown.digest = sha :=
        countP_pos_iff.mpr ⟨file, isFile, by simp [isSha]⟩
      have refs := accounts.kept.accounted sha
      refine .inr (.inl ?_)
      change state.held sha + 0 < state.refs sha
      omega
  | deleteModel modelId deleteFiles refused idle =>
    exact safe_deleteModel safe accounts idle modelId deleteFiles refused
      leaks
  | pruneOrphans shas idle =>
    exact safe_pruneOrphans safe accounts idle shas leaks
  | reconcile paths idle =>
    exact safe_reconcile safe accounts.kept.sound idle paths leaks

end Steps

/-! ## Runs -/

theorem safe_empty : Safe empty where
  present := by
    intro row listed
    cases listed
  flying := by
    intro pull pulls
    cases pulls
  alike := by
    intro row listed
    cases listed
  named := by
    intro row listed
    cases listed

variable {setting : Setting} {actions : List Action} {state : State}

/-- They are kept in every run. -/
theorem safe_run (run : Run (step setting) KeepsFiles empty actions state) :
    Safe state := by
  have reached := run.invariant
    (fun current => PullsSound current ∧ Safe current ∧
      ∃ extra, Accounts current extra)
    ⟨pullsSound_empty, safe_empty, _, accounts_empty⟩ (by
      rintro current action next ⟨sound, safe, extra, accounts⟩ keeps moved
      have moves := moves_of_step moved
      obtain ⟨later, after, leaves, -⟩ :=
        accounts_moves accounts sound moves keeps.named
      exact ⟨pullsSound_moves sound moves,
        safe_moves safe accounts sound moves keeps after leaves, later,
        after⟩)
  exact reached.2.1

/-- Along the runs whose pulls leave each path to its content, the file of
every remaining row is on disk. -/
theorem files_kept (run : Run (step setting) KeepsFiles empty actions state) :
    ∀ row ∈ state.files, (state.disk row.dest).isSome :=
  (safe_run run).present

/-- A model whose content another one shares is pulled again at the same path
under another name, and both the other model and the orphans are removed. -/
def pulledUnderAnotherName : List Action :=
  [.startPull "first" false, .download (weights "w" "/s/w" none) [97],
    .register, .startPull "second" true,
    .hardlink (weights "w" "/s/v" (some "a")), .register,
    .startPull "first" false, .download (weights "q" "/s/w" none) [98],
    .register, .deleteModel "second" true [], .pruneOrphans ["a", "b"]]

/-- One file under two models. -/
theorem files_kept_renamed :
    ∃ state, Run (step spelled) KeepsFiles empty pulledUnderAnotherName state ∧
      (∀ row ∈ state.files, (state.disk row.dest).isSome) ∧
      state.files.map FileRow.key = [("first", "q")] := by
  obtain ⟨state, run, reached⟩ := Run.exists_of_exec (step spelled) KeepsFiles
    empty pulledUnderAnotherName
    (fun state => state.files.map FileRow.key = [("first", "q")])
    (by decide +kernel)
  exact ⟨state, run, files_kept run, of_decide_eq_true reached⟩

/-- A model which is pulled again with other bytes, and the orphans. -/
def changedAndPruned : List Action :=
  [.startPull "first" false, .download (weights "w" "/s/w" none) [97],
    .register, .startPull "first" false,
    .download (weights "w" "/s/w" none) [98], .register,
    .pruneOrphans ["a"]]

/-- The blob of the first bytes has no references and the path of the second
ones. -/
theorem files_of_changed_and_pruned :
    ∃ state, Run (step spelled) Anything empty changedAndPruned state ∧
      ∃ row ∈ state.files, row.key = ("first", "w") ∧
        state.disk row.dest = none := by
  obtain ⟨state, run, reached⟩ := Run.exists_of_exec (step spelled) Anything
    empty changedAndPruned
    (fun state => ∃ row ∈ state.files, row.key = ("first", "w") ∧
      state.disk row.dest = none)
    (by decide +kernel)
  exact ⟨state, run, of_decide_eq_true reached⟩

end Hal0.Registry.ModelStore
