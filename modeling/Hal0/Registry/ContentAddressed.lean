import Hal0.Registry.StorePaths
import Hal0.Registry.StoreSteps

/-!
# What the path of a blob shows

A blob's path is a live path of an installed file, and a file which is linked
from it is never hashed again.  `KeepsContents` says which steps leave alone
what the blobs and the rows say: nothing is installed over a blob or a file in
flight of other bytes, and rows whose file has been replaced are written anew.
Along such runs every path of a blob has the bytes of its hash.
-/

namespace Hal0.Registry.ModelStore

open Option
open Hal0.Transition
open Store

/-! ## Contents -/

/-- What is at the path, if anything is, has the hash. -/
def Shows (setting : Setting) (store : Store) (path : Path) (sha : Sha) :
    Prop :=
  ∀ bytes, store.disk path = some bytes → setting.hash bytes = sha

theorem Shows.of_disk {setting : Setting} {store other : Store} {path : Path}
    {sha : Sha} (shows : Shows setting store path sha)
    (before : ∀ {path : Path} {bytes : Bytes}, other.disk path = some bytes →
      store.disk path = some bytes) : Shows setting other path sha :=
  fun bytes present => shows bytes (before present)

/-- A file of a pull agrees with what the row records for its path. -/
def Agrees (file : Installed) (row : FileRow) : Prop :=
  row.dest = file.dest →
    row.sha256 = none ∨ row.sha256 = some file.digest

instance (file : Installed) (row : FileRow) : Decidable (Agrees file row) :=
  inferInstanceAs (Decidable (_ → _))

/-- The blobs and the files in flight at the path have the content. -/
def Fits (state : State) (dest : Path) (digest : Sha) : Prop :=
  (∀ entry ∈ state.blobs.entries,
    entry.2.blobPath = dest → entry.1 = digest) ∧
  ∀ pull ∈ state.pull, ∀ file ∈ pull.files,
    file.dest = dest → file.digest = digest

instance (state : State) (dest : Path) (digest : Sha) :
    Decidable (Fits state dest digest) :=
  inferInstanceAs (Decidable (_ ∧ _))

/-- A file is installed only where the blobs and the files in flight have its
content; and when a pull ends, a row of an installed path which it does not
write anew records the installed content, or none. -/
def KeepsContents (setting : Setting) (state : State) (action : Action) :
    Prop :=
  match action with
  | .download file bytes => Fits state file.dest (setting.hash bytes)
  | .hardlink file => ∀ sha ∈ file.lfs, Fits state file.dest sha
  | .register => ∀ pull ∈ state.pull, ∀ file ∈ pull.installed,
      ∀ row ∈ state.files, ¬ pull.Replaces row → Agrees file row
  | .stopPull => ∀ pull ∈ state.pull, ∀ file ∈ pull.files,
      ∀ row ∈ state.files, Agrees file row
  | _ => True

instance (setting : Setting) (state : State) (action : Action) :
    Decidable (KeepsContents setting state action) :=
  match action with
  | .download file bytes => inferInstanceAs
      (Decidable (Fits state file.dest (setting.hash bytes)))
  | .hardlink file => inferInstanceAs
      (Decidable (∀ sha ∈ file.lfs, Fits state file.dest sha))
  | .register => inferInstanceAs
      (Decidable (∀ pull ∈ state.pull, ∀ file ∈ pull.installed,
        ∀ row ∈ state.files, ¬ pull.Replaces row → Agrees file row))
  | .stopPull => inferInstanceAs
      (Decidable (∀ pull ∈ state.pull, ∀ file ∈ pull.files,
        ∀ row ∈ state.files, Agrees file row))
  | .startPull .. | .countBlob | .deleteModel .. | .pruneOrphans ..
  | .reconcile .. => inferInstanceAs (Decidable True)

theorem Fits.digest {state : State} {dest : Path} {digest : Sha}
    (fits : Fits state dest digest) {sha : Sha}
    (found : state.pathOf sha = some dest) : sha = digest := by
  obtain ⟨entry, listed, rfl, isDest⟩ := entry_of_pathOf found
  exact fits.1 entry listed isDest

/-! ## The invariant -/

/-- The blobs, the files in flight and the rows say what is on disk, apart from
rows whose path the pull in flight has written. -/
structure Faithful (setting : Setting) (state : State) : Prop where
  addressed : ∀ sha path, state.pathOf sha = some path →
    Shows setting state.toStore path sha
  flying : ∀ pull, state.pull = some pull → ∀ file ∈ pull.files,
    Shows setting state.toStore file.dest file.digest
  rows : ∀ row ∈ state.files, ∀ sha, row.sha256 = some sha →
    Shows setting state.toStore row.dest sha ∨
      ∃ pull, state.pull = some pull ∧
        ∃ file ∈ pull.files, file.dest = row.dest

section Steps

variable {setting : Setting} {state : State}

theorem Faithful.row_of_idle (faithful : Faithful setting state)
    (idle : state.pull = none) {row : FileRow} (listed : row ∈ state.files)
    {sha : Sha} (recorded : row.sha256 = some sha) :
    Shows setting state.toStore row.dest sha := by
  rcases faithful.rows row listed sha recorded with shows | ⟨pull, pulls, -⟩
  · exact shows
  · rw [idle] at pulls
    cases pulls

variable {pull : Pull}

section

variable (faithful : Faithful setting state)
include faithful

theorem Faithful.row_of_agrees (pulls : state.pull = some pull) {row : FileRow}
    (listed : row ∈ state.files)
    (agrees : ∀ file ∈ pull.files, Agrees file row) {sha : Sha}
    (recorded : row.sha256 = some sha) :
    Shows setting state.toStore row.dest sha := by
  rcases faithful.rows row listed sha recorded with
    shows | ⟨other, isOther, file, isFile, sameDest⟩
  · exact shows
  · obtain rfl := some.inj (pulls.symm.trans isOther)
    have shows := faithful.flying pull pulls file isFile
    rcases agrees file isFile sameDest.symm with missing | same
    · rw [missing] at recorded
      cases recorded
    · rw [recorded] at same
      rwa [some.inj same, ← sameDest]

theorem Faithful.of_idle (idle : state.pull = none) {store : Store}
    (modelId : ModelId) (files : ∀ row ∈ store.files, row ∈ state.files)
    (disk : ∀ {path : Path} {bytes : Bytes}, store.disk path = some bytes →
      state.disk path = some bytes)
    (paths : ∀ sha path, store.pathOf sha = some path →
      state.pathOf sha = some path ∨ state.Referent modelId sha path) :
    Faithful setting { store with pull := none } where
  addressed := by
    intro sha path found
    rcases paths sha path found with before | ⟨row, listed, recorded, -, rfl⟩
    · exact (faithful.addressed sha path before).of_disk disk
    · exact (faithful.row_of_idle idle listed recorded).of_disk disk
  flying := by simp
  rows := by
    intro row listed sha recorded
    exact .inl ((faithful.row_of_idle idle (files row listed)
      recorded).of_disk disk)

section

variable (pulls : state.pull = some pull)
include pulls

/-- A file is stored under its digest. -/
theorem Faithful.install (file : Installed) {bytes : Bytes}
    (hashed : setting.hash bytes = file.digest)
    (fits : Fits state file.dest file.digest) {after : Pull} {store : Store}
    (disk : store.disk = (state.write file.dest (some bytes)).disk)
    (paths : ∀ sha, store.pathOf sha = state.pathOf sha)
    (files : store.files = state.files)
    (members : after.files = pull.files ++ [file]) :
    Faithful setting { store with pull := some after } := by
  have new : ∀ sha, sha = file.digest →
      Shows setting store file.dest sha := by
    intro sha same written present
    rw [disk, disk_write, if_pos rfl] at present
    rw [← some.inj present, hashed, same]
  have old : ∀ path sha, path ≠ file.dest →
      Shows setting state.toStore path sha → Shows setting store path sha := by
    intro path sha differ shows written present
    rw [disk, disk_write, if_neg differ] at present
    exact shows written present
  refine ⟨?_, ?_, ?_⟩
  · intro sha path found
    have before : state.pathOf sha = some path := (paths sha).symm.trans found
    by_cases same : path = file.dest
    · subst same
      exact new sha (fits.digest before)
    · exact old path sha same (faithful.addressed sha path before)
  · rintro _ isAfter other listed
    obtain rfl := some.inj isAfter
    rw [members] at listed
    rcases List.mem_append.mp listed with before | isNew
    · by_cases same : other.dest = file.dest
      · rw [same]
        exact new _ (fits.2 pull pulls other before same)
      · exact old _ _ same (faithful.flying pull pulls other before)
    · rw [List.mem_singleton.mp isNew]
      exact new _ rfl
  · intro row listed sha recorded
    have before : row ∈ state.files := by
      rw [← files]
      exact listed
    by_cases same : row.dest = file.dest
    · exact .inr ⟨after, rfl, file, by simp [members], same.symm⟩
    · rcases faithful.rows row before sha recorded with
        shows | ⟨other, isOther, flown, isFlown, sameDest⟩
      · exact .inl (old _ _ same shows)
      · obtain rfl := some.inj (pulls.symm.trans isOther)
        exact .inr ⟨after, rfl, flown, by simp [members, isFlown], sameDest⟩

theorem faithful_countBlob {file : Installed}
    (waits : pull.awaiting = some file) :
    Faithful setting { state.insertOrBump file.digest file.dest with
      pull := some { pull with
        installed := pull.installed ++ [file], awaiting := none } } := by
  have members : Pull.files { pull with
      installed := pull.installed ++ [file], awaiting := none } =
      pull.files := by
    simp [Pull.files, waits]
  have disk : ∀ {path : Path} {bytes : Bytes},
      (state.insertOrBump file.digest file.dest).disk path = some bytes →
        state.disk path = some bytes := by
    intro path bytes present
    rwa [disk_insertOrBump] at present
  refine ⟨?_, ?_, ?_⟩
  · intro sha path found
    rcases pathOf_of_insertOrBump found with before | ⟨rfl, rfl⟩
    · exact (faithful.addressed sha path before).of_disk disk
    · have isFile : file ∈ pull.files := by simp [Pull.files, waits]
      exact (faithful.flying pull pulls file isFile).of_disk disk
  · rintro _ isAfter other listed
    obtain rfl := some.inj isAfter
    rw [members] at listed
    exact (faithful.flying pull pulls other listed).of_disk disk
  · intro row listed sha recorded
    have before : row ∈ state.files := by
      rwa [← files_insertOrBump state.toStore file.digest file.dest]
    rcases faithful.rows row before sha recorded with
      shows | ⟨other, isOther, flown, isFlown, sameDest⟩
    · exact .inl (shows.of_disk disk)
    · obtain rfl := some.inj (pulls.symm.trans isOther)
      exact .inr ⟨_, rfl, flown, members.symm ▸ isFlown, sameDest⟩

theorem faithful_registerPlain (sound : ∀ file ∈ pull.installed, Sound file)
    (ready : pull.awaiting = none)
    (agrees : ∀ file ∈ pull.installed, ∀ row ∈ state.files,
      ¬ pull.Replaces row → Agrees file row) :
    Faithful setting { state.registerInstalledFiles setting pull.modelId
      pull.installed with pull := none } := by
  have disk : ∀ {path : Path} {bytes : Bytes},
      (state.registerInstalledFiles setting pull.modelId pull.installed).disk
        path = some bytes → state.disk path = some bytes := by
    intro path bytes present
    rw [registerInstalledFiles_eq] at present
    have registered := disk_of_dropAll _ present
    rwa [disk_registerAll] at registered
  have installed : ∀ file ∈ pull.installed, ∀ sha, file.sha256 = some sha →
      Shows setting state.toStore file.dest sha := by
    intro file isFile sha recorded
    rw [sound file isFile sha recorded]
    exact faithful.flying pull pulls file (List.mem_append_left _ isFile)
  have left : ∀ row ∈ state.files, ¬ pull.Replaces row → ∀ sha,
      row.sha256 = some sha → Shows setting state.toStore row.dest sha := by
    intro row listed kept sha recorded
    refine faithful.row_of_agrees pulls listed (fun file isFile => ?_) recorded
    rw [Pull.files_of_ready ready] at isFile
    exact agrees file isFile row listed kept
  refine ⟨?_, by simp, ?_⟩
  · intro sha path found
    have shows : Shows setting state.toStore path sha := by
      rcases pathOf_of_dropAll _ found with
        registered | ⟨row, listed, recorded, apart, rfl⟩
      · rcases pathOf_of_registerAll _ registered with
          before | ⟨file, isFile, recorded, rfl⟩
        · exact faithful.addressed sha path before
        · exact installed file isFile sha recorded
      · rcases of_mem_registerAll listed with ⟨old, -⟩ | ⟨file, -, rfl⟩
        · exact left row old (fun replaced => apart replaced.1) sha recorded
        · exact absurd rfl apart
    exact shows.of_disk disk
  · intro row listed sha recorded
    left
    rcases row_of_registerPlain listed with ⟨old, kept⟩ | ⟨file, isFile, rfl⟩
    · exact (left row old kept sha recorded).of_disk disk
    · exact (installed file isFile sha recorded).of_disk disk

theorem faithful_registerFileset (isFileset : pull.isFileset = true)
    (sound : ∀ file ∈ pull.installed, Sound file)
    (ready : pull.awaiting = none)
    (agrees : ∀ file ∈ pull.installed, ∀ row ∈ state.files,
      ¬ pull.Replaces row → Agrees file row) :
    Faithful setting { state.registerPulledFileset pull.modelId
      pull.installed with pull := none } := by
  have disk : ∀ {path : Path} {bytes : Bytes},
      (state.registerPulledFileset pull.modelId pull.installed).disk path =
        some bytes → state.disk path = some bytes := by
    intro path bytes present
    rwa [disk_registerPulledFileset] at present
  refine ⟨?_, by simp, ?_⟩
  · intro sha path found
    change (state.registerPulledFileset pull.modelId
      pull.installed).pathOf sha = some path at found
    rw [pathOf_registerPulledFileset] at found
    exact (faithful.addressed sha path found).of_disk disk
  · intro row listed sha recorded
    left
    rcases row_of_registerFileset isFileset listed with
      ⟨old, kept⟩ | ⟨file, isFile, rfl⟩
    · refine (faithful.row_of_agrees pulls old (fun file isFile => ?_)
        recorded).of_disk disk
      rw [Pull.files_of_ready ready] at isFile
      exact agrees file isFile row old kept
    · have own : sha = file.digest := sound file isFile sha recorded
      rw [own]
      exact (faithful.flying pull pulls file
        (List.mem_append_left _ isFile)).of_disk disk

theorem faithful_stopPull
    (agrees : ∀ file ∈ pull.files, ∀ row ∈ state.files, Agrees file row) :
    Faithful setting { state with pull := none } where
  addressed := faithful.addressed
  flying := by simp
  rows := by
    intro row listed sha recorded
    exact .inl (faithful.row_of_agrees pulls listed
      (fun file isFile => agrees file isFile row listed) recorded)

end

/-- Every step keeps blobs under their digests. -/
theorem faithful_moves (sound : PullsSound state) {action : Action}
    {next : State} (moves : Moves setting state action next)
    (keeps : KeepsContents setting state action) : Faithful setting next := by
  cases moves with
  | startPull modelId isFileset idle =>
    refine ⟨faithful.addressed, ?_, ?_⟩
    · rintro _ isPull file listed
      obtain rfl := some.inj isPull
      simp [Pull.files] at listed
    · intro row listed sha recorded
      exact .inl (faithful.row_of_idle idle listed recorded)
  | downloadPlain pull file bytes pulls plain =>
    have ready : pull.awaiting = none := by
      cases waits : pull.awaiting with
      | none => rfl
      | some waiting =>
        have isFileset := ((sound pull pulls).awaits waiting waits).2
        rw [plain] at isFileset
        cases isFileset
    exact faithful.install pulls
      (file.installed (some (setting.hash bytes)) (setting.hash bytes)) rfl
      keeps rfl (fun _ => rfl) rfl (by simp [Pull.files, ready])
  | downloadFileset pull file bytes pulls isFileset ready verified =>
    exact faithful.install pulls
      (file.installed file.lfs (setting.hash bytes)) rfl keeps rfl
      (fun _ => rfl) rfl (by simp [Pull.files, ready])
  | countBlob pull file pulls waits =>
    exact faithful_countBlob faithful pulls waits
  | hardlink pull file sha blob bytes pulls isFileset ready hasHash known
      present =>
      have addressed : setting.hash bytes = sha :=
        faithful.addressed sha blob.blobPath (by simp [pathOf, known]) bytes
          present
      exact faithful.install pulls (file.installed (some sha) sha) addressed
        (keeps sha hasHash) rfl
        (pathOf_bumped (state.write file.dest (some bytes)) known _) rfl
        (by simp [Pull.files, ready])
  | registerPlain pull pulls plain ready =>
    exact faithful_registerPlain faithful pulls (sound pull pulls).sound
      ready (keeps pull pulls)
  | registerFileset pull pulls isFileset ready =>
    exact faithful_registerFileset faithful pulls isFileset
      (sound pull pulls).sound ready (keeps pull pulls)
  | stopPull pull pulls =>
    exact faithful_stopPull faithful pulls (keeps pull pulls)
  | deleteModel modelId deleteFiles refused idle =>
    refine faithful.of_idle idle modelId ?_ disk_of_deleteModel
      (fun sha path found => pathOf_of_deleteModel found)
    intro row listed
    rw [files_deleteModel] at listed
    exact (List.mem_filter.mp listed).1
  | pruneOrphans shas idle =>
    refine faithful.of_idle idle "" ?_ (disk_of_pruneOrphans shas)
      (fun sha path found => .inl (pathOf_of_pruneOrphans shas found))
    intro row listed
    rwa [files_pruneOrphans] at listed
  | reconcile paths idle =>
    refine faithful.of_idle idle "" ?_ (disk_of_reconcileStoreTree paths) ?_
    · intro row listed
      rwa [files_reconcileStoreTree] at listed
    · intro sha path found
      rw [pathOf_reconcileStoreTree] at found
      exact .inl found

end

end Steps

/-! ## Runs -/

theorem faithful_empty (setting : Setting) : Faithful setting empty where
  addressed := by
    intro sha path found
    cases found
  flying := by
    intro pull pulls
    cases pulls
  rows := by
    intro row listed
    cases listed

variable {setting : Setting} {actions : List Action} {state : State}

theorem faithful_run
    (run : Run (step setting) (KeepsContents setting) empty actions state) :
    Faithful setting state := by
  have reached := run.invariant
    (fun current => PullsSound current ∧ Faithful setting current)
    ⟨pullsSound_empty, faithful_empty setting⟩ (by
      rintro current action next ⟨sound, faithful⟩ keeps moved
      have moves := moves_of_step moved
      exact ⟨pullsSound_moves sound moves,
        faithful_moves faithful sound moves keeps⟩)
  exact reached.2

/-- Along the runs whose steps keep the contents, a blob whose path is a file
has the bytes of its hash, and a file which is linked from a blob has exactly
the bytes which the hash names. -/
theorem content_addressed (injective : Function.Injective setting.hash)
    (run : Run (step setting) (KeepsContents setting) empty actions state) :
    (∀ sha blob bytes, state.getBlob sha = some blob →
      state.disk blob.blobPath = some bytes → setting.hash bytes = sha) ∧
    ∀ file next, step setting state (.hardlink file) = some next →
      ∀ sha original, file.lfs = some sha → setting.hash original = sha →
        next.disk file.dest = some original := by
  have faithful := faithful_run run
  have addressed : ∀ sha blob bytes, state.getBlob sha = some blob →
      state.disk blob.blobPath = some bytes → setting.hash bytes = sha := by
    intro sha blob bytes known present
    exact faithful.addressed sha blob.blobPath (by simp [pathOf, known]) bytes
      present
  refine ⟨addressed, ?_⟩
  intro file next moved sha original planned named
  cases moves_of_step moved with
  | hardlink pull file other blob bytes pulls isFileset ready hasHash known
      present =>
      obtain rfl := some.inj (hasHash.symm.trans planned)
      have same : bytes = original :=
        injective ((addressed other blob bytes known present).trans
          named.symm)
      change (state.write file.dest (some bytes)).disk file.dest = _
      rw [disk_write, if_pos rfl, same]

/-- The store whose hash spells the bytes, after a plain pull and a file set
which links the content of it. -/
def pulledAndShared : List Action :=
  [.startPull "first" false, .download (weights "w" "/s/w" none) [97],
    .register, .startPull "second" true,
    .hardlink (weights "w" "/s/v" (some "a")), .register,
    .startPull "third" true]

/-- Two models share one blob. -/
theorem content_addressed_shared :
    ∃ state, Run (step spelled) (KeepsContents spelled) empty pulledAndShared
        state ∧
      ∃ next, step spelled state (.hardlink (weights "w" "/s/u" (some "a"))) =
        some next ∧ next.disk "/s/u" = some [97] := by
  obtain ⟨state, run, reached⟩ := Run.exists_of_exec (step spelled)
    (KeepsContents spelled) empty pulledAndShared
    (fun state => (step spelled state
      (.hardlink (weights "w" "/s/u" (some "a")))).isSome)
    (by decide +kernel)
  obtain ⟨next, moved⟩ := isSome_iff_exists.mp reached
  refine ⟨state, run, next, moved, ?_⟩
  exact (content_addressed spelled_injective run).2
    (weights "w" "/s/u" (some "a")) next moved "a" [97] rfl
    (by decide +kernel)

/-- A model which is pulled again with other bytes, and a file set which links
the content it had before. -/
def changedInPlace : List Action :=
  [.startPull "first" false, .download (weights "w" "/s/w" none) [97],
    .register, .startPull "first" false,
    .download (weights "w" "/s/w" none) [98], .register,
    .startPull "second" true, .hardlink (weights "w" "/s/v" (some "a")),
    .register]

/-- The blob keeps the path, which has the new bytes, and so has the link. -/
theorem blob_of_changed_in_place :
    ∃ state, Run (step spelled) Anything empty changedInPlace state ∧
      ∃ blob, state.getBlob "a" = some blob ∧
        state.disk blob.blobPath = some [98] ∧ spelled.hash [98] ≠ "a" ∧
        state.disk "/s/v" = some [98] := by
  obtain ⟨state, run, reached⟩ := Run.exists_of_exec (step spelled) Anything
    empty changedInPlace
    (fun state => state.getBlob "a" = some ⟨"/s/w", 1⟩ ∧
      state.disk "/s/w" = some [98] ∧ spelled.hash [98] ≠ "a" ∧
        state.disk "/s/v" = some [98])
    (by decide +kernel)
  obtain ⟨known, present, other, linked⟩ := of_decide_eq_true reached
  exact ⟨state, run, _, known, present, other, linked⟩

end Hal0.Registry.ModelStore
