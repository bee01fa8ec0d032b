import Hal0.Registry.StoreFacts

/-!
# The steps of the store

`Moves` lists what a step of the store can do, with what holds before it.
-/

namespace Hal0.Registry.ModelStore

open Option

/-- One step, with the branch which was taken. -/
inductive Moves (setting : Setting) (state : State) :
    Action → State → Prop where
  | startPull (modelId : ModelId) (isFileset : Bool)
      (idle : state.pull = none) :
      Moves setting state (.startPull modelId isFileset)
        { state with pull := some ⟨modelId, isFileset, [], none⟩ }
  | downloadPlain (pull : Pull) (file : Planned) (bytes : Bytes)
      (pulls : state.pull = some pull) (plain : pull.isFileset = false) :
      Moves setting state (.download file bytes)
        (installPlain setting state pull file bytes)
  | downloadFileset (pull : Pull) (file : Planned) (bytes : Bytes)
      (pulls : state.pull = some pull) (isFileset : pull.isFileset = true)
      (ready : pull.awaiting = none)
      (verified : file.lfs = none ∨ file.lfs = some (setting.hash bytes)) :
      Moves setting state (.download file bytes)
        (installFileset setting state pull file bytes)
  | countBlob (pull : Pull) (file : Installed)
      (pulls : state.pull = some pull) (waits : pull.awaiting = some file) :
      Moves setting state .countBlob
        { state.insertOrBump file.digest file.dest with
          pull := some { pull with
            installed := pull.installed ++ [file], awaiting := none } }
  | hardlink (pull : Pull) (file : Planned) (sha : Sha) (blob : Blob)
      (bytes : Bytes) (pulls : state.pull = some pull)
      (isFileset : pull.isFileset = true) (ready : pull.awaiting = none)
      (hasHash : file.lfs = some sha) (known : state.getBlob sha = some blob)
      (present : state.disk blob.blobPath = some bytes) :
      Moves setting state (.hardlink file)
        { (state.write file.dest (some bytes)).putBlob sha
            { blob with refcount := blob.refcount + 1 } with
          pull := some { pull with installed :=
            pull.installed ++ [file.installed (some sha) sha] } }
  | registerPlain (pull : Pull) (pulls : state.pull = some pull)
      (plain : pull.isFileset = false) (ready : pull.awaiting = none) :
      Moves setting state .register
        { state.registerInstalledFiles setting pull.modelId
            pull.installed with pull := none }
  | registerFileset (pull : Pull) (pulls : state.pull = some pull)
      (isFileset : pull.isFileset = true) (ready : pull.awaiting = none) :
      Moves setting state .register
        { state.registerPulledFileset pull.modelId pull.installed with
          pull := none }
  | stopPull (pull : Pull) (pulls : state.pull = some pull) :
      Moves setting state .stopPull { state with pull := none }
  | deleteModel (modelId : ModelId) (deleteFiles : Bool) (refused : List Path)
      (idle : state.pull = none) :
      Moves setting state (.deleteModel modelId deleteFiles refused)
        { state.deleteModel setting modelId deleteFiles refused with
          pull := none }
  | pruneOrphans (shas : List Sha) (idle : state.pull = none) :
      Moves setting state (.pruneOrphans shas)
        { state.pruneOrphans setting shas with pull := none }
  | reconcile (paths : List Path) (idle : state.pull = none) :
      Moves setting state (.reconcile paths)
        { state.reconcileStoreTree setting paths with pull := none }

variable {setting : Setting} {state next : State}

variable {pull : Pull}

theorem moves_download {file : Planned} {bytes : Bytes}
    (pulls : state.pull = some pull)
    (moved : download setting state pull file bytes = some next) :
    Moves setting state (.download file bytes) next := by
  unfold download at moved
  cases kind : pull.isFileset with
  | false =>
    rw [if_pos (by simp [kind])] at moved
    obtain rfl := some.inj moved
    exact .downloadPlain pull file bytes pulls kind
  | true =>
    rw [if_neg (by simp [kind])] at moved
    split at moved
    · next verified =>
        obtain rfl := some.inj moved
        exact .downloadFileset pull file bytes pulls kind verified.1
          verified.2
    · cases moved

theorem moves_hardlink {file : Planned} (pulls : state.pull = some pull)
    (moved : hardlink state pull file = some next) :
    Moves setting state (.hardlink file) next := by
  unfold hardlink at moved
  split at moved
  · cases moved
  · next sha hasHash =>
      split at moved
      · cases moved
      · next blob known =>
          split at moved
          · cases moved
          · next bytes present =>
              split at moved
              · next ready =>
                  obtain rfl := some.inj moved
                  exact .hardlink pull file sha blob bytes pulls ready.1
                    ready.2 hasHash known present
              · cases moved

theorem moves_register (pulls : state.pull = some pull)
    (moved : register setting state pull = some next) :
    Moves setting state .register next := by
  unfold register at moved
  split at moved
  · next ready =>
      obtain rfl := some.inj moved
      cases kind : pull.isFileset with
      | false => exact .registerPlain pull pulls kind ready.1
      | true => exact .registerFileset pull pulls kind ready.1
  · cases moved

/-- What one step can do. -/
theorem moves_of_step {action : Action}
    (moved : step setting state action = some next) :
    Moves setting state action next := by
  cases action with
  | startPull modelId isFileset =>
    cases idle : state.pull with
    | none =>
      simp only [step, idle, some.injEq] at moved
      obtain rfl := moved
      exact .startPull modelId isFileset idle
    | some pull => simp [step, idle] at moved
  | download file bytes =>
    obtain ⟨pull, pulls, moved⟩ := bind_eq_some_iff.mp moved
    exact moves_download pulls moved
  | countBlob =>
    obtain ⟨pull, pulls, moved⟩ := bind_eq_some_iff.mp moved
    unfold countBlob at moved
    split at moved
    · cases moved
    · next file waits =>
        obtain rfl := some.inj moved
        exact .countBlob pull file pulls waits
  | hardlink file =>
    obtain ⟨pull, pulls, moved⟩ := bind_eq_some_iff.mp moved
    exact moves_hardlink pulls moved
  | register =>
    obtain ⟨pull, pulls, moved⟩ := bind_eq_some_iff.mp moved
    exact moves_register pulls moved
  | stopPull =>
    obtain ⟨pull, pulls, rfl⟩ := map_eq_some_iff.mp moved
    exact .stopPull pull pulls
  | deleteModel modelId deleteFiles refused =>
    cases idle : state.pull with
    | none =>
      simp only [step, idle, some.injEq] at moved
      obtain rfl := moved
      exact .deleteModel modelId deleteFiles refused idle
    | some pull => simp [step, idle] at moved
  | pruneOrphans shas =>
    cases idle : state.pull with
    | none =>
      simp only [step, idle, some.injEq] at moved
      obtain rfl := moved
      exact .pruneOrphans shas idle
    | some pull => simp [step, idle] at moved
  | reconcile paths =>
    cases idle : state.pull with
    | none =>
      simp only [step, idle, some.injEq] at moved
      obtain rfl := moved
      exact .reconcile paths idle
    | some pull => simp [step, idle] at moved

/-! ## The hashes of a pull -/

open Store

/-- The hashes of a pull are those of the contents it counts. -/
structure PullSound (pull : Pull) : Prop where
  sound : ∀ file ∈ pull.installed, Sound file
  tracks : pull.isFileset = false → ∀ file ∈ pull.installed, Tracks file
  awaits : ∀ file, pull.awaiting = some file →
    Sound file ∧ pull.isFileset = true

/-- The running pull is sound. -/
def PullsSound (state : State) : Prop :=
  ∀ pull, state.pull = some pull → PullSound pull

theorem PullSound.start (modelId : ModelId) (isFileset : Bool) :
    PullSound ⟨modelId, isFileset, [], none⟩ where
  sound := by simp
  tracks := by simp
  awaits := by simp

theorem PullSound.append (sound : PullSound pull) {file : Installed}
    (tracks : Tracks file) :
    PullSound { pull with installed := pull.installed ++ [file] } where
  sound := by
    intro other listed
    rcases List.mem_append.mp listed with old | isNew
    · exact sound.sound other old
    · rw [List.mem_singleton.mp isNew]
      exact tracks.sound
  tracks := by
    intro plain other listed
    rcases List.mem_append.mp listed with old | isNew
    · exact sound.tracks plain other old
    · rw [List.mem_singleton.mp isNew]
      exact tracks
  awaits := sound.awaits

theorem PullSound.await (sound : PullSound pull)
    (isFileset : pull.isFileset = true) {file : Planned} {digest : Sha}
    (verified : file.lfs = none ∨ file.lfs = some digest) :
    PullSound { pull with
      awaiting := some (file.installed file.lfs digest) } where
  sound := sound.sound
  tracks := sound.tracks
  awaits := by
    rintro _ isFile
    obtain rfl := some.inj isFile
    refine ⟨?_, isFileset⟩
    intro sha recorded
    have planned : file.lfs = some sha := recorded
    rcases verified with missing | expected
    · rw [missing] at planned
      cases planned
    · rw [expected] at planned
      exact (some.inj planned).symm

theorem PullSound.count (sound : PullSound pull) {file : Installed}
    (waits : pull.awaiting = some file) :
    PullSound { pull with
      installed := pull.installed ++ [file], awaiting := none } where
  sound := by
    intro other listed
    rcases List.mem_append.mp listed with old | isNew
    · exact sound.sound other old
    · rw [List.mem_singleton.mp isNew]
      exact (sound.awaits file waits).1
  tracks := by
    intro plain
    have isFileset := (sound.awaits file waits).2
    rw [show pull.isFileset = false from plain] at isFileset
    cases isFileset
  awaits := by simp

theorem pullsSound_empty : PullsSound empty := by
  intro pull pulls
  cases pulls

/-- Every step keeps the pull sound. -/
theorem pullsSound_moves (sound : PullsSound state) {action : Action}
    (moves : Moves setting state action next) : PullsSound next := by
  intro after isAfter
  cases moves with
  | startPull modelId isFileset idle =>
    obtain rfl := some.inj isAfter
    exact .start modelId isFileset
  | downloadPlain pull file bytes pulls plain =>
    obtain rfl := some.inj isAfter
    exact (sound pull pulls).append rfl
  | downloadFileset pull file bytes pulls isFileset ready verified =>
    obtain rfl := some.inj isAfter
    exact (sound pull pulls).await isFileset verified
  | countBlob pull file pulls waits =>
    obtain rfl := some.inj isAfter
    exact (sound pull pulls).count waits
  | hardlink pull file sha blob bytes pulls isFileset ready hasHash known
      present =>
      obtain rfl := some.inj isAfter
      exact (sound pull pulls).append rfl
  | registerPlain | registerFileset | stopPull | deleteModel | pruneOrphans
  | reconcile => cases isAfter

/-! ## Files in flight -/

/-- The files of a pull so far. -/
def Pull.files (pull : Pull) : List Installed :=
  pull.installed ++ pull.awaiting.toList

/-- Registering the pull removes the row, or writes it anew. -/
def Pull.Replaces (pull : Pull) (row : FileRow) : Prop :=
  row.modelId = pull.modelId ∧
    ((∃ file ∈ pull.installed, file.rel = row.rel) ∨
      (pull.isFileset = false ∧ (row.role = .model ∨ row.role = .shard)))

instance (pull : Pull) (row : FileRow) : Decidable (pull.Replaces row) :=
  inferInstanceAs (Decidable (_ ∧ _))

theorem Pull.files_of_ready (ready : pull.awaiting = none) :
    pull.files = pull.installed := by
  simp [Pull.files, ready]

theorem row_of_registerPlain {store : Store} {row : FileRow}
    (listed : row ∈ (store.registerInstalledFiles setting pull.modelId
      pull.installed).files) :
    (row ∈ store.files ∧ ¬ pull.Replaces row) ∨
      ∃ file ∈ pull.installed, row = file.row pull.modelId := by
  rw [registerInstalledFiles_eq, mem_dropAll] at listed
  obtain ⟨registered, notGone⟩ := listed
  rcases of_mem_registerAll registered with ⟨old, notFile⟩ | isFile
  · refine .inl ⟨old, ?_⟩
    rintro ⟨own, ⟨file, isFile, sameRel⟩ | ⟨-, role⟩⟩
    · exact notFile file isFile (Prod.ext own sameRel.symm)
    · refine notGone row (mem_superseded.mpr ⟨?_, ?_, role⟩) rfl
      · exact store.mem_listModelFiles.mpr ⟨old, own⟩
      · intro file isFile sameRel
        exact notFile file isFile (Prod.ext own sameRel.symm)
  · exact .inr isFile

theorem row_of_registerFileset {store : Store}
    (isFileset : pull.isFileset = true) {row : FileRow}
    (listed : row ∈ (store.registerPulledFileset pull.modelId
      pull.installed).files) :
    (row ∈ store.files ∧ ¬ pull.Replaces row) ∨
      ∃ file ∈ pull.installed, row = file.row pull.modelId := by
  rcases of_mem_registerPulledFileset listed with ⟨old, notFile⟩ | isFile
  · refine .inl ⟨old, ?_⟩
    rintro ⟨own, ⟨file, isFile, sameRel⟩ | ⟨plain, -⟩⟩
    · exact notFile file isFile (Prod.ext own sameRel.symm)
    · rw [isFileset] at plain
      cases plain
  · exact .inr isFile

/-! ## A store for examples -/

def spelled : Setting where
  hash bytes := String.ofList (bytes.map Char.ofUInt8)
  underStore _ := true

theorem spelled_injective : Function.Injective spelled.hash := by
  intro left right same
  refine List.map_injective_iff.mpr ?_ (String.ofList_injective same)
  intro first second equal
  have values : first.toUInt32 = second.toUInt32 := congrArg Char.val equal
  have numbers : first.toUInt32.toNat = second.toUInt32.toNat := by rw [values]
  exact UInt8.toNat_inj.mp (by simpa using numbers)

def weights (rel : String) (dest : Path) (lfs : Option Sha) : Planned :=
  ⟨rel, dest, .model, none, lfs⟩

end Hal0.Registry.ModelStore
