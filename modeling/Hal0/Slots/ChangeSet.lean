import Hal0.Slots.ConfigDirectory

/-!
# Committing and reverting a change set

A change set has a snapshot of each file before and after.  `commit` writes
the files whose snapshots differ, one after the other; when a write raises it
writes the snapshots of the files already written back, the last one first.
`revert` writes all snapshots from before back, from the first to the last.

A file may stand in a change set more than once.  Its snapshots from before
are all the same then, so that the order of the restores does not matter; but
an entry which changes nothing is not written over an earlier one which does.
-/

namespace Hal0.Slots.ChangeSets

open Function List

variable {Path Data : Type} [DecidableEq Path]

/-- The files; `none` is no file. -/
abbrev Disk (Path Data : Type) := Path → Option Data

/-- A file and its data, or none. -/
structure FileState (Path Data : Type) where
  path : Path
  data : Option Data
deriving DecidableEq

/-- The snapshots are of the same files, in the same order. -/
structure ChangeSet (Path Data : Type) where
  before : List (FileState Path Data)
  after : List (FileState Path Data)
  parallel : before.map FileState.path = after.map FileState.path

abbrev Entry (Path Data : Type) := FileState Path Data × FileState Path Data

/-- Each file before and after. -/
def ChangeSet.entries (changes : ChangeSet Path Data) :
    List (Entry Path Data) :=
  changes.before.zip changes.after

/-- `_write_state` -/
def writeState (disk : Disk Path Data) (state : FileState Path Data) :
    Disk Path Data :=
  update disk state.path state.data

/-- The files written in order. -/
def writeStates (disk : Disk Path Data)
    (states : List (FileState Path Data)) : Disk Path Data :=
  states.foldl writeState disk

/--
The loop of `commit` from a position on; `written` has the last file first,
and the write at a position may raise.  The flag says that nothing has raised.
-/
def commitFrom [DecidableEq Data] (raises : Nat → Bool) :
    Nat → List (FileState Path Data) → Disk Path Data →
      List (Entry Path Data) → Disk Path Data × Bool
  | _, _, disk, [] => (disk, true)
  | index, written, disk, entry :: rest =>
    if entry.1.data = entry.2.data then
      commitFrom raises (index + 1) written disk rest
    else if raises index then (writeStates disk written, false)
    else commitFrom raises (index + 1) (entry.1 :: written)
      (writeState disk entry.2) rest

/-- `SlotConfigStore.commit`; a write which raises leaves the file alone. -/
def commit [DecidableEq Data] (raises : Nat → Bool)
    (disk : Disk Path Data) (changes : ChangeSet Path Data) : Disk Path Data × Bool :=
  commitFrom raises 0 [] disk changes.entries

/-- `SlotConfigStore.revert` -/
def revert (disk : Disk Path Data) (changes : ChangeSet Path Data) :
    Disk Path Data :=
  writeStates disk changes.before

/-! ## Writing a list of snapshots -/

variable {disk : Disk Path Data} {states : List (FileState Path Data)}

theorem writeStates_of_not_mem {path : Path}
    (others : ∀ state ∈ states, state.path ≠ path) :
    writeStates disk states path = disk path := by
  induction states generalizing disk with
  | nil => rfl
  | cons state rest later =>
    have notHere : path ≠ state.path := (others state mem_cons_self).symm
    show writeStates (writeState disk state) rest path = disk path
    rw [later fun other listed => others other
      (mem_cons_of_mem _ listed)]
    exact update_of_ne notHere _ _

theorem writeStates_last (disk : Disk Path Data)
    (earlier : List (FileState Path Data))
    {later : List (FileState Path Data)}
    {state : FileState Path Data}
    (last : ∀ other ∈ later, other.path ≠ state.path) :
    writeStates disk (earlier ++ state :: later) state.path = state.data := by
  show (earlier ++ state :: later).foldl writeState disk state.path = _
  rw [foldl_append, foldl_cons]
  exact (writeStates_of_not_mem last).trans (update_self _ _ _)

theorem writeStates_of_mem (disk : Disk Path Data) {path : Path}
    (listed : ∃ state ∈ states, state.path = path) :
    ∃ state ∈ states, state.path = path ∧
      writeStates disk states path = state.data := by
  induction states generalizing disk with
  | nil =>
    obtain ⟨state, inNil, -⟩ := listed
    cases inNil
  | cons state rest later =>
    by_cases inRest : ∃ other ∈ rest, other.path = path
    · obtain ⟨other, found, isPath, written⟩ :=
        later (writeState disk state) inRest
      exact ⟨other, mem_cons_of_mem _ found, isPath, written⟩
    · have here : state.path = path := by
        obtain ⟨other, found, isPath⟩ := listed
        rcases mem_cons.mp found with rfl | found
        · exact isPath
        · exact absurd ⟨other, found, isPath⟩ inRest
      refine ⟨state, mem_cons_self, here, ?_⟩
      subst here
      have last : ∀ other ∈ rest, other.path ≠ state.path :=
        fun other found isPath => inRest ⟨other, found, isPath⟩
      exact writeStates_last disk [] last

variable {original : Disk Path Data}

theorem writeStates_restores
    (snapshots : ∀ state ∈ states, original state.path = state.data)
    (others : ∀ path, (∀ state ∈ states, state.path ≠ path) →
      disk path = original path) :
    writeStates disk states = original := by
  funext path
  by_cases listed : ∃ state ∈ states, state.path = path
  · obtain ⟨state, found, rfl, written⟩ :=
      writeStates_of_mem disk listed
    rw [written, snapshots state found]
  · have outside : ∀ state ∈ states, state.path ≠ path :=
      fun state found isPath => listed ⟨state, found, isPath⟩
    rw [writeStates_of_not_mem outside, others path outside]

/-! ## What a commit leaves -/

/-- The snapshots from before are of `disk`, and of the same files. -/
def SnapshotsOf (disk : Disk Path Data) (entries : List (Entry Path Data)) :
    Prop :=
  ∀ entry ∈ entries, entry.1.path = entry.2.path ∧
    disk entry.1.path = entry.1.data

/-- The written files are snapshots of `original`; no other file differs. -/
structure Undoable (original : Disk Path Data)
    (written : List (FileState Path Data)) (disk : Disk Path Data) :
    Prop where
  snapshots : ∀ state ∈ written, original state.path = state.data
  others : ∀ path, (∀ state ∈ written, state.path ≠ path) →
    disk path = original path

theorem Undoable.write {written : List (FileState Path Data)}
    (undoable : Undoable original written disk) {entry : Entry Path Data}
    (same : entry.1.path = entry.2.path)
    (snapshot : original entry.1.path = entry.1.data) :
    Undoable original (entry.1 :: written) (writeState disk entry.2) where
  snapshots := by
    intro state listed
    rcases mem_cons.mp listed with rfl | listed
    · exact snapshot
    · exact undoable.snapshots state listed
  others := by
    intro path outside
    have notHere : path ≠ entry.2.path :=
      same ▸ (outside entry.1 mem_cons_self).symm
    rw [writeState, update_of_ne notHere]
    exact undoable.others path fun state listed =>
      outside state (mem_cons_of_mem _ listed)

variable [DecidableEq Data]

/-- The snapshots which a commit writes. -/
def changedStates (entries : List (Entry Path Data)) :
    List (FileState Path Data) :=
  (entries.filter fun entry => entry.1.data ≠ entry.2.data).map Prod.snd

variable {entries : List (Entry Path Data)}

omit [DecidableEq Path] in
theorem mem_changedStates {state : FileState Path Data} :
    state ∈ changedStates entries ↔
      ∃ entry ∈ entries, entry.1.data ≠ entry.2.data ∧ entry.2 = state := by
  simp [changedStates, and_assoc]

/-- Every file is written, or all are undone. -/
theorem commitFrom_spec (raises : Nat → Bool)
    (snapshots : SnapshotsOf original entries) (index : Nat)
    {written : List (FileState Path Data)}
    (undoable : Undoable original written disk) :
    commitFrom raises index written disk entries =
        (writeStates disk (changedStates entries), true) ∨
      commitFrom raises index written disk entries = (original, false) := by
  induction entries generalizing index written disk with
  | nil => exact .inl rfl
  | cons entry rest later =>
    have snapshotsRest : SnapshotsOf original rest :=
      fun other listed => snapshots other (mem_cons_of_mem _ listed)
    obtain ⟨same, snapshot⟩ := snapshots entry mem_cons_self
    rw [commitFrom]
    by_cases unchanged : entry.1.data = entry.2.data
    · rw [if_pos unchanged, changedStates, filter_cons,
        if_neg (by simp [unchanged])]
      exact later snapshotsRest _ undoable
    · rw [if_neg unchanged]
      by_cases fails : raises index = true
      · rw [if_pos fails, writeStates_restores undoable.snapshots
          undoable.others]
        exact .inr rfl
      · rw [if_neg fails, changedStates, filter_cons,
          if_pos (by simp [unchanged])]
        exact later snapshotsRest _ (undoable.write same snapshot)

theorem commitFrom_of_not_raises {raises : Nat → Bool}
    (nothingRaises : ∀ index, raises index = false) (index : Nat)
    (written : List (FileState Path Data)) (disk : Disk Path Data) :
    commitFrom raises index written disk entries =
      (writeStates disk (changedStates entries), true) := by
  induction entries generalizing index written disk with
  | nil => rfl
  | cons entry rest later =>
    rw [commitFrom]
    by_cases unchanged : entry.1.data = entry.2.data
    · rw [if_pos unchanged, changedStates, filter_cons,
        if_neg (by simp [unchanged])]
      exact later _ _ _
    · rw [if_neg unchanged, if_neg (by simp [nothingRaises]),
        changedStates, filter_cons, if_pos (by simp [unchanged])]
      exact later _ _ _

/-! ## All or nothing -/

/--
What a commit of fresh snapshots promises: every file is as its last snapshot
has it and the others are left alone, or the commit raises and the disk is as
before; and a revert after the commit restores the disk.
-/
structure AllOrNothing (raises : Nat → Bool) (disk : Disk Path Data)
    (changes : ChangeSet Path Data) : Prop where
  all : ∀ final, commit raises disk changes = (final, true) →
    (∀ earlier entry later, changes.entries = earlier ++ entry :: later →
      (∀ other ∈ later, other.2.path ≠ entry.2.path) →
        final entry.2.path = entry.2.data) ∧
    ∀ path, (∀ entry ∈ changes.entries, entry.2.path ≠ path) →
      final path = disk path
  nothing : ∀ final, commit raises disk changes = (final, false) →
    final = disk
  reverted : ∀ final, commit raises disk changes = (final, true) →
    revert final changes = disk

/--
A file whose last snapshot changes nothing is not changed by an earlier one.
-/
def LastWord (changes : ChangeSet Path Data) : Prop :=
  ∀ earlier entry later, changes.entries = earlier ++ entry :: later →
    (∀ other ∈ later, other.2.path ≠ entry.2.path) →
    entry.1.data = entry.2.data →
    ∀ other ∈ earlier, other.2.path = entry.2.path →
      other.1.data = other.2.data

omit [DecidableEq Path] [DecidableEq Data] in
theorem path_eq_of_mem_zip {before after : List (FileState Path Data)}
    (parallel : before.map FileState.path = after.map FileState.path) :
    ∀ entry ∈ before.zip after, entry.1.path = entry.2.path := by
  induction before generalizing after with
  | nil =>
    intro entry listed
    simp at listed
  | cons first rest later =>
    cases after with
    | nil => cases parallel
    | cons other others =>
      obtain ⟨same, parallelRest⟩ := List.cons.inj parallel
      intro entry listed
      rcases mem_cons.mp listed with rfl | listed
      · exact same
      · exact later parallelRest entry listed

omit [DecidableEq Path] [DecidableEq Data] in
theorem ChangeSet.snapshotsOf {changes : ChangeSet Path Data}
    (fresh : ∀ state ∈ changes.before, disk state.path = state.data) :
    SnapshotsOf disk changes.entries := by
  intro entry listed
  constructor
  · exact path_eq_of_mem_zip changes.parallel entry listed
  · exact fresh entry.1 (of_mem_zip listed).1

theorem revert_restores {changes : ChangeSet Path Data}
    (fresh : ∀ state ∈ changes.before, disk state.path = state.data) :
    revert (writeStates disk (changedStates changes.entries)) changes =
      disk := by
  apply writeStates_restores fresh
  intro path outside
  apply writeStates_of_not_mem
  rintro state listed rfl
  obtain ⟨entry, inEntries, -, rfl⟩ := mem_changedStates.mp listed
  have same := (ChangeSet.snapshotsOf fresh entry inEntries).1
  exact outside entry.1 (of_mem_zip inEntries).1 same

theorem commit_of_not_raises (disk : Disk Path Data)
    (changes : ChangeSet Path Data) :
    commit (fun _ => false) disk changes =
      (writeStates disk (changedStates changes.entries), true) :=
  commitFrom_of_not_raises (fun _ => rfl) 0 [] disk

theorem ne_of_changed (snapshots : SnapshotsOf disk entries) {path : Path}
    (changed : ∃ entry ∈ entries, entry.2.path = path ∧
      entry.1.data ≠ entry.2.data) :
    writeStates disk (changedStates entries) path ≠ disk path := by
  obtain ⟨entry, listed, isPath, differs⟩ := changed
  obtain ⟨state, isChanged, sameFile, written⟩ :=
    writeStates_of_mem disk
      ⟨entry.2, mem_changedStates.mpr ⟨entry, listed, differs, rfl⟩, isPath⟩
  obtain ⟨other, inEntries, otherDiffers, rfl⟩ := mem_changedStates.mp isChanged
  obtain ⟨same, snapshot⟩ := snapshots other inEntries
  intro restored
  apply otherDiffers
  rw [← snapshot, ← written, restored, same, sameFile]

theorem writeStates_of_lastWord {changes : ChangeSet Path Data}
    (lastWord : LastWord changes)
    (snapshots : SnapshotsOf disk changes.entries)
    {earlier later : List (Entry Path Data)} {entry : Entry Path Data}
    (whole : changes.entries = earlier ++ entry :: later)
    (last : ∀ other ∈ later, other.2.path ≠ entry.2.path) :
    writeStates disk (changedStates changes.entries) entry.2.path =
      entry.2.data := by
  have laterStates : ∀ state ∈ changedStates later,
      state.path ≠ entry.2.path := by
    intro state listed
    obtain ⟨other, inLater, -, rfl⟩ := mem_changedStates.mp listed
    exact last other inLater
  have listed : entry ∈ changes.entries := by
    rw [whole]
    exact mem_append_right _ mem_cons_self
  by_cases unchanged : entry.1.data = entry.2.data
  · obtain ⟨same, snapshot⟩ := snapshots entry listed
    have untouched : ∀ state ∈ changedStates changes.entries,
        state.path ≠ entry.2.path := by
      intro state isChanged
      obtain ⟨other, inEntries, differs, rfl⟩ :=
        mem_changedStates.mp isChanged
      intro isPath
      rw [whole] at inEntries
      rcases mem_append.mp inEntries with inEarlier | here
      · exact differs (lastWord earlier entry later whole last unchanged
          other inEarlier isPath)
      · rcases mem_cons.mp here with rfl | inLater
        · exact differs unchanged
        · exact last other inLater isPath
    rw [writeStates_of_not_mem untouched, ← same, snapshot, unchanged]
  · have split : changedStates changes.entries =
        changedStates earlier ++ entry.2 :: changedStates later := by
      simp [changedStates, whole, unchanged]
    rw [split]
    exact writeStates_last disk _ laterStates

/--
A commit of fresh snapshots is all or nothing, wherever it fails, exactly when
the last snapshot of each file has the last word.
-/
theorem all_or_nothing_iff {disk : Disk Path Data}
    {changes : ChangeSet Path Data}
    (fresh : ∀ state ∈ changes.before, disk state.path = state.data) :
    (∀ raises, AllOrNothing raises disk changes) ↔ LastWord changes := by
  have snapshots := ChangeSet.snapshotsOf fresh
  constructor
  · intro allOrNothing earlier entry later whole last unchanged other
      inEarlier isPath
    by_contra differs
    have final := (allOrNothing fun _ => false).all _
      (commit_of_not_raises disk changes)
    have listed : entry ∈ changes.entries := by
      rw [whole]
      exact mem_append_right _ mem_cons_self
    have otherListed : other ∈ changes.entries := by
      rw [whole]
      exact mem_append_left _ inEarlier
    obtain ⟨same, snapshot⟩ := snapshots entry listed
    apply ne_of_changed snapshots ⟨other, otherListed, isPath, differs⟩
    rw [final.1 earlier entry later whole last, ← unchanged, ← snapshot, same]
  · intro lastWord raises
    have start : Undoable disk [] disk := ⟨by simp, fun _ _ => rfl⟩
    rcases commitFrom_spec raises snapshots 0 start with
      committed | failed
    · have committed : commit raises disk changes = _ := committed
      refine ⟨?_, ?_, ?_⟩
      · intro final isFinal
        rw [committed] at isFinal
        cases isFinal
        constructor
        · intro earlier entry later whole last
          exact writeStates_of_lastWord lastWord snapshots whole last
        · intro path outside
          apply writeStates_of_not_mem
          rintro state listed rfl
          obtain ⟨entry, inEntries, -, rfl⟩ := mem_changedStates.mp listed
          exact outside entry inEntries rfl
      · intro final isFinal
        rw [committed] at isFinal
        cases isFinal
      · intro final isFinal
        rw [committed] at isFinal
        cases isFinal
        exact revert_restores fresh
    · have failed : commit raises disk changes = _ := failed
      refine ⟨?_, ?_, ?_⟩
      · intro final isFinal
        rw [failed] at isFinal
        cases isFinal
      · intro final isFinal
        rw [failed] at isFinal
        cases isFinal
        rfl
      · intro final isFinal
        rw [failed] at isFinal
        cases isFinal

/-- Two slots, one of which has no file yet. -/
def placement : ChangeSet String String where
  before := [⟨"chat", some "model a"⟩, ⟨"embed", none⟩]
  after := [⟨"chat", some "model b"⟩, ⟨"embed", some "model c"⟩]
  parallel := rfl

/-- Both files are written, or neither, wherever a write fails. -/
theorem placement_all_or_nothing :
    LastWord placement ∧ ∀ raises, AllOrNothing raises
      (update (fun _ => none) "chat" (some "model a")) placement := by
  suffices lastWord : LastWord placement from
    ⟨lastWord, (all_or_nothing_iff (by decide)).mpr lastWord⟩
  have changes : ∀ entry ∈ placement.entries,
      entry.1.data ≠ entry.2.data := by
    decide
  intro earlier entry later whole _ same
  have isEntry : entry ∈ placement.entries := by simp [whole]
  exact (changes entry isEntry same).elim

/-- The second snapshot of a file is the one from before, and not written. -/
def placedTwice : ChangeSet String String where
  before := [⟨"chat", some "model a"⟩, ⟨"chat", some "model a"⟩]
  after := [⟨"chat", some "model b"⟩, ⟨"chat", some "model a"⟩]
  parallel := rfl

/-- One file is planned twice. -/
theorem first_placement_stays :
    (∀ state ∈ placedTwice.before,
      update (fun _ => none) "chat" (some "model a") state.path =
        state.data) ∧
    ¬ AllOrNothing (fun _ => false)
      (update (fun _ => none) "chat" (some "model a"))
      placedTwice := by
  constructor
  · decide
  · intro allOrNothing
    have final := (allOrNothing.all _ rfl).1
      [(⟨"chat", some "model a"⟩, ⟨"chat", some "model b"⟩)]
      (⟨"chat", some "model a"⟩, ⟨"chat", some "model a"⟩) [] rfl (by simp)
    revert final
    decide +kernel

end Hal0.Slots.ChangeSets
