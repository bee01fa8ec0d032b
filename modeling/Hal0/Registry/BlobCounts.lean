import Hal0.Registry.StoreDeletes
import Hal0.Registry.StoreSteps

/-!
# The counts of the blobs

A file set takes its references file by file and writes its rows at the end.
So the references of a content are those of its rows, those which the pull in
flight has taken, and those which were never given back.  `Accounts` bounds
them along every run; `CountsEach` says which steps leave none of the last
kind, and along such runs every count is the number of rows.
-/

namespace Hal0.Registry.ModelStore

open Nat
open Hal0.Transition
open Store

/-! ## References in flight -/

/-- The references which a pull has taken ahead of its rows. -/
def Pull.taken (pull : Pull) (sha : Sha) : Nat :=
  if pull.isFileset then pull.installed.countP fun file => file.digest = sha
  else 0

/-- The blobs that the pull has counted already. -/
def State.taken (state : State) (sha : Sha) : Nat :=
  match state.pull with
  | some pull => pull.taken sha
  | none => 0

theorem State.taken_of_idle {state : State} (idle : state.pull = none)
    (sha : Sha) : state.taken sha = 0 := by
  rw [State.taken, idle]

theorem State.taken_of_pull {state : State} {pull : Pull}
    (pulls : state.pull = some pull) (sha : Sha) :
    state.taken sha = pull.taken sha := by
  rw [State.taken, pulls]

theorem Pull.taken_of_plain {pull : Pull} (plain : pull.isFileset = false)
    (sha : Sha) : pull.taken sha = 0 := by
  simp [Pull.taken, plain]

theorem Pull.taken_of_fileset {pull : Pull}
    (isFileset : pull.isFileset = true) (sha : Sha) :
    pull.taken sha =
      pull.installed.countP fun file => file.digest = sha := by
  simp [Pull.taken, isFileset]

/-- The references cover the rows and the pull in flight. -/
structure Accounts (state : State) (extra : Sha → Nat) : Prop where
  kept : Kept state.toStore extra
  covers : ∀ sha, state.taken sha ≤ extra sha

/-- Every other reference is that of a row. -/
structure Tight (state : State) (extra : Sha → Nat) : Prop where
  tracked : AllTracked state.toStore
  exact : ∀ sha, extra sha = state.taken sha

/-! ## Steps -/

/-- The files of a pull have different names when they are registered. -/
def Named (state : State) (action : Action) : Prop :=
  match action with
  | .register => ∀ pull ∈ state.pull, (pull.installed.map Installed.rel).Nodup
  | _ => True

/-- Every reference which the step takes or drops is that of a row: a file set
is registered with the hash of each file, under names which have no row yet;
it does not end with files installed; and a deleted model has no two rows of
one path. -/
def CountsEach (state : State) (action : Action) : Prop :=
  match action with
  | .register => ∀ pull ∈ state.pull,
      (pull.installed.map Installed.rel).Nodup ∧
      (pull.isFileset = true → ∀ file ∈ pull.installed,
        file.sha256 ≠ none ∧
          ∀ row ∈ state.files, row.key ≠ (pull.modelId, file.rel))
  | .stopPull => ∀ pull ∈ state.pull,
      pull.isFileset = true → pull.installed = []
  | .deleteModel modelId _ _ =>
    ((state.rowsOf modelId).map fun row => row.dest).Nodup
  | _ => True

instance (state : State) (action : Action) :
    Decidable (CountsEach state action) :=
  match action with
  | .register => inferInstanceAs (Decidable (∀ pull ∈ state.pull,
      (pull.installed.map Installed.rel).Nodup ∧
      (pull.isFileset = true → ∀ file ∈ pull.installed,
        file.sha256 ≠ none ∧
          ∀ row ∈ state.files, row.key ≠ (pull.modelId, file.rel))))
  | .stopPull => inferInstanceAs (Decidable (∀ pull ∈ state.pull,
      pull.isFileset = true → pull.installed = []))
  | .deleteModel modelId _ _ => inferInstanceAs
      (Decidable ((state.rowsOf modelId).map fun row => row.dest).Nodup)
  | .startPull .. | .download .. | .countBlob | .hardlink ..
  | .pruneOrphans .. | .reconcile .. => inferInstanceAs (Decidable True)

theorem CountsEach.named {state : State} {action : Action}
    (counts : CountsEach state action) : Named state action := by
  cases action with
  | register => exact fun pull pulls => (counts pull pulls).1
  | _ => trivial

section Steps

variable {setting : Setting} {state : State} {extra : Sha → Nat}

/-- What a step may leave of the references: those which no row and no file in
flight has are never fewer. -/
def Keeps (state next : State) (extra later : Sha → Nat) : Prop :=
  ∀ sha, extra sha + next.taken sha ≤ later sha + state.taken sha

theorem accounts_startPull (accounts : Accounts state extra)
    (modelId : ModelId) (isFileset : Bool) (idle : state.pull = none) :
    Accounts { state with pull := some ⟨modelId, isFileset, [], none⟩ }
        extra ∧
      Keeps state { state with pull := some ⟨modelId, isFileset, [], none⟩ }
        extra extra ∧
      (Tight state extra →
        Tight { state with pull := some ⟨modelId, isFileset, [], none⟩ }
          extra) := by
  have none : ∀ sha, State.taken
      { state with pull := some ⟨modelId, isFileset, [], none⟩ } sha = 0 := by
    intro sha
    simp [State.taken, Pull.taken]
  refine ⟨⟨accounts.kept, ?_⟩, ?_, fun tight => ⟨tight.tracked, ?_⟩⟩
  · intro sha
    rw [none]
    exact zero_le _
  · intro sha
    rw [none]
    omega
  · intro sha
    rw [none, tight.exact, State.taken_of_idle idle]

theorem accounts_of_taken (accounts : Accounts state extra) (next : State)
    (files : next.files = state.files)
    (refs : ∀ sha, next.refs sha = state.refs sha)
    (taken : ∀ sha, next.taken sha = state.taken sha) {action : Action} :
    ∃ later, Accounts next later ∧ Keeps state next extra later ∧
      (Tight state extra → CountsEach state action → Tight next later) := by
  refine ⟨extra, ⟨accounts.kept.of_same files refs, ?_⟩, ?_,
    fun tight _ => ⟨?_, ?_⟩⟩
  · intro sha
    rw [taken]
    exact accounts.covers sha
  · intro sha
    rw [taken]
  · unfold AllTracked
    rw [files]
    exact tight.tracked
  · intro sha
    rw [taken, tight.exact]

variable {pull : Pull}

theorem taken_installPlain (file : Planned) (bytes : Bytes)
    (pulls : state.pull = some pull) (plain : pull.isFileset = false)
    (sha : Sha) :
    (installPlain setting state pull file bytes).taken sha =
      state.taken sha := by
  rw [State.taken_of_pull pulls, Pull.taken_of_plain plain]
  refine Pull.taken_of_plain ?_ sha
  exact plain

theorem taken_installFileset (file : Planned) (bytes : Bytes)
    (pulls : state.pull = some pull) (sha : Sha) :
    (installFileset setting state pull file bytes).taken sha =
      state.taken sha := by
  rw [State.taken_of_pull pulls]
  rfl

section

variable (accounts : Accounts state extra)
include accounts

theorem accounts_take {after : Pull} (pulls : state.pull = some pull)
    {file : Installed} {store : Store} (files : store.files = state.files)
    (refs : ∀ sha, store.refs sha =
      state.refs sha + if sha = file.digest then 1 else 0)
    (isFileset : pull.isFileset = true)
    (same : after.isFileset = pull.isFileset)
    (installed : after.installed = pull.installed ++ [file]) :
    ∃ later, Accounts { store with pull := some after } later ∧
      Keeps state { store with pull := some after } extra later ∧
      (Tight state extra →
        Tight { store with pull := some after } later) := by
  have taken : ∀ sha, State.taken { store with pull := some after } sha =
      state.taken sha + if sha = file.digest then 1 else 0 := by
    intro sha
    rw [State.taken_of_pull pulls, Pull.taken_of_fileset isFileset]
    change after.taken sha = _
    rw [Pull.taken_of_fileset (same.trans isFileset), installed]
    simp [List.countP_append, List.countP_cons, eq_comm]
  refine ⟨fun sha => extra sha + if sha = file.digest then 1 else 0,
    ⟨⟨?_, ?_, ?_⟩, ?_⟩, ?_, fun tight => ⟨?_, ?_⟩⟩
  · rw [files]
    exact accounts.kept.keyed
  · rw [files]
    exact accounts.kept.sound
  · intro sha
    have before := accounts.kept.accounted sha
    rw [refs, before, held, held, files, Nat.add_assoc]
  · intro sha
    rw [taken]
    exact Nat.add_le_add_right (accounts.covers sha) _
  · intro sha
    rw [taken]
    beta_reduce
    omega
  · unfold AllTracked
    rw [files]
    exact tight.tracked
  · intro sha
    rw [taken, tight.exact]

theorem accounts_countBlob {file : Installed} (pulls : state.pull = some pull)
    (isFileset : pull.isFileset = true) :
    ∃ later,
      Accounts { state.insertOrBump file.digest file.dest with
        pull := some { pull with
          installed := pull.installed ++ [file], awaiting := none } } later ∧
      Keeps state { state.insertOrBump file.digest file.dest with
        pull := some { pull with
          installed := pull.installed ++ [file], awaiting := none } }
        extra later ∧
      (Tight state extra →
        Tight { state.insertOrBump file.digest file.dest with
          pull := some { pull with
            installed := pull.installed ++ [file], awaiting := none } }
          later) := by
  refine accounts_take accounts pulls (by simp) ?_ isFileset rfl rfl
  intro sha
  exact refs_insertOrBump state.toStore file.digest sha file.dest

/-- A linked file is counted. -/
theorem accounts_hardlink (file : Planned) {sha : Sha} {blob : Blob}
    (bytes : Bytes) (pulls : state.pull = some pull)
    (isFileset : pull.isFileset = true)
    (known : state.getBlob sha = some blob) :
    ∃ later,
      Accounts { (state.write file.dest (some bytes)).putBlob sha
          { blob with refcount := blob.refcount + 1 } with
        pull := some { pull with installed :=
          pull.installed ++ [file.installed (some sha) sha] } } later ∧
      Keeps state { (state.write file.dest (some bytes)).putBlob sha
          { blob with refcount := blob.refcount + 1 } with
        pull := some { pull with installed :=
          pull.installed ++ [file.installed (some sha) sha] } } extra later ∧
      (Tight state extra →
        Tight { (state.write file.dest (some bytes)).putBlob sha
            { blob with refcount := blob.refcount + 1 } with
          pull := some { pull with installed :=
            pull.installed ++ [file.installed (some sha) sha] } }
          later) := by
  refine accounts_take accounts pulls rfl ?_ isFileset rfl rfl
  intro other
  change _ = state.refs other + if other = sha then 1 else 0
  unfold refs
  rw [getBlob_putBlob]
  by_cases same : other = sha
  · subst same
    simp [known]
  · simp [same]

theorem accounts_registerPlain (pulls : state.pull = some pull)
    (plain : pull.isFileset = false)
    (tracks : ∀ file ∈ pull.installed, Tracks file)
    (distinct : (pull.installed.map Installed.rel).Nodup) :
    ∃ later,
      Accounts { state.registerInstalledFiles setting pull.modelId
        pull.installed with pull := none } later ∧
      Keeps state { state.registerInstalledFiles setting pull.modelId
        pull.installed with pull := none } extra later ∧
      (Tight state extra →
        Tight { state.registerInstalledFiles setting pull.modelId
          pull.installed with pull := none } later) := by
  obtain ⟨later, kept, atLeast, exactly⟩ :=
    kept_registerInstalledFiles accounts.kept setting distinct tracks
  refine ⟨later, ⟨kept, fun _ => zero_le _⟩, ?_, ?_⟩
  · intro sha
    exact le_add_right_of_le (atLeast sha)
  · intro tight
    obtain ⟨same, tracked⟩ := exactly tight.tracked
    refine ⟨tracked, ?_⟩
    intro sha
    rw [same, tight.exact, State.taken_of_pull pulls,
      Pull.taken_of_plain plain]
    rfl

/-- Each row holds one count. -/
theorem accounts_registerFileset (pulls : state.pull = some pull)
    (isFileset : pull.isFileset = true)
    (sound : ∀ file ∈ pull.installed, Sound file)
    (distinct : (pull.installed.map Installed.rel).Nodup) :
    ∃ later,
      Accounts { state.registerPulledFileset pull.modelId
        pull.installed with pull := none } later ∧
      Keeps state { state.registerPulledFileset pull.modelId
        pull.installed with pull := none } extra later ∧
      (Tight state extra → CountsEach state .register →
        Tight { state.registerPulledFileset pull.modelId
          pull.installed with pull := none } later) := by
  have taken : ∀ sha, state.taken sha =
      pull.installed.countP fun file => file.digest = sha := by
    intro sha
    rw [State.taken_of_pull pulls, Pull.taken_of_fileset isFileset]
  obtain ⟨later, kept, atLeast, exactly⟩ :=
    kept_registerPulledFileset accounts.kept distinct sound
      (fun sha => taken sha ▸ accounts.covers sha)
  refine ⟨later, ⟨kept, fun _ => zero_le _⟩, ?_, ?_⟩
  · intro sha
    rw [taken]
    exact atLeast sha
  · intro tight counts
    obtain ⟨-, each⟩ := counts pull pulls
    have hashed := each isFileset
    refine ⟨?_, ?_⟩
    · intro row listed
      rcases (mem_registerPulledFileset distinct).mp listed with
        ⟨old, -⟩ | ⟨file, isFile, rfl⟩
      · exact tight.tracked row old
      · obtain ⟨sha, recorded⟩ :=
          Option.ne_none_iff_exists'.mp (hashed file isFile).1
        have own : sha = file.digest := sound file isFile sha recorded
        exact recorded.trans (congrArg some own)
    · intro sha
      have all := exactly (fun file isFile => (hashed file isFile).2) sha
      have before := tight.exact sha
      rw [taken] at before
      change later sha = 0
      omega

theorem accounts_stopPull (pulls : state.pull = some pull) :
    Accounts { state with pull := none } extra ∧
      Keeps state { state with pull := none } extra extra ∧
      (Tight state extra → CountsEach state .stopPull →
        Tight { state with pull := none } extra) := by
  refine ⟨⟨accounts.kept, fun _ => zero_le _⟩,
    fun sha => le_add_right _ _, ?_⟩
  intro tight counts
  refine ⟨tight.tracked, ?_⟩
  intro sha
  have before := tight.exact sha
  rw [State.taken_of_pull pulls] at before
  rw [before]
  change pull.taken sha = 0
  cases kind : pull.isFileset with
  | false => exact Pull.taken_of_plain kind sha
  | true =>
    rw [Pull.taken_of_fileset kind, counts pull pulls kind]
    rfl

theorem accounts_deleteModel (modelId : ModelId) (deleteFiles : Bool)
    (refused : List Path) (idle : state.pull = none) :
    ∃ later,
      Accounts { state.deleteModel setting modelId deleteFiles refused with
        pull := none } later ∧
      Keeps state { state.deleteModel setting modelId deleteFiles refused with
        pull := none } extra later ∧
      (Tight state extra →
        CountsEach state (.deleteModel modelId deleteFiles refused) →
        Tight { state.deleteModel setting modelId deleteFiles refused with
          pull := none } later) := by
  obtain ⟨later, kept, atLeast, exactly⟩ :=
    kept_deleteModel accounts.kept setting modelId deleteFiles refused
  refine ⟨later, ⟨kept, fun _ => zero_le _⟩, ?_, ?_⟩
  · intro sha
    exact le_add_right_of_le (atLeast sha)
  · intro tight distinct
    refine ⟨allTracked_deleteModel tight.tracked setting modelId deleteFiles
      refused, ?_⟩
    intro sha
    rw [exactly tight.tracked distinct, tight.exact, State.taken_of_idle idle]
    rfl

/-- Every step keeps the counts. -/
theorem accounts_moves (sound : PullsSound state) {action : Action}
    {next : State} (moves : Moves setting state action next)
    (named : Named state action) :
    ∃ later, Accounts next later ∧ Keeps state next extra later ∧
      (Tight state extra → CountsEach state action → Tight next later) := by
  cases moves with
  | startPull modelId isFileset idle =>
    obtain ⟨after, keeps, tight⟩ :=
      accounts_startPull accounts modelId isFileset idle
    exact ⟨extra, after, keeps, fun before _ => tight before⟩
  | downloadPlain pull file bytes pulls plain =>
    exact accounts_of_taken accounts
      (installPlain setting state pull file bytes) rfl (fun _ => rfl)
      (taken_installPlain file bytes pulls plain)
  | downloadFileset pull file bytes pulls isFileset ready verified =>
    exact accounts_of_taken accounts
      (installFileset setting state pull file bytes) rfl (fun _ => rfl)
      (taken_installFileset file bytes pulls)
  | countBlob pull file pulls waits =>
    obtain ⟨later, after, keeps, tight⟩ := accounts_countBlob accounts pulls
      ((sound pull pulls).awaits file waits).2
    exact ⟨later, after, keeps, fun before _ => tight before⟩
  | hardlink pull file sha blob bytes pulls isFileset ready hasHash known
      present =>
      obtain ⟨later, after, keeps, tight⟩ :=
        accounts_hardlink accounts file bytes pulls isFileset known
      exact ⟨later, after, keeps, fun before _ => tight before⟩
  | registerPlain pull pulls plain ready =>
    obtain ⟨later, after, keeps, tight⟩ :=
      accounts_registerPlain accounts pulls plain
        ((sound pull pulls).tracks plain) (named pull pulls)
    exact ⟨later, after, keeps, fun before _ => tight before⟩
  | registerFileset pull pulls isFileset ready =>
    exact accounts_registerFileset accounts pulls isFileset
      (sound pull pulls).sound (named pull pulls)
  | stopPull pull pulls =>
    exact ⟨extra, accounts_stopPull accounts pulls⟩
  | deleteModel modelId deleteFiles refused idle =>
    exact accounts_deleteModel accounts modelId deleteFiles refused idle
  | pruneOrphans shas idle =>
    exact accounts_of_taken accounts
      { state.pruneOrphans setting shas with pull := none }
      (state.files_pruneOrphans setting shas)
      (state.refs_pruneOrphans setting shas)
      (fun sha => (State.taken_of_idle idle sha).symm)
  | reconcile paths idle =>
    exact accounts_of_taken accounts
      { state.reconcileStoreTree setting paths with pull := none }
      (state.files_reconcileStoreTree setting paths)
      (state.refs_reconcileStoreTree setting paths)
      (fun sha => (State.taken_of_idle idle sha).symm)

end

end Steps

/-! ## Runs -/

theorem accounts_empty : Accounts empty fun _ => 0 where
  kept := {
    keyed := List.nodup_nil
    sound := by
      intro row listed
      cases listed
    accounted := fun _ => rfl }
  covers := fun _ => le_refl _

theorem tight_empty : Tight empty fun _ => 0 where
  tracked := by
    intro row listed
    cases listed
  exact := fun _ => rfl

variable {setting : Setting} {actions : List Action} {state : State}

theorem tight_run (run : Run (step setting) CountsEach empty actions state) :
    ∃ extra, Accounts state extra ∧ Tight state extra := by
  have reached := run.invariant
    (fun current => PullsSound current ∧
      ∃ extra, Accounts current extra ∧ Tight current extra)
    ⟨pullsSound_empty, _, accounts_empty, tight_empty⟩ (by
      rintro current action next ⟨sound, extra, accounts, tight⟩ counts moved
      have moves := moves_of_step moved
      obtain ⟨later, after, -, tightly⟩ :=
        accounts_moves accounts sound moves counts.named
      exact ⟨pullsSound_moves sound moves, later, after,
        tightly tight counts⟩)
  exact reached.2

/-- Along the runs whose steps count each reference for a row, every blob has
as many references as rows, whenever no pull is in flight. -/
theorem refcount_exact
    (run : Run (step setting) CountsEach empty actions state)
    (idle : state.pull = none) {sha : Sha} {blob : Blob}
    (known : state.getBlob sha = some blob) :
    blob.refcount = state.files.countP fun row => row.sha256 = some sha := by
  obtain ⟨extra, accounts, tight⟩ := tight_run run
  have counted : state.refs sha = state.held sha + extra sha :=
    accounts.kept.accounted sha
  have none : extra sha = 0 :=
    (tight.exact sha).trans (State.taken_of_idle idle sha)
  have refcount : state.refs sha = blob.refcount := by
    simp [refs, known]
  have rows : state.held sha =
      state.files.countP fun row => row.sha256 = some sha := by
    refine List.countP_congr fun row listed => ?_
    have records : row.sha256 = some row.digest := tight.tracked row listed
    simp [records]
  omega

/-- A plain pull, a file set which links its content, and the delete of the
first of them. -/
def pulledAndLinked : List Action :=
  [.startPull "first" false, .download (weights "w" "/s/w" none) [97],
    .register, .startPull "second" true,
    .hardlink (weights "w" "/s/v" (some "a")), .register,
    .deleteModel "first" true [], .pruneOrphans ["a"]]

/-- A blob that two models hold. -/
theorem refcount_exact_linked :
    ∃ state, Run (step spelled) CountsEach empty pulledAndLinked state ∧
      state.pull = none ∧ ∃ blob, state.getBlob "a" = some blob ∧
        blob.refcount =
          state.files.countP fun row => row.sha256 = some "a" := by
  obtain ⟨state, run, reached⟩ := Run.exists_of_exec (step spelled) CountsEach
    empty pulledAndLinked
    (fun state => state.pull = none ∧ state.getBlob "a" = some ⟨"/s/v", 1⟩)
    (by decide +kernel)
  have reaches := of_decide_eq_true reached
  exact ⟨state, run, reaches.1, _, reaches.2,
    refcount_exact run reaches.1 reaches.2⟩

/-- The same file set, twice. -/
def pulledTwice : List Action :=
  [.startPull "first" true, .download (weights "w" "/s/w" (some "a")) [97],
    .countBlob, .register, .startPull "first" true,
    .hardlink (weights "w" "/s/w" (some "a")), .register]

/-- The second pull takes a reference for a row which is there already. -/
theorem refcount_of_pulled_twice :
    ∃ state, Run (step spelled) Anything empty pulledTwice state ∧
      state.pull = none ∧ ∃ blob, state.getBlob "a" = some blob ∧
        blob.refcount ≠
          state.files.countP fun row => row.sha256 = some "a" := by
  obtain ⟨state, run, reached⟩ := Run.exists_of_exec (step spelled) Anything
    empty pulledTwice
    (fun state => state.pull = none ∧
      state.getBlob "a" = some ⟨"/s/w", 2⟩ ∧
      (state.files.countP fun row => row.sha256 = some "a") = 1)
    (by decide +kernel)
  obtain ⟨idle, known, rows⟩ := of_decide_eq_true reached
  refine ⟨state, run, idle, _, known, ?_⟩
  rw [rows]
  decide

end Hal0.Registry.ModelStore
