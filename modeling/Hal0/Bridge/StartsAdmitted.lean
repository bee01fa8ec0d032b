import Hal0.Bridge.Starts
import Hal0.Bridge.Isolation

/-!
# No start overruns the cap, and none leaves a run behind

The lock of the client covers the count, the request and the insert, so the
number of live runs stays within the limit and an idempotency key names one
run.  A run which Hermes has accepted is recorded and watched, or Hermes is
asked to stop it, unless the call is cut off between the acceptance and the
hand-over to `_admit`.
-/

namespace Hal0.Bridge

open List
open Hal0.Transition Hal0.Tasks

/-! ## Inserts and rewrites of the ledger -/

namespace Ledger

variable {ledger after : Ledger} {row : RunRow} {runId : RunId}
  {event : Option StoredEvent} {decide : RunRow → Changes} {now : Time}
  {recorded : Recorded}

/-- The row belongs to the key. -/
def HasKey (client profile key : String) (row : RunRow) : Prop :=
  row.client = client ∧ row.profile = profile ∧
    row.idempotencyKey = some key

/-- A key names one run at most. -/
def KeysUnique (ledger : Ledger) : Prop :=
  ∀ client profile key, ∀ left ∈ ledger.runs, ∀ right ∈ ledger.runs,
    HasKey client profile key left → HasKey client profile key right →
      left = right

theorem runs_insertRun (inserted : ledger.insertRun row = some after) :
    after.runs = ledger.runs ++ [row] := by
  unfold insertRun at inserted
  split at inserted
  · cases inserted
  · cases inserted
    rfl

theorem countLiveRuns_insertRun (inserted : ledger.insertRun row = some after)
    (client : String) :
    after.countLiveRuns client = ledger.countLiveRuns client +
      (if row.client = client ∧ row.isLive = true then 1 else 0) := by
  unfold countLiveRuns
  rw [runs_insertRun inserted, countP_append, countP_singleton]
  simp

private theorem foldl_isSome {step : Option RunRow → RunRow → Option RunRow}
    (steps : ∀ newest row, (step newest row).isSome = true) :
    ∀ (rows : List RunRow) (start : Option RunRow),
      rows.foldl step start = none → rows = [] := by
  intro rows
  induction rows with
  | nil => exact fun _ _ => rfl
  | cons head rest reached =>
    intro start none
    rw [foldl_cons] at none
    obtain rfl := reached _ none
    have := steps start head
    simp_all

theorem not_hasKey {client profile key : String}
    (none : ledger.runForIdempotencyKey client profile key = none) :
    ∀ row ∈ ledger.runs, ¬ HasKey client profile key row := by
  have empty := foldl_isSome (by
    intro newest row
    cases newest with
    | none => rfl
    | some other =>
      simp only
      split <;> rfl) _ _ none
  rw [filter_eq_nil_iff] at empty
  rintro row mem ⟨isClient, isProfile, isKey⟩
  exact empty row mem (by simp [isClient, isProfile, isKey])

/-- The rows stay the same runs, and none comes to life. -/
structure Rewrites (before after : Ledger) (change : RunRow → RunRow) :
    Prop where
  runs : after.runs = before.runs.map change
  runId : ∀ row ∈ before.runs, (change row).runId = row.runId
  client : ∀ row ∈ before.runs, (change row).client = row.client
  profile : ∀ row ∈ before.runs, (change row).profile = row.profile
  key : ∀ row ∈ before.runs,
    (change row).idempotencyKey = row.idempotencyKey
  live : ∀ row ∈ before.runs, (change row).isLive = true → row.isLive = true

variable {change : RunRow → RunRow}

theorem Rewrites.countLiveRuns_le (rewrites : Rewrites ledger after change)
    (client : String) :
    after.countLiveRuns client ≤ ledger.countLiveRuns client := by
  unfold countLiveRuns
  rw [rewrites.runs, countP_map]
  refine countP_mono_left fun row mem counted => ?_
  simp only [Function.comp_apply, Bool.and_eq_true, decide_eq_true_eq]
    at counted ⊢
  exact ⟨(rewrites.client row mem).symm.trans counted.1,
    rewrites.live row mem counted.2⟩

theorem Rewrites.hasKey (rewrites : Rewrites ledger after change)
    {client profile key : String} (mem : row ∈ ledger.runs) :
    HasKey client profile key (change row) ↔
      HasKey client profile key row := by
  simp [HasKey, rewrites.client row mem, rewrites.profile row mem,
    rewrites.key row mem]

theorem Rewrites.keysUnique (rewrites : Rewrites ledger after change)
    (unique : ledger.KeysUnique) :
    after.KeysUnique := by
  intro client profile key left leftMem right rightMem leftKey rightKey
  rw [rewrites.runs] at leftMem rightMem
  obtain ⟨one, oneMem, rfl⟩ := mem_map.mp leftMem
  obtain ⟨other, otherMem, rfl⟩ := mem_map.mp rightMem
  rw [unique client profile key one oneMem other otherMem
    ((rewrites.hasKey oneMem).mp leftKey)
    ((rewrites.hasKey otherMem).mp rightKey)]

theorem Rewrites.refl (ledger : Ledger) : Rewrites ledger ledger id where
  runs := (map_id _).symm
  runId := fun _ _ => rfl
  client := fun _ _ => rfl
  profile := fun _ _ => rfl
  key := fun _ _ => rfl
  live := fun _ _ => id

/-- One rewrite after another. -/
theorem Rewrites.trans {middle : Ledger} {first second : RunRow → RunRow}
    (earlier : Rewrites ledger middle first)
    (later : Rewrites middle after second) :
    Rewrites ledger after (second ∘ first) := by
  have inMiddle : ∀ row ∈ ledger.runs, first row ∈ middle.runs := by
    intro row mem
    rw [earlier.runs]
    exact mem_map_of_mem mem
  constructor
  · rw [later.runs, earlier.runs, map_map]
  · intro row mem
    exact (later.runId _ (inMiddle row mem)).trans (earlier.runId row mem)
  · intro row mem
    exact (later.client _ (inMiddle row mem)).trans (earlier.client row mem)
  · intro row mem
    exact (later.profile _ (inMiddle row mem)).trans
      (earlier.profile row mem)
  · intro row mem
    exact (later.key _ (inMiddle row mem)).trans (earlier.key row mem)
  · intro row mem live
    exact earlier.live row mem (later.live _ (inMiddle row mem) live)

/-- A change of one live row. -/
theorem Rewrites.setRun (change : RunRow → RunRow)
    (found : ledger.getRun runId = some row) (live : row.isLive = true)
    (client : ∀ row, (change row).client = row.client)
    (profile : ∀ row, (change row).profile = row.profile)
    (key : ∀ row, (change row).idempotencyKey = row.idempotencyKey) :
    Rewrites ledger (ledger.setRun runId change) fun row =>
      if row.runId = runId then { change row with runId := row.runId }
      else row := by
  constructor
  · rfl
  · intro old _
    split <;> rfl
  · intro old _
    split
    · exact client old
    · rfl
  · intro old _
    split
    · exact profile old
    · rfl
  · intro old _
    split
    · exact key old
    · rfl
  · intro old mem kept
    split at kept
    · rename_i same
      have listed := getRun_eq_some_iff.mp found
      rw [eq_of_runId mem listed.1 (same.trans listed.2.symm)]
      exact live
    · exact kept

theorem rewrites_record
    (written : ledger.record runId event decide true now = some recorded) :
    ∃ change, Rewrites ledger recorded.ledger change := by
  have records := record_eq_some written
  have live := records.live rfl
  unfold record at written
  rw [records.found, Option.bind_some] at written
  split at written
  · cases written
  have stored : ∃ change, Rewrites ledger
      ((event.map (ledger.storeEvent runId)).getD ledger) change := by
    cases event with
    | none => exact ⟨_, .refl ledger⟩
    | some event =>
      have bumped := Rewrites.setRun
        (fun row => { row with lastSeq := max row.lastSeq event.seq })
        records.found live (fun _ => rfl) (fun _ => rfl) (fun _ => rfl)
      exact ⟨_, { bumped with }⟩
  have storedRow : ((event.map (ledger.storeEvent runId)).getD
      ledger).getRun runId = some (bumped recorded.before event) := by
    cases event with
    | none => simpa [bumped] using records.found
    | some event => simp [getRun_storeEvent, records.found, bumped]
  have storedLive : (bumped recorded.before event).isLive = true := by
    cases event <;> exact live
  obtain ⟨change, rewrites⟩ := stored
  rw [show recorded.ledger = _ from
    congrArg Recorded.ledger (Option.some.inj written).symm]
  simp only
  split
  · exact ⟨change, rewrites⟩
  · exact ⟨_, rewrites.trans (Rewrites.setRun _ storedRow storedLive
      (fun _ => rfl) (fun _ => rfl) (fun _ => rfl))⟩

end Ledger

/-! ## What a task relies on -/

/-- The call has the admission lock. -/
def Stage.holdsLock : Stage → Bool
  | .locking => false
  | _ => true

/-- No run was found for the key, and the run is not in the ledger yet. -/
def Stage.keyIsFree : Stage → Bool
  | .looked none | .counting | .counted _ | .posting _ | .searching _ _ _
  | .searched _ _ _ _ | .inserting _ => true
  | _ => false

/-- The call has passed the limit and is not stored. -/
def Stage.hasRoom : Stage → Bool
  | .posting _ | .searching _ _ _ | .searched _ _ _ _ | .inserting _ => true
  | _ => false

theorem Stage.holdsLock_of_keyIsFree {stage : Stage}
    (free : stage.keyIsFree = true) : stage.holdsLock = true := by
  cases stage with
  | locking => cases free
  | _ => rfl

theorem Stage.keyIsFree_of_hasRoom {stage : Stage}
    (room : stage.hasRoom = true) : stage.keyIsFree = true := by
  cases stage <;> cases room <;> rfl

/-- The ledger keeps to the cap, and a key names one run. -/
structure Orderly (limit : Nat) (ledger : Ledger) : Prop where
  cap : ∀ client, ledger.countLiveRuns client ≤ limit
  unique : ledger.KeysUnique

/-- The counter of a task tells of the ledger while it holds the lock. -/
structure Relies (limit : Nat) (starts : Starts) (task : TaskId)
    (pc : StartPc) : Prop where
  lock : pc.stage.holdsLock = true →
    starts.holder pc.request.client = some task
  free : pc.stage.keyIsFree = true →
    ∀ key, pc.request.sentIdempotency = some key →
      ∀ row ∈ starts.ledger.runs,
        ¬ Ledger.HasKey pc.request.client pc.request.profile key row
  counted : ∀ live, pc.stage = .counted live →
    starts.ledger.countLiveRuns pc.request.client ≤ live
  room : pc.stage.hasRoom = true →
    starts.ledger.countLiveRuns pc.request.client < limit
  row : ∀ row, pc.stage = .inserting row →
    row.client = pc.request.client ∧ row.profile = pc.request.profile ∧
      row.idempotencyKey = pc.request.sentIdempotency

section Relies

variable {limit : Nat} {starts after : Starts} {task other : TaskId}
  {pc next : StartPc} {world : World Starts StartPc}

theorem undisturbed_of_ledger
    (ledger : after.ledger = world.shared.ledger)
    (locks : ∀ client holder, holder ≠ task →
      world.shared.holder client = some holder →
        after.holder client = some holder) :
    Undisturbed (Relies limit) world task after := by
  intro other pc differs _ relies
  constructor
  · intro holds
    exact locks _ _ differs (relies.lock holds)
  · rw [ledger]
    exact relies.free
  · rw [ledger]
    exact relies.counted
  · rw [ledger]
    exact relies.room
  · exact relies.row

theorem finish_locks {result : StartResult} (client : String)
    (holder : TaskId) (differs : holder ≠ task)
    (held : starts.holder client = some holder) :
    (starts.finish task pc result).holder client = some holder := by
  unfold Starts.finish
  simp only
  split
  · rename_i own
    have foreign : client ≠ pc.request.client := by
      rintro rfl
      rw [held] at own
      exact differs (Option.some.inj own)
    rw [Function.update_of_ne foreign]
    exact held
  · exact held

theorem undisturbed_finish {result : StartResult} :
    Undisturbed (Relies limit) world task
      (world.shared.finish task pc result) :=
  undisturbed_of_ledger rfl finish_locks

variable {ledger : Ledger}

/-- A new row leaves the other calls their room. -/
theorem undisturbed_insert {row : RunRow}
    (relies : Relies limit world.shared task pc)
    (stage : pc.stage = .inserting row)
    (inserted : world.shared.ledger.insertRun row = some ledger) :
    Undisturbed (Relies limit) world task
      { world.shared with ledger := ledger } := by
  have lock := relies.lock (by rw [stage]; rfl)
  have own := (relies.row row stage).1
  intro other its differs _ its_relies
  have foreign : its.stage.holdsLock = true →
      its.request.client ≠ pc.request.client := by
    intro holds same
    have := its_relies.lock holds
    rw [same, lock] at this
    exact differs (Option.some.inj this).symm
  have count : its.stage.holdsLock = true →
      ledger.countLiveRuns its.request.client =
        world.shared.ledger.countLiveRuns its.request.client := by
    intro holds
    have notRow : row.client ≠ its.request.client := by
      rw [own]
      exact (foreign holds).symm
    rw [Ledger.countLiveRuns_insertRun inserted]
    simp [notRow]
  constructor
  · exact its_relies.lock
  · intro free key isKey stored mem
    have holds := Stage.holdsLock_of_keyIsFree free
    rw [Ledger.runs_insertRun inserted] at mem
    rcases mem_append.mp mem with old | isNew
    · exact its_relies.free free key isKey stored old
    · rintro ⟨client, _⟩
      rw [mem_singleton.mp isNew, own] at client
      exact foreign holds client.symm
  · intro live at_
    rw [count (by rw [at_]; rfl)]
    exact its_relies.counted live at_
  · intro hasRoom
    rw [count (Stage.holdsLock_of_keyIsFree
      (Stage.keyIsFree_of_hasRoom hasRoom))]
    exact its_relies.room hasRoom
  · exact its_relies.row

/-- So does a rewrite of rows. -/
theorem Relies.rewrite {change : RunRow → RunRow}
    (relies : Relies limit starts task pc)
    (rewrites : starts.ledger.Rewrites ledger change) :
    Relies limit { starts with ledger := ledger } task pc := by
  have le := rewrites.countLiveRuns_le pc.request.client
  constructor
  · exact relies.lock
  · intro free key isKey row mem
    rw [rewrites.runs] at mem
    obtain ⟨old, oldMem, rfl⟩ := mem_map.mp mem
    rw [rewrites.hasKey oldMem]
    exact relies.free free key isKey old oldMem
  · intro live at_
    exact le.trans (relies.counted live at_)
  · intro hasRoom
    exact Nat.lt_of_le_of_lt le (relies.room hasRoom)
  · exact relies.row

/-! ## The turns of a task -/

/-- What has to be shown of a turn of a task. -/
structure Kept (limit : Nat) (world : World Starts StartPc) (task : TaskId)
    (after : Starts) (next : Option StartPc) : Prop where
  orderly : Orderly limit after.ledger
  relies : ∀ counter, next = some counter → Relies limit after task counter
  others : Undisturbed (Relies limit) world task after

/-- The ledger has been asked to store the run. -/
def Stage.isRecorded : Stage → Bool
  | .inserted _ | .unrecorded _ | .stopping _ | .emitting _ => true
  | _ => false

theorem Relies.recorded {stage : Stage} (recorded : stage.isRecorded = true)
    (lock : starts.holder pc.request.client = some task) :
    Relies limit starts task { pc with stage := stage } := by
  constructor
  · exact fun _ => lock
  all_goals cases stage <;> cases recorded <;> simp [Stage.keyIsFree, Stage.hasRoom]

theorem Kept.finish {result : StartResult}
    (orderly : Orderly limit world.shared.ledger) :
    Kept limit world task (world.shared.finish task pc result) none where
  orderly := orderly
  relies := fun _ absent => by cases absent
  others := undisturbed_finish

/-- A step which leaves the ledger alone. -/
theorem Kept.move (orderly : Orderly limit world.shared.ledger)
    (ledger : after.ledger = world.shared.ledger)
    (holder : after.holder = world.shared.holder)
    (relies : Relies limit world.shared task next) :
    Kept limit world task after (some next) where
  orderly := by
    rw [ledger]
    exact orderly
  relies := fun counter present => by
    obtain rfl := Option.some.inj present
    constructor
    · rw [holder]
      exact relies.lock
    · rw [ledger]
      exact relies.free
    · rw [ledger]
      exact relies.counted
    · rw [ledger]
      exact relies.room
    · exact relies.row
  others := undisturbed_of_ledger ledger fun client _ _ held => by
    rw [holder]
    exact held

theorem Relies.later {stage : Stage} (relies : Relies limit starts task pc)
    (lock : pc.stage.holdsLock = true)
    (free : stage.keyIsFree = true → pc.stage.keyIsFree = true)
    (counted : ∀ live, stage = .counted live →
      starts.ledger.countLiveRuns pc.request.client ≤ live)
    (room : stage.hasRoom = true →
      starts.ledger.countLiveRuns pc.request.client < limit)
    (row : ∀ row, stage = .inserting row →
      row.client = pc.request.client ∧ row.profile = pc.request.profile ∧
        row.idempotencyKey = pc.request.sentIdempotency) :
    Relies limit starts task { pc with stage := stage } where
  lock := fun _ => relies.lock lock
  free := fun isFree => relies.free (free isFree)
  counted := counted
  room := room
  row := row

/-- A call which has passed the limit keeps its room. -/
theorem Relies.within {stage : Stage} (relies : Relies limit starts task pc)
    (before : pc.stage.hasRoom = true) (after : stage.hasRoom = true)
    (row : ∀ row, stage = .inserting row →
      row.client = pc.request.client ∧ row.profile = pc.request.profile ∧
        row.idempotencyKey = pc.request.sentIdempotency) :
    Relies limit starts task { pc with stage := stage } := by
  have free := Stage.keyIsFree_of_hasRoom before
  refine relies.later (Stage.holdsLock_of_keyIsFree free)
    (fun _ => free) ?_ (fun _ => relies.room before) row
  rintro live rfl
  cases after

/-- The row is stored within the limit. -/
theorem kept_insert {row : RunRow}
    (orderly : Orderly limit world.shared.ledger)
    (relies : Relies limit world.shared task pc)
    (stage : pc.stage = .inserting row)
    (inserted : world.shared.ledger.insertRun row = some ledger) :
    Kept limit world task { world.shared with ledger := ledger }
      (some { pc with stage := .inserted row }) := by
  obtain ⟨client, profile, isKey⟩ := relies.row row stage
  have room := relies.room (by rw [stage]; rfl)
  have free := relies.free (by rw [stage]; rfl)
  have noOther : ∀ its profile key, ∀ old ∈ world.shared.ledger.runs,
      Ledger.HasKey its profile key old →
        ¬ Ledger.HasKey its profile key row := by
    rintro its profile key old mem oldKey ⟨rfl, rfl, rowKey⟩
    rw [isKey] at rowKey
    rw [client, relies.row row stage |>.2.1] at oldKey
    exact free key rowKey old mem oldKey
  refine ⟨⟨?_, ?_⟩, ?_, undisturbed_insert relies stage inserted⟩
  · intro its
    show ledger.countLiveRuns its ≤ limit
    rw [Ledger.countLiveRuns_insertRun inserted]
    split
    · rename_i counted
      rw [← counted.1, client]
      exact room
    · exact orderly.cap its
  · intro its profile key left leftMem right rightMem leftKey rightKey
    rw [show ({ world.shared with ledger := ledger } : Starts).ledger.runs =
      world.shared.ledger.runs ++ [row] from
        Ledger.runs_insertRun inserted] at leftMem rightMem
    rcases mem_append.mp leftMem with left_old | left_new <;>
      rcases mem_append.mp rightMem with right_old | right_new
    · exact orderly.unique its profile key left left_old right right_old
        leftKey rightKey
    · rw [mem_singleton.mp right_new] at rightKey
      exact absurd rightKey (noOther its profile key left left_old leftKey)
    · rw [mem_singleton.mp left_new] at leftKey
      exact absurd leftKey (noOther its profile key right right_old rightKey)
    · rw [mem_singleton.mp left_new, mem_singleton.mp right_new]
  · intro counter present
    obtain rfl := Option.some.inj present
    exact .recorded rfl (relies.lock (by rw [stage]; rfl))

variable {result : Option StartPc}

section

variable (orderly : Orderly limit world.shared.ledger)
include orderly

/-- What a worker thread does. -/
theorem kept_thread {commits : Bool}
    (relies : Relies limit world.shared task pc)
    (done : world.shared.thread task pc commits = some (after, result)) :
    Kept limit world task after result := by
  unfold Starts.thread at done
  cases at_ : pc.stage with
  | looking =>
    simp only [at_] at done
    split at done <;> cases done
    · refine .move orderly rfl rfl ⟨fun _ => relies.lock (by rw [at_]; rfl),
        ?_, ?_, ?_, ?_⟩
      · intro isFree key isKey
        cases found : pc.request.sentIdempotency.bind fun key =>
            world.shared.ledger.runForIdempotencyKey pc.request.client
              pc.request.profile key with
        | none =>
          rw [isKey, Option.bind_some] at found
          exact Ledger.not_hasKey found
        | some row =>
          simp only [found, Stage.keyIsFree] at isFree
          cases isFree
      · intro live counted
        cases counted
      · intro hasRoom
        cases hasRoom
      · intro row inserting
        cases inserting
    · exact .finish orderly
  | counting =>
    simp only [at_] at done
    split at done <;> cases done
    · refine .move orderly rfl rfl (relies.later (by rw [at_]; rfl) ?_ ?_ ?_ ?_)
      · intro _
        rw [at_]
        rfl
      · intro live counted
        cases counted
        exact le_rfl
      · intro hasRoom
        cases hasRoom
      · intro row inserting
        cases inserting
    · exact .finish orderly
  | searching runId status admissionId =>
    simp only [at_] at done
    split at done <;> cases done
    · refine .move orderly rfl rfl (relies.within (by rw [at_]; rfl) rfl ?_)
      intro row inserting
      cases inserting
    · exact .finish orderly
  | inserting row =>
    simp only [at_] at done
    split at done
    · rename_i ledger inserted
      cases done
      split at inserted
      · exact kept_insert orderly relies at_ inserted
      · cases inserted
    · cases done
      exact .move orderly rfl rfl
        (.recorded rfl (relies.lock (by rw [at_]; rfl)))
  | _ => simp [at_] at done

/-- What the event loop does. -/
theorem kept_turn {now : Time} (relies : Relies limit world.shared task pc)
    (done : world.shared.turn limit task pc now = some (after, result)) :
    Kept limit world task after result := by
  unfold Starts.turn at done
  cases at_ : pc.stage with
  | locking =>
    simp only [at_] at done
    split at done
    · cases done
    · rename_i unheld
      cases done
      refine ⟨orderly, ?_, undisturbed_of_ledger rfl ?_⟩
      · intro counter present
        obtain rfl := Option.some.inj present
        constructor
        · intro _
          simp
        · intro isFree key isKey
          change pc.request.sentIdempotency = some key at isKey
          simp [isKey, Stage.keyIsFree] at isFree
        · intro live
          simp only
          split <;> simp
        · simp only
          split <;> simp [Stage.hasRoom]
        · intro row
          simp only
          split <;> simp
      · intro client holder _ held
        have foreign : client ≠ pc.request.client := by
          rintro rfl
          rw [unheld] at held
          cases held
        simpa [Function.update_of_ne foreign] using held
  | looked known =>
    cases known with
    | none =>
      simp only [at_] at done
      cases done
      refine .move orderly rfl rfl (relies.later (by rw [at_]; rfl) ?_ ?_ ?_ ?_)
      · intro _
        rw [at_]
        rfl
      · intro live counted
        cases counted
      · intro hasRoom
        cases hasRoom
      · intro row inserting
        cases inserting
    | some row =>
      simp only [at_] at done
      cases done
      exact .finish orderly
  | counted live =>
    simp only [at_] at done
    split at done <;> cases done
    · exact .finish orderly
    · rename_i below
      refine .move orderly rfl rfl (relies.later (by rw [at_]; rfl) ?_ ?_ ?_ ?_)
      · intro _
        rw [at_]
        rfl
      · intro live counted
        cases counted
      · intro _
        have := relies.counted live at_
        omega
      · intro row inserting
        cases inserting
  | searched runId status admissionId existing =>
    cases existing with
    | none =>
      simp only [at_] at done
      cases done
      refine .move orderly rfl rfl (relies.within (by rw [at_]; rfl) rfl ?_)
      intro row inserting
      cases inserting
      exact ⟨rfl, rfl, rfl⟩
    | some row =>
      simp only [at_] at done
      cases done
      exact .finish orderly
  | inserted row =>
    simp only [at_] at done
    cases done
    exact .move orderly rfl rfl
      (.recorded rfl (relies.lock (by rw [at_]; rfl)))
  | unrecorded row =>
    simp only [at_] at done
    cases done
    exact .move orderly rfl rfl
      (.recorded rfl (relies.lock (by rw [at_]; rfl)))
  | stopping row =>
    simp only [at_] at done
    cases done
    exact .finish orderly
  | emitting row =>
    simp only [at_] at done
    cases done
    exact .finish orderly
  | _ => simp [at_] at done

/-- What an answer of Hermes leads to. -/
theorem kept_answer {outside : StartOutside} {answer : StartAnswer}
    {now : Time} (relies : Relies limit world.shared task pc)
    (done : world.shared.answer outside task pc answer now =
      some (after, result)) :
    Kept limit world task after result := by
  unfold Starts.answer at done
  split at done
  · rename_i runId status admissionId at_
    cases done
    refine .move orderly rfl rfl (relies.within (by rw [at_]; rfl) rfl ?_)
    intro row inserting
    cases inserting
    exact ⟨rfl, rfl, rfl⟩
  · rename_i runId status admissionId at_
    cases done
    refine .move orderly rfl rfl (relies.within (by rw [at_]; rfl) rfl ?_)
    intro row inserting
    cases inserting
  · cases done
    exact .finish orderly
  · cases done
    exact .finish orderly
  · cases done

/-- Every step of a call. -/
theorem kept_resume {outside : StartOutside} {reply : StartReply}
    (relies : Relies limit world.shared task pc)
    (done : world.shared.resume outside limit task pc reply =
      some (after, result)) :
    Kept limit world task after result := by
  cases reply with
  | turn now => exact kept_turn orderly relies done
  | thread commits => exact kept_thread orderly relies done
  | answer answer now => exact kept_answer orderly relies done
  | accept runId =>
    simp only [Starts.resume] at done
    split at done
    · rename_i at_
      cases done
      refine .move orderly rfl rfl (relies.within (by rw [at_]; rfl) rfl ?_)
      intro row inserting
      cases inserting
    · cases done
  | cancel =>
    have same : Relies limit world.shared task
        { pc with cancelled := true } :=
      ⟨relies.lock, relies.free, relies.counted, relies.room, relies.row⟩
    simp only [Starts.resume] at done
    split at done <;> cases done <;> exact .move orderly rfl rfl same

end

end Relies

/-- Every step keeps the limit. -/
theorem startProgram_keeps (outside : StartOutside) (config : StartConfig) :
    Keeps (startProgram outside config) Anything
      (fun starts => Orderly config.maxConcurrentRunsPerClient starts.ledger)
      (Relies config.maxConcurrentRunsPerClient) := by
  constructor
  · intro world task pc shared orderly _ _ started
    simp only [startProgram, Starts.start] at started
    split at started
    · rename_i request at_
      split at started
      · cases started
        refine ⟨orderly, ?_, undisturbed_of_ledger rfl fun _ _ _ => id⟩
        constructor
        all_goals simp [at_, Stage.holdsLock, Stage.keyIsFree, Stage.hasRoom]
      · cases started
    · cases started
  · intro world task pc reply shared next orderly _ _ relies resumed
    have kept := kept_resume orderly relies resumed
    exact ⟨kept.orderly, kept.relies, kept.others⟩
  · intro world task pc shared orderly _ _ _ cancelled
    simp only [startProgram, Starts.cancel] at cancelled
    split at cancelled <;> cases cancelled
    exact ⟨orderly, undisturbed_finish⟩
  · intro world event shared orderly _ occurred
    cases event with
    | close =>
      cases occurred
      exact ⟨orderly, fun other pc _ relies =>
        ⟨relies.lock, relies.free, relies.counted, relies.room,
          relies.row⟩⟩
    | write runId event decide now =>
      simp only [startProgram, Starts.occur, Option.map_eq_some_iff]
        at occurred
      obtain ⟨recorded, written, rfl⟩ := occurred
      obtain ⟨change, rewrites⟩ := Ledger.rewrites_record written
      refine ⟨⟨?_, rewrites.keysUnique orderly.unique⟩, ?_⟩
      · intro client
        exact (rewrites.countLiveRuns_le client).trans
          (orderly.cap client)
      · intro other pc _ relies
        exact relies.rewrite rewrites

/-! ## Accepted runs -/

/-- The run is recorded and watched, or Hermes is asked to stop it. -/
def Settled (starts : Starts) (runId : RunId) : Prop :=
  (∃ row ∈ starts.ledger.runs, row.runId = runId) ∧
      runId ∈ starts.watched ∨
    runId ∈ starts.stopAsked

/-- The task is about to settle the run. -/
def Stage.Carries (starts : Starts) (runId : RunId) : Stage → Prop
  | .posting (some accepted) => accepted = runId
  | .searching own _ _ | .searched own _ _ none => own = runId
  | .searched own _ _ (some _) =>
    own = runId ∧ ∃ row ∈ starts.ledger.runs, row.runId = runId
  | .inserting row | .unrecorded row => row.runId = runId
  | .inserted row =>
    row.runId = runId ∧ ∃ row ∈ starts.ledger.runs, row.runId = runId
  | _ => False

/--
A call which ends here leaves the run behind: it has not handed it to
`_admit`, and if the call found that another one has recorded it, nobody
watches it yet.
-/
def Stage.Leaves (starts : Starts) (runId : RunId) : Stage → Prop
  | .posting (some accepted) => accepted = runId
  | .searching own _ _ | .searched own _ _ none => own = runId
  | .searched own _ _ (some _) => own = runId ∧ runId ∉ starts.watched
  | _ => False

/-- The ledger has a row of the run which Hermes has replayed. -/
def Stage.isFound : Stage → Bool
  | .searched _ _ _ (some _) => true
  | _ => false

/-- The task has no accepted run which it would leave behind. -/
def Clear (world : World Starts StartPc) (task : TaskId) : Prop :=
  ∀ pc, world.tasks task = some pc →
    ∀ runId, (task, runId) ∈ world.shared.accepted →
      ¬ pc.stage.Leaves world.shared runId

/--
No caller goes away, no answer is lost, no lookup of a replayed run fails and
none finds the run of a call which is still to watch it, while Hermes has
accepted a run which is not handed to `_admit` yet.
-/
def Uncut (world : World Starts StartPc) :
    Tasks.Action StartPc StartReply StartEvent → Prop
  | .cancel task | .resume task (.answer (.failed _) _)
  | .resume task (.answer .noRunId _) | .resume task (.thread false) =>
    Clear world task
  | .resume task (.turn _) =>
    ∀ pc, world.tasks task = some pc → pc.stage.isFound = true →
      Clear world task
  | _ => True

/-- Every accepted run is settled, or its task is about to settle it. -/
def Accounted (world : World Starts StartPc) : Prop :=
  ∀ task runId, (task, runId) ∈ world.shared.accepted →
    Settled world.shared runId ∨
      ∃ pc, world.tasks task = some pc ∧
        pc.stage.Carries world.shared runId

section Accounts

variable {limit : Nat} {outside : StartOutside} {starts after : Starts}
  {task : TaskId} {pc : StartPc} {reply : StartReply} {runId : RunId}
  {next : Option StartPc}

/-- Nothing which was recorded, watched or asked is forgotten. -/
structure Grows (starts after : Starts) : Prop where
  rows : ∀ runId, (∃ row ∈ starts.ledger.runs, row.runId = runId) →
    ∃ row ∈ after.ledger.runs, row.runId = runId
  watched : ∀ runId ∈ starts.watched, runId ∈ after.watched
  stopAsked : ∀ runId ∈ starts.stopAsked, runId ∈ after.stopAsked

theorem Grows.settled (grows : Grows starts after)
    (settled : Settled starts runId) : Settled after runId := by
  rcases settled with ⟨recorded, watched⟩ | asked
  · exact .inl ⟨grows.rows runId recorded, grows.watched runId watched⟩
  · exact .inr (grows.stopAsked runId asked)

theorem Grows.carries (grows : Grows starts after) {stage : Stage}
    (carries : stage.Carries starts runId) :
    stage.Carries after runId := by
  cases stage with
  | inserted row => exact ⟨carries.1, grows.rows runId carries.2⟩
  | posting accepted => cases accepted <;> exact carries
  | searched own status admissionId existing =>
    cases existing with
    | none => exact carries
    | some row => exact ⟨carries.1, grows.rows runId carries.2⟩
  | _ => exact carries

theorem Grows.of_eq (ledger : after.ledger = starts.ledger)
    (watched : after.watched = starts.watched)
    (stopAsked : after.stopAsked = starts.stopAsked) :
    Grows starts after := by
  constructor
  · rw [ledger]
    exact fun _ => id
  · rw [watched]
    exact fun _ => id
  · rw [stopAsked]
    exact fun _ => id

/-- What a turn of a task does to the accepted runs. -/
structure Advances (starts : Starts) (task : TaskId) (pc : StartPc)
    (after : Starts) (next : Option StartPc) : Prop where
  grows : Grows starts after
  carried : ∀ runId, (task, runId) ∈ starts.accepted →
    pc.stage.Carries starts runId →
    Settled after runId ∨
      ∃ counter, next = some counter ∧ counter.stage.Carries after runId
  fresh : ∀ other runId, (other, runId) ∈ after.accepted →
    (other, runId) ∈ starts.accepted ∨ other = task ∧
      ∃ counter, next = some counter ∧ counter.stage.Carries after runId

theorem Advances.idle (ledger : after.ledger = starts.ledger)
    (watched : after.watched = starts.watched)
    (stopAsked : after.stopAsked = starts.stopAsked)
    (accepted : after.accepted = starts.accepted)
    (nothing : ∀ runId, ¬ pc.stage.Carries starts runId) :
    Advances starts task pc after next where
  grows := .of_eq ledger watched stopAsked
  carried := fun runId _ carries => absurd carries (nothing runId)
  fresh := fun other runId mem => by
    rw [accepted] at mem
    exact .inl mem

/-- A call may end where it would leave no accepted run behind. -/
theorem Advances.finish {result : StartResult}
    (early : pc.stage.isRecorded = false)
    (moved : ∀ row, pc.stage ≠ .inserting row)
    (clear : ∀ runId, (task, runId) ∈ starts.accepted →
      ¬ pc.stage.Leaves starts runId) :
    Advances starts task pc (starts.finish task pc result) none where
  grows := .of_eq rfl rfl rfl
  carried := by
    intro runId mem carries
    have stays := clear runId mem
    cases at_ : pc.stage with
    | posting accepted =>
      rw [at_] at carries stays
      cases accepted with
      | none => exact carries.elim
      | some own => exact absurd carries stays
    | searching own status admissionId =>
      rw [at_] at carries stays
      exact absurd carries stays
    | searched own status admissionId existing =>
      rw [at_] at carries stays
      cases existing with
      | none => exact absurd carries stays
      | some row =>
        refine .inl (.inl ⟨carries.2, ?_⟩)
        by_contra unwatched
        exact stays ⟨carries.1, unwatched⟩
    | inserting row => exact absurd at_ (moved row)
    | inserted row | unrecorded row =>
      rw [at_] at early
      cases early
    | _ =>
      rw [at_] at carries
      exact carries.elim
  fresh := fun _ _ => .inl

theorem Advances.carry {counter : StartPc} (grows : Grows starts after)
    (accepted : after.accepted = starts.accepted)
    (carried : ∀ runId, pc.stage.Carries starts runId →
      counter.stage.Carries after runId) :
    Advances starts task pc after (some counter) where
  grows := grows
  carried := fun runId _ carries =>
    .inr ⟨counter, rfl, carried runId carries⟩
  fresh := fun other runId mem => by
    rw [accepted] at mem
    exact .inl mem

theorem Advances.accept {counter : StartPc} (ledger : after.ledger = starts.ledger)
    (watched : after.watched = starts.watched)
    (stopAsked : after.stopAsked = starts.stopAsked)
    (accepted : after.accepted = starts.accepted ++ [(task, runId)])
    (nothing : ∀ other, ¬ pc.stage.Carries starts other)
    (carries : counter.stage.Carries after runId) :
    Advances starts task pc after (some counter) where
  grows := .of_eq ledger watched stopAsked
  carried := fun other _ its => absurd its (nothing other)
  fresh := fun other its mem => by
    rw [accepted] at mem
    rcases mem_append.mp mem with old | isNew
    · exact .inl old
    · simp only [mem_singleton, Prod.mk.injEq] at isNew
      obtain ⟨rfl, rfl⟩ := isNew
      exact .inr ⟨rfl, counter, rfl, carries⟩

/-- A thread that does not fail loses no run. -/
theorem advances_thread {commits : Bool}
    (unfailed : commits = false → ∀ runId,
      (task, runId) ∈ starts.accepted → ¬ pc.stage.Leaves starts runId)
    (done : starts.thread task pc commits = some (after, next)) :
    Advances starts task pc after next := by
  unfold Starts.thread at done
  cases at_ : pc.stage with
  | looking =>
    have nothing : ∀ runId, ¬ pc.stage.Carries starts runId := by
      simp [at_, Stage.Carries]
    simp only [at_] at done
    split at done <;> cases done <;> exact .idle rfl rfl rfl rfl nothing
  | counting =>
    have nothing : ∀ runId, ¬ pc.stage.Carries starts runId := by
      simp [at_, Stage.Carries]
    simp only [at_] at done
    split at done <;> cases done <;> exact .idle rfl rfl rfl rfl nothing
  | searching runId status admissionId =>
    simp only [at_] at done
    split at done
    · cases done
      refine .carry (.of_eq rfl rfl rfl) rfl ?_
      intro other carries
      rw [at_] at carries
      cases found : starts.ledger.getRun runId with
      | none => exact carries
      | some row =>
        have listed := Ledger.getRun_eq_some_iff.mp found
        exact ⟨carries, row, listed.1,
          listed.2.trans (show runId = other from carries)⟩
    · rename_i fails
      cases done
      exact .finish (by rw [at_]; rfl) (by simp [at_])
        (unfailed (Bool.eq_false_of_not_eq_true fails))
  | inserting row =>
    simp only [at_] at done
    split at done
    · rename_i ledger inserted
      cases done
      split at inserted
      · have runs := Ledger.runs_insertRun inserted
        refine .carry ⟨?_, fun _ => id, fun _ => id⟩ rfl ?_
        · rintro runId ⟨old, mem, same⟩
          exact ⟨old, by simp [runs, mem], same⟩
        · intro runId carries
          rw [at_] at carries
          exact ⟨carries, row, by simp [runs], carries⟩
      · cases inserted
    · cases done
      refine .carry (.of_eq rfl rfl rfl) rfl ?_
      intro runId carries
      rw [at_] at carries
      exact carries
  | _ => simp [at_] at done

/-- Nor does a turn, a found replay apart. -/
theorem advances_turn {now : Time}
    (unfound : pc.stage.isFound = true → ∀ runId,
      (task, runId) ∈ starts.accepted → ¬ pc.stage.Leaves starts runId)
    (done : starts.turn limit task pc now = some (after, next)) :
    Advances starts task pc after next := by
  unfold Starts.turn at done
  cases at_ : pc.stage with
  | locking =>
    simp only [at_] at done
    split at done <;> cases done
    exact .idle rfl rfl rfl rfl (by simp [at_, Stage.Carries])
  | looked known =>
    have nothing : ∀ runId, ¬ pc.stage.Carries starts runId := by
      simp [at_, Stage.Carries]
    cases known <;> simp only [at_] at done <;> cases done <;>
      exact .idle rfl rfl rfl rfl nothing
  | counted live =>
    have nothing : ∀ runId, ¬ pc.stage.Carries starts runId := by
      simp [at_, Stage.Carries]
    simp only [at_] at done
    split at done <;> cases done <;> exact .idle rfl rfl rfl rfl nothing
  | searched own status admissionId existing =>
    cases existing with
    | none =>
      simp only [at_] at done
      cases done
      refine .carry (.of_eq rfl rfl rfl) rfl ?_
      intro runId carries
      rw [at_] at carries
      exact carries
    | some row =>
      simp only [at_] at done
      cases done
      exact .finish (by rw [at_]; rfl) (by simp [at_])
        (unfound (by rw [at_]; rfl))
  | inserted row =>
    simp only [at_] at done
    cases done
    refine ⟨⟨fun _ => id, ?_, fun _ => id⟩, ?_, fun _ _ => .inl⟩
    · intro runId mem
      exact mem_append_left _ mem
    · intro runId _ carries
      rw [at_] at carries
      left
      refine .inl ⟨carries.2, ?_⟩
      rw [← carries.1]
      simp
  | unrecorded row =>
    simp only [at_] at done
    cases done
    refine ⟨⟨fun _ => id, fun _ => id, ?_⟩, ?_, fun _ _ => .inl⟩
    · intro runId mem
      exact mem_append_left _ mem
    · intro runId _ carries
      rw [at_] at carries
      left
      right
      rw [← show row.runId = runId from carries]
      simp
  | stopping row =>
    simp only [at_] at done
    cases done
    exact .idle rfl rfl rfl rfl (by simp [at_, Stage.Carries])
  | emitting row =>
    simp only [at_] at done
    cases done
    exact .idle rfl rfl rfl rfl (by simp [at_, Stage.Carries])
  | _ => simp [at_] at done

/-- A replayed run is accepted at the answer. -/
theorem advances_replay {status admissionId : Option String}
    (at_ : pc.stage = .posting none) :
    Advances starts task pc (starts.replay task runId) (some { pc with
      stage := .searching runId status admissionId }) where
  grows := .of_eq rfl rfl rfl
  carried := by
    intro other _ carries
    rw [at_] at carries
    exact carries.elim
  fresh := by
    intro other its mem
    simp only [Starts.replay] at mem
    split_ifs at mem
    · exact .inl mem
    rcases mem_append.mp mem with old | isNew
    · exact .inl old
    · simp only [mem_singleton, Prod.mk.injEq] at isNew
      obtain ⟨rfl, rfl⟩ := isNew
      exact .inr ⟨rfl, _, rfl, rfl⟩

/-- Nor does an answer that has its run. -/
theorem advances_answer {answer : StartAnswer} {now : Time}
    (unlost : match answer with
      | .failed _ | .noRunId => ∀ runId, (task, runId) ∈ starts.accepted →
        ¬ pc.stage.Leaves starts runId
      | _ => True)
    (done : starts.answer outside task pc answer now = some (after, next)) :
    Advances starts task pc after next := by
  unfold Starts.answer at done
  split at done
  · rename_i at_
    cases done
    refine .carry (.of_eq rfl rfl rfl) rfl ?_
    intro runId carries
    rw [at_] at carries
    exact carries
  · rename_i at_
    cases done
    exact advances_replay at_
  · rename_i accepted _ at_
    cases done
    exact .finish (by rw [at_]; rfl) (by simp [at_]) unlost
  · rename_i accepted at_
    cases done
    exact .finish (by rw [at_]; rfl) (by simp [at_]) unlost
  · cases done

/-- A step which loses no run. -/
theorem Accounted.put {world : World Starts StartPc}
    (accounted : Accounted world) (suspended : world.tasks task = some pc)
    (advances : Advances world.shared task pc after next) :
    Accounted (world.put task after next) := by
  intro other runId mem
  rcases advances.fresh other runId mem with old | ⟨rfl, counter, rfl, its⟩
  · rcases accounted other runId old with settled | ⟨its, at_, carries⟩
    · exact .inl (advances.grows.settled settled)
    · by_cases same : other = task
      · subst same
        rw [suspended] at at_
        obtain rfl := Option.some.inj at_
        rcases advances.carried runId old carries with
          settled | ⟨counter, rfl, its⟩
        · exact .inl settled
        · exact .inr ⟨counter, by simp [World.put_tasks], its⟩
      · refine .inr ⟨its, ?_, advances.grows.carries carries⟩
        rw [World.put_tasks, if_neg same]
        exact at_
  · exact .inr ⟨counter, by simp [World.put_tasks], its⟩

/-- Every uncut step of a call. -/
theorem Accounted.resume {world : World Starts StartPc}
    (accounted : Accounted world) (suspended : world.tasks task = some pc)
    (uncut : Uncut world (.resume task reply))
    (done : world.shared.resume outside limit task pc reply =
      some (after, next)) :
    Accounted (world.put task after next) := by
  refine accounted.put suspended ?_
  cases reply with
  | turn now =>
    exact advances_turn (fun isFound => uncut pc suspended isFound pc
      suspended) done
  | thread commits =>
    refine advances_thread ?_ done
    rintro rfl
    exact uncut pc suspended
  | answer answer now =>
    refine advances_answer ?_ done
    cases answer with
    | failed error => exact uncut pc suspended
    | noRunId => exact uncut pc suspended
    | _ => trivial
  | accept runId =>
    simp only [Starts.resume] at done
    split at done
    · rename_i at_
      cases done
      exact .accept rfl rfl rfl rfl (by simp [at_, Stage.Carries]) rfl
    · cases done
  | cancel =>
    simp only [Starts.resume] at done
    split at done <;> cases done <;>
      exact .carry (.of_eq rfl rfl rfl) rfl fun _ => id

/-- Every uncut step accounts for each run. -/
theorem Accounted.moves {config : StartConfig}
    {world target : World Starts StartPc}
    {action : Tasks.Action StartPc StartReply StartEvent}
    (accounted : Accounted world) (uncut : Uncut world action)
    (moved : (startProgram outside config).Moves world action target) :
    Accounted target := by
  cases moved with
  | @start task pc shared unused started =>
    have same : shared = world.shared := by
      simp only [startProgram, Starts.start] at started
      split at started
      · split at started <;> cases started
        rfl
      · cases started
    subst same
    intro other runId mem
    rcases accounted other runId mem with settled | ⟨its, at_, carries⟩
    · exact .inl settled
    · refine .inr ⟨its, ?_, carries⟩
      rw [World.put_tasks, if_neg]
      · exact at_
      · rintro rfl
        rw [unused] at at_
        cases at_
  | @resume task pc reply shared after suspended resumed =>
    exact accounted.resume suspended uncut resumed
  | @cancel task pc shared suspended cancelled =>
    simp only [startProgram, Starts.cancel] at cancelled
    split at cancelled <;> cases cancelled
    refine accounted.put suspended (.finish ?_ ?_ (uncut pc suspended))
    · cases at_ : pc.stage <;> simp_all [Stage.isRecorded]
    · intro row at_
      simp_all
  | @occur event shared occurred =>
    have grows : Grows world.shared shared ∧
        shared.accepted = world.shared.accepted := by
      cases event with
      | close =>
        cases occurred
        exact ⟨.of_eq rfl rfl rfl, rfl⟩
      | write runId event decide now =>
        simp only [startProgram, Starts.occur, Option.map_eq_some_iff]
          at occurred
        obtain ⟨recorded, written, rfl⟩ := occurred
        obtain ⟨change, rewrites⟩ := Ledger.rewrites_record written
        refine ⟨⟨?_, fun _ => id, fun _ => id⟩, rfl⟩
        rintro runId ⟨row, mem, same⟩
        refine ⟨change row, ?_, (rewrites.runId row mem).trans same⟩
        rw [rewrites.runs]
        exact mem_map_of_mem mem
    intro other runId mem
    rw [show World.shared { world with shared := shared } = shared from rfl,
      grows.2] at mem
    rcases accounted other runId mem with settled | ⟨its, at_, carries⟩
    · exact .inl (grows.1.settled settled)
    · exact .inr ⟨its, at_, grows.1.carries carries⟩

end Accounts

/-! ## Whole runs -/

/--
Whatever is cancelled, refused or lost, no client has more live runs than the
limit and a key names one run; and as long as nothing is cut off between the
acceptance of a run and its hand-over to `_admit`, every run which Hermes
accepted for a call that has ended is recorded and watched, or was asked to
stop.
-/
theorem starts_admitted (outside : StartOutside) (config : StartConfig)
    {ledger : Ledger}
    (orderly : Orderly config.maxConcurrentRunsPerClient ledger) :
    (∀ actions world, Run (startProgram outside config).step Anything
        (.quiet (.idle ledger)) actions world →
      (∀ client, world.shared.ledger.countLiveRuns client ≤
        config.maxConcurrentRunsPerClient) ∧
      world.shared.ledger.KeysUnique) ∧
    ∀ actions world, Run (startProgram outside config).step Uncut
        (.quiet (.idle ledger)) actions world →
      ∀ task runId, (task, runId) ∈ world.shared.accepted →
        world.tasks task = none → Settled world.shared runId := by
  constructor
  · intro actions world run
    have start : Safe
        (fun starts : Starts =>
          Orderly config.maxConcurrentRunsPerClient starts.ledger)
        (Relies config.maxConcurrentRunsPerClient)
        (.quiet (.idle ledger)) := .quiet orderly
    have safe := start.run (startProgram_keeps outside config) run
    exact ⟨safe.state.cap, safe.state.unique⟩
  · intro actions world run task runId accepted ended
    have accounted : Accounted world := by
      refine run.invariant Accounted (nofun) ?_
      intro state action next holds uncut moved
      exact holds.moves uncut (Program.moves_of_step moved)
    rcases accounted task runId accepted with settled | ⟨pc, at_, _⟩
    · exact settled
    · rw [ended] at at_
      cases at_

def plainOutside : StartOutside where
  quote := id
  digest := fun input _ _ _ => input
  preview := id

/-- A call of `claude` with one task. -/
def plainStart : StartPc where
  caller := claudeCaller
  args := { agent := "hermes", input := "task" }
  request :=
    { client := "claude"
      agent := "hermes"
      profile := "default"
      sessionKey := none
      sentIdempotency := none
      fingerprint := "task"
      inputPreview := "task" }
  stage := .locking

theorem empty_orderly : Orderly 1 .empty where
  cap := fun _ => Nat.zero_le _
  unique := fun _ _ _ _ mem => by cases mem

/-- The caller goes away after Hermes has accepted the run. -/
theorem cancelled_start_leaves_run :
    ∃ actions world,
      Run (startProgram plainOutside ⟨true, 1⟩).step Anything
        (.quiet (.idle .empty)) actions world ∧
      (0, "r1") ∈ world.shared.accepted ∧ world.tasks 0 = none ∧
      ¬ Settled world.shared "r1" := by
  refine ⟨[.start 0 plainStart, .resume 0 (.turn 1), .resume 0 (.thread true),
    .resume 0 (.turn 2), .resume 0 (.accept "r1"), .cancel 0], _,
    .cons trivial rfl <| .cons trivial rfl <| .cons trivial rfl <|
      .cons trivial rfl <| .cons trivial rfl <| .cons trivial rfl <|
      .nil _, ?_, rfl, ?_⟩
  · exact mem_singleton.mpr rfl
  · rintro (⟨⟨row, mem, _⟩, _⟩ | asked)
    · cases mem
    · cases asked

theorem uncut_turn {world : World Starts StartPc} {task : TaskId}
    {pc : StartPc} (now : Time) (suspended : world.tasks task = some pc)
    (other : pc.stage.isFound = false) :
    Uncut world (.resume task (.turn now)) := by
  intro its present isFound
  rw [suspended] at present
  obtain rfl := Option.some.inj present
  rw [other] at isFound
  cases isFound

/-- The same start, with a caller who stays. -/
theorem patient_start_admitted :
    ∃ actions world,
      Run (startProgram plainOutside ⟨true, 1⟩).step Uncut
        (.quiet (.idle .empty)) actions world ∧
      (0, "r1") ∈ world.shared.accepted ∧ world.tasks 0 = none ∧
      Settled world.shared "r1" := by
  have run : ∃ world,
      Run (startProgram plainOutside ⟨true, 1⟩).step Uncut
        (.quiet (.idle .empty))
        [.start 0 plainStart, .resume 0 (.turn 1), .resume 0 (.thread true),
          .resume 0 (.turn 2), .resume 0 (.accept "r1"),
          .resume 0 (.answer (.started none none) 3),
          .resume 0 (.thread true), .resume 0 (.turn 4),
          .resume 0 (.turn 5)] world ∧
      (0, "r1") ∈ world.shared.accepted ∧ world.tasks 0 = none :=
    ⟨_, .cons trivial rfl <| .cons (uncut_turn 1 rfl rfl) rfl <|
      .cons trivial rfl <| .cons (uncut_turn 2 rfl rfl) rfl <|
      .cons trivial rfl <| .cons trivial rfl <| .cons trivial rfl <|
      .cons (uncut_turn 4 rfl rfl) rfl <|
      .cons (uncut_turn 5 rfl rfl) rfl <| .nil _,
      mem_singleton.mpr rfl, rfl⟩
  obtain ⟨world, reached, accepted, ended⟩ := run
  exact ⟨_, world, reached, accepted, ended,
    (starts_admitted plainOutside ⟨true, 1⟩ empty_orderly).2 _ _ reached _ _
      accepted ended⟩

end Hal0.Bridge
