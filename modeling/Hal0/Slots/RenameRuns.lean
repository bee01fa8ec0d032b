import Hal0.Slots.Rename

/-!
# What a rename keeps of a slot

A rename which finds the slot's lock free and nothing under the handle of the
new name is one step: the slot is offline when its files move, the config on
disk is the one which gets the new label, and record, lock and counters stay
under the handle.  A rename which waits for a load moves what it read before
the wait; and what a probe of the new name has cached replaces the slot's own.
-/

namespace Hal0.Slots.Rename

open Function Option
open Hal0.Transition Hal0.Handles Hal0.Slots.ConfigFiles

/-! ## The purpose -/

/-- A refused rename, or one which waits: no file and no counter moves. -/
structure Unmoved (before after : Manager) : Prop where
  config : after.config = before.config
  stateFile : after.stateFile = before.stateFile
  counters : ∀ attr name, attr ≠ .states → attr ≠ .locks →
    after.own attr name = before.own attr name

/-- The slot `old` is the slot `new`, with all that it had. -/
structure Relabelled (rules : Rules) (before after : Manager)
    (old new : Name) : Prop where
  offline : before.stateOf old = .offline
  config : ∀ doc, before.config (before.configFileFor old) = some doc →
    after.config (after.configFileFor new) =
      some (Manager.relabelledConfig (some (loadSlotConfig rules old doc)) new
        (after.storedId new))
  files : ∀ file, file ≠ before.configFileFor old →
    file ≠ after.configFileFor new → after.config file = before.config file
  record : after.own .states new =
    (before.recordOf old).map fun record => { record with name := new }
  lock : ∀ id, before.own .locks old = some id →
    after.own .locks new = some id
  counters : ∀ attr, attr ≠ .states → attr ≠ .locks → attr ≠ .cfgCache →
    after.own attr new = before.own attr old
  others : ∀ attr name, name ≠ old → name ≠ new →
    after.own attr name = before.own attr name

namespace Manager

/-- The rename which an action carries on, if it does. -/
def mover (manager : Manager) : Action → Option (Name × Name)
  | .rename _ old new => some (old, new)
  | .resume task =>
    (manager.renames task).map fun waiting => (waiting.old, waiting.new)
  | _ => none

/-- What is asked of every step of a rename. -/
def Preserves (rules : Rules) (before : Manager) (action : Action)
    (after : Manager) : Prop :=
  after.Inverse ∧ ∀ old new, before.mover action = some (old, new) →
    Unmoved before after ∨ Relabelled rules before after old new

/-! ## Calm renames -/

def allAttrs : List Attr :=
  [.states, .locks, .lastUsed, .cfgCache, .failWatchers, .adoptPromoters,
    .servingCount, .dispatchTickets, .loadFailures]

theorem mem_allAttrs (attr : Attr) : attr ∈ allAttrs := by
  cases attr <;> decide

def lockFree (manager : Manager) (name : Name) : Bool :=
  (manager.own .locks name).all fun id => (manager.locks id).isFree

/-- No table has an entry of the name. -/
def isClear (manager : Manager) (name : Name) : Bool :=
  allAttrs.all fun attr => (manager.own attr name).isNone

/--
A rename starts when no load or unload of the slot is under way, and when
nothing is stored under the handle of the new name.
-/
def Calm (manager : Manager) : Action → Prop
  | .rename _ old new =>
    manager.lockFree old = true ∧ manager.isClear new = true
  | _ => True

instance (manager : Manager) (action : Action) :
    Decidable (manager.Calm action) :=
  match action with
  | .rename _ old new =>
    inferInstanceAs (Decidable (manager.lockFree old = true ∧
      manager.isClear new = true))
  | .acquire .. | .release .. | .transition .. | .note .. | .update .. |
    .probe .. | .busy .. | .resume .. => inferInstanceAs (Decidable True)

theorem own_of_isClear {manager : Manager} {name : Name}
    (clear : manager.isClear name = true) (attr : Attr) :
    manager.own attr name = none := by
  rw [← isNone_iff_eq_none]
  exact List.all_eq_true.mp clear attr (mem_allAttrs attr)

/-! ## One rename -/

section Rename

variable {rules : Rules} {manager ready after : Manager}
  {old new : Name} {row : Nat} {lock : LockId}

theorem Sound.configFileFor_of_row (sound : manager.Sound)
    (listed : manager.registry.identity.rows old = some row) :
    manager.configFileFor old =
        (if manager.isIdKeyed row then .byId row else .byName old) ∧
      manager.storedId old =
        (if manager.isIdKeyed row then some (row : Int) else none) := by
  have stored : manager.storedId old =
      (if manager.isIdKeyed row then some (row : Int) else none) := by
    split
    · rename_i keyed
      exact sound.storedId_eq_some_iff.mpr ⟨⟨row, listed, rfl⟩, keyed⟩
    · rename_i unkeyed
      rw [← not_isSome_iff_eq_none, isSome_iff_exists]
      rintro ⟨id, found⟩
      rcases sound.storedId_eq_some_iff.mp found with
        ⟨⟨other, has, rfl⟩, present⟩
      obtain rfl := some.inj (listed.symm.trans has)
      exact unkeyed present
  refine ⟨?_, stored⟩
  simp only [Manager.configFileFor, stored]
  by_cases keyed : manager.isIdKeyed row = true
  · simp only [if_pos keyed]
  · simp only [if_neg keyed]

section

variable (prepared : Ready manager ready old row lock)
include prepared

theorem Ready.storedId
    (sound : manager.Sound) : ready.storedId old = manager.storedId old := by
  apply Sound.storedId_congr sound prepared.sound
  intro found
  rw [prepared.config]
  constructor
  · rintro ⟨has, present⟩
    rcases sound.stored _ present with ⟨-, holder, other, listed, same⟩
    obtain rfl : found = other := by exact_mod_cast same
    by_cases isOld : holder = old
    · exact ⟨isOld ▸ listed, present⟩
    · rw [← prepared.rows holder isOld] at listed
      exact absurd (ready.registry.identity.distinct holder old found listed
        has) isOld
  · rintro ⟨has, present⟩
    exact ⟨prepared.known found has, present⟩

theorem Ready.configFileFor (sound : manager.Sound) :
    ready.configFileFor old = manager.configFileFor old := by
  simp only [Manager.configFileFor, prepared.storedId sound]

theorem Ready.record_or (sound : manager.Sound) :
    (ready.own .states old).or
        (ready.stateFile (ready.movedStateFiles old new row).1) =
      manager.recordOf old := by
  rw [prepared.record]
  cases found : manager.recordOf old with
  | some record => rfl
  | none =>
    rw [none_or, prepared.stateFile]
    have absent := (or_eq_none_iff.mp found).2
    have stored := (prepared.sound.configFileFor_of_row prepared.listed).2
    rw [prepared.storedId sound] at stored
    unfold stateFileFor at absent
    unfold movedStateFiles
    by_cases keyed : ready.isIdKeyed row = true
    · rw [stored, if_pos keyed] at absent
      rw [if_pos keyed]
      by_cases present :
          (manager.stateFile (.byId (row : Int))).isSome = true
      · simp only [present, if_true] at absent
        rw [absent] at present
        cases present
      · simpa using present
    · rw [stored, if_neg keyed] at absent
      rw [if_neg keyed]
      exact absent

end

theorem Moved.config {config : Option Doc}
    (moved : Moved ready after old new row config) (sound : ready.Sound)
    (listed : ready.registry.identity.rows old = some row)
    (present : (ready.config (ready.configFileFor old)).isSome = true) :
    after.config (after.configFileFor new) =
      some (relabelledConfig config new (after.storedId new)) := by
  have source := (sound.configFileFor_of_row listed).1
  have target := moved.sound.configFileFor_of_row moved.listed
  have same : after.isIdKeyed row = ready.isIdKeyed row := by
    simp only [isIdKeyed, moved.files, movedConfig_byId]
  rw [target.1, target.2, moved.files, same]
  rw [source] at present
  unfold movedConfig
  by_cases keyed : ready.isIdKeyed row = true
  · simp only [if_pos keyed, update_self]
  · rw [if_neg keyed] at present
    simp only [if_neg keyed, present, if_true, update_self]

theorem Moved.config_other {config : Option Doc}
    (moved : Moved ready after old new row config) (sound : ready.Sound)
    (listed : ready.registry.identity.rows old = some row) (file : FileKey)
    (notSource : file ≠ ready.configFileFor old)
    (notTarget : file ≠ after.configFileFor new) :
    after.config file = ready.config file := by
  have same : after.isIdKeyed row = ready.isIdKeyed row := by
    simp only [isIdKeyed, moved.files, movedConfig_byId]
  rw [(sound.configFileFor_of_row listed).1] at notSource
  rw [(moved.sound.configFileFor_of_row moved.listed).1, same] at notTarget
  rw [moved.files]
  unfold movedConfig
  by_cases keyed : ready.isIdKeyed row = true
  · rw [if_pos keyed] at notSource
    rw [if_pos keyed, update_of_ne notSource]
  · rw [if_neg keyed] at notSource notTarget
    rw [if_neg keyed]
    split
    · rw [update_of_ne notTarget, update_of_ne notSource]
    · rfl

theorem Ready.relabelled (prepared : Ready manager ready old row lock)
    (sound : manager.Sound)
    (offline : manager.stateOf old = .offline)
    (moved : Moved ready after old new row
      ((manager.config (manager.configFileFor old)).map
        (loadSlotConfig rules old))) :
    Relabelled rules manager after old new where
  offline := offline
  config := by
    intro doc found
    rw [moved.config prepared.sound prepared.listed, found]
    · rfl
    · rw [prepared.configFileFor sound, prepared.config, found]
      rfl
  files := by
    intro file notSource notTarget
    rw [← prepared.configFileFor sound] at notSource
    rw [moved.config_other prepared.sound prepared.listed file notSource
      notTarget, prepared.config]
  record := by
    rw [moved.record, prepared.record_or sound]
  lock := by
    intro id held
    rw [moved.counters .locks (by decide) (by decide), prepared.ownLock]
    rcases prepared.held with ⟨same, -⟩ | ⟨absent, -⟩
    · rw [← same, held]
    · rw [absent] at held
      cases held
  counters := by
    intro attr notStates notLocks notCache
    rw [moved.counters attr notStates notCache,
      prepared.counters attr notStates notLocks]
  others := by
    intro attr name notOld notNew
    rw [moved.others attr name notOld notNew, prepared.others attr name notOld]

theorem Ready.unmoved (prepared : Ready manager ready old row lock) :
    Unmoved manager ready where
  config := prepared.config
  stateFile := prepared.stateFile
  counters := by
    intro attr name notStates notLocks
    by_cases isOld : name = old
    · rw [isOld, prepared.counters attr notStates notLocks]
    · exact prepared.others attr name isOld

/-- A rename keeps the tables sound. -/
theorem Sound.rename (sound : manager.Sound) (rules : Rules)
    (task : TaskId) (free : manager.lockFree old = true)
    (clear : manager.isClear new = true) :
    (manager.rename rules task old new).Sound ∧
      (manager.rename rules task old new).renames = manager.renames ∧
      (Unmoved manager (manager.rename rules task old new) ∨
        Relabelled rules manager (manager.rename rules task old new) old
          new) := by
  unfold Manager.rename
  split
  · exact ⟨sound, rfl, .inl ⟨rfl, rfl, fun _ _ _ _ => rfl⟩⟩
  · rename_i proper
    have differs : old ≠ new := by
      rintro rfl
      simp at proper
    split
    · have read := (sound.currentState old).1
      exact ⟨read.sound, read.renames, .inl ⟨read.config, read.stateFile,
        fun attr name notStates _ => read.own attr name (.inl notStates)⟩⟩
    · rename_i offline
      have offline : manager.stateOf old = .offline := by simpa using offline
      rcases sound.prepare rules old with ⟨row, prepared, config⟩
      have lockIsFree : ((manager.prepare rules old).1.locks
          (manager.prepare rules old).2.2).isFree = true := by
        rcases prepared.held with ⟨held, same⟩ | ⟨-, fresh⟩
        · rw [same]
          simpa [lockFree, held] using free
        · exact fresh
      rw [if_pos lockIsFree]
      cases moved : (manager.prepare rules old).1.move old new
          (manager.prepare rules old).2.1 with
      | none =>
        exact ⟨prepared.sound, prepared.renames, .inl prepared.unmoved⟩
      | some after =>
        have clear' : ∀ attr,
            (manager.prepare rules old).1.own attr new = none := by
          intro attr
          rw [prepared.others attr new differs.symm]
          exact own_of_isClear clear attr
        have result := prepared.sound.move prepared.bound prepared.listed
          differs clear' moved
        rw [config] at result
        exact ⟨result.sound, result.renames.trans prepared.renames,
          .inr (prepared.relabelled sound offline result)⟩

end Rename

/-! ## Runs -/

/-- No rename is under way. -/
structure Settled (manager : Manager) : Prop where
  sound : manager.Sound
  moving : ∀ task, manager.renames task = none

section Runs

variable {rules : Rules} {manager after : Manager} {name : Name}
  {task : TaskId}

theorem Frame.settled {attr : Attr} (settled : manager.Settled)
    (frame : Frame manager after attr name) : after.Settled := by
  refine ⟨frame.sound, ?_⟩
  rw [frame.renames]
  exact settled.moving

theorem Settled.acquire (settled : manager.Settled)
    (moved : manager.acquire task name = some after) : after.Settled := by
  simp only [Manager.acquire, ite_none_right_eq_some, some.injEq] at moved
  have locked := (settled.sound.lockOf name).1.settled settled
  rw [← moved.2]
  exact ⟨⟨locked.sound.kept, locked.sound.inverse, locked.sound.bound,
    locked.sound.stored⟩, locked.moving⟩

theorem Settled.release (settled : manager.Settled)
    (moved : manager.release task = some after) : after.Settled := by
  simp only [Manager.release, bind_eq_some_iff,
    ite_none_right_eq_some, some.injEq] at moved
  rcases moved with ⟨id, -, -, rfl⟩
  exact ⟨⟨settled.sound.kept, settled.sound.inverse, settled.sound.bound,
    settled.sound.stored⟩, settled.moving⟩

theorem Settled.transition (settled : manager.Settled) (name : Name)
    (state : SlotState) (rest : Nat) :
    (manager.transition name state rest).Settled := by
  have entry := (settled.sound.frame_entry name .states
    (some ⟨name, state, rest⟩)).1.settled settled
  exact ⟨entry.sound.setStateFile _, entry.moving⟩

theorem Settled.note (settled : manager.Settled) {attr : Attr}
    {token : Option attr.Value}
    (moved : manager.note name attr token = some after) : after.Settled := by
  simp only [Manager.note, ite_none_left_eq_some, some.injEq] at moved
  rw [← moved.2]
  exact (settled.sound.frame_entry name attr token).1.settled settled

theorem Settled.updateConfig (settled : manager.Settled) {doc : Doc}
    (moved : manager.updateConfig name doc = some after) :
    after.Settled := by
  simp only [Manager.updateConfig, ite_none_right_eq_some, some.injEq] at moved
  have entry := (settled.sound.frame_entry name .cfgCache none).1
  have written : Sound
      { (manager.touch name).1.setDict .cfgCache (manager.touch name).2 none
        with
        config := update manager.config (manager.configFileFor name)
          (some doc) } := by
    apply entry.sound.setConfig
    intro id present
    by_cases isFile : FileKey.byId id = manager.configFileFor name
    · have stored : manager.storedId name = some id := by
        unfold Manager.configFileFor at isFile
        cases found : manager.storedId name with
        | none => simp [found] at isFile
        | some other => simpa [found] using isFile.symm
      exact (settled.sound.storedId_eq_some_iff.mp stored).2
    · rwa [update_of_ne isFile] at present
  rw [← moved.2]
  exact ⟨written.setDict (settled.sound.touch name).bound _, settled.moving⟩

/-- Every calm step does. -/
theorem Settled.step (settled : manager.Settled) {action : Action}
    (calm : manager.Calm action)
    (moved : manager.step rules action = some after) : after.Settled := by
  cases action with
  | acquire task name => exact settled.acquire moved
  | release task => exact settled.release moved
  | transition name state rest =>
    rw [← some.inj moved]
    exact settled.transition name state rest
  | note name attr token => exact settled.note moved
  | update name doc => exact settled.updateConfig moved
  | probe name =>
    rw [← some.inj moved]
    exact (settled.sound.currentState name).1.settled settled
  | busy name =>
    rw [← some.inj moved]
    exact (settled.sound.frame_touch name .states).settled settled
  | rename task old new =>
    simp only [Manager.step, ite_none_right_eq_some, some.injEq] at moved
    have result := settled.sound.rename rules task calm.1 calm.2
    rw [moved.2] at result
    exact ⟨result.1, fun task => by rw [result.2.1, settled.moving]⟩
  | resume task => simp [Manager.step, settled.moving] at moved

/-- And nothing is lost by it. -/
theorem Settled.preserves (settled : manager.Settled) {action : Action}
    (calm : manager.Calm action)
    (moved : manager.step rules action = some after) :
    Preserves rules manager action after := by
  refine ⟨(settled.step calm moved).sound.inverse, ?_⟩
  intro old new moving
  cases action with
  | rename task source target =>
    simp only [mover, some.injEq, Prod.mk.injEq] at moving
    rcases moving with ⟨rfl, rfl⟩
    simp only [Manager.step, ite_none_right_eq_some, some.injEq] at moved
    rw [← moved.2]
    exact (settled.sound.rename rules task calm.1 calm.2).2.2
  | resume task => simp [mover, settled.moving] at moving
  | acquire task name => cases moving
  | release task => cases moving
  | transition name state rest => cases moving
  | note name attr token => cases moving
  | update name doc => cases moving
  | probe name => cases moving
  | busy name => cases moving

end Runs

/--
What a box has on disk when the manager starts: files under an id are those
of an identity row, and ids start from one.
-/
structure Box where
  identity : IdentityStore
  config : FileKey → Option Doc
  stateFile : FileKey → Option Record
  stored : ∀ id, (config (.byId id)).isSome = true →
    1 ≤ id ∧ ∃ name row, identity.rows name = some row ∧ id = (row : Int)

/-- The manager after a start. -/
def boot (box : Box) : Manager where
  registry := .boot box.identity
  keyToName := fun _ => none
  dicts := fun _ _ => none
  locks := fun _ => ⟨none, []⟩
  nextLock := 0
  config := box.config
  stateFile := box.stateFile
  jobs := fun _ => none
  renames := fun _ => none

theorem boot_settled (box : Box) : (boot box).Settled where
  sound := by
    refine ⟨.boot box.identity, ?_, ?_, box.stored⟩
    · intro name key
      simp [boot, Registry.boot]
    · intro attr key present
      simp [boot] at present
  moving := fun _ => rfl

/--
In every run whose renames are calm, each step keeps the two maps inverse,
and each rename is refused or relabels an offline slot with all that it had.
-/
theorem relabelled_of_calm (rules : Rules) (box : Box)
    {actions : List Action} {reached after : Manager} {action : Action}
    (run : Run (step rules) Calm (boot box) actions reached)
    (calm : reached.Calm action)
    (moved : reached.step rules action = some after) :
    Preserves rules reached action after := by
  have settled := run.invariant Settled (boot_settled box)
    fun _ _ _ holds permitted stepped => holds.step permitted stepped
  exact settled.preserves calm moved

def chatDoc : Doc := (∅ : Doc).insert "name" (.leaf (.text "chat"))

/-- The slot `chat`, and a state left over from a slot `talk`. -/
def chatBox : Box where
  identity := .empty
  config := fun file => if file = .byName "chat" then some chatDoc else none
  stateFile := fun file =>
    if file = .byName "talk" then some ⟨"talk", .error, 7⟩ else none
  stored := by simp

/-- A load and an unload of `chat`, before it is renamed. -/
def loadAndUnload : List Action :=
  [.acquire 1 "chat", .transition "chat" .ready 1, .release 1,
    .note "chat" .lastUsed (some 5), .acquire 1 "chat",
    .transition "chat" .offline 2, .release 1]

/-- A slot is unloaded and renamed. -/
theorem relabelled_after_unload :
    ∃ reached after,
      Run (step plainRules) Calm (boot chatBox) loadAndUnload reached ∧
        reached.step plainRules (.rename 2 "chat" "talk") = some after ∧
        Preserves plainRules reached (.rename 2 "chat" "talk") after ∧
        after.own .lastUsed "talk" = some (5 : Nat) ∧
        after.own .states "talk" = some (⟨"talk", .offline, 2⟩ : Record) := by
  obtain ⟨reached, run, test⟩ := Run.exists_of_exec (step plainRules) Calm
    (boot chatBox) loadAndUnload
    (fun state =>
      decide (state.Calm (.rename 2 "chat" "talk")) &&
      (state.step plainRules (.rename 2 "chat" "talk")).any fun after =>
        after.own .lastUsed "talk" = some (5 : Nat) &&
        after.own .states "talk" =
          some (⟨"talk", .offline, 2⟩ : Record))
    (by decide +kernel)
  rw [Bool.and_eq_true, decide_eq_true_eq] at test
  cases moved : reached.step plainRules (.rename 2 "chat" "talk") with
  | none => simp [moved] at test
  | some after =>
    simp only [moved, any_some, Bool.and_eq_true, decide_eq_true_eq] at test
    exact ⟨reached, after, run, moved,
      relabelled_of_calm plainRules chatBox run test.1 moved, test.2.1,
      test.2.2⟩

/--
A rename waits behind a load: the slot is ready when its files move, and an
update which returned meanwhile is overwritten.
-/
def renameBehindLoad : List Action :=
  [.acquire 1 "chat", .rename 2 "chat" "chat2",
    .transition "chat" .ready 1,
    .update "chat" (chatDoc.insert "autoload" (.leaf (.flag true))),
    .release 1]

/-- A probe of `talk` caches the state which is left over there. -/
def probeThenRename : List Action :=
  [.transition "chat" .offline 2, .probe "talk"]

theorem rename_moves_stale_and_foreign :
    (∃ reached after,
      Run (step plainRules) Anything (boot chatBox) renameBehindLoad reached ∧
        reached.step plainRules (.resume 2) = some after ∧
        ¬ Preserves plainRules reached (.resume 2) after ∧
        reached.stateOf "chat" = .ready ∧
        ((after.config (.byName "chat2")).bind (·["autoload"]?)) = none) ∧
      ∃ reached after,
        Run (step plainRules) Anything (boot chatBox) probeThenRename
            reached ∧
          reached.step plainRules (.rename 2 "chat" "talk") = some after ∧
          ¬ Preserves plainRules reached (.rename 2 "chat" "talk") after ∧
          after.stateOf "talk" = .error := by
  constructor
  · obtain ⟨reached, run, test⟩ := Run.exists_of_exec (step plainRules)
      Anything (boot chatBox) renameBehindLoad
      (fun state =>
        (state.mover (.resume 2) = some ("chat", "chat2")) &&
        (state.stateOf "chat" = .ready) &&
        (state.config (.byName "chat2") = none) &&
        (state.step plainRules (.resume 2)).any fun after =>
          (after.config (.byName "chat2")).isSome &&
          ((after.config (.byName "chat2")).bind (·["autoload"]?)) = none)
      (by decide +kernel)
    cases moved : reached.step plainRules (.resume 2) with
    | none => simp [moved] at test
    | some after =>
      simp only [moved, any_some, Bool.and_eq_true,
        decide_eq_true_eq] at test
      rcases test with ⟨⟨⟨moving, ready⟩, absent⟩, present, lost⟩
      refine ⟨reached, after, run, moved, ?_, ready, lost⟩
      rintro ⟨-, kept⟩
      rcases kept "chat" "chat2" moving with unmoved | relabelled
      · rw [unmoved.config, absent] at present
        cases present
      · rw [relabelled.offline] at ready
        cases ready
  · obtain ⟨reached, run, test⟩ := Run.exists_of_exec (step plainRules)
      Anything (boot chatBox) probeThenRename
      (fun state =>
        (state.config (.byName "talk") = none) &&
        ((state.recordOf "chat").map Record.state = some .offline) &&
        (state.step plainRules (.rename 2 "chat" "talk")).any fun after =>
          (after.config (.byName "talk")).isSome &&
          (after.own .states "talk" = some (⟨"talk", .error, 7⟩ : Record)) &&
          after.stateOf "talk" = .error)
      (by decide +kernel)
    cases moved : reached.step plainRules (.rename 2 "chat" "talk") with
    | none => simp [moved] at test
    | some after =>
      simp only [moved, any_some, Bool.and_eq_true,
        decide_eq_true_eq] at test
      rcases test with ⟨⟨absent, record⟩, ⟨present, foreign⟩, state⟩
      refine ⟨reached, after, run, moved, ?_, state⟩
      rintro ⟨-, kept⟩
      rcases kept "chat" "talk" rfl with unmoved | relabelled
      · rw [unmoved.config, absent] at present
        cases present
      · have moved := relabelled.record
        rw [foreign] at moved
        cases found : reached.recordOf "chat" with
        | none => simp [found] at record
        | some own =>
          simp only [found, map_some, some.injEq] at record
          simp only [found, map_some, some.injEq, Record.mk.injEq] at moved
          rw [record] at moved
          cases moved.2.1

end Manager

end Hal0.Slots.Rename
