import Hal0.Core.Transition
import Hal0.Slots.ManagerHandles

/-!
# Renaming a slot among its other tasks

`rename` checks that the slot is offline and reads its config, then takes the
slot's lock and moves the files.  Where the lock is free nothing comes between;
where a load or an unload holds it, rename waits with what it has read.  The
rebinding at the end moves the entries which the new name may have gathered
over the slot's own.

A load or an unload holds the slot's lock from `acquire` to `release` and
publishes what it likes in between; an update writes any document.  One rename
of a name is under way at a time.
-/

namespace Hal0.Slots.Rename

open Function Option
open Hal0.Transition Hal0.Handles Hal0.Slots.ConfigFiles

/-! ## The steps -/

/-- A step of a load, or of a rename. -/
inductive Action where
  /-- A load or an unload comes to the slot's lock. -/
  | acquire (task : TaskId) (name : Name)
  | release (task : TaskId)
  /-- `_transition`. -/
  | transition (name : Name) (state : SlotState) (rest : Nat)
  /-- The other dicts, as loads and requests set them. -/
  | note (name : Name) (attr : Attr) (token : Option attr.Value)
  /-- `update_config`. -/
  | update (name : Name) (doc : Doc)
  /-- The probes `state` and `is_busy`. -/
  | probe (name : Name)
  | busy (name : Name)
  | rename (task : TaskId) (old new : Name)
  /-- A rename which waited goes on. -/
  | resume (task : TaskId)

namespace Manager

/-- The config which is written: what was read, under the new label. -/
def relabelledConfig (config : Option Doc) (new : Name) (id : Option Int) :
    Doc :=
  let doc := (config.getD ∅).insert "name" (.leaf (.text new))
  match id with
  | some id => doc.insert "id" (.leaf (.other (toString id) true))
  | none => doc

def isIdKeyed (manager : Manager) (row : Nat) : Bool :=
  (manager.config (.byId row)).isSome

/-- The config file: rewritten under its id, or moved to the new name. -/
def movedConfig (manager : Manager) (old new : Name) (row : Nat)
    (config : Option Doc) : FileKey → Option Doc :=
  if manager.isIdKeyed row then
    update manager.config (.byId row)
      (some (relabelledConfig config new (some row)))
  else if (manager.config (.byName old)).isSome then
    update (update manager.config (.byName old) none)
      (.byName new) (some (relabelledConfig config new none))
  else manager.config

/-- The state file before and after. -/
def movedStateFiles (manager : Manager) (old new : Name) (row : Nat) :
    FileKey × FileKey :=
  if manager.isIdKeyed row then (.byId row, .byId row)
  else (.byName old, .byName new)

/-- The record is rewritten with the new name, in the cache and on disk. -/
def moveState (manager : Manager) (old new : Name) (row : Nat) : Manager :=
  let files := manager.movedStateFiles old new row
  match (manager.dicts .states row).or (manager.stateFile files.1) with
  | some record =>
    { manager.setDict .states row (some { record with name := new }) with
      stateFile :=
        update (update manager.stateFile files.1 none)
          files.2 (some { record with name := new }) }
  | none => manager

/-- The locked part of `rename`; `none` on a name clash. -/
def move (manager : Manager) (old new : Name) (config : Option Doc) :
    Option Manager :=
  (manager.registry.identity.rows old).bind fun row =>
    (manager.registry.relabel old new).map fun registry =>
      let moved := { manager.moveState old new row with
        config := manager.movedConfig old new row config }
      let rebound := moved.rebind new row
      { rebound with
          registry := registry
          keyToName := update rebound.keyToName (row : Int)
            (some new) }.setDict .cfgCache row none

/-- `rename` up to the slot's lock: what it has read, and the lock. -/
def prepare (rules : Rules) (manager : Manager) (old : Name) :
    Manager × Option Doc × LockId :=
  let checked := (manager.currentState old).1
  let config := (checked.config (checked.configFileFor old)).map
    (loadSlotConfig rules old)
  let identified := (checked.ensureIdentity old).1
  let locked := identified.lockOf old
  (locked.1, config, locked.2)

/-- `rename`, to its end or to its wait. -/
def rename (rules : Rules) (manager : Manager) (task : TaskId)
    (old new : Name) : Manager :=
  if old = new || new = "" || !manager.isKnown old then manager
  else if manager.stateOf old ≠ .offline then (manager.currentState old).1
  else
    let ready := manager.prepare rules old
    let lock := ready.1.locks ready.2.2
    if lock.isFree then (ready.1.move old new ready.2.1).getD ready.1
    else
      { ready.1.setLock ready.2.2 { lock with queue := lock.queue ++ [task] }
        with
        renames := update manager.renames task
          (some ⟨old, new, ready.2.1, ready.2.2⟩) }

/-- The lock is the task's: the move, with what was read before the wait. -/
def resume (manager : Manager) (task : TaskId) (waiting : Waiting) :
    Option Manager :=
  if (manager.locks waiting.lock).owner = some task then
    let moved := (manager.move waiting.old waiting.new waiting.config).getD
      manager
    some { moved.setLock waiting.lock (moved.locks waiting.lock).release with
      renames := update manager.renames task none }
  else none

/-- A task takes or queues at the slot's lock. -/
def acquire (manager : Manager) (task : TaskId) (name : Name) :
    Option Manager :=
  if (manager.jobs task).isNone && (manager.renames task).isNone &&
      manager.isKnown name then
    let locked := manager.lockOf name
    let lock := locked.1.locks locked.2
    some { locked.1.setLock locked.2
        (if lock.isFree then ⟨some task, []⟩
          else { lock with queue := lock.queue ++ [task] }) with
      jobs := update manager.jobs task (some locked.2) }
  else none

/-- The task gives its lock up. -/
def release (manager : Manager) (task : TaskId) : Option Manager :=
  (manager.jobs task).bind fun id =>
    if (manager.locks id).owner = some task then
      some { manager.setLock id (manager.locks id).release with
        jobs := update manager.jobs task none }
    else none

/-- The file is written, the parsed config dropped, the failures reset. -/
def updateConfig (manager : Manager) (name : Name) (doc : Doc) :
    Option Manager :=
  if manager.isKnown name then
    let touched := manager.touch name
    some ({ (touched.1.setDict .cfgCache touched.2 none) with
      config := update manager.config (manager.configFileFor name)
        (some doc) }.setDict .loadFailures touched.2 none)
  else none

/-- A note on a slot, in a dict which holds no record and no lock. -/
def note (manager : Manager) (name : Name) (attr : Attr)
    (token : Option attr.Value) : Option Manager :=
  if attr = .states || attr = .locks then none
  else
    let touched := manager.touch name
    some (touched.1.setDict attr touched.2 token)

/-- One step of the manager. -/
def step (rules : Rules) (manager : Manager) : Action → Option Manager
  | .acquire task name => manager.acquire task name
  | .release task => manager.release task
  | .transition name state rest => some (manager.transition name state rest)
  | .note name attr token => manager.note name attr token
  | .update name doc => manager.updateConfig name doc
  | .probe name => some (manager.currentState name).1
  | .busy name => some (manager.touch name).1
  | .rename task old new =>
    if (manager.jobs task).isNone && (manager.renames task).isNone then
      some (manager.rename rules task old new)
    else none
  | .resume task => (manager.renames task).bind (manager.resume task)

/-! ## What the parts of a step change -/

/-- Only the entry of one slot in one dict has changed. -/
structure Frame (before after : Manager) (attr : Attr) (name : Name) :
    Prop where
  sound : after.Sound
  identity : after.registry.identity = before.registry.identity
  config : after.config = before.config
  stateFile : after.stateFile = before.stateFile
  renames : after.renames = before.renames
  own : ∀ found other, found ≠ attr ∨ other ≠ name →
    after.own found other = before.own found other

section Parts

variable {manager : Manager} {name other old new : Name}

theorem Sound.frame_touch (sound : manager.Sound) (name : Name)
    (attr : Attr) : Frame manager (manager.touch name).1 attr name := by
  have touched := sound.touch name
  exact ⟨touched.sound, touched.identity, touched.config, touched.stateFile,
    rfl, fun found other _ => touched.own found other⟩

theorem Sound.frame_entry (sound : manager.Sound) (name : Name)
    (attr : Attr) (entry : Option attr.Value) :
    Frame manager
        ((manager.touch name).1.setDict attr (manager.touch name).2 entry)
        attr name ∧
      ((manager.touch name).1.setDict attr (manager.touch name).2 entry).own
        attr name = entry := by
  have touched := sound.touch name
  have bound := peekKey_of_nameToKey touched.bound
  refine ⟨⟨touched.sound.setDict touched.bound entry, touched.identity,
    touched.config, touched.stateFile, rfl, ?_⟩, own_setDict bound entry⟩
  intro found other apart
  rw [← touched.own found other]
  by_cases isName : other = name
  · rcases apart with differs | differs
    · exact own_setDict_of_ne differs entry other
    · exact absurd isName differs
  · exact touched.sound.own_setDict_other bound isName entry found

/-- `_current_state` leaves the record of the slot in the cache. -/
theorem Sound.currentState (sound : manager.Sound) (name : Name) :
    Frame manager (manager.currentState name).1 .states name ∧
      (manager.currentState name).1.own .states name =
        manager.recordOf name := by
  unfold Manager.currentState
  cases cached : manager.own .states name with
  | some record =>
    refine ⟨sound.frame_touch name .states, ?_⟩
    rw [(sound.touch name).own, cached, recordOf, cached]
    rfl
  | none =>
    cases found : manager.recordOf name with
    | some record => exact sound.frame_entry name .states (some record)
    | none =>
      refine ⟨sound.frame_touch name .states, ?_⟩
      rw [(sound.touch name).own, cached]

theorem Sound.lockOf (sound : manager.Sound) (name : Name) :
    Frame manager (manager.lockOf name).1 .locks name ∧
      (manager.lockOf name).1.own .locks name =
        some (manager.lockOf name).2 ∧
      (manager.own .locks name = some (manager.lockOf name).2 ∧
          (manager.lockOf name).1.locks = manager.locks ∨
        manager.own .locks name = none ∧
          ((manager.lockOf name).1.locks
            (manager.lockOf name).2).isFree = true) := by
  unfold Manager.lockOf
  cases cached : manager.own .locks name with
  | some id =>
    refine ⟨sound.frame_touch name .locks, ?_, .inl ⟨rfl, rfl⟩⟩
    rw [(sound.touch name).own, cached]
  | none =>
    have entry := sound.frame_entry name .locks (some manager.nextLock)
    refine ⟨⟨?_, entry.1.identity, entry.1.config, entry.1.stateFile, rfl,
      entry.1.own⟩, entry.2, .inr ⟨rfl, ?_⟩⟩
    · exact ⟨entry.1.sound.kept, entry.1.sound.inverse,
        entry.1.sound.bound, entry.1.sound.stored⟩
    · simp [LockState.isFree]

variable {after : Manager}

theorem Frame.storedId {attr : Attr} (sound : manager.Sound)
    (frame : Frame manager after attr name)
    (other : Name) : after.storedId other = manager.storedId other := by
  apply Sound.storedId_congr sound frame.sound
  intro row
  rw [frame.identity, frame.config]

theorem Frame.configFileFor {attr : Attr} (sound : manager.Sound)
    (frame : Frame manager after attr name) (other : Name) :
    after.configFileFor other = manager.configFileFor other := by
  simp only [Manager.configFileFor, frame.storedId sound]

theorem currentState_locks (manager : Manager) (name : Name) :
    (manager.currentState name).1.locks = manager.locks := by
  unfold Manager.currentState
  split <;> rfl

/-- The slot as `rename` has prepared it. -/
structure Ready (before after : Manager) (old : Name) (row : Nat)
    (lock : LockId) : Prop where
  sound : after.Sound
  bound : after.registry.nameToKey old = some (row : Int)
  listed : after.registry.identity.rows old = some row
  rows : ∀ other, other ≠ old →
    after.registry.identity.rows other = before.registry.identity.rows other
  known : ∀ found, before.registry.identity.rows old = some found →
    after.registry.identity.rows old = some found
  config : after.config = before.config
  stateFile : after.stateFile = before.stateFile
  renames : after.renames = before.renames
  others : ∀ attr other, other ≠ old →
    after.own attr other = before.own attr other
  counters : ∀ attr, attr ≠ .states → attr ≠ .locks →
    after.own attr old = before.own attr old
  record : after.own .states old = before.recordOf old
  ownLock : after.own .locks old = some lock
  held : before.own .locks old = some lock ∧ after.locks = before.locks ∨
    before.own .locks old = none ∧ (after.locks lock).isFree = true

theorem Sound.prepare (sound : manager.Sound) (rules : Rules) (old : Name) :
    ∃ row, Ready manager (manager.prepare rules old).1 old row
        (manager.prepare rules old).2.2 ∧
      (manager.prepare rules old).2.1 =
        (manager.config (manager.configFileFor old)).map
          (loadSlotConfig rules old) := by
  have read := sound.currentState old
  have identified := read.1.sound.ensureIdentity old
  have locked := identified.sound.lockOf old
  have locks : ((manager.currentState old).1.ensureIdentity old).1.locks =
      manager.locks := by
    simp [Manager.ensureIdentity, currentState_locks]
  have ownLock :
      ((manager.currentState old).1.ensureIdentity old).1.own .locks old =
        manager.own .locks old := by
    rw [identified.own, read.1.own .locks old (.inl (by decide))]
  refine ⟨((manager.currentState old).1.ensureIdentity old).2, ⟨?_, ?_, ?_,
    ?_, ?_, ?_, ?_, ?_, ?_, ?_, ?_, locked.2.1, ?_⟩, ?_⟩
  · exact locked.1.sound
  · have same : (((manager.currentState old).1.ensureIdentity old).1.touch
        old).1 = ((manager.currentState old).1.ensureIdentity old).1 := by
      simp [Manager.touch, Registry.key, identified.bound]
    simp only [Manager.prepare, Manager.lockOf]
    split
    · rw [same]
      exact identified.bound
    · simp only [same]
      exact identified.bound
  · simp only [Manager.prepare]
    rw [locked.1.identity]
    exact identified.row
  · intro other differs
    simp only [Manager.prepare]
    rw [locked.1.identity, identified.rows other differs, read.1.identity]
  · intro found has
    simp only [Manager.prepare]
    rw [locked.1.identity]
    exact identified.known found (by rw [read.1.identity]; exact has)
  · simp only [Manager.prepare]
    rw [locked.1.config, identified.config, read.1.config]
  · simp only [Manager.prepare]
    rw [locked.1.stateFile, identified.stateFile, read.1.stateFile]
  · simp only [Manager.prepare]
    rw [locked.1.renames, ← read.1.renames]
    simp [Manager.ensureIdentity]
  · intro attr other differs
    simp only [Manager.prepare]
    rw [locked.1.own attr other (.inr differs), identified.own,
      read.1.own attr other (.inr differs)]
  · intro attr notStates notLocks
    simp only [Manager.prepare]
    rw [locked.1.own attr old (.inl notLocks), identified.own,
      read.1.own attr old (.inl notStates)]
  · simp only [Manager.prepare]
    rw [locked.1.own .states old (.inl (by decide)), identified.own, read.2]
  · rw [ownLock, locks] at locked
    exact locked.2.2
  · simp only [Manager.prepare]
    rw [read.1.configFileFor sound, read.1.config]

/-! ## The move -/

/-- The two sides of a move which finds nothing under the new name. -/
structure Moved (before after : Manager) (old new : Name) (row : Nat)
    (config : Option Doc) : Prop where
  sound : after.Sound
  listed : after.registry.identity.rows new = some row
  files : after.config = before.movedConfig old new row config
  renames : after.renames = before.renames
  others : ∀ attr other, other ≠ old → other ≠ new →
    after.own attr other = before.own attr other
  counters : ∀ attr, attr ≠ .states → attr ≠ .cfgCache →
    after.own attr new = before.own attr old
  record : after.own .states new =
    ((before.own .states old).or
      (before.stateFile (before.movedStateFiles old new row).1)).map
        fun record => { record with name := new }

theorem rebind_dicts_of_clear {key : Int}
    (clear : ∀ attr, manager.own attr name = none) :
    (manager.rebind name key).dicts = manager.dicts := by
  unfold rebind
  split
  · rename_i previous cached
    split
    · rfl
    · funext attr
      have vacant := clear attr
      simp only [own, peekKey_of_nameToKey cached, bind_some] at vacant
      simp only [moveEntry, vacant]
  · rfl

theorem moveState_dicts (manager : Manager) (old new : Name) (row : Nat)
    (attr : Attr) (key : Int) (apart : attr ≠ .states ∨ key ≠ row) :
    (manager.moveState old new row).dicts attr key =
      manager.dicts attr key := by
  unfold moveState
  simp only
  split
  · by_cases isStates : attr = .states
    · subst isStates
      have differs : key ≠ row := by
        rcases apart with differs | differs
        · exact absurd rfl differs
        · exact differs
      simp [setDict, differs]
    · simp [setDict, isStates]
  · rfl

theorem moveState_record (manager : Manager) (old new : Name) (row : Nat) :
    (manager.moveState old new row).dicts .states row =
      ((manager.dicts .states row).or
        (manager.stateFile (manager.movedStateFiles old new row).1)).map
          fun record => { record with name := new } := by
  unfold moveState
  simp only
  split
  · rename_i record found
    simp [setDict, found]
  · rename_i found
    rw [found]
    exact (or_eq_none_iff.mp found).1

@[simp]
theorem moveState_registry (manager : Manager) (old new : Name) (row : Nat) :
    (manager.moveState old new row).registry = manager.registry := by
  unfold moveState
  simp only
  split <;> rfl

@[simp]
theorem moveState_keyToName (manager : Manager) (old new : Name)
    (row : Nat) :
    (manager.moveState old new row).keyToName = manager.keyToName := by
  unfold moveState
  simp only
  split <;> rfl

@[simp]
theorem moveState_renames (manager : Manager) (old new : Name) (row : Nat) :
    (manager.moveState old new row).renames = manager.renames := by
  unfold moveState
  simp only
  split <;> rfl

theorem movedConfig_byId (manager : Manager) (old new : Name) (row : Nat)
    (config : Option Doc) (id : Int) :
    (manager.movedConfig old new row config (.byId id)).isSome =
      (manager.config (.byId id)).isSome := by
  unfold movedConfig
  split
  · rename_i keyed
    by_cases isRow : id = row
    · subst isRow
      rw [update_self]
      exact keyed.symm
    · rw [update_of_ne]
      simpa using isRow
  · split
    · rw [update_of_ne (by simp), update_of_ne (by simp)]
    · rfl

variable {row : Nat}

/-- The relabelled names stay apart. -/
theorem relabel_inverse (sound : manager.Sound)
    (bound : manager.registry.nameToKey old = some (row : Int))
    (differs : old ≠ new) (holder : Name) (found : Int) :
    update (update manager.registry.nameToKey old none) new
        (some (row : Int)) holder = some found ↔
      update (manager.rebind new row).keyToName (row : Int)
        (some new) found = some holder := by
  have forgotten := Inverse.unbind sound.inverse bound
  cases cached : manager.registry.nameToKey new with
  | none =>
    have inverse := Inverse.bind forgotten
      (by rw [update_of_ne differs.symm]; exact cached)
      (update_self ..) holder found
    simp only [update_idem] at inverse
    simpa only [rebind, cached] using inverse
  | some previous =>
    have apart : previous ≠ row := by
      rintro rfl
      exact differs (sound.kept.separate old new _
        (peekKey_of_nameToKey bound) (peekKey_of_nameToKey cached))
    have vacated := Inverse.unbind forgotten
      (by rw [update_of_ne differs.symm]; exact cached)
    have inverse := Inverse.bind vacated (update_self ..)
      (by rw [update_of_ne apart.symm, update_self])
      holder found
    simp only [update_idem] at inverse
    rw [update_comm apart.symm, update_idem] at inverse
    simpa only [rebind, cached, if_neg apart] using inverse

theorem move_parts {config : Option Doc}
    (listed : manager.registry.identity.rows old = some row)
    (clear : ∀ attr, (manager.moveState old new row).own attr new = none)
    (moved : manager.move old new config = some after) :
    manager.registry.relabel old new = some after.registry ∧
      after.keyToName = update (manager.rebind new row).keyToName
        (row : Int) (some new) ∧
      (∀ attr key, attr ≠ .cfgCache ∨ key ≠ (row : Int) →
        after.dicts attr key =
          (manager.moveState old new row).dicts attr key) ∧
      after.config = manager.movedConfig old new row config ∧
      after.renames = manager.renames := by
  simp only [move, listed, bind_some, map_eq_some_iff] at moved
  rcases moved with ⟨registry, relabelled, rfl⟩
  refine ⟨relabelled, ?_, ?_, ?_, ?_⟩
  · simp only [setDict, rebind, moveState_registry, moveState_keyToName]
    cases manager.registry.nameToKey new with
    | none => rfl
    | some previous =>
      simp only
      split <;> simp
  · intro attr key apart
    have dicts : (rebind { manager.moveState old new row with
        config := manager.movedConfig old new row config } new
          row).dicts = (manager.moveState old new row).dicts :=
      rebind_dicts_of_clear clear
    simp only [setDict, dicts]
    by_cases isCache : attr = .cfgCache
    · subst isCache
      rcases apart with impossible | notRow
      · exact absurd rfl impossible
      · rw [update_self, update_of_ne notRow]
    · rw [update_of_ne isCache]
  · exact rebind_config ..
  · simp only [setDict, rebind_renames, moveState_renames]

theorem Sound.own_moveState (sound : manager.Sound)
    (bound : manager.registry.nameToKey old = some (row : Int))
    (differs : old ≠ new) (attr : Attr) :
    (manager.moveState old new row).own attr new = manager.own attr new := by
  simp only [Manager.own, moveState_registry]
  cases held : manager.registry.peekKey new with
  | none => rfl
  | some key =>
    rw [bind_some, bind_some, moveState_dicts]
    right
    rintro rfl
    exact differs (sound.kept.separate old new _
      (peekKey_of_nameToKey bound) held)

/-- The entries go with the name. -/
theorem Sound.move (sound : manager.Sound) {config : Option Doc}
    (bound : manager.registry.nameToKey old = some (row : Int))
    (listed : manager.registry.identity.rows old = some row)
    (differs : old ≠ new) (clear : ∀ attr, manager.own attr new = none)
    (moved : manager.move old new config = some after) :
    Moved manager after old new row config := by
  rcases move_parts listed
      (fun attr => (sound.own_moveState bound differs attr).trans (clear attr))
      moved with ⟨relabelled, reverse, dicts, files, renames⟩
  rcases sound.kept.relabel differs relabelled with
    ⟨row', listed', vacant, peeks, kept⟩
  obtain rfl : row = row' := some.inj (listed.symm.trans listed')
  have maps : after.registry.nameToKey =
        update (update manager.registry.nameToKey old none)
          new (some (row : Int)) ∧
      after.registry.identity.rows =
        update (update manager.registry.identity.rows old
          none) new (some row) := by
    simp only [Registry.relabel] at relabelled
    split at relabelled
    · cases relabelled
    · rename_i found present
      simp only [ite_none_right_eq_some, some.injEq]
        at relabelled
      obtain rfl : row = found := some.inj (listed.symm.trans present)
      rw [← relabelled.2]
      exact ⟨rfl, rfl⟩
  refine ⟨⟨kept, ?_, ?_, ?_⟩, ?_, files, renames, ?_, ?_, ?_⟩
  · intro holder found
    rw [maps.1, reverse]
    exact relabel_inverse sound bound differs holder found
  · intro attr key present
    rw [maps.1]
    by_cases isRow : key = row
    · exact ⟨new, by rw [update_self, isRow]⟩
    · rw [dicts attr key (.inr isRow),
        moveState_dicts _ _ _ _ _ _ (.inr isRow)] at present
      rcases sound.bound attr key present with ⟨holder, cached⟩
      refine ⟨holder, ?_⟩
      rw [update_of_ne, update_of_ne]
      · exact cached
      · rintro rfl
        rw [bound, some.injEq] at cached
        exact isRow cached.symm
      · rintro rfl
        have vacantEntry := clear attr
        rw [Manager.own, peekKey_of_nameToKey cached, bind_some]
          at vacantEntry
        rw [vacantEntry] at present
        cases present
  · intro id present
    rw [files, movedConfig_byId] at present
    rw [maps.2]
    rcases sound.stored id present with ⟨positive, holder, found, has, isId⟩
    by_cases isOld : holder = old
    · refine ⟨positive, new, found, ?_, isId⟩
      rw [update_self, ← listed, ← isOld, has]
    · refine ⟨positive, holder, found, ?_, isId⟩
      rw [update_of_ne, update_of_ne isOld]
      · exact has
      · rintro rfl
        rw [vacant] at has
        cases has
  · rw [maps.2, update_self]
  · intro attr other notOld notNew
    simp only [Manager.own, peeks]
    rw [update_of_ne notNew, update_of_ne notOld]
    cases held : manager.registry.peekKey other with
    | none => rfl
    | some key =>
      have apart : key ≠ row := by
        rintro rfl
        exact notOld (sound.kept.separate other old _ held
          (peekKey_of_nameToKey bound))
      rw [bind_some, bind_some, dicts attr key (.inr apart),
        moveState_dicts _ _ _ _ _ _ (.inr apart)]
  · intro attr notStates notCache
    simp only [Manager.own, peeks, peekKey_of_nameToKey bound]
    rw [update_self, bind_some, bind_some, dicts attr row (.inl notCache),
      moveState_dicts _ _ _ _ _ _ (.inl notStates)]
  · simp only [Manager.own, peeks, peekKey_of_nameToKey bound]
    rw [update_self, bind_some, bind_some,
      dicts .states row (.inl (by decide)), moveState_record]

end Parts

end Manager

end Hal0.Slots.Rename
