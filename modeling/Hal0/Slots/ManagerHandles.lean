import Hal0.Slots.Keys
import Hal0.Slots.State
import Hal0.Slots.ConfigGuards

/-!
# The caches and the files of the slot manager

Nine dicts of `SlotManager` are keyed by the handle of a slot, and two maps
relate names and handles in both directions.  A slot's config and state are
files under its name, or under its id once it is migrated.  These are the
operations on them which `rename` and the tasks beside it are made of.
-/

namespace Hal0.Slots.Rename

open Function Option
open Hal0.Handles Hal0.Slots.ConfigFiles

abbrev Name := Hal0.Slots.SlotName
abbrev TaskId := Nat
abbrev LockId := Nat

/-! ## Data -/

/-- A `SlotStateRecord`; `rest` stands for its other fields. -/
structure Record where
  name : Name
  state : SlotState
  rest : Nat
deriving DecidableEq

/-- The dicts of `_KEY_DICTS_ATTR`. -/
inductive Attr where
  | states
  | locks
  | lastUsed
  | cfgCache
  | failWatchers
  | adoptPromoters
  | servingCount
  | dispatchTickets
  | loadFailures
deriving DecidableEq

abbrev Attr.Value : Attr → Type
  | .states => Record
  | .locks => LockId
  | _ => Nat

/-- Files are named by slot or by id. -/
inductive FileKey where
  | byName (name : Name)
  | byId (id : Int)
deriving DecidableEq

/-- An `asyncio.Lock`: its holder, and the tasks which wait in turn. -/
structure LockState where
  owner : Option TaskId
  queue : List TaskId
deriving DecidableEq

/-- Free, and no task waits: `acquire` does not suspend. -/
def LockState.isFree (lock : LockState) : Bool :=
  lock.owner.isNone && lock.queue.isEmpty

/-- The lock goes to the task which waits longest. -/
def LockState.release (lock : LockState) : LockState :=
  match lock.queue with
  | [] => ⟨none, []⟩
  | task :: rest => ⟨some task, rest⟩

/-- A rename that waits for a lock. -/
structure Waiting where
  old : Name
  new : Name
  config : Option Doc
  lock : LockId

/-- The slot manager's tables. -/
structure Manager where
  registry : Registry
  keyToName : Int → Option Name
  dicts : (attr : Attr) → Int → Option attr.Value
  locks : LockId → LockState
  nextLock : LockId
  config : FileKey → Option Doc
  stateFile : FileKey → Option Record
  /-- The locks which loads and unloads hold or wait for. -/
  jobs : TaskId → Option LockId
  renames : TaskId → Option Waiting

namespace Manager

/-! ## Handles -/

/-- `_key`, with the reverse map. -/
def touch (manager : Manager) (name : Name) : Manager × Int :=
  let found := manager.registry.key name
  ({ manager with
      registry := found.1
      keyToName :=
        match manager.registry.nameToKey name with
        | some _ => manager.keyToName
        | none => update manager.keyToName found.2 (some name) },
    found.2)

/-- `d[key] = d.pop(previous)`, where there is an entry to move. -/
def moveEntry {α : Type} (dict : Int → Option α) (previous key : Int) :
    Int → Option α :=
  match dict previous with
  | some entry =>
    update (update dict previous none) key (some entry)
  | none => dict

/-- What `_bind_key` moves when the name had another handle. -/
def rebind (manager : Manager) (name : Name) (key : Int) : Manager :=
  match manager.registry.nameToKey name with
  | some previous =>
    if previous = key then manager
    else
      { manager with
        dicts := fun attr => moveEntry (manager.dicts attr) previous key
        keyToName := update manager.keyToName previous none }
  | none => manager

/-- `_bind_key`. -/
def bindKey (manager : Manager) (name : Name) (key : Int) : Manager :=
  let moved := manager.rebind name key
  { moved with
    registry := moved.registry.bindKey name key
    keyToName := update moved.keyToName key (some name) }

/-- `_ensure_identity`: the row is created when there is none. -/
def ensureIdentity (manager : Manager) (name : Name) : Manager × Nat :=
  let row := (manager.registry.identify name).2
  let moved := manager.rebind name row
  ({ moved with
      registry := (manager.registry.identify name).1
      keyToName := update moved.keyToName (row : Int) (some name) },
    row)

/-! ## Files -/

/-- The id under which the slot is stored, if it is. -/
def storedId (manager : Manager) (name : Name) : Option Int :=
  (manager.registry.peekKey name).filter fun key =>
    1 ≤ key && (manager.config (.byId key)).isSome

/-- `_config_file_for`. -/
def configFileFor (manager : Manager) (name : Name) : FileKey :=
  match manager.storedId name with
  | some id => .byId id
  | none => .byName name

/-- `_state_file_for`, with its fallback for a half-migrated slot. -/
def stateFileFor (manager : Manager) (name : Name) : FileKey :=
  match manager.storedId name with
  | some id =>
    if (manager.stateFile (.byId id)).isSome then .byId id
    else if (manager.stateFile (.byName name)).isSome then .byName name
    else .byId id
  | none => .byName name

/-! ## States and locks -/

/-- The entry of a dict under the handle of a name. -/
def own (manager : Manager) (attr : Attr) (name : Name) :
    Option attr.Value :=
  (manager.registry.peekKey name).bind (manager.dicts attr)

/-- The record of a slot, cached or on disk. -/
def recordOf (manager : Manager) (name : Name) : Option Record :=
  (manager.own .states name).or
    (manager.stateFile (manager.stateFileFor name))

def stateOf (manager : Manager) (name : Name) : SlotState :=
  ((manager.recordOf name).map Record.state).getD .offline

def setDict (manager : Manager) (attr : Attr) (key : Int)
    (entry : Option attr.Value) : Manager :=
  { manager with
    dicts := update manager.dicts attr
      (update (manager.dicts attr) key entry) }

/-- `_current_state`: a record read from disk is cached. -/
def currentState (manager : Manager) (name : Name) : Manager × SlotState :=
  let touched := manager.touch name
  (match manager.own .states name, manager.recordOf name with
    | none, some record =>
      touched.1.setDict .states touched.2 (some record)
    | _, _ => touched.1,
    manager.stateOf name)

/-- `_lock`: the lock object of the slot, made on first use. -/
def lockOf (manager : Manager) (name : Name) : Manager × LockId :=
  let touched := manager.touch name
  match manager.own .locks name with
  | some id => (touched.1, id)
  | none =>
    ({ touched.1.setDict .locks touched.2 (some manager.nextLock) with
        nextLock := manager.nextLock + 1
        locks := update manager.locks manager.nextLock ⟨none, []⟩ },
      manager.nextLock)

def setLock (manager : Manager) (id : LockId) (lock : LockState) : Manager :=
  { manager with locks := update manager.locks id lock }

/-- `_ensure_known`. -/
def isKnown (manager : Manager) (name : Name) : Bool :=
  (manager.own .states name).isSome ||
    (manager.config (manager.configFileFor name)).isSome ||
    (manager.stateFile (manager.stateFileFor name)).isSome

/-- `_transition`: the cached record and the one on disk. -/
def transition (manager : Manager) (name : Name) (state : SlotState)
    (rest : Nat) : Manager :=
  let touched := manager.touch name
  let record : Record := ⟨name, state, rest⟩
  { touched.1.setDict .states touched.2 (some record) with
    stateFile := update manager.stateFile (manager.stateFileFor name)
      (some record) }

/-! ## What is kept of the handles -/

/-- The two maps between names and handles are inverse to each other. -/
def Inverse (manager : Manager) : Prop :=
  ∀ name key, manager.registry.nameToKey name = some key ↔
    manager.keyToName key = some name

/--
The handles are distinct, the two maps inverse, entries are under the handles
of names, and files under ids are those of identity rows.
-/
structure Sound (manager : Manager) : Prop where
  kept : manager.registry.Kept
  inverse : manager.Inverse
  bound : ∀ attr key, (manager.dicts attr key).isSome = true →
    ∃ name, manager.registry.nameToKey name = some key
  stored : ∀ id, (manager.config (.byId id)).isSome = true →
    1 ≤ id ∧ ∃ name row, manager.registry.identity.rows name = some row ∧
      id = (row : Int)

section Sound

variable {manager : Manager} {name other : Name} {key : Int} {attr : Attr}

theorem peekKey_of_nameToKey
    (cached : manager.registry.nameToKey name = some key) :
    manager.registry.peekKey name = some key := by
  simp [Registry.peekKey, cached]

theorem Sound.dicts_eq_none (sound : manager.Sound)
    (unbound : Unbound manager.registry.peekKey key) (attr : Attr) :
    manager.dicts attr key = none := by
  rw [← not_isSome_iff_eq_none]
  intro present
  rcases sound.bound attr key present with ⟨holder, cached⟩
  exact unbound holder (peekKey_of_nameToKey cached)

theorem Sound.keyToName_eq_none (sound : manager.Sound)
    (unbound : Unbound manager.registry.peekKey key) :
    manager.keyToName key = none := by
  cases found : manager.keyToName key with
  | none => rfl
  | some holder =>
    exact absurd (peekKey_of_nameToKey ((sound.inverse holder key).mpr found))
      (unbound holder)

theorem Inverse.bind {nameToKey : Name → Option Int}
    {keyToName : Int → Option Name}
    (inverse : ∀ name key, nameToKey name = some key ↔
      keyToName key = some name)
    (unnamed : nameToKey name = none) (unbound : keyToName key = none)
    (holder : Name) (found : Int) :
    update nameToKey name (some key) holder = some found ↔
      update keyToName key (some name) found = some holder := by
  by_cases isName : holder = name
  · by_cases isKey : found = key
    · simp [isName, isKey]
    · have absent : ¬ keyToName found = some holder := by
        rw [← inverse, isName, unnamed]
        simp
      rw [update_of_ne isKey]
      simp only [isName, update_self, some.injEq]
      constructor
      · intro same
        exact absurd same.symm isKey
      · intro listed
        exact absurd (isName ▸ listed) absent
  · rw [update_of_ne isName]
    by_cases isKey : found = key
    · simp only [isKey, update_self, some.injEq]
      rw [inverse, unbound]
      constructor
      · intro impossible
        cases impossible
      · intro same
        exact absurd same.symm isName
    · rw [update_of_ne isKey]
      exact inverse holder found

theorem Inverse.unbind {nameToKey : Name → Option Int}
    {keyToName : Int → Option Name}
    (inverse : ∀ name key, nameToKey name = some key ↔
      keyToName key = some name)
    (cached : nameToKey name = some key) (holder : Name) (found : Int) :
    update nameToKey name none holder = some found ↔
      update keyToName key none found = some holder := by
  by_cases isName : holder = name
  · subst isName
    by_cases isKey : found = key
    · simp [isKey]
    · rw [update_of_ne isKey, ← inverse, cached]
      simp only [update_self, some.injEq]
      constructor
      · intro impossible
        cases impossible
      · intro same
        exact absurd same.symm isKey
  · rw [update_of_ne isName]
    by_cases isKey : found = key
    · subst isKey
      simp only [update_self, reduceCtorEq, iff_false]
      intro listed
      rw [inverse, (inverse name found).mp cached] at listed
      exact isName (some.inj listed).symm
    · rw [update_of_ne isKey]
      exact inverse holder found

/-- What a touch leaves behind. -/
structure Touched (before after : Manager) (name : Name) (key : Int) :
    Prop where
  sound : after.Sound
  own : ∀ attr other, after.own attr other = before.own attr other
  bound : after.registry.nameToKey name = some key
  identity : after.registry.identity = before.registry.identity
  config : after.config = before.config
  stateFile : after.stateFile = before.stateFile
  names : ∀ other found, before.registry.peekKey other = some found →
    after.registry.peekKey other = some found

theorem Sound.touch (sound : manager.Sound) (name : Name) :
    Touched manager (manager.touch name).1 name (manager.touch name).2 := by
  cases cached : manager.registry.nameToKey name with
  | some key =>
    have same : manager.touch name = (manager, key) := by
      simp [Manager.touch, Registry.key, cached]
    rw [same]
    exact ⟨sound, fun _ _ => rfl, cached, rfl, rfl, rfl, fun _ _ => id⟩
  | none =>
    have kept : (manager.registry.key name).1.Kept := sound.kept.key
    have unbound : Unbound manager.registry.nameToKey
        (manager.registry.key name).2 := by
      intro holder listed
      have differs : holder ≠ name := by
        rintro rfl
        rw [cached] at listed
        cases listed
      have bound := peekKey_of_nameToKey listed
      rcases manager.registry.key_cases name with
        ⟨same, -, -, -⟩ | ⟨-, returned, -, -, -⟩
      · exact differs (sound.kept.separate holder name _ bound same)
      · exact sound.kept.unbound_surrogate holder (returned ▸ bound)
    have reverse : manager.keyToName (manager.registry.key name).2 =
        none := by
      cases found : manager.keyToName (manager.registry.key name).2 with
      | none => rfl
      | some holder =>
        exact absurd ((sound.inverse holder _).mpr found) (unbound holder)
    have maps : (manager.registry.key name).1.nameToKey =
        update manager.registry.nameToKey name
          (some (manager.registry.key name).2) := by
      cases row : manager.registry.identity.rows name <;>
        simp [Registry.key, cached, row]
    have identity : (manager.registry.key name).1.identity =
        manager.registry.identity := by
      cases row : manager.registry.identity.rows name <;>
        simp [Registry.key, cached, row]
    refine ⟨⟨kept, ?_, ?_, ?_⟩, ?_, ?_, identity, rfl, rfl, ?_⟩
    · intro holder found
      simp only [Manager.touch, cached, maps]
      exact Inverse.bind sound.inverse cached reverse holder found
    · intro attr found present
      rcases sound.bound attr found present with ⟨holder, listed⟩
      refine ⟨holder, ?_⟩
      simp only [Manager.touch, maps]
      rw [update_of_ne]
      · exact listed
      · rintro rfl
        rw [cached] at listed
        cases listed
    · intro id present
      rcases sound.stored id present with
        ⟨positive, holder, row, listed, same⟩
      exact ⟨positive, holder, row, identity ▸ listed, same⟩
    · intro attr other
      simp only [Manager.own, Manager.touch]
      rcases manager.registry.key_cases name with
        ⟨-, peeks, -, -⟩ | ⟨absent, -, peeks, -, -⟩
      · rw [peeks]
      · rw [peeks]
        by_cases isName : other = name
        · subst isName
          rw [update_self, absent]
          exact sound.dicts_eq_none sound.kept.unbound_surrogate attr
        · rw [update_of_ne isName]
    · simp only [Manager.touch, maps, update_self]
    · intro other found bound
      simp only [Manager.touch]
      rcases manager.registry.key_cases name with
        ⟨-, peeks, -, -⟩ | ⟨absent, -, peeks, -, -⟩
      · rw [peeks, bound]
      · rw [peeks, update_of_ne, bound]
        rintro rfl
        rw [absent] at bound
        cases bound

theorem Sound.setDict (sound : manager.Sound)
    (cached : manager.registry.nameToKey name = some key)
    (entry : Option attr.Value) : (manager.setDict attr key entry).Sound where
  kept := sound.kept
  inverse := sound.inverse
  bound := by
    intro found other present
    by_cases isKey : other = key
    · exact ⟨name, isKey ▸ cached⟩
    · apply sound.bound found other
      by_cases isAttr : found = attr
      · subst isAttr
        simpa [Manager.setDict, isKey] using present
      · simpa [Manager.setDict, isAttr] using present
  stored := sound.stored

theorem own_setDict_of_ne {found : Attr} (differs : found ≠ attr)
    (entry : Option attr.Value) (other : Name) :
    (manager.setDict attr key entry).own found other =
      manager.own found other := by
  simp [Manager.own, Manager.setDict, differs]

theorem own_setDict (bound : manager.registry.peekKey name = some key)
    (entry : Option attr.Value) :
    (manager.setDict attr key entry).own attr name = entry := by
  simp [Manager.own, Manager.setDict, bound]

theorem Sound.own_setDict_other (sound : manager.Sound)
    (bound : manager.registry.peekKey name = some key)
    (differs : other ≠ name) (entry : Option attr.Value) (found : Attr) :
    (manager.setDict attr key entry).own found other =
      manager.own found other := by
  by_cases isAttr : found = attr
  · subst isAttr
    simp only [Manager.own, Manager.setDict, update_self]
    cases peeks : manager.registry.peekKey other with
    | none => rfl
    | some held =>
      have apart : held ≠ key := by
        rintro rfl
        exact differs (sound.kept.separate other name held peeks bound)
      simp [apart]
  · exact own_setDict_of_ne isAttr entry other

theorem Sound.setConfig (sound : manager.Sound) {config : FileKey → Option Doc}
    (ids : ∀ id, (config (.byId id)).isSome = true →
      (manager.config (.byId id)).isSome = true) :
    Sound { manager with config := config } where
  kept := sound.kept
  inverse := sound.inverse
  bound := sound.bound
  stored id present := sound.stored id (ids id present)

theorem Sound.setStateFile (sound : manager.Sound)
    (stateFile : FileKey → Option Record) :
    Sound { manager with stateFile := stateFile } :=
  ⟨sound.kept, sound.inverse, sound.bound, sound.stored⟩

theorem rebind_dicts
    (free : ∀ attr, manager.registry.nameToKey name ≠ some key →
      manager.dicts attr key = none) (attr : Attr) :
    (manager.rebind name key).dicts attr key =
        (if manager.registry.nameToKey name = none then
          manager.dicts attr key else manager.own attr name) ∧
      ∀ found, found ≠ key → manager.registry.nameToKey name ≠ some found →
        (manager.rebind name key).dicts attr found =
          manager.dicts attr found := by
  cases cached : manager.registry.nameToKey name with
  | none => simp [rebind, cached]
  | some previous =>
    have bound := peekKey_of_nameToKey cached
    by_cases same : previous = key
    · subst same
      simp [rebind, cached, own, bound]
    · have vacant : manager.dicts attr key = none := by
        apply free attr
        rw [cached]
        simpa using same
      simp only [rebind, cached, if_neg same, own, bound, bind_some,
        reduceCtorEq, if_false, ne_eq, some.injEq]
      cases entry : manager.dicts attr previous with
      | none =>
        simp only [moveEntry, entry, vacant, true_and]
        exact fun _ _ _ => trivial
      | some entry' =>
        simp only [moveEntry, entry, update_self, true_and]
        intro found notKey notPrevious
        rw [update_of_ne notKey, update_of_ne (Ne.symm notPrevious)]

theorem rebind_dicts_previous {previous : Int}
    (cached : manager.registry.nameToKey name = some previous)
    (differs : previous ≠ key) (attr : Attr) :
    (manager.rebind name key).dicts attr previous = none := by
  simp only [rebind, cached, if_neg differs]
  cases entry : manager.dicts attr previous with
  | none => simp [moveEntry, entry]
  | some entry' => simp [moveEntry, entry, update_of_ne differs]

theorem rebind_bound (sound : manager.Sound)
    (free : ∀ attr, manager.registry.nameToKey name ≠ some key →
      manager.dicts attr key = none)
    {found : Int}
    (present : ((manager.rebind name key).dicts attr found).isSome = true) :
    ∃ holder,
      update manager.registry.nameToKey name (some key) holder =
        some found := by
  by_cases isKey : found = key
  · exact ⟨name, by simp [isKey]⟩
  · by_cases was : manager.registry.nameToKey name = some found
    · rw [rebind_dicts_previous was isKey] at present
      cases present
    · rw [(rebind_dicts free attr).2 found isKey was] at present
      rcases sound.bound attr found present with ⟨holder, listed⟩
      refine ⟨holder, ?_⟩
      rw [update_of_ne]
      · exact listed
      · rintro rfl
        exact was listed

/-- A new key keeps the names apart. -/
theorem rebind_inverse (sound : manager.Sound)
    (free : manager.registry.nameToKey name ≠ some key →
      manager.keyToName key = none) (holder : Name) (found : Int) :
    (manager.registry.bindKey name key).nameToKey holder = some found ↔
      update (manager.rebind name key).keyToName key (some name)
        found = some holder := by
  cases cached : manager.registry.nameToKey name with
  | none =>
    simp only [Registry.bindKey, rebind, cached]
    exact Inverse.bind sound.inverse cached (free (by simp [cached]))
      holder found
  | some previous =>
    by_cases same : previous = key
    · subst same
      have listed := (sound.inverse name previous).mp cached
      simp only [Registry.bindKey, rebind, cached, if_true]
      rw [update_eq_self_iff.mpr cached.symm,
        update_eq_self_iff.mpr listed.symm]
      exact sound.inverse holder found
    · have vacant : manager.keyToName key = none := by
        apply free
        rw [cached]
        simpa using same
      have forgotten := Inverse.unbind sound.inverse cached
      have bound := Inverse.bind forgotten (update_self ..)
        (by rw [update_of_ne (Ne.symm same)]; exact vacant)
        holder found
      simp only [update_idem] at bound
      simpa only [Registry.bindKey, rebind, cached, if_neg same] using bound

/-- What `_ensure_identity` leaves behind. -/
structure Identified (before after : Manager) (name : Name) (row : Nat) :
    Prop where
  sound : after.Sound
  own : ∀ attr other, after.own attr other = before.own attr other
  bound : after.registry.nameToKey name = some (row : Int)
  row : after.registry.identity.rows name = some row
  rows : ∀ other, other ≠ name →
    after.registry.identity.rows other = before.registry.identity.rows other
  known : ∀ found, before.registry.identity.rows name = some found →
    after.registry.identity.rows name = some found
  config : after.config = before.config
  stateFile : after.stateFile = before.stateFile

@[simp]
theorem rebind_config (manager : Manager) (name : Name) (key : Int) :
    (manager.rebind name key).config = manager.config := by
  unfold rebind
  split
  · split <;> rfl
  · rfl

@[simp]
theorem rebind_stateFile (manager : Manager) (name : Name) (key : Int) :
    (manager.rebind name key).stateFile = manager.stateFile := by
  unfold rebind
  split
  · split <;> rfl
  · rfl

@[simp]
theorem rebind_renames (manager : Manager) (name : Name) (key : Int) :
    (manager.rebind name key).renames = manager.renames := by
  unfold rebind
  split
  · split <;> rfl
  · rfl

@[simp]
theorem rebind_locks (manager : Manager) (name : Name) (key : Int) :
    (manager.rebind name key).locks = manager.locks := by
  unfold rebind
  split
  · split <;> rfl
  · rfl

theorem Sound.ensureIdentity_known (sound : manager.Sound) {id : Nat}
    (row : manager.registry.identity.rows name = some id) :
    Identified manager (manager.ensureIdentity name).1 name
      (manager.ensureIdentity name).2 := by
  have keptAfter : (manager.registry.identify name).1.Kept :=
    sound.kept.identify
  have isId : (manager.registry.identify name).2 = id := by
    simp [Registry.identify, row]
  have registryAfter : (manager.registry.identify name).1 =
      manager.registry.bindKey name id := by
    simp [Registry.identify, row]
  have bound := sound.kept.rowed name id row
  have unmoved : manager.rebind name id = manager := by
    cases cached : manager.registry.nameToKey name with
    | none => simp [rebind, cached]
    | some previous =>
      rw [peekKey_of_nameToKey cached, some.injEq] at bound
      simp [rebind, cached, bound]
  have free : manager.registry.nameToKey name ≠ some (id : Int) →
      manager.keyToName id = none := by
    intro notCached
    cases found : manager.keyToName id with
    | none => rfl
    | some holder =>
      have listed := (sound.inverse holder id).mpr found
      obtain rfl := sound.kept.separate holder name id
        (peekKey_of_nameToKey listed) bound
      exact absurd listed notCached
  have inverse := rebind_inverse sound free
  have maps : (manager.registry.identify name).1.nameToKey =
      update manager.registry.nameToKey name
        (some (id : Int)) := by
    rw [registryAfter]
    rfl
  simp only [Manager.ensureIdentity, isId, unmoved] at inverse ⊢
  refine ⟨⟨keptAfter, ?_, ?_, ?_⟩, ?_, ?_, ?_, ?_, ?_, rfl, rfl⟩
  · intro holder found
    simp only [registryAfter]
    exact inverse holder found
  · intro attr found present
    rcases sound.bound attr found present with ⟨holder, listed⟩
    by_cases isName : holder = name
    · subst isName
      rw [peekKey_of_nameToKey listed] at bound
      exact ⟨holder, by simp only [maps, update_self, bound]⟩
    · exact ⟨holder, by
        simp only [maps]
        rw [update_of_ne isName, listed]⟩
  · intro stem present
    rw [registryAfter]
    exact sound.stored stem present
  · intro attr other
    simp only [Manager.own, (sound.kept.identify_known row).1]
  · simp only [maps, update_self]
  · rw [registryAfter]
    exact row
  · intro other _
    rw [registryAfter]
    rfl
  · intro found listed
    rw [registryAfter]
    exact listed

/-- A new row has its own key. -/
theorem Sound.ensureIdentity_new (sound : manager.Sound)
    (row : manager.registry.identity.rows name = none) :
    Identified manager (manager.ensureIdentity name).1 name
      (manager.ensureIdentity name).2 := by
  have keptAfter : (manager.registry.identify name).1.Kept :=
    sound.kept.identify
  have isNew : (manager.registry.identify name).2 =
      manager.registry.identity.nextRow := by
    simp [Registry.identify, row]
  have unbound := sound.kept.unbound_row
  have peeks := (sound.kept.identify_new row).1
  have maps : (manager.registry.identify name).1.nameToKey =
      update manager.registry.nameToKey name
        (some (manager.registry.identity.nextRow : Int)) := by
    simp [Registry.identify, row, Registry.bindKey]
  have rows : (manager.registry.identify name).1.identity =
      manager.registry.identity.create name := by
    simp [Registry.identify, row, Registry.bindKey]
  have free : ∀ attr, manager.registry.nameToKey name ≠
      some (manager.registry.identity.nextRow : Int) →
        manager.dicts attr manager.registry.identity.nextRow = none :=
    fun attr _ => sound.dicts_eq_none unbound attr
  have inverse := rebind_inverse sound
    (fun _ : manager.registry.nameToKey name ≠
      some (manager.registry.identity.nextRow : Int) =>
        sound.keyToName_eq_none unbound)
  simp only [Manager.ensureIdentity, isNew]
  refine ⟨⟨keptAfter, ?_, ?_, ?_⟩, ?_, ?_, ?_, ?_, ?_, rebind_config ..,
    rebind_stateFile ..⟩
  · intro holder found
    simp only [maps]
    exact inverse holder found
  · intro attr found present
    simp only [maps]
    exact rebind_bound sound free present
  · intro stem present
    simp only [rebind_config] at present
    rcases sound.stored stem present with
      ⟨positive, holder, id, listed, isId⟩
    refine ⟨positive, holder, id, ?_, isId⟩
    simp only [rows, IdentityStore.create]
    rw [update_of_ne]
    · exact listed
    · rintro rfl
      rw [row] at listed
      cases listed
  · intro attr other
    simp only [Manager.own, peeks]
    by_cases isName : other = name
    · subst isName
      rw [update_self, bind_some, (rebind_dicts free attr).1]
      split
      · next uncached =>
          have absent : manager.registry.peekKey other = none := by
            simp [Registry.peekKey, uncached, row]
          rw [sound.dicts_eq_none unbound, absent]
          rfl
      · rfl
    · rw [update_of_ne isName]
      cases held : manager.registry.peekKey other with
      | none => rfl
      | some found =>
        rw [bind_some, bind_some]
        apply (rebind_dicts free attr).2 found
        · rintro rfl
          exact unbound other held
        · intro cached
          exact isName (sound.kept.separate other name found held
            (peekKey_of_nameToKey cached))
  · simp only [maps, update_self]
  · simp only [rows, IdentityStore.create, update_self]
  · intro other differs
    simp only [rows, IdentityStore.create]
    rw [update_of_ne differs]
  · intro found listed
    rw [row] at listed
    cases listed

/-- `_ensure_identity` takes the entries of a slot to the id of its row. -/
theorem Sound.ensureIdentity (sound : manager.Sound) (name : Name) :
    Identified manager (manager.ensureIdentity name).1 name
      (manager.ensureIdentity name).2 := by
  cases row : manager.registry.identity.rows name with
  | some id => exact sound.ensureIdentity_known row
  | none => exact sound.ensureIdentity_new row

/-! ## Where a slot is stored -/

theorem Sound.storedId_eq_some_iff (sound : manager.Sound) {id : Int} :
    manager.storedId name = some id ↔
      (∃ row : Nat, manager.registry.identity.rows name = some row ∧
        id = (row : Int)) ∧
      (manager.config (.byId id)).isSome = true := by
  unfold storedId
  rw [filter_eq_some_iff]
  constructor
  · rintro ⟨bound, test⟩
    simp only [Bool.and_eq_true, decide_eq_true_eq] at test
    rcases sound.stored id test.2 with ⟨-, holder, row, listed, rfl⟩
    have same := sound.kept.separate holder name _
      (sound.kept.rowed holder row listed) bound
    exact ⟨⟨row, same ▸ listed, rfl⟩, test.2⟩
  · rintro ⟨⟨row, listed, rfl⟩, present⟩
    refine ⟨sound.kept.rowed name row listed, ?_⟩
    simp only [Bool.and_eq_true, decide_eq_true_eq]
    exact ⟨(sound.stored _ present).1, present⟩

theorem Sound.storedId_congr {before : Manager} (soundBefore : before.Sound)
    (sound : manager.Sound)
    (rows : ∀ row, manager.registry.identity.rows name = some row ∧
        (manager.config (.byId row)).isSome = true ↔
      before.registry.identity.rows name = some row ∧
        (before.config (.byId row)).isSome = true) :
    manager.storedId name = before.storedId name := by
  apply Option.ext
  intro id
  rw [sound.storedId_eq_some_iff, soundBefore.storedId_eq_some_iff]
  constructor
  · rintro ⟨⟨row, listed, rfl⟩, present⟩
    rcases (rows row).mp ⟨listed, present⟩ with ⟨listed, present⟩
    exact ⟨⟨row, listed, rfl⟩, present⟩
  · rintro ⟨⟨row, listed, rfl⟩, present⟩
    rcases (rows row).mpr ⟨listed, present⟩ with ⟨listed, present⟩
    exact ⟨⟨row, listed, rfl⟩, present⟩

end Sound

end Manager

end Hal0.Slots.Rename
