import Hal0.Core.Handles

/-!
# The name to handle map of the slot manager

Every per-slot dict of `SlotManager` is keyed by an integer handle.  A name
gets its handle on first touch: the id of its identity row, or a negative
surrogate while it has none.  `_ensure_identity` moves a name from its
surrogate to the id of its row, and `rename` relabels the row.

Names are canonical slot names here: every caller resolves aliases first.
-/

namespace Hal0.Slots

open Function Option
open Hal0.Handles

abbrev SlotName := String

/-- The identity store: one row id for each known display name. -/
structure IdentityStore where
  rows : SlotName → Option Nat
  nextRow : Nat
  issued : ∀ name row, rows name = some row → row < nextRow
  distinct : ∀ left right row, rows left = some row →
    rows right = some row → left = right

namespace IdentityStore

/-- No names. -/
def empty : IdentityStore := ⟨fun _ => none, 1, by simp, by simp⟩

/-- Add a row for a name, with a fresh id. -/
def create (store : IdentityStore) (name : SlotName) : IdentityStore where
  rows := update store.rows name (some store.nextRow)
  nextRow := store.nextRow + 1
  issued := by
    intro other row present
    rw [update_apply] at present
    split_ifs at present
    · exact some.inj present ▸ Nat.lt_succ_self _
    · exact Nat.lt_succ_of_lt (store.issued other row present)
  distinct := by
    refine Separate.bind store.distinct ?_
    intro other present
    exact Nat.lt_irrefl _ (store.issued other _ present)

/-- Give the row of `old` the name `new`. -/
def relabel (store : IdentityStore) (old new : SlotName) (row : Nat)
    (present : store.rows old = some row) : IdentityStore where
  rows := update (update store.rows old none) new (some row)
  nextRow := store.nextRow
  issued := by
    intro other otherRow listed
    rw [update_apply] at listed
    split_ifs at listed
    · exact some.inj listed ▸ store.issued old row present
    · rw [update_apply] at listed
      split_ifs at listed
      exact store.issued other otherRow listed
  distinct := by
    have separate : Separate store.rows := store.distinct
    exact separate.unbind.bind (separate.unbound_unbind present)

end IdentityStore

/-- `_name_to_key` with the identity store and the surrogate sequence. -/
structure Registry where
  identity : IdentityStore
  nameToKey : SlotName → Option Int
  localKeySeq : Int

namespace Registry

/-- A registry after a restart. -/
def boot (identity : IdentityStore) : Registry :=
  ⟨identity, fun _ => none, -1⟩

/-- `_peek_key`: the current handle of a name, without minting one. -/
def peekKey (registry : Registry) (name : SlotName) : Option Int :=
  match registry.nameToKey name with
  | some key => some key
  | none => (registry.identity.rows name).map Int.ofNat

/-- `_key`: cached, else the id of the identity row, else a surrogate. -/
def key (registry : Registry) (name : SlotName) : Registry × Int :=
  match registry.nameToKey name with
  | some key => (registry, key)
  | none =>
    match registry.identity.rows name with
    | some row =>
      ({ registry with
          nameToKey :=
            update registry.nameToKey name (some (row : Int)) },
        row)
    | none =>
      ({ registry with
          nameToKey := update registry.nameToKey name
            (some registry.localKeySeq)
          localKeySeq := registry.localKeySeq - 1 },
        registry.localKeySeq)

/-- Handles are distinct, fresh surrogates and ids are free, rows are used. -/
structure Kept (registry : Registry) : Prop where
  separate : Separate registry.peekKey
  surrogate : registry.localKeySeq < 0
  minted : ∀ name key, registry.peekKey name = some key →
    registry.localKeySeq < key
  issued : ∀ name key, registry.peekKey name = some key →
    key < registry.identity.nextRow
  rowed : ∀ name row, registry.identity.rows name = some row →
    registry.peekKey name = some (row : Int)

theorem Kept.boot (identity : IdentityStore) : Kept (.boot identity) := by
  have peeks : ∀ name, (Registry.boot identity).peekKey name =
      (identity.rows name).map Int.ofNat := fun _ => rfl
  constructor
  · intro left right key boundLeft boundRight
    rw [peeks] at boundLeft boundRight
    obtain ⟨leftRow, present, rfl⟩ := map_eq_some_iff.mp boundLeft
    obtain ⟨rightRow, presentToo, same⟩ :=
      map_eq_some_iff.mp boundRight
    obtain rfl := Int.ofNat.inj same
    exact identity.distinct left right _ present presentToo
  · exact Int.negSucc_lt_zero 0
  · intro name key bound
    rw [peeks] at bound
    obtain ⟨row, -, rfl⟩ := map_eq_some_iff.mp bound
    exact Int.lt_of_lt_of_le (Int.negSucc_lt_zero 0) (Int.natCast_nonneg row)
  · intro name key bound
    rw [peeks] at bound
    obtain ⟨row, present, rfl⟩ := map_eq_some_iff.mp bound
    exact Int.ofNat_lt.mpr (identity.issued name row present)
  · intro name row present
    have listed : identity.rows name = some row := present
    rw [peeks, listed]
    rfl

/-- The key is cached, or looked up. -/
theorem key_cases (registry : Registry) (name : SlotName) :
    (registry.peekKey name = some (registry.key name).2 ∧
        (registry.key name).1.peekKey = registry.peekKey ∧
        (registry.key name).1.identity = registry.identity ∧
        (registry.key name).1.localKeySeq = registry.localKeySeq) ∨
      (registry.peekKey name = none ∧
        (registry.key name).2 = registry.localKeySeq ∧
        (registry.key name).1.peekKey =
          update registry.peekKey name
            (some registry.localKeySeq) ∧
        (registry.key name).1.identity = registry.identity ∧
        (registry.key name).1.localKeySeq = registry.localKeySeq - 1) := by
  cases cached : registry.nameToKey name with
  | some key =>
    left
    simp [Registry.key, peekKey, cached]
  | none =>
    cases present : registry.identity.rows name with
    | some row =>
      left
      refine ⟨by simp [Registry.key, peekKey, cached, present], ?_,
        by simp [Registry.key, cached, present],
        by simp [Registry.key, cached, present]⟩
      funext other
      by_cases same : other = name
      · simp [Registry.key, peekKey, cached, present, same]
      · simp [Registry.key, peekKey, cached, present, update_of_ne same]
    | none =>
      right
      refine ⟨by simp [peekKey, cached, present],
        by simp [Registry.key, cached, present], ?_,
        by simp [Registry.key, cached, present],
        by simp [Registry.key, cached, present]⟩
      funext other
      by_cases same : other = name
      · simp [Registry.key, peekKey, cached, present, same]
      · simp [Registry.key, peekKey, cached, present, update_of_ne same]

variable {registry : Registry} {name old new : SlotName}
  {counts : Int → Nat} {expected : SlotName → Nat}

theorem Kept.unbound_surrogate (kept : Kept registry) :
    Unbound registry.peekKey registry.localKeySeq := by
  intro other bound
  exact Int.lt_irrefl _ (kept.minted other _ bound)

theorem Kept.unbound_row (kept : Kept registry) :
    Unbound registry.peekKey (registry.identity.nextRow : Int) := by
  intro other bound
  exact Int.lt_irrefl _ (kept.issued other _ bound)

/-- A lookup keeps the counts. -/
theorem Kept.key (kept : Kept registry) :
    Kept (registry.key name).1 := by
  rcases registry.key_cases name with
    ⟨-, peeks, identity, sequence⟩ | ⟨absent, -, peeks, identity, sequence⟩
  · constructor
    · rw [peeks]
      exact kept.separate
    · rw [sequence]
      exact kept.surrogate
    · rw [peeks, sequence]
      exact kept.minted
    · rw [peeks, identity]
      exact kept.issued
    · rw [peeks, identity]
      exact kept.rowed
  · constructor
    · rw [peeks]
      exact kept.separate.bind kept.unbound_surrogate
    · rw [sequence]
      have negative := kept.surrogate
      omega
    · intro other key bound
      rw [peeks, update_apply] at bound
      rw [sequence]
      split_ifs at bound
      · have same := some.inj bound
        omega
      · have above := kept.minted other key bound
        omega
    · intro other key bound
      rw [peeks, update_apply] at bound
      rw [identity]
      split_ifs at bound
      · have same := some.inj bound
        have negative := kept.surrogate
        omega
      · exact kept.issued other key bound
    · intro other row present
      rw [identity] at present
      have bound := kept.rowed other row present
      have apart : other ≠ name := by
        intro same
        rw [same, absent] at bound
        cases bound
      rw [peeks, update_of_ne apart]
      exact bound

theorem peekKey_key (registry : Registry) (name : SlotName) :
    (registry.key name).1.peekKey name = some (registry.key name).2 := by
  rcases registry.key_cases name with
    ⟨bound, peeks, -, -⟩ | ⟨-, returned, peeks, -, -⟩
  · rw [peeks]
    exact bound
  · rw [peeks, update_self, returned]

theorem Kept.books_key (kept : Kept registry)
    (books : Books registry.peekKey counts expected) :
    Books (registry.key name).1.peekKey counts expected := by
  rcases registry.key_cases name with
    ⟨-, peeks, -, -⟩ | ⟨absent, -, peeks, -, -⟩
  · rw [peeks]
    exact books
  · rw [peeks]
    exact books.bind absent kept.unbound_surrogate

theorem Kept.counts_key (kept : Kept registry) (name : SlotName)
    (books : Books registry.peekKey counts expected) :
    counts (registry.key name).2 = expected name :=
  (kept.books_key books).bound name _ (registry.peekKey_key name)

theorem Kept.books_set (kept : Kept registry) (name : SlotName)
    (books : Books registry.peekKey counts expected) (value : Nat) :
    Books (registry.key name).1.peekKey
      (update counts (registry.key name).2 value)
      (update expected name value) :=
  (kept.books_key books).set kept.key.separate (registry.peekKey_key name)
    value

/-! ## Moving a name to the id of its row -/

/-- `_bind_key`, as far as the map goes. -/
def bindKey (registry : Registry) (name : SlotName) (key : Int) : Registry :=
  { registry with
    nameToKey := update registry.nameToKey name (some key) }

/-- What `_bind_key` does to one of the dicts. -/
def rebound (registry : Registry) (name : SlotName) (key : Int)
    (counts : Int → Nat) : Int → Nat :=
  match registry.nameToKey name with
  | some previous =>
    if previous = key then counts else migrate counts previous key
  | none => counts

/-- `_ensure_identity`: the map afterwards, and the id of the row. -/
def identify (registry : Registry) (name : SlotName) : Registry × Nat :=
  match registry.identity.rows name with
  | some row => (registry.bindKey name row, row)
  | none =>
    (Registry.bindKey
        { registry with identity := registry.identity.create name } name
        registry.identity.nextRow,
      registry.identity.nextRow)

/-- What `_ensure_identity` does to one of the dicts. -/
def identifiedCounts (registry : Registry) (name : SlotName)
    (counts : Int → Nat) : Int → Nat :=
  registry.rebound name (registry.identify name).2 counts

theorem peekKey_bindKey (registry : Registry) (name : SlotName)
    (key : Int) :
    (registry.bindKey name key).peekKey =
      update registry.peekKey name (some key) := by
  funext other
  by_cases same : other = name
  · simp [bindKey, peekKey, same]
  · simp [bindKey, peekKey, update_of_ne same]

/-- A new name does. -/
theorem Kept.identify_new (kept : Kept registry)
    (absent : registry.identity.rows name = none) :
    (registry.identify name).1.peekKey =
        update registry.peekKey name
          (some (registry.identity.nextRow : Int)) ∧
      Kept (registry.identify name).1 := by
  have peeks : (registry.identify name).1.peekKey =
      update registry.peekKey name
        (some (registry.identity.nextRow : Int)) := by
    simp only [identify, absent]
    rw [peekKey_bindKey]
    funext other
    by_cases same : other = name
    · simp [same]
    · simp [update_of_ne same, peekKey, IdentityStore.create]
  have rows : (registry.identify name).1.identity =
      registry.identity.create name := by
    simp only [identify, absent]
    rfl
  have sequence : (registry.identify name).1.localKeySeq =
      registry.localKeySeq := by
    simp only [identify, absent]
    rfl
  refine ⟨peeks, ?_, ?_, ?_, ?_, ?_⟩
  · rw [peeks]
    exact kept.separate.bind kept.unbound_row
  · rw [sequence]
    exact kept.surrogate
  · intro other key bound
    rw [peeks, update_apply] at bound
    rw [sequence]
    split_ifs at bound
    · have same := some.inj bound
      have negative := kept.surrogate
      omega
    · exact kept.minted other key bound
  · intro other key bound
    rw [peeks, update_apply] at bound
    rw [rows]
    simp only [IdentityStore.create]
    split_ifs at bound
    · have same := some.inj bound
      omega
    · have below := kept.issued other key bound
      omega
  · intro other row present
    rw [rows] at present
    simp only [IdentityStore.create] at present
    rw [update_apply] at present
    rw [peeks, update_apply]
    split_ifs at present ⊢
    · rw [some.inj present]
    · exact kept.rowed other row present

theorem Kept.identify_known (kept : Kept registry) {row : Nat}
    (present : registry.identity.rows name = some row) :
    (registry.identify name).1.peekKey = registry.peekKey ∧
      Kept (registry.identify name).1 := by
  have bound := kept.rowed name row present
  have same : (registry.identify name).1 = registry.bindKey name row := by
    simp only [identify, present]
  have peeks : (registry.identify name).1.peekKey = registry.peekKey := by
    rw [same, peekKey_bindKey]
    exact update_eq_self_iff.mpr bound.symm
  refine ⟨peeks, ?_, ?_, ?_, ?_, ?_⟩
  · rw [peeks]
    exact kept.separate
  · rw [same]
    exact kept.surrogate
  · rw [peeks, same]
    exact kept.minted
  · rw [peeks, same]
    exact kept.issued
  · rw [peeks, same]
    exact kept.rowed

theorem Kept.identify (kept : Kept registry) :
    Kept (registry.identify name).1 := by
  cases present : registry.identity.rows name with
  | none => exact (kept.identify_new present).2
  | some row => exact (kept.identify_known present).2

/-- `_ensure_identity` leaves what is counted under each name as it is. -/
theorem Kept.books_identify (kept : Kept registry)
    (books : Books registry.peekKey counts expected) :
    Books (registry.identify name).1.peekKey
      (registry.identifiedCounts name counts) expected := by
  cases present : registry.identity.rows name with
  | some row =>
    have bound := kept.rowed name row present
    have unchanged : registry.identifiedCounts name counts = counts := by
      simp only [identifiedCounts, rebound, Registry.identify, present]
      cases cached : registry.nameToKey name with
      | none => rfl
      | some previous =>
        simp only [peekKey, cached] at bound
        exact if_pos (some.inj bound)
    rw [unchanged, (kept.identify_known present).1]
    exact books
  | none =>
    rw [(kept.identify_new present).1]
    cases cached : registry.nameToKey name with
    | none =>
      have absent : registry.peekKey name = none := by
        simp [peekKey, cached, present]
      have unchanged : registry.identifiedCounts name counts = counts := by
        simp only [identifiedCounts, rebound, cached]
      rw [unchanged]
      exact books.bind absent kept.unbound_row
    | some previous =>
      have bound : registry.peekKey name = some previous := by
        simp [peekKey, cached]
      have apart : previous ≠ registry.identity.nextRow := by
        intro same
        exact kept.unbound_row name (same ▸ bound)
      have moved : registry.identifiedCounts name counts =
          migrate counts previous registry.identity.nextRow := by
        simp only [identifiedCounts, rebound, cached, Registry.identify,
          present, if_neg apart]
      rw [moved]
      exact books.migrate kept.separate bound kept.unbound_row

/-! ## Renaming -/

/-- The label move of `rename`, once `old` has its row; refused on a clash. -/
def relabel (registry : Registry) (old new : SlotName) : Option Registry :=
  match present : registry.identity.rows old with
  | none => none
  | some row =>
    if registry.identity.rows new = none then
      some (Registry.bindKey
        { registry with
          identity := registry.identity.relabel old new row present
          nameToKey := update registry.nameToKey old none }
        new row)
    else none

/-- What the label move does to one of the dicts. -/
def relabelledCounts (registry : Registry) (old new : SlotName)
    (counts : Int → Nat) : Int → Nat :=
  match registry.identity.rows old with
  | none => counts
  | some row => registry.rebound new row counts

/-- The label move gives the handle of `old` to `new`. -/
theorem Kept.relabel {next : Registry} (kept : Kept registry)
    (distinct : old ≠ new)
    (moved : registry.relabel old new = some next) :
    ∃ row : Nat, registry.identity.rows old = some row ∧
      registry.identity.rows new = none ∧
      next.peekKey =
        update (update registry.peekKey old none) new
          (some (row : Int)) ∧
      Kept next := by
  simp only [Registry.relabel] at moved
  split at moved
  · cases moved
  · rename_i row present
    simp only [ite_none_right_eq_some] at moved
    obtain ⟨vacant, same⟩ := moved
    obtain rfl := some.inj same
    have bound := kept.rowed old row present
    have peeks : (Registry.bindKey
        { registry with
          identity := registry.identity.relabel old new row present
          nameToKey := update registry.nameToKey old none }
        new row).peekKey =
        update (update registry.peekKey old none) new
          (some (row : Int)) := by
      rw [peekKey_bindKey]
      funext other
      by_cases isNew : other = new
      · simp [isNew]
      · by_cases isOld : other = old
        · simp [isOld, peekKey, IdentityStore.relabel, distinct]
        · simp [isNew, isOld, peekKey, IdentityStore.relabel]
    have inherited : ∀ other key,
        update (update registry.peekKey old none) new
            (some (row : Int)) other = some key →
          ∃ origin, registry.peekKey origin = some key := by
      intro other key listed
      rw [update_apply] at listed
      split_ifs at listed
      · exact ⟨old, bound.trans listed⟩
      · rw [update_apply] at listed
        split_ifs at listed
        exact ⟨other, listed⟩
    refine ⟨row, present, vacant, peeks, ?_, kept.surrogate, ?_, ?_, ?_⟩
    · rw [peeks]
      exact kept.separate.unbind.bind (kept.separate.unbound_unbind bound)
    · intro other key listed
      rw [peeks] at listed
      obtain ⟨origin, was⟩ := inherited other key listed
      exact kept.minted origin key was
    · intro other key listed
      rw [peeks] at listed
      obtain ⟨origin, was⟩ := inherited other key listed
      exact kept.issued origin key was
    · intro other otherRow listed
      rw [peeks]
      simp only [bindKey, IdentityStore.relabel] at listed
      rw [update_apply] at listed ⊢
      split_ifs at listed ⊢
      · rw [some.inj listed]
      · rw [update_apply] at listed ⊢
        split_ifs at listed ⊢
        exact kept.rowed other otherRow listed

/-- A rename does. -/
theorem Kept.books_relabel {next : Registry} (kept : Kept registry)
    (distinct : old ≠ new)
    (moved : registry.relabel old new = some next)
    (books : Books registry.peekKey counts expected)
    (nothing : expected old = 0) :
    Books next.peekKey (registry.relabelledCounts old new counts)
      expected := by
  obtain ⟨row, present, vacant, peeks, -⟩ := kept.relabel distinct moved
  have bound := kept.rowed old row present
  have unbound := kept.separate.unbound_unbind bound
  have forgotten := books.unbind nothing
  have elsewhere : update registry.peekKey old none new =
      registry.peekKey new := update_of_ne distinct.symm _ _
  rw [peeks]
  simp only [relabelledCounts, present, rebound]
  cases cached : registry.nameToKey new with
  | none =>
    apply forgotten.bind _ unbound
    rw [elsewhere]
    simp [peekKey, cached, vacant]
  | some previous =>
    have holds : registry.peekKey new = some previous := by
      simp [peekKey, cached]
    have apart : previous ≠ (row : Int) := by
      intro same
      exact distinct (kept.separate old new previous
        (same ▸ bound) holds)
    simp only [if_neg apart]
    apply forgotten.migrate kept.separate.unbind _ unbound
    rw [elsewhere]
    exact holds

end Registry

end Hal0.Slots
