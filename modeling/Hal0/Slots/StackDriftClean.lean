import Hal0.Slots.StackDrift
import Hal0.Slots.StackSerial

/-!
# When a stack has drifted

A commit leaves the names in the slot files alone, so every name of the stack
still finds the file it was planned for, and what is there is what the last
entry which changed the file has written.  The recorded hash has for each name
what its last entry planned.  A stack is clean after its apply exactly when
these agree, and a later change is reported exactly when a name finds other
data than before.
-/

namespace Hal0.Slots.StackDrift

open List
open Std
open Hal0.Slots.ConfigFiles
open Hal0.Slots.ChangeSets (FileState ChangeSet changedStates)
open Hal0.Slots.Layout (SlotFile)
open Hal0.Latest

/-! ## The names in a document -/

/-- A reader finds the same names in both documents. -/
structure NamesKept (after before : Doc) : Prop where
  root : after["name"]? = before["name"]?
  nested : (slotTable after).bind (·["name"]?) =
    (slotTable before).bind (·["name"]?)

namespace NamesKept

theorem refl (doc : Doc) : NamesKept doc doc := ⟨rfl, rfl⟩

theorem trans {first second third : Doc} (upper : NamesKept first second)
    (lower : NamesKept second third) : NamesKept first third where
  root := upper.root.trans lower.root
  nested := upper.nested.trans lower.nested

theorem displayName_eq {after before : Doc} (kept : NamesKept after before) :
    displayName after = displayName before := by
  rw [displayName, displayName, kept.root, kept.nested]

end NamesKept

/-- A key which is no name and not the `[slot]` table. -/
def Nameless (key : String) : Prop :=
  key ≠ "name" ∧ key ≠ "slot"

theorem namesKept_insert {key : String} (nameless : Nameless key) (doc : Doc)
    (value : Value) : NamesKept (doc.insert key value) doc where
  root := by simp [ExtTreeMap.getElem?_insert, nameless.1]
  nested := by rw [slotTable_insert nameless.2]

theorem namesKept_erase {key : String} (nameless : Nameless key) (doc : Doc) :
    NamesKept (doc.erase key) doc where
  root := by simp [ExtTreeMap.getElem?_erase, nameless.1]
  nested := by rw [slotTable_erase nameless.2]

theorem namesKept_putScalar {key : String} (nameless : Nameless key)
    (doc : Doc) (leaf : Option Leaf) :
    NamesKept (putScalar doc key leaf) doc := by
  rw [putScalar]
  cases nested : slotTable doc with
  | none =>
    cases leaf with
    | none => exact namesKept_erase nameless doc
    | some leaf => exact namesKept_insert nameless doc (.leaf leaf)
  | some entries =>
    constructor
    · simp [ExtTreeMap.getElem?_insert]
    · show (slotTable (doc.insert "slot" _)).bind _ = _
      rw [slotTable_insert_slot, nested, Option.bind_some, Option.bind_some,
        Table.getElem?_put_of_ne entries nameless.1]

theorem namesKept_putUpdate {update : String × Update}
    (nameless : Nameless update.1) (doc : Doc) :
    NamesKept (putUpdate doc update) doc := by
  obtain ⟨key, update⟩ := update
  cases update with
  | null => exact namesKept_putScalar nameless doc none
  | leaf leaf => exact namesKept_putScalar nameless doc (some leaf)
  | table entries =>
    show NamesKept (putTable doc key entries) doc
    unfold putTable
    split
    · exact namesKept_insert nameless doc _
    · exact namesKept_insert nameless doc _

theorem namesKept_foldl {updates : Updates}
    (nameless : ∀ key ∈ updates.keys, Nameless key) (doc : Doc) :
    NamesKept (updates.foldl putUpdate doc) doc := by
  induction updates generalizing doc with
  | nil => exact .refl doc
  | cons update rest later =>
    have first := nameless update.1 mem_cons_self
    have others : ∀ key ∈ Updates.keys rest, Nameless key :=
      fun key listed => nameless key (mem_cons_of_mem update.1 listed)
    rw [foldl_cons]
    exact (later others (putUpdate doc update)).trans
      (namesKept_putUpdate first doc)

variable {rules : Rules}

theorem namesKept_reconcile {cfg result : Doc} {changed : List String}
    (reconciled : reconcileDeviceProfile rules cfg changed = some result) :
    NamesKept result cfg := by
  have binary : ∀ leaf, NamesKept (putScalar cfg "binary" leaf) cfg :=
    namesKept_putScalar ⟨by decide, by decide⟩ cfg
  have device : ∀ doc leaf, NamesKept (putScalar doc "device" leaf) doc :=
    namesKept_putScalar ⟨by decide, by decide⟩
  unfold reconcileDeviceProfile at reconciled
  split at reconciled
  · split at reconciled
    · cases reconciled
      exact binary none
    · cases reconciled
      exact .refl cfg
  · split at reconciled
    · split at reconciled
      · cases reconciled
        exact .refl cfg
      · split at reconciled
        · cases reconciled
        · cases reconciled
          exact binary _
        · cases reconciled
          exact (device _ _).trans (binary _)
    · cases reconciled
      exact .refl cfg

theorem namesKept_tune {merged result : Doc} {updates : Updates}
    {update : Option Update}
    (normalized :
      guardAndNormalizeTune rules merged updates update = some result) :
    NamesKept result merged := by
  have nameless : Nameless "tune" := ⟨by decide, by decide⟩
  rcases update with _ | _ | _ | entries
  · cases normalized
    exact .refl merged
  · cases normalized
    exact namesKept_erase nameless merged
  · cases normalized
  · simp only [guardAndNormalizeTune, Option.map_eq_some_iff] at normalized
    obtain ⟨table, -, rfl⟩ := normalized
    split
    · exact namesKept_erase nameless merged
    · exact namesKept_insert nameless merged _

theorem nameless_of_mem_updates (entry : StackEntry) :
    ∀ key ∈ entry.updates.keys, Nameless key := by
  intro key listed
  have known := entry.keys_updates key listed
  constructor
  · rintro rfl
    exact absurd known (by decide)
  · rintro rfl
    exact absurd known (by decide)

variable {files : Files}

theorem namesKept_reconciled {stem : Stem} {entry : StackEntry}
    {before after : Doc}
    (projected : reconciled rules files stem entry before = some after) :
    NamesKept after before := by
  obtain ⟨merged, -, -⟩ := reconcileAndGuard_eq_some projected
  obtain ⟨laned, update, reconciled, -, normalized⟩ :=
    projectSlotUpdates_eq_some merged
  rw [mergeSlotConfig_eq_foldl entry.slot_not_mem] at reconciled
  exact (namesKept_tune normalized).trans ((namesKept_reconcile reconciled).trans
    (namesKept_foldl (nameless_of_mem_updates entry) before))

/-! ## The files of the names -/

/-- The stem of a name, where no reader raises. -/
def stemOf (files : Files) (name : ConfigFiles.SlotName) : Stem :=
  if name = "" || files.contains name then name
  else (stemByName files name).getD name

/-- The name is a stem, or every visible file is UTF-8. -/
def Resolves (files : Files) (name : ConfigFiles.SlotName) : Prop :=
  name = "" ∨ files.contains name = true ∨
    (listing files).any (undecodable files) = false

theorem slotStem_eq_some {name : ConfigFiles.SlotName} {stem : Stem} :
    slotStem files name = some stem ↔
      Resolves files name ∧ stemOf files name = stem := by
  unfold slotStem resolveSlotStem Resolves stemOf
  by_cases empty : name = ""
  · simp [empty]
  · cases known : files.contains name with
    | true => simp [empty]
    | false =>
      cases (listing files).any (undecodable files) <;> simp [empty]

/--
The directories have the same files, with the same display names, and the same
ones are not UTF-8.
-/
def SameNames (first second : Files) : Prop :=
  ∀ stem : Stem, first[stem]?.map SlotFile.decodes =
      second[stem]?.map SlotFile.decodes ∧
    (docAt first stem).bind displayName = (docAt second stem).bind displayName

section

variable {first second : Files}

theorem SameNames.undecodable_eq (same : SameNames first second) :
    undecodable first = undecodable second := by
  funext stem
  rw [undecodable, undecodable, (same stem).1]

theorem SameNames.keys_eq (same : SameNames first second) :
    first.keys = second.keys := by
  have decoded : (first.map fun _ file => file.decodes) =
      second.map fun _ file => file.decodes := by
    apply ExtTreeMap.ext_getElem?
    intro stem
    rw [ExtTreeMap.getElem?_map, ExtTreeMap.getElem?_map]
    exact (same stem).1
  calc first.keys
      = (first.map fun _ file => file.decodes).keys := ExtTreeMap.keys_map.symm
    _ = (second.map fun _ file => file.decodes).keys := by rw [decoded]
    _ = second.keys := ExtTreeMap.keys_map

theorem SameNames.contains_eq (same : SameNames first second) (stem : Stem) :
    first.contains stem = second.contains stem := by
  have isSome := congrArg Option.isSome (same stem).1
  rw [Option.isSome_map, Option.isSome_map] at isSome
  rw [ExtTreeMap.contains_eq_isSome_getElem?,
    ExtTreeMap.contains_eq_isSome_getElem?, isSome]

theorem SameNames.listing_eq (same : SameNames first second) :
    listing first = listing second := by
  rw [listing, listing, same.keys_eq]

theorem SameNames.stemOf_eq (same : SameNames first second)
    (name : ConfigFiles.SlotName) :
    stemOf first name = stemOf second name := by
  have byName : stemByName first name = stemByName second name := by
    rw [stemByName, stemByName, same.listing_eq]
    congr 1
    funext stem
    rw [(same stem).2]
  rw [stemOf, stemOf, byName, same.contains_eq]

theorem SameNames.resolves_iff (same : SameNames first second)
    (name : ConfigFiles.SlotName) :
    Resolves first name ↔ Resolves second name := by
  rw [Resolves, Resolves, same.contains_eq, same.listing_eq,
    same.undecodable_eq]

end

/-! ## A plan -/

theorem readTomlOrNone_eq_some {stem : Stem} {data : Option Doc} :
    readTomlOrNone files stem = some data ↔
      files[stem]? = data.map .parsed := by
  rw [readTomlOrNone]
  split
  · next absent =>
      rw [absent]
      cases data <;> simp
  · next doc found =>
      rw [found]
      cases data <;> simp
  · next broken =>
      rw [broken]
      cases data <;> simp
  · next broken =>
      rw [broken]
      cases data <;> simp

/-- What is found under a name. -/
def dataAt (files : Files) (name : ConfigFiles.SlotName) : Option Doc :=
  docAt files (stemOf files name)

/-- What an entry leaves in a file. -/
def written (rules : Rules) (files : Files) (entry : StackEntry) : Option Doc :=
  (dataAt files entry.slot).map fun doc =>
    (reconciled rules files (stemOf files entry.slot) entry doc).getD doc

/-- The entry changes its file: it is not refused, and projects other data. -/
def Rewrites (rules : Rules) (files : Files) (entry : StackEntry) : Prop :=
  dataAt files entry.slot ≠ written rules files entry

instance (rules : Rules) (files : Files) :
    DecidablePred (Rewrites rules files) :=
  fun entry => inferInstanceAs (Decidable (dataAt files entry.slot ≠ _))

/-- The row of an entry whose file is readable. -/
def rowOf (rules : Rules) (files : Files) (entry : StackEntry) : Row where
  slot := entry.slot
  stem := stemOf files entry.slot
  before := dataAt files entry.slot
  after := written rules files entry

/-- The reader of the name finds a file which parses, or no file. -/
def Readable (files : Files) (name : ConfigFiles.SlotName) : Prop :=
  Resolves files name ∧ (readTomlOrNone files (stemOf files name)).isSome = true

theorem readTomlOrNone_of_readable {name : ConfigFiles.SlotName}
    (parses : Readable files name) :
    readTomlOrNone files (stemOf files name) = some (dataAt files name) := by
  obtain ⟨data, found⟩ := Option.isSome_iff_exists.mp parses.2
  rw [found, dataAt, docAt, readTomlOrNone_eq_some.mp found]
  cases data <;> rfl

theorem readSlot_eq_some {name : ConfigFiles.SlotName} {data : Option Doc} :
    readSlot files name = some data ↔
      Readable files name ∧ dataAt files name = data := by
  rw [readSlot]
  constructor
  · intro found
    obtain ⟨stem, isStem, isData⟩ := Option.bind_eq_some_iff.mp found
    obtain ⟨resolves, rfl⟩ := slotStem_eq_some.mp isStem
    have parses : Readable files name := ⟨resolves, by rw [isData]; rfl⟩
    rw [readTomlOrNone_of_readable parses] at isData
    exact ⟨parses, Option.some.inj isData⟩
  · rintro ⟨parses, rfl⟩
    rw [slotStem_eq_some.mpr ⟨parses.1, rfl⟩, Option.bind_some,
      readTomlOrNone_of_readable parses]

/-- The entry can be planned: neither its file nor a peer raises. -/
def Plans (rules : Rules) (files : Files) (entry : StackEntry) : Prop :=
  Readable files entry.slot ∧
    ∀ before ∈ dataAt files entry.slot,
      peersRaise rules files (stemOf files entry.slot) entry before = false

theorem reconciledStackSlot_eq_some {stem : Stem} {entry : StackEntry}
    {before after : Option Doc} :
    reconciledStackSlot rules files stem entry before = some after ↔
      (∀ doc ∈ before, peersRaise rules files stem entry doc = false) ∧
        (before.map fun doc =>
          (reconciled rules files stem entry doc).getD doc) = after := by
  cases before with
  | none => simp [reconciledStackSlot]
  | some doc =>
    cases raises : peersRaise rules files stem entry doc <;>
      simp [reconciledStackSlot, raises]

theorem planEntry_eq {entry : StackEntry} {row : Row} :
    planEntry rules files entry = some row ↔
      Plans rules files entry ∧ rowOf rules files entry = row := by
  rw [planEntry]
  constructor
  · intro isRow
    obtain ⟨stem, isStem, isRow⟩ := Option.bind_eq_some_iff.mp isRow
    obtain ⟨before, isBefore, isRow⟩ := Option.bind_eq_some_iff.mp isRow
    obtain ⟨after, isAfter, rfl⟩ := Option.map_eq_some_iff.mp isRow
    obtain ⟨parses, rfl⟩ := readSlot_eq_some.mp
      (Option.bind_eq_some_iff.mpr ⟨stem, isStem, isBefore⟩)
    obtain ⟨-, rfl⟩ := slotStem_eq_some.mp isStem
    obtain ⟨decoded, rfl⟩ := reconciledStackSlot_eq_some.mp isAfter
    exact ⟨⟨parses, decoded⟩, rfl⟩
  · rintro ⟨⟨parses, decoded⟩, rfl⟩
    rw [slotStem_eq_some.mpr ⟨parses.1, rfl⟩, Option.bind_some,
      readTomlOrNone_of_readable parses, Option.bind_some,
      reconciledStackSlot_eq_some.mpr ⟨decoded, rfl⟩]
    rfl

theorem mapM_eq_some {Element Result : Type}
    {step : Element → Option Result} {passes : Element → Prop}
    {result : Element → Result}
    (each : ∀ element outcome, step element = some outcome ↔
      passes element ∧ result element = outcome)
    {elements : List Element} {results : List Result} :
    elements.mapM step = some results ↔
      (∀ element ∈ elements, passes element) ∧
        results = elements.map result := by
  induction elements generalizing results with
  | nil =>
    rw [mapM_nil]
    simp [eq_comm]
  | cons element rest later =>
    rw [mapM_cons]
    constructor
    · intro whole
      obtain ⟨outcome, isOutcome, tail⟩ := Option.bind_eq_some_iff.mp whole
      obtain ⟨outcomes, isTail, isWhole⟩ := Option.bind_eq_some_iff.mp tail
      obtain ⟨passed, rfl⟩ := (each element outcome).mp isOutcome
      obtain ⟨passedRest, rfl⟩ := later.mp isTail
      cases isWhole
      exact ⟨forall_mem_cons.mpr ⟨passed, passedRest⟩, rfl⟩
    · rintro ⟨passed, rfl⟩
      obtain ⟨here, passedRest⟩ := forall_mem_cons.mp passed
      rw [(each element _).mpr ⟨here, rfl⟩, later.mpr ⟨passedRest, rfl⟩]
      rfl

theorem plan_eq_some {entries : List StackEntry} {rows : List Row} :
    plan rules files entries = some rows ↔
      (∀ entry ∈ planned entries, Plans rules files entry) ∧
        rows = (planned entries).map (rowOf rules files) :=
  mapM_eq_some fun _ _ => planEntry_eq

theorem projectionLive_eq_some {entries : List StackEntry}
    {live : Projection} :
    projectionLive files entries = some live ↔
      (∀ entry ∈ planned entries, Readable files entry.slot) ∧
        live = toDict ((planned entries).map fun entry =>
          (entry.slot, dataAt files entry.slot)) := by
  have each : ∀ (entry : StackEntry) (item : ConfigFiles.SlotName × Option Doc),
      (readSlot files entry.slot).map (fun data => (entry.slot, data)) =
          some item ↔
        Readable files entry.slot ∧
          (entry.slot, dataAt files entry.slot) = item := by
    intro entry item
    rw [Option.map_eq_some_iff]
    constructor
    · rintro ⟨data, found, rfl⟩
      obtain ⟨parses, rfl⟩ := readSlot_eq_some.mp found
      exact ⟨parses, rfl⟩
    · rintro ⟨parses, rfl⟩
      exact ⟨_, readSlot_eq_some.mpr ⟨parses, rfl⟩, rfl⟩
  rw [projectionLive, Option.map_eq_some_iff]
  constructor
  · rintro ⟨items, isItems, rfl⟩
    obtain ⟨parses, rfl⟩ := (mapM_eq_some each).mp isItems
    exact ⟨parses, rfl⟩
  · rintro ⟨parses, rfl⟩
    exact ⟨_, (mapM_eq_some each).mpr ⟨parses, rfl⟩, rfl⟩

/-! ## What a commit leaves -/

theorem changedStates_plan (rules : Rules) (files : Files)
    (entries : List StackEntry) :
    changedStates (changeSet (entries.map (rowOf rules files))).entries =
      (entries.filter (Rewrites rules files)).map fun entry =>
        snapshot (stemOf files entry.slot) (written rules files entry) := by
  have differ : ∀ entry : StackEntry,
      (dataAt files entry.slot).map SlotFile.parsed ≠
          (written rules files entry).map SlotFile.parsed ↔
        Rewrites rules files entry := by
    intro entry
    have injective : Function.Injective
        (Option.map (SlotFile.parsed : Doc → SlotFile Doc)) :=
      Option.map_injective fun _ _ => SlotFile.parsed.inj
    exact injective.ne_iff
  rw [changedStates, ChangeSet.entries, changeSet, zip_map', map_map,
    filter_map, map_map]
  congr 1
  apply filter_congr
  intro entry _
  exact decide_eq_decide.mpr (differ entry)

theorem getElem?_foldl_writeState (states : List (FileState Stem (SlotFile Doc)))
    (files : Files) :
    (fun stem : Stem => (states.foldl writeState files)[stem]?) =
      ChangeSets.writeStates (fun stem : Stem => files[stem]?) states := by
  induction states generalizing files with
  | nil => rfl
  | cons state rest later =>
    have first : (fun stem : Stem => (writeState files state)[stem]?) =
        ChangeSets.writeState (fun stem : Stem => files[stem]?) state := by
      funext stem
      rw [writeState, ChangeSets.writeState]
      by_cases here : stem = state.path
      · rw [here, Function.update_self]
        cases state.data <;> simp
      · have differs : ¬ state.path = stem := fun same => here same.symm
        rw [Function.update_of_ne here]
        cases state.data <;>
          simp [ExtTreeMap.getElem?_insert, ExtTreeMap.getElem?_erase,
            differs]
    rw [foldl_cons, later, first]
    rfl

section Applied

variable {rules : Rules} {files : Files} {entries : List StackEntry}
  {rows : List Row}

section

variable (isPlan : plan rules files entries = some rows)
include isPlan

theorem getElem?_applyConfig (stem : Stem) :
    (applyConfig files rows)[stem]? =
      ChangeSets.writeStates (fun stem : Stem => files[stem]?)
        (((planned entries).filter (Rewrites rules files)).map fun entry =>
          snapshot (stemOf files entry.slot) (written rules files entry))
        stem := by
  obtain ⟨-, rfl⟩ := plan_eq_some.mp isPlan
  rw [← changedStates_plan, ← getElem?_foldl_writeState]
  rfl

theorem getElem?_applyConfig_of_none {stem : Stem}
    (none : ∀ entry ∈ planned entries,
      ¬ (stemOf files entry.slot = stem ∧ Rewrites rules files entry)) :
    (applyConfig files rows)[stem]? = files[stem]? := by
  rw [getElem?_applyConfig isPlan]
  apply ChangeSets.writeStates_of_not_mem
  intro state listed isStem
  obtain ⟨entry, isChanged, rfl⟩ := mem_map.mp listed
  obtain ⟨isEntry, rewrites⟩ := mem_filter.mp isChanged
  exact none entry isEntry ⟨isStem, of_decide_eq_true rewrites⟩

theorem getElem?_applyConfig_latest {stem : Stem} {entry : StackEntry}
    (latest : IsLatest (fun other => stemOf files other.slot = stem ∧
      Rewrites rules files other) (planned entries) entry) :
    (applyConfig files rows)[stem]? =
      (written rules files entry).map .parsed := by
  let image := fun entry : StackEntry =>
    snapshot (stemOf files entry.slot) (written rules files entry)
  have states : IsLatest (fun state => state.path = stem)
      (((planned entries).filter (Rewrites rules files)).map image)
      (image entry) := latest.filter.map
  obtain ⟨earlier, later, whole, isStem, last⟩ := states
  rw [getElem?_applyConfig isPlan, whole, ← isStem]
  apply ChangeSets.writeStates_last
  intro other listed same
  exact last other listed (same.trans isStem)

theorem sameNames_applyConfig :
    SameNames (applyConfig files rows) files := by
  intro stem
  rcases exists_isLatest (fun other => stemOf files other.slot = stem ∧
    Rewrites rules files other) (planned entries) with
    none | ⟨entry, latest⟩
  · rw [docAt, docAt, getElem?_applyConfig_of_none isPlan none]
    exact ⟨rfl, rfl⟩
  · rw [getElem?_applyConfig_latest isPlan latest]
    obtain ⟨rfl, rewrites⟩ := latest.holds
    have parses := readTomlOrNone_of_readable
      ((plan_eq_some.mp isPlan).1 entry latest.mem).1
    rw [docAt, docAt, getElem?_applyConfig_latest isPlan latest,
      readTomlOrNone_eq_some.mp parses]
    rw [Rewrites, written] at rewrites
    rw [written]
    cases found : dataAt files entry.slot with
    | none =>
      rw [found] at rewrites
      exact absurd rfl rewrites
    | some before =>
      refine ⟨rfl, ?_⟩
      show displayName ((reconciled rules files (stemOf files entry.slot)
        entry before).getD before) = displayName before
      cases projected : reconciled rules files (stemOf files entry.slot) entry
        before with
      | none => rfl
      | some after => exact (namesKept_reconciled projected).displayName_eq

theorem stemOf_applyConfig (name : ConfigFiles.SlotName) :
    stemOf (applyConfig files rows) name = stemOf files name :=
  (sameNames_applyConfig isPlan).stemOf_eq name

theorem readable_applyConfig :
    ∀ entry ∈ planned entries, Readable (applyConfig files rows) entry.slot := by
  intro entry listed
  have parses := ((plan_eq_some.mp isPlan).1 entry listed).1
  refine ⟨((sameNames_applyConfig isPlan).resolves_iff _).mpr parses.1, ?_⟩
  rw [stemOf_applyConfig isPlan]
  rcases exists_isLatest (fun other => stemOf files other.slot =
    stemOf files entry.slot ∧ Rewrites rules files other)
    (planned entries) with none | ⟨other, latest⟩
  · rw [readTomlOrNone, getElem?_applyConfig_of_none isPlan none,
      ← readTomlOrNone]
    exact parses.2
  · rw [readTomlOrNone_eq_some.mpr (getElem?_applyConfig_latest isPlan latest)]
    rfl

theorem dataAt_applyConfig_latest {name : ConfigFiles.SlotName}
    {other : StackEntry}
    (latest : IsLatest (fun other => stemOf files other.slot =
      stemOf files name ∧ Rewrites rules files other)
      (planned entries) other) :
    dataAt (applyConfig files rows) name = written rules files other := by
  rw [dataAt, stemOf_applyConfig isPlan, docAt,
    getElem?_applyConfig_latest isPlan latest]
  cases written rules files other <;> rfl

theorem dataAt_applyConfig_of_none {name : ConfigFiles.SlotName}
    (none : ∀ other ∈ planned entries,
      ¬ (stemOf files other.slot = stemOf files name ∧
        Rewrites rules files other)) :
    dataAt (applyConfig files rows) name = dataAt files name := by
  rw [dataAt, stemOf_applyConfig isPlan, docAt,
    getElem?_applyConfig_of_none isPlan none, ← docAt, ← dataAt]

end

end Applied

/-! ## Equal hashes -/

section Hashes

variable {Digest : Type} (hashing : Hashing Digest)

theorem stackContentHash_eq_iff {first second : Projection} :
    hashing.stackContentHash first = hashing.stackContentHash second ↔
      ∀ name : ConfigFiles.SlotName, first[name]?.map (Option.map hashing.jsonDoc) =
        second[name]?.map (Option.map hashing.jsonDoc) := by
  rw [Hashing.stackContentHash, Hashing.stackContentHash,
    hashing.injective.eq_iff, Hashing.canonical, Hashing.canonical]
  constructor
  · intro same name
    have atName := congrArg (·[name]?) same
    simpa only [ExtTreeMap.getElem?_map] using atName
  · intro same
    apply ExtTreeMap.ext_getElem?
    intro name
    simpa only [ExtTreeMap.getElem?_map] using same name

theorem sameHash_iff {entries : List StackEntry}
    {first second : StackEntry → Option Doc} :
    hashing.stackContentHash
        (toDict (entries.map fun entry => (entry.slot, first entry))) =
      hashing.stackContentHash
        (toDict (entries.map fun entry => (entry.slot, second entry))) ↔
      ∀ entry, IsLatest (fun other => other.slot = entry.slot) entries entry →
        (first entry).map hashing.jsonDoc =
          (second entry).map hashing.jsonDoc := by
  have lookup : ∀ (value : StackEntry → Option Doc) {entry : StackEntry},
      IsLatest (fun other => other.slot = entry.slot) entries entry →
      (toDict (entries.map fun entry => (entry.slot, value entry)))[
        entry.slot]? = some (value entry) := by
    intro value entry latest
    let image := fun entry : StackEntry => (entry.slot, value entry)
    have items : IsLatest (fun item => item.1 = entry.slot)
        (entries.map image) (image entry) := latest.map
    exact getElem?_toDict items
  rw [stackContentHash_eq_iff]
  constructor
  · intro same entry latest
    have atName := same entry.slot
    rw [lookup first latest, lookup second latest] at atName
    exact Option.some.inj atName
  · intro same name
    rcases exists_isLatest (fun other : StackEntry => other.slot = name)
      entries with none | ⟨entry, latest⟩
    · have absent : ∀ value : StackEntry → Option Doc,
          (toDict (entries.map fun entry => (entry.slot, value entry)))[
            name]? = Option.none := by
        intro value
        apply getElem?_toDict_of_not_mem
        intro item listed
        obtain ⟨entry, isEntry, rfl⟩ := mem_map.mp listed
        exact none entry isEntry
      rw [absent first, absent second]
    · obtain rfl : entry.slot = name := latest.holds
      rw [lookup first latest, lookup second latest]
      exact congrArg some (same entry latest)

end Hashes

/-! ## Clean after the apply, modified after a change -/

section Drift

variable {Digest : Type} (hashing : Hashing Digest)

/--
What the last entry of a name projects is what the last entry which changes
its file has written there.
-/
def Settled (rules : Rules) (files : Files) (entries : List StackEntry) :
    Prop :=
  ∀ entry, IsLatest (fun other => other.slot = entry.slot) (planned entries)
      entry →
    ∀ other, IsLatest (fun other => stemOf files other.slot =
        stemOf files entry.slot ∧ Rewrites rules files other)
        (planned entries) other →
      (written rules files other).map hashing.jsonDoc =
        (written rules files entry).map hashing.jsonDoc

/-- The data of a file which the stack covers differ. -/
def Changed (entries : List StackEntry) (before after : Files) : Prop :=
  ∃ entry ∈ planned entries, after[stemOf before entry.slot]? ≠
    before[stemOf before entry.slot]?

/-- Every name finds a file which parses, or none; one finds other data. -/
def Seen (entries : List StackEntry) (before after : Files) : Prop :=
  (∀ entry ∈ planned entries, Readable after entry.slot) ∧
    ∃ entry ∈ planned entries,
      (dataAt after entry.slot).map hashing.jsonDoc ≠
        (dataAt before entry.slot).map hashing.jsonDoc

variable {rules : Rules} {files : Files} {entries : List StackEntry}
  {rows : List Row}

theorem hash_applied_iff (isPlan : plan rules files entries = some rows) :
    hashing.stackContentHash (toDict ((planned entries).map fun entry =>
        (entry.slot, dataAt (applyConfig files rows) entry.slot))) =
      hashing.stackContentHash (projectionFromPlan rows) ↔
    Settled hashing rules files entries := by
  have recorded : projectionFromPlan rows =
      toDict ((planned entries).map fun entry =>
        (entry.slot, written rules files entry)) := by
    obtain ⟨-, rfl⟩ := plan_eq_some.mp isPlan
    rw [projectionFromPlan, map_map]
    rfl
  rw [recorded, sameHash_iff]
  constructor
  · intro same entry isLast other latest
    rw [← same entry isLast, dataAt_applyConfig_latest isPlan latest]
  · intro settled entry isLast
    rcases exists_isLatest (fun other => stemOf files other.slot =
      stemOf files entry.slot ∧ Rewrites rules files other)
      (planned entries) with none | ⟨other, latest⟩
    · have unchanged : dataAt files entry.slot = written rules files entry :=
        not_not.mp fun rewrites => none entry isLast.mem ⟨rfl, rewrites⟩
      rw [dataAt_applyConfig_of_none isPlan none, unchanged]
    · rw [dataAt_applyConfig_latest isPlan latest,
        settled entry isLast other latest]

variable [DecidableEq Digest]

variable {catalog : String → Option (List StackEntry)}

theorem driftStatus_eq {slug : String}
    (inCatalog : catalog slug = some entries) (now : Files) :
    driftStatus hashing catalog now (some (recordActive hashing slug rows true)) =
      (projectionLive now entries).map fun live =>
        if hashing.stackContentHash live ≠
            hashing.stackContentHash (projectionFromPlan rows)
        then DriftStatus.modified else .clean := by
  rw [driftStatus, recordActive]
  simp only [inCatalog]
  rfl

theorem clean_iff (isPlan : plan rules files entries = some rows)
    {slug : String} (inCatalog : catalog slug = some entries) :
    driftStatus hashing catalog (applyConfig files rows)
        (some (recordActive hashing slug rows true)) = some .clean ↔
      Settled hashing rules files entries := by
  rw [driftStatus_eq hashing inCatalog, ← hash_applied_iff hashing isPlan,
    projectionLive_eq_some.mpr ⟨readable_applyConfig isPlan, rfl⟩,
    Option.map_some]
  split
  · next differs => simp [differs]
  · next same => simpa using same

theorem modified_iff (isPlan : plan rules files entries = some rows)
    {slug : String} (inCatalog : catalog slug = some entries)
    (settled : Settled hashing rules files entries) (later : Files) :
    driftStatus hashing catalog later
        (some (recordActive hashing slug rows true)) = some .modified ↔
      Seen hashing entries (applyConfig files rows) later := by
  rw [driftStatus_eq hashing inCatalog,
    ← (hash_applied_iff hashing isPlan).mpr settled, Option.map_eq_some_iff]
  constructor
  · rintro ⟨live, isLive, isModified⟩
    obtain ⟨parses, rfl⟩ := projectionLive_eq_some.mp isLive
    split at isModified
    · next differs =>
        refine ⟨parses, ?_⟩
        by_contra none
        apply differs
        rw [sameHash_iff]
        intro entry latest
        by_contra other
        exact none ⟨entry, latest.mem, other⟩
    · cases isModified
  · rintro ⟨parses, entry, listed, differs⟩
    refine ⟨_, projectionLive_eq_some.mpr ⟨parses, rfl⟩, ?_⟩
    rw [if_pos]
    intro same
    rw [sameHash_iff] at same
    rcases exists_isLatest (fun other : StackEntry => other.slot = entry.slot)
      (planned entries) with none | ⟨last, latest⟩
    · exact none entry listed rfl
    · have isName : last.slot = entry.slot := latest.holds
      apply differs
      rw [← isName] at latest ⊢
      exact same last latest

end Drift

/-- A hash without collisions; the texts need no escapes. -/
def plainHashing : Hashing (ExtTreeMap ConfigFiles.SlotName (Option JsonDoc)) where
  dumps
    | .text value => "\"" ++ value ++ "\""
    | .flag value => if value then "true" else "false"
    | .other rendering _ => rendering
  sha256 := id
  injective := Function.injective_id

def chatFiles : Files :=
  (∅ : Files).insert "chat" (.parsed (slotDoc "chat" "llm" "gpu-vulkan" "qwen"))

def devCatalog : String → Option (List StackEntry)
  | "dev" => some [bindGemma]
  | _ => none

/-- One slot with two models. -/
def bindTwice : List StackEntry :=
  [bindGemma, { bindGemma with model := "qwen" }]

end Hal0.Slots.StackDrift
