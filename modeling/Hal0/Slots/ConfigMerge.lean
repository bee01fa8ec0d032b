import Hal0.Slots.ConfigDoc
import Mathlib.Data.List.Induction

/-!
# Merging and flattening a slot file

`merge_slot_config` writes an update where the shape of the file has its key:
a table at the root, anything else beside the other scalars, which stand under
`[slot]` in the nested shape.  `_flatten_slot_toml` reads both shapes into one
flat view, in which the keys of `[slot]` come first, and fills in a name and a
type where the file has none.

The values here may be `None`, at the root and in a table, as a payload can
put them there.  On a file without `None` the merge is the one of
`ConfigFiles`.
-/

namespace Hal0.Slots.ConfigMerge

open Std
open Hal0.Slots.ConfigFiles (Leaf stripped)

/-! ## Documents -/

abbrev Table := ExtTreeMap String (Option Leaf)

inductive Value where
  | null
  | leaf (value : Leaf)
  | table (entries : Table)
deriving DecidableEq

abbrev Doc := ExtTreeMap String Value

/-- An entry of a table as a value. -/
def Value.ofEntry : Option Leaf → Value
  | none => .null
  | some value => .leaf value

/-- `isinstance(value, dict)` -/
def Value.isTable : Value → Bool
  | .table _ => true
  | _ => false

/-- The table under a key. -/
def tableAt (doc : Doc) (key : String) : Option Table :=
  match doc[key]? with
  | some (.table entries) => some entries
  | _ => none

/-- A payload, with one value for a key. -/
structure Updates where
  items : List (String × Value)
  distinct : (items.map Prod.fst).Nodup

/-! ## The merge -/

/-- `{**existing, **value}`, without the keys which are `None`. -/
def mergeTable (existing value : Table) : Table :=
  (existing ∪ value).filter fun _ entry => entry.isSome

/--
Where `scalars` is: the root, the `[slot]` table, or a table which an update
of the key `slot` has taken out of the document.
-/
inductive Place where
  | root
  | slot
  | detached
deriving DecidableEq

/-- `slot_scalar_table` of the copy. -/
def scalarPlace (base : Doc) : Place :=
  if (tableAt base "slot").isSome then .slot else .root

/-- An assignment to, or a `pop` from, `scalars`. -/
def putScalar (place : Place) (doc : Doc) (key : String)
    (leaf : Option Leaf) : Doc :=
  match place with
  | .root =>
    match leaf with
    | some leaf => doc.insert key (.leaf leaf)
    | none => doc.erase key
  | .slot =>
    match tableAt doc "slot" with
    | some entries =>
      doc.insert "slot" (.table
        (match leaf with
          | some leaf => entries.insert key (some leaf)
          | none => entries.erase key))
    | none => doc
  | .detached => doc

/-- A table update: merged with a table, and put as it is otherwise. -/
def putTable (doc : Doc) (key : String) (value : Table) : Doc :=
  match tableAt doc key with
  | some existing => doc.insert key (.table (mergeTable existing value))
  | none => doc.insert key (.table value)

/-- One round of the loop of `merge_slot_config`. -/
def mergeOne (state : Doc × Place) (update : String × Value) : Doc × Place :=
  match update.2 with
  | .null => (putScalar state.2 state.1 update.1 none, state.2)
  | .leaf leaf => (putScalar state.2 state.1 update.1 (some leaf), state.2)
  | .table value =>
    (putTable state.1 update.1 value,
      if update.1 = "slot" ∧ state.2 = .slot then .detached else state.2)

/-- `merge_slot_config` -/
def mergeSlotConfig (base : Doc) (updates : Updates) : Doc :=
  (updates.items.foldl mergeOne (base, scalarPlace base)).1

/-! ## The flattened view -/

/-- `str(value or "")`; a table which is not empty is in braces. -/
def rendered : Option Value → String
  | some (.leaf (.text value)) => value
  | some (.leaf (.flag true)) => "True"
  | some (.leaf (.other rendering true)) => rendering
  | some (.table entries) => if entries.isEmpty then "" else "\x7b\x7d"
  | _ => ""

/-- `heal_missing_llm_type`; `infer` is `infer_non_chat_type`. -/
def healMissingLlmType (infer : Option Value → Option Value → Option String)
    (doc : Doc) : Doc :=
  let provider := stripped (rendered doc["provider"]?)
  if stripped (rendered doc["type"]?) ≠ [] then doc
  else if (tableAt doc "model").isNone then doc
  else if (tableAt doc "image").isSome then doc
  else if provider = [] ∨ provider.map Char.toLower = "llama-server".toList
  then doc.insert "type" (.leaf (.text
    ((infer doc["profile"]? doc["name"]?).getD "llm")))
  else doc

/-- The scalars beside `[slot]` and `[model]`. -/
def rootScalars (raw : Doc) : Doc :=
  raw.filter fun key value =>
    key ≠ "slot" && key ≠ "model" && !value.isTable

/-- The tables beside `[slot]` and `[model]`. -/
def siblings (raw : Doc) : Doc :=
  raw.filter fun key value => key ≠ "slot" && key ≠ "model" && value.isTable

/-- The scalars of `[slot]`. -/
def slotScalars (raw : Doc) : Doc :=
  match tableAt raw "slot" with
  | some entries => entries.map fun _ entry => .ofEntry entry
  | none => ∅

/-- `out.setdefault("name", slot_name)` -/
def setName (slotName : String) (doc : Doc) : Doc :=
  if doc.contains "name" then doc
  else doc.insert "name" (.leaf (.text slotName))

/-- `out["model"] = raw["model"]`, when it is a table. -/
def setModel (raw doc : Doc) : Doc :=
  match tableAt raw "model" with
  | some entries => doc.insert "model" (.table entries)
  | none => doc

/-- `_flatten_slot_toml` -/
def flattenSlotToml (infer : Option Value → Option Value → Option String)
    (raw : Doc) (slotName : String) : Doc :=
  let out := setModel raw
    (setName slotName (rootScalars raw ∪ slotScalars raw))
  let healed :=
    if (tableAt raw "image").isSome then out else healMissingLlmType infer out
  siblings raw ∪ healed

/-! ## The view before the defaults -/

/-- The flat view without the defaults. -/
def hoisted (raw : Doc) : Doc :=
  siblings raw ∪ setModel raw (rootScalars raw ∪ slotScalars raw)

/-- A flat view with a name and a type. -/
def completed (infer : Option Value → Option Value → Option String)
    (slotName : String) (view : Doc) : Doc :=
  let out := setModel view (setName slotName
    (view.filter fun _ value => !value.isTable))
  let healed :=
    if (tableAt view "image").isSome then out
    else healMissingLlmType infer out
  view ∪ healed

/-- An update of a flat view: scalars replace, tables merge, `None` deletes. -/
def applyUpdate (view : Doc) (update : String × Value) : Doc :=
  match update.2 with
  | .null => view.erase update.1
  | .leaf leaf => view.insert update.1 (.leaf leaf)
  | .table value =>
    view.insert update.1 (.table
      (mergeTable ((tableAt view update.1).getD ∅) value))

/-- The updates, one after another. -/
def applyUpdates (view : Doc) (updates : Updates) : Doc :=
  updates.items.foldl applyUpdate view

/-! ## Lookups -/

/-- The entry of `[slot]` under a key. -/
def slotEntry (doc : Doc) (key : String) : Option Value :=
  (slotScalars doc)[key]?

@[simp]
theorem ofEntry_isTable (entry : Option Leaf) :
    (Value.ofEntry entry).isTable = false := by
  cases entry <;> rfl

variable {doc : Doc}

theorem slotEntry_of_flat (flat : tableAt doc "slot" = none)
    (key : String) : slotEntry doc key = none := by
  simp [slotEntry, slotScalars, flat]

variable {entries : Table}

theorem slotEntry_of_nested (nested : tableAt doc "slot" = some entries)
    (key : String) :
    slotEntry doc key = entries[key]?.map Value.ofEntry := by
  simp [slotEntry, slotScalars, nested]

variable {key : String}

/-- No entry of `[slot]` is a table. -/
theorem isTable_of_slotEntry {value : Value}
    (found : slotEntry doc key = some value) : value.isTable = false := by
  cases nested : tableAt doc "slot" with
  | none =>
    rw [slotEntry_of_flat nested] at found
    cases found
  | some entries =>
    rw [slotEntry_of_nested nested] at found
    obtain ⟨entry, -, rfl⟩ := Option.map_eq_some_iff.mp found
    exact ofEntry_isTable entry

theorem tableAt_eq_some :
    tableAt doc key = some entries ↔ doc[key]? = some (.table entries) := by
  rw [tableAt]
  split
  · next found => simp [found]
  · next other =>
      constructor
      · intro none
        cases none
      · intro found
        exact absurd found (other entries)

theorem getElem?_setModel (raw doc : Doc) (key : String) :
    (setModel raw doc)[key]? =
      if key = "model" then
        ((tableAt raw "model").map Value.table).or doc[key]?
      else doc[key]? := by
  rw [setModel]
  cases tableAt raw "model" with
  | none => simp
  | some entries =>
    by_cases isModel : key = "model"
    · subst isModel
      simp
    · have differs : ¬ "model" = key := fun same => isModel same.symm
      simp [ExtTreeMap.getElem?_insert, isModel, differs]

theorem getElem?_rootScalars (raw : Doc) (key : String) :
    (rootScalars raw)[key]? =
      if key = "slot" ∨ key = "model" then none
      else raw[key]?.filter fun value => !value.isTable := by
  rw [rootScalars, ExtTreeMap.getElem?_filter']
  by_cases isSlot : key = "slot"
  · simp [isSlot]
  · by_cases isModel : key = "model"
    · simp [isModel]
    · simp [isSlot, isModel]

theorem getElem?_siblings (raw : Doc) (key : String) :
    (siblings raw)[key]? =
      if key = "slot" ∨ key = "model" then none
      else raw[key]?.filter fun value => value.isTable := by
  rw [siblings, ExtTreeMap.getElem?_filter']
  by_cases isSlot : key = "slot"
  · simp [isSlot]
  · by_cases isModel : key = "model"
    · simp [isModel]
    · simp [isSlot, isModel]

/-- What is seen of a key which has these entries under `[slot]` and beside. -/
def seen (key : String) (inSlot inRoot : Option Value) : Option Value :=
  if key = "model" then (inRoot.filter (·.isTable)).or inSlot
  else inSlot.or (if key = "slot" then none else inRoot)

theorem map_table_tableAt (doc : Doc) (key : String) :
    (tableAt doc key).map Value.table = doc[key]?.filter (·.isTable) := by
  rw [tableAt]
  cases doc[key]? with
  | none => rfl
  | some value => cases value <;> rfl

/-- What the flat view has under a key. -/
theorem getElem?_hoisted (raw : Doc) (key : String) :
    (hoisted raw)[key]? = seen key (slotEntry raw key) raw[key]? := by
  rw [hoisted, ExtTreeMap.getElem?_union, getElem?_setModel,
    ExtTreeMap.getElem?_union, getElem?_rootScalars, getElem?_siblings, seen,
    map_table_tableAt]
  by_cases isModel : key = "model"
  · simp [isModel, slotEntry]
  · by_cases isSlot : key = "slot"
    · simp [isSlot, slotEntry]
    · rw [if_neg isModel, if_neg (by simp [isSlot, isModel]),
        if_neg (by simp [isSlot, isModel]), if_neg isModel, if_neg isSlot,
        slotEntry]
      cases (slotScalars raw)[key]? with
      | some value => rfl
      | none =>
        cases raw[key]? with
        | none => rfl
        | some value => cases isTable : value.isTable <;> simp [isTable]

theorem tableAt_hoisted {raw : Doc} (notSlot : key ≠ "slot")
    (free : key ≠ "model" → slotEntry raw key = none) :
    tableAt (hoisted raw) key = tableAt raw key := by
  rw [tableAt, getElem?_hoisted, seen]
  by_cases isModel : key = "model"
  · rw [if_pos isModel, tableAt]
    cases found : raw[key]? with
    | none =>
      cases inSlot : slotEntry raw key with
      | none => rfl
      | some value =>
        have scalar := isTable_of_slotEntry inSlot
        cases value with
        | table entries => cases scalar
        | null | leaf leaf => rfl
    | some value =>
      cases value with
      | table entries => rfl
      | null | leaf leaf =>
        cases inSlot : slotEntry raw key with
        | none => rfl
        | some value =>
          have scalar := isTable_of_slotEntry inSlot
          cases value with
          | table entries => cases scalar
          | null | leaf leaf => rfl
  · rw [if_neg isModel, if_neg notSlot, free isModel, Option.none_or, tableAt]

/-! ## Slot files -/

/-- A table without `None`. -/
def Filled (entries : Table) : Prop :=
  ∀ sub : String, entries[sub]? ≠ some none

/-- Without `None` at the top and one level deep. -/
def NoNull (doc : Doc) : Prop :=
  ∀ (key : String) (value : Value), doc[key]? = some value →
    value ≠ .null ∧ ∀ entries, value = .table entries → Filled entries

/--
A slot file of either shape: in the nested one the root has only tables, and
`image` does not stand both under `[slot]` and beside it.
-/
structure SlotFile (doc : Doc) : Prop where
  rootTables : (tableAt doc "slot").isSome = true → ∀ (key : String) value,
    key ≠ "slot" → doc[key]? = some value → value.isTable = true
  image : (tableAt doc "image").isSome = true → slotEntry doc "image" = none

/--
The update has a place in the file.  It is of neither reserved name; a table
with `None` in it has a table to delete from; and in the nested shape `None`
is not for a table, and a table not for a scalar.
-/
def Placed (doc : Doc) (update : String × Value) : Prop :=
  update.1 ≠ "slot" ∧
  match update.2 with
  | .null => (tableAt doc "slot").isSome = true →
      tableAt doc update.1 = none
  | .leaf _ => update.1 ≠ "model" ∧ ((tableAt doc "slot").isSome = true →
      update.1 = "image" → tableAt doc update.1 = none)
  | .table value => (update.1 ≠ "model" → slotEntry doc update.1 = none) ∧
      (tableAt doc update.1 = none → Filled value)

/-! ## Tables -/

theorem getElem?_mergeTable (existing value : Table) (sub : String) :
    (mergeTable existing value)[sub]? =
      (value[sub]?.or existing[sub]?).filter (·.isSome) := by
  rw [mergeTable, ExtTreeMap.getElem?_filter', ExtTreeMap.getElem?_union]

theorem filled_mergeTable (existing value : Table) :
    Filled (mergeTable existing value) := by
  intro sub found
  rw [getElem?_mergeTable] at found
  have passes := (Option.filter_eq_some_iff.mp found).2
  cases passes

/-- A table without `None` is merged with nothing as it is. -/
theorem mergeTable_empty {value : Table} (filled : Filled value) :
    mergeTable ∅ value = value := by
  apply ExtTreeMap.ext_getElem?
  intro sub
  rw [getElem?_mergeTable]
  cases found : value[sub]? with
  | none => simp
  | some entry =>
    cases entry with
    | none => exact absurd found (filled sub)
    | some leaf => rfl

/-! ## Writing a key -/

/-- The key has these entries afterwards, every other key its own. -/
structure Puts (doc after : Doc) (key : String)
    (inSlot inRoot : Option Value) : Prop where
  shape : (tableAt after "slot").isSome = (tableAt doc "slot").isSome
  slot : ∀ other, slotEntry after other =
    if other = key then inSlot else slotEntry doc other
  root : ∀ other, other ≠ "slot" → after[other]? =
    if other = key then inRoot else doc[other]?

/-- A change of the root, off `[slot]`. -/
theorem puts_root {after : Doc} (notSlot : key ≠ "slot")
    {inRoot : Option Value}
    (root : ∀ other : String, after[other]? =
      if other = key then inRoot else doc[other]?) :
    Puts doc after key (slotEntry doc key) inRoot := by
  have sameSlot : tableAt after "slot" = tableAt doc "slot" := by
    rw [tableAt, tableAt, root, if_neg (Ne.symm notSlot)]
  constructor
  · rw [sameSlot]
  · intro other
    rw [slotEntry, slotScalars, sameSlot, ← slotScalars, ← slotEntry]
    split
    · next isKey => rw [isKey]
    · rfl
  · intro other _
    exact root other

theorem puts_insert (doc : Doc) (notSlot : key ≠ "slot") (value : Value) :
    Puts doc (doc.insert key value) key (slotEntry doc key) (some value) := by
  apply puts_root notSlot
  intro other
  by_cases isKey : other = key
  · simp [isKey]
  · have differs : ¬ key = other := fun same => isKey same.symm
    simp [ExtTreeMap.getElem?_insert, isKey, differs]

theorem puts_erase (doc : Doc) (notSlot : key ≠ "slot") :
    Puts doc (doc.erase key) key (slotEntry doc key) none := by
  apply puts_root notSlot
  intro other
  by_cases isKey : other = key
  · simp [isKey]
  · have differs : ¬ key = other := fun same => isKey same.symm
    simp [ExtTreeMap.getElem?_erase, isKey, differs]

/-- A change of `[slot]`. -/
theorem puts_slot (nested : tableAt doc "slot" = some entries)
    (leaf : Option Leaf) :
    Puts doc (putScalar .slot doc key leaf) key (leaf.map Value.leaf)
      doc[key]? := by
  have after : putScalar .slot doc key leaf = doc.insert "slot" (.table
      (match leaf with
        | some leaf => entries.insert key (some leaf)
        | none => entries.erase key)) := by
    rw [putScalar, nested]
  rw [after]
  constructor
  · rw [nested, tableAt]
    simp
  · intro other
    rw [slotEntry_of_nested (tableAt_eq_some.mpr (by simp; rfl)),
      slotEntry_of_nested nested]
    by_cases isKey : other = key
    · subst isKey
      cases leaf <;> simp [Value.ofEntry]
    · have differs : ¬ key = other := fun same => isKey same.symm
      cases leaf <;>
        simp [ExtTreeMap.getElem?_insert, ExtTreeMap.getElem?_erase, isKey,
          differs]
  · intro other notSlot
    have differs : ¬ "slot" = other := fun same => notSlot same.symm
    rw [ExtTreeMap.getElem?_insert, if_neg (by simpa using differs)]
    split
    · next isKey => rw [isKey]
    · rfl

theorem hoisted_of_puts {after : Doc} (notSlot : key ≠ "slot")
    {inSlot inRoot : Option Value} (puts : Puts doc after key inSlot inRoot)
    (other : String) :
    (hoisted after)[other]? =
      if other = key then seen key inSlot inRoot
      else (hoisted doc)[other]? := by
  rw [getElem?_hoisted, puts.slot, getElem?_hoisted]
  by_cases isKey : other = key
  · subst isKey
    rw [puts.root other notSlot, if_pos rfl, if_pos rfl, if_pos rfl]
  · rw [if_neg isKey, if_neg isKey]
    by_cases isSlot : other = "slot"
    · rw [isSlot, seen, seen]
      simp
    · rw [puts.root other isSlot, if_neg isKey]

/-! ## Files without `None` -/

/-- A value of a file, in which no table holds `None`. -/
def Value.ofFile : ConfigFiles.Value → Value
  | .leaf value => .leaf value
  | .table entries => .table (entries.map fun _ leaf => some leaf)

/-- A file, as it is seen here. -/
def ofFile (doc : ConfigFiles.Doc) : Doc :=
  doc.map fun _ value => .ofFile value

/-- The table of a payload; of two entries of one key the later one counts. -/
def ofEntries (entries : List (String × Option Leaf)) : Table :=
  entries.foldl (fun table entry => table.insert entry.1 entry.2) ∅

/-- An update, as it is seen here. -/
def ofUpdate : String × ConfigFiles.Update → String × Value
  | (key, .null) => (key, .null)
  | (key, .leaf value) => (key, .leaf value)
  | (key, .table entries) => (key, .table (ofEntries entries))

theorem ofUpdate_fst (update : String × ConfigFiles.Update) :
    (ofUpdate update).1 = update.1 := by
  obtain ⟨key, value⟩ := update
  cases value <;> rfl

/-- The updates, as they are seen here. -/
def ofUpdates (updates : ConfigFiles.Updates)
    (distinct : updates.keys.Nodup) : Updates where
  items := updates.map ofUpdate
  distinct := by
    have sameKeys : (updates.map ofUpdate).map Prod.fst = updates.keys := by
      rw [List.map_map]
      exact List.map_congr_left fun update _ => ofUpdate_fst update
    rwa [sameKeys]

/-- A table with `None` in it has a table to delete from. -/
def Fits (doc : Doc) (update : String × Value) : Prop :=
  ∀ entries, update.2 = .table entries → tableAt doc update.1 = none →
    Filled entries

theorem getElem?_ofFile (file : ConfigFiles.Doc) (key : String) :
    (ofFile file)[key]? = file[key]?.map Value.ofFile :=
  ExtTreeMap.getElem?_map

theorem ofFile_insert (file : ConfigFiles.Doc) (key : String)
    (value : ConfigFiles.Value) :
    ofFile (file.insert key value) =
      (ofFile file).insert key (.ofFile value) := by
  apply ExtTreeMap.ext_getElem?
  intro other
  rw [getElem?_ofFile, ExtTreeMap.getElem?_insert, ExtTreeMap.getElem?_insert,
    getElem?_ofFile]
  split <;> rfl

theorem ofFile_erase (file : ConfigFiles.Doc) (key : String) :
    ofFile (file.erase key) = (ofFile file).erase key := by
  apply ExtTreeMap.ext_getElem?
  intro other
  rw [getElem?_ofFile, ExtTreeMap.getElem?_erase, ExtTreeMap.getElem?_erase,
    getElem?_ofFile]
  split <;> rfl

/-- An entry of a table, put or taken away. -/
theorem map_some_put (table : ConfigFiles.Table) (key : String)
    (leaf : Option Leaf) :
    (ConfigFiles.Table.put table key leaf).map (fun _ leaf => some leaf) =
      (match leaf with
        | some leaf => (table.map fun _ leaf => some leaf).insert key
          (some leaf)
        | none => (table.map fun _ leaf => some leaf).erase key) := by
  apply ExtTreeMap.ext_getElem?
  intro other
  cases leaf with
  | none =>
    rw [ConfigFiles.Table.put, ExtTreeMap.getElem?_map,
      ExtTreeMap.getElem?_erase, ExtTreeMap.getElem?_erase,
      ExtTreeMap.getElem?_map]
    split <;> rfl
  | some leaf =>
    rw [ConfigFiles.Table.put, ExtTreeMap.getElem?_map,
      ExtTreeMap.getElem?_insert, ExtTreeMap.getElem?_insert,
      ExtTreeMap.getElem?_map]
    split <;> rfl

theorem ofEntries_concat (entries : List (String × Option Leaf))
    (entry : String × Option Leaf) :
    ofEntries (entries ++ [entry]) =
      (ofEntries entries).insert entry.1 entry.2 := by
  rw [ofEntries, List.foldl_append]
  rfl

/-- The tables merge alike. -/
theorem map_some_mergeTable (existing : ConfigFiles.Table)
    (entries : List (String × Option Leaf)) :
    (ConfigFiles.mergeTable existing entries).map (fun _ leaf => some leaf) =
      mergeTable (existing.map fun _ leaf => some leaf)
        (ofEntries entries) := by
  induction entries using List.reverseRecOn with
  | nil =>
    apply ExtTreeMap.ext_getElem?
    intro sub
    rw [getElem?_mergeTable]
    cases found : existing[sub]? with
    | none => simp [ConfigFiles.mergeTable, ofEntries, found]
    | some leaf =>
      simp [ConfigFiles.mergeTable, ofEntries, found, Option.filter]
  | append_singleton entries entry ih =>
    obtain ⟨key, leaf⟩ := entry
    have last : ConfigFiles.mergeTable existing (entries ++ [(key, leaf)]) =
        ConfigFiles.Table.put (ConfigFiles.mergeTable existing entries) key
          leaf := by
      rw [ConfigFiles.mergeTable, List.foldl_append]
      rfl
    rw [last, map_some_put, ih, ofEntries_concat]
    apply ExtTreeMap.ext_getElem?
    intro sub
    rw [getElem?_mergeTable, ExtTreeMap.getElem?_insert]
    by_cases isKey : key = sub
    · subst isKey
      cases leaf <;> simp [Option.filter]
    · cases leaf <;>
        simp [ExtTreeMap.getElem?_insert, ExtTreeMap.getElem?_erase, isKey,
          getElem?_mergeTable]

theorem tableAt_ofFile (file : ConfigFiles.Doc) (key : String) :
    tableAt (ofFile file) key = match file[key]? with
      | some (.table entries) => some (entries.map fun _ leaf => some leaf)
      | _ => none := by
  rw [tableAt, getElem?_ofFile]
  cases file[key]? with
  | none => rfl
  | some value => cases value <;> rfl

/-- A table update is the same. -/
theorem ofFile_putTable (file : ConfigFiles.Doc) (key : String)
    (entries : List (String × Option Leaf))
    (fits : tableAt (ofFile file) key = none → Filled (ofEntries entries)) :
    ofFile (ConfigFiles.putTable file key entries) =
      putTable (ofFile file) key (ofEntries entries) := by
  have fresh : Filled (ofEntries entries) →
      ofFile (file.insert key (.table (ConfigFiles.mergeTable ∅ entries))) =
        (ofFile file).insert key (.table (ofEntries entries)) := by
    intro filled
    have none : (∅ : ConfigFiles.Table).map (fun _ leaf => some leaf) = ∅ := by
      apply ExtTreeMap.ext_getElem?
      simp
    have merged := map_some_mergeTable ∅ entries
    rw [none, mergeTable_empty filled] at merged
    rw [ofFile_insert, Value.ofFile, merged]
  have here := tableAt_ofFile file key
  rw [ConfigFiles.putTable, putTable]
  cases found : file[key]? with
  | none =>
    rw [found] at here
    rw [here]
    exact fresh (fits here)
  | some value =>
    cases value with
    | leaf leaf =>
      rw [found] at here
      rw [here]
      exact fresh (fits here)
    | table existing =>
      rw [found] at here
      rw [here]
      exact (ofFile_insert file key _).trans
        (by rw [Value.ofFile, map_some_mergeTable])

/-- Where the scalars of a merge of a file land. -/
def Place.ofScalars : ConfigFiles.Scalars → Place
  | .root => .root
  | .slot _ => .slot
  | .replaced => .detached

/-- A merge of a file, as it is seen here. -/
def ofProjection (projection : ConfigFiles.Projection) : Doc × Place :=
  (ofFile projection.after, .ofScalars projection.scalars)

theorem ofProjection_start (base : ConfigFiles.Doc) :
    ofProjection (.start base) = (ofFile base, scalarPlace (ofFile base)) := by
  rw [ofProjection, ConfigFiles.Projection.after_start, scalarPlace,
    tableAt_ofFile, ConfigFiles.Projection.start, ConfigFiles.slotTable]
  cases base["slot"]? with
  | none => rfl
  | some value => cases value <;> rfl

/-- A new `[slot]` table takes the place of the one before it. -/
theorem insert_slot_insert_slot (doc : Doc) (first second : Value) :
    (doc.insert "slot" first).insert "slot" second =
      doc.insert "slot" second := by
  apply ExtTreeMap.ext_getElem?
  intro key
  by_cases isSlot : "slot" = key
  · subst isSlot
    simp
  · simp [ExtTreeMap.getElem?_insert, isSlot]

/-- So is a scalar. -/
theorem ofProjection_putLeaf (projection : ConfigFiles.Projection)
    (key : String) (leaf : Option Leaf) :
    ofProjection (projection.putLeaf key leaf) =
      (putScalar (.ofScalars projection.scalars) (ofFile projection.after) key
        leaf, .ofScalars projection.scalars) := by
  obtain ⟨root, scalars⟩ := projection
  cases scalars with
  | root =>
    cases leaf with
    | none => exact congrArg (·, Place.root) (ofFile_erase root key)
    | some leaf => exact congrArg (·, Place.root) (ofFile_insert root key _)
  | slot entries =>
    have here : tableAt (ofFile (root.insert "slot" (.table entries))) "slot" =
        some (entries.map fun _ leaf => some leaf) := by
      rw [tableAt_ofFile, ExtTreeMap.getElem?_insert_self]
    have put : ofFile (root.insert "slot"
          (.table (ConfigFiles.Table.put entries key leaf))) =
        putScalar .slot (ofFile (root.insert "slot" (.table entries))) key
          leaf := by
      rw [putScalar, here, ofFile_insert, ofFile_insert, Value.ofFile,
        map_some_put]
      exact (insert_slot_insert_slot (ofFile root) _ _).symm
    exact congrArg (·, Place.slot) put
  | replaced => rfl

theorem ofProjection_putEntries (projection : ConfigFiles.Projection)
    (key : String) (entries : List (String × Option Leaf))
    (fits : tableAt (ofFile projection.after) key = none →
      Filled (ofEntries entries)) :
    ofProjection (projection.putEntries key entries) =
      mergeOne (ofProjection projection) (key, .table (ofEntries entries)) := by
  obtain ⟨root, scalars⟩ := projection
  have put := ofFile_putTable _ key entries fits
  cases scalars with
  | root =>
    exact congrArg₂ Prod.mk put (if_neg fun both => nomatch both.2).symm
  | slot scalars =>
    by_cases isSlot : key = "slot"
    · subst isSlot
      exact congrArg (·, Place.detached) put
    · have same := ConfigFiles.Projection.insert_slot_of_slotTable
        ((ConfigFiles.Projection.slotTable_putTable isSlot _ entries).trans
          (ConfigFiles.slotTable_insert_slot root scalars))
      have kept : ConfigFiles.Projection.putEntries ⟨root, .slot scalars⟩ key
            entries =
          ⟨ConfigFiles.putTable (root.insert "slot" (.table scalars)) key
            entries, .slot scalars⟩ :=
        congrArg _ (if_neg isSlot)
      rw [kept]
      exact congrArg₂ Prod.mk ((congrArg ofFile same).trans put)
        (if_neg fun both => isSlot both.1).symm
  | replaced =>
    exact congrArg₂ Prod.mk put (if_neg fun both => nomatch both.2).symm

theorem ofProjection_put (projection : ConfigFiles.Projection)
    (update : String × ConfigFiles.Update)
    (fits : Fits (ofFile projection.after) (ofUpdate update)) :
    ofProjection (projection.put update) =
      mergeOne (ofProjection projection) (ofUpdate update) := by
  obtain ⟨key, value⟩ := update
  cases value with
  | null => exact ofProjection_putLeaf projection key none
  | leaf leaf => exact ofProjection_putLeaf projection key (some leaf)
  | table entries =>
    exact ofProjection_putEntries projection key entries (fits _ rfl)

theorem tableAt_putScalar (place : Place) (doc : Doc) {key other : String}
    (differs : other ≠ key) (leaf : Option Leaf)
    (noTable : tableAt (putScalar place doc key leaf) other = none) :
    tableAt doc other = none := by
  have apart : ¬ key = other := fun same => differs same.symm
  cases place with
  | root =>
    cases leaf <;>
      simpa [putScalar, tableAt, ExtTreeMap.getElem?_insert,
        ExtTreeMap.getElem?_erase, apart] using noTable
  | slot =>
    cases nested : tableAt doc "slot" with
    | none => simpa [putScalar, nested] using noTable
    | some entries =>
      rw [putScalar, nested] at noTable
      by_cases isSlot : "slot" = other
      · subst isSlot
        simp [tableAt] at noTable
      · simpa [tableAt, ExtTreeMap.getElem?_insert, isSlot] using noTable
  | detached => exact noTable

theorem tableAt_putTable (doc : Doc) {key other : String}
    (differs : other ≠ key) (value : Table) :
    tableAt (putTable doc key value) other = tableAt doc other := by
  have apart : ¬ key = other := fun same => differs same.symm
  rw [putTable]
  split <;> simp [tableAt, ExtTreeMap.getElem?_insert, apart]

/-- An update leaves the tables of the other keys where they are. -/
theorem tableAt_mergeOne (state : Doc × Place) (update : String × Value)
    {other : String} (differs : other ≠ update.1)
    (noTable : tableAt (mergeOne state update).1 other = none) :
    tableAt state.1 other = none := by
  obtain ⟨key, value⟩ := update
  cases value with
  | null => exact tableAt_putScalar state.2 state.1 differs none noTable
  | leaf leaf => exact tableAt_putScalar state.2 state.1 differs _ noTable
  | table value =>
    exact (tableAt_putTable state.1 differs value).symm.trans noTable

/-- So are all updates. -/
theorem ofProjection_foldl (updates : ConfigFiles.Updates)
    (projection : ConfigFiles.Projection) (distinct : updates.keys.Nodup)
    (fits : ∀ update ∈ updates,
      Fits (ofFile projection.after) (ofUpdate update)) :
    ofProjection (updates.foldl ConfigFiles.Projection.put projection) =
      (updates.map ofUpdate).foldl mergeOne (ofProjection projection) := by
  induction updates generalizing projection with
  | nil => rfl
  | cons update rest ih =>
    have step := ofProjection_put projection update
      (fits update List.mem_cons_self)
    rw [ConfigFiles.Updates.keys, List.map_cons, List.nodup_cons] at distinct
    rw [List.foldl_cons, List.map_cons, List.foldl_cons, ← step]
    apply ih _ distinct.2
    intro later isLater entries isTable noTable
    apply fits later (List.mem_cons_of_mem _ isLater) entries isTable
    have differs : (ofUpdate later).1 ≠ (ofUpdate update).1 := by
      rw [ofUpdate_fst, ofUpdate_fst]
      intro same
      exact distinct.1 (same ▸ List.mem_map_of_mem isLater)
    apply tableAt_mergeOne (ofProjection projection) (ofUpdate update) differs
    rw [← step]
    exact noTable

/-- The merge of the slots directory is this one, on files without `None`. -/
theorem ofFile_mergeSlotConfig (base : ConfigFiles.Doc)
    (updates : ConfigFiles.Updates) (distinct : updates.keys.Nodup)
    (fits : ∀ update ∈ updates, Fits (ofFile base) (ofUpdate update)) :
    ofFile (ConfigFiles.mergeSlotConfig base updates) =
      mergeSlotConfig (ofFile base) (ofUpdates updates distinct) := by
  have after := ConfigFiles.Projection.after_start base
  have merged := ofProjection_foldl updates (.start base) distinct
    (after.symm ▸ fits)
  rw [ofProjection_start] at merged
  exact congrArg Prod.fst merged

end Hal0.Slots.ConfigMerge
