import Mathlib.Tactic.Common

/-!
# The documents of the slot files

A file of the slots directory is a TOML document of scalars and tables.  Its
slot scalars stand at the root, or under `[slot]` in the nested shape; a
reader hoists them, a writer merges its updates into the place they are in.
Tables are one level deep here: what stands deeper is a scalar of its table.
-/

namespace Hal0.Slots.ConfigFiles

open List
open Std

/-! ## Documents -/

/-- A value which is no table; `other` has its text and its truth value. -/
inductive Leaf where
  | text (value : String)
  | flag (value : Bool)
  | other (rendering : String) (truthy : Bool)
deriving DecidableEq, Repr

abbrev Table := ExtTreeMap String Leaf

inductive Value where
  | leaf (value : Leaf)
  | table (entries : Table)
deriving DecidableEq

abbrev Doc := ExtTreeMap String Value

/-- A value of a payload; `null` deletes its key, as `none` in a table. -/
inductive Update where
  | null
  | leaf (value : Leaf)
  | table (entries : List (String × Option Leaf))
deriving DecidableEq

abbrev Updates := List (String × Update)

namespace Updates

/-- The keys of the updates. -/
def keys (updates : Updates) : List String :=
  updates.map Prod.fst

end Updates

/-- `bool(value)`. -/
def Value.truthy : Value → Bool
  | .leaf (.text value) => value ≠ ""
  | .leaf (.flag value) => value
  | .leaf (.other _ truthy) => truthy
  | .table entries => !entries.isEmpty

/-- `str(value or "")`; a table which is not empty is in braces. -/
def rendered : Option Value → String
  | some (.leaf (.text value)) => value
  | some (.leaf (.flag true)) => "True"
  | some (.leaf (.other rendering true)) => rendering
  | some (.table entries) => if entries.isEmpty then "" else "\x7b\x7d"
  | _ => ""

/-- `str.isspace` of one character. -/
def isSpace (char : Char) : Bool :=
  let code := char.toNat
  (9 ≤ code && code ≤ 13) || (28 ≤ code && code ≤ 32) || code = 133 ||
    code = 160 || code = 5760 || (8192 ≤ code && code ≤ 8202) ||
    code = 8232 || code = 8233 || code = 8239 || code = 8287 || code = 12288

/-- The characters of `text.strip()`. -/
def stripped (text : String) : List Char :=
  ((text.toList.dropWhile isSpace).reverse.dropWhile isSpace).reverse

/-! ## The nested shape -/

/-- The `[slot]` table of the nested shape. -/
def slotTable (doc : Doc) : Option Table :=
  match doc["slot"]? with
  | some (.table entries) => some entries
  | _ => none

/-- A table as a document of its own. -/
def Table.toDoc (entries : Table) : Doc :=
  entries.map fun _ leaf => .leaf leaf

/-- `_read_slot_toml_dict`: the keys of `[slot]` override the root. -/
def hoist (doc : Doc) : Doc :=
  match slotTable doc with
  | some entries => doc.erase "slot" ∪ Table.toDoc entries
  | none => doc.erase "slot"

/-- The root with the scalars over it: `{**cfg_dict, **scalars}`. -/
def flattened (doc : Doc) : Doc :=
  match slotTable doc with
  | some entries => doc ∪ Table.toDoc entries
  | none => doc

/-- `slot_scalar_table(doc).get(key)`. -/
def scalar (doc : Doc) (key : String) : Option Value :=
  match slotTable doc with
  | some entries => entries[key]?.map .leaf
  | none => doc[key]?

/-- An entry is put or taken away. -/
def Table.put (entries : Table) (key : String) : Option Leaf → Table
  | some leaf => entries.insert key leaf
  | none => entries.erase key

/-- A key of the root is put or taken away. -/
def putRoot (doc : Doc) (key : String) : Option Leaf → Doc
  | some leaf => doc.insert key (.leaf leaf)
  | none => doc.erase key

/-- An assignment to, or a `pop` from, `slot_scalar_table(doc)`. -/
def putScalar (doc : Doc) (key : String) (leaf : Option Leaf) : Doc :=
  match slotTable doc with
  | some entries => doc.insert "slot" (.table (Table.put entries key leaf))
  | none => putRoot doc key leaf

theorem getElem?_hoist (doc : Doc) (key : String) :
    (hoist doc)[key]? =
      (((slotTable doc).bind (·[key]?)).map Value.leaf).or
        (if key = "slot" then none else doc[key]?) := by
  by_cases isSlot : key = "slot"
  · subst isSlot
    cases nested : slotTable doc <;>
      simp [hoist, nested, Table.toDoc, ExtTreeMap.getElem?_union]
  · have differs : ¬ "slot" = key := fun same => isSlot same.symm
    cases nested : slotTable doc <;>
      simp [hoist, nested, Table.toDoc, ExtTreeMap.getElem?_union,
        ExtTreeMap.getElem?_erase, isSlot, differs]

/-- No document has a `[slot]` table once it is hoisted. -/
@[simp]
theorem slotTable_hoist (doc : Doc) : slotTable (hoist doc) = none := by
  have root := getElem?_hoist doc "slot"
  simp only [if_true, Option.or_none] at root
  cases found : (slotTable doc).bind (·["slot"]?) with
  | none =>
    rw [found] at root
    simp [slotTable, root]
  | some leaf =>
    rw [found] at root
    simp [slotTable, root]

variable {doc : Doc} {key : String}

/-- A document without a `[slot]` table is read as it stands. -/
theorem getElem?_hoist_of_flat (flat : slotTable doc = none)
    (notSlot : key ≠ "slot") :
    (hoist doc)[key]? = doc[key]? := by
  simp [getElem?_hoist, flat, notSlot]

theorem slotTable_insert (notSlot : key ≠ "slot")
    (value : Value) : slotTable (doc.insert key value) = slotTable doc := by
  simp [slotTable, ExtTreeMap.getElem?_insert, notSlot]

theorem slotTable_erase (notSlot : key ≠ "slot") :
    slotTable (doc.erase key) = slotTable doc := by
  simp [slotTable, ExtTreeMap.getElem?_erase, notSlot]

/-! ## What a write leaves alone -/

/-- The documents have one shape and, hoisted, the same values off `keys`. -/
structure AgreeOff (keys : List String) (after before : Doc) : Prop where
  shape : (slotTable after).isSome = (slotTable before).isSome
  off : ∀ key, key ∉ keys → (hoist after)[key]? = (hoist before)[key]?

namespace AgreeOff

variable {keys more : List String} {first second third doc : Doc}

theorem refl (keys : List String) (doc : Doc) : AgreeOff keys doc doc :=
  ⟨rfl, fun _ _ => rfl⟩

theorem trans (upper : AgreeOff keys first second)
    (lower : AgreeOff keys second third) : AgreeOff keys first third where
  shape := upper.shape.trans lower.shape
  off key outside := (upper.off key outside).trans (lower.off key outside)

theorem mono (agree : AgreeOff keys first second)
    (among : ∀ key, key ∈ keys → key ∈ more) : AgreeOff more first second where
  shape := agree.shape
  off key outside := agree.off key fun inside => outside (among key inside)

theorem flat (agree : AgreeOff keys first second)
    (flatSecond : slotTable second = none) : slotTable first = none := by
  have shape := agree.shape
  rw [flatSecond] at shape
  simpa using shape

end AgreeOff

theorem agreeOff_insert (notSlot : key ≠ "slot") (doc : Doc)
    (value : Value) : AgreeOff [key] (doc.insert key value) doc where
  shape := by rw [slotTable_insert notSlot]
  off other outside := by
    have differs : ¬ key = other := by
      rintro rfl
      exact outside mem_cons_self
    simp [getElem?_hoist, slotTable_insert notSlot,
      ExtTreeMap.getElem?_insert, differs]

theorem agreeOff_erase (notSlot : key ≠ "slot") (doc : Doc) :
    AgreeOff [key] (doc.erase key) doc where
  shape := by rw [slotTable_erase notSlot]
  off other outside := by
    have differs : ¬ key = other := by
      rintro rfl
      exact outside mem_cons_self
    simp [getElem?_hoist, slotTable_erase notSlot,
      ExtTreeMap.getElem?_erase, differs]

theorem agreeOff_putRoot (notSlot : key ≠ "slot") (doc : Doc)
    (leaf : Option Leaf) : AgreeOff [key] (putRoot doc key leaf) doc := by
  cases leaf with
  | none => exact agreeOff_erase notSlot doc
  | some leaf => exact agreeOff_insert notSlot doc (.leaf leaf)

theorem Table.getElem?_put_of_ne (entries : Table) {other : String}
    (differs : key ≠ other) (leaf : Option Leaf) :
    (Table.put entries key leaf)[other]? = entries[other]? := by
  cases leaf <;>
    simp [Table.put, ExtTreeMap.getElem?_insert, ExtTreeMap.getElem?_erase,
      differs]

theorem slotTable_insert_slot (doc : Doc) (entries : Table) :
    slotTable (doc.insert "slot" (.table entries)) = some entries := by
  simp [slotTable]

/-- New scalars in the `[slot]` table of a nested document. -/
theorem agreeOff_insert_slot {entries : Table}
    (nested : slotTable doc = some entries) (key : String)
    (leaf : Option Leaf) :
    AgreeOff [key]
      (doc.insert "slot" (.table (Table.put entries key leaf))) doc where
  shape := by simp [slotTable_insert_slot, nested]
  off other outside := by
    have differs : key ≠ other := by
      rintro rfl
      exact outside mem_cons_self
    rw [getElem?_hoist, getElem?_hoist, slotTable_insert_slot, nested,
      Option.bind_some, Option.bind_some,
      Table.getElem?_put_of_ne entries differs]
    by_cases isSlot : other = "slot"
    · simp [isSlot]
    · have notOther : ¬ "slot" = other := fun same => isSlot same.symm
      simp [isSlot, ExtTreeMap.getElem?_insert, notOther]

theorem agreeOff_putScalar (notSlot : key ≠ "slot") (doc : Doc)
    (leaf : Option Leaf) : AgreeOff [key] (putScalar doc key leaf) doc := by
  cases nested : slotTable doc with
  | none =>
    simp only [putScalar, nested]
    exact agreeOff_putRoot notSlot doc leaf
  | some entries =>
    simp only [putScalar, nested]
    exact agreeOff_insert_slot nested key leaf

theorem getElem?_hoist_putScalar (notSlot : key ≠ "slot") (doc : Doc)
    (leaf : Leaf) :
    (hoist (putScalar doc key (some leaf)))[key]? = some (.leaf leaf) := by
  cases nested : slotTable doc with
  | none =>
    simp only [putScalar, nested, putRoot]
    rw [getElem?_hoist_of_flat (by rw [slotTable_insert notSlot, nested])
      notSlot]
    exact ExtTreeMap.getElem?_insert_self
  | some entries =>
    simp [putScalar, nested, getElem?_hoist, slotTable_insert_slot,
      Table.put]

/-! ## Merging -/

/-- `{**existing, **value}`, less the keys which are `None` in `value`. -/
def mergeTable (existing : Table) (entries : List (String × Option Leaf)) :
    Table :=
  entries.foldl (fun table entry => Table.put table entry.1 entry.2) existing

/-- A table of the payload merges with a table, and replaces anything else. -/
def putTable (doc : Doc) (key : String) (entries : List (String × Option Leaf)) :
    Doc :=
  match doc[key]? with
  | some (.table existing) =>
    doc.insert key (.table (mergeTable existing entries))
  | _ => doc.insert key (.table (mergeTable ∅ entries))

/--
Where the scalars of a merge land: in the root, in the copy of `[slot]`, or in
a copy which a `[slot]` table of the payload has replaced.
-/
inductive Scalars where
  | root
  | slot (entries : Table)
  | replaced

/-- A merge under way. -/
structure Projection where
  root : Doc
  scalars : Scalars

namespace Projection

/-- A merge before its first update. -/
def start (base : Doc) : Projection where
  root := base
  scalars :=
    match slotTable base with
    | some entries => .slot entries
    | none => .root

/-- `after`, with the scalars where they are. -/
def after (projection : Projection) : Doc :=
  match projection.scalars with
  | .slot entries => projection.root.insert "slot" (.table entries)
  | _ => projection.root

/-- A scalar goes where the scalars are. -/
def putLeaf (projection : Projection) (key : String) (leaf : Option Leaf) :
    Projection :=
  match projection.scalars with
  | .root => { projection with root := putRoot projection.root key leaf }
  | .slot entries =>
    { projection with scalars := .slot (Table.put entries key leaf) }
  | .replaced => projection

/-- A table goes to the root. -/
def putEntries (projection : Projection) (key : String)
    (entries : List (String × Option Leaf)) : Projection where
  root := putTable projection.after key entries
  scalars :=
    match projection.scalars with
    | .slot scalars => if key = "slot" then .replaced else .slot scalars
    | scalars => scalars

/-- One round of the loop. -/
def put (projection : Projection) (update : String × Update) : Projection :=
  match update.2 with
  | .null => projection.putLeaf update.1 none
  | .leaf leaf => projection.putLeaf update.1 (some leaf)
  | .table entries => projection.putEntries update.1 entries

end Projection

/-- `merge_slot_config`. -/
def mergeSlotConfig (base : Doc) (updates : Updates) : Doc :=
  (updates.foldl Projection.put (.start base)).after

/-- An update where the document has its place, `[slot]` apart. -/
def putUpdate (doc : Doc) (update : String × Update) : Doc :=
  match update.2 with
  | .null => putScalar doc update.1 none
  | .leaf leaf => putScalar doc update.1 (some leaf)
  | .table entries => putTable doc update.1 entries

namespace Projection

/-- The scalars land in the table in which `after` has them. -/
def Proper (projection : Projection) : Prop :=
  match projection.scalars with
  | .root => slotTable projection.root = none
  | .slot _ => True
  | .replaced => False

theorem proper_start (base : Doc) : (start base).Proper := by
  cases nested : slotTable base <;> simp [start, Proper, nested]

theorem insert_slot_of_slotTable {doc : Doc} {entries : Table}
    (nested : slotTable doc = some entries) :
    doc.insert "slot" (.table entries) = doc := by
  have found : doc["slot"]? = some (.table entries) := by
    unfold slotTable at nested
    split at nested
    · next same => simpa [same] using nested
    · cases nested
  apply ExtTreeMap.ext_getElem?
  intro key
  by_cases isSlot : "slot" = key
  · subst isSlot
    simp [found]
  · simp [ExtTreeMap.getElem?_insert, isSlot]

theorem after_start (base : Doc) : (start base).after = base := by
  cases nested : slotTable base with
  | none => simp [start, after, nested]
  | some entries =>
    simp only [start, after, nested]
    exact insert_slot_of_slotTable nested

theorem slotTable_putTable {key : String} (notSlot : key ≠ "slot") (doc : Doc)
    (entries : List (String × Option Leaf)) :
    slotTable (putTable doc key entries) = slotTable doc := by
  unfold putTable
  split <;> exact slotTable_insert notSlot _

variable {projection : Projection}

theorem after_putLeaf (proper : projection.Proper) {key : String}
    (notSlot : key ≠ "slot") (leaf : Option Leaf) :
    (projection.putLeaf key leaf).after = putScalar projection.after key leaf ∧
      (projection.putLeaf key leaf).Proper := by
  obtain ⟨root, scalars⟩ := projection
  cases scalars with
  | root =>
    have flat : slotTable root = none := proper
    constructor
    · simp [putLeaf, after, putScalar, flat]
    · exact (agreeOff_putRoot notSlot root leaf).flat flat
  | slot entries =>
    constructor
    · simp only [putLeaf, after, putScalar, slotTable_insert_slot]
      apply ExtTreeMap.ext_getElem?
      intro other
      by_cases isSlot : "slot" = other <;>
        simp [ExtTreeMap.getElem?_insert, isSlot]
    · trivial
  | replaced => exact proper.elim

theorem after_putEntries (proper : projection.Proper) {key : String}
    (notSlot : key ≠ "slot") (entries : List (String × Option Leaf)) :
    (projection.putEntries key entries).after =
        putTable projection.after key entries ∧
      (projection.putEntries key entries).Proper := by
  obtain ⟨root, scalars⟩ := projection
  cases scalars with
  | root =>
    have flat : slotTable root = none := proper
    constructor
    · simp [putEntries, after]
    · exact (slotTable_putTable notSlot root entries).trans flat
  | slot scalars =>
    constructor
    · simp only [putEntries, if_neg notSlot, after]
      apply insert_slot_of_slotTable
      rw [slotTable_putTable notSlot, slotTable_insert_slot]
    · simp [putEntries, notSlot, Proper]
  | replaced => exact proper.elim

theorem after_put (proper : projection.Proper) {update : String × Update}
    (notSlot : update.1 ≠ "slot") :
    (projection.put update).after = putUpdate projection.after update ∧
      (projection.put update).Proper := by
  obtain ⟨key, update⟩ := update
  cases update with
  | null => exact after_putLeaf proper notSlot none
  | leaf leaf => exact after_putLeaf proper notSlot (some leaf)
  | table entries => exact after_putEntries proper notSlot entries

theorem after_foldl_put {updates : Updates} (noSlot : "slot" ∉ updates.keys)
    (proper : projection.Proper) :
    (updates.foldl put projection).after =
      updates.foldl putUpdate projection.after := by
  induction updates generalizing projection with
  | nil => rfl
  | cons update rest ih =>
    simp only [Updates.keys, map_cons, mem_cons, not_or] at noSlot
    have next := after_put proper (Ne.symm noSlot.1)
    rw [foldl_cons, foldl_cons, ih noSlot.2 next.2, next.1]

end Projection

variable {updates : Updates}

/-- Without a `[slot]` table in the payload each update has its own place. -/
theorem mergeSlotConfig_eq_foldl (noSlot : "slot" ∉ updates.keys)
    (base : Doc) :
    mergeSlotConfig base updates = updates.foldl putUpdate base := by
  rw [mergeSlotConfig,
    Projection.after_foldl_put noSlot (Projection.proper_start base),
    Projection.after_start]

theorem agreeOff_putTable (notSlot : key ≠ "slot") (doc : Doc)
    (entries : List (String × Option Leaf)) :
    AgreeOff [key] (putTable doc key entries) doc := by
  unfold putTable
  split <;> exact agreeOff_insert notSlot doc _

theorem agreeOff_putUpdate {update : String × Update}
    (notSlot : update.1 ≠ "slot") (doc : Doc) :
    AgreeOff [update.1] (putUpdate doc update) doc := by
  obtain ⟨key, update⟩ := update
  cases update with
  | null => exact agreeOff_putScalar notSlot doc none
  | leaf leaf => exact agreeOff_putScalar notSlot doc (some leaf)
  | table entries => exact agreeOff_putTable notSlot doc entries

theorem agreeOff_foldl_putUpdate (noSlot : "slot" ∉ updates.keys) (doc : Doc) :
    AgreeOff updates.keys (updates.foldl putUpdate doc) doc := by
  induction updates generalizing doc with
  | nil => exact .refl _ _
  | cons update rest ih =>
    simp only [Updates.keys, map_cons, mem_cons, not_or] at noSlot
    have tail := (ih noSlot.2 (putUpdate doc update)).mono
      fun key inside => mem_cons_of_mem update.1 inside
    have head : AgreeOff (update.1 :: Updates.keys rest)
        (putUpdate doc update) doc :=
      (agreeOff_putUpdate (Ne.symm noSlot.1) doc).mono fun key inside => by
        rw [mem_singleton.mp inside]
        exact mem_cons_self
    exact tail.trans head

theorem agreeOff_mergeSlotConfig (noSlot : "slot" ∉ updates.keys)
    (base : Doc) :
    AgreeOff updates.keys (mergeSlotConfig base updates) base := by
  rw [mergeSlotConfig_eq_foldl noSlot]
  exact agreeOff_foldl_putUpdate noSlot base

theorem getElem?_hoist_mergeSlotConfig {leaf : Leaf} {earlier later : Updates}
    (noSlot : "slot" ∉ (earlier ++ (key, .leaf leaf) :: later).keys)
    (last : key ∉ later.keys) (base : Doc) :
    (hoist (mergeSlotConfig base
      (earlier ++ (key, .leaf leaf) :: later)))[key]? =
        some (.leaf leaf) := by
  simp only [Updates.keys, map_append, map_cons, mem_append,
    mem_cons, not_or] at noSlot
  rw [mergeSlotConfig_eq_foldl (by simpa [Updates.keys] using noSlot),
    foldl_append, foldl_cons,
    (agreeOff_foldl_putUpdate noSlot.2.2 _).off key last]
  exact getElem?_hoist_putScalar (Ne.symm noSlot.2.1) _ leaf

end Hal0.Slots.ConfigFiles
