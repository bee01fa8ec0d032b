import Hal0.Slots.ConfigMerge

/-!
# A merge is an update of the flat view

One round of `merge_slot_config` changes the flat view of the file as its
update says, in both shapes, and leaves the other updates their places; so a
whole merge is seen as its updates, one after the other.  The flattened file
is its flat view, completed.
-/

namespace Hal0.Slots.ConfigMerge

open List Option
open Std
open Hal0.Slots.ConfigFiles (Leaf stripped)

/-! ## One update -/

/-- The table of the key, merged. -/
def mergedAt (doc : Doc) (key : String) (value : Table) : Table :=
  mergeTable ((tableAt doc key).getD ∅) value

variable {doc : Doc} {key : String}

theorem putTable_eq {value : Table}
    (fits : tableAt doc key = none → Filled value) :
    putTable doc key value =
      doc.insert key (.table (mergedAt doc key value)) := by
  rw [putTable, mergedAt]
  cases absent : tableAt doc key with
  | none => rw [getD_none, mergeTable_empty (fits absent)]
  | some existing => rfl

theorem scalarPlace_of_flat (flat : tableAt doc "slot" = none) :
    scalarPlace doc = .root := by
  simp [scalarPlace, flat]

variable {entries : Table}

theorem scalarPlace_of_nested (nested : tableAt doc "slot" = some entries) :
    scalarPlace doc = .slot := by
  simp [scalarPlace, nested]

theorem SlotFile.absent (file : SlotFile doc)
    (nested : tableAt doc "slot" = some entries) (notSlot : key ≠ "slot")
    (noTable : tableAt doc key = none) :
    doc[key]? = none := by
  cases found : doc[key]? with
  | none => rfl
  | some value =>
    have isTable := file.rootTables (by rw [nested]; rfl) key value notSlot
      found
    cases value with
    | null => cases isTable
    | leaf leaf => cases isTable
    | table inner =>
      rw [tableAt_eq_some.mpr found] at noTable
      cases noTable

/-- What one update leaves under its key, beside `[slot]` and in it. -/
structure Step (doc : Doc) (update : String × Value) (after : Doc)
    (inSlot inRoot : Option Value) : Prop where
  puts : Puts doc after update.1 inSlot inRoot
  seen : seen update.1 inSlot inRoot =
    (applyUpdate (hoisted doc) update)[update.1]?
  rootTable : (tableAt doc "slot").isSome = true → ∀ value,
    inRoot = some value → value.isTable = true
  image : update.1 = "image" → (inRoot.filter (·.isTable)).isSome = true →
    inSlot = none
  noNull : NoNull doc → NoNull after

theorem noNull_insert (noNull : NoNull doc) (key : String) {value : Value}
    (notNull : value ≠ .null)
    (filled : ∀ entries, value = .table entries → Filled entries) :
    NoNull (doc.insert key value) := by
  intro other found isFound
  rw [ExtTreeMap.getElem?_insert] at isFound
  split at isFound
  · cases isFound
    exact ⟨notNull, filled⟩
  · exact noNull other found isFound

theorem noNull_erase (noNull : NoNull doc) (key : String) :
    NoNull (doc.erase key) := by
  intro other found isFound
  rw [ExtTreeMap.getElem?_erase] at isFound
  split at isFound
  · cases isFound
  · exact noNull other found isFound

/-- A scalar put under `[slot]`, or taken away there, leaves no `None`. -/
theorem noNull_putSlot (noNull : NoNull doc)
    (nested : tableAt doc "slot" = some entries) (key : String)
    (leaf : Option Leaf) : NoNull (putScalar .slot doc key leaf) := by
  have filled : Filled entries :=
    (noNull "slot" _ (tableAt_eq_some.mp nested)).2 entries rfl
  rw [putScalar, nested]
  apply noNull_insert noNull
  · intro isNull
    cases isNull
  · intro written isWritten sub
    cases isWritten
    cases leaf with
    | none =>
      rw [ExtTreeMap.getElem?_erase]
      split
      · intro none
        cases none
      · exact filled sub
    | some leaf =>
      rw [ExtTreeMap.getElem?_insert]
      split
      · intro none
        cases none
      · exact filled sub

@[simp]
theorem seen_none (key : String) : seen key none none = none := by
  simp [seen]

/-- `None` takes its key away. -/
theorem step_null (file : SlotFile doc) (placed : Placed doc (key, .null)) :
    ∃ inSlot inRoot, Step doc (key, .null)
      (putScalar (scalarPlace doc) doc key none) inSlot inRoot := by
  obtain ⟨notSlot, noTable⟩ := placed
  have gone : (applyUpdate (hoisted doc) (key, .null))[key]? = none := by
    simp [applyUpdate]
  cases shape : tableAt doc "slot" with
  | none =>
    have puts := puts_erase doc notSlot
    rw [slotEntry_of_flat shape] at puts
    rw [scalarPlace_of_flat shape]
    refine ⟨none, none, puts, ?_, ?_, ?_, ?_⟩
    · rw [seen_none, gone]
    · intro _ value found
      cases found
    · intro _ _
      rfl
    · intro noNull
      exact noNull_erase noNull key
  | some entries =>
    have absent := file.absent shape notSlot (noTable (by rw [shape]; rfl))
    have puts : Puts doc (putScalar .slot doc key none) key none doc[key]? :=
      puts_slot shape none
    rw [absent] at puts
    rw [scalarPlace_of_nested shape]
    refine ⟨none, none, puts, ?_, ?_, ?_, ?_⟩
    · rw [seen_none, gone]
    · intro _ value found
      cases found
    · intro _ _
      rfl
    · intro noNull
      exact noNull_putSlot noNull shape key none

theorem step_leaf (file : SlotFile doc) {leaf : Leaf}
    (placed : Placed doc (key, .leaf leaf)) :
    ∃ inSlot inRoot, Step doc (key, .leaf leaf)
      (putScalar (scalarPlace doc) doc key (some leaf)) inSlot inRoot := by
  obtain ⟨notSlot, notModel, notImage⟩ := placed
  have written : (applyUpdate (hoisted doc) (key, .leaf leaf))[key]? =
      some (.leaf leaf) := by
    simp [applyUpdate]
  cases shape : tableAt doc "slot" with
  | none =>
    have puts := puts_insert doc notSlot (.leaf leaf)
    rw [slotEntry_of_flat shape] at puts
    rw [scalarPlace_of_flat shape]
    refine ⟨none, some (.leaf leaf), puts, ?_, ?_, ?_, ?_⟩
    · rw [written, seen, if_neg notModel, if_neg notSlot, none_or]
    · intro nested
      rw [shape] at nested
      cases nested
    · intro _ _
      rfl
    · intro noNull
      apply noNull_insert noNull
      · intro isNull
        cases isNull
      · intro entries isTable
        cases isTable
  | some entries =>
    rw [scalarPlace_of_nested shape]
    refine ⟨_, _, puts_slot shape (some leaf), ?_, ?_, ?_, ?_⟩
    · rw [written, seen, if_neg notModel]
      rfl
    · intro nested value found
      exact file.rootTables nested key value notSlot found
    · intro isImage isTable
      rw [← map_table_tableAt,
        notImage (by rw [shape]; rfl) isImage] at isTable
      cases isTable
    · intro noNull
      exact noNull_putSlot noNull shape key (some leaf)

theorem step_table {value : Table} (placed : Placed doc (key, .table value)) :
    ∃ inSlot inRoot, Step doc (key, .table value) (putTable doc key value)
      inSlot inRoot := by
  obtain ⟨notSlot, free, fits⟩ := placed
  have written : (applyUpdate (hoisted doc) (key, .table value))[key]? =
      some (.table (mergedAt doc key value)) := by
    simp only [applyUpdate, tableAt_hoisted notSlot free]
    simp [mergedAt]
  rw [putTable_eq fits]
  refine ⟨_, _, puts_insert doc notSlot _, ?_, ?_, ?_, ?_⟩
  · rw [written, seen]
    by_cases isModel : key = "model"
    · rw [if_pos isModel]
      rfl
    · rw [if_neg isModel, if_neg notSlot, free isModel, none_or]
  · intro _ other found
    cases found
    rfl
  · intro isImage _
    have isKey : key = "image" := isImage
    apply free
    rw [isKey]
    exact show "image" ≠ "model" by decide
  · intro noNull
    apply noNull_insert noNull
    · intro isNull
      cases isNull
    · intro entries isTable
      cases isTable
      exact filled_mergeTable _ value

variable {update : String × Value}

theorem getElem?_applyUpdate_of_ne (view : Doc) (other : key ≠ update.1) :
    (applyUpdate view update)[key]? = view[key]? := by
  have differs : ¬ update.1 = key := fun same => other same.symm
  obtain ⟨written, value⟩ := update
  cases value <;>
    simp_all [applyUpdate, ExtTreeMap.getElem?_insert,
      ExtTreeMap.getElem?_erase]

variable {after : Doc} {inSlot inRoot : Option Value}

theorem Step.hoisted_eq (notSlot : update.1 ≠ "slot")
    (step : Step doc update after inSlot inRoot) :
    hoisted after = applyUpdate (hoisted doc) update := by
  apply ExtTreeMap.ext_getElem?
  intro key
  rw [hoisted_of_puts notSlot step.puts]
  split
  · next isKey => rw [isKey, step.seen]
  · next other => rw [getElem?_applyUpdate_of_ne _ other]

section

variable (step : Step doc update after inSlot inRoot)
include step

theorem Step.slotFile (file : SlotFile doc) :
    SlotFile after where
  rootTables := by
    intro nested key value notSlot found
    rw [step.puts.shape] at nested
    rw [step.puts.root key notSlot] at found
    split at found
    · exact step.rootTable nested value found
    · exact file.rootTables nested key value notSlot found
  image := by
    intro isTable
    have root := step.puts.root "image" (by decide)
    rw [step.puts.slot]
    split
    · next isKey =>
        rw [if_pos isKey] at root
        apply step.image isKey.symm
        rw [← root, ← map_table_tableAt]
        simpa using isTable
    · next other =>
        rw [if_neg other] at root
        apply file.image
        rw [tableAt, ← root, ← tableAt]
        exact isTable

theorem Step.placed {other : String × Value} (differs : other.1 ≠ update.1)
    (placed : Placed doc other) :
    Placed after other := by
  have slot := step.puts.slot other.1
  have root := step.puts.root other.1 placed.1
  rw [if_neg differs] at slot root
  have table : tableAt after other.1 = tableAt doc other.1 := by
    rw [tableAt, root, ← tableAt]
  rw [Placed, step.puts.shape, slot, table]
  exact placed

theorem Step.scalarPlace_eq :
    scalarPlace after = scalarPlace doc := by
  rw [scalarPlace, scalarPlace, step.puts.shape]

end

/-- One update changes one key of the view. -/
theorem mergeOne_step (file : SlotFile doc) (placed : Placed doc update) :
    ∃ after inSlot inRoot,
      mergeOne (doc, scalarPlace doc) update = (after, scalarPlace doc) ∧
      Step doc update after inSlot inRoot := by
  obtain ⟨key, value⟩ := update
  cases value with
  | null =>
    obtain ⟨inSlot, inRoot, step⟩ := step_null file placed
    exact ⟨_, inSlot, inRoot, rfl, step⟩
  | leaf leaf =>
    obtain ⟨inSlot, inRoot, step⟩ := step_leaf file placed
    exact ⟨_, inSlot, inRoot, rfl, step⟩
  | table value =>
    obtain ⟨inSlot, inRoot, step⟩ := step_table placed
    refine ⟨_, inSlot, inRoot, ?_, step⟩
    rw [mergeOne]
    have notSlot : ¬ (key = "slot" ∧ scalarPlace doc = .slot) :=
      fun both => placed.1 both.1
    rw [if_neg notSlot]

/-! ## A whole merge -/

/-- All updates change the view alike. -/
theorem foldl_mergeOne (items : List (String × Value)) :
    ∀ {doc : Doc}, SlotFile doc →
      (∀ update ∈ items, Placed doc update) →
      (items.map Prod.fst).Nodup →
      ∃ after, items.foldl mergeOne (doc, scalarPlace doc) =
          (after, scalarPlace doc) ∧
        SlotFile after ∧
        hoisted after = items.foldl applyUpdate (hoisted doc) ∧
        (NoNull doc → NoNull after) := by
  induction items with
  | nil =>
    intro doc file _ _
    exact ⟨doc, rfl, file, rfl, id⟩
  | cons update rest rounds =>
    intro doc file placed distinct
    rw [map_cons, nodup_cons] at distinct
    obtain ⟨fresh, distinctRest⟩ := distinct
    have here : Placed doc update := placed update mem_cons_self
    obtain ⟨middle, inSlot, inRoot, round, step⟩ := mergeOne_step file here
    have placedRest : ∀ other ∈ rest, Placed middle other := by
      intro other isLater
      apply step.placed
      · intro same
        apply fresh
        rw [← same]
        exact mem_map_of_mem isLater
      · exact placed other (mem_cons_of_mem update isLater)
    obtain ⟨after, merged, fileAfter, view, noNull⟩ :=
      rounds (step.slotFile file) placedRest distinctRest
    refine ⟨after, ?_, fileAfter, ?_, fun clean => noNull (step.noNull clean)⟩
    · rw [foldl_cons, round, ← step.scalarPlace_eq, merged]
    · rw [view, step.hoisted_eq here.1, foldl_cons]

theorem merge_spec {base : Doc} (file : SlotFile base) {updates : Updates}
    (placed : ∀ update ∈ updates.items, Placed base update) :
    SlotFile (mergeSlotConfig base updates) ∧
      hoisted (mergeSlotConfig base updates) =
        applyUpdates (hoisted base) updates ∧
      (NoNull base → NoNull (mergeSlotConfig base updates)) := by
  obtain ⟨after, merged, fileAfter, view, noNull⟩ :=
    foldl_mergeOne updates.items file placed updates.distinct
  rw [mergeSlotConfig, merged]
  exact ⟨fileAfter, view, noNull⟩

/-! ## Flattening -/

theorem getElem?_setName (slotName : String) (doc : Doc) (key : String) :
    (setName slotName doc)[key]? =
      doc[key]?.or
        (if key = "name" then some (.leaf (.text slotName)) else none) := by
  rw [setName]
  split
  · next named =>
      by_cases isName : key = "name"
      · rw [isName]
        rw [ExtTreeMap.contains_eq_isSome_getElem?] at named
        obtain ⟨value, found⟩ := isSome_iff_exists.mp named
        rw [found]
        rfl
      · simp [isName]
  · next nameless =>
      by_cases isName : key = "name"
      · rw [isName]
        rw [ExtTreeMap.contains_eq_isSome_getElem?] at nameless
        have absent : doc["name"]? = none := by simpa using nameless
        simp [absent]
      · have differs : ¬ "name" = key := fun same => isName same.symm
        simp [ExtTreeMap.getElem?_insert, isName, differs]

theorem getElem?_of_healed_none
    (infer : Option Value → Option Value → Option String) (doc : Doc)
    (absent : (healMissingLlmType infer doc)[key]? = none) :
    doc[key]? = none := by
  rw [healMissingLlmType] at absent
  split_ifs at absent
  · exact absent
  · exact absent
  · exact absent
  · rw [ExtTreeMap.getElem?_insert] at absent
    split at absent
    · cases absent
    · exact absent
  · exact absent

theorem fields_eq (raw : Doc) (slotName : String) :
    setModel (hoisted raw) (setName slotName
        ((hoisted raw).filter fun _ value => !value.isTable)) =
      setModel raw (setName slotName (rootScalars raw ∪ slotScalars raw)) := by
  apply ExtTreeMap.ext_getElem?
  intro key
  rw [getElem?_setModel, getElem?_setModel,
    tableAt_hoisted (by decide) fun notModel => absurd rfl notModel]
  rw [getElem?_setName, getElem?_setName, ExtTreeMap.getElem?_filter',
    getElem?_hoisted, ExtTreeMap.getElem?_union, getElem?_rootScalars,
    ← slotEntry, seen]
  by_cases isModel : key = "model"
  · subst isModel
    have reserved : "model" = "slot" ∨ "model" = "model" := Or.inr rfl
    rw [if_pos rfl, if_pos rfl, if_pos rfl, if_pos reserved]
    cases inRoot : tableAt raw "model" with
    | some entries => rfl
    | none =>
      have noTable := map_table_tableAt raw "model"
      rw [inRoot] at noTable
      rw [← noTable]
      cases inSlot : slotEntry raw "model" with
      | none => rfl
      | some value =>
        simp [filter_some, isTable_of_slotEntry inSlot]
  · rw [if_neg isModel, if_neg isModel, if_neg isModel]
    cases inSlot : slotEntry raw key with
    | some value => simp [isTable_of_slotEntry inSlot]
    | none =>
      by_cases isSlot : key = "slot"
      · simp [isSlot]
      · simp [isSlot, isModel]

/-- The view with its defaults. -/
theorem flattenSlotToml_eq
    (infer : Option Value → Option Value → Option String) {raw : Doc}
    (file : SlotFile raw) (slotName : String) :
    flattenSlotToml infer raw slotName =
      completed infer slotName (hoisted raw) := by
  have image : (tableAt (hoisted raw) "image").isSome =
      (tableAt raw "image").isSome := by
    cases isTable : (tableAt raw "image").isSome with
    | true =>
      rw [tableAt_hoisted (by decide) fun _ => file.image isTable, isTable]
    | false =>
      have noTable : tableAt raw "image" = none := by simpa using isTable
      have inRoot := map_table_tableAt raw "image"
      rw [noTable] at inRoot
      rw [tableAt, getElem?_hoisted, seen, if_neg (by decide),
        if_neg (by decide)]
      cases inSlot : slotEntry raw "image" with
      | some value =>
        have scalar := isTable_of_slotEntry inSlot
        cases value with
        | table entries => cases scalar
        | null | leaf leaf => rfl
      | none =>
        rw [none_or, ← tableAt, noTable]
        rfl
  rw [flattenSlotToml, completed, fields_eq, image]
  generalize fields : setModel raw (setName slotName
    (rootScalars raw ∪ slotScalars raw)) = out
  apply ExtTreeMap.ext_getElem?
  intro key
  rw [ExtTreeMap.getElem?_union, ExtTreeMap.getElem?_union]
  cases final : (if (tableAt raw "image").isSome = true then out
      else healMissingLlmType infer out)[key]? with
  | some value => rfl
  | none =>
    have notField : out[key]? = none := by
      split at final
      · exact final
      · exact getElem?_of_healed_none infer out final
    rw [none_or, none_or]
    rw [← fields, getElem?_setModel, getElem?_setName,
      ExtTreeMap.getElem?_union, getElem?_rootScalars, ← slotEntry]
      at notField
    rw [getElem?_siblings, getElem?_hoisted, seen]
    by_cases isModel : key = "model"
    · rw [if_pos isModel] at notField
      rw [if_pos (Or.inr isModel), if_pos isModel]
      obtain ⟨noTable, noScalar⟩ := or_eq_none_iff.mp notField
      obtain ⟨notInSlot, -⟩ := or_eq_none_iff.mp noScalar
      obtain ⟨absent, -⟩ := or_eq_none_iff.mp notInSlot
      rw [absent, isModel, ← map_table_tableAt, noTable]
      rfl
    · rw [if_neg isModel] at notField
      obtain ⟨noScalar, -⟩ := or_eq_none_iff.mp notField
      obtain ⟨absent, notAtRoot⟩ := or_eq_none_iff.mp noScalar
      rw [absent, if_neg isModel, none_or]
      by_cases isSlot : key = "slot"
      · rw [if_pos (Or.inl isSlot), if_pos isSlot]
      · have notReserved : ¬ (key = "slot" ∨ key = "model") := by
          rintro (slot | model)
          · exact isSlot slot
          · exact isModel model
        rw [if_neg notReserved] at notAtRoot ⊢
        rw [if_neg isSlot]
        cases inRoot : raw[key]? with
        | none => rfl
        | some value =>
          rw [inRoot, filter_some] at notAtRoot
          rw [filter_some]
          cases isTable : value.isTable with
          | true => rfl
          | false =>
            rw [isTable] at notAtRoot
            cases notAtRoot

/-- The merge is seen as the updates of the flattened file, key by key. -/
def Commutes (base : Doc) (updates : Updates) (slotName : String) : Prop :=
  flattenSlotToml (fun _ _ => none) (mergeSlotConfig base updates) slotName =
    applyUpdates (flattenSlotToml (fun _ _ => none) base slotName) updates

end Hal0.Slots.ConfigMerge
