import Hal0.Slots.ConfigDirectory

/-!
# What holds across the slot files

At most one slot with a model is an LLM on the NPU, and at most one slot of a
type is its default.  A guarded write looks at the other files by the slot's
name or by its stem; in a directory whose files are keyed by the names or by
the ids of their slots, the files it skips are those of the slot itself.

Each writer judges its own document against what is on disk when it looks;
the lemmas here say of each when that is enough.
-/

namespace Hal0.Slots.ConfigFiles

open List Option
open Std

/-! ## The files of a slot -/

def nameOf (doc : Doc) : Option Value :=
  (hoist doc)["name"]?

/-- The slot of a file: the name in it, else its stem. -/
def slotOf (stem : Stem) (doc : Doc) : SlotName :=
  match nameOf doc with
  | some (.leaf (.text name)) =>
    if name ≠ "" && !isIdStem name then name else stem
  | _ => stem

/-- A name which is no id. -/
def validName (name : SlotName) : Bool :=
  name ≠ "" && !isIdStem name

/-- A document fits the stem it is kept under. -/
structure Fits (rows : Rows) (stem : Stem) (doc : Doc) : Prop where
  named : isIdStem stem = false →
    nameOf doc = none ∨ nameOf doc = some (.leaf (.text stem))
  numbered : isIdStem stem = true →
    ∃ name, nameOf doc = some (.leaf (.text name)) ∧ validName name = true ∧
      ∀ other, rows.stem other = some stem → other = name

/-- Every file is keyed by its row. -/
def Keyed (rows : Rows) (dir : Directory) : Prop :=
  ∀ stem doc, dir[stem]? = some doc → Fits rows stem doc

theorem validName_iff {name : SlotName} :
    validName name = true ↔ name ≠ "" ∧ isIdStem name = false := by
  simp [validName]

namespace Fits

variable {rows : Rows} {stem : Stem} {doc other : Doc}

theorem congr (fits : Fits rows stem doc) (same : nameOf other = nameOf doc) :
    Fits rows stem other where
  named := by
    rw [same]
    exact fits.named
  numbered := by
    rw [same]
    exact fits.numbered

theorem slotOf_named (fits : Fits rows stem doc)
    (isName : isIdStem stem = false) : slotOf stem doc = stem := by
  rcases fits.named isName with absent | present
  · simp [slotOf, absent]
  · simp [slotOf, present]

theorem slotOf_numbered {name : SlotName}
    (present : nameOf doc = some (.leaf (.text name)))
    (valid : validName name = true) : slotOf stem doc = name := by
  rw [validName_iff] at valid
  simp [slotOf, present, valid]

end Fits

variable {stem : Stem}

theorem slotOf_congr {first second : Doc}
    (same : nameOf first = nameOf second) :
    slotOf stem first = slotOf stem second := by
  simp only [slotOf, same]

variable {doc : Doc}

theorem isPeer_eq_false {key : String} :
    isPeer key stem doc = false ↔
      stem = key ∨ nameOf doc = some (.leaf (.text key)) := by
  simp only [isPeer, nameOf, Bool.and_eq_false_iff, decide_eq_false_iff_not,
    ne_eq, Decidable.not_not]

/-- A file which names the slot `key` is its file. -/
theorem slotOf_of_nameOf {rows : Rows} (fits : Fits rows stem doc)
    {key : String} (named : nameOf doc = some (.leaf (.text key))) :
    slotOf stem doc = key := by
  cases isId : isIdStem stem with
  | false =>
    rw [fits.slotOf_named isId]
    rcases fits.named isId with absent | present
    · rw [absent] at named
      cases named
    · rw [present] at named
      cases named
      rfl
  | true =>
    obtain ⟨name, present, valid, -⟩ := fits.numbered isId
    rw [present] at named
    cases named
    exact Fits.slotOf_numbered present valid

variable {dir : Directory}

theorem slotOf_of_skipped_stem {rows : Rows} (keyed : Keyed rows dir)
    {key : Stem} {after : Doc} (fits : Fits rows key after)
    (found : dir[stem]? = some doc) (differs : stem ≠ key)
    (skipped : isPeer key stem doc = false) :
    slotOf stem doc = slotOf key after := by
  rcases isPeer_eq_false.mp skipped with same | named
  · exact absurd same differs
  · have isKey := slotOf_of_nameOf (keyed stem doc found) named
    cases isId : isIdStem key with
    | false => rw [isKey, fits.slotOf_named isId]
    | true =>
      cases isIdOther : isIdStem stem with
      | false =>
        have isStem := (keyed stem doc found).slotOf_named isIdOther
        exact absurd (isStem.symm.trans isKey) differs
      | true =>
        obtain ⟨name, present, valid, -⟩ :=
          (keyed stem doc found).numbered isIdOther
        rw [present] at named
        cases named
        rw [validName_iff, isId] at valid
        cases valid.2

theorem slotOf_of_skipped_name {rows : Rows} (keyed : Keyed rows dir)
    {name : SlotName} (valid : validName name = true)
    (found : dir[stem]? = some doc) (skipped : isPeer name stem doc = false) :
    slotOf stem doc = name := by
  rcases isPeer_eq_false.mp skipped with same | named
  · subst same
    exact (keyed stem doc found).slotOf_named (validName_iff.mp valid).2
  · exact slotOf_of_nameOf (keyed stem doc found) named

/-! ## At most one slot -/

/-- The files which pass a test are of one slot. -/
def AtMostOne (test : Doc → Bool) (dir : Directory) : Prop :=
  ∀ stem doc other second, dir[stem]? = some doc →
    dir[other]? = some second → test (hoist doc) = true →
    test (hoist second) = true → slotOf stem doc = slotOf other second

/-- A slot is the default of `type`. -/
def isDefaultOf (type : Value) (doc : Doc) : Bool :=
  defaultType doc = some type

/-- One NPU anchor, and one default of every type. -/
structure CrossSlot (dir : Directory) : Prop where
  anchor : AtMostOne claimsNpuAnchor dir
  default : ∀ type, AtMostOne (isDefaultOf type) dir

/-- A checked file is the only one. -/
theorem AtMostOne.insert {test : Doc → Bool} (unique : AtMostOne test dir)
    {target : Stem} {after : Doc}
    (judged : ∀ stem doc, stem ≠ target → dir[stem]? = some doc →
      test (hoist doc) = true → test (hoist after) = true →
      slotOf stem doc = slotOf target after) :
    AtMostOne test (dir.insert target after) := by
  have found : ∀ stem doc, (dir.insert target after)[stem]? = some doc →
      (stem = target ∧ doc = after) ∨
        (stem ≠ target ∧ dir[stem]? = some doc) := by
    intro stem doc present
    by_cases same : target = stem
    · subst same
      rw [ExtTreeMap.getElem?_insert_self, some.injEq] at present
      exact Or.inl ⟨rfl, present.symm⟩
    · rw [ExtTreeMap.getElem?_insert, if_neg (by simpa using same)]
        at present
      exact Or.inr ⟨Ne.symm same, present⟩
  intro stem doc other second first last passes also
  rcases found stem doc first with ⟨rfl, rfl⟩ | ⟨differs, old⟩
  · rcases found other second last with ⟨rfl, rfl⟩ | ⟨differs, old⟩
    · rfl
    · exact (judged other second differs old also passes).symm
  · rcases found other second last with ⟨rfl, rfl⟩ | ⟨differsToo, oldToo⟩
    · exact judged stem doc differs old passes also
    · exact unique stem doc other second old oldToo passes also

/-! ## The writes of the manager -/

section Manager

variable {rows : Rows} {dir : Directory} {name : SlotName}

theorem configFileFor_cases (rows : Rows) (dir : Directory)
    (name : SlotName) :
    configFileFor rows dir name = name ∨
      ∃ doc, rows.stem name = some (configFileFor rows dir name) ∧
        dir[configFileFor rows dir name]? = some doc := by
  unfold configFileFor
  cases row : rows.stem name with
  | none => exact Or.inl rfl
  | some stem =>
    by_cases present : dir.contains stem = true
    · right
      simp only [present, if_true]
      rw [ExtTreeMap.contains_eq_isSome_getElem?] at present
      obtain ⟨doc, found⟩ := isSome_iff_exists.mp present
      exact ⟨doc, trivial, found⟩
    · left
      simp [present]

theorem fits_configFileFor (keyed : Keyed rows dir)
    (valid : validName name = true) {doc : Doc}
    (named : nameOf doc = some (.leaf (.text name))) :
    Fits rows (configFileFor rows dir name) doc := by
  rcases configFileFor_cases rows dir name with isName | ⟨old, row, found⟩
  · rw [isName]
    refine ⟨fun _ => Or.inr named, fun isId => ?_⟩
    rw [(validName_iff.mp valid).2] at isId
    cases isId
  · have isId := rows.isId name _ row
    refine ⟨fun isName => ?_, fun _ => ⟨name, named, valid, ?_⟩⟩
    · rw [isId] at isName
      cases isName
    · obtain ⟨known, -, -, sole⟩ := (keyed _ old found).numbered isId
      intro other otherRow
      rw [sole other otherRow, ← sole name row]

theorem slotOf_configFileFor (keyed : Keyed rows dir)
    (valid : validName name = true) {old : Doc}
    (found : dir[configFileFor rows dir name]? = some old) :
    slotOf (configFileFor rows dir name) old = name ∧
      (nameOf old = none ∨ nameOf old = some (.leaf (.text name))) := by
  have fits := keyed _ old found
  rcases configFileFor_cases rows dir name with isName | ⟨-, row, -⟩
  · rw [isName] at fits ⊢
    have notId := (validName_iff.mp valid).2
    exact ⟨fits.slotOf_named notId, fits.named notId⟩
  · obtain ⟨known, present, knownValid, sole⟩ :=
      fits.numbered (rows.isId name _ row)
    obtain rfl := sole name row
    exact ⟨Fits.slotOf_numbered present knownValid, Or.inr present⟩

/--
A write of the slot's file keeps what holds across the slots, when the anchor
is not contested and the default is not, or was the slot's own.
-/
theorem CrossSlot.write (cross : CrossSlot dir) (keyed : Keyed rows dir)
    (valid : validName name = true) {after : Doc}
    (fits : Fits rows (configFileFor rows dir name) after)
    (isSlot : slotOf (configFileFor rows dir name) after = name)
    (anchor : claimsNpuAnchor (hoist after) = true →
      peerClaims dir name = false)
    (default : ∀ type, isDefaultOf type (hoist after) = true →
      peerDefault dir name type = false ∨
        ∃ old, dir[configFileFor rows dir name]? = some old ∧
          isDefaultOf type (hoist old) = true) :
    CrossSlot (dir.insert (configFileFor rows dir name) after) ∧
      Keyed rows (dir.insert (configFileFor rows dir name) after) := by
  refine ⟨⟨?_, fun type => ?_⟩, ?_⟩
  · apply cross.anchor.insert
    intro stem doc _ found claims claimsToo
    rw [isSlot]
    apply slotOf_of_skipped_name keyed valid found
    by_contra peer
    have free := anyPeer_eq_false.mp (anchor claimsToo) stem doc found
      (by simpa using peer)
    rw [claims] at free
    cases free
  · apply (cross.default type).insert
    intro stem doc _ found marked markedToo
    rw [isSlot]
    rcases default type markedToo with free | ⟨old, present, wasMarked⟩
    · apply slotOf_of_skipped_name keyed valid found
      by_contra peer
      have free := anyPeer_eq_false.mp free stem doc found
        (by simpa using peer)
      rw [isDefaultOf] at marked
      rw [marked] at free
      cases free
    · rw [cross.default type stem doc _ old found present marked wasMarked]
      exact (slotOf_configFileFor keyed valid present).1
  · intro stem doc found
    by_cases same : configFileFor rows dir name = stem
    · rw [← same, ExtTreeMap.getElem?_insert_self, some.injEq] at found
      rw [← same, ← found]
      exact fits
    · rw [ExtTreeMap.getElem?_insert, if_neg (by simpa using same)] at found
      exact keyed stem doc found

variable {rules : Rules} {record : Option StateRecord} {base : Doc}

/-- The file that a write begins with. -/
theorem baseConfig_spec (keyed : Keyed rows dir)
    (valid : validName name = true)
    (loaded : baseConfig rules rows dir name record = some base) :
    slotTable base = none ∧ base["name"]? = some (.leaf (.text name)) := by
  unfold baseConfig at loaded
  split at loaded
  · next old found =>
      cases loaded
      refine ⟨slotTable_loadSlotConfig rules name old, ?_⟩
      rw [getElem?_loadSlotConfig rules name old (by decide) (by decide),
        getElem?_named_name]
      rcases (slotOf_configFileFor keyed valid found).2 with absent | present
      · rw [nameOf] at absent
        rw [absent]
        rfl
      · rw [nameOf] at present
        rw [present]
        rfl
  · obtain ⟨state, -, rfl⟩ := map_eq_some_iff.mp loaded
    cases backend : state.backend <;>
      simp [StateRecord.config, backend, slotTable, ExtTreeMap.getElem_insert]

/-- A missing type would be filled in. -/
def heals (name : SlotName) (doc : Doc) : Bool :=
  typeMissing (named name doc) && llmShaped (named name doc)

/--
The write is checked for a second default, or it does not move the marker:
the slot is no default, or it keeps its type.
-/
def keepsMarker (rows : Rows) (dir : Directory) (name : SlotName)
    (updates : Updates) : Bool :=
  "default" ∈ updates.keys ||
    dir[configFileFor rows dir name]?.all fun doc =>
      (hoist doc)["default"]? ≠ some (.leaf (.flag true)) ||
        ("type" ∉ updates.keys && !heals name doc)

theorem isDefaultOf_old {updates : Updates} {type : Value} {after : Doc}
    (loaded : baseConfig rules rows dir name record = some base)
    (keeps : keepsMarker rows dir name updates = true)
    (unchecked : "default" ∉ updates.keys)
    (sameMarker : after["default"]? = base["default"]?)
    (sameType : "type" ∉ updates.keys → after["type"]? = base["type"]?)
    (marked : isDefaultOf type after = true) :
    ∃ old, dir[configFileFor rows dir name]? = some old ∧
      isDefaultOf type (hoist old) = true := by
  have isMarked : after["default"]? = some (.leaf (.flag true)) := by
    by_contra other
    simp [isDefaultOf, defaultType, other] at marked
  unfold baseConfig at loaded
  split at loaded
  · next old found =>
      cases loaded
      refine ⟨old, found, ?_⟩
      have marker : (hoist old)["default"]? = after["default"]? := by
        rw [sameMarker,
          getElem?_loadSlotConfig rules name old (by decide) (by decide),
          getElem?_named_of_ne name old (by decide)]
      simp only [keepsMarker, unchecked, decide_false, Bool.false_or, found,
        all_some, marker, isMarked, ne_eq, not_true, Bool.and_eq_true,
        decide_eq_true_eq, Bool.not_eq_true'] at keeps
      have kind : (hoist old)["type"]? = after["type"]? := by
        have unhealed : loadSlotConfig rules name old = named name old := by
          rw [loadSlotConfig, healMissingLlmType]
          rw [heals] at keeps
          rw [keeps.2]
          rfl
        rw [sameType keeps.1, unhealed,
          getElem?_named_of_ne name old (by decide)]
      rw [isDefaultOf, defaultType_congr kind marker]
      exact marked
  · obtain ⟨state, -, rfl⟩ := map_eq_some_iff.mp loaded
    rw [sameMarker] at isMarked
    cases backend : state.backend <;>
      simp [StateRecord.config, backend] at isMarked

/-- An update keeps the rules. -/
theorem CrossSlot.updateConfig (cross : CrossSlot dir)
    (keyed : Keyed rows dir) (valid : validName name = true)
    {updates : Updates} (noSlot : "slot" ∉ updates.keys)
    (noName : "name" ∉ updates.keys)
    (keeps : keepsMarker rows dir name updates = true) {next : Directory}
    (updated : updateConfig rules rows dir name updates record = some next) :
    CrossSlot next ∧ Keyed rows next := by
  obtain ⟨base, loaded, rest⟩ := bind_eq_some_iff.mp updated
  obtain ⟨merged, guarded, written⟩ := bind_eq_some_iff.mp rest
  split at written
  · cases written
    obtain ⟨projected, npu, marker⟩ := reconcileAndGuard_eq_some guarded
    obtain ⟨flatBase, nameBase⟩ := baseConfig_spec keyed valid loaded
    have agree := agreeOff_projectSlotUpdates noSlot projected
    have flat := agree.flat flatBase
    have derived : ∀ key, key ∉ ["binary", "device", "tune"] →
        key ∉ updates.keys → key ∉ touchedKeys updates := by
      intro key notDerived notCarried inside
      rcases mem_append.mp inside with carried | isDerived
      · exact notCarried carried
      · exact notDerived (derivedKeys_subset updates key isDerived)
    have root : ∀ key, key ≠ "slot" → key ∉ ["binary", "device", "tune"] →
        key ∉ updates.keys → merged[key]? = base[key]? := by
      intro key notSlot notDerived notCarried
      rw [← getElem?_hoist_of_flat flat notSlot,
        ← getElem?_hoist_of_flat flatBase notSlot]
      exact agree.off key (derived key notDerived notCarried)
    have named : nameOf merged = some (.leaf (.text name)) := by
      rw [nameOf, getElem?_hoist_of_flat flat (by decide),
        root "name" (by decide) (by decide) noName, nameBase]
    have fits := fits_configFileFor keyed valid named
    apply cross.write keyed valid fits (slotOf_of_nameOf fits named)
    · intro claims
      rw [claimsNpuAnchor_hoist_of_flat flat] at claims
      exact peerClaims_of_check npu claims
    · intro type marked
      rw [isDefaultOf, defaultType_hoist_of_flat flat] at marked
      by_cases checked : "default" ∈ updates.keys
      · exact Or.inl (peerDefault_of_check (marker checked)
          (by simpa using marked))
      · exact Or.inr (isDefaultOf_old loaded keeps checked
          (root "default" (by decide) (by decide) checked)
          (root "type" (by decide) (by decide)) marked)
  · cases written

/-- A new default does. -/
theorem CrossSlot.persistModelDefault (cross : CrossSlot dir)
    (keyed : Keyed rows dir) (valid : validName name = true) {model : String}
    (loaded : baseConfig rules rows dir name record = some base)
    (npu : checkNpuExclusivity dir name (withModelDefault base model) = true)
    (keeps : keepsMarker rows dir name [] = true) :
    CrossSlot (dir.insert (configFileFor rows dir name)
        (withModelDefault base model)) ∧
      Keyed rows (dir.insert (configFileFor rows dir name)
        (withModelDefault base model)) := by
  obtain ⟨flatBase, nameBase⟩ := baseConfig_spec keyed valid loaded
  have agree : AgreeOff ["model"] (withModelDefault base model) base :=
    agreeOff_insert (by decide) base _
  have flat := agree.flat flatBase
  have root : ∀ key, key ≠ "slot" → key ∉ ["model"] →
      (withModelDefault base model)[key]? = base[key]? := by
    intro key notSlot notModel
    rw [← getElem?_hoist_of_flat flat notSlot,
      ← getElem?_hoist_of_flat flatBase notSlot]
    exact agree.off key notModel
  have named : nameOf (withModelDefault base model) =
      some (.leaf (.text name)) := by
    rw [nameOf, getElem?_hoist_of_flat flat (by decide),
      root "name" (by decide) (by decide), nameBase]
  have fits := fits_configFileFor keyed valid named
  apply cross.write keyed valid fits (slotOf_of_nameOf fits named)
  · intro claims
    rw [claimsNpuAnchor_hoist_of_flat flat] at claims
    exact peerClaims_of_check npu claims
  · intro type marked
    rw [isDefaultOf, defaultType_hoist_of_flat flat] at marked
    exact Or.inr (isDefaultOf_old loaded keeps (by simp [Updates.keys])
      (root "default" (by decide) (by decide))
      (fun _ => root "type" (by decide) (by decide)) marked)

/-- A new slot's config: flat, and with no name but the slot's. -/
structure Creatable (name : SlotName) (cfg : Doc) : Prop where
  valid : validName name = true
  flat : slotTable cfg = none
  named : nameOf cfg = none ∨ nameOf cfg = some (.leaf (.text name))

theorem Creatable.agree {keys : List String} {cfg after : Doc}
    (creatable : Creatable name cfg) (agree : AgreeOff keys after cfg)
    (notName : "name" ∉ keys) : Creatable name after where
  valid := creatable.valid
  flat := agree.flat creatable.flat
  named := by
    rw [nameOf, agree.off "name" notName]
    exact creatable.named

/-- A new slot does. -/
theorem CrossSlot.writeNew (cross : CrossSlot dir) (keyed : Keyed rows dir)
    {cfg : Doc} (creatable : Creatable name cfg)
    (npu : checkNpuExclusivity dir name cfg = true)
    (marker : checkDefaultUniqueness dir name cfg = true)
    {port : Option Leaf} {next : Directory}
    (written : writeNew rows dir name cfg port = some next) :
    CrossSlot next ∧ Keyed rows next := by
  have agree := agreeOff_withPort cfg port
  have ported := creatable.agree agree (by decide)
  unfold ConfigFiles.writeNew at written
  split at written
  · cases written
  · next absent =>
      cases written
      have isName : configFileFor rows dir name = name := by
        rcases configFileFor_cases rows dir name with isName | ⟨doc, -, found⟩
        · exact isName
        · rw [ExtTreeMap.contains_eq_isSome_getElem?, found] at absent
          exact absurd rfl absent
      have notId := (validName_iff.mp creatable.valid).2
      have fits : Fits rows (configFileFor rows dir name)
          (withPort cfg port) := by
        rw [isName]
        refine ⟨fun _ => ported.named, fun isId => ?_⟩
        rw [notId] at isId
        cases isId
      have isSlot : slotOf (configFileFor rows dir name)
          (withPort cfg port) = name := by
        rw [isName] at fits ⊢
        exact fits.slotOf_named notId
      apply cross.write keyed creatable.valid fits isSlot
      · intro claims
        rw [claimsNpuAnchor_congr (agree.off _ (by decide))
          (agree.off _ (by decide)) (agree.off _ (by decide)),
          claimsNpuAnchor_hoist_of_flat creatable.flat] at claims
        exact peerClaims_of_check npu claims
      · intro type marked
        rw [isDefaultOf, defaultType_congr (agree.off _ (by decide))
          (agree.off _ (by decide)),
          defaultType_hoist_of_flat creatable.flat] at marked
        exact Or.inl (peerDefault_of_check marker (by simpa using marked))

end Manager

/-! ## The commit of a stack -/

section Stack

variable {rules : Rules} {rows : Rows} {dir : Directory}
  {entry : StackEntry} {entries : List StackEntry} {doc now : Doc}

/-- The entry leaves its slot an LLM on the NPU, by its device or the slot's. -/
def bindsAnchor (dir : Directory) (entry : StackEntry) : Bool :=
  dir[slotStem dir entry.slot]?.any fun doc =>
    (hoist doc)["type"]? = some (.leaf (.text "llm")) &&
      (canonicalDevice entry.device = "npu" ||
        (canonicalDevice entry.device = "" &&
          (hoist doc)["device"]? = some (.leaf (.text "npu"))))

/-- The entries which bind an anchor are for one file, which is flat. -/
def oneAnchor (dir : Directory) (entries : List StackEntry) : Bool :=
  (planned entries).all fun entry =>
    !bindsAnchor dir entry ||
      ((dir[slotStem dir entry.slot]?.all fun doc =>
          (slotTable doc).isNone) &&
        (planned entries).all fun other =>
          !bindsAnchor dir other ||
            slotStem dir other.slot = slotStem dir entry.slot)

theorem StackEntry.not_touched (entry : StackEntry) {key : String}
    (other : key ∉
      ["model", "device", "provider", "profile", "tune", "binary"]) :
    key ∉ touchedKeys entry.updates := by
  intro inside
  rcases mem_append.mp inside with carried | derived
  · exact other (mem_append_left ["binary"]
      (entry.keys_updates key carried))
  · have among := derivedKeys_subset _ key derived
    simp only [mem_cons, not_mem_nil, or_false] at among
    rcases among with rfl | rfl | rfl <;> exact other (by decide)

theorem device_merge (npu : (hoist (mergeSlotConfig doc
      entry.updates))["device"]? = some (.leaf (.text "npu"))) :
    canonicalDevice entry.device = "npu" ∨
      (canonicalDevice entry.device = "" ∧
        (hoist doc)["device"]? = some (.leaf (.text "npu"))) := by
  by_cases unset : canonicalDevice entry.device = ""
  · right
    refine ⟨unset, ?_⟩
    rw [← npu]
    refine ((agreeOff_mergeSlotConfig entry.slot_not_mem doc).off "device"
      ?_).symm
    simp only [StackEntry.updates, StackEntry.placement, unset, if_true,
      Updates.keys, map_append, map_cons, nil_append, mem_cons, mem_append, not_or]
    refine ⟨by decide, ⟨?_, ?_⟩, ?_⟩
    all_goals split <;> simp
  · left
    have carried : entry.updates =
        [("model", .table [("default", some (.text entry.model))])] ++
          ("device", .leaf (.text (canonicalDevice entry.device))) ::
            entry.placement.tail := by
      simp [StackEntry.updates, StackEntry.placement, unset]
    have last : "device" ∉ Updates.keys entry.placement.tail := by
      simp only [StackEntry.placement, unset, if_false, cons_append,
        nil_append, tail_cons, Updates.keys, map_append, mem_append, not_or]
      refine ⟨⟨?_, ?_⟩, ?_⟩
      all_goals split <;> simp
    have noSlot := entry.slot_not_mem
    rw [carried] at npu noSlot
    rw [getElem?_hoist_mergeSlotConfig noSlot last] at npu
    simpa using npu

theorem bindsAnchor_of_claims
    (found : dir[slotStem dir entry.slot]? = some doc)
    (projected : projectSlotUpdates rules doc entry.updates = some now)
    (claims : claimsNpuAnchor (hoist now) = true) :
    bindsAnchor dir entry = true := by
  simp only [claimsNpuAnchor, Bool.and_eq_true, decide_eq_true_eq] at claims
  have agree := agreeOff_projectSlotUpdates entry.slot_not_mem projected
  have type : (hoist doc)["type"]? = some (.leaf (.text "llm")) := by
    rw [← agree.off "type" (entry.not_touched (by decide))]
    exact claims.1.2
  have device := device_merge
    (npu_of_projectSlotUpdates projected claims.1.1)
  simpa [bindsAnchor, found, type] using device

theorem commit_file {stem : Stem}
    (present : (commit dir ((planned entries).map
      (planEntry rules dir)))[stem]? = some now) :
    ∃ doc, dir[stem]? = some doc ∧
      (now = doc ∨ ∃ entry ∈ planned entries,
        slotStem dir entry.slot = stem ∧
        projectSlotUpdates rules doc entry.updates = some now ∧
        checkNpuExclusivity dir stem now = true) := by
  rcases getElem?_commit ((planned entries).map (planEntry rules dir)) dir
    stem with same | ⟨change, inside, isStem, written⟩
  · exact ⟨now, same ▸ present, Or.inl rfl⟩
  · obtain ⟨entry, isPlanned, rfl⟩ := mem_map.mp inside
    obtain rfl : slotStem dir entry.slot = stem := isStem
    rw [present] at written
    obtain ⟨doc, found, result⟩ := map_eq_some_iff.mp written.symm
    refine ⟨doc, found, ?_⟩
    cases guarded : reconcileAndGuard rules dir (slotStem dir entry.slot)
        doc entry.updates with
    | none =>
      rw [guarded] at result
      exact Or.inl result.symm
    | some merged =>
      rw [guarded] at result
      cases result
      have checked := reconcileAndGuard_eq_some guarded
      exact Or.inr ⟨entry, isPlanned, rfl, checked.1, checked.2.1⟩

theorem commit_keeps {stem : Stem}
    (present : (commit dir ((planned entries).map
      (planEntry rules dir)))[stem]? = some now) :
    ∃ doc, dir[stem]? = some doc ∧ nameOf now = nameOf doc ∧
      defaultType (hoist now) = defaultType (hoist doc) := by
  obtain ⟨doc, found, rfl | ⟨entry, -, -, projected, -⟩⟩ :=
    commit_file present
  · exact ⟨now, found, rfl, rfl⟩
  · have agree := agreeOff_projectSlotUpdates entry.slot_not_mem projected
    exact ⟨doc, found, agree.off "name" (entry.not_touched (by decide)),
      defaultType_congr (agree.off _ (entry.not_touched (by decide)))
        (agree.off _ (entry.not_touched (by decide)))⟩

theorem Keyed.commit (keyed : Keyed rows dir) :
    Keyed rows
      (commit dir ((planned entries).map (planEntry rules dir))) := by
  intro stem now present
  obtain ⟨doc, found, name, -⟩ := commit_keeps present
  exact (keyed stem doc found).congr name

/-- One entry at most claims the NPU. -/
theorem anchor_of_entry (keyed : Keyed rows dir)
    (one : oneAnchor dir entries = true) (isPlanned : entry ∈ planned entries)
    (found : dir[slotStem dir entry.slot]? = some doc)
    (projected : projectSlotUpdates rules doc entry.updates = some now)
    (checked : checkNpuExclusivity dir (slotStem dir entry.slot) now = true)
    (claims : claimsNpuAnchor (hoist now) = true)
    {other : Stem} {second : Doc} (differs : other ≠ slotStem dir entry.slot)
    (present : (commit dir ((planned entries).map
      (planEntry rules dir)))[other]? = some second)
    (claimsToo : claimsNpuAnchor (hoist second) = true) :
    slotOf other second = slotOf (slotStem dir entry.slot) now := by
  have binds := bindsAnchor_of_claims found projected claims
  have alone := all_eq_true.mp one entry isPlanned
  simp only [binds, Bool.not_true, Bool.false_or, Bool.and_eq_true, found,
    all_some, isNone_iff_eq_none] at alone
  have agree := agreeOff_projectSlotUpdates entry.slot_not_mem projected
  have flat := agree.flat alone.1
  rw [claimsNpuAnchor_hoist_of_flat flat] at claims
  have free := peerClaims_of_check checked claims
  have fits : Fits rows (slotStem dir entry.slot) now :=
    (keyed _ doc found).congr
      (agree.off "name" (entry.not_touched (by decide)))
  obtain ⟨old, wasThere, rfl | ⟨rival, isPlannedToo, isStem, projectedToo, -⟩⟩
    := commit_file present
  · apply slotOf_of_skipped_stem keyed fits wasThere differs
    by_contra peer
    have silent := anyPeer_eq_false.mp free other second wasThere
      (by simpa using peer)
    rw [claimsToo] at silent
    cases silent
  · have bindsToo := bindsAnchor_of_claims (isStem ▸ wasThere) projectedToo
      claimsToo
    have same := all_eq_true.mp alone.2 rival isPlannedToo
    rw [bindsToo, Bool.not_true, Bool.false_or, decide_eq_true_eq] at same
    exact absurd (isStem.symm.trans same) differs

/-- A stack does. -/
theorem CrossSlot.commit (cross : CrossSlot dir) (keyed : Keyed rows dir)
    (one : oneAnchor dir entries = true) :
    CrossSlot
      (commit dir ((planned entries).map (planEntry rules dir))) where
  anchor := by
    intro stem first other second here there claims claimsToo
    by_cases same : stem = other
    · subst same
      rw [here, some.injEq] at there
      rw [there]
    · obtain ⟨old, wasThere, rfl | ⟨entry, isPlanned, rfl, projected, checked⟩⟩
        := commit_file here
      · obtain ⟨oldToo, wasThereToo,
          rfl | ⟨entry, isPlanned, rfl, projected, checked⟩⟩ :=
            commit_file there
        · exact cross.anchor _ _ _ _ wasThere wasThereToo claims claimsToo
        · exact anchor_of_entry keyed one isPlanned wasThereToo projected
            checked claimsToo same here claims
      · exact (anchor_of_entry keyed one isPlanned wasThere projected checked
          claims (Ne.symm same) there claimsToo).symm
  default type := by
    intro stem first other second here there marked markedToo
    obtain ⟨old, wasThere, name, marker⟩ := commit_keeps here
    obtain ⟨oldToo, wasThereToo, nameToo, markerToo⟩ := commit_keeps there
    rw [isDefaultOf, marker] at marked
    rw [isDefaultOf, markerToo] at markedToo
    rw [slotOf_congr name, slotOf_congr nameToo]
    exact cross.default type _ _ _ _ wasThere wasThereToo marked markedToo

end Stack

end Hal0.Slots.ConfigFiles
