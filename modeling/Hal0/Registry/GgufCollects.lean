import Hal0.Registry.GgufScan

/-!
# What the dictionary of a header holds

Each key has the value of its last occurrence among those the scan collects;
and the promoted fields are those of the architecture, wherever it stands.
-/

namespace Hal0.Registry.Gguf

open List
open Hal0.Cursors
open Hal0.Json (Table)
open Hal0.Latest (IsLatest isLatest_concat isLatest_cons)

/-! ## The pairs which are collected -/

/-- The pairs whose values are read, from an architecture on. -/
def collectedFrom : Option String → List (String × Value) →
    List (String × Value)
  | _, [] => []
  | arch, pair :: rest =>
    if collects pair.1 arch then
      pair :: collectedFrom (archAfter pair.1 pair.2 arch) rest
    else collectedFrom arch rest

/-- The architecture after some pairs. -/
def archFrom (arch : Option String) (pairs : List (String × Value)) :
    Option String :=
  pairs.foldl (fun arch pair => archAfter pair.1 pair.2 arch) arch

theorem archFrom_cons (arch : Option String) (pair : String × Value)
    (rest : List (String × Value)) :
    archFrom arch (pair :: rest) =
      archFrom (archAfter pair.1 pair.2 arch) rest :=
  rfl

variable {key : String}

theorem archAfter_of_ne (differs : key ≠ "general.architecture")
    (value : Value) (arch : Option String) :
    archAfter key value arch = arch := by
  cases value <;> simp [archAfter, differs]

theorem collects_of_static (isStatic : key ∈ interestingKeysStatic)
    (arch : Option String) :
    collects key arch = true := by
  simp [collects, isStatic]

variable {arch : Option String}

theorem archAfter_of_passed (isPassed : collects key arch = false)
    (value : Value) :
    archAfter key value arch = arch := by
  refine archAfter_of_ne ?_ value arch
  rintro rfl
  rw [collects_of_static (by decide)] at isPassed
  cases isPassed

theorem foldl_note (pairs : List (String × Value)) (scan : Scan) :
    pairs.foldl Scan.note scan =
      { out := scan.out.putAll (collectedFrom scan.arch pairs)
        arch := archFrom scan.arch pairs } := by
  induction pairs generalizing scan with
  | nil => rfl
  | cons pair rest ih =>
    rw [foldl_cons, ih, Scan.note, collectedFrom, archFrom_cons]
    cases isCollected : collects pair.1 scan.arch with
    | true => rfl
    | false =>
      rw [archAfter_of_passed isCollected]
      rfl

theorem collectedFrom_sublist (arch : Option String)
    (pairs : List (String × Value)) :
    (collectedFrom arch pairs).Sublist pairs := by
  induction pairs generalizing arch with
  | nil => exact List.Sublist.slnil
  | cons pair rest ih =>
    rw [collectedFrom]
    split
    · exact (ih _).cons_cons pair
    · exact (ih _).cons pair

theorem collects_of_mem {pairs : List (String × Value)} {pair : String × Value}
    (mem : pair ∈ collectedFrom arch pairs) :
    ∃ before, collects pair.1 before = true := by
  induction pairs generalizing arch with
  | nil => cases mem
  | cons first rest ih =>
    rw [collectedFrom] at mem
    split at mem
    · next isCollected =>
        rcases mem_cons.mp mem with rfl | mem
        · exact ⟨arch, isCollected⟩
        · exact ih mem
    · exact ih mem

theorem isLatest_collectedFrom (always : ∀ arch, collects key arch = true)
    (arch : Option String) (pairs : List (String × Value))
    (pair : String × Value) :
    IsLatest (fun other => other.1 = key) (collectedFrom arch pairs) pair ↔
      IsLatest (fun other => other.1 = key) pairs pair := by
  have sameKeys : ∀ arch (pairs : List (String × Value)),
      (∀ other ∈ collectedFrom arch pairs, ¬ other.1 = key) ↔
        ∀ other ∈ pairs, ¬ other.1 = key := by
    intro arch pairs
    induction pairs generalizing arch with
    | nil => rfl
    | cons first rest ih =>
      rw [collectedFrom, forall_mem_cons]
      split
      · rw [forall_mem_cons, ih]
      · next isPassed =>
          rw [ih]
          refine ⟨fun none => ⟨?_, none⟩, And.right⟩
          intro isKey
          exact isPassed (by rw [isKey, always])
  induction pairs generalizing arch with
  | nil => rfl
  | cons first rest ih =>
    rw [collectedFrom, isLatest_cons]
    split
    · rw [isLatest_cons, sameKeys]
      exact or_congr_left (ih _)
    · next isPassed =>
        refine (ih _).trans ⟨Or.inl, ?_⟩
        rintro (latest | ⟨_, isKey, _⟩)
        · exact latest
        · exact absurd (by rw [isKey, always]) isPassed

/-! ## Keys with and without dots -/

theorem dotted_of_static
    (isStatic : key ∈ interestingKeysStatic) : '.' ∈ key.toList := by
  have all : ∀ key ∈ interestingKeysStatic, '.' ∈ key.toList := by decide
  exact all key isStatic

theorem dotted_archKey (arch suffix : String) :
    '.' ∈ (archKey arch suffix).toList := by
  simp [archKey]

theorem dotted_of_endsWith {suffix : String}
    (ends : endsWith key suffix = true) : '.' ∈ key.toList := by
  rw [endsWith, isSuffixOf_iff_suffix] at ends
  exact ends.subset (by simp)

theorem endsWith_archKey (arch suffix : String) :
    endsWith (archKey arch suffix) suffix = true := by
  rw [endsWith, isSuffixOf_iff_suffix, archKey, String.append_assoc]
  simp only [String.toList_append]
  exact suffix_append _ _

theorem dotted_of_collects
    (isCollected : collects key arch = true) : '.' ∈ key.toList := by
  rw [collects, Bool.or_eq_true, decide_eq_true_eq] at isCollected
  rcases isCollected with isStatic | isArch
  · exact dotted_of_static isStatic
  · cases arch with
    | some arch =>
      obtain ⟨suffix, _, isKey⟩ := any_eq_true.mp isArch
      rw [decide_eq_true_eq] at isKey
      exact isKey ▸ dotted_archKey arch suffix
    | none =>
      obtain ⟨suffix, _, ends⟩ := any_eq_true.mp isArch
      exact dotted_of_endsWith ends

theorem not_mem_collected (plain : '.' ∉ key.toList) (arch : Option String)
    (pairs : List (String × Value)) (value : Value) :
    (key, value) ∉ collectedFrom arch pairs := by
  intro mem
  obtain ⟨before, isCollected⟩ := collects_of_mem mem
  exact plain (dotted_of_collects isCollected)

def ownKeys : List String :=
  ["version", "tensor_count", "tensor_names_prefix"] ++
    aliases.map Prod.snd

theorem plain_of_own (isOwn : key ∈ ownKeys) :
    '.' ∉ key.toList := by
  have all : ∀ key ∈ ownKeys, '.' ∉ key.toList := by decide
  exact all key isOwn

/-! ## Promoted values -/

section Promoted

variable {arch : String} {out : Table Value}

theorem get_promoteArch (entry : String × String) (name : String) :
    (promoteArch arch out entry).get name =
      if name = entry.2 then
        (out.get (archKey arch entry.1)).or (out.get entry.2)
      else out.get name := by
  rw [promoteArch]
  cases out.get (archKey arch entry.1) with
  | none =>
    dsimp only
    split
    · next same => rw [same, Option.none_or]
    · rfl
  | some value => rw [Table.get_put]; rfl

/-- The first value of a suffix. -/
def firstOf (out : Table Value) (suffix : String) : Option Value :=
  (out.entries.find? fun pair => endsWith pair.1 suffix).map Prod.snd

variable {entry : String × String}

theorem promoteFirst_eq (plain : '.' ∉ entry.2.toList) :
    promoteFirst out entry =
      if out.has entry.2 then out
      else
        match firstOf out entry.1 with
        | some value => out.put entry.2 value
        | none => out := by
  have same : (out.entries.find? fun pair =>
      endsWith pair.1 entry.1 && decide (pair.1 ≠ entry.2)) =
      out.entries.find? fun pair => endsWith pair.1 entry.1 := by
    congr 1
    funext pair
    cases ends : endsWith pair.1 entry.1 with
    | false => rfl
    | true =>
      have differs : pair.1 ≠ entry.2 := by
        rintro isAlias
        exact plain (isAlias ▸ dotted_of_endsWith ends)
      simp [differs]
  rw [promoteFirst, firstOf, same]
  split
  · rfl
  · cases out.entries.find? fun pair => endsWith pair.1 entry.1 <;> rfl

theorem get_promoteFirst (plain : '.' ∉ entry.2.toList) (name : String) :
    (promoteFirst out entry).get name =
      if name = entry.2 then (out.get entry.2).or (firstOf out entry.1)
      else out.get name := by
  rw [promoteFirst_eq plain]
  cases isIn : out.has entry.2 with
  | true =>
    obtain ⟨value, found⟩ := Table.has_iff.mp isIn
    rw [if_pos rfl]
    split
    · next same => rw [same, found, Option.some_or]
    · rfl
  | false =>
    rw [Table.get_eq_none_of_not_has isIn, Option.none_or]
    simp only [Bool.false_eq_true, if_false]
    cases firstOf out entry.1 with
    | none =>
      dsimp only
      split
      · next same => rw [same, Table.get_eq_none_of_not_has isIn]
      · rfl
    | some value => exact Table.get_put _ _ _ _

theorem firstOf_put {name : String} (plain : '.' ∉ name.toList)
    (isNew : out.get name = none) (value : Value) (suffix : String) :
    firstOf (out.put name value) suffix = firstOf out suffix := by
  have notEnding : endsWith name suffix = false := by
    rw [Bool.eq_false_iff]
    exact fun ends => plain (dotted_of_endsWith ends)
  have absent : name ∉ out.entries.map Prod.fst := by
    intro isKey
    obtain ⟨pair, mem, rfl⟩ := mem_map.mp isKey
    have found : out.get pair.1 = some pair.2 :=
      Json.lookup_of_mem out.distinct mem
    rw [isNew] at found
    cases found
  simp only [firstOf, Table.put, Json.setEntry_of_new absent, find?_append,
    find?_cons, notEnding, find?_nil, Option.or_none]

theorem firstOf_promoteFirst (plain : '.' ∉ entry.2.toList) (suffix : String) :
    firstOf (promoteFirst out entry) suffix = firstOf out suffix := by
  rw [promoteFirst_eq plain]
  split
  · rfl
  · next isNew =>
      have absent := Table.get_eq_none_of_not_has (Bool.eq_false_iff.mpr isNew)
      cases firstOf out entry.1 with
      | none => rfl
      | some value => exact firstOf_put plain absent value suffix

variable {entries : List (String × String)}

theorem get_foldl_promoteArch_of_ne {name : String}
    (differs : name ∉ entries.map Prod.snd) :
    (entries.foldl (promoteArch arch) out).get name = out.get name := by
  induction entries generalizing out with
  | nil => rfl
  | cons first rest ih =>
    rw [map_cons, mem_cons, not_or] at differs
    rw [foldl_cons, ih differs.2, get_promoteArch, if_neg differs.1]

section

variable (plain : ∀ entry ∈ entries, '.' ∉ entry.2.toList)
include plain

theorem get_foldl_promoteFirst_of_ne {name : String}
    (differs : name ∉ entries.map Prod.snd) :
    (entries.foldl promoteFirst out).get name = out.get name := by
  induction entries generalizing out with
  | nil => rfl
  | cons first rest ih =>
    rw [map_cons, mem_cons, not_or] at differs
    rw [forall_mem_cons] at plain
    rw [foldl_cons, ih plain.2 differs.2, get_promoteFirst plain.1,
      if_neg differs.1]

/-- An alias of the architecture's key. -/
theorem get_foldl_promoteArch (distinct : (entries.map Prod.snd).Nodup)
    (mem : entry ∈ entries) :
    (entries.foldl (promoteArch arch) out).get entry.2 =
      (out.get (archKey arch entry.1)).or (out.get entry.2) := by
  induction entries generalizing out with
  | nil => cases mem
  | cons first rest ih =>
    rw [forall_mem_cons] at plain
    rw [map_cons, nodup_cons] at distinct
    rw [foldl_cons]
    rcases mem_cons.mp mem with rfl | mem
    · rw [get_foldl_promoteArch_of_ne distinct.1, get_promoteArch,
        if_pos rfl]
    · have others : entry.2 ≠ first.2 := by
        intro same
        exact distinct.1 (same ▸ mem_map_of_mem mem)
      have dotted : archKey arch entry.1 ≠ first.2 := by
        intro same
        exact plain.1 (same ▸ dotted_archKey arch entry.1)
      rw [ih plain.2 distinct.2 mem, get_promoteArch, get_promoteArch,
        if_neg others, if_neg dotted]

/-- An alias of the first such key. -/
theorem get_foldl_promoteFirst (distinct : (entries.map Prod.snd).Nodup)
    (mem : entry ∈ entries) :
    (entries.foldl promoteFirst out).get entry.2 =
      (out.get entry.2).or (firstOf out entry.1) := by
  induction entries generalizing out with
  | nil => cases mem
  | cons first rest ih =>
    rw [forall_mem_cons] at plain
    rw [map_cons, nodup_cons] at distinct
    rw [foldl_cons]
    rcases mem_cons.mp mem with rfl | mem
    · rw [get_foldl_promoteFirst_of_ne plain.2 distinct.1,
        get_promoteFirst plain.1, if_pos rfl]
    · have others : entry.2 ≠ first.2 := by
        intro same
        exact distinct.1 (same ▸ mem_map_of_mem mem)
      rw [ih plain.2 distinct.2 mem, get_promoteFirst plain.1,
        if_neg others, firstOf_promoteFirst plain.1]

end

end Promoted

end Hal0.Registry.Gguf
