import Hal0.Core.Latest
import Hal0.Core.Records
import Mathlib.Data.List.Induction

/-!
# Dictionaries by their keys

A dictionary is read by key and changed one key at a time.  Each operation is
described by what is found afterwards under any key.
-/

namespace Hal0.Json

open List

variable {Field Other : Type}

/-! ## Entries -/

variable {entries : List (String × Field)}

theorem keys_setEntry_of_mem {key : String} (isIn : key ∈ entries.map Prod.fst)
    (value : Field) :
    (setEntry entries key value).map Prod.fst = entries.map Prod.fst := by
  rw [setEntry, if_pos isIn, map_map]
  refine map_congr_left fun entry _ => ?_
  by_cases same : entry.1 = key
  · simp [same]
  · simp [same]

theorem nodup_setEntry (distinct : (entries.map Prod.fst).Nodup) (key : String)
    (value : Field) :
    ((setEntry entries key value).map Prod.fst).Nodup := by
  by_cases isIn : key ∈ entries.map Prod.fst
  · rw [keys_setEntry_of_mem isIn]
    exact distinct
  · rw [setEntry_of_new isIn, map_append, nodup_append]
    refine ⟨distinct, nodup_singleton _, ?_⟩
    rintro first isFirst second isSecond rfl
    rw [map_cons, map_nil, mem_singleton] at isSecond
    subst isSecond
    exact isIn isFirst

theorem lookup_append (before after : List (String × Field)) (key : String) :
    (before ++ after).lookup key =
      (before.lookup key).or (after.lookup key) := by
  induction before with
  | nil => rfl
  | cons entry rest ih =>
    rw [cons_append, lookup_cons, lookup_cons, ih]
    cases key == entry.1 <;> rfl

theorem lookup_replace_of_ne (entries : List (String × Field))
    {key name : String} (differ : name ≠ key) (value : Field) :
    (entries.map fun entry =>
      if entry.1 = key then (key, value) else entry).lookup name =
        entries.lookup name := by
  have other : (name == key) = false := by simpa using differ
  induction entries with
  | nil => rfl
  | cons entry rest ih =>
    rw [map_cons, lookup_cons]
    by_cases isKey : entry.1 = key
    · rw [if_pos isKey, lookup_cons, isKey, other, ih]
    · rw [if_neg isKey, lookup_cons, ih]

theorem lookup_replace_self {key : String} (isIn : key ∈ entries.map Prod.fst)
    (value : Field) :
    (entries.map fun entry =>
      if entry.1 = key then (key, value) else entry).lookup key =
        some value := by
  induction entries with
  | nil => exact absurd isIn not_mem_nil
  | cons entry rest ih =>
    rw [map_cons, lookup_cons]
    by_cases isKey : entry.1 = key
    · rw [if_pos isKey, beq_self_eq_true]
    · have other : (key == entry.1) = false := by
        simpa using Ne.symm isKey
      rw [map_cons] at isIn
      rw [if_neg isKey, other]
      exact ih
        ((mem_cons.mp isIn).resolve_left (Ne.symm isKey))

/-- Only the set key is changed. -/
theorem lookup_setEntry (entries : List (String × Field)) (key name : String)
    (value : Field) :
    (setEntry entries key value).lookup name =
      if name = key then some value else entries.lookup name := by
  by_cases same : name = key
  · subst same
    rw [if_pos rfl]
    by_cases isIn : name ∈ entries.map Prod.fst
    · rw [setEntry, if_pos isIn, lookup_replace_self isIn]
    · rw [setEntry_of_new isIn, lookup_append, lookup_eq_none isIn]
      simp
  · rw [if_neg same]
    by_cases isIn : key ∈ entries.map Prod.fst
    · rw [setEntry, if_pos isIn, lookup_replace_of_ne entries same]
    · have other : (name == key) = false := by simpa using same
      rw [setEntry_of_new isIn, lookup_append]
      simp [lookup_cons, other]

theorem lookup_map (change : Field → Other) (entries : List (String × Field))
    (name : String) :
    (entries.map fun entry => (entry.1, change entry.2)).lookup name =
      (entries.lookup name).map change := by
  induction entries with
  | nil => rfl
  | cons entry rest ih =>
    rw [map_cons, lookup_cons, lookup_cons, ih]
    cases name == entry.1 <;> rfl

/-! ## Dictionaries -/

namespace Table

def empty : Table Field := ⟨[], nodup_nil⟩

/-- The value under a key. -/
def get (table : Table Field) (key : String) : Option Field :=
  table.entries.lookup key

/-- The key is there. -/
def has (table : Table Field) (key : String) : Bool :=
  (table.get key).isSome

/-- A key with a new value. -/
def put (table : Table Field) (key : String) (value : Field) : Table Field :=
  ⟨setEntry table.entries key value, nodup_setEntry table.distinct key value⟩

/-- The entries whose keys pass a test. -/
def filter (table : Table Field) (keep : String → Bool) : Table Field :=
  ⟨table.entries.filter fun entry => keep entry.1,
    table.distinct.sublist (filter_sublist.map Prod.fst)⟩

/-- Every value changed. -/
def map (table : Table Field) (change : Field → Other) : Table Other :=
  ⟨table.entries.map fun entry => (entry.1, change entry.2), by
    rw [map_map]
    exact table.distinct⟩

/-- `dict.pop` -/
def remove (table : Table Field) (key : String) : Table Field :=
  table.filter fun name => name ≠ key

/-- A key gets its value, if there is one. -/
def stamp (table : Table Field) (key : String) : Option Field → Table Field
  | none => table
  | some value => table.put key value

/-- Some entries one by one. -/
def putAll (table : Table Field) (entries : List (String × Field)) :
    Table Field :=
  entries.foldl (fun table entry => table.put entry.1 entry.2) table

@[simp]
theorem get_empty (name : String) : (empty : Table Field).get name = none :=
  rfl

theorem get_put (table : Table Field) (key name : String) (value : Field) :
    (table.put key value).get name =
      if name = key then some value else table.get name :=
  lookup_setEntry table.entries key name value

@[simp]
theorem get_put_self (table : Table Field) (key : String) (value : Field) :
    (table.put key value).get key = some value := by
  rw [get_put, if_pos rfl]

variable {key : String}

theorem get_put_of_ne (table : Table Field) {name : String}
    (differ : name ≠ key) (value : Field) :
    (table.put key value).get name = table.get name := by
  rw [get_put, if_neg differ]

theorem get_filter (table : Table Field) (keep : String → Bool)
    (name : String) :
    (table.filter keep).get name = if keep name then table.get name else none :=
  lookup_filter keep table.entries name

@[simp]
theorem get_remove (table : Table Field) (key name : String) :
    (table.remove key).get name =
      if name = key then none else table.get name := by
  rw [remove, get_filter]
  by_cases same : name = key
  · simp [same]
  · simp [same]

@[simp]
theorem get_stamp (table : Table Field) (key name : String)
    (value : Option Field) :
    (table.stamp key value).get name =
      if name = key then value.or (table.get name) else table.get name := by
  cases value with
  | none => simp [stamp]
  | some value =>
    rw [stamp, get_put]
    rfl

variable {table : Table Field}

theorem mem_entries_iff {value : Field} :
    (key, value) ∈ table.entries ↔ table.get key = some value := by
  constructor
  · exact lookup_of_mem table.distinct
  · intro found
    obtain ⟨before, after, whole, -⟩ := lookup_eq_some_iff.mp found
    rw [whole]
    exact mem_append_right before mem_cons_self

/-- Each entry of a dictionary has a property. -/
def Each (holds : String → Field → Prop) (table : Table Field) : Prop :=
  ∀ key value, table.get key = some value → holds key value

/-- A stamped value keeps what all values have. -/
theorem Each.stamp {holds : String → Field → Prop} (each : table.Each holds)
    {value : Option Field} (holdsNew : ∀ given ∈ value, holds key given) :
    (table.stamp key value).Each holds := by
  intro name found isFound
  rw [get_stamp] at isFound
  by_cases same : name = key
  · rw [if_pos same] at isFound
    subst same
    cases value with
    | none => exact each name found isFound
    | some given =>
      cases isFound
      exact holdsNew _ rfl
  · rw [if_neg same] at isFound
    exact each name found isFound

theorem Each.remove {holds : String → Field → Prop} (each : table.Each holds)
    (key : String) : (table.remove key).Each holds := by
  intro name found isFound
  rw [get_remove] at isFound
  split at isFound
  · cases isFound
  · exact each name found isFound

theorem get_map (table : Table Field) (change : Field → Other)
    (name : String) : (table.map change).get name = (table.get name).map change :=
  lookup_map change table.entries name

theorem has_iff :
    table.has key = true ↔ ∃ value, table.get key = some value :=
  Option.isSome_iff_exists

theorem get_eq_none_of_not_has
    (isNew : table.has key = false) : table.get key = none :=
  Option.not_isSome_iff_eq_none.mp (by simpa [has] using isNew)

variable {entries : List (String × Field)}

/-- New entries win over old ones. -/
theorem get_putAll (table : Table Field)
    (distinct : (entries.map Prod.fst).Nodup) (name : String) :
    (table.putAll entries).get name =
      (entries.lookup name).or (table.get name) := by
  unfold putAll
  induction entries generalizing table with
  | nil => rfl
  | cons entry rest ih =>
    rw [map_cons, nodup_cons] at distinct
    rw [foldl_cons, ih _ distinct.2, get_put, lookup_cons]
    by_cases same : name = entry.1
    · subst same
      rw [lookup_eq_none distinct.1, if_pos rfl, beq_self_eq_true]
      rfl
    · have other : (name == entry.1) = false := by simpa using same
      rw [if_neg same, other]

theorem get_putAll_of_not_mem (table : Table Field)
    (absent : ∀ value, (key, value) ∉ entries) :
    (table.putAll entries).get key = table.get key := by
  unfold putAll
  induction entries generalizing table with
  | nil => rfl
  | cons entry rest ih =>
    have differs : key ≠ entry.1 := by
      rintro rfl
      exact absent entry.2 mem_cons_self
    rw [foldl_cons, ih _ fun value mem =>
      absent value (mem_cons_of_mem entry mem), get_put_of_ne _ differs]

/-- Of entries of one key the last one wins. -/
theorem get_putAll_eq_some (isNew : table.get key = none) {value : Field} :
    (table.putAll entries).get key = some value ↔
      Latest.IsLatest (fun entry => entry.1 = key) entries (key, value) := by
  induction entries using List.reverseRecOn with
  | nil =>
    rw [putAll, foldl_nil, isNew]
    constructor
    · intro found
      cases found
    · intro latest
      exact absurd latest.mem not_mem_nil
  | append_singleton earlier last ih =>
    rw [putAll] at ih
    rw [putAll, foldl_append, foldl_cons, foldl_nil, get_put,
      Latest.isLatest_concat]
    by_cases same : key = last.1
    · subst same
      rw [if_pos rfl]
      constructor
      · rintro isLast
        cases isLast
        exact .inl ⟨rfl, rfl⟩
      · rintro (⟨isLast, _⟩ | ⟨differs, _⟩)
        · rw [← isLast]
        · exact absurd rfl differs
    · rw [if_neg same]
      constructor
      · intro found
        exact .inr ⟨Ne.symm same, ih.mp found⟩
      · rintro (⟨_, isKey⟩ | ⟨_, latest⟩)
        · exact absurd isKey.symm same
        · exact ih.mpr latest

end Table

end Hal0.Json
