import Hal0.Core.JsonReads
import Mathlib.Data.List.Nodup

/-!
# Records as JSON objects

A record is dumped to an object which has no member for a field without a
value, and validated member by member.  A member which is missing has the
default of its field, so that what was dumped is found again.
-/

namespace Hal0.Json

open List

variable {Real Field : Type}

/-! ## Dumping -/

/-- The members of the fields which have a value. -/
def dumpFields (fields : List (String × Option (Value Real))) :
    List (String × Value Real) :=
  fields.filterMap fun field => field.2.map fun value => (field.1, value)

/-- The members without one key, if its value passes a test. -/
def dropWhen (key : String) (test : Value Real → Bool)
    (entries : List (String × Value Real)) : List (String × Value Real) :=
  if (entries.lookup key).any test then
    entries.filter fun entry => entry.1 ≠ key
  else entries

/-! ## Validating -/

/-- Every key is one of these. -/
def known (keys : List String) (entries : List (String × Value Real)) : Bool :=
  entries.all fun entry => entry.1 ∈ keys

/-- A member, or else the default of its field. -/
def member (entries : List (String × Value Real)) (key : String)
    (missing : Option Field) (read : Value Real → Option Field) :
    Option Field :=
  match entries.lookup key with
  | none => missing
  | some value => read value

/-- A value which may be `null`. -/
def nullable (read : Value Real → Option Field) :
    Value Real → Option (Option Field)
  | .null => some none
  | value => (read value).map some

/-- A list with every item read. -/
def readList (read : Value Real → Option Field) :
    Value Real → Option (List Field)
  | .list items => items.mapM read
  | _ => none

/-- One of some words. -/
def readWord (words : List Field) (word : Field → String) :
    Value Real → Option Field
  | .str text => words.find? fun field => word field = text
  | _ => none

/-- Entries with distinct keys. -/
structure Table (Field : Type) where
  entries : List (String × Field)
  distinct : (entries.map Prod.fst).Nodup

/-- The entries, where their keys are distinct. -/
def Table.of (entries : List (String × Field)) : Option (Table Field) :=
  if distinct : (entries.map Prod.fst).Nodup then some ⟨entries, distinct⟩
  else none

/-- A dict with every value read. -/
def readTable (read : Value Real → Option Field) :
    Value Real → Option (Table Field)
  | .dict entries => (entries.mapM fun entry =>
    (read entry.2).map fun field => (entry.1, field)).bind Table.of
  | _ => none

/-! ## Members which were dumped -/

theorem dumpFields_cons (key : String) (value : Option (Value Real))
    (rest : List (String × Option (Value Real))) :
    dumpFields ((key, value) :: rest) =
      (value.map fun value => (key, value)).toList ++ dumpFields rest := by
  cases value <;> rfl

theorem keys_dumpFields (fields : List (String × Option (Value Real))) :
    ((dumpFields fields).map Prod.fst).Sublist (fields.map Prod.fst) := by
  induction fields with
  | nil => exact List.Sublist.refl []
  | cons field rest ih =>
    obtain ⟨key, value⟩ := field
    rw [dumpFields_cons]
    cases value with
    | none => exact ih.cons key
    | some value => exact ih.cons_cons key

variable {fields : List (String × Option (Value Real))}

theorem known_dumpFields {keys : List String}
    (names : fields.map Prod.fst = keys) :
    known keys (dumpFields fields) = true := by
  rw [known, all_eq_true]
  intro entry isIn
  rw [decide_eq_true_eq, ← names]
  exact (keys_dumpFields fields).subset (mem_map_of_mem isIn)

variable {key : String}

theorem lookup_eq_none {entries : List (String × Field)}
    (isNew : key ∉ entries.map Prod.fst) : entries.lookup key = none := by
  rw [lookup_eq_none_iff]
  intro entry isIn
  rw [bne_iff_ne]
  rintro rfl
  exact isNew (mem_map_of_mem isIn)

/-- A field is written where it has a value. -/
theorem lookup_dumpFields (distinct : (fields.map Prod.fst).Nodup)
    (key : String) :
    (dumpFields fields).lookup key = (fields.lookup key).join := by
  induction fields with
  | nil => rfl
  | cons field rest ih =>
    obtain ⟨name, value⟩ := field
    rw [map_cons, nodup_cons] at distinct
    have ofRest := ih distinct.2
    rw [dumpFields_cons, lookup_cons]
    by_cases same : key = name
    · subst same
      have missing : (dumpFields rest).lookup key = none :=
        lookup_eq_none fun isIn =>
          distinct.1 ((keys_dumpFields rest).subset isIn)
      cases value with
      | none => simpa using missing
      | some value => simp
    · have other : (key == name) = false := by simpa using same
      rw [other]
      cases value with
      | none => simpa using ofRest
      | some value => simpa [lookup_cons, other] using ofRest

theorem lookup_of_mem {entries : List (String × Field)}
    (distinct : (entries.map Prod.fst).Nodup) {value : Field}
    (isIn : (key, value) ∈ entries) : entries.lookup key = some value := by
  induction entries with
  | nil => exact absurd isIn not_mem_nil
  | cons first rest ih =>
    rw [map_cons, nodup_cons] at distinct
    rcases mem_cons.mp isIn with rfl | isLater
    · simp
    · have other : (key == first.1) = false := by
        rw [beq_eq_false_iff_ne]
        rintro rfl
        exact distinct.1 (mem_map.mpr ⟨_, isLater, rfl⟩)
      rw [lookup_cons, other]
      exact ih distinct.2 isLater

theorem lookup_field (distinct : (fields.map Prod.fst).Nodup) (key : String)
    {value : Option (Value Real)} (isField : (key, value) ∈ fields) :
    (dumpFields fields).lookup key = value := by
  rw [lookup_dumpFields distinct, lookup_of_mem distinct isField]
  rfl

theorem lookup_filter (keep : String → Bool) (entries : List (String × Field))
    (name : String) :
    (entries.filter fun entry => keep entry.1).lookup name =
      if keep name then entries.lookup name else none := by
  induction entries with
  | nil => simp
  | cons entry rest ih =>
    obtain ⟨first, value⟩ := entry
    by_cases same : name = first
    · subst same
      cases kept : keep name with
      | true => simp [kept]
      | false => simpa [kept] using ih
    · have other : (name == first) = false := by simpa using same
      rw [lookup_cons, other]
      cases kept : keep first with
      | true =>
        rw [filter_cons_of_pos (by simpa using kept), lookup_cons, other]
        exact ih
      | false =>
        rw [filter_cons_of_neg (by simp [kept])]
        exact ih

variable {entries : List (String × Value Real)}

theorem lookup_dropWhen_of_ne {name : String} (differ : name ≠ key)
    (test : Value Real → Bool) :
    (dropWhen key test entries).lookup name = entries.lookup name := by
  unfold dropWhen
  split
  · have kept := lookup_filter (fun name => decide (name ≠ key)) entries name
    rw [decide_eq_true differ, if_pos rfl] at kept
    exact kept
  · rfl

/-- The entry stays where it fails the test. -/
theorem lookup_dropWhen_self (entries : List (String × Value Real))
    (key : String) (test : Value Real → Bool) :
    (dropWhen key test entries).lookup key =
      (entries.lookup key).filter fun value => !test value := by
  unfold dropWhen
  cases found : entries.lookup key with
  | none => simpa using found
  | some value =>
    cases passes : test value with
    | true =>
      rw [Option.any_some, passes, if_pos rfl, lookup_eq_none (by simp),
        Option.filter_some, passes]
      rfl
    | false =>
      rw [Option.any_some, passes, if_neg (by simp), found,
        Option.filter_some, passes]
      rfl

theorem known_dropWhen {keys : List String}
    (isKnown : known keys entries = true) (key : String)
    (test : Value Real → Bool) :
    known keys (dropWhen key test entries) = true := by
  rw [known, all_eq_true] at isKnown ⊢
  unfold dropWhen
  split
  · exact fun entry isIn => isKnown entry (mem_of_mem_filter isIn)
  · exact isKnown

/-! ## Values which were dumped -/

variable {read : Value Real → Option Field} {dump : Field → Value Real}

theorem readList_map (back : ∀ field, read (dump field) = some field)
    (fields : List Field) :
    readList read (.list (fields.map dump)) = some fields := by
  rw [readList]
  induction fields with
  | nil => rfl
  | cons field rest ih =>
    rw [map_cons, mapM_cons, back, ih]
    rfl

theorem readTable_map (back : ∀ field, read (dump field) = some field)
    (table : Table Field) :
    readTable read (.dict (table.entries.map fun entry =>
      (entry.1, dump entry.2))) = some table := by
  have all : ∀ entries : List (String × Field),
      ((entries.map fun entry => (entry.1, dump entry.2)).mapM fun entry =>
        (read entry.2).map fun field => (entry.1, field)) = some entries := by
    intro entries
    induction entries with
    | nil => rfl
    | cons entry rest ih =>
      rw [map_cons, mapM_cons, back, ih]
      rfl
  rw [readTable, all, Option.bind_some, Table.of, dif_pos table.distinct]

/-- Reading keeps the keys in order. -/
theorem keys_readTable {table : Table Field}
    (isRead : readTable read (.dict entries) = some table) :
    table.entries.map Prod.fst = entries.map Prod.fst := by
  have sameKeys : ∀ (entries : List (String × Value Real))
      (fields : List (String × Field)),
      (entries.mapM fun entry =>
        (read entry.2).map fun field => (entry.1, field)) = some fields →
      fields.map Prod.fst = entries.map Prod.fst := by
    intro entries
    induction entries with
    | nil =>
      intro fields isMapped
      cases isMapped
      rfl
    | cons entry rest ih =>
      intro fields isMapped
      rw [mapM_cons] at isMapped
      obtain ⟨first, isFirst, isRest⟩ := Option.bind_eq_some_iff.mp isMapped
      obtain ⟨later, isLater, same⟩ := Option.bind_eq_some_iff.mp isRest
      obtain ⟨field, -, rfl⟩ := Option.map_eq_some_iff.mp isFirst
      cases same
      rw [map_cons, map_cons, ih later isLater]
  obtain ⟨fields, isMapped, isTable⟩ := Option.bind_eq_some_iff.mp isRead
  unfold Table.of at isTable
  split at isTable
  · cases isTable
    exact sameKeys entries fields isMapped
  · cases isTable

theorem member_nullable (field : Option Field)
    (back : ∀ field, read (dump field) = some field)
    (notNull : ∀ field, dump field ≠ .null)
    (found : entries.lookup key = field.map dump) :
    member entries key (some none) (nullable read) = some field := by
  rw [member, found]
  cases field with
  | none => rfl
  | some field =>
    have isRead := back field
    rw [Option.map_some]
    cases dumped : dump field with
    | null => exact absurd dumped (notNull field)
    | _ =>
      rw [dumped] at isRead
      simp [nullable, isRead]

theorem member_some {value : Value Real} {field : Field}
    (missing : Option Field) (isRead : read value = some field)
    (found : entries.lookup key = some value) :
    member entries key missing read = some field := by
  rw [member, found]
  exact isRead

/-! ## Distinct keys -/

@[simp]
theorem distinct_str (text : String) : Distinct (.str text : Value Real) :=
  trivial

@[simp]
theorem distinct_int (value : Int) : Distinct (.int value : Value Real) :=
  trivial

@[simp]
theorem distinct_bool (value : Bool) : Distinct (.bool value : Value Real) :=
  trivial

theorem distinctEntries_iff :
    DistinctEntries entries ↔ ∀ entry ∈ entries, Distinct entry.2 := by
  induction entries with
  | nil => simp [DistinctEntries]
  | cons entry rest ih =>
    obtain ⟨key, value⟩ := entry
    rw [DistinctEntries, ih, forall_mem_cons]

theorem distinctItems_iff {items : List (Value Real)} :
    DistinctItems items ↔ ∀ item ∈ items, Distinct item := by
  induction items with
  | nil => simp [DistinctItems]
  | cons item rest ih =>
    rw [DistinctItems, ih, forall_mem_cons]

theorem distinct_dumpFields (distinct : (fields.map Prod.fst).Nodup)
    (inside : ∀ field ∈ fields, ∀ value ∈ field.2, Distinct value) :
    Distinct (.dict (dumpFields fields)) := by
  rw [Distinct, distinctEntries_iff]
  refine ⟨distinct.sublist (keys_dumpFields fields), ?_⟩
  intro entry isIn
  obtain ⟨field, fieldIn, isEntry⟩ := mem_filterMap.mp isIn
  obtain ⟨value, hasValue, rfl⟩ := Option.map_eq_some_iff.mp isEntry
  exact inside field fieldIn value hasValue

theorem distinct_dropWhen (distinct : Distinct (.dict entries)) (key : String)
    (test : Value Real → Bool) :
    Distinct (.dict (dropWhen key test entries)) := by
  unfold dropWhen
  split
  · rw [Distinct, distinctEntries_iff] at distinct ⊢
    refine ⟨distinct.1.sublist (filter_sublist.map Prod.fst), ?_⟩
    exact fun entry isIn => distinct.2 entry (mem_of_mem_filter isIn)
  · exact distinct

theorem distinct_table (inside : ∀ field, Distinct (dump field))
    (table : Table Field) :
    Distinct (.dict (table.entries.map fun entry =>
      (entry.1, dump entry.2))) := by
  rw [Distinct, distinctEntries_iff]
  refine ⟨?_, ?_⟩
  · rw [map_map]
    exact table.distinct
  · intro entry isIn
    obtain ⟨field, -, rfl⟩ := mem_map.mp isIn
    exact inside field.2

theorem distinct_list (inside : ∀ field, Distinct (dump field))
    (fields : List Field) :
    Distinct (.list (fields.map dump)) := by
  rw [Distinct, distinctItems_iff]
  intro item isIn
  obtain ⟨field, -, rfl⟩ := mem_map.mp isIn
  exact inside field

end Hal0.Json
