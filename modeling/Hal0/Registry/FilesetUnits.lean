import Hal0.Registry.Fileset

/-!
# The units of a listing

A unit of a listing is a model file, or it holds one file for each index of a
shard group.  The order of the listing decides which unit stands for a shard
group, and where it stands; what can stand for it is the same for any order.
-/

namespace Hal0.Registry.Fileset

open List
open Hal0.Groups
open Hal0.Registry.Pulls (Name baseName)

variable {tables : Unicode} {entries others : List RawTreeEntry}

/-! ## The listing by roles -/

theorem add_of_ne_shard {entry : RawTreeEntry}
    (isOther : roleOf tables entry.path ≠ .shard)
    (known : List (ShardKey × List (Nat × RawTreeEntry))) :
    Groups.add (shardPlace tables) known entry = known := by
  rw [Groups.add, shardPlace, if_neg isOther]

/-- The classes as groups and filters. -/
theorem classify_eq (entries : List RawTreeEntry) :
    classify tables entries =
      { shardGroups := groups (shardPlace tables) entries
        modelFiles := entries.filter fun entry =>
          roleOf tables entry.path = .model
        mmprojFiles := entries.filter fun entry =>
          roleOf tables entry.path = .mmproj
        tokenizerFiles := entries.filter fun entry =>
          roleOf tables entry.path = .tokenizer
        configFiles := entries.filter fun entry =>
          roleOf tables entry.path = .config } := by
  induction entries using List.reverseRecOn with
  | nil => rfl
  | append_singleton entries entry ih =>
    have before : entries.foldl (Classified.add tables)
        ⟨[], [], [], [], []⟩ = classify tables entries := rfl
    rw [classify, foldl_append, before, ih,
      foldl_cons, foldl_nil, Classified.add, groups_concat]
    cases isRole : roleOf tables entry.path with
    | shard => simp [isRole]
    | model => simp [isRole, add_of_ne_shard]
    | mmproj => simp [isRole, add_of_ne_shard]
    | tokenizer => simp [isRole, add_of_ne_shard]
    | config => simp [isRole, add_of_ne_shard]

theorem roleOf_congr {first second : Name}
    (same : baseName first = baseName second) :
    roleOf tables first = roleOf tables second := by
  rw [roleOf, roleOf, suffix, suffix, same]

/-! ## Candidates -/

/-- What can be a unit in some order of the listing. -/
inductive Candidate (tables : Unicode) (entries : List RawTreeEntry) :
    FileUnit → Prop where
  | shards {key : ShardKey} {pick : List (Nat × RawTreeEntry)}
      (isPick : IsPick (shardPlace tables) entries key pick) :
      Candidate tables entries (.shards key pick)
  | single {entry : RawTreeEntry} (isListed : entry ∈ entries)
      (isModel : roleOf tables entry.path = .model) :
      Candidate tables entries (.single entry)

variable {unit : FileUnit}

theorem Candidate.perm (candidate : Candidate tables entries unit)
    (perm : entries.Perm others) :
    Candidate tables others unit := by
  cases candidate with
  | shards isPick => exact .shards (isPick.perm perm)
  | single isListed isModel => exact .single (perm.mem_iff.mp isListed) isModel

abbrev unitsOf (tables : Unicode) (entries : List RawTreeEntry) :
    List FileUnit :=
  (classify tables entries).units

theorem mem_unitsOf :
    unit ∈ unitsOf tables entries ↔
      (∃ key group, (key, group) ∈ groups (shardPlace tables) entries ∧
        .shards key (ordered group) = unit) ∨
      ∃ entry ∈ entries, roleOf tables entry.path = .model ∧
        .single entry = unit := by
  rw [unitsOf, classify_eq, Classified.units, mem_append, mem_map, mem_map]
  simp only [Prod.exists, mem_filter, decide_eq_true_eq, and_assoc]

theorem candidate_of_mem (isIn : unit ∈ unitsOf tables entries) :
    Candidate tables entries unit := by
  rcases mem_unitsOf.mp isIn with
    ⟨key, group, isGroup, rfl⟩ | ⟨entry, isListed, isModel, rfl⟩
  · exact .shards (isPick_ordered isGroup)
  · exact .single isListed isModel

/-- The key of a sharded unit. -/
def FileUnit.key : FileUnit → Option ShardKey
  | .shards key _ => some key
  | .single _ => none

/-- Units of one key are one. -/
theorem eq_of_key {first second : FileUnit}
    (isFirst : first ∈ unitsOf tables entries)
    (isSecond : second ∈ unitsOf tables entries)
    (isShard : first.isShard) (same : second.key = first.key) :
    second = first := by
  rcases mem_unitsOf.mp isFirst with
    ⟨key, group, isGroup, rfl⟩ | ⟨_, _, _, rfl⟩
  · rcases mem_unitsOf.mp isSecond with
      ⟨other, group', isOther, rfl⟩ | ⟨_, _, _, rfl⟩
    · cases same
      have found := (find_eq_some_iff (nodup_groups entries)).mpr isGroup
      have foundOther :=
        (find_eq_some_iff (nodup_groups entries)).mpr isOther
      rw [found] at foundOther
      cases foundOther
      rfl
    · cases same
  · cases isShard

theorem unitsOf_ordered (entries : List RawTreeEntry) :
    (unitsOf tables entries).Pairwise fun first second =>
      second.isShard → first.isShard := by
  rw [unitsOf, Classified.units, pairwise_append]
  refine ⟨?_, ?_, ?_⟩
  · exact pairwise_map.mpr (pairwise_of_forall fun _ _ _ => rfl)
  · exact pairwise_map.mpr (pairwise_of_forall fun _ _ => nofun)
  · intro first isGroup second isSingle
    obtain ⟨_, _, rfl⟩ := mem_map.mp isSingle
    nofun

theorem Candidate.exists_unit (candidate : Candidate tables entries unit) :
    ∃ other ∈ unitsOf tables entries,
      other = unit ∨ (unit.isShard ∧ other.key = unit.key) := by
  cases candidate with
  | single isListed isModel =>
    exact ⟨_, mem_unitsOf.mpr (Or.inr ⟨_, isListed, isModel, rfl⟩),
      Or.inl rfl⟩
  | @shards key pick isPick =>
    obtain ⟨entry, isIn⟩ := exists_mem_of_ne_nil _ isPick.nonempty
    obtain ⟨isListed, placed⟩ := isPick.drawn entry isIn
    obtain ⟨⟨_, group⟩, isGroup, rfl⟩ := mem_map.mp
      ((mem_keys_groups entries key).mpr ⟨_, isListed, _, placed⟩)
    exact ⟨_, mem_unitsOf.mpr (Or.inl ⟨_, _, isGroup, rfl⟩),
      Or.inr ⟨rfl, rfl⟩⟩

/-- No other choice of files can stand for the shard group of the unit. -/
def Alone (tables : Unicode) (entries : List RawTreeEntry)
    (unit : FileUnit) : Prop :=
  ∀ other, Candidate tables entries other → unit.isShard →
    other.key = unit.key → other = unit

theorem Candidate.mem_of_alone (candidate : Candidate tables entries unit)
    (alone : Alone tables entries unit) (perm : entries.Perm others) :
    unit ∈ unitsOf tables others := by
  obtain ⟨other, isUnit, rfl | ⟨isShard, sameKey⟩⟩ :=
    (candidate.perm perm).exists_unit
  · exact isUnit
  · have isOther := (candidate_of_mem isUnit).perm perm.symm
    exact alone other isOther isShard sameKey ▸ isUnit

/--
In some order of the listing a candidate is a unit, before all others of its
kind.
-/
theorem Candidate.favoured (candidate : Candidate tables entries unit)
    (distinct : entries.Nodup) :
    ∃ others before after, entries.Perm others ∧
      unitsOf tables others = before ++ unit :: after ∧
        ∀ earlier ∈ before, earlier.isShard ∧ ¬ unit.isShard := by
  cases candidate with
  | @shards key pick isPick =>
    obtain ⟨group, later, isFirst, same⟩ :=
      groups_favouring isPick distinct
    obtain ⟨after, whole⟩ : ∃ after, unitsOf tables
        (favouring (shardPlace tables) key pick entries) =
          .shards key pick :: after := by
      rw [unitsOf, classify_eq, Classified.units]
      simp only [isFirst]
      rw [map_cons, cons_append, same]
      exact ⟨_, rfl⟩
    exact ⟨_, [], after, favouring_perm isPick distinct, whole, nofun⟩
  | @single entry isListed isModel =>
    obtain ⟨before, after, whole, allShards⟩ : ∃ before after,
        unitsOf tables (entry :: entries.erase entry) =
          before ++ .single entry :: after ∧
            ∀ earlier ∈ before, earlier.isShard := by
      rw [unitsOf, classify_eq, Classified.units, filter_cons_of_pos
        (by simpa using isModel), map_cons]
      refine ⟨_, _, rfl, ?_⟩
      intro earlier isEarlier
      obtain ⟨_, _, rfl⟩ := mem_map.mp isEarlier
      rfl
    exact ⟨_, before, after, perm_cons_erase isListed, whole,
      fun earlier isEarlier => ⟨allShards earlier isEarlier, nofun⟩⟩

end Hal0.Registry.Fileset
