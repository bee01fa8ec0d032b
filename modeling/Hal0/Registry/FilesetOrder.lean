import Hal0.Registry.FilesetSettled
import Mathlib.Data.List.Perm.Basic

/-!
# What the order of a listing changes in a plan

Two listings of the same files give the same plan just where they give the
same unit: the other files of the plan are chosen by their paths.
-/

namespace Hal0.Registry.Fileset

open List
open Hal0.Registry.Pulls (Name baseName matchShard)

variable {tables : Unicode} {entries others : List RawTreeEntry}

/-! ## The other files -/

theorem sortedByPath_perm (perm : entries.Perm others)
    (distinct : (entries.map RawTreeEntry.path).Nodup) :
    sortedByPath entries = sortedByPath others := by
  have : Std.Total fun first second : RawTreeEntry =>
      first.path ≤ second.path :=
    ⟨fun first second => le_total first.path second.path⟩
  have : IsTrans RawTreeEntry fun first second => first.path ≤ second.path :=
    ⟨fun _ _ _ => le_trans⟩
  have samePerm : (sortedByPath entries).Perm (sortedByPath others) :=
    (perm_insertionSort _ entries).trans
      (perm.trans (perm_insertionSort _ others).symm)
  refine samePerm.eq_of_pairwise ?_ (pairwise_insertionSort _ entries)
    (pairwise_insertionSort _ others)
  intro first second isFirst isSecond notMore notLess
  exact inj_on_of_nodup_map distinct
    ((mem_insertionSort _).mp isFirst)
    (perm.mem_iff.mpr ((mem_insertionSort _).mp isSecond))
    (le_antisymm notMore notLess)

theorem sortedByPath_filter (perm : entries.Perm others)
    (distinct : (entries.map RawTreeEntry.path).Nodup)
    (keep : RawTreeEntry → Bool) :
    sortedByPath (entries.filter keep) = sortedByPath (others.filter keep) :=
  sortedByPath_perm (perm.filter keep)
    (distinct.sublist (filter_sublist.map _))

theorem pairMmproj_perm (perm : entries.Perm others)
    (distinct : (entries.map RawTreeEntry.path).Nodup)
    (chosenDir entryRel : Name) :
    pairMmproj tables entries chosenDir entryRel =
      pairMmproj tables others chosenDir entryRel := by
  have sameDir := perm.filter fun entry => dirname entry.path = chosenDir
  obtain ⟨few, many, fewIs, manyIs, candidates, apart⟩ :
      ∃ few many,
        (if (entries.filter fun entry => dirname entry.path = chosenDir) = []
          then entries
          else entries.filter fun entry =>
            dirname entry.path = chosenDir) = few ∧
        (if (others.filter fun entry => dirname entry.path = chosenDir) = []
          then others
          else others.filter fun entry =>
            dirname entry.path = chosenDir) = many ∧
        few.Perm many ∧ (few.map RawTreeEntry.path).Nodup := by
    refine ⟨_, _, rfl, rfl, ?_, ?_⟩
    · simp only [← List.isEmpty_iff, sameDir.isEmpty_eq]
      split
      · exact perm
      · exact sameDir
    · split
      · exact distinct
      · exact distinct.sublist (filter_sublist.map _)
  have ranks : (few.map fun entry => precisionRank tables
        entry.path).foldr max 0 =
      (many.map fun entry => precisionRank tables entry.path).foldr max 0 :=
    (candidates.map _).foldr_op_eq
  rw [pairMmproj, pairMmproj]
  simp only [fewIs, manyIs, ranks, candidates.length_eq]
  simp only [← List.isEmpty_iff, candidates.isEmpty_eq]
  cases quantFromFilename tables (baseName entryRel) with
  | none =>
    simp only [sortedByPath_filter candidates apart]
  | some quant =>
    simp only [sortedByPath_filter candidates apart,
      (candidates.filter _).isEmpty_eq]

/-! ## Plans by their unit -/

/-- Plans with one entry, one set of files and one `mmproj` file. -/
def SamePlan : Except FilesetError FileSetPlan →
    Except FilesetError FileSetPlan → Prop
  | .ok plan, .ok other =>
    plan.entryRel = other.entryRel ∧ plan.mmprojRel = other.mmprojRel ∧
      ∀ file, file ∈ plan.files ↔ file ∈ other.files
  | .error reason, .error other => reason = other
  | _, _ => False

section Units

variable {unit other : FileUnit} (repo revision : Name)

theorem planUnit_perm (perm : entries.Perm others)
    (distinct : (entries.map RawTreeEntry.path).Nodup) (unit : FileUnit) :
    SamePlan
      (.ok (planUnit tables (classify tables entries) repo revision unit))
      (.ok (planUnit tables (classify tables others) repo revision unit)) := by
  have paired := @pairMmproj_perm tables _ _
    (perm.filter fun entry => roleOf tables entry.path = .mmproj)
    (distinct.sublist (filter_sublist.map _)) unit.dirname
    (unit.headPath.getD [])
  refine ⟨rfl, ?_, fun file => ?_⟩
  · simp only [planUnit, classify_eq, paired]
  · simp only [planUnit, classify_eq, paired, mem_append, mem_map,
      mem_filter, perm.mem_iff]

theorem map_rel_files (unit : FileUnit) :
    unit.files.map FileSetEntry.rel = unit.entries.map RawTreeEntry.path := by
  refine ext_getElem (by simp [FileUnit.files]) fun position _ _ => ?_
  simp only [FileUnit.files, getElem_map, getElem_mapIdx]
  split <;> rfl

theorem role_of_mem_files {file : FileSetEntry} (isIn : file ∈ unit.files) :
    file.role = if unit.isShard then .shard else .model := by
  obtain ⟨position, isLess, rfl⟩ := mem_mapIdx.mp isIn
  split <;> rfl

theorem mem_unit_files {sorted : Classified} {file : FileSetEntry} :
    file ∈ unit.files ↔
      file ∈ (planUnit tables sorted repo revision unit).files ∧
        (file.role = .model ∨ file.role = .shard) := by
  constructor
  · intro isIn
    refine ⟨?_, ?_⟩
    · exact mem_append_left _
        (mem_append_left _ (mem_append_left _ isIn))
    · rw [role_of_mem_files isIn]
      cases unit.isShard
      · exact Or.inl rfl
      · exact Or.inr rfl
  · rintro ⟨isIn, isModel⟩
    simp only [planUnit, mem_append, Option.mem_toList, mem_map,
      Option.map_eq_some_iff] at isIn
    rcases isIn with
      ((isIn | ⟨_, _, rfl⟩) | ⟨_, _, rfl⟩) | ⟨_, _, rfl⟩
    · exact isIn
    · exact absurd isModel (by simp [RawTreeEntry.planned])
    · exact absurd isModel (by simp [RawTreeEntry.planned])
    · exact absurd isModel (by simp [RawTreeEntry.planned])

end Units

/-! ## Units by their plan -/

theorem Candidate.mem_entries {unit : FileUnit}
    (candidate : Candidate tables entries unit) {entry : RawTreeEntry}
    (isIn : entry ∈ unit.entries) : entry ∈ entries := by
  cases candidate with
  | single isListed isModel =>
    exact mem_singleton.mp isIn ▸ isListed
  | shards isPick =>
    obtain ⟨numbered, inPick, rfl⟩ := mem_map.mp isIn
    exact (isPick.drawn numbered inPick).1

theorem Candidate.entries_ne_nil {unit : FileUnit}
    (candidate : Candidate tables entries unit) : unit.entries ≠ [] := by
  cases candidate with
  | single => exact cons_ne_nil _ _
  | shards isPick => exact mt map_eq_nil_iff.mp isPick.nonempty

theorem Candidate.eq_of_subset {unit other : FileUnit}
    (candidate : Candidate tables entries unit)
    (isOther : Candidate tables entries other)
    (sameKind : unit.isShard = other.isShard)
    (subset : unit.entries ⊆ other.entries) : unit = other := by
  cases candidate with
  | @single entry isListed isModel =>
    cases isOther with
    | @single entry' isListed' isModel' =>
      have same := subset (mem_singleton_self entry)
      exact congrArg FileUnit.single (mem_singleton.mp same)
    | shards => cases sameKind
  | @shards key pick isPick =>
    cases isOther with
    | single => cases sameKind
    | @shards key' pick' isPick' =>
      have within : ∀ numbered ∈ pick,
          key = key' ∧ numbered ∈ pick' := by
        intro numbered isIn
        obtain ⟨found, isFound, same⟩ :=
          mem_map.mp (subset (mem_map_of_mem isIn))
        have placed := (isPick'.drawn found isFound).2
        rw [same, (isPick.drawn numbered isIn).2, Option.some.injEq,
          Prod.mk.injEq] at placed
        exact ⟨placed.1, Prod.ext placed.2.symm same ▸ isFound⟩
      obtain ⟨numbered, isIn⟩ :=
        exists_mem_of_ne_nil _ isPick.nonempty
      obtain ⟨rfl, -⟩ := within numbered isIn
      rw [isPick.eq_of_subset isPick' fun numbered isIn =>
        (within numbered isIn).2]

variable {unit other : FileUnit} {repo revision : Name}

/-- A plan is made of one unit. -/
theorem Candidate.eq_of_samePlan
    (candidate : Candidate tables entries unit)
    (isOther : Candidate tables entries other)
    (distinct : (entries.map RawTreeEntry.path).Nodup)
    {sorted sorted' : Classified}
    (same : SamePlan (.ok (planUnit tables sorted repo revision unit))
      (.ok (planUnit tables sorted' repo revision other))) :
    unit = other := by
  have sameFiles : ∀ file ∈ unit.files, file ∈ other.files := by
    intro file isIn
    rw [@mem_unit_files tables unit repo revision sorted,
      same.2.2 file] at isIn
    exact (mem_unit_files repo revision).mpr isIn
  have found : ∀ entry ∈ unit.entries,
      unit.isShard = other.isShard ∧ entry ∈ other.entries := by
    intro entry isIn
    have isPath := mem_map_of_mem (f := RawTreeEntry.path) isIn
    rw [← map_rel_files] at isPath
    obtain ⟨file, isFile, isRel⟩ := mem_map.mp isPath
    have isOtherFile := sameFiles file isFile
    refine ⟨?_, ?_⟩
    · have role := role_of_mem_files isOtherFile
      rw [role_of_mem_files isFile] at role
      cases ofUnit : unit.isShard <;> cases ofOther : other.isShard <;>
        simp_all
    · have isOtherPath :=
        mem_map_of_mem (f := FileSetEntry.rel) isOtherFile
      rw [map_rel_files, isRel] at isOtherPath
      obtain ⟨entry', isIn', samePath⟩ := mem_map.mp isOtherPath
      have sameEntry := inj_on_of_nodup_map distinct
        (isOther.mem_entries isIn') (candidate.mem_entries isIn) samePath
      exact sameEntry ▸ isIn'
  obtain ⟨entry, isIn⟩ :=
    exists_mem_of_ne_nil _ candidate.entries_ne_nil
  exact candidate.eq_of_subset isOther (found entry isIn).1
    fun entry isIn => (found entry isIn).2

/-! ## Plans and orders -/

variable {requestedVariant : Option Name}

theorem chooseUnit_mem {units : List FileUnit}
    (chosen : chooseUnit units requestedVariant = some unit) :
    unit ∈ units := by
  unfold chooseUnit at chosen
  split at chosen
  · exact mem_of_find?_eq_some chosen
  · exact (Firsts.firstMax_eq_some_iff.mp chosen).mem

theorem planFileset_of_some
    (chosen : chooseUnit (unitsOf tables entries) requestedVariant =
      some unit) :
    planFileset tables entries repo revision requestedVariant =
      .ok (planUnit tables (classify tables entries) repo revision unit) := by
  have nonempty : (classify tables entries).units ≠ [] :=
    ne_nil_of_mem (chooseUnit_mem chosen)
  rw [planFileset]
  simp only [if_neg nonempty, chosen]

theorem planFileset_of_none
    (chosen : chooseUnit (unitsOf tables entries) requestedVariant = none) :
    planFileset tables entries repo revision requestedVariant =
      .error (if unitsOf tables entries = [] then
        .empty ("no model-role file found in ".toList ++ tables.repr repo ++
          '@' :: revision) repo revision
      else
        .variantNotFound (tables.repr (requestedVariant.getD []) ++
          " not found in ".toList ++ tables.repr repo ++ '@' :: revision)
          repo revision (requestedVariant.getD [])) := by
  rw [planFileset]
  split
  · rfl
  · simp only [chosen]

theorem unitsOf_eq_nil_iff :
    unitsOf tables entries = [] ↔
      ∀ unit, ¬ Candidate tables entries unit := by
  constructor
  · intro isEmpty unit candidate
    obtain ⟨other, isUnit, -⟩ := candidate.exists_unit
    exact ne_nil_of_mem isUnit isEmpty
  · intro none
    exact eq_nil_iff_forall_not_mem.mpr fun unit isIn =>
      none unit (candidate_of_mem isIn)

theorem unitsOf_eq_nil_perm (perm : entries.Perm others) :
    unitsOf tables entries = [] ↔ unitsOf tables others = [] := by
  rw [unitsOf_eq_nil_iff, unitsOf_eq_nil_iff]
  exact forall_congr' fun unit => not_congr
    ⟨fun candidate => candidate.perm perm,
      fun candidate => candidate.perm perm.symm⟩

/-- The plan is the same for every order of the listing. -/
def OrderFree (tables : Unicode) (entries : List RawTreeEntry)
    (repo revision : Name) (requestedVariant : Option Name) : Prop :=
  ∀ others, entries.Perm others →
    SamePlan (planFileset tables others repo revision requestedVariant)
      (planFileset tables entries repo revision requestedVariant)

/-- A variant which is the path of a unit's first file is what is planned. -/
def FindsPath (tables : Unicode) (entries : List RawTreeEntry)
    (repo revision : Name) (requestedVariant : Option Name) : Prop :=
  ∀ unit ∈ unitsOf tables entries, ∀ path, requestedVariant = some path →
    unit.headPath = some path →
      ∃ plan,
        planFileset tables entries repo revision requestedVariant =
          .ok plan ∧ plan.entryRel = path

/-- The listing settles which unit is planned for. -/
def Settled (tables : Unicode) (entries : List RawTreeEntry) :
    Option Name → Prop
  | some (char :: rest) => SettledByName tables entries (char :: rest)
  | _ => SettledByBytes tables entries

/-- When no order changes the plan. -/
theorem orderFree_iff (distinct : (entries.map RawTreeEntry.path).Nodup) :
    OrderFree tables entries repo revision requestedVariant ↔
      ∀ others, entries.Perm others →
        chooseUnit (unitsOf tables others) requestedVariant =
          chooseUnit (unitsOf tables entries) requestedVariant := by
  refine forall_congr' fun others => forall_congr' fun perm => ?_
  cases here : chooseUnit (unitsOf tables entries) requestedVariant with
  | none =>
    cases there : chooseUnit (unitsOf tables others) requestedVariant with
    | none =>
      rw [planFileset_of_none here, planFileset_of_none there]
      refine iff_of_true ?_ rfl
      simp only [unitsOf_eq_nil_perm perm]
      rfl
    | some other =>
      rw [planFileset_of_none here, planFileset_of_some there]
      exact iff_of_false id nofun
  | some unit =>
    cases there : chooseUnit (unitsOf tables others) requestedVariant with
    | none =>
      rw [planFileset_of_some here, planFileset_of_none there]
      exact iff_of_false id nofun
    | some other =>
      rw [planFileset_of_some here, planFileset_of_some there]
      constructor
      · intro same
        have candidate := candidate_of_mem (chooseUnit_mem here)
        have isOther :=
          (candidate_of_mem (chooseUnit_mem there)).perm perm.symm
        exact congrArg some
          (isOther.eq_of_samePlan candidate distinct same)
      · rintro ⟨⟩
        exact planUnit_perm repo revision perm.symm
          ((perm.map _).nodup_iff.mp distinct) unit

theorem orderFree_iff_settled
    (distinct : (entries.map RawTreeEntry.path).Nodup) :
    OrderFree tables entries repo revision requestedVariant ↔
      Settled tables entries requestedVariant := by
  rw [orderFree_iff distinct]
  match requestedVariant with
  | none => exact settledByBytes_iff distinct.of_map
  | some [] => exact settledByBytes_iff distinct.of_map
  | some (char :: rest) => exact settledByName_iff distinct.of_map

theorem roleOf_nil : roleOf tables [] = .config := by
  have noSuffix : suffix [] = [] := by decide
  have noName : baseName [] = [] := by decide
  have noShard : matchShard tables.digit [] = none := by rfl
  rw [roleOf]
  simp only [noSuffix, noName, noShard, tables.lower_nil]
  decide

/-- Where it is settled the path is found. -/
theorem Settled.findsPath
    (settled : Settled tables entries requestedVariant) :
    FindsPath tables entries repo revision requestedVariant := by
  rintro unit isUnit path rfl isHead
  have candidate := candidate_of_mem isUnit
  cases path with
  | nil =>
    have role := candidate.role_head isHead
    rw [roleOf_nil] at role
    split at role <;> cases role
  | cons char rest =>
    have answers : unit.answers (char :: rest) :=
      FileUnit.answers_iff.mpr ⟨_, isHead, rfl⟩
    have found := (SettledByName.find?_eq_some_iff settled
      (List.Perm.refl entries)).mpr ⟨candidate, answers⟩
    refine ⟨_, planFileset_of_some found, ?_⟩
    rw [planUnit, isHead, Option.getD_some]

/--
A plan holds the requested file, and is the same for every order of the
listing, just where the listing settles it.
-/
theorem plan_settled_iff (tables : Unicode) (entries : List RawTreeEntry)
    (distinct : (entries.map RawTreeEntry.path).Nodup) (repo revision : Name)
    (requestedVariant : Option Name) :
    (FindsPath tables entries repo revision requestedVariant ∧
      OrderFree tables entries repo revision requestedVariant) ↔
        Settled tables entries requestedVariant := by
  rw [orderFree_iff_settled distinct]
  exact ⟨And.right, fun settled => ⟨settled.findsPath, settled⟩⟩

def modelFile (path : String) (size : Int) : RawTreeEntry :=
  ⟨path.toList, size, none, some size⟩

/-- One name in two directories. -/
def twoDirectories : List RawTreeEntry :=
  [modelFile "Q4/model.gguf" 4, modelFile "Q8/model.gguf" 8]

/-- Two model files, one of which has the name that is asked for. -/
def twoNames : List RawTreeEntry :=
  [modelFile "model-Q4.gguf" 4, modelFile "Q8/model-Q8.gguf" 8]

theorem candidate_twoNames {unit : FileUnit}
    (candidate : Candidate ascii twoNames unit) :
    ∃ entry ∈ twoNames, unit = .single entry := by
  cases candidate with
  | single isListed isModel => exact ⟨_, isListed, rfl⟩
  | shards isPick =>
    obtain ⟨numbered, isIn⟩ := exists_mem_of_ne_nil _ isPick.nonempty
    obtain ⟨isListed, placed⟩ := isPick.drawn numbered isIn
    have unplaced : ∀ entry ∈ twoNames, shardPlace ascii entry = none := by
      decide +kernel
    rw [unplaced _ isListed] at placed
    cases placed

/-- Files of different names settle the plan for the name of one. -/
theorem plan_settled_iff_single :
    FindsPath ascii twoNames "org/repo".toList "main".toList
        (some "Q8/model-Q8.gguf".toList) ∧
      OrderFree ascii twoNames "org/repo".toList "main".toList
        (some "Q8/model-Q8.gguf".toList) := by
  refine (plan_settled_iff ascii twoNames (by decide) "org/repo".toList
    "main".toList (some "Q8/model-Q8.gguf".toList)).mpr ?_
  have only : ∀ unit, Candidate ascii twoNames unit →
      unit.answers "Q8/model-Q8.gguf".toList →
        unit = .single (modelFile "Q8/model-Q8.gguf" 8) := by
    intro unit candidate answers
    obtain ⟨entry, isIn, rfl⟩ := candidate_twoNames candidate
    have named : ∀ entry ∈ twoNames,
        (FileUnit.single entry).answers "Q8/model-Q8.gguf".toList →
          entry = modelFile "Q8/model-Q8.gguf" 8 := by
      decide +kernel
    rw [named entry isIn answers]
  intro unit candidate answers
  rw [only unit candidate answers]
  exact ⟨fun _ _ isShard => absurd isShard nofun, only⟩

/-- The file of the other directory is planned, as it is listed first. -/
theorem other_directory_planned :
    (twoDirectories.map RawTreeEntry.path).Nodup ∧
      FileUnit.single (modelFile "Q8/model.gguf" 8) ∈
        unitsOf ascii twoDirectories ∧
      (planFileset ascii twoDirectories "org/repo".toList "main".toList
        (some "Q8/model.gguf".toList)).toOption.map FileSetPlan.entryRel =
          some "Q4/model.gguf".toList ∧
      ¬ FindsPath ascii twoDirectories "org/repo".toList "main".toList
        (some "Q8/model.gguf".toList) := by
  have isUnit : FileUnit.single (modelFile "Q8/model.gguf" 8) ∈
      unitsOf ascii twoDirectories := by decide +kernel
  have isOther : (planFileset ascii twoDirectories "org/repo".toList
      "main".toList (some "Q8/model.gguf".toList)).toOption.map
        FileSetPlan.entryRel = some "Q4/model.gguf".toList := by
    decide +kernel
  refine ⟨by decide, isUnit, isOther, fun finds => ?_⟩
  obtain ⟨plan, planned, isPath⟩ := finds _ isUnit _ rfl rfl
  rw [planned] at isOther
  have same := (Option.some.inj isOther).symm.trans isPath
  exact absurd same (by decide)

end Hal0.Registry.Fileset
