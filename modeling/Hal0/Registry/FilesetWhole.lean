import Hal0.Registry.FilesetOrder

/-!
# Whole shard sets

The shard group which a plan is made for is read off the listing: it is the
first whose first file has the requested name, or the first of the heaviest
which no single file outweighs.  Its files are numbered by their positions, so
that the plan holds a whole set just where the group does.
-/

namespace Hal0.Registry.Fileset

open List Option
open Hal0.Firsts
open Hal0.Groups
open Hal0.Latest
open Hal0.Registry.Pulls (Name baseName matchShard)

variable {tables : Unicode} {entries : List RawTreeEntry}

/-! ## What is listed -/

/--
What stands for a shard group or a model file in the listing: of an index,
the file listed last.
-/
inductive Listed (tables : Unicode) (entries : List RawTreeEntry) :
    FileUnit → Prop where
  | shards {key : ShardKey} {pick : List (Nat × RawTreeEntry)}
      (isPick : IsPick (shardPlace tables) entries key pick)
      (latest : ∀ numbered ∈ pick,
        IsLatest (fun other => shardPlace tables other =
          some (key, numbered.1)) entries numbered.2) :
      Listed tables entries (.shards key pick)
  | single {entry : RawTreeEntry} (isListed : entry ∈ entries)
      (isModel : roleOf tables entry.path = .model) :
      Listed tables entries (.single entry)

/-- The units, as sets of files. -/
theorem mem_unitsOf_iff_listed {unit : FileUnit} :
    unit ∈ unitsOf tables entries ↔ Listed tables entries unit := by
  constructor
  · intro isUnit
    rcases mem_unitsOf.mp isUnit with
      ⟨key, group, isGroup, rfl⟩ | ⟨entry, isListed, isModel, rfl⟩
    · exact .shards (isPick_ordered isGroup) fun numbered isIn =>
        (mem_group isGroup).mp (mem_ordered.mp isIn)
    · exact .single isListed isModel
  · intro listed
    cases listed with
    | single isListed isModel =>
      exact mem_unitsOf.mpr (Or.inr ⟨_, isListed, isModel, rfl⟩)
    | @shards key pick isPick latest =>
      obtain ⟨entry, isIn⟩ := exists_mem_of_ne_nil _ isPick.nonempty
      obtain ⟨isListed, placed⟩ := isPick.drawn entry isIn
      obtain ⟨⟨_, group⟩, isGroup, rfl⟩ := mem_map.mp
        ((mem_keys_groups entries key).mpr ⟨_, isListed, _, placed⟩)
      have same := isPick.eq_of_subset (isPick_ordered isGroup)
        fun numbered isIn => mem_ordered.mpr
          ((mem_group isGroup).mpr (latest numbered isIn))
      exact mem_unitsOf.mpr (Or.inl ⟨_, _, isGroup, by rw [same]⟩)

/-- A unit stands before the one of a shard group. -/
def Earlier (tables : Unicode) (entries : List RawTreeEntry)
    (key : ShardKey) : FileUnit → Prop
  | .shards other _ =>
    other ≠ key ∧ Before (shardPlace tables) entries other key
  | .single _ => False

theorem pairwise_earlier (entries : List RawTreeEntry) :
    (unitsOf tables entries).Pairwise fun first second =>
      ∀ key pick, second = .shards key pick →
        Earlier tables entries key first := by
  have inOrder := (@pairwise_before _ _ _ _ _ (shardPlace tables) entries).and
    (nodup_groups entries)
  rw [unitsOf, classify_eq, Classified.units, pairwise_append]
  refine ⟨pairwise_map.mpr ?_, pairwise_map.mpr ?_, ?_⟩
  · refine (pairwise_map.mp inOrder).imp ?_
    rintro first second ⟨isBefore, differ⟩ key pick ⟨⟩
    exact ⟨differ, isBefore⟩
  · exact pairwise_of_forall fun _ _ _ _ same => by cases same
  · intro first isGroup second isSingle
    obtain ⟨_, _, rfl⟩ := mem_map.mp isSingle
    intro key pick same
    cases same

theorem not_earlier_self {key : ShardKey} {pick : List (Nat × RawTreeEntry)} :
    ¬ Earlier tables entries key (.shards key pick) :=
  fun isEarlier => isEarlier.1 rfl

/-- What comes before a unit. -/
theorem unitsOf_split {key : ShardKey} {pick : List (Nat × RawTreeEntry)}
    (isUnit : .shards key pick ∈ unitsOf tables entries) :
    ∃ before after,
      unitsOf tables entries = before ++ .shards key pick :: after ∧
        ∀ other ∈ unitsOf tables entries,
          other ∈ before ↔ Earlier tables entries key other := by
  have inOrder := @pairwise_earlier tables entries
  obtain ⟨before, after, whole⟩ := append_of_mem isUnit
  rw [whole, pairwise_append, pairwise_cons] at inOrder
  have areEarlier : ∀ other ∈ before, Earlier tables entries key other :=
    fun other isBefore =>
      inOrder.2.2 other isBefore _ mem_cons_self _ _ rfl
  refine ⟨before, after, whole, fun other isIn =>
    ⟨areEarlier other, fun isEarlier => ?_⟩⟩
  rw [whole] at isIn
  rcases mem_append.mp isIn with isBefore | isLater
  · exact isBefore
  · rcases mem_cons.mp isLater with rfl | isAfter
    · exact absurd isEarlier not_earlier_self
    · cases other with
      | single => exact absurd isEarlier id
      | shards name files =>
        obtain ⟨_, isBefore⟩ := inOrder.2.1.1 _ isAfter _ _ rfl
        exact absurd (isEarlier.2.asymm isBefore) isEarlier.1

/-! ## The group which is planned for -/

/-- No listed unit is taken before the one of the shard group. -/
def Taken (tables : Unicode) (entries : List RawTreeEntry) (key : ShardKey)
    (unit : FileUnit) : Option Name → Prop
  | some (char :: rest) => unit.answers (char :: rest) ∧
      ∀ other, Listed tables entries other →
        Earlier tables entries key other → ¬ other.answers (char :: rest)
  | _ => ∀ other, Listed tables entries other →
      other.total ≤ unit.total ∧
        (Earlier tables entries key other → other.total < unit.total)

section Choices

variable {key : ShardKey} {pick : List (Nat × RawTreeEntry)}

theorem find?_shards_iff {answers : FileUnit → Bool}
    (isUnit : .shards key pick ∈ unitsOf tables entries) :
    (unitsOf tables entries).find? answers = some (.shards key pick) ↔
      answers (.shards key pick) ∧ ∀ other ∈ unitsOf tables entries,
        Earlier tables entries key other → ¬ answers other := by
  obtain ⟨before, after, whole, inFront⟩ := unitsOf_split isUnit
  have notBefore : FileUnit.shards key pick ∉ before := fun isBefore =>
    not_earlier_self ((inFront _ isUnit).mp isBefore)
  constructor
  · intro found
    refine ⟨find?_some found, fun other isIn isEarlier isAnswer => ?_⟩
    have isBefore := (inFront other isIn).mpr isEarlier
    obtain ⟨first, isFirst⟩ := isSome_iff_exists.mp
      (find?_isSome.mpr ⟨other, isBefore, isAnswer⟩)
    rw [whole, find?_append, isFirst, some_or] at found
    obtain rfl := some.inj found
    exact notBefore (mem_of_find?_eq_some isFirst)
  · rintro ⟨isAnswer, none⟩
    refine find?_eq_some_iff_append.mpr
      ⟨isAnswer, before, after, whole, fun other isBefore => ?_⟩
    have isIn : other ∈ unitsOf tables entries :=
      whole ▸ mem_append_left _ isBefore
    have notAnswer := none other isIn ((inFront other isIn).mp isBefore)
    simpa using notAnswer

theorem isFirstMax_shards_iff
    (isUnit : .shards key pick ∈ unitsOf tables entries) :
    IsFirstMax FileUnit.total (unitsOf tables entries) (.shards key pick) ↔
      ∀ other ∈ unitsOf tables entries,
        other.total ≤ (FileUnit.shards key pick).total ∧
          (Earlier tables entries key other →
            other.total < (FileUnit.shards key pick).total) := by
  obtain ⟨before, after, whole, inFront⟩ := unitsOf_split isUnit
  have notBefore : FileUnit.shards key pick ∉ before := fun isBefore =>
    not_earlier_self ((inFront _ isUnit).mp isBefore)
  constructor
  · intro isBest other isIn
    refine ⟨isBest.bound isIn, fun isEarlier => ?_⟩
    have isBefore := (inFront other isIn).mpr isEarlier
    obtain ⟨front, back, parts, less, -⟩ := isBest
    rcases append_eq_append_iff.mp (whole.symm.trans parts) with
      ⟨between, frontIs, -⟩ | ⟨between, beforeIs, restIs⟩
    · exact less other (by simp [frontIs, isBefore])
    · cases between with
      | nil => exact less other (by simpa [beforeIs] using isBefore)
      | cons head between =>
        obtain ⟨rfl, -⟩ := List.cons.inj restIs
        exact absurd (by simp [beforeIs]) notBefore
  · intro best
    refine ⟨before, after, whole, ?_, ?_⟩
    · intro other isBefore
      have isIn : other ∈ unitsOf tables entries :=
        whole ▸ mem_append_left _ isBefore
      exact (best other isIn).2 ((inFront other isIn).mp isBefore)
    · intro other isAfter
      exact (best other (by simp [whole, isAfter])).1

theorem chooseUnit_shards_iff {requestedVariant : Option Name} :
    chooseUnit (unitsOf tables entries) requestedVariant =
        some (.shards key pick) ↔
      Listed tables entries (.shards key pick) ∧
        Taken tables entries key (.shards key pick) requestedVariant := by
  have byBytes :
      firstMax FileUnit.total (unitsOf tables entries) =
          some (.shards key pick) ↔
        Listed tables entries (.shards key pick) ∧
          Taken tables entries key (.shards key pick) none := by
    simp only [firstMax_eq_some_iff, Taken, ← mem_unitsOf_iff_listed]
    exact ⟨fun isBest =>
        ⟨isBest.mem, (isFirstMax_shards_iff isBest.mem).mp isBest⟩,
      fun ⟨isUnit, best⟩ => (isFirstMax_shards_iff isUnit).mpr best⟩
  match requestedVariant with
  | none => exact byBytes
  | some [] => exact byBytes
  | some (char :: rest) =>
    rw [chooseUnit, Taken]
    simp only [← mem_unitsOf_iff_listed]
    constructor
    · intro found
      have isUnit := mem_of_find?_eq_some found
      exact ⟨isUnit, (find?_shards_iff isUnit).mp found⟩
    · rintro ⟨isUnit, first⟩
      exact (find?_shards_iff isUnit).mpr first

end Choices

/-! ## Whole sets -/

/-- The shards of a plan. -/
def FileSetPlan.shards (plan : FileSetPlan) : List FileSetEntry :=
  plan.files.filter fun file => file.role = .shard

/--
The shards of the plan are `1..tot` of one directory, stem and extension, each
under the index in its name, and the entry is the first.
-/
def WholePlan (tables : Unicode) (plan : FileSetPlan) : Prop :=
  ∃ (dir stem : Name) (tot : Nat) (ext : Name),
    plan.shards.map FileSetEntry.shardIndex =
      (List.range tot).map (fun earlier => some (earlier + 1)) ∧
    (∀ file ∈ plan.shards, dirname file.rel = dir ∧
      ∃ shard, matchShard tables.digit (baseName file.rel) = some shard ∧
        some shard.index = file.shardIndex ∧ shard.stem = stem ∧
          shard.total = tot ∧ shard.ext = ext) ∧
    plan.shards.head?.map FileSetEntry.rel = some plan.entryRel

/-- The listed indices are `1..tot`, and the files have one extension. -/
def WholeSet (tables : Unicode) (pick : List (Nat × RawTreeEntry)) : Prop :=
  ∃ (tot : Nat) (ext : Name),
    pick.map Prod.fst = (List.range tot).map (fun earlier => earlier + 1) ∧
    ∀ numbered ∈ pick, ∃ shard,
      matchShard tables.digit (baseName numbered.2.path) = some shard ∧
        shard.total = tot ∧ shard.ext = ext

theorem shardPlace_eq_some {entry : RawTreeEntry} {key : ShardKey}
    {number : Nat} (placed : shardPlace tables entry = some (key, number)) :
    ∃ shard, matchShard tables.digit (baseName entry.path) = some shard ∧
      dirname entry.path = key.1 ∧ shard.stem = key.2.1 ∧
        shard.index = number := by
  rw [shardPlace] at placed
  split at placed
  · obtain ⟨shard, isMatch, same⟩ := map_eq_some_iff.mp placed
    cases same
    exact ⟨shard, isMatch, rfl, rfl, rfl⟩
  · cases placed

section Plans

variable {repo revision : Name} {sorted : Classified}

theorem filter_carried {role : Role} (notShard : role ≠ .shard)
    (carried : List RawTreeEntry) :
    (carried.map fun entry => entry.planned role none).filter
      (fun file => file.role = .shard) = [] := by
  rw [filter_eq_nil_iff]
  intro file isIn
  obtain ⟨entry, _, rfl⟩ := mem_map.mp isIn
  rwa [decide_eq_true_eq]

theorem shards_planUnit (unit : FileUnit) :
    (planUnit tables sorted repo revision unit).shards =
      if unit.isShard then unit.files else [] := by
  have ofUnit : unit.files.filter (fun file => file.role = .shard) =
      if unit.isShard then unit.files else [] := by
    split
    · next isShard =>
        rw [filter_eq_self]
        intro file isIn
        simp [role_of_mem_files isIn, isShard]
    · next notShard =>
        rw [filter_eq_nil_iff]
        intro file isIn
        simp [role_of_mem_files isIn, notShard]
  have notTokenizer : Role.tokenizer ≠ .shard := nofun
  have notConfig : Role.config ≠ .shard := nofun
  rw [FileSetPlan.shards, planUnit]
  simp only [filter_append, ofUnit, filter_carried notTokenizer,
    filter_carried notConfig, append_nil]
  cases pairMmproj tables sorted.mmprojFiles unit.dirname
      (unit.headPath.getD []) with
  | none => exact append_nil _
  | some picked => exact append_nil _

theorem files_shards {key : ShardKey} {pick : List (Nat × RawTreeEntry)} :
    (FileUnit.shards key pick).files = pick.mapIdx fun position numbered =>
      numbered.2.planned .shard (some (position + 1)) := by
  rw [FileUnit.files, FileUnit.entries]
  refine ext_getElem (by simp) fun position _ _ => ?_
  simp [FileUnit.isShard]

/-- When a plan is a whole unit. -/
theorem wholePlan_iff {key : ShardKey} {pick : List (Nat × RawTreeEntry)}
    (isPick : IsPick (shardPlace tables) entries key pick)
    (sorted : Classified) :
    WholePlan tables
        (planUnit tables sorted repo revision (.shards key pick)) ↔
      WholeSet tables pick := by
  have isShard : (FileUnit.shards key pick).isShard := rfl
  have shards : (planUnit tables sorted repo revision
      (.shards key pick)).shards = pick.mapIdx fun position numbered =>
        numbered.2.planned .shard (some (position + 1)) := by
    rw [shards_planUnit, if_pos isShard, files_shards]
  have placed (position : Nat) (inside : position < pick.length) :=
    shardPlace_eq_some
      (isPick.drawn pick[position] (getElem_mem inside)).2
  rw [WholePlan, shards]
  constructor
  · rintro ⟨dir, stem, tot, ext, indices, named, -⟩
    have length : pick.length = tot := by
      simpa using congrArg List.length indices
    have ofFile (position : Nat) (inside : position < pick.length) :=
      (named _ (mem_mapIdx.mpr ⟨position, inside, rfl⟩)).2
    refine ⟨tot, ext, ext_getElem (by simp [length]) ?_, ?_⟩
    · intro position inPick _
      rw [length_map] at inPick
      obtain ⟨shard, isMatch, sameIndex, -⟩ := ofFile position inPick
      obtain ⟨other, isOther, -, -, index⟩ := placed position inPick
      rw [RawTreeEntry.planned] at isMatch sameIndex
      cases isMatch.symm.trans isOther
      rw [getElem_map, ← index, some.inj sameIndex]
      simp
    · intro numbered isIn
      obtain ⟨position, inside, rfl⟩ := getElem_of_mem isIn
      obtain ⟨shard, isMatch, -, -, total, extension⟩ :=
        ofFile position inside
      exact ⟨shard, isMatch, total, extension⟩
  · rintro ⟨tot, ext, numbers, named⟩
    have length : pick.length = tot := by
      simpa using congrArg List.length numbers
    refine ⟨key.1, key.2.1, tot, ext, ?_, ?_, ?_⟩
    · refine ext_getElem (by simp [length]) fun position _ _ => ?_
      simp [RawTreeEntry.planned]
    · intro file isIn
      obtain ⟨position, inside, rfl⟩ := mem_mapIdx.mp isIn
      obtain ⟨shard, isMatch, total, extension⟩ :=
        named _ (getElem_mem inside)
      obtain ⟨other, isOther, isDir, isStem, index⟩ := placed position inside
      cases isMatch.symm.trans isOther
      have number : pick[position].1 = position + 1 := by
        have same := getElem_of_eq numbers
          (i := position) (by simpa using inside)
        simpa using same
      exact ⟨isDir, shard, isMatch, by rw [index, number]; rfl, isStem, total,
        extension⟩
    · cases pick with
      | nil => exact absurd rfl isPick.nonempty
      | cons first rest =>
        rw [mapIdx_cons]
        rfl

end Plans

/--
A planned shard set is whole just where the one which the listing has for the
plan is.
-/
theorem plan_whole_iff (tables : Unicode) (entries : List RawTreeEntry)
    (repo revision : Name) (requestedVariant : Option Name) :
    (∀ plan,
      planFileset tables entries repo revision requestedVariant =
        .ok plan → plan.shards ≠ [] → WholePlan tables plan) ↔
      ∀ key pick, Listed tables entries (.shards key pick) →
        Taken tables entries key (.shards key pick) requestedVariant →
          WholeSet tables pick := by
  constructor
  · intro whole key pick listed taken
    have chosen := chooseUnit_shards_iff.mpr ⟨listed, taken⟩
    cases listed with
    | shards isPick _ =>
      refine (wholePlan_iff isPick _).mp
        (whole _ (planFileset_of_some chosen) ?_)
      have isShard : (FileUnit.shards key pick).isShard := rfl
      rw [shards_planUnit, if_pos isShard, files_shards]
      exact mt mapIdx_eq_nil_iff.mp isPick.nonempty
  · intro whole plan planned isShard
    cases chosen : chooseUnit (unitsOf tables entries) requestedVariant with
    | none =>
      rw [planFileset_of_none chosen] at planned
      cases planned
    | some unit =>
      rw [planFileset_of_some chosen] at planned
      obtain rfl := Except.ok.inj planned
      cases unit with
      | single => exact absurd (shards_planUnit _) isShard
      | shards key pick =>
        obtain ⟨listed, taken⟩ := chooseUnit_shards_iff.mp chosen
        have isWhole := whole key pick listed taken
        cases listed with
        | shards isPick _ => exact (wholePlan_iff isPick _).mpr isWhole

def secondShard : List RawTreeEntry :=
  [modelFile "model-00002-of-00003.gguf" 2]

/-- An incomplete set is planned, and its second shard as the first. -/
theorem incomplete_set_planned :
    (planFileset ascii secondShard "org/repo".toList "main".toList
        none).toOption.map (fun plan => plan.shards.map fun file =>
          (file.rel, file.shardIndex)) =
        some [("model-00002-of-00003.gguf".toList, some 1)] ∧
      ¬ ∀ plan,
        planFileset ascii secondShard "org/repo".toList "main".toList none =
          .ok plan → plan.shards ≠ [] → WholePlan ascii plan := by
  have isPlan : (planFileset ascii secondShard "org/repo".toList
      "main".toList none).toOption.map (fun plan =>
        plan.shards.map fun file => (file.rel, file.shardIndex)) =
      some [("model-00002-of-00003.gguf".toList, some 1)] := by
    decide +kernel
  have second : (matchShard ascii.digit (baseName
      "model-00002-of-00003.gguf".toList)).map Pulls.Shard.index =
        some 2 := by
    decide +kernel
  refine ⟨isPlan, fun whole => ?_⟩
  cases planned : planFileset ascii secondShard "org/repo".toList
      "main".toList none with
  | error reason =>
    rw [planned] at isPlan
    cases isPlan
  | ok plan =>
    rw [planned] at isPlan
    have isShard : plan.shards.map (fun file =>
        (file.rel, file.shardIndex)) =
          [("model-00002-of-00003.gguf".toList, some 1)] :=
      some.inj isPlan
    have nonempty : plan.shards ≠ [] := by
      intro isEmpty
      rw [isEmpty] at isShard
      cases isShard
    obtain ⟨_, _, _, _, -, named, -⟩ := whole plan planned nonempty
    obtain ⟨file, rest, isFile⟩ := exists_cons_of_ne_nil nonempty
    rw [isFile, map_cons, List.cons.injEq, Prod.mk.injEq] at isShard
    obtain ⟨shard, isMatch, sameIndex, -⟩ :=
      (named file (isFile ▸ mem_cons_self)).2
    rw [isShard.1.1] at isMatch
    rw [isMatch, map_some, sameIndex, isShard.1.2] at second
    exact absurd second (by decide)

end Hal0.Registry.Fileset
