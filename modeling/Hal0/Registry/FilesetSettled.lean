import Hal0.Registry.FilesetUnits

/-!
# Plans and the order of a listing

The unit a plan is made for is found by its bare name, or by its bytes.  It
does not depend on the order of the listing just where the listing settles it:
where no two candidates answer to the requested variant, or one candidate
outweighs all others.
-/

namespace Hal0.Registry.Fileset

open List
open Hal0.Firsts
open Hal0.Registry.Pulls (Name baseName)

variable {tables : Unicode} {entries others : List RawTreeEntry}

/-! ## The unit by its bare name -/

section Variants

variable {variant : Name}

variable {unit : FileUnit}

theorem FileUnit.answers_iff :
    unit.answers variant ↔
      ∃ path, unit.headPath = some path ∧ baseName path = baseName variant := by
  rw [FileUnit.answers, Option.any_eq_true]
  refine exists_congr fun path => and_congr_right fun _ => ?_
  rw [Bool.or_eq_true, decide_eq_true_eq, decide_eq_true_eq]
  exact ⟨fun found => found.elim (congrArg baseName) id, Or.inr⟩

theorem Candidate.role_head {path : Name}
    (candidate : Candidate tables entries unit)
    (isHead : unit.headPath = some path) :
    roleOf tables path = if unit.isShard then .shard else .model := by
  cases candidate with
  | single isListed isModel =>
    cases isHead
    exact isModel
  | @shards key pick isPick =>
    obtain ⟨entry, isFirst, rfl⟩ := Option.map_eq_some_iff.mp isHead
    have isIn : entry ∈ pick.map Prod.snd := mem_of_head? isFirst
    obtain ⟨numbered, inPick, rfl⟩ := mem_map.mp isIn
    have placed := (isPick.drawn numbered inPick).2
    rw [shardPlace] at placed
    split at placed
    · next isShard => exact isShard
    · cases placed

theorem Candidate.same_kind {first second : FileUnit}
    (isFirst : Candidate tables entries first)
    (isSecond : Candidate tables entries second)
    (firstAnswers : first.answers variant)
    (secondAnswers : second.answers variant) :
    first.isShard = second.isShard := by
  obtain ⟨path, isHead, named⟩ := FileUnit.answers_iff.mp firstAnswers
  obtain ⟨other, isOther, named'⟩ := FileUnit.answers_iff.mp secondAnswers
  have same := @roleOf_congr tables _ _ (named.trans named'.symm)
  rw [isFirst.role_head isHead, isSecond.role_head isOther] at same
  cases ofFirst : first.isShard <;> cases ofSecond : second.isShard <;>
    simp_all

theorem Candidate.found (candidate : Candidate tables entries unit)
    (distinct : entries.Nodup) (answers : unit.answers variant) :
    ∃ others, entries.Perm others ∧
      (unitsOf tables others).find? (FileUnit.answers variant) =
        some unit := by
  obtain ⟨others, before, after, perm, whole, earlierShards⟩ :=
    candidate.favoured distinct
  refine ⟨others, perm, find?_eq_some_iff_append.mpr
    ⟨answers, before, after, whole, ?_⟩⟩
  intro earlier isEarlier
  by_contra earlierAnswers
  rw [Bool.not_eq_true', Bool.not_eq_false] at earlierAnswers
  have isUnit : earlier ∈ unitsOf tables others := by
    rw [whole]
    exact mem_append_left _ isEarlier
  have same := ((candidate_of_mem isUnit).perm perm.symm).same_kind candidate
    earlierAnswers answers
  obtain ⟨isShard, notShard⟩ := earlierShards earlier isEarlier
  exact notShard (same ▸ isShard)

/-- What answers to the variant is one candidate, which stands alone. -/
def SettledByName (tables : Unicode) (entries : List RawTreeEntry)
    (variant : Name) : Prop :=
  ∀ unit, Candidate tables entries unit → unit.answers variant →
    Alone tables entries unit ∧
      ∀ other, Candidate tables entries other → other.answers variant →
        other = unit

theorem SettledByName.find?_eq_some_iff
    (settled : SettledByName tables entries variant)
    (perm : entries.Perm others) :
    (unitsOf tables others).find? (FileUnit.answers variant) = some unit ↔
      Candidate tables entries unit ∧ unit.answers variant := by
  constructor
  · intro found
    exact ⟨(candidate_of_mem (mem_of_find?_eq_some found)).perm
      perm.symm, find?_some found⟩
  · rintro ⟨candidate, answers⟩
    obtain ⟨alone, unique⟩ := settled unit candidate answers
    have isUnit := candidate.mem_of_alone alone perm
    cases found : (unitsOf tables others).find? (FileUnit.answers variant) with
    | none =>
      exact absurd answers (find?_eq_none.mp found unit isUnit)
    | some other =>
      have isOther := (candidate_of_mem
        (mem_of_find?_eq_some found)).perm perm.symm
      rw [unique other isOther (find?_some found)]

/-- When a name settles the choice. -/
theorem settledByName_iff (distinct : entries.Nodup) :
    (∀ others, entries.Perm others →
      (unitsOf tables others).find? (FileUnit.answers variant) =
        (unitsOf tables entries).find? (FileUnit.answers variant)) ↔
      SettledByName tables entries variant := by
  constructor
  · intro steady unit candidate answers
    obtain ⟨_, perm, found⟩ := candidate.found distinct answers
    rw [steady _ perm] at found
    constructor
    · intro other isOther isShard same
      obtain ⟨_, before, after, perm, whole, earlierShards⟩ :=
        isOther.favoured distinct
      rw [← steady _ perm] at found
      have isUnit := mem_of_find?_eq_some found
      refine eq_of_key isUnit ?_ isShard same
      rw [whole]
      exact mem_append_right _ mem_cons_self
    · intro other isOther otherAnswers
      obtain ⟨_, perm, foundOther⟩ := isOther.found distinct otherAnswers
      rw [steady _ perm, found] at foundOther
      exact (Option.some.inj foundOther).symm
  · intro settled others perm
    ext unit
    rw [settled.find?_eq_some_iff perm,
      settled.find?_eq_some_iff (List.Perm.refl entries)]

end Variants

/-! ## The unit by its bytes -/

/-- A unit is taken before another one, wherever they stand. -/
def FileUnit.Outweighs (unit other : FileUnit) : Prop :=
  other.total < unit.total ∨
    (other.total = unit.total ∧ unit.isShard ∧ ¬ other.isShard)

/-- There is no candidate, or one outweighs all others and stands alone. -/
def SettledByBytes (tables : Unicode) (entries : List RawTreeEntry) : Prop :=
  (∀ unit, ¬ Candidate tables entries unit) ∨
    ∃ unit, Candidate tables entries unit ∧ Alone tables entries unit ∧
      ∀ other, Candidate tables entries other → other ≠ unit →
        unit.Outweighs other

theorem firstMax_units {unit : FileUnit}
    (candidate : Candidate tables entries unit)
    (alone : Alone tables entries unit)
    (heaviest : ∀ other, Candidate tables entries other → other ≠ unit →
      unit.Outweighs other) (perm : entries.Perm others) :
    firstMax FileUnit.total (unitsOf tables others) = some unit := by
  have isUnit := candidate.mem_of_alone alone perm
  cases taken : firstMax FileUnit.total (unitsOf tables others) with
  | none =>
    cases units : unitsOf tables others with
    | nil =>
      rw [units] at isUnit
      exact absurd isUnit not_mem_nil
    | cons first rest =>
      rw [units] at taken
      cases taken
  | some other =>
    have isBest := firstMax_eq_some_iff.mp taken
    by_contra differ
    rcases heaviest other ((candidate_of_mem isBest.mem).perm perm.symm)
      (fun same => differ (congrArg some same)) with
      less | ⟨same, isShard, notShard⟩
    · exact absurd (isBest.bound isUnit) (not_le.mpr less)
    · have inOrder := @unitsOf_ordered tables others
      obtain ⟨before, after, whole, lessBefore, -⟩ := isBest
      rw [whole] at isUnit inOrder
      rcases mem_append.mp isUnit with isBefore | isLater
      · exact absurd (lessBefore unit isBefore) (by rw [same]; simp)
      · rcases mem_cons.mp isLater with rfl | isAfter
        · exact notShard isShard
        · exact notShard ((pairwise_cons.mp
            (pairwise_append.mp inOrder).2.1).1 unit isAfter isShard)

theorem outweighs_of_favoured {unit other : FileUnit} {units : List FileUnit}
    {before after : List FileUnit}
    (isBest : IsFirstMax FileUnit.total units unit)
    (whole : units = before ++ other :: after) (differ : other ≠ unit)
    (earlierShards : ∀ earlier ∈ before, earlier.isShard ∧ ¬ other.isShard) :
    unit.Outweighs other := by
  have notMore : other.total ≤ unit.total := by
    refine isBest.bound ?_
    rw [whole]
    exact mem_append_right _ mem_cons_self
  have behind (isEarlier : unit ∈ before) : unit.Outweighs other := by
    rcases notMore.lt_or_eq with less | same
    · exact Or.inl less
    · exact Or.inr ⟨same, earlierShards unit isEarlier⟩
  obtain ⟨front, back, parts, lessFront, -⟩ := isBest
  rcases append_eq_append_iff.mp (whole.symm.trans parts) with
    ⟨between, frontIs, restIs⟩ | ⟨between, beforeIs, restIs⟩
  · cases between with
    | nil => exact absurd (List.cons.inj restIs).1 differ
    | cons head between =>
      obtain ⟨rfl, -⟩ := List.cons.inj restIs
      exact Or.inl (lessFront other (by simp [frontIs]))
  · cases between with
    | nil => exact absurd (List.cons.inj restIs).1.symm differ
    | cons head between =>
      obtain ⟨rfl, -⟩ := List.cons.inj restIs
      exact behind (by simp [beforeIs])

/-- When the bytes do. -/
theorem settledByBytes_iff (distinct : entries.Nodup) :
    (∀ others, entries.Perm others →
      firstMax FileUnit.total (unitsOf tables others) =
        firstMax FileUnit.total (unitsOf tables entries)) ↔
      SettledByBytes tables entries := by
  constructor
  · intro steady
    cases taken : firstMax FileUnit.total (unitsOf tables entries) with
    | none =>
      refine Or.inl fun unit candidate => ?_
      obtain ⟨_, before, after, perm, whole, -⟩ :=
        candidate.favoured distinct
      have isNone := (steady _ perm).trans taken
      rw [whole] at isNone
      cases before <;> cases isNone
    | some unit =>
      have isBest : ∀ others, entries.Perm others →
          IsFirstMax FileUnit.total (unitsOf tables others) unit :=
        fun others perm =>
          firstMax_eq_some_iff.mp ((steady others perm).trans taken)
      refine Or.inr ⟨unit,
        candidate_of_mem (isBest entries (List.Perm.refl _)).mem, ?_, ?_⟩
      · intro other isOther isShard same
        obtain ⟨others, before, after, perm, whole, -⟩ :=
          isOther.favoured distinct
        refine eq_of_key (isBest others perm).mem ?_ isShard same
        rw [whole]
        exact mem_append_right _ mem_cons_self
      · intro other isOther differ
        obtain ⟨others, before, after, perm, whole, earlierShards⟩ :=
          isOther.favoured distinct
        exact outweighs_of_favoured (isBest others perm) whole differ
          earlierShards
  · rintro (none | ⟨unit, candidate, alone, heaviest⟩) others perm
    · have empty : ∀ others, entries.Perm others →
          unitsOf tables others = [] := fun others perm =>
        eq_nil_iff_forall_not_mem.mpr fun unit isUnit =>
          none unit ((candidate_of_mem isUnit).perm perm.symm)
      rw [empty others perm, empty entries (List.Perm.refl entries)]
    · rw [firstMax_units candidate alone heaviest perm,
        firstMax_units candidate alone heaviest (List.Perm.refl entries)]

end Hal0.Registry.Fileset
