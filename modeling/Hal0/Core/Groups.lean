import Hal0.Core.Latest
import Mathlib.Data.List.Induction
import Mathlib.Data.List.Sort

/-!
# Numbered groups of a list

Some elements of a list have a place: a group, and a number in it.  The
groups are collected in a dictionary of dictionaries, in which a later element
of a place replaces an earlier one, and each group is read by its numbers.

What is read of a group is a pick: one element for each number of the group.
The order of the list decides which pick it is, and any pick of a group is
what is read of it in some order of the list, in which the group comes first.
-/

namespace Hal0.Groups

open List Option
open Hal0.Latest

variable {Key Number Field : Type*} {Element : Type}

/-! ## Dictionaries in the order of insertion -/

section Dictionaries

variable [DecidableEq Key]

/-- `dict[key] = value` -/
def put : List (Key × Field) → Key → Field → List (Key × Field)
  | [], key, value => [(key, value)]
  | entry :: rest, key, value =>
    if entry.1 = key then (key, value) :: rest
    else entry :: put rest key value

/-- `dict.get(key)` -/
def find : List (Key × Field) → Key → Option Field
  | [], _ => none
  | entry :: rest, key => if entry.1 = key then some entry.2 else find rest key

theorem find_put (entries : List (Key × Field)) (key name : Key)
    (value : Field) :
    find (put entries key value) name =
      if key = name then some value else find entries name := by
  induction entries with
  | nil => rfl
  | cons entry rest ih =>
    rw [put]
    by_cases isKey : entry.1 = key
    · rw [if_pos isKey, find, find, isKey]
      by_cases same : key = name
      · rw [if_pos same, if_pos same]
      · rw [if_neg same, if_neg same, if_neg same]
    · rw [if_neg isKey, find, find, ih]
      by_cases isName : entry.1 = name
      · rw [if_pos isName, if_pos isName,
          if_neg fun same => isKey (isName.trans same.symm)]
      · rw [if_neg isName, if_neg isName]

variable {entries : List (Key × Field)} {key : Key}

theorem keys_put_of_mem (isIn : key ∈ entries.map Prod.fst) (value : Field) :
    (put entries key value).map Prod.fst = entries.map Prod.fst := by
  induction entries with
  | nil => exact absurd isIn not_mem_nil
  | cons entry rest ih =>
    rw [put]
    by_cases isKey : entry.1 = key
    · rw [if_pos isKey, map_cons, map_cons, isKey]
    · rw [if_neg isKey, map_cons, map_cons, ih
        ((mem_cons.mp isIn).resolve_left (Ne.symm isKey))]

theorem put_of_not_mem (isNew : key ∉ entries.map Prod.fst) (value : Field) :
    put entries key value = entries ++ [(key, value)] := by
  induction entries with
  | nil => rfl
  | cons entry rest ih =>
    rw [map_cons, mem_cons, not_or] at isNew
    rw [put, if_neg (Ne.symm isNew.1), ih isNew.2,
      cons_append]

theorem nodup_put (distinct : (entries.map Prod.fst).Nodup) (key : Key)
    (value : Field) :
    ((put entries key value).map Prod.fst).Nodup := by
  by_cases isIn : key ∈ entries.map Prod.fst
  · rw [keys_put_of_mem isIn]
    exact distinct
  · rw [put_of_not_mem isIn, map_append, nodup_append]
    refine ⟨distinct, nodup_singleton _, ?_⟩
    rintro first isFirst second isSecond rfl
    rw [map_cons, map_nil, mem_singleton] at isSecond
    subst isSecond
    exact isIn isFirst

theorem find_eq_some_iff (distinct : (entries.map Prod.fst).Nodup)
    {value : Field} :
    find entries key = some value ↔ (key, value) ∈ entries := by
  induction entries with
  | nil => simp [find]
  | cons entry rest ih =>
    rw [map_cons, nodup_cons] at distinct
    rw [find, mem_cons]
    by_cases isKey : entry.1 = key
    · rw [if_pos isKey]
      constructor
      · rintro ⟨⟩
        exact Or.inl (isKey ▸ rfl)
      · rintro (rfl | isLater)
        · rfl
        · exact absurd (mem_map_of_mem isLater) (isKey ▸ distinct.1)
    · rw [if_neg isKey, ih distinct.2]
      constructor
      · exact Or.inr
      · rintro (rfl | isLater)
        · exact absurd rfl isKey
        · exact isLater

theorem find_eq_none_iff :
    find entries key = none ↔ key ∉ entries.map Prod.fst := by
  induction entries with
  | nil => simp [find]
  | cons entry rest ih =>
    rw [find, map_cons, mem_cons, not_or]
    by_cases isKey : entry.1 = key
    · simp [isKey]
    · rw [if_neg isKey, ih]
      exact ⟨fun isNot => ⟨Ne.symm isKey, isNot⟩, And.right⟩

theorem find_perm {others : List (Key × Field)} (perm : entries.Perm others)
    (distinct : (entries.map Prod.fst).Nodup)
    (key : Key) : find entries key = find others key := by
  have apart : (others.map Prod.fst).Nodup :=
    (perm.map Prod.fst).nodup_iff.mp distinct
  ext value
  rw [find_eq_some_iff distinct, find_eq_some_iff apart, perm.mem_iff]

end Dictionaries

/-! ## Groups -/

variable [DecidableEq Key] [DecidableEq Number]
variable (place : Element → Option (Key × Number))

/-- `groups.setdefault(key, {})[number] = element` -/
def add (groups : List (Key × List (Number × Element))) (element : Element) :
    List (Key × List (Number × Element)) :=
  match place element with
  | none => groups
  | some (key, number) =>
    put groups key (put ((find groups key).getD []) number element)

/-- The elements by key, in the order of their first. -/
def groups (elements : List Element) :
    List (Key × List (Number × Element)) :=
  elements.foldl (add place) []

variable {place}

section

variable (elements : List Element)
include elements

theorem groups_concat (element : Element) :
    groups place (elements ++ [element]) =
      add place (groups place elements) element := by
  rw [groups, foldl_append, foldl_cons, foldl_nil, groups]

theorem nodup_groups :
    ((groups place elements).map Prod.fst).Nodup := by
  induction elements using List.reverseRecOn with
  | nil => exact nodup_nil
  | append_singleton elements element ih =>
    rw [groups_concat, add]
    split
    · exact ih
    · exact nodup_put ih _ _

theorem nodup_numbers (key : Key) :
    (((find (groups place elements) key).getD []).map Prod.fst).Nodup := by
  induction elements using List.reverseRecOn with
  | nil => exact nodup_nil
  | append_singleton elements element ih =>
    rw [groups_concat, add]
    split
    · exact ih
    · next other number placed =>
        rw [find_put]
        by_cases same : other = key
        · subst same
          rw [if_pos rfl]
          exact nodup_put ih _ _
        · rw [if_neg same]
          exact ih

/-- Of a place the last element counts. -/
theorem find_groups (key : Key) (number : Number) (element : Element) :
    find ((find (groups place elements) key).getD []) number = some element ↔
      IsLatest (fun other => place other = some (key, number)) elements
        element := by
  induction elements using List.reverseRecOn with
  | nil =>
    refine ⟨nofun, fun latest => ?_⟩
    exact absurd latest.mem not_mem_nil
  | append_singleton elements last ih =>
    rw [groups_concat, isLatest_concat, ← ih, add]
    cases placed : place last with
    | none => simp
    | some at' =>
      obtain ⟨other, index⟩ := at'
      rw [find_put]
      by_cases same : other = key
      · subst same
        rw [if_pos rfl, getD_some, find_put]
        by_cases sameNumber : index = number
        · subst sameNumber
          simp [eq_comm]
        · simp [sameNumber]
      · rw [if_neg same]
        simp [same]

/-- The keys are those of some element. -/
theorem mem_keys_groups (key : Key) :
    key ∈ (groups place elements).map Prod.fst ↔
      ∃ element ∈ elements, ∃ number, place element = some (key, number) := by
  induction elements using List.reverseRecOn with
  | nil => simp [groups]
  | append_singleton elements last ih =>
    have extended : (key ∈ (add place (groups place elements) last).map
        Prod.fst) ↔ key ∈ (groups place elements).map Prod.fst ∨
          ∃ number, place last = some (key, number) := by
      rw [add]
      cases placed : place last with
      | none => simp
      | some at' =>
        obtain ⟨other, index⟩ := at'
        simp only
        by_cases isIn : other ∈ (groups place elements).map Prod.fst
        · rw [keys_put_of_mem isIn]
          refine ⟨Or.inl, ?_⟩
          rintro (isKey | ⟨number, same⟩)
          · exact isKey
          · cases same
            exact isIn
        · rw [put_of_not_mem isIn, map_append, mem_append]
          simp [eq_comm]
    rw [groups_concat, extended, ih]
    constructor
    · rintro (⟨element, isIn, placed⟩ | placed)
      · exact ⟨element, mem_append_left _ isIn, placed⟩
      · exact ⟨last, by simp, placed⟩
    · rintro ⟨element, isIn, placed⟩
      rcases mem_append.mp isIn with isEarlier | isLast
      · exact Or.inl ⟨element, isEarlier, placed⟩
      · rw [mem_singleton] at isLast
        exact Or.inr (isLast ▸ placed)

end

/-! ## The order of the groups -/

/-- A group begins before any element of another one. -/
def Before (place : Element → Option (Key × Number))
    (elements : List Element) (first second : Key) : Prop :=
  ∃ front element back, elements = front ++ element :: back ∧
    (∃ number, place element = some (first, number)) ∧
      ∀ other ∈ front, ∀ number, place other ≠ some (second, number)

omit [DecidableEq Key] [DecidableEq Number] in
/-- Two keys do not come before each other. -/
theorem Before.asymm {elements : List Element} {first second : Key}
    (isBefore : Before place elements first second)
    (isAfter : Before place elements second first) : first = second := by
  obtain ⟨front, element, back, rfl, ⟨number, placed⟩, none⟩ := isBefore
  obtain ⟨front', other, back', whole, ⟨index, placed'⟩, none'⟩ := isAfter
  rcases append_eq_append_iff.mp whole with
    ⟨between, frontIs, restIs⟩ | ⟨between, frontIs, restIs⟩
  · cases between with
    | nil =>
      rw [(List.cons.inj restIs).1, placed'] at placed
      exact (congrArg Prod.fst (some.inj placed)).symm
    | cons head between =>
      obtain ⟨rfl, -⟩ := List.cons.inj restIs
      exact absurd placed (none' element (by simp [frontIs]) number)
  · cases between with
    | nil =>
      rw [(List.cons.inj restIs).1, placed] at placed'
      exact congrArg Prod.fst (some.inj placed')
    | cons head between =>
      obtain ⟨rfl, -⟩ := List.cons.inj restIs
      exact absurd placed' (none other (by simp [frontIs]) index)

/-- The keys are in the order of their first. -/
theorem pairwise_before (elements : List Element) :
    ((groups place elements).map Prod.fst).Pairwise
      (Before place elements) := by
  induction elements using List.reverseRecOn with
  | nil => exact List.Pairwise.nil
  | append_singleton elements last ih =>
    have extended := ih.imp
      (S := Before place (elements ++ [last])) <| by
        rintro first second ⟨front, element, back, whole, placed, none⟩
        exact ⟨front, element, back ++ [last], by simp [whole], placed,
          none⟩
    rw [groups_concat, add]
    split
    · exact extended
    · next key number placed =>
        by_cases isIn : key ∈ (groups place elements).map Prod.fst
        · rw [keys_put_of_mem isIn]
          exact extended
        · rw [put_of_not_mem isIn, map_append, pairwise_append]
          refine ⟨extended, pairwise_singleton _ _, ?_⟩
          intro first isFirst second isSecond
          obtain rfl := mem_singleton.mp isSecond
          obtain ⟨element, isListed, placed'⟩ :=
            (mem_keys_groups elements first).mp isFirst
          obtain ⟨front, back, rfl⟩ := append_of_mem isListed
          refine ⟨front, element, back ++ [last], by simp, placed', ?_⟩
          intro other isOther index placedOther
          exact isIn ((mem_keys_groups _ _).mpr
            ⟨other, by simp [isOther], index, placedOther⟩)

/-! ## Picks -/

section Picks

variable {place : Element → Option (Key × Nat)}

/-- The entries of a group, by their numbers. -/
def ordered (group : List (Nat × Element)) : List (Nat × Element) :=
  group.insertionSort fun first second => first.1 ≤ second.1

/-- One element for each number of a group, in the order of the numbers. -/
structure IsPick (place : Element → Option (Key × Nat))
    (elements : List Element) (key : Key) (pick : List (Nat × Element)) :
    Prop where
  nonempty : pick ≠ []
  rising : pick.Pairwise fun first second => first.1 < second.1
  drawn : ∀ entry ∈ pick,
    entry.2 ∈ elements ∧ place entry.2 = some (key, entry.1)
  full : ∀ element ∈ elements, ∀ number,
    place element = some (key, number) → number ∈ pick.map Prod.fst

omit [DecidableEq Key] in
theorem IsPick.perm {elements others : List Element} {key : Key}
    {pick : List (Nat × Element)} (isPick : IsPick place elements key pick)
    (perm : elements.Perm others) : IsPick place others key pick where
  nonempty := isPick.nonempty
  rising := isPick.rising
  drawn := fun entry isIn =>
    ⟨perm.mem_iff.mp (isPick.drawn entry isIn).1, (isPick.drawn entry isIn).2⟩
  full := fun element isIn => isPick.full element (perm.mem_iff.mpr isIn)

variable {elements : List Element} {key : Key}
  {pick other : List (Nat × Element)}

omit [DecidableEq Key] in
theorem IsPick.nodup_numbers (isPick : IsPick place elements key pick) :
    (pick.map Prod.fst).Nodup :=
  (isPick.rising.map Prod.fst fun _ _ isLess => isLess).imp ne_of_lt

omit [DecidableEq Key] in
theorem IsPick.unique (isPick : IsPick place elements key pick)
    {number : Nat} {first second : Element} (isFirst : (number, first) ∈ pick)
    (isSecond : (number, second) ∈ pick) : first = second :=
  congrArg Prod.snd
    (inj_on_of_nodup_map isPick.nodup_numbers isFirst isSecond rfl)

omit [DecidableEq Key] in
/-- No pick lies in another. -/
theorem IsPick.eq_of_subset (isPick : IsPick place elements key pick)
    (isOther : IsPick place elements key other) (subset : pick ⊆ other) :
    pick = other := by
  have superset : other ⊆ pick := by
    intro entry isIn
    obtain ⟨isListed, placed⟩ := isOther.drawn entry isIn
    obtain ⟨⟨number, element⟩, inPick, rfl⟩ :=
      mem_map.mp (isPick.full entry.2 isListed entry.1 placed)
    have same : element = entry.2 := isOther.unique (subset inPick) isIn
    rwa [same] at inPick
  have perm : pick.Perm other :=
    (perm_ext_iff_of_nodup isPick.nodup_numbers.of_map
      isOther.nodup_numbers.of_map).mpr
        fun entry => ⟨fun isIn => subset isIn, fun isIn => superset isIn⟩
  refine perm.eq_of_pairwise ?_ isPick.rising isOther.rising
  intro first second _ _ isLess isMore
  exact absurd (isLess.trans isMore) (lt_irrefl _)

variable {element : Element}

omit [DecidableEq Key] in
theorem IsPick.key_of_mem (isPick : IsPick place elements key pick)
    (isIn : element ∈ pick.map Prod.snd) :
    (place element).map Prod.fst = some key := by
  obtain ⟨entry, inPick, rfl⟩ := mem_map.mp isIn
  rw [(isPick.drawn entry inPick).2]
  rfl

omit [DecidableEq Key] in
theorem IsPick.nodup_elements (isPick : IsPick place elements key pick) :
    (pick.map Prod.snd).Nodup := by
  refine List.Nodup.map_on ?_ isPick.nodup_numbers.of_map
  intro first isFirst second isSecond same
  have placed := (isPick.drawn first isFirst).2
  rw [same, (isPick.drawn second isSecond).2, some.injEq,
    Prod.mk.injEq] at placed
  exact Prod.ext placed.2.symm same

variable {group : List (Nat × Element)}

theorem mem_ordered {entry : Nat × Element} :
    entry ∈ ordered group ↔ entry ∈ group :=
  mem_insertionSort _

theorem ordered_rising (distinct : (group.map Prod.fst).Nodup) :
    (ordered group).Pairwise fun first second => first.1 < second.1 := by
  have sorted : (ordered group).Pairwise fun first second =>
      first.1 ≤ second.1 := by
    have : Std.Total fun first second : Nat × Element =>
        first.1 ≤ second.1 := ⟨fun first second => le_total first.1 second.1⟩
    have : IsTrans (Nat × Element) fun first second =>
        first.1 ≤ second.1 := ⟨fun _ _ _ => le_trans⟩
    exact pairwise_insertionSort _ group
  have apart : ((ordered group).map Prod.fst).Nodup :=
    ((perm_insertionSort _ group).map Prod.fst).nodup_iff.mpr distinct
  exact (sorted.and (pairwise_map.mp apart)).imp
    fun both => lt_of_le_of_ne both.1 both.2

theorem mem_group (isGroup : (key, group) ∈ groups place elements)
    {number : Nat} :
    (number, element) ∈ group ↔
      IsLatest (fun other => place other = some (key, number)) elements
        element := by
  have found := (find_eq_some_iff (nodup_groups elements)).mpr isGroup
  have distinct := @nodup_numbers _ _ _ _ _ place elements key
  rw [← find_groups, found, getD_some] at *
  exact (find_eq_some_iff distinct).symm

/-- A group in its order is the pick. -/
theorem isPick_ordered (isGroup : (key, group) ∈ groups place elements) :
    IsPick place elements key (ordered group) := by
  have found := (find_eq_some_iff (nodup_groups elements)).mpr isGroup
  have distinct : (group.map Prod.fst).Nodup := by
    have apart := @nodup_numbers _ _ _ _ _ place elements key
    rwa [found, getD_some] at apart
  have covers : ∀ element ∈ elements, ∀ number,
      place element = some (key, number) →
        number ∈ (ordered group).map Prod.fst := by
    intro element isIn number placed
    rcases exists_isLatest
        (fun other => place other = some (key, number)) elements with
      none | ⟨last, latest⟩
    · exact absurd placed (none element isIn)
    · exact mem_map.mpr
        ⟨(number, last), mem_ordered.mpr ((mem_group isGroup).mpr latest), rfl⟩
  refine ⟨?_, ordered_rising distinct, ?_, covers⟩
  · obtain ⟨element, isIn, number, placed⟩ :=
      (mem_keys_groups elements key).mp (mem_map_of_mem isGroup)
    exact ne_nil_of_mem
      (mem_map.mp (covers element isIn number placed)).choose_spec.1
  · rintro ⟨number, element⟩ isIn
    have latest := (mem_group isGroup).mp (mem_ordered.mp isIn)
    exact ⟨latest.mem, latest.holds⟩

/-! ## Orders of the list -/

/-- The first element has the first group. -/
theorem groups_cons {first : Element} {number : Nat}
    (placed : place first = some (key, number)) (rest : List Element) :
    ∃ group later, groups place (first :: rest) = (key, group) :: later := by
  induction rest using List.reverseRecOn with
  | nil =>
    refine ⟨[(number, first)], [], ?_⟩
    rw [groups, foldl_cons, foldl_nil, add, placed]
    rfl
  | append_singleton rest last ih =>
    obtain ⟨group, later, known⟩ := ih
    rw [← cons_append, groups_concat, known, add]
    split
    · exact ⟨group, later, rfl⟩
    · next other index _ =>
        rw [put]
        split
        · next same => exact ⟨_, later, by rw [← same]⟩
        · exact ⟨group, _, rfl⟩

/-- The list with a pick at its front, behind what else the group has. -/
def favouring [DecidableEq Element] (place : Element → Option (Key × Nat))
    (key : Key) (pick : List (Nat × Element)) (elements : List Element) :
    List Element :=
  elements.filter (fun element =>
    (place element).map Prod.fst = some key ∧
      element ∉ pick.map Prod.snd) ++ pick.map Prod.snd ++
    elements.filter fun element => (place element).map Prod.fst ≠ some key

variable [DecidableEq Element]

/-- Favouring a key is an order. -/
theorem favouring_perm (isPick : IsPick place elements key pick)
    (distinct : elements.Nodup) :
    elements.Perm (favouring place key pick elements) := by
  have chosen : (pick.map Prod.snd).Perm (elements.filter fun element =>
      element ∈ pick.map Prod.snd) := by
    refine (perm_ext_iff_of_nodup isPick.nodup_elements
      (distinct.filter _)).mpr fun element => ?_
    rw [mem_filter, decide_eq_true_eq]
    refine ⟨fun isIn => ⟨?_, isIn⟩, And.right⟩
    obtain ⟨entry, inPick, rfl⟩ := mem_map.mp isIn
    exact (isPick.drawn entry inPick).1
  rw [favouring]
  refine (perm_ext_iff_of_nodup distinct ?_).mpr fun element => ?_
  · refine ((distinct.filter _).append isPick.nodup_elements ?_).append
      (distinct.filter _) ?_
    · intro element isOther isPicked
      have differ := (mem_filter.mp isOther).2
      simp only [decide_eq_true_eq] at differ
      exact differ.2 isPicked
    · intro element isOfKey isNot
      have differ := (mem_filter.mp isNot).2
      simp only [ne_eq, decide_not, Bool.not_eq_eq_eq_not, Bool.not_true,
        decide_eq_false_iff_not] at differ
      rcases mem_append.mp isOfKey with isOther | isPicked
      · have ofKey := (mem_filter.mp isOther).2
        simp only [decide_eq_true_eq] at ofKey
        exact differ ofKey.1
      · exact differ (isPick.key_of_mem isPicked)
  · simp only [mem_append, mem_filter, decide_eq_true_eq]
    constructor
    · intro isIn
      by_cases ofKey : (place element).map Prod.fst = some key
      · by_cases isPicked : element ∈ pick.map Prod.snd
        · exact Or.inl (Or.inr isPicked)
        · exact Or.inl (Or.inl ⟨isIn, ofKey, isPicked⟩)
      · exact Or.inr ⟨isIn, ofKey⟩
    · rintro ((isOther | isPicked) | isOther)
      · exact isOther.1
      · exact (mem_filter.mp (chosen.mem_iff.mp isPicked)).1
      · exact isOther.1

theorem isLatest_favouring (isPick : IsPick place elements key pick)
    {number : Nat} (isPicked : (number, element) ∈ pick) :
    IsLatest (fun other => place other = some (key, number))
      (favouring place key pick elements) element := by
  have placed := (isPick.drawn _ isPicked).2
  obtain ⟨before, after, whole⟩ := append_of_mem isPicked
  have none : ∀ other ∈ after.map Prod.snd,
      place other ≠ some (key, number) := by
    intro other isLater same
    obtain ⟨⟨index, found⟩, isAfter, rfl⟩ := mem_map.mp isLater
    have inPick : (index, found) ∈ pick := by
      rw [whole]
      exact mem_append_right _ (mem_cons_of_mem _ isAfter)
    have rising := isPick.rising
    rw [whole, pairwise_append, pairwise_cons] at rising
    have less : number < index := rising.2.1.1 _ isAfter
    rw [(isPick.drawn _ inPick).2] at same
    cases same
    exact lt_irrefl _ less
  have latest : IsLatest (fun other => place other = some (key, number))
      (pick.map Prod.snd) element := by
    refine ⟨before.map Prod.snd, after.map Prod.snd, ?_, placed, none⟩
    rw [whole, map_append, map_cons]
  rw [favouring]
  refine (latest.prepend _).append ?_
  intro other isOther same
  have differ := (mem_filter.mp isOther).2
  rw [same] at differ
  simp at differ

/-- The favoured key comes first, with its pick. -/
theorem groups_favouring (isPick : IsPick place elements key pick)
    (distinct : elements.Nodup) :
    ∃ group later,
      groups place (favouring place key pick elements) =
        (key, group) :: later ∧ ordered group = pick := by
  obtain ⟨group, later, known⟩ : ∃ group later,
      groups place (favouring place key pick elements) =
        (key, group) :: later := by
    obtain ⟨first, front, shape⟩ := exists_cons_of_ne_nil
      (append_ne_nil_of_right_ne_nil
        (elements.filter fun element =>
          (place element).map Prod.fst = some key ∧
            element ∉ pick.map Prod.snd)
        (mt map_eq_nil_iff.mp isPick.nonempty :
          pick.map Prod.snd ≠ []))
    have ofKey : (place first).map Prod.fst = some key := by
      have isFirst := mem_cons_self (a := first) (l := front)
      rw [← shape] at isFirst
      rcases mem_append.mp isFirst with isOther | isPicked
      · have isOfKey := (mem_filter.mp isOther).2
        simp only [decide_eq_true_eq] at isOfKey
        exact isOfKey.1
      · exact isPick.key_of_mem isPicked
    obtain ⟨⟨_, number⟩, placed, rfl⟩ := map_eq_some_iff.mp ofKey
    rw [favouring, shape, cons_append]
    exact groups_cons placed _
  refine ⟨group, later, known, ?_⟩
  have isGroup : (key, group) ∈ groups place
      (favouring place key pick elements) := by
    rw [known]
    exact mem_cons_self
  refine Eq.symm ((isPick.perm (favouring_perm isPick distinct)).eq_of_subset
    (isPick_ordered isGroup) ?_)
  rintro ⟨number, element⟩ isPicked
  exact mem_ordered.mpr
    ((mem_group isGroup).mpr (isLatest_favouring isPick isPicked))

end Picks

end Hal0.Groups
