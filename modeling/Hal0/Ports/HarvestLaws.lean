import Hal0.Ports.Harvest
import Mathlib.Data.Finset.Card
import Mathlib.Data.List.Dedup
import Mathlib.Data.List.Pairwise

/-!
# The answers of the harvester

The answers are right for the claims which were collected: sorting them and
keeping one of each key loses no port, no owner and no group.
-/

namespace Hal0.Ports.Harvest

open List
open Hal0.Uniq

variable {claims others : List PortClaim} {port : Int} {owner : String}

/-! ## Claims which are alike -/

/-- The first claim of each key is the same. -/
def Alike (claims others : List PortClaim) : Prop :=
  ∀ key, claims.find? (fun claim => claim.key = key) =
    others.find? fun claim => claim.key = key

section

variable (alike : Alike claims others)
include alike

theorem Alike.symm : Alike others claims :=
  fun key => (alike key).symm

theorem Alike.trans {third : List PortClaim}
    (next : Alike others third) : Alike claims third :=
  fun key => (alike key).trans (next key)

theorem Alike.append {more rest : List PortClaim} (later : Alike more rest) :
    Alike (claims ++ more) (others ++ rest) := by
  intro key
  rw [find?_append, find?_append, alike key, later key]

theorem Alike.has {key : Int × String × Source}
    (isIn : ∃ claim ∈ claims, claim.key = key) :
    ∃ claim ∈ others, claim.key = key := by
  have found : (others.find? fun claim => claim.key = key).isSome := by
    rw [← alike key, find?_isSome]
    simpa using isIn
  simpa using find?_isSome.mp found

theorem Alike.used (used : Used claims port) :
    Used others port := by
  obtain ⟨claim, isIn, rfl⟩ := used
  obtain ⟨other, otherIn, same⟩ := alike.has ⟨claim, isIn, rfl⟩
  exact ⟨other, otherIn, congrArg (·.1) same⟩

/-- Alike claims have the same owners. -/
theorem Alike.owns
    (owns : Owns claims port owner) : Owns others port owner := by
  rcases owns with ⟨claim, isIn, rfl, rfl, named⟩ |
    ⟨unnamed, claim, isIn, rfl, rfl⟩
  · obtain ⟨other, otherIn, same⟩ := alike.has ⟨claim, isIn, rfl⟩
    refine Or.inl ⟨other, otherIn, congrArg (·.1) same,
      congrArg (·.2.1) same, ?_⟩
    exact fun isListener => named ((congrArg (·.2.2) same).symm.trans isListener)
  · obtain ⟨other, otherIn, same⟩ := alike.has ⟨claim, isIn, rfl⟩
    refine Or.inr ⟨?_, other, otherIn, congrArg (·.1) same,
      congrArg (·.2.1) same⟩
    intro third thirdIn onPort
    obtain ⟨first, firstIn, alikeFirst⟩ := alike.symm.has ⟨third, thirdIn, rfl⟩
    have listens := unnamed first firstIn
      ((congrArg (·.1) alikeFirst).trans onPort)
    exact (congrArg (·.2.2) alikeFirst).symm.trans listens

theorem Alike.owns_iff :
    Owns claims port owner ↔ Owns others port owner :=
  ⟨alike.owns, alike.symm.owns⟩

theorem Alike.coresident :
    coresident claims port owner = coresident others port owner := by
  simp only [Harvest.coresident, firstGroup, alike _]

theorem Alike.contested_iff :
    Contested claims port ↔ Contested others port := by
  simp only [Contested, alike.owns_iff, alike.coresident]

theorem Alike.lowest {start stop : Int} {answer : Option Int}
    (lowest : Lowest claims start stop answer) :
    Lowest others start stop answer := by
  cases answer with
  | none =>
    intro port fromStart toStop
    exact alike.used (lowest port fromStart toStop)
  | some free =>
    obtain ⟨fromStart, toStop, unused, below⟩ := lowest
    refine ⟨fromStart, toStop, fun used => unused (alike.symm.used used), ?_⟩
    intro port portStart portBelow
    exact alike.used (below port portStart portBelow)

end

/-! ## Sorting and keeping one of each key -/

/-- The claims are sorted, and of each key there is one. -/
def Ordered (claims : List PortClaim) : Prop :=
  claims.Pairwise fun first second =>
    first.rank ≤ second.rank ∧ first.key ≠ second.key

/-- Only the claims of slots have a group. -/
def Grouped (claims : List PortClaim) : Prop :=
  ∀ claim ∈ claims, claim.group.isSome →
    claim.source = .slotConfig ∨ claim.source = .slotRuntime

theorem rank_trans (first second third : PortClaim)
    (below : decide (first.rank ≤ second.rank) = true)
    (next : decide (second.rank ≤ third.rank) = true) :
    decide (first.rank ≤ third.rank) = true := by
  rw [decide_eq_true_eq] at below next ⊢
  exact below.trans next

theorem rank_total (first second : PortClaim) :
    (decide (first.rank ≤ second.rank) ||
      decide (second.rank ≤ first.rank)) = true := by
  rw [Bool.or_eq_true, decide_eq_true_eq, decide_eq_true_eq]
  exact le_total first.rank second.rank

theorem rank_eq_of_key_eq {first second : PortClaim}
    (same : first.key = second.key) : first.rank = second.rank := by
  unfold PortClaim.key at same
  simp only [Prod.mk.injEq] at same
  obtain ⟨samePort, sameOwner, sameSource⟩ := same
  unfold PortClaim.rank
  rw [samePort, sameOwner, sameSource]

theorem alike_arranged (claims : List PortClaim) :
    Alike (arranged claims) claims := by
  intro key
  unfold arranged
  rw [find?_uniqueFrom not_mem_nil]
  refine find?_mergeSort rank_trans rank_total ?_ claims
  intro first second isFirst isSecond
  rw [decide_eq_true_eq] at isFirst isSecond ⊢
  exact (rank_eq_of_key_eq (isFirst.trans isSecond.symm)).le

theorem mem_of_mem_arranged {claim : PortClaim}
    (isIn : claim ∈ arranged claims) : claim ∈ claims :=
  mem_mergeSort.mp ((uniqueFrom_sublist _ _).subset isIn)

theorem ordered_arranged (claims : List PortClaim) :
    Ordered (arranged claims) := by
  have kept : (arranged claims).Sublist (claims.mergeSort _) :=
    uniqueFrom_sublist [] _
  have sorted :=
    (pairwise_mergeSort rank_trans rank_total claims).sublist kept
  refine (sorted.and (pairwise_uniqueFrom [] _)).imp ?_
  intro first second both
  exact ⟨of_decide_eq_true both.1, both.2⟩

theorem Grouped.arranged (grouped : Grouped claims) :
    Grouped (arranged claims) :=
  fun claim isIn => grouped claim (mem_of_mem_arranged isIn)

theorem Ordered.eq_of_key_eq (ordered : Ordered claims)
    {first second : PortClaim} (firstIn : first ∈ claims)
    (secondIn : second ∈ claims) (same : first.key = second.key) :
    first = second := by
  by_contra differ
  have apart : claims.Pairwise fun first second => first.key ≠ second.key :=
    ordered.imp fun both => both.2
  have symmetric : Std.Symm fun first second : PortClaim => first.key ≠ second.key :=
    ⟨fun _ _ => Ne.symm⟩
  exact apart.forall firstIn secondIn differ same

theorem Ordered.group_eq (ordered : Ordered claims) {claim : PortClaim}
    (isIn : claim ∈ claims) : firstGroup claims claim.key = claim.group := by
  unfold firstGroup
  cases found : claims.find? fun other => other.key = claim.key with
  | none =>
    have missing := find?_eq_none.mp found claim isIn
    simp at missing
  | some other =>
    have same : other.key = claim.key := by
      simpa using find?_some found
    rw [ordered.eq_of_key_eq (mem_of_find?_eq_some found) isIn same]
    rfl

theorem exists_of_firstGroup {key : Int × String × Source} {group : String}
    (isGroup : firstGroup claims key = some group) :
    ∃ claim ∈ claims, claim.key = key ∧ claim.group = some group := by
  obtain ⟨claim, found, hasGroup⟩ := Option.bind_eq_some_iff.mp isGroup
  refine ⟨claim, mem_of_find?_eq_some found, ?_, hasGroup⟩
  simpa using find?_some found

/-- Claims of running slots come after those of files. -/
theorem config_before_runtime {config runtime : PortClaim}
    (ofFile : config.key = (port, owner, .slotConfig))
    (ofSlot : runtime.key = (port, owner, .slotRuntime)) :
    ¬ runtime.rank ≤ config.rank := by
  unfold PortClaim.key at ofFile ofSlot
  simp only [Prod.mk.injEq] at ofFile ofSlot
  obtain ⟨filePort, fileOwner, isFile⟩ := ofFile
  obtain ⟨slotPort, slotOwner, isSlot⟩ := ofSlot
  unfold PortClaim.rank
  rw [filePort, fileOwner, isFile, slotPort, slotOwner, isSlot]
  intro above
  rw [Prod.Lex.toLex_le_toLex] at above
  rcases above with below | ⟨-, above⟩
  · exact lt_irrefl port below
  · rw [Prod.Lex.toLex_le_toLex] at above
    rcases above with below | ⟨same, -⟩
    · exact absurd below (show ¬ Source.slotRuntime.text <
        Source.slotConfig.text by decide)
    · exact absurd same (show Source.slotRuntime.text ≠
        Source.slotConfig.text by decide)

/-! ## The groups of the owners -/

/-- Whether a claim gives the group of an owner. -/
def givesGroup (port : Int) (owner : String) (claim : PortClaim) : Bool :=
  claim.port = port && claim.owner = owner && claim.group.isSome

theorem Ordered.not_running (ordered : Ordered claims)
    {later earlier : List PortClaim} {config : PortClaim}
    (split : claims.reverse = later ++ config :: earlier)
    (laterFails : ∀ claim ∈ later, ¬ givesGroup port owner claim)
    (ofFile : config.key = (port, owner, .slotConfig)) :
    firstGroup claims (port, owner, .slotRuntime) = none := by
  rw [Option.eq_none_iff_forall_ne_some]
  intro group isGroup
  obtain ⟨running, runningIn, ofSlot, hasGroup⟩ :=
    exists_of_firstGroup isGroup
  have inOrder := pairwise_reverse.mpr ordered
  rw [split, pairwise_append, pairwise_cons] at inOrder
  rw [← mem_reverse, split, mem_append, mem_cons] at runningIn
  rcases runningIn with isLater | rfl | isEarlier
  · apply laterFails running isLater
    unfold PortClaim.key at ofSlot
    simp only [Prod.mk.injEq] at ofSlot
    simp [givesGroup, ofSlot.1, ofSlot.2.1, hasGroup]
  · have same := ofFile.symm.trans ofSlot
    simp at same
  · exact config_before_runtime ofFile ofSlot
      (inOrder.2.1.1 running isEarlier).1

/-- The group is that of the last claim. -/
theorem groupOf_eq_coresident (ordered : Ordered claims)
    (grouped : Grouped claims) (port : Int) (owner : String) :
    groupOf claims port owner = coresident claims port owner := by
  change (claims.reverse.find? (givesGroup port owner)).bind PortClaim.group =
    coresident claims port owner
  cases found : claims.reverse.find? (givesGroup port owner) with
  | none =>
    have groupless : ∀ source group,
        firstGroup claims (port, owner, source) ≠ some group := by
      intro source group isGroup
      obtain ⟨claim, isIn, isKey, hasGroup⟩ := exists_of_firstGroup isGroup
      have missing := find?_eq_none.mp found claim
        (mem_reverse.mpr isIn)
      unfold PortClaim.key at isKey
      simp only [Prod.mk.injEq] at isKey
      simp [givesGroup, isKey.1, isKey.2.1, hasGroup] at missing
    unfold coresident
    rw [Option.eq_none_iff_forall_ne_some.mpr (groupless .slotRuntime),
      Option.eq_none_iff_forall_ne_some.mpr (groupless .slotConfig)]
    rfl
  | some claim =>
    obtain ⟨holds, later, earlier, split, laterFails⟩ :=
      find?_eq_some_iff_append.mp found
    have isIn : claim ∈ claims := by
      rw [← mem_reverse, split]
      exact mem_append_right _ mem_cons_self
    simp only [givesGroup, Bool.and_eq_true, decide_eq_true_eq] at holds
    obtain ⟨⟨onPort, isOwner⟩, hasGroup⟩ := holds
    have ofClaim := ordered.group_eq isIn
    unfold coresident
    rcases grouped claim isIn hasGroup with ofFile | ofSlot
    · have isKey : claim.key = (port, owner, .slotConfig) := by
        rw [PortClaim.key, onPort, isOwner, ofFile]
      have notRunning := ordered.not_running split
        (fun other isLater => by simpa using laterFails other isLater) isKey
      rw [isKey] at ofClaim
      rw [notRunning, ofClaim]
      rfl
    · have isKey : claim.key = (port, owner, .slotRuntime) := by
        rw [PortClaim.key, onPort, isOwner, ofSlot]
      rw [isKey] at ofClaim
      rw [ofClaim]
      obtain ⟨group, isGroup⟩ := Option.isSome_iff_exists.mp hasGroup
      simp [isGroup]

/-! ## The conflicts -/

theorem mem_namedOwners : owner ∈ namedOwners claims port ↔
    ∃ claim ∈ claims, claim.port = port ∧ claim.owner = owner ∧
      claim.source ≠ .listener := by
  simp only [namedOwners, mem_map, mem_filter, Bool.and_eq_true,
    decide_eq_true_eq]
  constructor
  · rintro ⟨claim, ⟨isIn, onPort, named⟩, isOwner⟩
    exact ⟨claim, isIn, onPort, isOwner, named⟩
  · rintro ⟨claim, isIn, onPort, isOwner, named⟩
    exact ⟨claim, ⟨isIn, onPort, named⟩, isOwner⟩

theorem mem_listenerOwners : owner ∈ listenerOwners claims port ↔
    ∃ claim ∈ claims, claim.port = port ∧ claim.owner = owner ∧
      claim.source = .listener := by
  simp only [listenerOwners, mem_map, mem_filter, Bool.and_eq_true,
    decide_eq_true_eq]
  constructor
  · rintro ⟨claim, ⟨isIn, onPort, listens⟩, isOwner⟩
    exact ⟨claim, isIn, onPort, isOwner, listens⟩
  · rintro ⟨claim, isIn, onPort, isOwner, listens⟩
    exact ⟨claim, ⟨isIn, onPort, listens⟩, isOwner⟩

theorem mem_owners : owner ∈ owners claims port ↔
    Owns claims port owner := by
  unfold owners
  by_cases unnamed : (namedOwners claims port).isEmpty
  · rw [if_pos unnamed, mem_listenerOwners]
    rw [List.isEmpty_iff] at unnamed
    have allListen : ∀ claim ∈ claims, claim.port = port →
        claim.source = .listener := by
      intro claim isIn onPort
      by_contra named
      have isNamed := mem_namedOwners.mpr ⟨claim, isIn, onPort, rfl, named⟩
      rw [unnamed] at isNamed
      exact not_mem_nil isNamed
    constructor
    · rintro ⟨claim, isIn, onPort, isOwner, -⟩
      exact Or.inr ⟨allListen, claim, isIn, onPort, isOwner⟩
    · rintro (⟨claim, isIn, onPort, -, named⟩ |
        ⟨-, claim, isIn, onPort, isOwner⟩)
      · exact absurd (allListen claim isIn onPort) named
      · exact ⟨claim, isIn, onPort, isOwner, allListen claim isIn onPort⟩
  · rw [if_neg unnamed, mem_namedOwners]
    constructor
    · exact Or.inl
    · rintro (named | ⟨allListen, -⟩)
      · exact named
      · exfalso
        apply unnamed
        rw [List.isEmpty_iff, List.eq_nil_iff_forall_not_mem]
        intro other isNamed
        obtain ⟨claim, isIn, onPort, -, named⟩ := mem_namedOwners.mp isNamed
        exact named (allListen claim isIn onPort)

theorem one_lt_dedup {Value : Type*} [DecidableEq Value]
    {values : List Value} : 1 < values.dedup.length ↔
      ∃ first ∈ values, ∃ second ∈ values, first ≠ second := by
  rw [← toFinset_card_of_nodup values.nodup_dedup, Finset.one_lt_card]
  simp

/-- A single group, never missing, is that of all. -/
theorem one_group {Value Group : Type*} [DecidableEq Group]
    {values : List Value} (nonempty : values ≠ []) (group : Value → Option Group) :
    (((values.map group).dedup.length = 1 ∧
        none ∉ (values.map group).dedup) ↔
      ∃ common, ∀ value ∈ values, group value = some common) := by
  constructor
  · rintro ⟨single, grouped⟩
    obtain ⟨only, isOnly⟩ := length_eq_one_iff.mp single
    have all : ∀ value ∈ values, group value = only := by
      intro value isIn
      have isGroup := mem_dedup.mpr (mem_map_of_mem (f := group) isIn)
      rw [isOnly] at isGroup
      exact mem_singleton.mp isGroup
    cases only with
    | none =>
      rw [isOnly] at grouped
      exact absurd (mem_singleton_self none) grouped
    | some common => exact ⟨common, all⟩
  · rintro ⟨common, all⟩
    have isConstant : values.map group =
        List.replicate values.length (some common) := by
      rw [eq_replicate_iff]
      refine ⟨length_map group, ?_⟩
      intro other isIn
      obtain ⟨value, valueIn, rfl⟩ := mem_map.mp isIn
      exact all value valueIn
    rw [isConstant, replicate_dedup (by simpa using nonempty)]
    simp

/-- A clash is a contested port. -/
theorem clashes_iff (ordered : Ordered claims) (grouped : Grouped claims) :
    clashes claims port = true ↔ Contested claims port := by
  have groups := groupOf_eq_coresident ordered grouped port
  unfold clashes Contested
  simp only [Bool.and_eq_true, decide_eq_true_eq, Bool.not_eq_true',
    ← Bool.not_eq_true, one_lt_dedup, ← groups, ← mem_owners]
  constructor
  · rintro ⟨⟨first, isFirst, second, isSecond, differ⟩, notOne⟩
    rw [one_group (ne_nil_of_mem isFirst)] at notOne
    by_cases alike : ∃ group, groupOf claims port first = some group ∧
        groupOf claims port second = some group
    · obtain ⟨group, ofFirst, -⟩ := alike
      have other : ∃ third ∈ owners claims port,
          groupOf claims port third ≠ some group := by
        by_contra none
        push Not at none
        exact notOne ⟨group, none⟩
      obtain ⟨third, isThird, apart⟩ := other
      refine ⟨first, third, isFirst, isThird, ?_, ?_⟩
      · rintro rfl
        exact apart ofFirst
      · rintro ⟨common, firstCommon, thirdCommon⟩
        rw [ofFirst] at firstCommon
        exact apart (thirdCommon.trans firstCommon.symm)
    · exact ⟨first, second, isFirst, isSecond, differ, alike⟩
  · rintro ⟨first, second, isFirst, isSecond, differ, apart⟩
    refine ⟨⟨first, isFirst, second, isSecond, differ⟩, ?_⟩
    rw [one_group (ne_nil_of_mem isFirst)]
    rintro ⟨common, all⟩
    exact apart ⟨common, all first isFirst, all second isSecond⟩

theorem Contested.used (contested : Contested claims port) :
    Used claims port := by
  obtain ⟨first, second, isFirst, isSecond, differ, apart⟩ := contested
  rcases isFirst with ⟨claim, isIn, onPort, -⟩ | ⟨-, claim, isIn, onPort, -⟩
  · exact ⟨claim, isIn, onPort⟩
  · exact ⟨claim, isIn, onPort⟩

/-- The conflicts are the contested ports. -/
theorem mem_conflicts (ordered : Ordered claims) (grouped : Grouped claims) :
    port ∈ (conflicts claims).map Conflict.port ↔ Contested claims port := by
  unfold conflicts
  rw [map_map]
  have same : Conflict.port ∘ (fun port =>
      (⟨port, (owners claims port).dedup.mergeSort (· ≤ ·),
        claims.filter fun claim => claim.port = port⟩ : Conflict)) = id := rfl
  rw [same, map_id, mem_filter, mem_mergeSort, mem_dedup,
    mem_map, clashes_iff ordered grouped]
  constructor
  · exact fun both => both.2
  · intro contested
    obtain ⟨claim, isIn, onPort⟩ := contested.used
    exact ⟨⟨claim, isIn, onPort⟩, contested⟩

/-! ## The next free port -/

/-- The lowest free port is answered. -/
theorem lowest_nextFree (claims : List PortClaim) (start stop : Int) :
    Lowest claims start stop (nextFree claims start stop) := by
  have mem_ports : ∀ port, port ∈ claims.map PortClaim.port ↔
      Used claims port := fun port => mem_map
  cases found : nextFree claims start stop with
  | none =>
    intro port fromStart toStop
    unfold nextFree pool at found
    have all := find?_eq_none.mp found port (by
      rw [mem_map]
      refine ⟨(port - start).toNat, ?_, by omega⟩
      rw [mem_range]
      omega)
    simpa [mem_ports] using all
  | some free =>
    unfold nextFree pool at found
    rw [find?_map, Option.map_eq_some_iff] at found
    obtain ⟨offset, isFirst, rfl⟩ := found
    obtain ⟨unused, inPool, below⟩ := find?_range_eq_some.mp isFirst
    rw [mem_range] at inPool
    refine ⟨by omega, by omega, ?_, ?_⟩
    · simpa [mem_ports] using unused
    · intro port fromStart isBelow
      have taken := below (port - start).toNat (by omega)
      have back : start + max (port - start) 0 = port := by omega
      simpa [mem_ports, back] using taken

end Hal0.Ports.Harvest
