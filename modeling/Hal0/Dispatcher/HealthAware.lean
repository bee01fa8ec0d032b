import Hal0.Dispatcher.RoutingRespects

/-!
# The choice of a slot by its health

The order of priority exchanges the slot-backed upstreams among their places,
by the rank of their slots, and leaves the others where they are.  A binding
whose slot is outranked is skipped for the first upstream of that order which
has the model.  It need not be the slot which outranked the bound one: an
upstream without a slot keeps its place before them.
-/

namespace Hal0.Dispatcher.Routing

open List

/-! ## Exchanging the slot-backed entries -/

/-- The upstream is a slot's. -/
def hasSlot (upstream : Upstream) : Bool :=
  upstream.slotOf ≠ ""

/-- How many upstreams are slots. -/
def slotCount (upstreams : List Upstream) : Nat :=
  (upstreams.filter hasSlot).length

variable {upstream : Upstream}

theorem refill_cons_of_slot (slot : hasSlot upstream) (rest : List Upstream)
    (first : Upstream) (later : List Upstream) :
    refill (upstream :: rest) (first :: later) =
      first :: refill rest later := by
  have named : upstream.slotOf ≠ "" := by simpa [hasSlot] using slot
  rw [refill, if_neg named]

theorem refill_cons_of_remote (remote : hasSlot upstream = false)
    (rest ranked : List Upstream) :
    refill (upstream :: rest) ranked = upstream :: refill rest ranked := by
  have unnamed : upstream.slotOf = "" := by simpa [hasSlot] using remote
  cases ranked with
  | nil => rw [refill, if_pos unnamed]
  | cons first later => rw [refill, if_pos unnamed]

theorem slotCount_cons_of_slot (slot : hasSlot upstream)
    (rest : List Upstream) :
    slotCount (upstream :: rest) = slotCount rest + 1 := by
  simp [slotCount, filter_cons_of_pos slot]

theorem slotCount_cons_of_remote (remote : hasSlot upstream = false)
    (rest : List Upstream) :
    slotCount (upstream :: rest) = slotCount rest := by
  simp [slotCount, remote]

variable {ranked : List Upstream}

/-- Refilling reorders the slots only. -/
theorem refill_perm :
    ∀ {upstreams : List Upstream}, ranked.length = slotCount upstreams →
      (refill upstreams ranked).Perm
        (ranked ++ upstreams.filter fun upstream => !hasSlot upstream) := by
  intro upstreams sameCount
  induction upstreams generalizing ranked with
  | nil =>
    have isEmpty : ranked = [] := eq_nil_of_length_eq_zero sameCount
    rw [isEmpty]
    rfl
  | cons upstream rest ih =>
    cases slot : hasSlot upstream with
    | true =>
      rw [slotCount_cons_of_slot slot] at sameCount
      obtain ⟨first, later, rfl⟩ := exists_of_length_succ ranked sameCount
      rw [refill_cons_of_slot slot, filter_cons_of_neg (by simp [slot]),
        cons_append]
      exact (ih (Nat.succ.inj sameCount)).cons first
    | false =>
      rw [slotCount_cons_of_remote slot] at sameCount
      rw [refill_cons_of_remote slot, filter_cons_of_pos (by simp [slot])]
      exact ((ih sameCount).cons upstream).trans
        perm_middle.symm

/-- The slots stand in their rank. -/
theorem filter_refill (slots : ∀ upstream ∈ ranked, hasSlot upstream) :
    ∀ {upstreams : List Upstream}, ranked.length = slotCount upstreams →
      (refill upstreams ranked).filter hasSlot = ranked := by
  intro upstreams sameCount
  induction upstreams generalizing ranked with
  | nil =>
    have isEmpty : ranked = [] := eq_nil_of_length_eq_zero sameCount
    rw [isEmpty]
    rfl
  | cons upstream rest ih =>
    cases slot : hasSlot upstream with
    | true =>
      rw [slotCount_cons_of_slot slot] at sameCount
      obtain ⟨first, later, rfl⟩ := exists_of_length_succ ranked sameCount
      rw [forall_mem_cons] at slots
      rw [refill_cons_of_slot slot, filter_cons_of_pos slots.1,
        ih slots.2 (Nat.succ.inj sameCount)]
    | false =>
      rw [slotCount_cons_of_remote slot] at sameCount
      rw [refill_cons_of_remote slot, filter_cons_of_neg (by simp [slot]),
        ih slots sameCount]

/-- Every other upstream keeps its place. -/
theorem getElem?_refill {index : Nat} (remote : hasSlot upstream = false) :
    ∀ {upstreams : List Upstream}, upstreams[index]? = some upstream →
      (refill upstreams ranked)[index]? = some upstream := by
  intro upstreams isAt
  induction upstreams generalizing ranked index with
  | nil => simp at isAt
  | cons first rest ih =>
    cases slot : hasSlot first with
    | true =>
      cases index with
      | zero =>
        rw [getElem?_cons_zero, Option.some.injEq] at isAt
        rw [isAt, remote] at slot
        exact absurd slot (by simp)
      | succ index =>
        rw [getElem?_cons_succ] at isAt
        cases ranked with
        | nil =>
          have named : first.slotOf ≠ "" := by
            simpa [hasSlot] using slot
          rw [refill, if_neg named, getElem?_cons_succ]
          exact ih isAt
        | cons best others =>
          rw [refill_cons_of_slot slot, getElem?_cons_succ]
          exact ih isAt
    | false =>
      rw [refill_cons_of_remote slot]
      cases index with
      | zero => exact isAt
      | succ index =>
        rw [getElem?_cons_succ] at isAt ⊢
        exact ih isAt

/-- The front takes the first of the ranked. -/
theorem refill_append (rest : List Upstream) :
    ∀ {before : List Upstream}, slotCount before ≤ ranked.length →
      refill (before ++ rest) ranked =
        refill before (ranked.take (slotCount before)) ++
          refill rest (ranked.drop (slotCount before)) := by
  intro before enough
  induction before generalizing ranked with
  | nil => rfl
  | cons upstream others ih =>
    cases slot : hasSlot upstream with
    | true =>
      rw [slotCount_cons_of_slot slot] at enough ⊢
      cases ranked with
      | nil => simp at enough
      | cons first later =>
        rw [cons_append, refill_cons_of_slot slot, take_succ_cons,
          refill_cons_of_slot slot, drop_succ_cons,
          ih (Nat.le_of_succ_le_succ enough),
          cons_append]
    | false =>
      rw [slotCount_cons_of_remote slot] at enough ⊢
      rw [cons_append, refill_cons_of_remote slot,
        refill_cons_of_remote slot, ih enough,
        cons_append]

theorem refill_self (upstreams : List Upstream) :
    refill upstreams (upstreams.filter hasSlot) = upstreams := by
  induction upstreams with
  | nil => rfl
  | cons upstream rest ih =>
    cases slot : hasSlot upstream with
    | true =>
      rw [filter_cons_of_pos slot, refill_cons_of_slot slot,
        ih]
    | false =>
      rw [filter_cons_of_neg (by simp [slot]),
        refill_cons_of_remote slot, ih]

/-! ## The order of priority -/

/-- The upstreams that routing looks at. -/
def enabledOf (registry : UpstreamRegistry) : List Upstream :=
  registry.upstreams.filter Upstream.enabled

/-- The rank of the slot behind an upstream. -/
def rankOf (slots : SlotView) (laneSlot : String) (upstream : Upstream) :
    Nat ×ₗ Nat ×ₗ Nat :=
  rankSlotName slots laneSlot upstream.slotOf

/-- The enabled upstreams with a slot, by rank. -/
def rankedOf (registry : UpstreamRegistry) (slots : SlotView)
    (laneSlot : String) : List Upstream :=
  ((enabledOf registry).filter hasSlot).insertionSort fun first second =>
    rankOf slots laneSlot first ≤ rankOf slots laneSlot second

/-- What is expected of the order of priority. -/
structure PriorityLaw (registry : UpstreamRegistry) (view : View)
    (laneSlot : String) : Prop where
  perm : (inPriorityOrder registry view laneSlot).Perm (enabledOf registry)
  stays : ∀ (index : Nat) (upstream : Upstream),
    (enabledOf registry)[index]? = some upstream →
      hasSlot upstream = false →
        (inPriorityOrder registry view laneSlot)[index]? = some upstream
  sorted : ∀ slots, view.slots = some slots →
    ((inPriorityOrder registry view laneSlot).filter hasSlot).Pairwise
      fun first second =>
        rankOf slots laneSlot first ≤ rankOf slots laneSlot second
  ties : ∀ slots, view.slots = some slots → ∀ rank,
    (inPriorityOrder registry view laneSlot).filter (fun upstream =>
        hasSlot upstream && rankOf slots laneSlot upstream = rank) =
      (enabledOf registry).filter fun upstream =>
        hasSlot upstream && rankOf slots laneSlot upstream = rank

section Order

variable {registry : UpstreamRegistry} {view : View} {slots : SlotView}
  {laneSlot : String}

theorem length_rankedOf (registry : UpstreamRegistry) (slots : SlotView)
    (laneSlot : String) :
    (rankedOf registry slots laneSlot).length =
      slotCount (enabledOf registry) :=
  length_insertionSort _ _

theorem hasSlot_of_mem_rankedOf {upstream : Upstream}
    (isIn : upstream ∈ rankedOf registry slots laneSlot) :
    hasSlot upstream = true :=
  (mem_filter.mp ((mem_insertionSort _).mp isIn)).2

/-- The ranked slots fill the places of slots. -/
theorem inPriorityOrder_eq (managed : view.slots = some slots) :
    inPriorityOrder registry view laneSlot =
      refill (enabledOf registry) (rankedOf registry slots laneSlot) := by
  unfold inPriorityOrder
  rw [managed]
  dsimp only
  split
  · next few =>
      have sorted : rankedOf registry slots laneSlot =
          (enabledOf registry).filter hasSlot := by
        apply List.Pairwise.insertionSort_eq
        have short : ((enabledOf registry).filter hasSlot).length < 2 := few
        cases backed : (enabledOf registry).filter hasSlot with
        | nil => exact List.Pairwise.nil
        | cons first rest =>
          rw [backed, length_cons] at short
          rw [eq_nil_of_length_eq_zero (show rest.length = 0 by omega)]
          exact pairwise_singleton _ _
      rw [sorted, refill_self]
      rfl
  · rfl

theorem filter_inPriorityOrder (managed : view.slots = some slots) :
    (inPriorityOrder registry view laneSlot).filter hasSlot =
      rankedOf registry slots laneSlot := by
  rw [inPriorityOrder_eq managed]
  exact filter_refill (fun _ isIn => hasSlot_of_mem_rankedOf isIn)
    (length_rankedOf registry slots laneSlot)

theorem pairwise_rankedOf (registry : UpstreamRegistry) (slots : SlotView)
    (laneSlot : String) :
    (rankedOf registry slots laneSlot).Pairwise fun first second =>
      rankOf slots laneSlot first ≤ rankOf slots laneSlot second := by
  have total : Std.Total fun first second =>
      rankOf slots laneSlot first ≤ rankOf slots laneSlot second :=
    ⟨fun first second => le_total _ _⟩
  have trans : IsTrans Upstream fun first second =>
      rankOf slots laneSlot first ≤ rankOf slots laneSlot second :=
    ⟨fun _ _ _ below next => below.trans next⟩
  exact pairwise_insertionSort _ _

/-- Within one rank the registry's order stays. -/
theorem filter_rankedOf (registry : UpstreamRegistry) (slots : SlotView)
    (laneSlot : String) (rank : Nat ×ₗ Nat ×ₗ Nat) :
    (rankedOf registry slots laneSlot).filter (fun upstream =>
        rankOf slots laneSlot upstream = rank) =
      ((enabledOf registry).filter hasSlot).filter fun upstream =>
        rankOf slots laneSlot upstream = rank := by
  have alike : (((enabledOf registry).filter hasSlot).filter fun upstream =>
      rankOf slots laneSlot upstream = rank).Pairwise fun first second =>
        rankOf slots laneSlot first ≤ rankOf slots laneSlot second := by
    apply pairwise_of_forall_mem_list
    intro first isFirst second isSecond
    have firstRank := (mem_filter.mp isFirst).2
    have secondRank := (mem_filter.mp isSecond).2
    rw [decide_eq_true_eq] at firstRank secondRank
    rw [firstRank, secondRank]
  have inside := (sublist_insertionSort alike
    filter_sublist).filter fun upstream =>
      rankOf slots laneSlot upstream = rank
  rw [filter_filter] at inside
  simp only [Bool.and_self] at inside
  refine (inside.eq_of_length ?_).symm
  exact ((perm_insertionSort _ _).filter _).length_eq.symm

/-- The law of the order in which is tried. -/
theorem priorityLaw (registry : UpstreamRegistry) (view : View)
    (laneSlot : String) : PriorityLaw registry view laneSlot := by
  cases managed : view.slots with
  | none =>
    have same : inPriorityOrder registry view laneSlot =
        enabledOf registry := by
      unfold inPriorityOrder
      rw [managed]
      rfl
    refine ⟨by rw [same], ?_, ?_, ?_⟩
    · intro index upstream isAt remote
      rwa [same]
    · intro slots isManaged
      rw [managed] at isManaged
      exact absurd isManaged (by simp)
    · intro slots isManaged
      rw [managed] at isManaged
      exact absurd isManaged (by simp)
  | some slots =>
    have count := length_rankedOf registry slots laneSlot
    refine ⟨?_, ?_, ?_, ?_⟩
    · rw [inPriorityOrder_eq managed]
      refine (refill_perm count).trans ?_
      refine ((perm_insertionSort _ _).append_right _).trans ?_
      exact filter_append_perm hasSlot (enabledOf registry)
    · intro index upstream isAt remote
      rw [inPriorityOrder_eq managed]
      exact getElem?_refill remote isAt
    · intro others isManaged
      rw [managed] at isManaged
      cases isManaged
      rw [filter_inPriorityOrder managed]
      exact pairwise_rankedOf registry slots laneSlot
    · intro others isManaged rank
      rw [managed] at isManaged
      cases isManaged
      have inOrder := filter_rankedOf registry slots laneSlot rank
      rw [← filter_inPriorityOrder managed, filter_filter,
        filter_filter] at inOrder
      simpa only [Bool.and_comm] using inOrder

end Order

/-! ## The first of the order which passes a test -/

section First

variable {registry : UpstreamRegistry} {slots : SlotView} {laneSlot : String}
  {test : Upstream → Bool} {first : Upstream}

theorem rank_le_of_find? {order : List Upstream} {upstream : Upstream}
    (sorted : (order.filter hasSlot).Pairwise fun first second =>
      rankOf slots laneSlot first ≤ rankOf slots laneSlot second)
    (found : order.find? test = some first) (slot : hasSlot first = true)
    (isIn : upstream ∈ order) (passes : test upstream = true)
    (isSlot : hasSlot upstream = true) :
    rankOf slots laneSlot first ≤ rankOf slots laneSlot upstream := by
  obtain ⟨-, before, after, split, fails⟩ :=
    find?_eq_some_iff_append.mp found
  rw [split, filter_append, filter_cons_of_pos slot,
    pairwise_append, pairwise_cons] at sorted
  rw [split, mem_append, mem_cons] at isIn
  rcases isIn with isBefore | rfl | isAfter
  · have fails := fails upstream isBefore
    simp [passes] at fails
  · exact le_rfl
  · exact sorted.2.1.1 upstream (mem_filter.mpr ⟨isAfter, isSlot⟩)

variable {before after : List Upstream} {remote : Upstream}

theorem refill_split (isRemote : hasSlot remote = false)
    (split : enabledOf registry = before ++ remote :: after) :
    refill (enabledOf registry) (rankedOf registry slots laneSlot) =
      refill before
          ((rankedOf registry slots laneSlot).take (slotCount before)) ++
        remote :: refill after
          ((rankedOf registry slots laneSlot).drop (slotCount before)) := by
  have enough : slotCount before ≤
      (rankedOf registry slots laneSlot).length := by
    rw [length_rankedOf, split]
    simp [slotCount]
  rw [split, refill_append _ enough, refill_cons_of_remote isRemote]

theorem length_best (split : enabledOf registry = before ++ remote :: after) :
    ((rankedOf registry slots laneSlot).take (slotCount before)).length =
      slotCount before := by
  rw [length_take, length_rankedOf, split]
  simp [slotCount]

theorem mem_refill_before
    (split : enabledOf registry = before ++ remote :: after)
    {upstream : Upstream} (slot : hasSlot upstream = true) :
    upstream ∈ refill before
        ((rankedOf registry slots laneSlot).take (slotCount before)) ↔
      upstream ∈
        (rankedOf registry slots laneSlot).take (slotCount before) := by
  have enough : ((rankedOf registry slots laneSlot).take
      (slotCount before)).length = slotCount before := length_best split
  have inOrder := filter_refill (fun upstream isIn =>
    hasSlot_of_mem_rankedOf (mem_of_mem_take isIn)) enough
  constructor
  · intro isIn
    rw [← inOrder]
    exact mem_filter.mpr ⟨isIn, slot⟩
  · intro isIn
    rw [← inOrder] at isIn
    exact (mem_filter.mp isIn).1

/-- A slot is found where one passes for each remote. -/
theorem passes_before_of_slot
    (found : (refill (enabledOf registry)
      (rankedOf registry slots laneSlot)).find? test = some first)
    (slot : hasSlot first = true) (isRemote : hasSlot remote = false)
    (split : enabledOf registry = before ++ remote :: after)
    (passes : test remote = true) :
    ∃ upstream ∈ (rankedOf registry slots laneSlot).take (slotCount before),
      test upstream = true := by
  rw [refill_split isRemote split, find?_append,
    find?_cons_of_pos passes] at found
  cases inFront : (refill before ((rankedOf registry slots laneSlot).take
      (slotCount before))).find? test with
  | none =>
    rw [inFront, Option.none_or, Option.some.injEq] at found
    rw [← found, isRemote] at slot
    exact absurd slot (by simp)
  | some other =>
    rw [inFront, Option.some_or, Option.some.injEq] at found
    subst found
    exact ⟨other, (mem_refill_before split slot).mp
      (mem_of_find?_eq_some inFront), find?_some inFront⟩

/-- And where one passes for each, a slot is found. -/
theorem slot_of_passes_before
    (found : (refill (enabledOf registry)
      (rankedOf registry slots laneSlot)).find? test = some first)
    (slotsFirst : ∀ before remote after,
      enabledOf registry = before ++ remote :: after →
        hasSlot remote = false → test remote = true →
          ∃ upstream ∈
            (rankedOf registry slots laneSlot).take (slotCount before),
              test upstream = true) :
    hasSlot first = true := by
  by_contra notSlot
  rw [Bool.not_eq_true] at notSlot
  have isIn := (refill_perm (length_rankedOf registry slots laneSlot)).mem_iff.mp
    (mem_of_find?_eq_some found)
  rw [mem_append, mem_filter] at isIn
  rcases isIn with isRanked | ⟨isEnabled, -⟩
  · rw [hasSlot_of_mem_rankedOf isRanked] at notSlot
    exact absurd notSlot (by simp)
  · obtain ⟨before, after, split, notBefore⟩ :=
      eq_append_cons_of_mem isEnabled
    obtain ⟨upstream, isBest, passes⟩ := slotsFirst before first after split
      notSlot (find?_some found)
    have slot := hasSlot_of_mem_rankedOf (mem_of_mem_take isBest)
    have inFront := (mem_refill_before split slot).mpr isBest
    rw [refill_split notSlot split, find?_append] at found
    cases foundFront : (refill before ((rankedOf registry slots laneSlot).take
        (slotCount before))).find? test with
    | none =>
      have fails := find?_eq_none.mp foundFront upstream inFront
      exact fails passes
    | some other =>
      rw [foundFront, Option.some_or, Option.some.injEq] at found
      subst found
      have isOther := (refill_perm (length_best split)).mem_iff.mp
        (mem_of_find?_eq_some foundFront)
      rw [mem_append, mem_filter] at isOther
      rcases isOther with isRanked | ⟨isBefore, -⟩
      · rw [hasSlot_of_mem_rankedOf (mem_of_mem_take isRanked)]
          at notSlot
        exact absurd notSlot (by simp)
      · exact notBefore isBefore

end First

/-! ## Skipping a binding -/

namespace Surroundings

/-- The binding is online, and skipped for its slot is outranked. -/
structure Skips (env : Surroundings) (request : Request) (bound : Upstream)
    (view : View) : Prop where
  free : env.registry.pinnedOwner request.modelId = none
  silent : env.containerPick request = none
  binding : ∃ name upstreamModel, env.routeFor request.modelId =
    some (some (name, upstreamModel)) ∧ env.registry.get name = some bound
  enabled : bound.enabled = true
  online : ∃ advertised, env.probeBound bound = some (true, advertised, view)
  outranked : outranked env.registry view request.laneSlot bound
    request.modelId = true

/-- The call goes to a slot which is better than the bound one. -/
def GoesBetter (env : Surroundings) (request : Request) (bound : Upstream)
    (view : View) : Prop :=
  ∃ slots call upstream, view.slots = some slots ∧
    env.resolve request = .ok call ∧
    env.registry.get call.upstreamName = some upstream ∧
    hasSlot upstream = true ∧
    view.advertises request.modelId upstream = true ∧
    rankOf slots request.laneSlot upstream < rankOf slots request.laneSlot bound

/-- The order of priority is right, and so is the choice after a skip. -/
structure HealthAware (env : Surroundings) (request : Request) : Prop where
  order : ∀ view, PriorityLaw env.registry view request.laneSlot
  choice : ∀ bound view, env.Skips request bound view →
    env.GoesBetter request bound view

/--
Each upstream without a slot which has the model is registered behind so many
with a slot that one of as many best-ranked ones has the model too.
-/
def SlotsFirst (env : Surroundings) (request : Request) (view : View) : Prop :=
  ∀ slots, view.slots = some slots → ∀ before remote after,
    enabledOf env.registry = before ++ remote :: after →
      hasSlot remote = false →
        view.advertises request.modelId remote = true →
          ∃ upstream ∈ (rankedOf env.registry slots request.laneSlot).take
              (slotCount before),
            view.advertises request.modelId upstream = true

variable {env : Surroundings} {request : Request} {bound : Upstream}
  {view : View}

section

variable (skips : env.Skips request bound view)
include skips

theorem Skips.falls :
    env.FallsTo request view := by
  refine ⟨skips.free, skips.silent, ?_⟩
  obtain ⟨name, upstreamModel, isRoute, found⟩ := skips.binding
  obtain ⟨advertised, online⟩ := skips.online
  unfold resolveBound
  rw [isRoute]
  simp only [found, skips.enabled, online, skips.outranked]
  simp

theorem Skips.better :
    ∃ slots upstream, view.slots = some slots ∧
      upstream ∈ inPriorityOrder env.registry view request.laneSlot ∧
      hasSlot upstream = true ∧
      view.advertises request.modelId upstream = true ∧
      rankOf slots request.laneSlot upstream <
        rankOf slots request.laneSlot bound := by
  have isOutranked := skips.outranked
  unfold Routing.outranked at isOutranked
  cases managed : view.slots with
  | none => simp [managed] at isOutranked
  | some slots =>
    simp only [managed, Bool.and_eq_true, any_eq_true,
      decide_eq_true_eq] at isOutranked
    obtain ⟨-, upstream, isIn, ⟨⟨-, slot⟩, advertises⟩, below⟩ := isOutranked
    exact ⟨slots, upstream, rfl, isIn, by simpa [hasSlot] using slot,
      advertises, below⟩

theorem Skips.resolve :
    ∃ first, env.advertiser view request = some first ∧
      env.resolve request = .ok (.keepingId request first
        (.passthrough first.name)) := by
  obtain ⟨slots, upstream, -, isIn, -, advertises, -⟩ := skips.better
  have found : (env.advertiser view request).isSome := by
    unfold advertiser firstIn
    rw [find?_isSome]
    exact ⟨upstream, isIn, advertises⟩
  obtain ⟨first, isFirst⟩ := Option.isSome_iff_exists.mp found
  refine ⟨first, isFirst, ?_⟩
  rw [skips.falls.resolve]
  unfold resolveAdvertised
  rw [isFirst]

/-- A better slot is called just where slots come first. -/
theorem goesBetter_iff :
    env.GoesBetter request bound view ↔ env.SlotsFirst request view := by
  obtain ⟨first, isFirst, resolved⟩ := skips.resolve
  obtain ⟨slots, better, managed, betterIn, betterSlot, advertises, below⟩ :=
    skips.better
  have found := isFirst
  unfold advertiser firstIn at found
  have ofFirst := mem_of_firstIn isFirst
  constructor
  · rintro ⟨-, call, upstream, -, isCall, isUpstream, slot, -, -⟩
    rw [resolved] at isCall
    cases isCall
    change env.registry.get first.name = some upstream at isUpstream
    rw [UpstreamRegistry.get_of_mem ofFirst.1] at isUpstream
    cases isUpstream
    intro others isManaged before remote after split isRemote remoteHas
    rw [managed] at isManaged
    cases isManaged
    rw [inPriorityOrder_eq managed] at found
    exact passes_before_of_slot found slot isRemote split remoteHas
  · intro slotsFirst
    have slot : hasSlot first = true := by
      rw [inPriorityOrder_eq managed] at found
      exact slot_of_passes_before found (slotsFirst slots managed)
    have sorted := (priorityLaw env.registry view request.laneSlot).sorted
      slots managed
    exact ⟨slots, _, first, managed, resolved,
      UpstreamRegistry.get_of_mem ofFirst.1, slot, ofFirst.2.2,
      (rank_le_of_find? sorted found slot betterIn advertises
        betterSlot).trans_lt below⟩

end

/--
The choice is aware of health just when, at each skip, the slots which have the
model come before each other upstream which has it.
-/
theorem healthAware_iff (env : Surroundings) (request : Request) :
    env.HealthAware request ↔
      ∀ bound view, env.Skips request bound view →
        env.SlotsFirst request view := by
  constructor
  · intro aware bound view skips
    exact (goesBetter_iff skips).mp (aware.choice bound view skips)
  · intro slotsFirst
    refine ⟨fun view => priorityLaw env.registry view request.laneSlot, ?_⟩
    intro bound view skips
    exact (goesBetter_iff skips).mpr (slotsFirst bound view skips)

end Surroundings

/-! ## A skip which leaves the slots -/

/-- A remote before two slots. -/
def remoteFirst : UpstreamRegistry :=
  ⟨[⟨"cloud", .remote, none, true, false, []⟩,
    ⟨"nano", .slot, some "nano", true, false, []⟩,
    ⟨"brain", .slot, some "brain", true, false, []⟩], by decide⟩

/-- Each upstream has `qwen`; `nano` is in error, and `brain` is ready. -/
def nanoFailed : View :=
  ⟨fun _ => ["qwen"],
    some ⟨fun slot => some (if slot = "nano" then .error else .ready),
      fun _ => 0⟩⟩

/-- The binding of `qwen` is `nano`. -/
def boundToNano : Surroundings :=
  { quietSurroundings remoteFirst (fun _ => ["qwen"]) with
    routeFor := fun model => some (some ("nano", model))
    start := nanoFailed }

/-- The slot `brain` outranks `nano`, and the call goes to the remote. -/
theorem outranked_to_remote :
    ¬ boundToNano.HealthAware (chatFor "qwen" "") := by
  intro aware
  have skips : boundToNano.Skips (chatFor "qwen" "")
      ⟨"nano", .slot, some "nano", true, false, []⟩ nanoFailed :=
    ⟨by decide, by decide, ⟨"nano", "qwen", rfl, rfl⟩, rfl, ⟨["qwen"], rfl⟩,
      by decide⟩
  obtain ⟨slots, call, upstream, -, resolved, isUpstream, slot, -⟩ :=
    aware.choice _ _ skips
  have toCloud : boundToNano.resolve (chatFor "qwen" "") =
      .ok (.keepingId (chatFor "qwen" "")
        ⟨"cloud", .remote, none, true, false, []⟩ (.passthrough "cloud")) := by
    decide
  rw [toCloud] at resolved
  cases resolved
  cases isUpstream
  exact absurd slot (by decide)

end Hal0.Dispatcher.Routing
