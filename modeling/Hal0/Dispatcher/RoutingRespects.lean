import Hal0.Dispatcher.Routing

/-!
# Ownership, kill-switches and the upstream-only mark

`Respects` says of a call that its upstream is enabled, that it is the pinned
owner of the id when there is one, and that no local slot is behind it when the
request is marked upstream-only.

The rungs of the ladder check these on their own.  The order of priority, the
pinned rung and the binding leave the disabled upstreams out;
`resolve_by_capability` does not look at the switch.  The mark is read once,
above that last rung, so that a slot which advertises the id answers a marked
request on any rung before.  `Lawful` names these cases.
-/

namespace Hal0.Dispatcher.Routing

open List

/-! ## The registry and its order -/

namespace UpstreamRegistry

theorem mem_of_get {registry : UpstreamRegistry} {name : String}
    {upstream : Upstream} (found : registry.get name = some upstream) :
    upstream ∈ registry.upstreams ∧ upstream.name = name := by
  refine ⟨mem_of_find?_eq_some found, ?_⟩
  simpa using find?_some found

theorem get_of_mem {registry : UpstreamRegistry} {upstream : Upstream}
    (listed : upstream ∈ registry.upstreams) :
    registry.get upstream.name = some upstream := by
  have found : ∃ other, registry.get upstream.name = some other := by
    have some : (registry.get upstream.name).isSome := by
      simp only [get, find?_isSome, decide_eq_true_eq]
      exact ⟨upstream, listed, rfl⟩
    exact Option.isSome_iff_exists.mp some
  obtain ⟨other, isOther⟩ := found
  obtain ⟨otherListed, sameName⟩ := mem_of_get isOther
  have same := inj_on_of_nodup_map registry.distinct otherListed listed
    sameName
  rw [isOther, same]

end UpstreamRegistry

theorem mem_of_mem_refill {upstream : Upstream} :
    ∀ {upstreams ranked : List Upstream},
      upstream ∈ refill upstreams ranked →
        upstream ∈ upstreams ∨ upstream ∈ ranked
  | [], _, listed => by simp [refill] at listed
  | first :: rest, ranked, listed => by
      simp only [refill] at listed
      split at listed
      · rcases mem_cons.mp listed with rfl | later
        · simp
        · rcases mem_of_mem_refill later with before | among
          · exact .inl (mem_cons_of_mem _ before)
          · exact .inr among
      · cases ranked with
        | nil =>
          rcases mem_cons.mp listed with rfl | later
          · simp
          · rcases mem_of_mem_refill later with before | among
            · exact .inl (mem_cons_of_mem _ before)
            · simp at among
        | cons best others =>
          rcases mem_cons.mp listed with rfl | later
          · simp
          · rcases mem_of_mem_refill later with before | among
            · exact .inl (mem_cons_of_mem _ before)
            · exact .inr (mem_cons_of_mem _ among)

/-- Ordering adds no upstream. -/
theorem mem_inPriorityOrder {registry : UpstreamRegistry} {view : View}
    {laneSlot : String} {upstream : Upstream}
    (listed : upstream ∈ inPriorityOrder registry view laneSlot) :
    upstream ∈ registry.upstreams ∧ upstream.enabled = true := by
  have among : upstream ∈ registry.upstreams.filter Upstream.enabled := by
    unfold inPriorityOrder at listed
    cases slots : view.slots with
    | none => simpa [slots] using listed
    | some slots' =>
      simp only [slots] at listed
      split at listed
      · exact listed
      · rcases mem_of_mem_refill listed with before | ranked
        · exact before
        · exact mem_of_mem_filter ((mem_insertionSort _).mp ranked)
  simpa using among

namespace Surroundings

variable {env : Surroundings} {request : Request}

variable {view : View} {upstream : Upstream}

theorem mem_of_firstIn {test : Upstream → Bool}
    (found : env.firstIn view request test = some upstream) :
    upstream ∈ env.registry.upstreams ∧ upstream.enabled = true ∧
      test upstream = true := by
  have listed := mem_inPriorityOrder (mem_of_find?_eq_some found)
  exact ⟨listed.1, listed.2, find?_some found⟩

/-! ## The rung which answers -/

/-- The binding of the model registry answers with `bound`. -/
structure Binds (env : Surroundings) (request : Request) (bound : Upstream)
    (call : UpstreamCall) (view : View) : Prop where
  listed : bound ∈ env.registry.upstreams
  enabled : bound.enabled = true
  named : call.upstreamName = bound.name
  answers : env.resolveBound request = .ok (view, some call)

/-- Nothing answers above the warm caches, where `view` is read. -/
structure FallsTo (env : Surroundings) (request : Request) (view : View) :
    Prop where
  free : env.registry.pinnedOwner request.modelId = none
  silent : env.containerPick request = none
  unbound : env.resolveBound request = .ok (view, none)

/-- No cache has the id, and the heuristics read `last`. -/
structure Exhausted (env : Surroundings) (request : Request) (last : View) :
    Prop where
  falls : ∃ view, env.FallsTo request view ∧
    env.advertiser view request = none ∧
    ((env.coldRemotes view request = [] ∧ last = view) ∨
      (env.coldRemotes view request ≠ [] ∧ last = env.prefetched ∧
        env.advertiser env.prefetched request = none))

/-- The pinned owner is enabled and has the id, before or after the fetch. -/
def OwnerServes (env : Surroundings) (request : Request) (owner : Upstream) :
    Prop :=
  owner.enabled = true ∧
    (env.start.advertises request.modelId owner = true ∨
      env.owned.advertises request.modelId owner = true)

/-- The rung which makes the call, and the upstream it is for. -/
inductive Rung (env : Surroundings) (request : Request) :
    Upstream → UpstreamCall → Prop where
  | pinned {owner : Upstream}
      (owns : env.registry.pinnedOwner request.modelId = some owner)
      (serves : env.OwnerServes request owner) :
      Rung env request owner
        (.keepingId request owner (.pinned owner.name))
  | container {upstream : Upstream}
      (free : env.registry.pinnedOwner request.modelId = none)
      (pick : env.containerPick request = some upstream) :
      Rung env request upstream
        (.keepingId request upstream (.container upstream.name))
  | bound {bound : Upstream} {call : UpstreamCall} {view : View}
      (free : env.registry.pinnedOwner request.modelId = none)
      (silent : env.containerPick request = none)
      (binds : env.Binds request bound call view) :
      Rung env request bound call
  | warm {upstream : Upstream} {view : View}
      (falls : env.FallsTo request view)
      (advertised : env.advertiser view request = some upstream) :
      Rung env request upstream
        (.keepingId request upstream (.passthrough upstream.name))
  | prefetched {upstream : Upstream} {view : View}
      (falls : env.FallsTo request view)
      (unknown : env.advertiser view request = none)
      (cold : env.coldRemotes view request ≠ [])
      (advertised : env.advertiser env.prefetched request = some upstream) :
      Rung env request upstream
        (.keepingId request upstream (.passthroughPrefetched upstream.name))
  | legacy {upstream : Upstream} {last : View}
      (exhausted : env.Exhausted request last) (unmarked : ¬ request.Marked)
      (picked : resolveByCapability env.lower env.registry request
        (env.ttsSlotFor last request) = .ok upstream) :
      Rung env request upstream
        (.to request upstream (remapModel request.model request.originalModel)
          (orElse request.originalModel request.modelId)
          (.legacySlot upstream.name))

variable {call : UpstreamCall}

/-- A pin answers with its owner. -/
theorem resolvePinned_eq_ok {owner : Upstream} :
    env.resolvePinned request owner = .ok call ↔
      env.OwnerServes request owner ∧
        call = .keepingId request owner (.pinned owner.name) := by
  unfold resolvePinned OwnerServes
  dsimp only
  constructor
  · intro resolved
    split at resolved
    · cases resolved
    · next enabled =>
        split at resolved
        · next advertised => cases resolved; simp_all
        · split at resolved
          · next advertised => cases resolved; simp_all
          · split at resolved <;> cases resolved
  · rintro ⟨⟨enabled, advertised⟩, rfl⟩
    rw [if_neg (by simp [enabled])]
    rcases advertised with warm | fetched
    · rw [if_pos warm]
    · by_cases warm : env.start.advertises request.modelId owner = true
      · rw [if_pos warm]
      · rw [if_neg warm, if_pos fetched]

theorem boundCall_upstreamName {bound : Upstream} {upstreamModel : String}
    {advertised : List String} :
    (boundCall request bound upstreamModel advertised).upstreamName =
      bound.name := by
  unfold boundCall
  split
  · rfl
  · split <;> rfl

/-- The bindings that can answer. -/
theorem binds_of_resolveBound
    (answers : env.resolveBound request = .ok (view, some call)) :
    ∃ bound, env.Binds request bound call view := by
  have resolved := answers
  unfold resolveBound at resolved
  split at resolved
  · cases resolved
  · cases resolved
  · split at resolved
    · cases resolved
    · next bound found =>
        split at resolved
        · cases resolved
        · next enabled =>
            split at resolved
            · cases resolved
            · split at resolved
              · cases resolved
                exact ⟨bound, (UpstreamRegistry.mem_of_get found).1,
                  by simpa using enabled, boundCall_upstreamName, answers⟩
              · cases resolved

/-- The capability fallback, unmarked requests only. -/
theorem resolveLegacy_eq_ok {last : View} :
    env.resolveLegacy last request = .ok call ↔
      ¬ request.Marked ∧ ∃ upstream,
        resolveByCapability env.lower env.registry request
            (env.ttsSlotFor last request) = .ok upstream ∧
          call = .to request upstream
            (remapModel request.model request.originalModel)
            (orElse request.originalModel request.modelId)
            (.legacySlot upstream.name) := by
  unfold resolveLegacy
  by_cases marked : request.Marked
  · simp [marked]
  · rw [if_neg marked]
    cases picked : resolveByCapability env.lower env.registry request
        (env.ttsSlotFor last request) with
    | error slot => simp
    | ok upstream =>
      constructor
      · intro resolved
        cases resolved
        exact ⟨marked, upstream, rfl, rfl⟩
      · rintro ⟨-, other, same, rfl⟩
        cases same
        rfl

/-- Each answer is one of the ladder. -/
theorem resolveAdvertised_rung (falls : env.FallsTo request view)
    (resolved : env.resolveAdvertised view request = .ok call) :
    ∃ upstream, env.Rung request upstream call := by
  unfold resolveAdvertised at resolved
  cases known : env.advertiser view request with
  | some upstream =>
    simp only [known] at resolved
    cases resolved
    exact ⟨upstream, .warm falls known⟩
  | none =>
    simp only [known] at resolved
    split at resolved
    · next noneCold =>
        obtain ⟨unmarked, upstream, picked, rfl⟩ :=
          resolveLegacy_eq_ok.mp resolved
        exact ⟨upstream, .legacy
          ⟨view, falls, known, .inl ⟨noneCold, rfl⟩⟩ unmarked picked⟩
    · next cold =>
        cases fetched : env.advertiser env.prefetched request with
        | some upstream =>
          simp only [fetched] at resolved
          cases resolved
          exact ⟨upstream, .prefetched falls known cold fetched⟩
        | none =>
          simp only [fetched] at resolved
          obtain ⟨unmarked, upstream, picked, rfl⟩ :=
            resolveLegacy_eq_ok.mp resolved
          exact ⟨upstream, .legacy
            ⟨view, falls, known, .inr ⟨cold, rfl, fetched⟩⟩ unmarked
            picked⟩

/-- Every answer comes from a rung. -/
theorem rung_of_resolve (resolved : env.resolve request = .ok call) :
    ∃ upstream, env.Rung request upstream call := by
  unfold resolve at resolved
  cases owns : env.registry.pinnedOwner request.modelId with
  | some owner =>
    simp only [owns] at resolved
    obtain ⟨serves, rfl⟩ := resolvePinned_eq_ok.mp resolved
    exact ⟨owner, .pinned owns serves⟩
  | none =>
    simp only [owns] at resolved
    cases pick : env.containerPick request with
    | some upstream =>
      simp only [pick] at resolved
      cases resolved
      exact ⟨upstream, .container owns pick⟩
    | none =>
      simp only [pick] at resolved
      split at resolved
      · cases resolved
      · next answers =>
          cases resolved
          obtain ⟨bound, binds⟩ := binds_of_resolveBound answers
          exact ⟨bound, .bound owns pick binds⟩
      · next view passes =>
          exact resolveAdvertised_rung ⟨owns, pick, passes⟩ resolved

theorem FallsTo.resolve (falls : env.FallsTo request view) :
    env.resolve request = env.resolveAdvertised view request := by
  simp only [Surroundings.resolve, falls.free, falls.silent, falls.unbound]

/-- Every rung is an answer. -/
theorem resolve_of_rung (rung : env.Rung request upstream call) :
    env.resolve request = .ok call := by
  cases rung with
  | pinned owns serves =>
    simp only [resolve, owns]
    exact resolvePinned_eq_ok.mpr ⟨serves, rfl⟩
  | container free pick => simp only [resolve, free, pick]
  | bound free silent binds =>
    simp only [resolve, free, silent, binds.answers]
  | warm falls advertised =>
    rw [falls.resolve]
    simp only [resolveAdvertised, advertised]
  | prefetched falls unknown cold advertised =>
    rw [falls.resolve]
    simp only [resolveAdvertised, unknown, if_neg cold, advertised]
  | legacy exhausted unmarked picked =>
    obtain ⟨view, falls, unknown, last⟩ := exhausted.falls
    have answered := resolveLegacy_eq_ok.mpr ⟨unmarked, _, picked, rfl⟩
    rw [falls.resolve]
    rcases last with ⟨noneCold, rfl⟩ | ⟨cold, rfl, fetched⟩
    · simp only [resolveAdvertised, unknown, if_pos noneCold]
      exact answered
    · simp only [resolveAdvertised, unknown, if_neg cold, fetched]
      exact answered

/-- The rungs say all that `_resolve` can return. -/
theorem resolve_eq_ok :
    env.resolve request = .ok call ↔
      ∃ upstream, env.Rung request upstream call :=
  ⟨rung_of_resolve, fun ⟨_, rung⟩ => resolve_of_rung rung⟩

theorem mem_of_resolveByCapability {lower : String → String}
    {registry : UpstreamRegistry} {ttsSlot : Option String}
    (picked : resolveByCapability lower registry request ttsSlot =
      .ok upstream) :
    upstream ∈ registry.upstreams := by
  unfold resolveByCapability at picked
  dsimp only at picked
  split at picked
  · cases picked
  · next found =>
      split at picked
      · cases picked
        exact (UpstreamRegistry.mem_of_get found).1
      · cases picked

/-- The upstream is registered. -/
theorem Rung.get (rung : env.Rung request upstream call) :
    env.registry.get call.upstreamName = some upstream := by
  cases rung with
  | pinned owns serves =>
    exact UpstreamRegistry.get_of_mem (mem_of_find?_eq_some owns)
  | container free pick =>
    exact UpstreamRegistry.get_of_mem (mem_of_firstIn pick).1
  | bound free silent binds =>
    rw [binds.named]
    exact UpstreamRegistry.get_of_mem binds.listed
  | warm falls advertised =>
    exact UpstreamRegistry.get_of_mem (mem_of_firstIn advertised).1
  | prefetched falls unknown cold advertised =>
    exact UpstreamRegistry.get_of_mem (mem_of_firstIn advertised).1
  | legacy exhausted unmarked picked =>
    exact UpstreamRegistry.get_of_mem (mem_of_resolveByCapability picked)

/-! ## What a call respects -/

/--
The upstream of the call is enabled; it is the pinned owner of the id when
there is one; no slot is behind it when the request is upstream-only.
-/
structure Respects (env : Surroundings) (request : Request)
    (call : UpstreamCall) : Prop where
  enabled : ∃ upstream, env.registry.get call.upstreamName = some upstream ∧
    upstream.enabled = true
  owned : ∀ owner, env.registry.pinnedOwner request.modelId = some owner →
    env.registry.get call.upstreamName = some owner
  remote : request.Marked →
    ∀ upstream, env.registry.get call.upstreamName = some upstream →
      ¬ upstream.SlotBacked

/--
A marked request finds no slot on the rung which answers it, and the
heuristics do not pick a disabled upstream for an unmarked one.
-/
structure Lawful (env : Surroundings) (request : Request) : Prop where
  owner : request.Marked →
    ∀ owner, env.registry.pinnedOwner request.modelId = some owner →
      env.OwnerServes request owner → ¬ owner.SlotBacked
  container : request.Marked →
    env.registry.pinnedOwner request.modelId = none →
      env.containerPick request = none
  bound : request.Marked →
    env.registry.pinnedOwner request.modelId = none →
      env.containerPick request = none →
        ∀ bound call view, env.Binds request bound call view →
          ¬ bound.SlotBacked
  warm : request.Marked → ∀ view, env.FallsTo request view →
    ∀ upstream, env.advertiser view request = some upstream →
      ¬ upstream.SlotBacked
  prefetched : request.Marked → ∀ view, env.FallsTo request view →
    env.advertiser view request = none →
      env.coldRemotes view request ≠ [] →
        ∀ upstream, env.advertiser env.prefetched request = some upstream →
          ¬ upstream.SlotBacked
  legacy : ¬ request.Marked → ∀ last, env.Exhausted request last →
    ∀ upstream, resolveByCapability env.lower env.registry request
        (env.ttsSlotFor last request) = .ok upstream →
      upstream.enabled = true

theorem containerPick_slotBacked
    (pick : env.containerPick request = some upstream) :
    upstream.SlotBacked := by
  have passes := (mem_of_firstIn pick).2.2
  simp only [Bool.and_eq_true, decide_eq_true_eq] at passes
  exact .inr passes.1

theorem Exhausted.free {last : View} (exhausted : env.Exhausted request last) :
    env.registry.pinnedOwner request.modelId = none := by
  obtain ⟨_, falls, _⟩ := exhausted.falls
  exact falls.free

/-- A pinned model goes to its owner. -/
theorem Rung.owned {owner : Upstream} (rung : env.Rung request upstream call)
    (owns : env.registry.pinnedOwner request.modelId = some owner) :
    upstream = owner := by
  cases rung with
  | pinned same serves => exact Option.some.inj (same.symm.trans owns)
  | container free pick => simp [owns] at free
  | bound free silent binds => simp [owns] at free
  | warm falls advertised =>
    have free := falls.free
    simp [owns] at free
  | prefetched falls unknown cold advertised =>
    have free := falls.free
    simp [owns] at free
  | legacy exhausted unmarked picked =>
    have free := exhausted.free
    simp [owns] at free

theorem Rung.enabled (lawful : env.Lawful request)
    (rung : env.Rung request upstream call) :
    upstream.enabled = true := by
  cases rung with
  | pinned owns serves => exact serves.1
  | container free pick => exact (mem_of_firstIn pick).2.1
  | bound free silent binds => exact binds.enabled
  | warm falls advertised => exact (mem_of_firstIn advertised).2.1
  | prefetched falls unknown cold advertised =>
    exact (mem_of_firstIn advertised).2.1
  | legacy exhausted unmarked picked =>
    exact lawful.legacy unmarked _ exhausted _ picked

theorem Rung.remote (lawful : env.Lawful request) (marked : request.Marked)
    (rung : env.Rung request upstream call) : ¬ upstream.SlotBacked := by
  cases rung with
  | pinned owns serves => exact lawful.owner marked _ owns serves
  | container free pick =>
    have none := lawful.container marked free
    simp [none] at pick
  | bound free silent binds =>
    exact lawful.bound marked free silent _ _ _ binds
  | warm falls advertised => exact lawful.warm marked _ falls _ advertised
  | prefetched falls unknown cold advertised =>
    exact lawful.prefetched marked _ falls unknown cold _ advertised
  | legacy exhausted unmarked picked => exact absurd marked unmarked

theorem respects_of_lawful (lawful : env.Lawful request)
    (resolved : env.resolve request = .ok call) :
    env.Respects request call := by
  obtain ⟨upstream, rung⟩ := resolve_eq_ok.mp resolved
  refine ⟨⟨upstream, rung.get, rung.enabled lawful⟩, ?_, ?_⟩
  · intro owner owns
    rw [rung.get, rung.owned owns]
  · intro marked other found
    have same := Option.some.inj (rung.get.symm.trans found)
    exact same ▸ rung.remote lawful marked

/-- What respects the pins is lawful. -/
theorem lawful_of_respects
    (respects : ∀ call, env.resolve request = .ok call →
      env.Respects request call) : env.Lawful request := by
  have remote : ∀ {upstream call}, request.Marked →
      env.Rung request upstream call → ¬ upstream.SlotBacked := by
    intro upstream call marked rung
    exact (respects call (resolve_of_rung rung)).remote marked _ rung.get
  exact {
    owner := fun marked _ owns serves => remote marked (.pinned owns serves)
    container := by
      intro marked free
      cases pick : env.containerPick request with
      | none => rfl
      | some upstream =>
        exact absurd (containerPick_slotBacked pick)
          (remote marked (.container free pick))
    bound := fun marked free silent _ _ _ binds =>
      remote marked (.bound free silent binds)
    warm := fun marked _ falls _ advertised =>
      remote marked (.warm falls advertised)
    prefetched := fun marked _ falls unknown cold _ advertised =>
      remote marked (.prefetched falls unknown cold advertised)
    legacy := by
      intro unmarked last exhausted upstream picked
      have rung := Rung.legacy exhausted unmarked picked
      obtain ⟨other, found, enabled⟩ :=
        (respects _ (resolve_of_rung rung)).enabled
      have same := Option.some.inj (rung.get.symm.trans found)
      exact same ▸ enabled }

/-- The calls of the ladder respect the three rules exactly in these cases. -/
theorem routing_respects_iff (env : Surroundings) (request : Request) :
    (∀ call, env.resolve request = .ok call → env.Respects request call) ↔
      env.Lawful request :=
  ⟨lawful_of_respects, fun lawful _ resolved =>
    respects_of_lawful lawful resolved⟩

end Surroundings

/-! ## Two calls which break the rules -/

/-- Empty caches except for the ids of `warm`, and no slot manager. -/
def viewOf (warm : String → List String) : View := ⟨warm, none⟩

/-- No binding, nothing online, and caches which stay as they are. -/
def quietSurroundings (registry : UpstreamRegistry)
    (warm : String → List String) : Surroundings where
  lower := fun text => String.ofList (text.toList.map Char.toLower)
  registry := registry
  routeFor := fun _ => some none
  start := viewOf warm
  ownerFetched := false
  owned := viewOf warm
  isOnline := some false
  probed := viewOf warm
  boundFetched := false
  fetched := viewOf warm
  prefetched := viewOf warm
  configs := some []
  isServing := fun _ => false
  inventoried := viewOf warm

/-- The `agent` slot, switched off. -/
def disabledAgent : UpstreamRegistry :=
  ⟨[⟨"agent", .slot, some "agent", false, false, []⟩], by decide⟩

/-- The `brain` slot, which has the model `qwen` loaded. -/
def brainSlot : UpstreamRegistry :=
  ⟨[⟨"brain", .slot, some "brain", true, false, []⟩], by decide⟩

/-- A chat request for a model. -/
def chatFor (model upstreamOnly : String) : Request :=
  ⟨"/v1/chat/completions", "POST", some model, false, "", upstreamOnly⟩

/--
A request for an unknown model goes to the disabled `agent` slot, and one
marked upstream-only goes to the local slot which advertises its id.
-/
theorem disabled_agent_and_marked_slot :
    (∃ call, (quietSurroundings disabledAgent fun _ => []).resolve
        (chatFor "gpt" "") = .ok call ∧ call.upstreamName = "agent" ∧
      ¬ (quietSurroundings disabledAgent fun _ => []).Respects
        (chatFor "gpt" "") call) ∧
    ∃ call, (quietSurroundings brainSlot fun _ => ["qwen"]).resolve
        (chatFor "qwen" "qwen") = .ok call ∧ call.upstreamName = "brain" ∧
      ¬ (quietSurroundings brainSlot fun _ => ["qwen"]).Respects
        (chatFor "qwen" "qwen") call := by
  constructor
  · refine ⟨.to (chatFor "gpt" "") ⟨"agent", .slot, some "agent", false, false,
      []⟩ (some "gpt") "gpt" (.legacySlot "agent"), by decide, rfl, ?_⟩
    intro respects
    obtain ⟨upstream, found, enabled⟩ := respects.enabled
    cases found
    cases enabled
  · refine ⟨.keepingId (chatFor "qwen" "qwen") ⟨"brain", .slot, some "brain",
      true, false, []⟩ (.passthrough "brain"), by decide, rfl, ?_⟩
    intro respects
    exact respects.remote (by decide) _ rfl (.inl rfl)

end Hal0.Dispatcher.Routing
