import Hal0.Slots.State
import Hal0.Slots.ConfigDoc
import Mathlib.Data.List.Infix
import Mathlib.Data.List.Sort
import Mathlib.Data.Prod.Lex

/-!
# The resolution ladder of the dispatcher

`Dispatcher._resolve` turns a request into an `UpstreamCall`.  Six rungs are
tried in turn: the container slots, the pinned owner of the model id, the
binding of the model registry, the warm caches, the caches after a prefetch of
the cold remotes, and the path and name heuristics of `resolve_by_capability`.

The coroutine suspends between the rungs.  What it reads after a suspension
(the model caches, the slot states, the requests in flight) may differ from
what it read before, so that each suspension has a `View` of its own.
-/

namespace Hal0.Dispatcher.Routing

open Hal0.Slots (SlotState)

/-! ## Upstreams -/

inductive UpstreamKind where
  | slot
  | remote
deriving DecidableEq, Repr

/-- The fields of `Upstream` which routing reads. -/
structure Upstream where
  name : String
  kind : UpstreamKind
  slotName : Option String
  enabled : Bool
  pinned : Bool
  ownedModels : List String
deriving DecidableEq, Repr

/-- Python's `first or second` on strings. -/
def orElse (first second : String) : String :=
  if first = "" then second else first

namespace Upstream

/-- `_slot_name_of`. -/
def localSlot (upstream : Upstream) : String :=
  match upstream.kind with
  | .slot => orElse (upstream.slotName.getD "") upstream.name
  | .remote => ""

/-- `_container_slot_name_of`. -/
def containerSlot (upstream : Upstream) : String :=
  match upstream.kind with
  | .slot => ""
  | .remote => upstream.slotName.getD ""

/-- `_slot_of`. -/
def slotOf (upstream : Upstream) : String :=
  orElse upstream.containerSlot upstream.localSlot

/-- A slot stands behind the upstream. -/
def SlotBacked (upstream : Upstream) : Prop :=
  upstream.kind = .slot ∨ upstream.containerSlot ≠ ""

instance (upstream : Upstream) : Decidable upstream.SlotBacked :=
  inferInstanceAs (Decidable (_ ∨ _))

/-- The upstream is pinned to the model. -/
def Owns (upstream : Upstream) (model : String) : Prop :=
  upstream.pinned = true ∧ model ∈ upstream.ownedModels

instance (upstream : Upstream) (model : String) :
    Decidable (upstream.Owns model) :=
  inferInstanceAs (Decidable (_ ∧ _))

end Upstream

/-- `UpstreamRegistry`: a dictionary by name, in the order of registration. -/
structure UpstreamRegistry where
  upstreams : List Upstream
  distinct : (upstreams.map Upstream.name).Nodup

namespace UpstreamRegistry

/-- `UpstreamRegistry.get`. -/
def get (registry : UpstreamRegistry) (name : String) : Option Upstream :=
  registry.upstreams.find? (·.name = name)

/-- `_pinned_owner`. -/
def pinnedOwner (registry : UpstreamRegistry) (model : String) :
    Option Upstream :=
  registry.upstreams.find? (·.Owns model)

end UpstreamRegistry

/-! ## What the coroutine reads between two suspensions -/

/-- What the slot manager answers; a state which cannot be read is `none`. -/
structure SlotView where
  state : String → Option SlotState
  inFlightCount : String → Nat

/-- What routing sees of the upstreams. -/
structure View where
  cachedModels : String → List String
  slots : Option SlotView

/-- The upstream's cached list has the model. -/
def View.advertises (view : View) (model : String) (upstream : Upstream) :
    Bool :=
  decide (model ∈ view.cachedModels upstream.name)

/-- `slot_selection_rank`. -/
def slotSelectionRank : SlotState → Nat
  | .ready | .serving | .idle => 0
  | .warming | .starting | .pulling => 1
  | .offline | .unloading => 2
  | .error => 3

/-- `rank_slot_name`: the lane first, then health, then idle siblings. -/
def rankSlotName (slots : SlotView) (laneSlot slotName : String) :
    Nat ×ₗ Nat ×ₗ Nat :=
  let laneMiss := if laneSlot ≠ "" ∧ slotName = laneSlot then 0 else 1
  let state := (slots.state slotName).getD .error
  let preferenceMiss :=
    if slotName ≠ "utility" ∧ slots.inFlightCount slotName = 0 then 0 else 1
  toLex (laneMiss, toLex (slotSelectionRank state, preferenceMiss))

/-- The slot-backed entries are replaced by `ranked`, in their order. -/
def refill : List Upstream → List Upstream → List Upstream
  | [], _ => []
  | upstream :: rest, ranked =>
    if upstream.slotOf = "" then upstream :: refill rest ranked
    else
      match ranked with
      | [] => upstream :: refill rest []
      | first :: later => first :: refill rest later

/--
`_upstreams_in_priority_order`.  The sort is stable, so that the position of
the source as the last key needs no mention.
-/
def inPriorityOrder (registry : UpstreamRegistry) (view : View)
    (laneSlot : String) : List Upstream :=
  let upstreams := registry.upstreams.filter Upstream.enabled
  match view.slots with
  | none => upstreams
  | some slots =>
    let backed := upstreams.filter (·.slotOf ≠ "")
    if backed.length < 2 then upstreams
    else
      refill upstreams (backed.insertionSort fun first second =>
        rankSlotName slots laneSlot first.slotOf ≤
          rankSlotName slots laneSlot second.slotOf)

/-- `_outranked_by_a_healthier_slot`. -/
def outranked (registry : UpstreamRegistry) (view : View) (laneSlot : String)
    (bound : Upstream) (model : String) : Bool :=
  match view.slots with
  | none => false
  | some slots =>
    bound.slotOf ≠ "" &&
      (inPriorityOrder registry view laneSlot).any fun upstream =>
        upstream.name ≠ bound.name && upstream.slotOf ≠ "" &&
          view.advertises model upstream &&
          decide (rankSlotName slots laneSlot upstream.slotOf <
            rankSlotName slots laneSlot bound.slotOf)

/-! ## Requests -/

/-- `fragment in text`. -/
def occursIn (fragment text : String) : Bool :=
  decide (fragment.toList <:+: text.toList)

/-- `text.strip()`. -/
def strip (text : String) : String :=
  String.ofList (Slots.ConfigFiles.stripped text)

/--
What `_resolve` reads of a request.  `model` is the `model` of the body when it
is a string; `laneSlot` and `upstreamOnly` are the two marks of the route
layer, empty when they are not set.
-/
structure Request where
  path : String
  method : String
  model : Option String
  stream : Bool
  laneSlot : String
  upstreamOnly : String

/-- `_default_for_path`. -/
def defaultForPath (path : String) : String :=
  if occursIn "/embeddings" path then "embed"
  else if occursIn "/rerank" path then "rerank"
  else if occursIn "/audio/speech" path then "tts"
  else if occursIn "/images/" path then "img"
  else "agent"

namespace Request

/-- `original_model`. -/
def originalModel (request : Request) : String :=
  strip (request.model.getD "")

/-- `model_id`. -/
def modelId (request : Request) : String :=
  orElse request.originalModel (defaultForPath request.path)

/-- `upstream_only_model(request)` is truthy. -/
def Marked (request : Request) : Prop :=
  request.upstreamOnly ≠ ""

instance (request : Request) : Decidable request.Marked :=
  inferInstanceAs (Decidable (_ ≠ _))

end Request

/-! ## Calls -/

/-- How the upstream was found. -/
inductive ResolutionPath where
  | container (upstream : String)
  | pinned (upstream : String)
  | registry
  | passthrough (upstream : String)
  | passthroughPrefetched (upstream : String)
  | legacySlot (upstream : String)
deriving DecidableEq, Repr

/--
`UpstreamCall`, with the `model` of its body; the target URL and the headers
are made from the upstream.
-/
structure UpstreamCall where
  upstreamName : String
  bodyModel : Option String
  streaming : Bool
  method : String
  resolvedModel : String
  requestedModel : String
  resolutionPath : ResolutionPath
  slotName : String
  containerSlotName : String
deriving DecidableEq, Repr

/-- `_remap_model`. -/
def remapModel (model : Option String) (newModel : String) : Option String :=
  if newModel = "" then model else some newModel

/-- The errors of `_resolve`, with the details they carry. -/
inductive ResolveError where
  | ownerDisabled (model upstream : String)
  | ownerOffline (model upstream : String)
  | ownerDoesNotAdvertise (model upstream : String) (advertised : List String)
  | registryLoadFailed
  | unknownUpstream (model upstream : String)
  | probeFailed
  | upstreamOnlyUnavailable (model : String)
  | noRouteFound (model path slot : String)
deriving DecidableEq, Repr

/-- The call to the upstream that was found. -/
def UpstreamCall.to (request : Request) (upstream : Upstream)
    (bodyModel : Option String) (resolvedModel : String)
    (resolutionPath : ResolutionPath) : UpstreamCall where
  upstreamName := upstream.name
  bodyModel := bodyModel
  streaming := request.stream
  method := request.method
  resolvedModel := resolvedModel
  requestedModel := request.originalModel
  resolutionPath := resolutionPath
  slotName := upstream.localSlot
  containerSlotName := upstream.containerSlot

/-- The call of the rungs which keep the requested id. -/
def UpstreamCall.keepingId (request : Request) (upstream : Upstream)
    (resolutionPath : ResolutionPath) : UpstreamCall :=
  .to request upstream (remapModel request.model request.modelId)
    request.modelId resolutionPath

/-! ## Path and name heuristics -/

/-- A slot config as `select_slot_by_type` reads it. -/
structure SlotConfig where
  name : String
  type : String
  bound : String

/-- `select_slot_by_type`. -/
def selectSlotByType (lower : String → String) (configs : List SlotConfig)
    (slotType model seededName : String) (isServing : String → Bool)
    (advertised : String → List String) : Option String :=
  let candidates := (configs.filter fun config =>
    config.name ≠ "" && lower config.type = slotType && config.bound ≠ "" &&
      isServing config.name &&
      (model = "" || model = config.bound ||
        decide (model ∈ advertised config.name))).map SlotConfig.name
  if seededName ∈ candidates then some seededName else candidates.head?

/-- `SLOT_ALIASES.get(name, name)`. -/
def slotAlias (name : String) : String :=
  if name = "embed-rerank" then "rerank"
  else if name = "qwen3:4b" then "flm"
  else if name = "qwen3-4b" then "flm"
  else name

/-- Rules 1 to 4: the slot which the path pins. -/
def pathPinned (path : String) (ttsSlot : Option String) : Option String :=
  if occursIn "/embeddings" path then some "embed"
  else if occursIn "/rerankings" path || occursIn "/rerank" path then
    some "rerank"
  else if occursIn "/audio/speech" path then
    some (orElse (ttsSlot.getD "") "tts")
  else if occursIn "/images/generations" path ||
      occursIn "/images/edits" path || occursIn "/images/variations" path then
    some "img"
  else none

/-- Rules 5 to 9: the slot which the name of the model picks. -/
def namePicked (lower : String → String) (registry : UpstreamRegistry)
    (model : String) : String :=
  let lowered := lower model
  if model = "" then "agent"
  else if occursIn ":" model then "flm"
  else if occursIn "embed" lowered || occursIn "rerank" lowered then "embed"
  else
    match registry.get (slotAlias lowered) with
    | some found =>
      if found.kind = .slot ∧ slotAlias lowered ≠ "agent" then
        slotAlias lowered
      else "agent"
    | none => "agent"

/-- `resolve_by_capability`; a failure names the slot it looked for. -/
def resolveByCapability (lower : String → String)
    (registry : UpstreamRegistry) (request : Request)
    (ttsSlot : Option String) : Except String Upstream :=
  let pin := pathPinned request.path ttsSlot
  let candidate :=
    pin.getD (namePicked lower registry (request.model.getD ""))
  match registry.get candidate with
  | none => .error candidate
  | some upstream =>
    if upstream.kind = .slot ∨
        (pin.isSome ∧ upstream.kind = .remote ∧
          upstream.slotName = some candidate) then
      .ok upstream
    else .error candidate

/-! ## The ladder -/

/-- The dispatcher, and what one call finds outside of it. -/
structure Surroundings where
  /-- `str.lower`. -/
  lower : String → String
  registry : UpstreamRegistry
  /-- `_registry_route_for`; `none` when the load of the registry raises. -/
  routeFor : String → Option (Option (String × String))
  /-- The view once the body of the request is there. -/
  start : View
  /-- Whether the fetch of the owner's models succeeds, and the view then. -/
  ownerFetched : Bool
  owned : View
  /-- `_is_online` of the bound upstream, `none` when it raises. -/
  isOnline : Option Bool
  probed : View
  /-- Whether the fetch of the bound slot's models succeeds. -/
  boundFetched : Bool
  fetched : View
  /-- The view after `_cold_prefetch`. -/
  prefetched : View
  /-- `iter_configs`, `none` when it raises; and `is_ready_for_dispatch`. -/
  configs : Option (List SlotConfig)
  isServing : String → Bool
  inventoried : View

namespace Surroundings

/-- The first upstream of the priority order which passes `test`. -/
def firstIn (env : Surroundings) (view : View) (request : Request)
    (test : Upstream → Bool) : Option Upstream :=
  (inPriorityOrder env.registry view request.laneSlot).find? test

/-- Step 0: the container slot which advertises the id. -/
def containerPick (env : Surroundings) (request : Request) :
    Option Upstream :=
  env.firstIn env.start request fun upstream =>
    upstream.containerSlot ≠ "" &&
      env.start.advertises request.modelId upstream

/-- Steps 2 and 3: the first upstream whose cache has the id. -/
def advertiser (env : Surroundings) (view : View) (request : Request) :
    Option Upstream :=
  env.firstIn view request (view.advertises request.modelId)

/-- Step 0b. -/
def resolvePinned (env : Surroundings) (request : Request)
    (owner : Upstream) : Except ResolveError UpstreamCall :=
  let call := UpstreamCall.keepingId request owner (.pinned owner.name)
  if owner.enabled = false then
    .error (.ownerDisabled request.modelId owner.name)
  else if env.start.advertises request.modelId owner then .ok call
  else if env.owned.advertises request.modelId owner then .ok call
  else if env.ownerFetched then
    .error (.ownerDoesNotAdvertise request.modelId owner.name
      (env.owned.cachedModels owner.name))
  else .error (.ownerOffline request.modelId owner.name)

/--
Step 1, once the bound upstream is known to be enabled: whether it is online,
what it advertises, and the view at that time.
-/
def probeBound (env : Surroundings) (bound : Upstream) :
    Option (Bool × List String × View) :=
  let advertised := env.start.cachedModels bound.name
  if advertised ≠ [] then some (true, advertised, env.start)
  else
    env.isOnline.map fun online =>
      if online then (true, advertised, env.probed)
      else if bound.kind = .slot then
        if env.boundFetched then
          let fresh := env.fetched.cachedModels bound.name
          (decide (fresh ≠ []), fresh, env.fetched)
        else (false, advertised, env.fetched)
      else (false, advertised, env.probed)

/-- The call to the bound upstream, with the id of a model which it has. -/
def boundCall (request : Request) (bound : Upstream) (upstreamModel : String)
    (advertised : List String) : UpstreamCall :=
  match advertised with
  | [] => .to request bound request.model upstreamModel .registry
  | actual :: _ =>
    if request.modelId ∈ advertised then
      .to request bound request.model upstreamModel .registry
    else .to request bound (some actual) actual .registry

/-- Step 1: the call of the binding, or the view with which to go on. -/
def resolveBound (env : Surroundings) (request : Request) :
    Except ResolveError (View × Option UpstreamCall) :=
  match env.routeFor request.modelId with
  | none => .error .registryLoadFailed
  | some none => .ok (env.start, none)
  | some (some (name, upstreamModel)) =>
    match env.registry.get name with
    | none => .error (.unknownUpstream request.modelId name)
    | some bound =>
      if bound.enabled = false then .ok (env.start, none)
      else
        match env.probeBound bound with
        | none => .error .probeFailed
        | some (online, advertised, view) =>
          if online && !outranked env.registry view request.laneSlot
              bound request.modelId then
            .ok (view,
              some (boundCall request bound upstreamModel advertised))
          else .ok (view, none)

/-- `_tts_slot_for`. -/
def ttsSlotFor (env : Surroundings) (view : View) (request : Request) :
    Option String :=
  if !occursIn "/audio/speech" request.path || view.slots.isNone then none
  else
    env.configs.bind fun configs =>
      selectSlotByType env.lower configs "tts" request.originalModel "tts"
        env.isServing env.inventoried.cachedModels

/-- The remotes whose cache is empty when step 3 begins. -/
def coldRemotes (env : Surroundings) (view : View) (request : Request) :
    List Upstream :=
  (inPriorityOrder env.registry view request.laneSlot).filter fun upstream =>
    upstream.kind = .remote && view.cachedModels upstream.name = []

/-- Step 4, which an upstream-only request does not reach. -/
def resolveLegacy (env : Surroundings) (view : View) (request : Request) :
    Except ResolveError UpstreamCall :=
  if request.Marked then
    .error (.upstreamOnlyUnavailable request.modelId)
  else
    match resolveByCapability env.lower env.registry request
        (env.ttsSlotFor view request) with
    | .error slot => .error (.noRouteFound request.modelId request.path slot)
    | .ok upstream =>
      .ok (.to request upstream
        (remapModel request.model request.originalModel)
        (orElse request.originalModel request.modelId)
        (.legacySlot upstream.name))

/-- Steps 2 to 4. -/
def resolveAdvertised (env : Surroundings) (view : View)
    (request : Request) : Except ResolveError UpstreamCall :=
  match env.advertiser view request with
  | some upstream =>
    .ok (.keepingId request upstream (.passthrough upstream.name))
  | none =>
    if env.coldRemotes view request = [] then env.resolveLegacy view request
    else
      match env.advertiser env.prefetched request with
      | some upstream =>
        .ok (.keepingId request upstream
          (.passthroughPrefetched upstream.name))
      | none => env.resolveLegacy env.prefetched request

/-- `Dispatcher._resolve`. -/
def resolve (env : Surroundings) (request : Request) :
    Except ResolveError UpstreamCall :=
  match env.registry.pinnedOwner request.modelId with
  | some owner => env.resolvePinned request owner
  | none =>
    match env.containerPick request with
    | some upstream =>
      .ok (.keepingId request upstream (.container upstream.name))
    | none =>
      match env.resolveBound request with
      | .error error => .error error
      | .ok (_, some call) => .ok call
      | .ok (view, none) => env.resolveAdvertised view request

end Surroundings

end Hal0.Dispatcher.Routing
