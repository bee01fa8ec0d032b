import Hal0.Slots.ImageDrain

/-!
# What the image switch owes the requests in flight

A request that passed the guard is counted on its slot until it has left
`forward`, or until its stream has left `serving()`; image mode refuses the
LLM slots; and the drain holds a switch back while a slot it would unload has
a request.  The branch of `ensure_img` which finds image mode in place does
not drain: the last section has its runs.
-/

namespace Hal0.Slots.ImageDrain

open List Option
open Hal0.Transition Hal0.Monitor
open Hal0.Slots.Arbiter Hal0.Handles

/-! ## Requests in flight -/

/-- The request has left `forward`, or its stream has left `serving()`. -/
def hasLeft : InFlight.Phase → Bool
  | .settling false => true
  | _ => false

/-- The requests in flight on a slot. -/
def inFlightOn (manager : InFlight.Manager) (slot : String) :
    List InFlight.Request :=
  manager.requests.filter fun request =>
    request.slot = slot && !hasLeft request.phase

variable {manager : InFlight.Manager} {slot : String}

theorem inFlightOn_eq_nil :
    inFlightOn manager slot = [] ↔
      ∀ request ∈ manager.requests, request.slot = slot →
        hasLeft request.phase = true := by
  simp [inFlightOn, filter_eq_nil_iff]

/-- A request in flight has a ticket, or is counted by `serving()`. -/
theorem tally_inFlight_le (requests : List InFlight.Request)
    (slot : String) :
    InFlight.tally (fun phase => !hasLeft phase) requests slot ≤
      InFlight.tally InFlight.Phase.isTicketed requests slot +
        InFlight.tally InFlight.Phase.isCounted requests slot := by
  induction requests with
  | nil => exact Nat.le_refl 0
  | cons request rest ih =>
    have held : hasLeft request.phase = false →
        request.phase.isTicketed = true ∨
          request.phase.isCounted = true := by
      intro inside
      cases phase : request.phase with
      | settling inForward =>
        cases inForward with
        | true => exact Or.inl rfl
        | false => simp [phase, hasLeft] at inside
      | _ => simp [InFlight.Phase.isTicketed, InFlight.Phase.isCounted]
    simp only [InFlight.tally, countP_cons] at ih ⊢
    by_cases here : request.slot = slot
    · cases inside : hasLeft request.phase with
      | true => simp [here]; omega
      | false =>
        rcases held inside with ticketed | counted
        · simp [here, ticketed]; omega
        · simp [here, counted]; omega
    · simpa [here] using ih

theorem inFlightOn_counted {leaked : SlotName → Nat}
    (accounted : InFlight.Accounted manager leaked) (slot : String) :
    (inFlightOn manager slot).length ≤ manager.inFlightCount slot := by
  have serves := accounted.kept.counts_key slot accounted.serving
  have tickets := accounted.kept.counts_key slot accounted.tickets
  have bound := tally_inFlight_le manager.requests slot
  rw [inFlightOn, ← countP_eq_length_filter]
  simp only [InFlight.Manager.inFlightCount]
  rw [serves, tickets]
  simp only [InFlight.tally] at bound ⊢
  omega

theorem inFlightOn_of_count {leaked : SlotName → Nat}
    (accounted : InFlight.Accounted manager leaked)
    (uncounted : manager.inFlightCount slot = 0) :
    inFlightOn manager slot = [] := by
  have bound := inFlightOn_counted accounted slot
  rw [uncounted] at bound
  exact eq_nil_of_length_eq_zero (Nat.le_zero.1 bound)

/-- Every request in flight was in flight on its slot before. -/
def Onward (before after : List InFlight.Request) : Prop :=
  ∀ request ∈ after, hasLeft request.phase = false →
    ∃ earlier ∈ before, earlier.slot = request.slot ∧
      hasLeft earlier.phase = false

namespace Onward

variable {before middle after : List InFlight.Request}
  {request : InFlight.Request}

theorem refl (requests : List InFlight.Request) : Onward requests requests :=
  fun request present inside => ⟨request, present, rfl, inside⟩

theorem trans (first : Onward before middle)
    (second : Onward middle after) : Onward before after := by
  intro request present inside
  obtain ⟨between, found, same, between_inside⟩ :=
    second request present inside
  obtain ⟨earlier, first_found, first_same, first_inside⟩ :=
    first between found between_inside
  exact ⟨earlier, first_found, first_same.trans same, first_inside⟩

theorem erase : Onward before (before.erase request) :=
  fun other present inside =>
    ⟨other, mem_of_mem_erase present, rfl, inside⟩

theorem move (phase : InFlight.Phase) (present : request ∈ before)
    (inside : hasLeft request.phase = false) :
    Onward before
      ({ request with phase := phase } :: before.erase request) := by
  intro other found other_inside
  rcases mem_cons.1 found with rfl | kept
  · exact ⟨request, present, rfl, inside⟩
  · exact erase other kept other_inside

end Onward

theorem finish_requests (manager : InFlight.Manager)
    (request : InFlight.Request) :
    (manager.finish request).requests = manager.requests.erase request := by
  unfold InFlight.Manager.finish
  dsimp only
  split_ifs <;> rfl

theorem onward_of_step {next : InFlight.Manager} {action : InFlight.Action}
    (moves : isRequestMove action = true)
    (moved : manager.step action = some next) :
    Onward manager.requests next.requests := by
  cases InFlight.Manager.moves_of_step moved with
  | dispatch fresh => cases moves
  | rename distinct relabelled => cases moves
  | abort present waiting => exact finish_requests manager _ ▸ .erase
  | enterFailed present entering => exact finish_requests manager _ ▸ .erase
  | exitCancelled present releasing =>
    exact finish_requests manager _ ▸ .erase
  | exited present settling => exact finish_requests manager _ ▸ .erase
  | dropResponse present returned => exact finish_requests manager _ ▸ .erase
  | serve present waiting => exact .move _ present (by rw [waiting]; rfl)
  | entered present entering => exact .move _ present (by rw [entering]; rfl)
  | respond present answered streams =>
    exact .move _ present (by rw [answered]; rfl)
  | releaseForward present answered =>
    exact .move _ present (by rw [answered]; rfl)
  | releaseBody present streaming =>
    exact .move _ present (by rw [streaming]; rfl)
  | advance present returned => exact .move _ present (by rw [returned]; rfl)
  | enter present waiting free =>
    simp only [InFlight.Manager.servingEnter]
    split_ifs <;> exact .move _ present (by rw [waiting]; rfl)
  | @exit request inForward current present releasing free =>
    have settles : Onward manager.requests _ :=
      .move (.settling inForward) present (by rw [releasing]; rfl)
    simp only [InFlight.Manager.servingExit]
    split_ifs
    · exact settles
    · rw [finish_requests]
      exact settles.trans .erase
  | touch => exact .refl _
  | identify => exact .refl _

theorem Onward.idle {next : InFlight.Manager}
    (onward : Onward manager.requests next.requests)
    (idle : inFlightOn manager slot = []) : inFlightOn next slot = [] := by
  rw [inFlightOn_eq_nil] at idle ⊢
  intro request present here
  by_contra inside
  obtain ⟨earlier, found, same, was_inside⟩ :=
    onward request present (by simpa using inside)
  rw [idle earlier found (same.trans here)] at was_inside
  cases was_inside

/-! ## What the owner of the switch lock relies on -/

/-- The drain has expired, or nothing is in flight on the LLM slot. -/
def Clear (dir : SlotsDir) (gpu : Gpu) (slot : String) : Prop :=
  dir.group slot = some .llm →
    gpu.expired = true ∨ inFlightOn gpu.manager slot = []

/-- The manager's books are right, and the cache follows the configs. -/
structure Sound (dir : SlotsDir) (gpu : Gpu) : Prop where
  accounted : ∃ leaked, InFlight.Accounted gpu.manager leaked
  cache : CacheOk dir gpu.arbiter

/-- The owner finds its mode, and the slots it has yet to unload clear. -/
structure Owned (dir : SlotsDir) (gpu : Gpu) (pc : Pc) : Prop where
  expected : GpuArbiter.Expected gpu.arbiter pc
  covers : Covers (Clear dir gpu) pc

theorem Covers.everything (pc : Pc) : Covers (fun _ => True) pc := by
  cases pc with
  | awaitLoads call branch slots saved img deadline => exact fun _ _ => trivial
  | unload call branch slot rest saved img => exact fun _ _ => trivial
  | finishConfigs call loaded saved => exact fun _ _ => trivial
  | _ => trivial

theorem Covers.imp {pc : Pc} {clear later : String → Prop}
    (covers : Covers clear pc)
    (keeps : pc.expects = some .img → ∀ slot, clear slot → later slot) :
    Covers later pc := by
  cases pc with
  | awaitLoads call branch slots saved img deadline =>
    exact fun slot listed => keeps rfl slot (covers slot listed)
  | unload call branch slot rest saved img =>
    exact fun slot listed => keeps rfl slot (covers slot listed)
  | finishConfigs call loaded saved =>
    exact fun slot listed => keeps rfl slot (covers slot listed)
  | _ => trivial

variable {dir : SlotsDir} {after : Gpu}

theorem Owned.keep {before : Gpu} {pc : Pc} (owned : Owned dir before pc)
    (mode : after.arbiter.state.mode = before.arbiter.state.mode)
    (keeps : before.arbiter.state.mode = .img →
      ∀ slot, Clear dir before slot → Clear dir after slot) :
    Owned dir after pc where
  expected := fun expected found =>
    mode.trans (owned.expected expected found)
  covers := owned.covers.imp fun image =>
    keeps (owned.expected .img image)

variable {gpu : Gpu} {request : RequestId} {task : InFlight.TaskId}

/-- `forward` is refused by the guard, or takes its ticket. -/
theorem forward_cases {streams : Bool}
    (forwarded : gpu.forward dir request task slot streams = some after) :
    after.arbiter = gpu.arbiter.dispatch request slot (dir.config slot) ∧
      after.expired = gpu.expired ∧
      (after.manager = gpu.manager ∨
        (gpu.arbiter.guardDispatch slot (dir.config slot)).2 = .ok () ∧
          gpu.manager.step (.dispatch task slot streams) =
            some after.manager) := by
  unfold Gpu.forward at forwarded
  dsimp only at forwarded
  split at forwarded
  · cases forwarded
    exact ⟨rfl, rfl, Or.inl rfl⟩
  · rename_i passed
    obtain ⟨manager, stepped, rfl⟩ := map_eq_some_iff.1 forwarded
    exact ⟨rfl, rfl, Or.inr ⟨passed, stepped⟩⟩

/-- In image mode `forward` brings no request to an LLM slot. -/
theorem forward_clear {other : String} {streams : Bool}
    (forwarded : gpu.forward dir request task slot streams = some after)
    (ok : CacheOk dir gpu.arbiter) (image : gpu.arbiter.state.mode = .img)
    (clear : Clear dir gpu other) : Clear dir after other := by
  obtain ⟨-, expired, unchanged | ⟨passed, stepped⟩⟩ :=
    forward_cases forwarded
  · intro llm
    rw [expired, unchanged]
    exact clear llm
  · intro llm
    have apart : slot ≠ other := by
      rintro rfl
      rw [ok.refuses image llm] at passed
      cases passed
    rw [expired]
    refine (clear llm).imp_right fun idle => ?_
    rw [inFlightOn_eq_nil] at idle ⊢
    generalize after.manager = manager at stepped ⊢
    cases InFlight.Manager.moves_of_step stepped with
    | dispatch fresh =>
      intro present listed here
      rcases mem_cons.1 listed with rfl | before
      · exact absurd here apart
      · exact idle present before here

theorem Sound.forward {streams : Bool} (sound : Sound dir gpu)
    (forwarded : gpu.forward dir request task slot streams = some after) :
    Sound dir after := by
  obtain ⟨arbiter, -, manager⟩ := forward_cases forwarded
  obtain ⟨leaked, accounted⟩ := sound.accounted
  constructor
  · rcases manager with unchanged | ⟨-, stepped⟩
    · exact ⟨leaked, unchanged ▸ accounted⟩
    · obtain ⟨others, kept, -⟩ := accounted.step rfl stepped
      exact ⟨others, kept⟩
  · rw [arbiter]
    exact sound.cache.dispatch request slot

theorem occur_keeps {event : Event} (sound : Sound dir gpu)
    (occurred : gpu.occur dir event = some after) :
    Sound dir after ∧
      ∀ pc, Owned dir gpu pc → Owned dir after pc := by
  have aside : ∀ arbiter : GpuArbiter,
      arbiter.groupCache = gpu.arbiter.groupCache →
      arbiter.state.mode = gpu.arbiter.state.mode →
      Sound dir (gpu.withArbiter arbiter) ∧
        ∀ pc, Owned dir gpu pc → Owned dir (gpu.withArbiter arbiter) pc :=
    fun arbiter cache mode =>
      ⟨⟨sound.accounted, sound.cache.of_eq cache⟩,
        fun pc owned => owned.keep mode fun _ _ clear => clear⟩
  cases event with
  | elapse duration =>
    cases occurred
    exact aside _ rfl rfl
  | slotChanges slot status =>
    cases occurred
    exact aside _ rfl rfl
  | setPin pinned written =>
    cases occurred
    apply aside
    · simp only [GpuArbiter.occur, GpuArbiter.setPin]
      split_ifs <;> rfl
    · exact (GpuArbiter.occur_occurred gpu.arbiter
        (.setPin pinned written)).mode
  | releaseDemandLease request =>
    cases occurred
    have released : Steady (fun _ => True) gpu.arbiter _ :=
      Steady.releaseDemandLease request
    exact aside _ released.cache (GpuArbiter.occur_occurred gpu.arbiter
      (.releaseDemandLease request)).mode
  | forward request task slot streams =>
    refine ⟨sound.forward occurred, fun pc owned => ?_⟩
    apply owned.keep
    · rw [(forward_cases occurred).1]
      exact (GpuArbiter.dispatch_occurred gpu.arbiter request slot _).mode
    · exact fun image other => forward_clear occurred sound.cache image
  | request action =>
    obtain ⟨moves, stepped⟩ := ite_none_right_eq_some.1 occurred
    obtain ⟨manager, moved, rfl⟩ := map_eq_some_iff.1 stepped
    obtain ⟨leaked, accounted⟩ := sound.accounted
    have stays : action.renames = false := by
      cases action with
      | rename old new => cases moves
      | _ => rfl
    obtain ⟨others, kept, -⟩ := accounted.step stays moved
    refine ⟨⟨⟨others, kept⟩, sound.cache⟩, fun pc owned => ?_⟩
    refine owned.keep rfl ?_
    intro _ slot clear llm
    exact (clear llm).imp_right (onward_of_step moves moved).idle

/-! ## The books and the cache in every run -/

variable {suspends : Bool}

theorem Sound.resume {pc : Pc} {reply : Reply} {next : Option Pc}
    (sound : Sound dir gpu)
    (resumed : (machine suspends dir).resume gpu pc reply =
      some (after, next)) : Sound dir after := by
  obtain ⟨turn, turned, same⟩ := map_eq_some_iff.1 resumed
  obtain ⟨rfl, -⟩ := Prod.mk.inj same
  have cache : CacheOk dir gpu.view := sound.cache
  have follows := Follows.resume (fun _ => True) cache turned
    (Covers.everything pc) (fun _ _ => trivial)
    (fun _ _ _ _ _ _ _ => trivial) (fun _ _ _ _ _ _ => trivial)
  exact ⟨sound.accounted, follows.cache⟩

/-- What holds of slots and requests in every run. -/
theorem sound_protects (suspends : Bool) (dir : SlotsDir)
    (allowed : GpuWorld → GpuAction → Prop) :
    Protects (machine suspends dir) allowed (Sound dir)
      (fun _ _ => True) where
  start := by
    intro world task pc shared sound _ begun
    obtain ⟨arbiter, started, rfl⟩ := map_eq_some_iff.1 begun
    have cache : CacheOk dir world.shared.view := sound.cache
    exact ⟨⟨sound.accounted, cache.start started⟩, fun _ _ _ held => held⟩
  resume := by
    intro world task pc reply shared next sound _ _ _ resumed
    exact ⟨sound.resume resumed, fun _ _ _ => trivial,
      fun _ _ _ _ _ held => held⟩
  cancel := by
    intro world task pc shared sound _ _ _ abandoned
    obtain ⟨arbiter, left, rfl⟩ := map_eq_some_iff.1 abandoned
    have cache : CacheOk dir world.shared.view := sound.cache
    exact ⟨⟨sound.accounted, cache.abandon left⟩, fun _ _ _ _ held => held⟩
  occur := by
    intro world event shared sound _ occurred
    exact ⟨(occur_keeps sound occurred).1, fun _ _ _ held => held⟩
  restart := by
    intro world sound _
    refine ⟨⟨_, .boot _⟩, ?_⟩
    intro entry found
    cases found

/-- A process on the state file it finds, before its first request. -/
def started (grace : Nat) (file : StateFile) (slots : String → SlotStatus)
    (identity : IdentityStore) : GpuWorld :=
  .quiet ⟨.boot grace file slots, .boot identity, false⟩

theorem Sound.started (dir : SlotsDir) (grace : Nat) (file : StateFile)
    (slots : String → SlotStatus) (identity : IdentityStore) :
    Sound dir (started grace file slots identity).shared := by
  refine ⟨⟨_, .boot _⟩, ?_⟩
  intro entry found
  cases found

variable {world : GpuWorld}

theorem sound_of_run {allowed : GpuWorld → GpuAction → Prop} {grace : Nat}
    {file : StateFile} {slots : String → SlotStatus} {identity : IdentityStore}
    {actions : List GpuAction}
    (run : Run (machine suspends dir).step allowed
      (started grace file slots identity) actions world) :
    Sound dir world.shared :=
  ((Safe.quiet (Sound.started dir grace file slots identity)).run
    (sound_protects suspends dir allowed) run).state

/-! ## The drain in runs without late finishes -/

/-- Nothing is in flight on the LLM slots `_finish_unloads` would unload. -/
def Gpu.UnloadsIdle (dir : SlotsDir) (gpu : Gpu) : Prop :=
  ∀ slot ∈ gpu.arbiter.state.savedLlmSlots,
    gpu.arbiter.onGpu slot = true → dir.group slot = some .llm →
      inFlightOn gpu.manager slot = []

instance (dir : SlotsDir) (gpu : Gpu) : Decidable (gpu.UnloadsIdle dir) :=
  inferInstanceAs (Decidable (∀ slot ∈ gpu.arbiter.state.savedLlmSlots, _))

/-- `ensure_img` waits for the switch lock. -/
def isEnsureLock : Pc → Bool
  | .ensureLock _ => true
  | _ => false

/--
A switch which finds image mode in place finds no request in flight on the LLM
slots it will unload.
-/
def FinishesIdle (dir : SlotsDir) (world : GpuWorld) : GpuAction → Prop
  | .resume task _ =>
    (world.tasks task).any isEnsureLock = true →
      world.shared.arbiter.state.mode = .img →
        world.shared.UnloadsIdle dir
  | _ => True

instance (dir : SlotsDir) (world : GpuWorld) (action : GpuAction) :
    Decidable (FinishesIdle dir world action) :=
  match action with
  | .resume _ _ => inferInstanceAs (Decidable (_ → _ → _))
  | .start _ _ | .cancel _ | .occur _ | .restart => isTrue trivial

theorem resume_owned {task : TaskId} {pc : Pc} {reply : Reply}
    {next : Option Pc} (sound : Sound dir world.shared)
    (permitted : FinishesIdle dir world (.resume task reply))
    (suspended : world.tasks task = some pc)
    (owned : pc.holds = true → Owned dir world.shared pc)
    (resumed : (machine suspends dir).resume world.shared pc reply =
      some (after, next)) :
    ∀ counter, next = some counter → Owned dir after counter := by
  obtain ⟨turn, turned, same⟩ := map_eq_some_iff.1 resumed
  obtain ⟨rfl, rfl⟩ := Prod.mk.inj same
  obtain ⟨leaked, accounted⟩ := sound.accounted
  have progress := GpuArbiter.progress_of_resume turned
    fun inside => (owned inside).expected
  have cache : CacheOk dir world.shared.view := sound.cache
  have follows := Follows.resume
    (Clear dir ⟨turn.1, world.shared.manager, world.shared.expires pc⟩)
    cache turned ?covers ?drained ?expired ?finishes
  case covers =>
    cases pc with
    | awaitLoads call branch slots saved img deadline =>
      exact (owned rfl).covers
    | unload call branch slot rest saved img => exact (owned rfl).covers
    | finishConfigs call loaded saved => exact (owned rfl).covers
    | _ => trivial
  case drained =>
    intro slot uncounted llm
    exact Or.inr (inFlightOn_of_count accounted uncounted)
  case expired =>
    rintro call saved img deadline rfl late slot llm
    left
    show (world.shared.expired || decide (deadline ≤ _)) = true
    rw [Bool.or_eq_true, decide_eq_true_eq]
    exact Or.inr late
  case finishes =>
    rintro call rfl image slot saved loaded llm
    refine Or.inr (permitted ?_ image slot saved loaded llm)
    rw [suspended]
    rfl
  intro counter awaited
  exact ⟨progress.expected awaited, follows.covers counter awaited⟩

/-- A finished drain stays finished. -/
theorem drain_protects (suspends : Bool) (dir : SlotsDir) :
    Protects (machine suspends dir) (FinishesIdle dir) (Sound dir)
      (Owned dir) where
  start := by
    intro world task pc shared sound permitted begun
    refine ⟨((sound_protects suspends dir _).start world task pc shared sound
      permitted begun).1, ?_⟩
    obtain ⟨arbiter, started, rfl⟩ := map_eq_some_iff.1 begun
    intro other _ _ owned
    refine owned.keep ?_ fun _ _ clear => clear
    exact congrArg ArbiterState.mode
      (GpuArbiter.started_of_start started).kept.state
  resume := by
    intro world task pc reply shared next sound permitted suspended owned
      resumed
    have goesOn := resume_owned sound permitted suspended owned resumed
    refine ⟨sound.resume resumed, fun counter awaited _ =>
      goesOn counter awaited, ?_⟩
    intro outside unlocked other _ _ held
    obtain ⟨turn, turned, same⟩ := map_eq_some_iff.1 resumed
    obtain ⟨rfl, -⟩ := Prod.mk.inj same
    have aside := GpuArbiter.resume_unswitched turned outside unlocked
    refine held.keep (congrArg ArbiterState.mode aside.1.state) ?_
    intro _ slot clear llm
    refine (clear llm).imp_left fun late => ?_
    cases pc with
    | ensureLock call => cases unlocked
    | drain call saved img deadline => cases outside
    | _ => exact late
  cancel := by
    intro world task pc shared sound permitted suspended _ abandoned
    refine ⟨((sound_protects suspends dir _).cancel world task pc shared
      sound permitted suspended (fun _ => trivial) abandoned).1, ?_⟩
    obtain ⟨arbiter, left, rfl⟩ := map_eq_some_iff.1 abandoned
    intro _ other _ _ held
    refine held.keep ?_ fun _ _ clear => clear
    exact congrArg ArbiterState.mode
      (GpuArbiter.abandoned_of_abandon left).kept.state
  occur := by
    intro world event shared sound _ occurred
    obtain ⟨kept, keeps⟩ := occur_keeps sound occurred
    exact ⟨kept, fun pc _ _ owned => keeps pc owned⟩
  restart := (sound_protects suspends dir _).restart

/-- The task is unloading the slot. -/
def unloads (slot : String) : Pc → Prop
  | .unload _ _ unloaded _ _ _ => unloaded = slot
  | _ => False

/--
What the drain owes: every request in flight is in its slot's count, image
mode refuses every LLM slot, and a switch unloads an LLM slot only with
nothing in flight on it or once its drain has expired.
-/
structure Drained (dir : SlotsDir) (world : GpuWorld) : Prop where
  counted : ∀ slot, (inFlightOn world.shared.manager slot).length ≤
    world.shared.manager.inFlightCount slot
  refused : world.shared.arbiter.state.mode = .img →
    ∀ slot, dir.group slot = some .llm →
      (world.shared.arbiter.guardDispatch slot (dir.config slot)).2 =
        .error (.gpuImageMode slot retryAfterFloor)
  cleared : ∀ task pc slot, world.tasks task = some pc →
    unloads slot pc → dir.group slot = some .llm →
      world.shared.expired = true ∨
        inFlightOn world.shared.manager slot = []

theorem Sound.counted_and_refused (sound : Sound dir gpu) :
    (∀ slot, (inFlightOn gpu.manager slot).length ≤
      gpu.manager.inFlightCount slot) ∧
    (gpu.arbiter.state.mode = .img → ∀ slot, dir.group slot = some .llm →
      (gpu.arbiter.guardDispatch slot (dir.config slot)).2 =
        .error (.gpuImageMode slot retryAfterFloor)) := by
  obtain ⟨leaked, accounted⟩ := sound.accounted
  exact ⟨inFlightOn_counted accounted,
    fun image slot llm => sound.cache.refuses image llm⟩

/--
In every run in which a switch that finds image mode in place finds the slots
it unloads idle, the drain holds what it owes in each state.
-/
theorem drained_of_idle_finishes (suspends : Bool) (dir : SlotsDir)
    (grace : Nat) (file : StateFile) (slots : String → SlotStatus)
    (identity : IdentityStore) (actions : List GpuAction)
    (world : GpuWorld)
    (run : Run (machine suspends dir).step (FinishesIdle dir)
      (started grace file slots identity) actions world) :
    Drained dir world := by
  have boots := Sound.started dir grace file slots identity
  have safe := (Safe.quiet boots).run (drain_protects suspends dir) run
  obtain ⟨counted, refused⟩ := (sound_of_run run).counted_and_refused
  refine ⟨counted, refused, ?_⟩
  intro task pc slot suspended unloading llm
  cases pc with
  | unload call branch unloaded rest saved img =>
    obtain rfl : unloaded = slot := unloading
    have owned := safe.owner task _ suspended rfl
    exact owned.covers _ mem_cons_self llm
  | _ => cases unloading

/-! ## A drained switch, and two switches which unload under a request -/

def chatAndImgDir : SlotsDir := ⟨chatAndImg, by decide⟩

/-- A machine with every slot ready. -/
def readyGpu : GpuWorld :=
  started 10000 .missing (fun _ => ⟨.ready, false, 0⟩) .empty

def ticketedChat : InFlight.Request := ⟨1, "chat", false, .ticketed⟩

/-- A chat request passes the guard; a switch reaches its drain. -/
def switchUnderRequest : List GpuAction :=
  [.occur (.forward 0 1 "chat" false), .start 0 (.ensureLock ⟨false, none⟩),
    .resume 0 {}, .resume 0 { configs := some [] }]

/-- The first switch is cancelled in its drain; another call follows it. -/
def switchAfterCancel : List GpuAction :=
  switchUnderRequest ++
    [.cancel 0, .start 1 (.ensureLock ⟨false, none⟩), .resume 1 {},
      .resume 1 { configs := some [] }]

/--
The drain of the first switch runs out and the chat slot is unloaded under its
request.  The slot is loaded again, and another image request follows.
-/
def switchAfterReload : List GpuAction :=
  switchUnderRequest ++
    [.occur (.elapse drainTimeout), .resume 0 {},
      .resume 0 {}, .occur (.slotChanges "chat" ⟨.ready, false, 0⟩),
      .start 1 (.ensureLock ⟨false, none⟩), .resume 1 {},
      .resume 1 { configs := some [] }]

/-- The chat slot is unloaded with this many requests in flight on it. -/
def unloadsChat (task : TaskId) (count : Nat) (world : GpuWorld) : Bool :=
  (match world.tasks task with
    | some (.unload _ _ slot _ _ _) => slot == "chat"
    | _ => false) &&
    !world.shared.expired &&
    (inFlightOn world.shared.manager "chat").length == count

theorem unloadsChat_spec {task : TaskId} {count : Nat}
    (unloading : unloadsChat task count world = true) :
    (∃ pc, world.tasks task = some pc ∧ unloads "chat" pc) ∧
      world.shared.expired = false ∧
      (inFlightOn world.shared.manager "chat").length = count := by
  simp only [unloadsChat, Bool.and_eq_true, Bool.not_eq_true',
    beq_iff_eq] at unloading
  obtain ⟨⟨here, fresh⟩, counted⟩ := unloading
  refine ⟨?_, fresh, counted⟩
  split at here
  · rename_i found
    refine ⟨_, found, ?_⟩
    exact eq_of_beq here
  · cases here

/-- The switch waits for the request, and unloads the slot when it is gone. -/
theorem drained_switch_unloads_idle :
    ∃ world,
      Run (machine false chatAndImgDir).step (FinishesIdle chatAndImgDir)
          readyGpu
          (switchUnderRequest ++
            [.resume 0 {}, .occur (.request (.abort ticketedChat)),
              .resume 0 {}]) world ∧
        (∃ pc, world.tasks 0 = some pc ∧ unloads "chat" pc) ∧
        world.shared.expired = false ∧ Drained chatAndImgDir world := by
  obtain ⟨world, run, unloading⟩ := Run.exists_of_exec
    (machine false chatAndImgDir).step (FinishesIdle chatAndImgDir) readyGpu
    (switchUnderRequest ++
      [.resume 0 {}, .occur (.request (.abort ticketedChat)), .resume 0 {}])
    (unloadsChat 0 0) (by decide +kernel)
  obtain ⟨here, fresh, -⟩ := unloadsChat_spec unloading
  exact ⟨world, run, here, fresh,
    drained_of_idle_finishes _ _ _ _ _ _ _ _ run⟩

theorem not_drained {task : TaskId}
    (unloading : unloadsChat task 1 world = true) :
    ¬ Drained chatAndImgDir world := by
  obtain ⟨⟨pc, suspended, here⟩, fresh, counted⟩ :=
    unloadsChat_spec unloading
  intro drained
  rcases drained.cleared task pc "chat" suspended here (by decide) with
    late | idle
  · rw [fresh] at late
    cases late
  · rw [idle] at counted
    cases counted

/--
Two runs in which `ensure_img` finds image mode in place and unloads the chat
slot under a request that passed the guard, with no drain of its own.
-/
theorem finished_unload_ignores_requests :
    (∃ world,
      Run (machine false chatAndImgDir).step Anything readyGpu
          switchAfterCancel world ∧ ¬ Drained chatAndImgDir world) ∧
    (∃ world,
      Run (machine false chatAndImgDir).step Anything readyGpu
          switchAfterReload world ∧ ¬ Drained chatAndImgDir world) := by
  constructor
  · obtain ⟨world, run, unloading⟩ := Run.exists_of_exec
      (machine false chatAndImgDir).step Anything readyGpu switchAfterCancel
      (unloadsChat 1 1) (by decide +kernel)
    exact ⟨world, run, not_drained unloading⟩
  · obtain ⟨world, run, unloading⟩ := Run.exists_of_exec
      (machine false chatAndImgDir).step Anything readyGpu switchAfterReload
      (unloadsChat 1 1) (by decide +kernel)
    exact ⟨world, run, not_drained unloading⟩

end Hal0.Slots.ImageDrain
