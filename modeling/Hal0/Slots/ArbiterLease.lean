import Hal0.Slots.ArbiterProgram

/-!
# Demand leases hold off the next switch

An LLM request which `make_room_for_llm` let through holds a lease until it
has its dispatch ticket.  `ensure_img` looks for live leases before it
persists image mode, and `iter_configs`, which it awaits in between, does not
suspend it.  So a live lease keeps the mode, unless the wait of a switch for
the lease holders ran to its deadline.
-/

namespace Hal0.Slots.Arbiter

open Hal0.Transition Hal0.Monitor

/-- The lease is neither released nor expired. -/
def Live (arbiter : GpuArbiter) (token : LeaseToken) : Prop :=
  ∃ expires, (token, expires) ∈ arbiter.demandLeases ∧ arbiter.now < expires

theorem Live.of_subset {before after : GpuArbiter} {token : LeaseToken}
    (live : Live after token)
    (leases : after.demandLeases ⊆ before.demandLeases)
    (now : before.now ≤ after.now) : Live before token := by
  obtain ⟨expires, present, ahead⟩ := live
  exact ⟨expires, leases present, Nat.lt_of_le_of_lt now ahead⟩

theorem not_live_of_nil {arbiter : GpuArbiter}
    (none : arbiter.demandLeases = []) (token : LeaseToken) :
    ¬ Live arbiter token := by
  rintro ⟨expires, present, -⟩
  rw [none] at present
  cases present

namespace GpuArbiter

/-! ## The grant -/

theorem releaseDemandLease_nextLease (arbiter : GpuArbiter)
    (request : RequestId) :
    (arbiter.releaseDemandLease request).nextLease = arbiter.nextLease :=
  (releaseDemandLease_aside arbiter request).frame.nextLease

variable {arbiter : GpuArbiter} {request : RequestId}

theorem mem_grantDemandLease {lease : LeaseToken × Nat}
    (present : lease ∈ (arbiter.grantDemandLease request).demandLeases) :
    lease ∈ arbiter.demandLeases ∨ lease.1 = arbiter.nextLease := by
  rcases List.mem_append.mp present with earlier | granted
  · have released := List.mem_of_mem_filter earlier
    exact Or.inl
      ((releaseDemandLease_aside arbiter request).frame.leases released)
  · rw [List.mem_singleton] at granted
    right
    rw [granted]
    exact releaseDemandLease_nextLease arbiter request

theorem live_of_wakeWaiter {task : DemandId} {token : LeaseToken}
    (issued : token < arbiter.nextLease)
    (live : Live (arbiter.wakeWaiter request task) token) :
    Live arbiter token := by
  simp only [wakeWaiter] at live
  split_ifs at live
  · obtain ⟨expires, present, ahead⟩ := live
    have now : ((arbiter.leaveDemandWait task).grantDemandLease
        request).now = arbiter.now :=
      (releaseDemandLease_aside (arbiter.leaveDemandWait task)
        request).frame.now
    rcases mem_grantDemandLease present with earlier | granted
    · exact ⟨expires, earlier, now ▸ ahead⟩
    · change token = arbiter.nextLease at granted
      exact absurd issued (Nat.not_lt_of_ge (Nat.le_of_eq granted.symm))
  · exact live

theorem nextLease_le_wakeWaiter (arbiter : GpuArbiter) (request : RequestId)
    (task : DemandId) :
    arbiter.nextLease ≤ (arbiter.wakeWaiter request task).nextLease := by
  simp only [wakeWaiter]
  split_ifs
  · have same := releaseDemandLease_nextLease (arbiter.leaveDemandWait task)
      request
    exact Nat.le_succ_of_le (Nat.le_of_eq same.symm)
  · exact Nat.le_refl _

theorem granted_of_wakeWaiter {task : DemandId} {token : LeaseToken}
    (unheld : arbiter.leaseOf request ≠ some token)
    (held : (arbiter.wakeWaiter request task).leaseOf request =
      some token) :
    arbiter.state.mode = .llm ∧
      token < (arbiter.wakeWaiter request task).nextLease := by
  simp only [wakeWaiter] at held ⊢
  split_ifs at held ⊢ with mode
  · refine ⟨mode, ?_⟩
    simp only [grantDemandLease, Function.update_self] at held
    cases held
    exact Nat.lt_succ_self _
  · exact absurd held unheld

theorem guardDispatch_of_llm (mode : arbiter.state.mode = .llm) (slot : String)
    (toml : Option SlotConfig) (refused : String) (retryAfter : Nat) :
    (arbiter.guardDispatch slot toml).2 ≠
      .error (.gpuImageMode refused retryAfter) := by
  have passed : ¬ (arbiter.state.mode = .img ∧
      (arbiter.slotGroup slot toml).2 = some .llm) := by
    rintro ⟨image, -⟩
    rw [mode] at image
    cases image
  unfold guardDispatch
  dsimp only
  rw [if_neg passed]
  split_ifs
  · simp
  · simp

/-! ## The flip -/

theorem letServedRequestsDispatch_state (arbiter : GpuArbiter)
    (call : EnsureCall) (deadline : Nat) :
    (arbiter.letServedRequestsDispatch call deadline).1.state =
      arbiter.state := by
  unfold letServedRequestsDispatch
  dsimp only
  split_ifs <;> rfl

theorem ensureImgLocked_state (call : EnsureCall) (reply : Reply)
    (mode : arbiter.state.mode = .llm) :
    (arbiter.ensureImgLocked call reply).1.state = arbiter.state := by
  unfold ensureImgLocked
  dsimp only
  rw [if_neg (by rw [mode]; decide)]
  exact letServedRequestsDispatch_state _ call _

end GpuArbiter

/-- Image mode begins at the state write after `ensure_img`'s config read. -/
theorem switchConfigs_of_flip {suspends : Bool} {world : ArbiterWorld}
    {task : TaskId} {pc : Pc} {reply : Reply} {turn : Turn}
    (known : ModeKnown suspends world)
    (suspended : world.tasks task = some pc)
    (resumed : world.shared.resume pc reply = some turn)
    (before : world.shared.state.mode = .llm)
    (after : turn.1.state.mode = .img) :
    ∃ call timedOut, pc = .switchConfigs call timedOut := by
  have expected := known.owner task pc suspended
  have unexpected (held : pc.holds = true)
      (expects : pc.expects = some .img) : False := by
    have image := expected held .img expects
    rw [before] at image
    cases image
  have changed (same : turn.1.state = world.shared.state) : False := by
    rw [same, before] at after
    cases after
  cases known.progress suspended resumed with
  | ensure inside outsideBody held taken =>
    cases pc with
    | switchConfigs call timedOut => exact ⟨call, timedOut, rfl⟩
    | ensureLock call =>
      cases resumed
      exact (changed
        (GpuArbiter.ensureImgLocked_state call reply before)).elim
    | letServed call deadline =>
      cases resumed
      exact (changed (GpuArbiter.letServedRequestsDispatch_state
        world.shared call deadline)).elim
    | _ => first | exact (unexpected rfl rfl).elim | cases inside
  | restore outside jobless taken =>
    rcases taken.kept with same | body
    · exact (changed same.state).elim
    · cases pc with
      | restoreConfigs call => exact (unexpected rfl rfl).elim
      | restoreFree call saved => exact (unexpected rfl rfl).elim
      | restoreLoad call slot rest => exact (unexpected rfl rfl).elim
      | _ => cases body
  | rendered rendering closed =>
    cases closed
    exact (changed rfl).elim
  | woken waited left =>
    cases left
    exact (changed
      (GpuArbiter.wakeWaiter_unswitched world.shared _ _).state).elim

/-- A switch persists image mode after its wait ran to the deadline. -/
def flipsTimedOut (world : ArbiterWorld) : ArbiterAction → Bool
  | .resume task reply =>
    match world.tasks task with
    | some (.switchConfigs call true) =>
      (world.shared.switchToImg call reply).1.state.mode == .img
    | _ => false
  | _ => false

/-- No flip goes on past its deadline. -/
def Patient (world : ArbiterWorld) (action : ArbiterAction) : Prop :=
  flipsTimedOut world action = false

instance (world : ArbiterWorld) (action : ArbiterAction) :
    Decidable (Patient world action) :=
  inferInstanceAs (Decidable (flipsTimedOut world action = false))

/-- A switch without drain finds no lease. -/
def Unleased (arbiter : GpuArbiter) (pc : Pc) : Prop :=
  ∀ call, pc = .switchConfigs call false → arbiter.demandLeases = []

/-- While the lease is live, the mode is LLM mode. -/
def KeepsLlm (token : LeaseToken) (arbiter : GpuArbiter) : Prop :=
  token < arbiter.nextLease ∧
    (Live arbiter token → arbiter.state.mode = .llm)

theorem unleased_stable (before after : GpuArbiter) :
    Stable (program false) Unleased before after := by
  intro pc _ atomic _ call same
  subst same
  cases atomic

theorem unleased_of_progress {arbiter : GpuArbiter} {pc counter : Pc}
    {turn : Turn} (progress : arbiter.Progress pc turn)
    (awaited : turn.2 = some counter) : Unleased turn.1 counter := by
  intro call same
  subst same
  cases progress with
  | ensure inside outsideBody held taken => exact taken.unleased call awaited
  | restore outside jobless taken =>
    have none := taken.outsideSwitch _ awaited rfl
    cases none
  | rendered rendering closed =>
    cases closed
    cases awaited
  | woken waited left =>
    cases left
    cases awaited

theorem unleased_protects
    (allowed : ArbiterWorld → ArbiterAction → Prop) :
    Protects (program false)
      (fun world action => allowed world action ∧ ModeKnown false world)
      (fun _ => True) Unleased where
  start := fun _ _ _ _ _ _ _ => ⟨trivial, unleased_stable _ _⟩
  resume := by
    intro world task pc reply shared next _ ⟨_, known⟩ suspended _ resumed
    refine ⟨trivial, ?_, fun _ _ => unleased_stable _ _⟩
    intro counter awaited _
    exact unleased_of_progress (known.progress suspended resumed) awaited
  cancel := fun _ _ _ _ _ _ _ _ _ =>
    ⟨trivial, fun _ => unleased_stable _ _⟩
  occur := fun _ _ _ _ _ _ => ⟨trivial, unleased_stable _ _⟩
  restart := fun _ _ _ => trivial

theorem keepsLlm_of_resume {world : ArbiterWorld} {task : TaskId} {pc : Pc}
    {reply : Reply} {turn : Turn} {token : LeaseToken}
    (known : ModeKnown false world)
    (patient : Patient world (.resume task reply))
    (suspended : world.tasks task = some pc)
    (unleased : pc.holds = true → Unleased world.shared pc)
    (resumed : world.shared.resume pc reply = some turn)
    (kept : KeepsLlm token world.shared) : KeepsLlm token turn.1 := by
  obtain ⟨issued, llm⟩ := kept
  have progress := known.progress suspended resumed
  have earlier : token < turn.1.nextLease ∧
      (Live turn.1 token → Live world.shared token) := by
    cases progress with
    | ensure inside outsideBody held taken =>
      refine ⟨by rw [taken.frame.nextLease]; exact issued, ?_⟩
      intro live
      exact live.of_subset taken.frame.leases
        (Nat.le_of_eq taken.frame.now.symm)
    | restore outside jobless taken =>
      refine ⟨by rw [taken.frame.nextLease]; exact issued, ?_⟩
      intro live
      exact live.of_subset taken.frame.leases
        (Nat.le_of_eq taken.frame.now.symm)
    | rendered rendering closed =>
      cases closed
      exact ⟨issued, fun live => live⟩
    | woken waited left =>
      cases left
      exact ⟨Nat.lt_of_lt_of_le issued
          (GpuArbiter.nextLease_le_wakeWaiter world.shared _ _),
        GpuArbiter.live_of_wakeWaiter issued⟩
  refine ⟨earlier.1, ?_⟩
  intro live
  have before := llm (earlier.2 live)
  cases mode : turn.1.state.mode with
  | llm => rfl
  | img =>
    exfalso
    obtain ⟨call, timedOut, rfl⟩ :=
      switchConfigs_of_flip known suspended resumed before mode
    cases timedOut with
    | true =>
      cases resumed
      simp [Patient, flipsTimedOut, suspended, mode] at patient
    | false =>
      exact not_live_of_nil (unleased rfl call rfl) token
        (earlier.2 live)

/-- While a lease is live the mode stays. -/
theorem keepsLlm_protects (token : LeaseToken) :
    Protects (program false)
      (fun world action => Patient world action ∧ ModeKnown false world)
      (KeepsLlm token) Unleased where
  start := by
    intro world task pc shared ⟨issued, llm⟩ _ begun
    have started := GpuArbiter.started_of_start begun
    refine ⟨⟨by rw [started.nextLease]; exact issued, ?_⟩,
      unleased_stable _ _⟩
    intro live
    rw [started.kept.state]
    apply llm
    apply live.of_subset
    · rw [started.leases]
      exact List.Subset.refl _
    · exact Nat.le_of_eq started.now.symm
  resume := by
    intro world task pc reply shared next kept ⟨patient, known⟩ suspended
      unleased resumed
    refine ⟨keepsLlm_of_resume known patient suspended unleased resumed kept,
      ?_, fun _ _ => unleased_stable _ _⟩
    intro counter awaited _
    exact unleased_of_progress (known.progress suspended resumed) awaited
  cancel := by
    intro world task pc shared ⟨issued, llm⟩ _ suspended _ abandoned
    have left := GpuArbiter.abandoned_of_abandon abandoned
    refine ⟨⟨by rw [left.frame.nextLease]; exact issued, ?_⟩,
      fun _ => unleased_stable _ _⟩
    intro live
    rw [left.kept.state]
    exact llm (live.of_subset left.frame.leases
      (Nat.le_of_eq left.frame.now.symm))
  occur := by
    intro world event shared ⟨issued, llm⟩ _ occurred
    cases occurred
    have unchanged := GpuArbiter.occur_occurred world.shared event
    refine ⟨⟨by rw [unchanged.nextLease]; exact issued, ?_⟩,
      unleased_stable _ _⟩
    intro live
    rw [unchanged.mode]
    exact llm (live.of_subset unchanged.leases unchanged.now)
  restart := by
    intro world ⟨issued, _⟩ _
    exact ⟨issued, fun live => (not_live_of_nil rfl token live).elim⟩

/-! ## Runs -/

/--
No switch persists image mode beside a live lease, except one whose own wait
for the lease holders ran to its deadline.  As long as no such switch goes
ahead, a request which left `make_room_for_llm` with a lease finds LLM mode
until the lease is released or expires, and the dispatch guard does not refuse
it.
-/
theorem lease_holds_off_image_mode (restoreGrace : Nat) (file : StateFile)
    (slots : String → SlotStatus)
    {before : List ArbiterAction} {world : ArbiterWorld}
    (reached : Run (program false).step Anything
      (.quiet (.boot restoreGrace file slots)) before world) :
    (∀ (task : TaskId) (reply : Reply) (next : ArbiterWorld),
      (program false).step world (.resume task reply) = some next →
      world.shared.state.mode = .llm → next.shared.state.mode = .img →
        ∃ call timedOut,
          world.tasks task = some (.switchConfigs call timedOut) ∧
          (timedOut = true ∨ ∀ token, ¬ Live world.shared token)) ∧
    (∀ (task : TaskId) (request : RequestId) (demand : DemandId)
      (deadline : Nat) (reply : Reply) (token : LeaseToken)
      (granted final : ArbiterWorld) (actions : List ArbiterAction),
      world.tasks task = some (.waiting request demand deadline) →
      (program false).step world (.resume task reply) = some granted →
      world.shared.leaseOf request ≠ some token →
      granted.shared.leaseOf request = some token →
      Run (program false).step Patient granted actions final →
      Live final.shared token →
        final.shared.state.mode = .llm ∧
        ∀ slot toml refused retryAfter,
          (final.shared.guardDispatch slot toml).2 ≠
            .error (.gpuImageMode refused retryAfter)) := by
  have quiet := ModeKnown.quiet false (.boot restoreGrace file slots)
  have known := modeKnown_of_run quiet reached
  have start : Safe (program false) (fun _ => True) Unleased
      (.quiet (.boot restoreGrace file slots)) := .quiet trivial
  have unleased :=
    start.run (unleased_protects Anything) (modeKnown_along quiet reached)
  constructor
  · intro task reply next moved llm image
    cases Program.moves_of_step moved with
    | @resume task pc reply shared after suspended scheduled free resumed =>
      obtain ⟨call, timedOut, rfl⟩ :=
        switchConfigs_of_flip known suspended resumed llm image
      refine ⟨call, timedOut, suspended, ?_⟩
      cases timedOut with
      | true => exact Or.inl rfl
      | false =>
        have none := unleased.owner task _ suspended rfl call rfl
        exact Or.inr (not_live_of_nil none)
  · intro task request demand deadline reply token granted final actions
      waiting moved unheld held later live
    have after := unleased.moves (unleased_protects Anything)
      ⟨trivial, known⟩ (Program.moves_of_step moved)
    have kept : KeepsLlm token granted.shared := by
      cases Program.moves_of_step moved with
      | @resume task pc reply shared next suspended scheduled free resumed =>
        rw [waiting] at suspended
        cases suspended
        simp only [program, GpuArbiter.resume,
          Option.ite_none_right_eq_some] at resumed
        obtain ⟨-, woken⟩ := resumed
        cases woken
        obtain ⟨llm, issued⟩ :=
          GpuArbiter.granted_of_wakeWaiter unheld held
        refine ⟨issued, fun _ => ?_⟩
        show (world.shared.wakeWaiter request demand).state.mode = .llm
        rw [(GpuArbiter.wakeWaiter_unswitched world.shared request
          demand).state]
        exact llm
    have safe : Safe (program false) (KeepsLlm token) Unleased granted :=
      ⟨after.orderly, kept, after.owner⟩
    have llm := (safe.run (keepsLlm_protects token)
      (modeKnown_along (known.step moved) later)).state.2 live
    exact ⟨llm, GpuArbiter.guardDispatch_of_llm llm⟩

/--
An editor switches the GPU; when its hand-off is over, a chat request waits
for the demand restore and is about to wake up.
-/
def chatAfterRender : List ArbiterAction :=
  [.start 0 (.ensureLock ⟨false, none⟩), .resume 0 {},
    .resume 0 { configs := some chatAndImg }, .resume 0 {},
    .occur (.elapse 3000),
    .start 1 (.makeRoom 7 "chat" 120000), .resume 1 {},
    .start 2 (.demandLoop 0 0), .resume 2 {}, .resume 2 {},
    .resume 2 { configs := some chatAndImg }, .resume 2 {},
    .resume 2 { configs := some chatAndImg }, .resume 2 {},
    .resume 2 { status := ⟨.ready, false, 0⟩ }]

/--
The first switch finds no lease; the chat request takes one when it wakes, and
the next switch waits for it.
-/
theorem lease_holds_off_image_mode_chat :
    (∃ world next : ArbiterWorld, ∃ call timedOut,
      world.shared.state.mode = .llm ∧ next.shared.state.mode = .img ∧
      world.tasks 0 = some (.switchConfigs call timedOut) ∧
      (timedOut = true ∨ ∀ token, ¬ Live world.shared token)) ∧
    (∃ final : ArbiterWorld, Live final.shared 0 ∧
      final.tasks 3 = some (.letServed ⟨false, some 0⟩ 8000) ∧
      (final.shared.guardDispatch "chat" none).2 ≠
        .error (.gpuImageMode "chat" retryAfterFloor)) := by
  constructor
  · obtain ⟨world, reached, tested⟩ := Run.exists_of_exec
      (program false).step Anything readyMachine
      [.start 0 (.ensureLock ⟨false, none⟩), .resume 0 {}]
      (fun world => (world.shared.state.mode == .llm) &&
        ((program false).step world
          (.resume 0 { configs := some chatAndImg })).any fun next =>
            next.shared.state.mode == .img)
      (by decide +kernel)
    simp only [Bool.and_eq_true, beq_iff_eq] at tested
    obtain ⟨next, moved, image⟩ := (Option.any_eq_true _ _).mp tested.2
    have image := beq_iff_eq.mp image
    obtain ⟨call, timedOut, found⟩ := (lease_holds_off_image_mode 10000
      .missing _ reached).1 0 _ next moved tested.1 image
    exact ⟨world, next, call, timedOut, tested.1, image, found⟩
  · obtain ⟨world, reached, tested⟩ := Run.exists_of_exec
      (program false).step Anything readyMachine chatAfterRender
      (fun world => (world.tasks 1 == some (.waiting 7 0 123000)) &&
        (world.shared.leaseOf 7 == none) &&
        ((program false).step world (.resume 1 {})).any
          fun granted : ArbiterWorld =>
          (granted.shared.leaseOf 7 == some 0) &&
          (exec (program false).step Patient granted
            [.start 3 (.ensureLock ⟨false, some 0⟩), .resume 3 {}]).any
              fun final : ArbiterWorld =>
                final.shared.demandLeases.contains (0, 8000) &&
                  decide (final.shared.now < 8000) &&
                  (final.tasks 3 ==
                    some (.letServed ⟨false, some 0⟩ 8000)))
      (by decide +kernel)
    simp only [Bool.and_eq_true, beq_iff_eq] at tested
    obtain ⟨⟨waiting, unheld⟩, woken⟩ := tested
    obtain ⟨granted, moved, tested⟩ := (Option.any_eq_true _ _).mp woken
    simp only [Bool.and_eq_true, beq_iff_eq] at tested
    obtain ⟨held, later⟩ := tested
    obtain ⟨final, evaluated, tested⟩ := (Option.any_eq_true _ _).mp later
    simp only [Bool.and_eq_true, beq_iff_eq, decide_eq_true_eq] at tested
    obtain ⟨⟨present, ahead⟩, switching⟩ := tested
    have live : Live final.shared 0 :=
      ⟨8000, List.contains_iff_mem.mp present, ahead⟩
    have fresh : world.shared.leaseOf 7 ≠ some 0 := by
      rw [unheld]
      simp
    refine ⟨final, live, switching, ?_⟩
    exact ((lease_holds_off_image_mode 10000 .missing _ reached).2 1 7 0
      123000 {} 0 granted final _ waiting moved fresh held
      (.of_exec evaluated) live).2 "chat" none "chat" retryAfterFloor

end Hal0.Slots.Arbiter
