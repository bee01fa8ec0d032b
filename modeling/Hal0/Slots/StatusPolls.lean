import Hal0.Slots.LifecycleSteps

/-!
# Status polls beside the lifecycle of a slot

A poll of `status` reads the slot's record, awaits its probes, and forces a
transition when the unit's liveness disagrees with what it read.  It takes no
lock.  Here: a poll leaves the operations of the slot alone in every run in
which no operation overlaps a poll that has found drift; and the run of one
load which a poll ruins.
-/

namespace Hal0.Slots.Lifecycle

open Function Option
open Hal0.Transition Hal0.Monitor

/-! ## Drift -/

variable {slot : Slot} {probe : Probe}

theorem drifting_of_resumeStatus {next : Probe} {reply : Reply}
    (awaited : (slot.resumeStatus probe reply).2 = some next)
    (drifting : next.drifting = true) :
    probe.drifting = true ∨
      ∃ record, probe = .isActive record ∧
        drift record reply.yes ≠ .steady := by
  cases probe with
  | isActive record =>
    refine Or.inr ⟨record, rfl, ?_⟩
    intro steady
    simp only [Slot.resumeStatus, Slot.reconcileWith, steady] at awaited
    cases awaited
    cases drifting
  | reporting => cases awaited
  | _ => exact Or.inl rfl

/-! ## Polls and operations apart -/

/-- The step is one of a poll that overlaps an operation with its drift. -/
def overlaps (world : SlotWorld) (reply : Reply) : Pc → Bool
  | .status .poll _ (.isActive record) =>
    drift record reply.yes ≠ .steady && world.owner.isSome
  | .status .poll epoch probe =>
    probe.drifting && epoch ≠ world.shared.epoch
  | _ => false

/--
No operation overlaps a poll that has found drift: none holds the lock when the
liveness answer disagrees with the record the poll read, and none has taken
the lock since when the poll goes on from there.
-/
def Apart (world : SlotWorld) : SlotAction → Prop
  | .resume task reply =>
    (world.tasks task).any (overlaps world reply) = false
  | _ => True

instance (world : SlotWorld) (action : SlotAction) :
    Decidable (Apart world action) :=
  match action with
  | .resume _ _ => inferInstanceAs (Decidable (_ = false))
  | .start _ _ | .cancel _ | .occur _ | .restart => isTrue trivial

/-- A poll which found drift did so in a past epoch, or the lock is free. -/
structure Dated (world : SlotWorld) : Prop where
  orderly : Orderly program world
  past : ∀ task epoch probe,
    world.tasks task = some (.status .poll epoch probe) →
      probe.drifting = true → epoch ≤ world.shared.epoch
  free : ∀ task epoch probe,
    world.tasks task = some (.status .poll epoch probe) →
      probe.drifting = true → epoch = world.shared.epoch →
        world.owner = none

theorem start_steady {started : Slot} {caller : Caller} {epoch : Nat}
    (begun : slot.start (.status caller epoch probe) = some started) :
    probe.drifting = false := by
  unfold Slot.start at begun
  split at begun <;> simp_all [Probe.drifting]

variable {pc : Pc}

theorem poll_of_resume {reply : Reply} {epoch : Nat}
    (awaited : (slot.resume pc reply).2 = some (.status .poll epoch probe)) :
    ∃ dated earlier, pc = .status .poll dated earlier ∧
      epoch = slot.statusEpoch dated earlier ∧
      (slot.resumeStatus earlier reply).2 = some probe := by
  cases poll : pc.isPoll with
  | false =>
    have other := Leads.notPoll reply poll _ awaited
    cases other
  | true =>
    obtain ⟨dated, earlier, rfl⟩ :
        ∃ dated earlier, pc = .status .poll dated earlier := by
      unfold Pc.isPoll at poll
      split at poll
      · exact ⟨_, _, rfl⟩
      · cases poll
    refine ⟨dated, earlier, rfl, ?_⟩
    simp only [Slot.resume, Slot.statusTurn] at awaited
    split at awaited
    · rename_i found
      cases awaited
      exact ⟨rfl, found⟩
    · cases awaited
    · cases awaited

namespace Dated

variable {world next : SlotWorld} {action : SlotAction}

theorem quiet (slot : Slot) : Dated (.quiet slot) :=
  ⟨.quiet slot, fun _ _ _ suspended => (by cases suspended),
    fun _ _ _ suspended => (by cases suspended)⟩

theorem free_of_drifting (dated : Dated world) {task : TaskId} {epoch : Nat}
    {probe : Probe} {reply : Reply}
    (suspended : world.tasks task = some (.status .poll epoch probe))
    (apart : Apart world (.resume task reply))
    (drifts : probe.drifting = true ∨
      ∃ record, probe = .isActive record ∧
        drift record reply.yes ≠ .steady) :
    world.owner = none := by
  simp only [Apart, suspended, any_some] at apart
  rcases drifts with drifting | ⟨record, rfl, found⟩
  · apply dated.free task epoch probe suspended drifting
    cases probe with
    | isActive record => cases drifting
    | reporting => cases drifting
    | _ => simpa [overlaps, Probe.drifting] using apart
  · simpa [overlaps, found] using apart

theorem stays_free (dated : Dated world) {task : TaskId} {pc : Pc}
    {reply : Reply} (suspended : world.tasks task = some pc)
    (unlocked : pc.acquires = false) (free : world.owner = none) :
    (program.put world task pc (world.shared.resume pc reply).1
      (world.shared.resume pc reply).2).owner = none := by
  have outside : pc.holds = false := by
    rw [Bool.eq_false_iff]
    intro inside
    rw [dated.orderly.inside task pc suspended inside] at free
    cases free
  have leaves : ¬ (world.shared.resume pc reply).2.any program.holds
      = true := by
    intro enters
    obtain ⟨counter, awaited, held⟩ := (any_eq_true _ _).1 enters
    have aside := Slot.resume_outside outside unlocked awaited
    rw [show program.holds counter = counter.holds from rfl, aside] at held
    cases held
  have outside : ¬ program.holds pc = true := by
    rw [Bool.not_eq_true]
    exact outside
  simp only [Program.put, if_neg leaves, if_neg outside]
  exact free

theorem resume (dated : Dated world) {task : TaskId} {pc : Pc}
    {reply : Reply} (suspended : world.tasks task = some pc)
    (apart : Apart world (.resume task reply))
    (orderly : Orderly program (program.put world task pc
      (world.shared.resume pc reply).1 (world.shared.resume pc reply).2)) :
    Dated (program.put world task pc (world.shared.resume pc reply).1
      (world.shared.resume pc reply).2) := by
  have epochs := resume_epoch world.shared pc reply
  have known : ∀ other epoch probe,
      (program.put world task pc (world.shared.resume pc reply).1
        (world.shared.resume pc reply).2).tasks other =
        some (.status .poll epoch probe) → probe.drifting = true →
      epoch ≤ world.shared.epoch ∧
        (pc.acquires = false → epoch = world.shared.epoch →
          world.owner = none) := by
    intro other epoch probe awaited drifting
    rw [Program.put_tasks, update_apply] at awaited
    split_ifs at awaited with same
    · obtain ⟨before, earlier, rfl, rfl, found⟩ := poll_of_resume awaited
      have drifts := drifting_of_resumeStatus found drifting
      refine ⟨?_, fun _ _ => dated.free_of_drifting suspended apart drifts⟩
      rcases drifts with drifted | ⟨record, rfl, -⟩
      · cases earlier with
        | isActive record => exact Nat.le_refl _
        | _ => exact dated.past task before _ suspended drifted
      · exact Nat.le_refl _
    · exact ⟨dated.past other epoch probe awaited drifting,
        fun _ => dated.free other epoch probe awaited drifting⟩
  refine ⟨orderly, ?_, ?_⟩
  · intro other epoch probe awaited drifting
    rw [Program.put_shared, epochs]
    have before := (known other epoch probe awaited drifting).1
    split_ifs
    · exact Nat.le_succ_of_le before
    · exact before
  · intro other epoch probe awaited drifting current
    rw [Program.put_shared, epochs] at current
    obtain ⟨before, free⟩ := known other epoch probe awaited drifting
    cases waits : pc.acquires with
    | true =>
      rw [waits, if_pos rfl] at current
      omega
    | false =>
      rw [waits, if_neg Bool.false_ne_true] at current
      exact dated.stays_free suspended waits (free waits current)

theorem moves (dated : Dated world) (apart : Apart world action)
    (moved : program.Moves world action next) : Dated next := by
  have orderly := dated.orderly.moves moved
  cases moved with
  | @start task pc shared unused started settled =>
    have epochs := (start_frame started).2.2.1
    refine ⟨orderly, ?_, ?_⟩
    · intro other epoch probe awaited drifting
      simp only [update_apply] at awaited
      split_ifs at awaited
      · cases awaited
        rw [start_steady started] at drifting
        cases drifting
      · rw [epochs]
        exact dated.past other epoch probe awaited drifting
    · intro other epoch probe awaited drifting current
      simp only [update_apply] at awaited
      split_ifs at awaited
      · cases awaited
        rw [start_steady started] at drifting
        cases drifting
      · rw [epochs] at current
        exact dated.free other epoch probe awaited drifting current
  | @resume task pc reply shared after suspended scheduled free resumed =>
    obtain ⟨rfl, rfl⟩ := resumed_eq resumed
    exact dated.resume suspended apart orderly
  | @cancel task pc shared suspended settled abandoned =>
    cases abandoned
    refine ⟨orderly, ?_, ?_⟩
    · intro other epoch probe awaited drifting
      rw [Program.put_tasks, update_apply] at awaited
      split_ifs at awaited
      exact dated.past other epoch probe awaited drifting
    · intro other epoch probe awaited drifting current
      rw [Program.put_tasks, update_apply] at awaited
      split_ifs at awaited
      have free := dated.free other epoch probe awaited drifting current
      simp [Program.put, free]
  | @occur event shared settled occurred =>
    cases occurred
    have epochs : (world.shared.occur event).epoch = world.shared.epoch := by
      cases event <;> rfl
    refine ⟨orderly, ?_, ?_⟩
    · intro other epoch probe awaited drifting
      rw [epochs]
      exact dated.past other epoch probe awaited drifting
    · intro other epoch probe awaited drifting current
      rw [epochs] at current
      exact dated.free other epoch probe awaited drifting current
  | restart => exact quiet _

end Dated

/-! ## Loads find the state they left -/

/-- The state a load resolved to: `READY` may be recorded as `IDLE`. -/
def Readiness.Fits (readiness : Readiness) (state : SlotState) : Prop :=
  match readiness with
  | .warming => state = .warming
  | .ready | .idle => state.isResident = true

/-- A load past `STARTING` finds the state it left. -/
def Stands (slot : Slot) : Pc → Prop
  | .startingEvent _ | .spawn _ => slot.state = .starting
  | .warmingEvent _ | .awaitReady _ | .unitFailure _ =>
    slot.state = .warming
  | .resolvedEvent _ readiness | .leaveAdmit _ (.resolved readiness)
  | .persistDefault readiness => readiness.Fits slot.state
  | _ => True

theorem Stands.of_state {after : Slot} (stands : Stands slot pc)
    (same : after.state = slot.state) :
    Stands after pc := by
  unfold Stands at stands ⊢
  split at stands <;> simp_all

theorem stands_aside (slot : Slot) (pc : Pc) (outside : pc.inAttempt = false)
    (_ : pc.isPoll = false) : Stands slot pc := by
  cases pc with
  | _ => trivial

theorem write_state {write : Write}
    (plain : write.toState.isDispatchable = false) :
    (slot.write write).state = write.toState := by
  apply write.record_state
  · intro ready
    rw [ready] at plain
    cases plain
  · intro serving
    rw [serving] at plain
    cases plain

theorem transition_eq_some {after : Slot} {write : Write}
    (moved : slot.transition write = some after) :
    after = slot.write write := by
  obtain ⟨-, same⟩ := ite_none_right_eq_some.1 moved
  exact (some.inj same).symm

theorem write_fits (slot : Slot) (readiness : Readiness) (attempt : Attempt) :
    readiness.Fits (slot.write
      { toState := readiness.state, modelId := attempt.model
        port := attempt.cfg.port }).state := by
  cases readiness with
  | warming => exact write_state rfl
  | idle =>
    simp only [Slot.write, Slot.state, elim_some, Write.record,
      Readiness.Fits, Readiness.state]
    split_ifs <;> rfl
  | ready =>
    simp only [Slot.write, Slot.state, elim_some, Write.record,
      Readiness.Fits, Readiness.state]
    split_ifs <;> rfl

theorem stands_resolveReady (attempt : Attempt) (readiness : Readiness) :
    Leads Stands (slot.resolveReady attempt readiness) := by
  refine Leads.transitionInside ?_ trivial
  intro after moved
  rw [transition_eq_some moved]
  exact write_fits slot readiness attempt

theorem stands_resume (reply : Reply)
    (stands : Stands slot pc) : Leads Stands (slot.resume pc reply) := by
  cases within : pc.inAttempt with
  | false =>
    refine Leads.resume stands_aside reply within ?_ ?_
    · rintro epoch probe rfl
      simp only [Slot.resume, Slot.statusTurn]
      split
      · exact Leads.waits trivial
      · exact Leads.waits trivial
      · exact Leads.ended
    · rintro modelId rfl
      refine Leads.loadWith modelId reply (fun _ _ => trivial)
        (fun _ => trivial) (fun _ _ => trivial) ?_
      exact fun _ attempt => Leads.proceed stands_aside attempt reply
        (fun _ _ _ => trivial) fun _ => trivial
  | true =>
    cases pc with
    | converge attempt =>
      simp only [Slot.resume]
      split_ifs
      · exact Leads.waits trivial
      · exact Leads.loadStatus stands_aside
    | stallActive attempt =>
      simp only [Slot.resume]
      split_ifs
      · exact Leads.ended
      · exact Leads.gated attempt fun _ => trivial
    | tearDown attempt => exact Leads.waits trivial
    | tornDown attempt =>
      exact Leads.proceed stands_aside attempt reply
        (fun _ _ _ => trivial) fun _ => trivial
    | pullEvent attempt => exact Leads.waits trivial
    | pulling attempt =>
      exact Leads.onOutcome stands_aside _ fun _ => Leads.waits trivial
    | checks attempt =>
      exact Leads.onOutcome stands_aside _ fun _ => Leads.waits trivial
    | fabricGuard attempt =>
      exact Leads.guarded stands_aside attempt reply.guard trivial
        fun _ => trivial
    | enterAdmit attempt =>
      refine Leads.onOutcome stands_aside _ fun _ =>
        Leads.transitionInside ?_ trivial
      intro after moved
      rw [transition_eq_some moved]
      exact write_state rfl
    | startingEvent attempt => exact Leads.waits stands
    | spawn attempt =>
      refine Leads.onOutcomeInside _ (fun _ =>
        Leads.transitionInside ?_ trivial) (fun _ => trivial)
        fun _ => trivial
      intro after moved
      rw [transition_eq_some moved]
      exact write_state rfl
    | warmingEvent attempt => exact Leads.waits stands
    | awaitReady attempt =>
      refine Leads.onOutcomeInside _ (fun _ => ?_) (fun _ => trivial)
        fun _ => trivial
      split_ifs
      · exact Leads.waits stands
      · exact stands_resolveReady attempt reply.readiness
    | unitFailure attempt =>
      simp only [Slot.resume]
      split
      · exact Leads.waits trivial
      · exact stands_resolveReady attempt .warming
    | resolvedEvent attempt readiness => exact Leads.waits stands
    | leaveAdmit attempt ending =>
      cases ending with
      | raised message => exact Leads.raise stands_aside attempt message
      | insane message =>
        exact Leads.raiseInsane stands_aside attempt message
      | resolved readiness =>
        simp only [Slot.resume, Slot.afterAdmit]
        split_ifs
        · exact Leads.waits stands
        · exact Leads.loadStatus stands_aside
    | persistDefault readiness => exact Leads.loadStatus stands_aside
    | _ => cases within

theorem poll_under_lock {world : SlotWorld} {task : TaskId} {epoch : Nat}
    {reply : Reply} (dated : Dated world)
    (suspended : world.tasks task = some (.status .poll epoch probe))
    (apart : Apart world (.resume task reply)) (held : world.owner ≠ none) :
    (world.shared.resume (.status .poll epoch probe) reply).1 =
      world.shared := by
  have kept : (world.shared.resumeStatus probe reply).1 = world.shared := by
    rcases resumeStatus_cases world.shared probe reply with
      kept | ⟨drifting, -⟩
    · exact kept
    · exact absurd (dated.free_of_drifting suspended apart (Or.inl drifting))
        held
  simp only [Slot.resume, Slot.statusTurn]
  split <;> exact kept

theorem stands_outside (outside : pc.holds = false) :
    Stands slot pc := by
  cases pc with
  | _ => trivial

theorem stands_shielded :
    Shields program (fun world action => Apart world action ∧ Dated world)
      (fun _ => True) Stands where
  start := by
    intro world task pc shared _ _ started
    refine ⟨trivial, fun _ other _ _ stands => stands.of_state ?_⟩
    exact congrArg (Option.elim · .offline Record.state)
      (start_frame started).1
  resume := by
    intro world task pc reply shared next _ permitted suspended owned resumed
    obtain ⟨rfl, rfl⟩ := resumed_eq resumed
    refine ⟨trivial, ?_, ?_⟩
    · intro counter awaited _
      refine stands_resume reply ?_ counter awaited
      cases inside : pc.holds with
      | true => exact owned inside
      | false => exact stands_outside inside
    · intro outside unlocked held other _ _ stands
      apply stands.of_state
      rcases Slot.outside_cases outside unlocked with
        ⟨epoch, probe, rfl⟩ | ⟨token, rfl⟩
      · rw [poll_under_lock permitted.2 suspended permitted.1 held]
      · simp only [Slot.resume]
        split <;> rfl
  cancel := by
    intro world task pc shared _ _ suspended _ abandoned
    cases abandoned
    exact ⟨trivial, fun _ _ _ _ _ stands => stands⟩
  occur := by
    intro world event shared _ _ occurred
    cases occurred
    refine ⟨trivial, fun _ other _ _ stands => stands.of_state ?_⟩
    cases event <;> rfl
  restart := fun _ _ _ => trivial

/-! ## Whole runs -/

/-- The readiness a load has recorded and not yet returned with. -/
def Pc.resolution : Pc → Option Readiness
  | .resolvedEvent _ readiness | .leaveAdmit _ (.resolved readiness)
  | .persistDefault readiness => some readiness
  | _ => none

/--
What polls owe the operations of the slot: under the lock no poll changes the
record, and a load whose unit starts and becomes healthy gets to `READY` or
`IDLE` by lawful transitions and stays there until it returns.
-/
structure Undisturbed (allowed : SlotWorld → SlotAction → Prop)
    (world : SlotWorld) : Prop where
  polls : ∀ task epoch probe reply next,
    world.tasks task = some (.status .poll epoch probe) →
    world.owner ≠ none → allowed world (.resume task reply) →
    program.step world (.resume task reply) = some next →
      next.shared.record = world.shared.record
  starts : ∀ task attempt reply, world.tasks task = some (.spawn attempt) →
    reply.outcome = .returned →
      (world.shared.resume (.spawn attempt) reply).2 =
        some (.warmingEvent attempt)
  becomesHealthy : ∀ task attempt reply,
    world.tasks task = some (.awaitReady attempt) →
    reply.outcome = .returned → reply.readiness ≠ .warming →
      (world.shared.resume (.awaitReady attempt) reply).2 =
        some (.resolvedEvent attempt reply.readiness)
  converges : ∀ task pc readiness, world.tasks task = some pc →
    pc.resolution = some readiness → readiness ≠ .warming →
      world.shared.state.isResident = true

theorem transitionInside_lawful (attempt : Attempt) {toState : SlotState}
    (next : Pc) (lawful : slot.state.isTransitionLegal toState = true) :
    (slot.transitionInside attempt toState next).2 = some next := by
  simp [Slot.transitionInside, Slot.attemptTransition, Slot.transition, lawful]

theorem Stands.resident {readiness : Readiness} (stands : Stands slot pc)
    (resolved : pc.resolution = some readiness)
    (healthy : readiness ≠ .warming) : slot.state.isResident = true := by
  have fits : readiness.Fits slot.state := by
    unfold Pc.resolution at resolved
    split at resolved <;> cases resolved <;> exact stands
  cases readiness with
  | warming => exact absurd rfl healthy
  | ready => exact fits
  | idle => exact fits

/--
In every run in which no operation overlaps a poll that has found drift, the
polls leave the operations of the slot undisturbed.
-/
theorem undisturbed_of_apart (record : Option Record) (unit : UnitHealth)
    (actions : List SlotAction) (world : SlotWorld)
    (run : Run program.step Apart (.quiet (.boot record unit)) actions
      world) :
    Undisturbed Apart world := by
  have dates : ∀ state action next, Dated state → Apart state action →
      program.step state action = some next → Dated next :=
    fun _ _ _ dated apart moved =>
      dated.moves apart (Program.moves_of_step moved)
  have dated := run.invariant Dated (.quiet _) dates
  have along := run.along Dated (.quiet _) dates
  have safe := (Safe.quiet trivial).shielded_run stands_shielded along
  have stands : ∀ task pc, world.tasks task = some pc →
      Stands world.shared pc := by
    intro task pc suspended
    cases inside : pc.holds with
    | true => exact safe.owner task pc suspended inside
    | false => exact stands_outside inside
  constructor
  · intro task epoch probe reply next suspended held apart moved
    cases Program.moves_of_step moved with
    | resume found scheduled free resumed =>
      rw [suspended] at found
      cases found
      obtain ⟨rfl, rfl⟩ := resumed_eq resumed
      rw [Program.put_shared, poll_under_lock dated suspended apart held]
  · intro task attempt reply suspended returned
    have started : world.shared.state = .starting := stands task _ suspended
    simp only [Slot.resume, returned, Slot.onOutcomeInside]
    apply transitionInside_lawful
    rw [started]
    rfl
  · intro task attempt reply suspended returned healthy
    have warming : world.shared.state = .warming := stands task _ suspended
    simp only [Slot.resume, returned, Slot.onOutcomeInside, if_neg healthy]
    apply transitionInside_lawful
    rw [warming]
    cases readiness : reply.readiness with
    | warming => exact absurd readiness healthy
    | ready => rfl
    | idle => rfl
  · intro task pc readiness suspended resolved healthy
    exact (stands task pc suspended).resident resolved healthy

/-! ## A load beside a poll, and a load which a poll ruins -/

def chatConfig : Config := ⟨8081, some "qwen", "llama-server", false⟩

def chatOffline : Record := { Record.blank with modelId := some "qwen" }

/-- A load of the chat slot up to its spawn. -/
def loadToSpawn : List SlotAction :=
  [.start 1 (.loadLock none), .resume 1 {}, .resume 1 {},
    .resume 1 { config := some chatConfig }, .resume 1 {}, .resume 1 {},
    .resume 1 {}, .resume 1 {}]

/-- The probes answer what is true when they answer. -/
def answersTruly (slot : Slot) (reply : Reply) : Pc → Bool
  | .status _ _ (.isActive _) | .status _ _ (.adoptActive _)
  | .stallActive _ => reply.yes = slot.unit.active
  | .status _ _ (.adoptHealth _) => reply.yes = slot.unit.healthy
  | _ => true

/-- Each probe answers what is the case. -/
def Truthful (world : SlotWorld) : SlotAction → Prop
  | .resume task reply =>
    (world.tasks task).all (answersTruly world.shared reply) = true
  | _ => True

instance (world : SlotWorld) (action : SlotAction) :
    Decidable (Truthful world action) :=
  match action with
  | .resume _ _ => inferInstanceAs (Decidable (_ = true))
  | .start _ _ | .cancel _ | .occur _ | .restart => isTrue trivial

/-- A poll starts while the load waits for its unit; the load converges. -/
def pollBesideLoad : List SlotAction :=
  loadToSpawn ++
    [.occur (.unitChanges ⟨true, true⟩), .resume 1 {}, .resume 1 {},
      .start 0 (.status .poll 1 (.isActive (some
        { chatOffline with state := .warming, port := 8081 }))),
      .resume 0 { yes := true }, .resume 1 {}, .resume 0 {}, .resume 1 {}]

theorem undisturbed_poll_beside_load :
    ∃ world,
      Run program.step Apart
          (.quiet (.boot (some chatOffline) ⟨false, false⟩)) pollBesideLoad
          world ∧
        world.shared.state = .ready ∧ Undisturbed Apart world := by
  obtain ⟨world, run, loaded⟩ := Run.exists_of_exec program.step Apart
    (.quiet (.boot (some chatOffline) ⟨false, false⟩)) pollBesideLoad
    (fun world => world.shared.state = .ready) (by decide +kernel)
  exact ⟨world, run, of_decide_eq_true loaded,
    undisturbed_of_apart _ _ _ _ run⟩

/--
A poll reads the chat slot offline; a load brings its unit up, and the poll
adopts it while the load is in its spawn.
-/
def pollReadsOffline : List SlotAction :=
  .start 0 (.status .poll 0 (.isActive (some chatOffline))) :: loadToSpawn ++
    [.occur (.unitChanges ⟨true, true⟩), .resume 0 { yes := true },
      .resume 0 { config := some chatConfig }, .resume 0 { yes := true }]

/-- The poll's next step changes the record under the lock. -/
def pollActs (world : SlotWorld) : Bool :=
  (match world.tasks 0 with
    | some (.status .poll _ (.adoptHealth _)) => true
    | _ => false) &&
    world.owner.isSome &&
    decide (Truthful world (.resume 0 { yes := true })) &&
    (program.step world (.resume 0 { yes := true })).any fun next =>
      next.shared.record ≠ world.shared.record

theorem not_undisturbed {world : SlotWorld} (acts : pollActs world = true) :
    ¬ Undisturbed Truthful world := by
  simp only [pollActs, Bool.and_eq_true, decide_eq_true_eq,
    any_eq_true] at acts
  obtain ⟨⟨⟨polls, held⟩, truthful⟩, next, moved, changed⟩ := acts
  intro undisturbed
  split at polls
  · rename_i suspended
    exact changed (undisturbed.polls _ _ _ _ next suspended
      (isSome_iff_ne_none.1 held) truthful moved)
  · cases polls

/--
With probes that answer the truth, a poll adopts the slot which a load is
starting, and the load of a healthy unit fails with `IllegalSlotTransition`.
-/
theorem poll_ruins_load :
    (∃ world,
      Run program.step Truthful
          (.quiet (.boot (some chatOffline) ⟨false, false⟩))
          pollReadsOffline world ∧
        ¬ Undisturbed Truthful world) ∧
    (∃ world,
      Run program.step Truthful
          (.quiet (.boot (some chatOffline) ⟨false, false⟩))
          (pollReadsOffline ++
            [.resume 0 { yes := true }, .resume 1 {}, .resume 1 {},
              .resume 1 {}, .resume 1 {}]) world ∧
        world.tasks 1 = none ∧
        world.shared.state = .error ∧
        world.shared.record.map Record.message =
          some (Slot.illegalMessage .ready .warming) ∧
        world.shared.unit = ⟨true, true⟩) := by
  constructor
  · obtain ⟨world, run, acts⟩ := Run.exists_of_exec program.step Truthful
      (.quiet (.boot (some chatOffline) ⟨false, false⟩)) pollReadsOffline
      pollActs (by decide +kernel)
    exact ⟨world, run, not_undisturbed acts⟩
  · obtain ⟨world, run, failed⟩ := Run.exists_of_exec program.step Truthful
      (.quiet (.boot (some chatOffline) ⟨false, false⟩))
      (pollReadsOffline ++
        [.resume 0 { yes := true }, .resume 1 {}, .resume 1 {},
          .resume 1 {}, .resume 1 {}])
      (fun world => world.tasks 1 = none ∧ world.shared.state = .error ∧
        world.shared.record.map Record.message =
          some (Slot.illegalMessage .ready .warming) ∧
        world.shared.unit = ⟨true, true⟩) (by decide +kernel)
    exact ⟨world, run, of_decide_eq_true failed⟩

end Hal0.Slots.Lifecycle
