import Hal0.Slots.LifecycleTasks

/-!
# What the steps of a slot's lifecycle do

`Changes` says what any step may do to the slot, `Leads` where a step takes an
operation and what it finds there.  The theorems about whole runs start from
these; each looks only at the counters it is about.
-/

namespace Hal0.Slots.Lifecycle

open Hal0.Monitor

/-! ## Changes of the slot -/

/-- The slot is changed by transitions, bookkeeping and the watch of a stop. -/
inductive Changes : Slot → Slot → Prop where
  | refl (slot : Slot) : Changes slot slot
  | write {first second : Slot} (write : Write)
      (rest : Changes (first.write write) second) : Changes first second
  | count {first second : Slot}
      (rest : Changes first.countFailure second) : Changes first second
  | release {first second : Slot}
      (rest : Changes first.releaseFabricPending second) :
      Changes first second
  | reserve {first second : Slot} (side : FabricClass)
      (rest : Changes { first with fabricPending := some side } second) :
      Changes first second
  | watch {first second : Slot} (tokens : List StopToken) (token : StopToken)
      (rest : Changes
        { first with slowStops := tokens, nextToken := token } second) :
      Changes first second

namespace Changes

variable {slot after : Slot}

theorem frame (changes : Changes slot after) :
    after.now = slot.now ∧ after.unit = slot.unit ∧
      after.epoch = slot.epoch := by
  induction changes with
  | refl slot => exact ⟨rfl, rfl, rfl⟩
  | write write rest ih => exact ih
  | count rest ih => exact ih
  | release rest ih => exact ih
  | reserve side rest ih => exact ih
  | watch tokens token rest ih => exact ih

theorem written (slot : Slot) (write : Write) :
    Changes slot (slot.write write) := .write write (.refl _)

theorem raise (slot : Slot) (attempt : Attempt) (message : String) :
    Changes slot (slot.raise attempt message).1 :=
  .release (.count (.refl _))

variable {attempt : Attempt}

theorem attemptTransition {toState : SlotState} {next : Pc} {fails : Turn}
    (failed : Changes slot fails.1) :
    Changes slot (slot.attemptTransition attempt toState next fails).1 := by
  unfold Slot.attemptTransition Slot.transition
  split
  · rename_i moved found
    obtain ⟨-, same⟩ := Option.ite_none_right_eq_some.1 found
    cases same
    exact .written slot _
  · exact failed

theorem transitionInside (attempt : Attempt) (toState : SlotState)
    (next : Pc) :
    Changes slot (slot.transitionInside attempt toState next).1 :=
  attemptTransition (.refl slot)

theorem onOutcome {next : Turn} (outcome : Outcome)
    (returned : Changes slot next.1) :
    Changes slot (slot.onOutcome attempt next outcome).1 := by
  cases outcome with
  | returned => exact returned
  | raised message => exact .raise slot attempt message
  | insane message => exact .release (.refl _)

theorem onOutcomeInside {next : Turn} (outcome : Outcome)
    (returned : Changes slot next.1) :
    Changes slot (slot.onOutcomeInside attempt next outcome).1 := by
  cases outcome with
  | returned => exact returned
  | raised message => exact .refl slot
  | insane message => exact .refl slot

theorem proceed (attempt : Attempt) (reply : Reply) :
    Changes slot (slot.proceed attempt reply).1 := by
  unfold Slot.proceed
  split
  · exact .written slot _
  · dsimp only
    split_ifs
    · exact .written slot _
    · exact attemptTransition (.raise slot _ _)
    · exact .refl slot

theorem gated (attempt : Attempt) :
    Changes slot (slot.gated attempt).1 := by
  unfold Slot.gated
  split_ifs <;> exact .refl slot

theorem loadWith (modelId : Option String) (reply : Reply) :
    Changes slot (slot.loadWith modelId reply).1 := by
  unfold Slot.loadWith Slot.loadFrom
  split
  · exact .refl slot
  · split
    · exact .refl slot
    · exact .refl slot
    · exact .refl slot
    · split_ifs
      · exact .refl slot
      · exact gated _
    · exact gated _
    · exact gated _
    · exact gated _
    · exact proceed _ reply
    · exact proceed _ reply

theorem guarded (attempt : Attempt) (answer : GuardAnswer) :
    Changes slot (slot.guarded attempt answer).1 := by
  cases answer with
  | unguarded => exact .refl slot
  | reserved side => exact .reserve side (.refl _)
  | hazard => exact .release (.written _ _)
  | raised message => exact .raise slot attempt message

theorem afterAdmit (attempt : Attempt) (ending : Ending) :
    Changes slot (slot.afterAdmit attempt ending).1 := by
  cases ending with
  | raised message => exact .raise slot attempt message
  | insane message => exact .release (.refl _)
  | resolved readiness =>
    unfold Slot.afterAdmit
    split_ifs <;> exact .refl slot

theorem unloadStopped (restarting : Bool) (reply : Reply) :
    Changes slot (slot.unloadStopped restarting reply).1 := by
  have failed : ∀ message, Changes slot (slot.unloadStopped restarting
      { reply with outcome := .raised message }).1 := by
    intro message
    simp only [Slot.unloadStopped]
    split_ifs
    · exact .write _ (.watch _ _ (.refl _))
    · exact .written slot _
  cases outcome : reply.outcome with
  | returned =>
    simp only [Slot.unloadStopped, outcome]
    exact .written slot _
  | raised message =>
    simp only [Slot.unloadStopped, outcome]
    exact failed message
  | insane message =>
    simp only [Slot.unloadStopped, outcome]
    exact failed message

theorem status (probe : Probe) (reply : Reply) :
    Changes slot (slot.resumeStatus probe reply).1 := by
  have reconciled : ∀ write, Changes slot (slot.reconcile write).1 :=
    fun write => .written slot _
  have stalled : ∀ record,
      Changes slot (slot.reconcileStalled record).1 := by
    intro record
    unfold Slot.reconcileStalled
    split_ifs
    · exact reconciled _
    · exact .refl slot
  cases probe with
  | isActive record =>
    simp only [Slot.resumeStatus, Slot.reconcileWith]
    split <;> exact .refl slot
  | failureReason =>
    simp only [Slot.resumeStatus, Slot.reconcileGone]
    split <;> exact reconciled _
  | stoppedCleanly record =>
    simp only [Slot.resumeStatus, Slot.reconcileFailed]
    by_cases cleanly : reply.yes = true
    · rw [if_pos cleanly]
      exact reconciled _
    · rw [if_neg cleanly]
      split_ifs
      · exact .refl slot
      · exact stalled record
  | removedCleanly record =>
    simp only [Slot.resumeStatus, Slot.reconcileRemoved]
    split_ifs
    · exact reconciled _
    · exact stalled record
  | adoptConfig =>
    simp only [Slot.resumeStatus, Slot.adopt]
    split
    · exact .refl slot
    · split_ifs <;> exact .refl slot
  | adoptActive cfg =>
    simp only [Slot.resumeStatus, Slot.adoptLive]
    split_ifs <;> exact .refl slot
  | adoptStall cfg =>
    simp only [Slot.resumeStatus]
    split_ifs
    · exact reconciled _
    · exact .refl slot
  | adoptHealth cfg => exact reconciled _
  | reporting => exact .refl slot

theorem statusTurn (caller : Caller) (epoch : Nat) {turn : StatusTurn}
    (changes : Changes slot turn.1) :
    Changes slot (Slot.statusTurn caller epoch turn).1 := by
  unfold Slot.statusTurn
  split <;> exact changes

theorem resume {pc : Pc} (reply : Reply) (unlocked : pc.acquires = false) :
    Changes slot (slot.resume pc reply).1 := by
  cases pc with
  | status caller epoch probe => exact statusTurn _ _ (status probe reply)
  | loadLock modelId => cases unlocked
  | unloadLock restarting => cases unlocked
  | restartLock => cases unlocked
  | slowStopLock token => cases unlocked
  | abandoned modelId =>
    simp only [Slot.resume]
    split_ifs <;> exact .refl slot
  | loadConfig modelId => exact loadWith modelId reply
  | converge attempt =>
    simp only [Slot.resume]
    split_ifs <;> exact .refl slot
  | stallActive attempt =>
    simp only [Slot.resume]
    split_ifs
    · exact .refl slot
    · exact gated attempt
  | tearDown attempt => exact .written slot _
  | tornDown attempt => exact proceed attempt reply
  | pulling attempt => exact onOutcome _ (.refl slot)
  | checks attempt => exact onOutcome _ (.refl slot)
  | fabricGuard attempt => exact guarded attempt reply.guard
  | enterAdmit attempt => exact onOutcome _ (transitionInside _ _ _)
  | startingEvent attempt => exact .release (.refl _)
  | spawn attempt => exact onOutcomeInside _ (transitionInside _ _ _)
  | awaitReady attempt =>
    refine onOutcomeInside _ ?_
    split_ifs
    · exact .refl slot
    · exact transitionInside _ _ _
  | unitFailure attempt =>
    simp only [Slot.resume]
    split
    · exact .refl slot
    · exact transitionInside _ _ _
  | leaveAdmit attempt ending => exact afterAdmit attempt ending
  | sanityStop attempt message => exact .count (.refl _)
  | crashLine attempt failures message sanityFailed =>
    exact .written slot _
  | unloadStop restarting => exact unloadStopped restarting reply
  | restartStop => exact .written slot _
  | slowStop token =>
    simp only [Slot.resume]
    split <;> exact .refl slot
  | _ => exact .refl slot

theorem acquire {pc : Pc} (reply : Reply) (waits : pc.acquires = true) :
    Changes slot.enter (slot.resume pc reply).1 := by
  cases pc with
  | loadLock modelId =>
    simp only [Slot.resume, Slot.loadLocked]
    split_ifs <;> exact .refl _
  | unloadLock restarting =>
    simp only [Slot.resume, Slot.unloadLocked]
    split_ifs
    · exact .refl _
    · exact .written _ _
  | restartLock => exact .refl _
  | slowStopLock token =>
    simp only [Slot.resume, Slot.finishSlowStop]
    split_ifs
    · exact .written _ _
    · exact .refl _
  | _ => cases waits

end Changes

theorem start_frame {slot started : Slot} {pc : Pc}
    (begun : slot.start pc = some started) :
    started.record = slot.record ∧ started.now = slot.now ∧
      started.epoch = slot.epoch ∧
      started.fabricPending = slot.fabricPending := by
  unfold Slot.start at begun
  split at begun
  case h_1 | h_4 | h_5 | h_6 =>
    obtain ⟨-, same⟩ := Option.ite_none_right_eq_some.1 begun
    cases same
    exact ⟨rfl, rfl, rfl, rfl⟩
  case h_2 | h_3 =>
    cases begun
    exact ⟨rfl, rfl, rfl, rfl⟩
  case h_7 => cases begun

theorem resume_epoch (slot : Slot) (pc : Pc) (reply : Reply) :
    (slot.resume pc reply).1.epoch =
      if pc.acquires then slot.epoch + 1 else slot.epoch := by
  cases waits : pc.acquires with
  | true => exact (Changes.acquire reply waits).frame.2.2
  | false => exact (Changes.resume reply waits).frame.2.2

/-! ## What a step of `status` does -/

/-- A step of `status` leaves the slot, or acts on the drift it found. -/
theorem resumeStatus_cases (slot : Slot) (probe : Probe) (reply : Reply) :
    (slot.resumeStatus probe reply).1 = slot ∨
      probe.drifting = true ∧
        ∃ write, (slot.resumeStatus probe reply).1 = slot.write write := by
  have acts : ∀ write : Write, ∃ other,
      (slot.reconcile write).1 = slot.write other := fun write =>
    ⟨_, rfl⟩
  have stalled : ∀ record, (slot.reconcileStalled record).1 = slot ∨
      ∃ write, (slot.reconcileStalled record).1 = slot.write write := by
    intro record
    unfold Slot.reconcileStalled
    split_ifs
    · exact Or.inr (acts _)
    · exact Or.inl rfl
  cases probe with
  | isActive record =>
    left
    simp only [Slot.resumeStatus, Slot.reconcileWith]
    split <;> rfl
  | failureReason =>
    refine Or.inr ⟨rfl, ?_⟩
    simp only [Slot.resumeStatus, Slot.reconcileGone]
    split <;> exact acts _
  | stoppedCleanly record =>
    simp only [Slot.resumeStatus, Slot.reconcileFailed]
    by_cases cleanly : reply.yes = true
    · rw [if_pos cleanly]
      exact Or.inr ⟨rfl, acts _⟩
    · rw [if_neg cleanly]
      split_ifs
      · exact Or.inl rfl
      · exact (stalled record).imp_right fun wrote => ⟨rfl, wrote⟩
  | removedCleanly record =>
    simp only [Slot.resumeStatus, Slot.reconcileRemoved]
    split_ifs
    · exact Or.inr ⟨rfl, acts _⟩
    · exact (stalled record).imp_right fun wrote => ⟨rfl, wrote⟩
  | adoptConfig =>
    left
    simp only [Slot.resumeStatus, Slot.adopt]
    split
    · rfl
    · split_ifs <;> rfl
  | adoptActive cfg =>
    left
    simp only [Slot.resumeStatus, Slot.adoptLive]
    split_ifs <;> rfl
  | adoptStall cfg =>
    simp only [Slot.resumeStatus]
    split_ifs
    · exact Or.inr ⟨rfl, acts _⟩
    · exact Or.inl rfl
  | adoptHealth cfg => exact Or.inr ⟨rfl, acts _⟩
  | reporting => exact Or.inl rfl

/-! ## Where a step leads -/

/-- The counters a load awaits its attempt at; at no other it is under way. -/
def Pc.inAttempt : Pc → Bool
  | .converge _ | .stallActive _ | .tearDown _ | .tornDown _ | .pullEvent _
  | .pulling _ | .checks _ | .fabricGuard _ | .enterAdmit _ | .startingEvent _
  | .spawn _ | .warmingEvent _ | .awaitReady _ | .unitFailure _
  | .resolvedEvent _ _ | .leaveAdmit _ _ | .persistDefault _ => true
  | _ => false

/-- A poll of `status`. -/
def Pc.isPoll : Pc → Bool
  | .status .poll _ _ => true
  | _ => false

/-- Where the task goes on, it owns what it needs. -/
def Leads (owns : Slot → Pc → Prop) (turn : Turn) : Prop :=
  ∀ next, turn.2 = some next → owns turn.1 next

namespace Leads

variable {owns : Slot → Pc → Prop} {slot : Slot}

theorem ended : Leads owns (slot, none) := by
  intro next awaited
  cases awaited

theorem waits {pc : Pc} (owned : owns slot pc) :
    Leads owns (slot, some pc) := by
  intro next awaited
  cases awaited
  exact owned

variable {attempt : Attempt}

theorem attemptTransition {toState : SlotState} {next : Pc} {fails : Turn}
    (moved : ∀ after, slot.transition
        { toState := toState, modelId := attempt.model
          port := attempt.cfg.port } = some after → owns after next)
    (failed : Leads owns fails) :
    Leads owns (slot.attemptTransition attempt toState next fails) := by
  unfold Slot.attemptTransition
  split
  · rename_i after found
    exact waits (moved after found)
  · exact failed

theorem transitionInside {toState : SlotState} {next : Pc}
    (moved : ∀ after, slot.transition
        { toState := toState, modelId := attempt.model
          port := attempt.cfg.port } = some after → owns after next)
    (failed : owns slot (.leaveAdmit attempt
      (.raised (Slot.illegalMessage slot.state toState)))) :
    Leads owns (slot.transitionInside attempt toState next) :=
  attemptTransition moved (waits failed)

theorem onOutcomeInside {next : Turn} (outcome : Outcome)
    (returned : outcome = .returned → Leads owns next)
    (raised : ∀ message, owns slot (.leaveAdmit attempt (.raised message)))
    (insane : ∀ message, owns slot (.leaveAdmit attempt (.insane message))) :
    Leads owns (slot.onOutcomeInside attempt next outcome) := by
  cases outcome with
  | returned => exact returned rfl
  | raised message => exact waits (raised message)
  | insane message => exact waits (insane message)

theorem gated (attempt : Attempt)
    (opens : slot.gateOpen = true → owns slot (.tearDown attempt)) :
    Leads owns (slot.gated attempt) := by
  unfold Slot.gated
  split_ifs with passed
  · exact waits (opens passed)
  · exact ended

theorem loadWith (modelId : Option String) (reply : Reply)
    (converges : slot.state.isDispatchable = true →
      ∀ attempt, owns slot (.converge attempt))
    (stalls : ∀ attempt, owns slot (.stallActive attempt))
    (opens : slot.gateOpen = true → ∀ attempt, owns slot (.tearDown attempt))
    (proceeds : slot.state = .offline ∨ slot.state = .unloading →
      ∀ attempt, Leads owns (slot.proceed attempt reply)) :
    Leads owns (slot.loadWith modelId reply) := by
  unfold Slot.loadWith
  split
  · exact ended
  · unfold Slot.loadFrom
    cases found : slot.state with
    | ready => exact waits (converges (by rw [found]; rfl) _)
    | serving => exact waits (converges (by rw [found]; rfl) _)
    | idle => exact waits (converges (by rw [found]; rfl) _)
    | error =>
      dsimp only
      split_ifs
      · exact waits (stalls _)
      · exact gated _ fun passed => opens passed _
    | pulling => exact gated _ fun passed => opens passed _
    | starting => exact gated _ fun passed => opens passed _
    | warming => exact gated _ fun passed => opens passed _
    | offline => exact proceeds (Or.inl found) _
    | unloading => exact proceeds (Or.inr found) _

section Aside

variable (aside : ∀ slot pc, pc.inAttempt = false → pc.isPoll = false →
  owns slot pc)

include aside

theorem raise (attempt : Attempt) (message : String) :
    Leads owns (slot.raise attempt message) :=
  waits (aside _ _ rfl rfl)

theorem raiseInsane (attempt : Attempt) (message : String) :
    Leads owns (slot.raiseInsane attempt message) :=
  waits (aside _ _ rfl rfl)

theorem status {caller : Caller} (operates : caller ≠ .poll) :
    Leads owns (slot.status caller) := by
  apply waits
  apply aside _ _ rfl
  cases caller with
  | poll => exact absurd rfl operates
  | load => rfl
  | unload restarting => rfl

theorem loadStatus : Leads owns (slot.status .load) :=
  status aside nofun

theorem unloadStatus (restarting : Bool) :
    Leads owns (slot.status (.unload restarting)) :=
  status aside nofun

theorem statusTurn {caller : Caller} {epoch : Nat} {turn : StatusTurn}
    (operates : caller ≠ .poll) :
    Leads owns (Slot.statusTurn caller epoch turn) := by
  obtain ⟨after, probe⟩ := turn
  cases probe with
  | some probe =>
    apply waits
    apply aside _ _ rfl
    cases caller with
    | poll => exact absurd rfl operates
    | load => rfl
    | unload restarting => rfl
  | none =>
    cases caller with
    | poll => exact absurd rfl operates
    | load => exact ended
    | unload restarting =>
      cases restarting with
      | true => exact waits (aside _ _ rfl rfl)
      | false => exact ended

theorem onOutcome {attempt : Attempt} {next : Turn} (outcome : Outcome)
    (returned : outcome = .returned → Leads owns next) :
    Leads owns (slot.onOutcome attempt next outcome) := by
  cases outcome with
  | returned => exact returned rfl
  | raised message => exact raise aside attempt message
  | insane message => exact raiseInsane aside attempt message

theorem guarded (attempt : Attempt) (answer : GuardAnswer)
    (admits : owns slot (.enterAdmit attempt))
    (reserves : ∀ side,
      owns { slot with fabricPending := some side } (.enterAdmit attempt)) :
    Leads owns (slot.guarded attempt answer) := by
  cases answer with
  | unguarded => exact waits admits
  | reserved side => exact waits (reserves side)
  | hazard => exact waits (aside _ _ rfl rfl)
  | raised message => exact raise aside attempt message

theorem proceed (attempt : Attempt) (reply : Reply)
    (pulls : ∀ attempt after, slot.transition
        { toState := .pulling, modelId := attempt.model
          port := attempt.cfg.port } = some after →
      owns after (.pullEvent attempt))
    (checks : ∀ attempt, owns slot (.checks attempt)) :
    Leads owns (slot.proceed attempt reply) := by
  unfold Slot.proceed
  split
  · exact waits (aside _ _ rfl rfl)
  · dsimp only
    split_ifs
    · exact waits (aside _ _ rfl rfl)
    · exact attemptTransition (pulls _) (raise aside _ _)
    · exact waits (checks _)

theorem resume {pc : Pc} (reply : Reply) (outside : pc.inAttempt = false)
    (polls : ∀ epoch probe, pc = .status .poll epoch probe →
      Leads owns (slot.resume pc reply))
    (begins : ∀ modelId, pc = .loadConfig modelId →
      Leads owns (slot.loadWith modelId reply)) :
    Leads owns (slot.resume pc reply) := by
  cases pc with
  | status caller epoch probe =>
    cases caller with
    | poll => exact polls epoch probe rfl
    | load => exact statusTurn aside nofun
    | unload restarting => exact statusTurn aside nofun
  | loadLock modelId =>
    simp only [Slot.resume, Slot.loadLocked]
    split_ifs <;> exact waits (aside _ _ rfl rfl)
  | abandoned modelId =>
    simp only [Slot.resume]
    split_ifs
    · exact loadStatus aside
    · exact waits (aside _ _ rfl rfl)
  | loadConfig modelId => exact begins modelId rfl
  | settled => exact loadStatus aside
  | sanityStop attempt message => exact waits (aside _ _ rfl rfl)
  | crashLine attempt failures message sanityFailed =>
    exact waits (aside _ _ rfl rfl)
  | raising => exact ended
  | unloadLock restarting =>
    simp only [Slot.resume, Slot.unloadLocked]
    split_ifs
    · exact unloadStatus aside restarting
    · exact waits (aside _ _ rfl rfl)
  | unloadingEvent restarting => exact waits (aside _ _ rfl rfl)
  | unloadStop restarting =>
    simp only [Slot.resume, Slot.unloadStopped]
    split
    · exact waits (aside _ _ rfl rfl)
    · split_ifs <;> exact waits (aside _ _ rfl rfl)
    · split_ifs <;> exact waits (aside _ _ rfl rfl)
  | unloadedEvent restarting => exact unloadStatus aside restarting
  | restartLock => exact waits (aside _ _ rfl rfl)
  | restartStop => exact waits (aside _ _ rfl rfl)
  | restartEvent => exact waits (aside _ _ rfl rfl)
  | slowStop token =>
    simp only [Slot.resume]
    split
    · exact waits (aside _ _ rfl rfl)
    · exact ended
  | slowStopLock token =>
    simp only [Slot.resume, Slot.finishSlowStop]
    split_ifs
    · exact waits (aside _ _ rfl rfl)
    · exact ended
  | _ => cases outside

end Aside

theorem notPoll {pc : Pc} (reply : Reply) (operates : pc.isPoll = false) :
    Leads (fun _ next => next.isPoll = false) (slot.resume pc reply) := by
  have aside : ∀ (_ : Slot) (pc : Pc), pc.inAttempt = false →
      pc.isPoll = false → pc.isPoll = false := fun _ _ _ other => other
  cases within : pc.inAttempt with
  | false =>
    refine resume aside reply within ?_ ?_
    · rintro epoch probe rfl
      cases operates
    · rintro modelId rfl
      exact loadWith modelId reply (fun _ _ => rfl) (fun _ => rfl)
        (fun _ _ => rfl) fun _ attempt =>
          proceed aside attempt reply (fun _ _ _ => rfl) fun _ => rfl
  | true =>
    cases pc with
    | converge attempt =>
      simp only [Slot.resume]
      split_ifs
      · exact waits rfl
      · exact loadStatus aside
    | stallActive attempt =>
      simp only [Slot.resume]
      split_ifs
      · exact ended
      · exact gated attempt fun _ => rfl
    | tornDown attempt =>
      exact proceed aside attempt reply (fun _ _ _ => rfl) fun _ => rfl
    | pulling attempt => exact onOutcome aside _ fun _ => waits rfl
    | checks attempt => exact onOutcome aside _ fun _ => waits rfl
    | fabricGuard attempt =>
      exact guarded aside attempt reply.guard rfl fun _ => rfl
    | enterAdmit attempt =>
      exact onOutcome aside _ fun _ =>
        transitionInside (fun _ _ => rfl) rfl
    | spawn attempt =>
      exact onOutcomeInside _ (fun _ =>
        transitionInside (fun _ _ => rfl) rfl) (fun _ => rfl) fun _ => rfl
    | awaitReady attempt =>
      refine onOutcomeInside _ (fun _ => ?_) (fun _ => rfl) fun _ => rfl
      split_ifs
      · exact waits rfl
      · exact transitionInside (fun _ _ => rfl) rfl
    | unitFailure attempt =>
      simp only [Slot.resume]
      split
      · exact waits rfl
      · exact transitionInside (fun _ _ => rfl) rfl
    | leaveAdmit attempt ending =>
      cases ending with
      | raised message => exact raise aside attempt message
      | insane message => exact raiseInsane aside attempt message
      | resolved readiness =>
        simp only [Slot.resume, Slot.afterAdmit]
        split_ifs
        · exact waits rfl
        · exact loadStatus aside
    | persistDefault readiness => exact loadStatus aside
    | tearDown attempt => exact waits rfl
    | pullEvent attempt => exact waits rfl
    | startingEvent attempt => exact waits rfl
    | warmingEvent attempt => exact waits rfl
    | resolvedEvent attempt readiness => exact waits rfl
    | _ => cases within

end Leads

end Hal0.Slots.Lifecycle
