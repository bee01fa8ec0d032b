import Hal0.Slots.FabricFleet
import Hal0.Slots.FabricReservation

/-!
# The two sides of the fabric clock exclude each other

A guard decides on snapshots.  Between the snapshot of a peer and the decision
the peer may publish `STARTING` and leave the table: then the guard sees it in
neither.  Here: the exclusion, in every run in which no peer which the listing
has read becomes visible before the decision, and the run in which one does.
-/

namespace Hal0.Slots.FabricClock

open Function List
open Hal0.Transition Hal0.Monitor Hal0.Slots.Lifecycle

/-! ## What a decision rests on -/

/-- A reservation that is not counted yet. -/
def Waits (slot : Slot) : Prop :=
  slot.fabricPending ≠ none ∧ isCounted slot.state = false

/-- The snapshot is counted, or leads to a probe of the slot. -/
def Visible (slot : Slot) (observed : SlotState) : Prop :=
  isCounted observed = true ∨ observed = .error ∧ slot.state = .error

/--
A peer goes on without becoming visible: it enters no counted state, and does
not leave the table into `ERROR` with an active unit.
-/
def calm (before after : Slot) : Bool :=
  (isCounted before.state || !isCounted after.state) &&
    (isCounted before.state || before.fabricPending.isNone ||
      after.fabricPending.isSome || !occupies after)

variable {slot : Slot}

theorem live_cases (lives : live slot = true) :
    Waits slot ∨ Visible slot slot.state := by
  simp only [live, occupies, Bool.or_eq_true, Bool.and_eq_true,
    decide_eq_true_eq, Option.isSome_iff_ne_none] at lives
  rcases lives with pending | counted | ⟨failed, -⟩
  · cases counted : isCounted slot.state with
    | true => exact Or.inr (Or.inl counted)
    | false => exact Or.inl ⟨pending, counted⟩
  · exact Or.inr (Or.inl counted)
  · exact Or.inr (Or.inr ⟨failed, failed⟩)

theorem waits_of_inactive (lives : live slot = true)
    (failed : slot.state = .error) (inactive : slot.unit.active = false) :
    Waits slot := by
  refine ⟨?_, by rw [failed]; rfl⟩
  simpa [live, occupies, failed, inactive, isCounted,
    Option.isSome_iff_ne_none] using lives

variable {before after : Slot}

theorem Waits.kept (waits : Waits before) (lives : live after = true)
    (calmly : calm before after = true) :
    Waits after := by
  obtain ⟨pending, uncounted⟩ := waits
  simp only [calm, uncounted, Bool.false_or, Bool.and_eq_true,
    Bool.not_eq_true', Bool.or_eq_true, Option.isNone_iff_eq_none] at calmly
  obtain ⟨stays, (none_ | inTable) | vacant⟩ := calmly
  · exact absurd none_ pending
  · exact ⟨Option.isSome_iff_ne_none.1 inTable, stays⟩
  · refine ⟨?_, stays⟩
    simpa [live, vacant, Option.isSome_iff_ne_none] using lives

theorem failed_kept (failed : before.state = .error)
    (lives : live after = true) (calmly : calm before after = true) :
    Waits after ∨ after.state = .error := by
  have uncounted : isCounted after.state = false := by
    simp only [calm, failed, isCounted, Bool.false_or, Bool.and_eq_true,
      Bool.not_eq_true'] at calmly
    exact calmly.1
  rcases live_cases lives with waits | counted | ⟨stays, -⟩
  · exact Or.inl waits
  · rw [uncounted] at counted
    cases counted
  · exact Or.inr stays

theorem Visible.kept {observed : SlotState} (visible : Visible before observed)
    (lives : live after = true) (calmly : calm before after = true) :
    Waits after ∨ Visible after observed := by
  rcases visible with counted | ⟨failing, failed⟩
  · exact Or.inr (Or.inl counted)
  · rcases failed_kept failed lives calmly with waits | stays
    · exact Or.inl waits
    · exact Or.inr (Or.inr ⟨failing, stays⟩)

/-- The state which a `status` of the listing returns, as it stands. -/
def Glimpse.shown : Glimpse → Option SlotState
  | .unread => none
  | .polling _ observed | .returned observed => some observed

/-- What the guard still knows of a live peer, by its phase. -/
def Sees (slot : Slot) (peer : SlotName) : Phase → Prop
  | .listing glimpses =>
    ∀ observed, (glimpses peer).shown = some observed →
      Waits slot ∨ Visible slot observed
  | .probing probed answer rest counterparts =>
    Waits slot ∨ counterparts ≠ [] ∨
      (peer = probed ∧ slot.state = .error ∧ answer ≠ some false) ∨
      ∃ observed, (peer, observed) ∈ rest ∧ Visible slot observed
  | .reading _ => True

/-- The listing has begun to read the peer. -/
def Phase.hasRead (peer : SlotName) : Phase → Bool
  | .listing glimpses => glimpses peer ≠ .unread
  | .probing _ _ _ _ => true
  | .reading _ => false

variable {peer : SlotName}

theorem Sees.unread {phase : Phase}
    (absent : phase.hasRead peer = false) : Sees slot peer phase := by
  cases phase with
  | listing glimpses =>
    have unread : glimpses peer = .unread := by
      simpa [Phase.hasRead] using absent
    intro observed shown
    rw [unread] at shown
    cases shown
  | probing probed answer rest counterparts => cases absent
  | reading counterparts => trivial

theorem Sees.kept {phase : Phase} (sees : Sees before peer phase)
    (lives : live after = true)
    (quiet : phase.hasRead peer = true → calm before after = true) :
    Sees after peer phase := by
  cases read : phase.hasRead peer with
  | false => exact .unread read
  | true =>
    have calmly := quiet read
    cases phase with
    | listing glimpses =>
      intro observed glimpsed
      rcases sees observed glimpsed with waits | visible
      · exact Or.inl (waits.kept lives calmly)
      · exact visible.kept lives calmly
    | probing probed answer rest counterparts =>
      rcases sees with waits | found | ⟨same, failed, unanswered⟩ |
        ⟨observed, left, visible⟩
      · exact Or.inl (waits.kept lives calmly)
      · exact Or.inr (Or.inl found)
      · rcases failed_kept failed lives calmly with waits | stays
        · exact Or.inl waits
        · exact Or.inr (Or.inr (Or.inl ⟨same, stays, unanswered⟩))
      · rcases visible.kept lives calmly with waits | visible
        · exact Or.inl waits
        · exact Or.inr (Or.inr (Or.inr ⟨observed, left, visible⟩))
    | reading counterparts => trivial

/-! ## The loop over the snapshots -/

variable {setup : Setup} {side : FabricClass}

/-- A survey finds who uses the fabric. -/
theorem survey_sees (slot : Slot)
    (uses : snapshotUses (setup.config peer) (opposite side) = true)
    (rest : List (SlotName × SlotState)) (counterparts : List SlotName)
    (known : Waits slot ∨ counterparts ≠ [] ∨
      ∃ observed, (peer, observed) ∈ rest ∧ Visible slot observed) :
    match survey setup side rest counterparts with
    | .probe probed rest counterparts =>
      Sees slot peer (.probing probed none rest counterparts)
    | .done counterparts => Waits slot ∨ counterparts ≠ [] := by
  induction rest generalizing counterparts with
  | nil =>
    rcases known with waits | found | ⟨observed, left, -⟩
    · exact Or.inl waits
    · exact Or.inr found
    · cases left
  | cons entry rest ih =>
    obtain ⟨name, shown⟩ := entry
    have skipped : ∀ found : List SlotName,
        (counterparts ≠ [] → found ≠ []) →
        (name = peer → Visible slot shown → found ≠ []) →
        Waits slot ∨ found ≠ [] ∨
          ∃ observed, (peer, observed) ∈ rest ∧
            Visible slot observed := by
      intro found grows finds
      rcases known with waits | earlier | ⟨observed, left, visible⟩
      · exact Or.inl waits
      · exact Or.inr (Or.inl (grows earlier))
      · rcases mem_cons.1 left with same | later
        · cases same
          exact Or.inr (Or.inl (finds rfl visible))
        · exact Or.inr (Or.inr ⟨observed, later, visible⟩)
    rw [survey]
    split_ifs with unused counted failed
    · apply ih
      apply skipped _ id
      rintro rfl _
      simp [uses] at unused
    · apply ih
      apply skipped
      · intro _
        simp
      · intro _ _
        simp
    · dsimp only [Sees]
      rcases known with waits | earlier | ⟨observed, left, visible⟩
      · exact Or.inl waits
      · exact Or.inr (Or.inl earlier)
      · rcases mem_cons.1 left with same | later
        · cases same
          rcases visible with seen | ⟨-, failing⟩
          · exact absurd seen counted
          · exact Or.inr (Or.inr (Or.inl ⟨rfl, failing, nofun⟩))
        · exact Or.inr (Or.inr (Or.inr ⟨observed, later, visible⟩))
    · apply ih
      apply skipped _ id
      rintro rfl (seen | ⟨failing, -⟩)
      · exact absurd seen counted
      · exact absurd failing failed

/-! ## The invariant -/

/-- The slot passed and is still up. -/
def Marked (fleet : Fleet) (name : SlotName) : Prop :=
  fleet.passed name = true ∧ live (fleet.slot name) = true

/-- What holds of the fleet in every run. -/
structure Kept (setup : Setup) (fleet : Fleet) : Prop where
  table : ∀ name side, (fleet.slot name).fabricPending = some side →
    setup.sideOf name = some side
  known : ∀ name, fleet.passed name = true → name ∈ setup.names
  apart : ∀ name other side, setup.sideOf name = some side →
    setup.sideOf other = some (opposite side) → Marked fleet name →
    ¬ Marked fleet other
  scanned : ∀ scan, fleet.scan = some scan →
    setup.sideOf scan.slot = some scan.side ∧
      ∀ peer, setup.sideOf peer = some (opposite scan.side) →
        Marked fleet peer → Sees (fleet.slot peer) peer scan.phase

theorem opposite_ne (side : FabricClass) : opposite side ≠ side := by
  cases side <;> nofun

variable {name : SlotName}

theorem ne_of_sides {other : SlotName} (ours : setup.sideOf name = some side)
    (theirs : setup.sideOf other = some (opposite side)) : other ≠ name := by
  rintro rfl
  rw [ours] at theirs
  exact opposite_ne side (Option.some.inj theirs).symm

/-! ## Steps of one slot -/

variable {world : SlotWorld} {action : SlotAction}

theorem step_pending {next : SlotWorld}
    (moved : program.step world action = some next)
    (unanswered : answersGuard world action = false) :
    next.shared.fabricPending = none ∨
      next.shared.fabricPending = world.shared.fabricPending := by
  cases Program.moves_of_step moved with
  | start unused started settled =>
    exact Or.inr (start_frame started).2.2.2
  | @resume task pc reply shared after suspended scheduled free resumed =>
    obtain ⟨rfl, rfl⟩ := resumed_eq resumed
    apply Accounts.resume
    rintro attempt side rfl -
    simp [answersGuard, suspended] at unanswered
  | cancel suspended settled abandoned =>
    cases abandoned
    exact Or.inr rfl
  | @occur event shared settled occurred =>
    cases occurred
    cases event with
    | elapse duration => exact Or.inr rfl
    | unitChanges unit => exact Or.inr rfl
    | resetLoadFailures => exact Or.inr rfl
  | restart => exact Or.inl rfl

/-- What `status` observes is what it read, or what it has just written. -/
theorem observes_cases (slot : Slot) (observed : SlotState) (probe : Probe)
    (reply : Reply) :
    observes observed probe reply = observed ∨
      isCounted (observes observed probe reply) = true ∨
      observes observed probe reply =
        (slot.resumeStatus probe reply).1.state := by
  cases probe with
  | failureReason =>
    refine Or.inr (Or.inr ?_)
    cases reason : reply.failureReason with
    | none =>
      simp only [observes, reason, Slot.resumeStatus]
      rfl
    | some text =>
      simp only [observes, reason, Slot.resumeStatus]
      rfl
  | stoppedCleanly record =>
    cases cleanly : reply.yes with
    | true =>
      refine Or.inr (Or.inr ?_)
      simp only [observes, cleanly, Slot.resumeStatus]
      rfl
    | false =>
      refine Or.inl ?_
      simp [observes, cleanly]
  | removedCleanly record =>
    cases cleanly : reply.yes with
    | true =>
      refine Or.inr (Or.inr ?_)
      simp only [observes, cleanly, Slot.resumeStatus]
      rfl
    | false =>
      refine Or.inl ?_
      simp [observes, cleanly]
  | adoptStall cfg =>
    cases cleared : reply.yes with
    | true =>
      refine Or.inr (Or.inl ?_)
      simp [observes, cleared, isCounted]
    | false =>
      refine Or.inl ?_
      simp [observes, cleared]
  | adoptHealth cfg =>
    refine Or.inr (Or.inl ?_)
    simp only [observes]
    split_ifs <;> rfl
  | isActive record => exact Or.inl rfl
  | adoptConfig => exact Or.inl rfl
  | adoptActive cfg => exact Or.inl rfl
  | reporting => exact Or.inl rfl

/-- A step changes what a `status` shows only as a step of that `status`. -/
theorem follow_shown (world next : SlotWorld) (action : SlotAction)
    (glimpse : Glimpse) :
    (glimpse.follow world next action).shown = glimpse.shown ∨
      ∃ task reply epoch probe observed, action = .resume task reply ∧
        world.tasks task = some (.status .poll epoch probe) ∧
        glimpse.shown = some observed ∧
        (glimpse.follow world next action).shown =
          some (observes observed probe reply) := by
  cases glimpse with
  | unread => exact Or.inl rfl
  | returned observed => exact Or.inl rfl
  | polling task observed =>
    cases action with
    | start other pc => exact Or.inl rfl
    | cancel other => exact Or.inl rfl
    | occur event => exact Or.inl rfl
    | restart => exact Or.inl rfl
    | resume other reply =>
      by_cases same : other = task
      · subst same
        have ends : ∀ state, (if (next.tasks other).isNone = true
            then Glimpse.returned state
            else .polling other state).shown = some state := by
          intro state
          split_ifs <;> rfl
        simp only [Glimpse.follow, if_true, ends]
        split
        · rename_i epoch probe suspended
          exact Or.inr ⟨other, reply, epoch, probe, observed, rfl,
            suspended, rfl, rfl⟩
        · exact Or.inl rfl
      · left
        simp [Glimpse.follow, same]

/-- The listing's own `status` shows the peer as it was, or as it now is. -/
theorem follow_sees {next : SlotWorld} {glimpse : Glimpse}
    (moved : program.step world action = some next)
    (lives : live next.shared = true)
    (sees : ∀ observed, glimpse.shown = some observed →
      Waits next.shared ∨ Visible next.shared observed) (observed : SlotState)
    (shown : (glimpse.follow world next action).shown = some observed) :
    Waits next.shared ∨ Visible next.shared observed := by
  rcases follow_shown world next action glimpse with
    same | ⟨task, reply, epoch, probe, earlier, rfl, suspended, before, after⟩
  · rw [same] at shown
    exact sees observed shown
  · rw [after] at shown
    cases shown
    cases Program.moves_of_step moved with
    | @resume task pc reply shared counter found scheduled free resumed =>
      rw [suspended] at found
      cases found
      obtain ⟨rfl, rfl⟩ := resumed_eq resumed
      have written : (world.shared.resume (.status .poll epoch probe)
          reply).1 = (world.shared.resumeStatus probe reply).1 := by
        simp only [Slot.resume, Slot.statusTurn]
        split <;> rfl
      rcases observes_cases world.shared earlier probe reply with
        same | counted | now
      · rw [same]
        exact sees earlier before
      · exact Or.inr (Or.inl counted)
      · rw [now, ← written]
        exact live_cases lives

/-! ## Steps of the fleet -/

/-- Every slot that passed is up. -/
def Fleet.Settled (fleet : Fleet) : Prop :=
  ∀ name, fleet.passed name = true → live (fleet.slot name) = true

variable {next fleet : Fleet}

/-- A step of one slot. -/
theorem Kept.changes (kept : Kept setup fleet) (settled : fleet.Settled)
    (passed : ∀ name side, setup.sideOf name = some side →
      next.passed name = true → fleet.passed name = true)
    (known : ∀ name, next.passed name = true → name ∈ setup.names)
    (table : ∀ name, (next.slot name).fabricPending = none ∨
      (next.slot name).fabricPending = (fleet.slot name).fabricPending)
    (scanned : ∀ scan, next.scan = some scan →
      setup.sideOf scan.slot = some scan.side ∧
        ∀ peer, setup.sideOf peer = some (opposite scan.side) →
          Marked fleet peer → Marked next peer →
          Sees (next.slot peer) peer scan.phase) :
    Kept setup next := by
  have marked : ∀ name side, setup.sideOf name = some side →
      Marked next name → Marked fleet name := by
    intro name side sided marks
    have earlier := passed name side sided marks.1
    exact ⟨earlier, settled name earlier⟩
  constructor
  · intro name side pending
    rcases table name with none_ | same
    · rw [none_] at pending
      cases pending
    · rw [same] at pending
      exact kept.table name side pending
  · exact known
  · intro name other side ours theirs marks counterpart
    exact kept.apart name other side ours theirs (marked name _ ours marks)
      (marked other _ theirs counterpart)
  · intro scan found
    obtain ⟨side, sees⟩ := scanned scan found
    exact ⟨side, fun peer theirs marks =>
      sees peer theirs (marked peer _ theirs marks) marks⟩

/-- What the answer of the guard does. -/
structure Answered (setup : Setup) (fleet : Fleet) (name : SlotName)
    (guard : GuardAnswer) (passes : Bool) (next : Fleet) : Prop where
  scan : next.scan = fleet.scan
  others : ∀ other, other ≠ name → next.slot other = fleet.slot other
  passed : ∀ other, next.passed other =
    if other = name then fleet.passed name || passes else fleet.passed other
  known : name ∈ setup.names
  table : ∀ side, (next.slot name).fabricPending = some side →
    guard = .reserved side ∨ (fleet.slot name).fabricPending = some side

variable {guard : GuardAnswer}

theorem answered_of_answer {task : TaskId} {passes : Bool}
    (answers : fleet.answer setup name task guard passes = some next) :
    Answered setup fleet name guard passes next := by
  unfold Fleet.answer at answers
  split at answers
  · rename_i attempt suspended
    obtain ⟨known, answers⟩ := Option.ite_none_right_eq_some.1 answers
    obtain ⟨world, moved, rfl⟩ := Option.map_eq_some_iff.1 answers
    refine ⟨rfl, ?_, ?_, known, ?_⟩
    · intro other distinct
      simp [Fleet.slot, Fleet.put, update_of_ne distinct]
    · intro other
      exact update_apply _ _ _ _
    · intro side pending
      simp only [Fleet.slot, Fleet.put, update_self] at pending
      cases Program.moves_of_step moved with
      | @resume task pc reply shared after found scheduled free resumed =>
        rw [suspended] at found
        cases found
        obtain ⟨rfl, rfl⟩ := resumed_eq resumed
        cases guard with
        | reserved granted =>
          left
          cases pending
          rfl
        | unguarded => exact Or.inr pending
        | hazard => cases pending
        | raised message => cases pending
  · cases answers

theorem Answered.known_of_passed {passes : Bool}
    (answered : Answered setup fleet name guard passes next)
    (kept : Kept setup fleet) (other : SlotName)
    (passed : next.passed other = true) : other ∈ setup.names := by
  rw [answered.passed] at passed
  split_ifs at passed with same
  · rw [same]
    exact answered.known
  · exact kept.known other passed

theorem Answered.table_kept {passes : Bool}
    (answered : Answered setup fleet name guard passes next)
    (ungranted : ∀ side, guard ≠ .reserved side) (peer : SlotName) :
    (next.slot peer).fabricPending = none ∨
      (next.slot peer).fabricPending = (fleet.slot peer).fabricPending := by
  by_cases same : peer = name
  · subst same
    cases pending : (next.slot peer).fabricPending with
    | none => exact Or.inl rfl
    | some side =>
      rcases answered.table side pending with granted | earlier
      · exact absurd granted (ungranted side)
      · exact Or.inr earlier.symm
  · rw [answered.others peer same]
    exact Or.inr rfl

theorem Kept.skipped (kept : Kept setup fleet) (settled : fleet.Settled)
    (sideless : setup.sideOf name = none)
    (answered : Answered setup fleet name .unguarded true next) :
    Kept setup next := by
  have other : ∀ peer side, setup.sideOf peer = some side → peer ≠ name := by
    rintro peer side sided rfl
    rw [sideless] at sided
    cases sided
  refine kept.changes settled ?_ (answered.known_of_passed kept)
    (answered.table_kept nofun) ?_
  · intro peer side sided passed
    rwa [answered.passed, if_neg (other peer side sided)] at passed
  · intro scan found
    rw [answered.scan] at found
    obtain ⟨side, sees⟩ := kept.scanned scan found
    refine ⟨side, fun peer theirs marks _ => ?_⟩
    rw [answered.others peer (other peer _ theirs)]
    exact sees peer theirs marks

theorem Kept.refused (kept : Kept setup fleet) (settled : fleet.Settled)
    (released : fleet.scan = none)
    (answered : Answered setup fleet name .hazard false next) :
    Kept setup next := by
  refine kept.changes settled ?_ (answered.known_of_passed kept)
    (answered.table_kept nofun) ?_
  · intro peer side _ passed
    rw [answered.passed] at passed
    split_ifs at passed with same
    · rw [same]
      simpa using passed
    · exact passed
  · intro scan found
    rw [answered.scan, released] at found
    cases found

/-- The guard lets a slot pass. -/
theorem Kept.granted (kept : Kept setup fleet)
    (sided : setup.sideOf name = some side) (released : fleet.scan = none)
    (alone : ∀ peer, setup.sideOf peer = some (opposite side) →
      ¬ Marked fleet peer)
    (answered : Answered setup fleet name (.reserved side) true next) :
    Kept setup next := by
  have unmarked : ∀ peer, setup.sideOf peer = some (opposite side) →
      ¬ Marked next peer := by
    intro peer theirs marks
    have distinct := ne_of_sides sided theirs
    apply alone peer theirs
    rw [Marked, answered.passed, if_neg distinct, answered.others peer
      distinct] at marks
    exact marks
  constructor
  · intro peer held pending
    by_cases same : peer = name
    · subst same
      rcases answered.table held pending with granted | earlier
      · cases granted
        exact sided
      · exact kept.table peer held earlier
    · rw [answered.others peer same] at pending
      exact kept.table peer held pending
  · exact answered.known_of_passed kept
  · intro first second held ours theirs marks counterpart
    by_cases same : held = side
    · subst same
      exact unmarked second theirs counterpart
    · have crossed : held = opposite side := by
        cases held <;> cases side <;> first | rfl | exact absurd rfl same
      subst crossed
      exact unmarked first ours marks
  · intro scan found
    rw [answered.scan, released] at found
    cases found

theorem Kept.release
    (kept : Kept setup fleet) : Kept setup { fleet with scan := none } :=
  ⟨kept.table, kept.known, kept.apart, nofun⟩

variable {scan : Scan}

theorem Kept.rephase (kept : Kept setup fleet) (found : fleet.scan = some scan)
    (phase : Phase)
    (sees : ∀ peer, setup.sideOf peer = some (opposite scan.side) →
      Marked fleet peer → Sees (fleet.slot peer) peer phase) :
    Kept setup { fleet with scan := some { scan with phase := phase } } := by
  refine ⟨kept.table, kept.known, kept.apart, ?_⟩
  intro next same
  cases same
  exact ⟨(kept.scanned scan found).1, sees⟩

theorem Kept.conclude {counterparts : List SlotName} (kept : Kept setup fleet)
    (found : fleet.scan = some scan)
    (known : ∀ peer, setup.sideOf peer = some (opposite scan.side) →
      Marked fleet peer → Waits (fleet.slot peer) ∨ counterparts ≠ [])
    (concluded : fleet.conclude setup scan counterparts = some next) :
    Kept setup next := by
  obtain ⟨sided, -⟩ := kept.scanned scan found
  simp only [Fleet.conclude] at concluded
  split_ifs at concluded with nobody
  · refine kept.release.granted sided rfl ?_ (answered_of_answer concluded)
    intro peer theirs marks
    obtain ⟨uncounted, absent⟩ := append_eq_nil_iff.1 nobody
    rcases known peer theirs marks with ⟨pending, -⟩ | counted
    · obtain ⟨side, entry⟩ := Option.ne_none_iff_exists'.1 pending
      have ours : side = opposite scan.side := by
        have table := kept.table peer side entry
        rw [theirs] at table
        exact (Option.some.inj table).symm
      subst ours
      have listed : peer ∈ fleet.pendingCounterparts setup scan := by
        simp [Fleet.pendingCounterparts, kept.known peer marks.1, entry,
          ne_of_sides sided theirs]
      rw [absent] at listed
      cases listed
    · exact counted uncounted
  · cases concluded
    exact kept.rephase found _ fun _ _ _ => trivial

theorem Kept.proceed {rest : List (SlotName × SlotState)}
    {counterparts : List SlotName}
    (agree : ∀ name ∈ setup.names, Agree (setup.config name))
    (kept : Kept setup fleet) (found : fleet.scan = some scan)
    (known : ∀ peer, setup.sideOf peer = some (opposite scan.side) →
      Marked fleet peer → Waits (fleet.slot peer) ∨ counterparts ≠ [] ∨
        ∃ observed, (peer, observed) ∈ rest ∧
          Visible (fleet.slot peer) observed)
    (proceeds : fleet.proceed setup scan rest counterparts = some next) :
    Kept setup next := by
  have uses : ∀ peer, setup.sideOf peer = some (opposite scan.side) →
      Marked fleet peer →
      snapshotUses (setup.config peer) (opposite scan.side) = true :=
    fun peer theirs marks =>
      (agree peer (kept.known peer marks.1) _).2 theirs
  unfold Fleet.proceed at proceeds
  split at proceeds
  · rename_i reached
    cases proceeds
    refine kept.rephase found _ ?_
    intro peer theirs marks
    have seen := survey_sees (fleet.slot peer) (uses peer theirs marks) rest
      counterparts (known peer theirs marks)
    rw [reached] at seen
    exact seen
  · rename_i reached
    refine kept.conclude found ?_ proceeds
    intro peer theirs marks
    have seen := survey_sees (fleet.slot peer) (uses peer theirs marks) rest
      counterparts (known peer theirs marks)
    rw [reached] at seen
    exact seen

/-! ## Runs -/

/-- The listing succeeds; the clock can be read, and is not held. -/
def assumed : FleetAction → Bool
  | .listFails | .clockFails => false
  | .clockRead clock => clock.readable && !clock.held
  | _ => true

theorem clockAnswer_hazard {clock : Clock}
    (given : assumed (.clockRead clock) = true) :
    clockAnswer .refuse side clock = .hazard := by
  obtain ⟨readable, held⟩ := clock
  cases readable <;> cases held <;> first | rfl | cases given

/--
While a guard goes on, no slot of the other side which its listing has read
becomes visible.
-/
def calmly (setup : Setup) (fleet : Fleet) (action : FleetAction) : Bool :=
  fleet.scan.all fun scan =>
    (fleet.move setup action).all fun next =>
      next.scan.isNone || setup.names.all fun peer =>
        setup.sideOf peer ≠ some (opposite scan.side) ||
          !scan.phase.hasRead peer ||
          calm (fleet.slot peer) (next.slot peer)

theorem calm_of_calmly {action : FleetAction}
    (steady : calmly setup fleet action = true)
    (found : fleet.scan = some scan)
    (moved : fleet.move setup action = some next) (goesOn : next.scan ≠ none)
    (known : peer ∈ setup.names)
    (theirs : setup.sideOf peer = some (opposite scan.side))
    (read : scan.phase.hasRead peer = true) :
    calm (fleet.slot peer) (next.slot peer) = true := by
  simp only [calmly, found, moved, Option.all_some, Bool.or_eq_true,
    Option.isNone_iff_eq_none, all_eq_true] at steady
  rcases steady with ended | steady
  · exact absurd ended goesOn
  · simpa [theirs, read] using steady peer known

theorem follow_cases {after : Scan} {next : SlotWorld}
    (followed : scan.follow name world next action = some after) :
    after = scan ∨
      ∃ glimpses, scan.phase = .listing glimpses ∧
        after = { scan with
          phase := .listing (update glimpses name
            ((glimpses name).follow world next action)) } := by
  unfold Scan.follow at followed
  split_ifs at followed
  · split at followed
    · obtain ⟨-, same⟩ := Option.ite_none_left_eq_some.1 followed
      exact Or.inl (Option.some.inj same).symm
    · exact Or.inl (Option.some.inj followed).symm
  · split at followed
    · rename_i glimpses listing
      exact Or.inr ⟨glimpses, listing, (Option.some.inj followed).symm⟩
    · exact Or.inl (Option.some.inj followed).symm

theorem Kept.stepSlot (kept : Kept setup fleet) (settled : fleet.Settled)
    (unanswered : answersGuard (fleet.slots name) action = false)
    (moved : fleet.stepSlot name action = some next)
    (quiet : ∀ scan peer, fleet.scan = some scan → next.scan ≠ none →
      peer ∈ setup.names → setup.sideOf peer = some (opposite scan.side) →
      scan.phase.hasRead peer = true →
        calm (fleet.slot peer) (next.slot peer) = true) :
    Kept setup next := by
  obtain ⟨world, stepped, rfl⟩ := Option.map_eq_some_iff.1 moved
  refine kept.changes settled (fun _ _ _ passed => passed) kept.known ?_ ?_
  · intro peer
    by_cases same : peer = name
    · subst same
      simpa [Fleet.slot, Fleet.put] using step_pending stepped unanswered
    · simp [Fleet.slot, Fleet.put, update_of_ne same]
  · intro after goesOn
    obtain ⟨scan, found, followed⟩ := Option.bind_eq_some_iff.1 goesOn
    obtain ⟨sided, sees⟩ := kept.scanned scan found
    have stays : ∀ peer, setup.sideOf peer = some (opposite scan.side) →
        Marked fleet peer →
        live ((fleet.put name world).slot peer) = true →
        Sees ((fleet.put name world).slot peer) peer scan.phase := by
      intro peer theirs marks lives
      apply (sees peer theirs marks).kept lives
      exact quiet scan peer found
        (Option.ne_none_iff_exists'.2 ⟨after, goesOn⟩)
        (kept.known peer marks.1) theirs
    rcases follow_cases followed with rfl | ⟨glimpses, listing, rfl⟩
    · exact ⟨sided, fun peer theirs before after =>
        stays peer theirs before after.2⟩
    · refine ⟨sided, fun peer theirs before after => ?_⟩
      have seen := stays peer theirs before after.2
      rw [listing] at seen
      intro observed shown
      by_cases same : peer = name
      · subst same
        rw [update_self] at shown
        have here : (fleet.put peer world).slot peer = world.shared := by
          simp [Fleet.slot, Fleet.put]
        have lives : live world.shared = true := here ▸ after.2
        simp only [Sees, here] at seen
        have result := follow_sees stepped lives seen observed shown
        rwa [← here] at result
      · rw [update_of_ne same] at shown
        exact seen observed shown

theorem Kept.stepServing {toState : SlotState} (kept : Kept setup fleet)
    (settled : fleet.Settled)
    (moved : fleet.stepServing name toState = some next)
    (quiet : ∀ scan peer, fleet.scan = some scan → next.scan ≠ none →
      peer ∈ setup.names → setup.sideOf peer = some (opposite scan.side) →
      scan.phase.hasRead peer = true →
        calm (fleet.slot peer) (next.slot peer) = true) :
    Kept setup next := by
  obtain ⟨-, served⟩ := Option.ite_none_right_eq_some.1 moved
  obtain ⟨slot, transition, rfl⟩ := Option.map_eq_some_iff.1 served
  obtain ⟨-, same⟩ := Option.ite_none_right_eq_some.1 transition
  cases same
  refine kept.changes settled (fun _ _ _ passed => passed) kept.known ?_ ?_
  · intro peer
    right
    by_cases same : peer = name
    · subst same
      simp [Fleet.slot, Fleet.put, Slot.write]
    · simp [Fleet.slot, Fleet.put, update_of_ne same]
  · intro scan found
    obtain ⟨sided, sees⟩ := kept.scanned scan found
    refine ⟨sided, fun peer theirs before after => ?_⟩
    exact (sees peer theirs before).kept after.2
      (quiet scan peer found (Option.ne_none_iff_exists'.2 ⟨scan, found⟩)
        (kept.known peer before.1) theirs)

theorem Kept.stepPoll {glimpses : SlotName → Glimpse} {task : TaskId}
    (kept : Kept setup fleet) (settled : fleet.Settled)
    (found : fleet.scan = some scan) (listing : scan.phase = .listing glimpses)
    (moved : fleet.stepPoll setup scan glimpses name task = some next) :
    Kept setup next := by
  obtain ⟨-, begun⟩ := Option.ite_none_right_eq_some.1 moved
  obtain ⟨world, started, rfl⟩ := Option.map_eq_some_iff.1 begun
  obtain ⟨sided, sees⟩ := kept.scanned scan found
  have unmoved : world.shared = fleet.slot name := by
    cases Program.moves_of_step started with
    | start unused begins settled =>
      obtain ⟨-, same⟩ := Option.ite_none_right_eq_some.1 begins
      exact (Option.some.inj same).symm
  have same : ∀ peer, (fleet.put name world).slot peer = fleet.slot peer := by
    intro peer
    by_cases here : peer = name
    · subst here
      simpa [Fleet.slot, Fleet.put] using unmoved
    · simp [Fleet.slot, Fleet.put, update_of_ne here]
  refine kept.changes settled (fun _ _ _ passed => passed) kept.known
    (fun peer => Or.inr (congrArg Slot.fabricPending (same peer))) ?_
  intro after goesOn
  cases goesOn
  refine ⟨sided, fun peer theirs before _ => ?_⟩
  change Sees ((fleet.put name world).slot peer) peer _
  rw [same]
  have seen := sees peer theirs before
  rw [listing] at seen
  intro observed shown
  by_cases here : peer = name
  · subst here
    rw [update_self] at shown
    cases shown
    exact live_cases before.2
  · rw [update_of_ne here] at shown
    exact seen observed shown

theorem exists_of_mapM {Name Shot : Type} {read : Name → Option Shot}
    {names : List Name} {shots : List Shot} {name : Name}
    (reads : names.mapM read = some shots) (present : name ∈ names) :
    ∃ shot ∈ shots, read name = some shot := by
  induction names generalizing shots with
  | nil => cases present
  | cons first rest ih =>
    rw [mapM_cons] at reads
    obtain ⟨shot, head, reads⟩ := Option.bind_eq_some_iff.1 reads
    obtain ⟨later, tail, same⟩ := Option.bind_eq_some_iff.1 reads
    cases same
    rcases mem_cons.1 present with rfl | inRest
    · exact ⟨shot, mem_cons_self, head⟩
    · obtain ⟨found, among, answers⟩ := ih tail inRest
      exact ⟨found, mem_cons_of_mem _ among, answers⟩

theorem snapshots_see {glimpses : SlotName → Glimpse}
    {others : List (SlotName × SlotState)}
    (listed : snapshots setup name glimpses = some others)
    (known : peer ∈ setup.names) (distinct : peer ≠ name)
    (sees : Sees slot peer (.listing glimpses)) :
    Waits slot ∨ ∃ observed, (peer, observed) ∈ others ∧
      Visible slot observed := by
  have present : peer ∈ setup.names.filter (· ≠ name) := by
    simp [known, distinct]
  obtain ⟨shot, among, reads⟩ := exists_of_mapM listed present
  split at reads
  · rename_i observed returned
    cases reads
    refine (sees observed ?_).imp_right fun visible =>
      ⟨observed, among, visible⟩
    rw [returned]
    rfl
  · cases reads

/-- The guard refuses, and both rules give each slot the same class. -/
structure Refuses (setup : Setup) : Prop where
  policy : setup.policy = .refuse
  agree : ∀ name ∈ setup.names, Agree (setup.config name)

/-- Every step of the fleet. -/
theorem Kept.move {action : FleetAction} (refuses : Refuses setup)
    (kept : Kept setup fleet) (settled : fleet.Settled)
    (given : assumed action = true) (steady : calmly setup fleet action = true)
    (moved : fleet.move setup action = some next) : Kept setup next := by
  have quiet : ∀ scan peer, fleet.scan = some scan → next.scan ≠ none →
      peer ∈ setup.names → setup.sideOf peer = some (opposite scan.side) →
      scan.phase.hasRead peer = true →
        calm (fleet.slot peer) (next.slot peer) = true :=
    fun _ _ found goesOn known theirs read =>
      calm_of_calmly steady found moved goesOn known theirs read
  cases action with
  | slot name action =>
    obtain ⟨⟨-, unanswered⟩, stepped⟩ :=
      Option.ite_none_right_eq_some.1 moved
    exact kept.stepSlot settled unanswered stepped quiet
  | serving name toState => exact kept.stepServing settled moved quiet
  | skip name task =>
    obtain ⟨off | sideless, answers⟩ :=
      Option.ite_none_right_eq_some.1 moved
    · rw [refuses.policy] at off
      cases off
    · exact kept.skipped settled sideless (answered_of_answer answers)
  | lock name task =>
    simp only [Fleet.move] at moved
    split at moved
    · rename_i side attempt free sided suspended
      obtain ⟨-, same⟩ := Option.ite_none_right_eq_some.1 moved
      cases same
      refine ⟨kept.table, kept.known, kept.apart, ?_⟩
      intro scan begun
      cases begun
      exact ⟨sided, fun peer _ _ => Sees.unread rfl⟩
    · cases moved
  | poll name task =>
    obtain ⟨scan, found, goesOn⟩ := Option.bind_eq_some_iff.1 moved
    split at goesOn
    · rename_i glimpses listing
      exact kept.stepPoll settled found listing goesOn
    · cases goesOn
  | listed =>
    obtain ⟨scan, found, goesOn⟩ := Option.bind_eq_some_iff.1 moved
    obtain ⟨sided, sees⟩ := kept.scanned scan found
    split at goesOn
    · rename_i glimpses listing
      obtain ⟨others, listed, proceeds⟩ := Option.bind_eq_some_iff.1 goesOn
      refine kept.proceed refuses.agree found ?_ proceeds
      intro peer theirs marks
      have seen := sees peer theirs marks
      rw [listing] at seen
      refine (snapshots_see listed (kept.known peer marks.1)
        (ne_of_sides sided theirs) seen).imp_right Or.inr
    · cases goesOn
  | listFails => cases given
  | check =>
    obtain ⟨scan, found, goesOn⟩ := Option.bind_eq_some_iff.1 moved
    obtain ⟨-, sees⟩ := kept.scanned scan found
    split at goesOn
    · rename_i probed rest counterparts probing
      cases goesOn
      refine kept.rephase found _ ?_
      intro peer theirs marks
      have seen := sees peer theirs marks
      rw [probing] at seen
      rcases seen with waits | counted | ⟨rfl, failed, -⟩ | left
      · exact Or.inl waits
      · exact Or.inr (Or.inl counted)
      · cases active : (fleet.slot peer).unit.active with
        | true => exact Or.inr (Or.inr (Or.inl ⟨rfl, failed, nofun⟩))
        | false => exact Or.inl (waits_of_inactive marks.2 failed active)
      · exact Or.inr (Or.inr (Or.inr left))
    · cases goesOn
  | probed =>
    obtain ⟨scan, found, goesOn⟩ := Option.bind_eq_some_iff.1 moved
    obtain ⟨-, sees⟩ := kept.scanned scan found
    split at goesOn
    · rename_i probed active rest counterparts probing
      refine kept.proceed refuses.agree found ?_ goesOn
      intro peer theirs marks
      have seen := sees peer theirs marks
      rw [probing] at seen
      rcases seen with waits | counted | ⟨rfl, failed, answered⟩ | left
      · exact Or.inl waits
      · refine Or.inr (Or.inl ?_)
        split_ifs
        · simp
        · exact counted
      · cases active with
        | true => exact Or.inr (Or.inl (by simp))
        | false => exact absurd rfl answered
      · exact Or.inr (Or.inr left)
    · cases goesOn
  | clockRead clock =>
    obtain ⟨scan, found, goesOn⟩ := Option.bind_eq_some_iff.1 moved
    split at goesOn
    · rw [refuses.policy, clockAnswer_hazard given] at goesOn
      exact kept.release.refused settled rfl (answered_of_answer goesOn)
    · cases goesOn
  | clockFails => cases given
  | restart =>
    cases moved
    exact kept.changes settled (fun _ _ _ passed => passed) kept.known
      (fun _ => Or.inl rfl) nofun

theorem Kept.settle (kept : Kept setup fleet) : Kept setup fleet.settle := by
  have marked : ∀ name, Marked fleet.settle name → Marked fleet name := by
    intro name marks
    obtain ⟨passed, lives⟩ := Bool.and_eq_true_iff.1 marks.1
    exact ⟨passed, lives⟩
  refine ⟨kept.table, ?_, ?_, ?_⟩
  · intro name passed
    exact kept.known name (Bool.and_eq_true_iff.1 passed).1
  · intro name other side ours theirs marks counterpart
    exact kept.apart name other side ours theirs (marked name marks)
      (marked other counterpart)
  · intro scan found
    obtain ⟨sided, sees⟩ := kept.scanned scan found
    exact ⟨sided, fun peer theirs marks => sees peer theirs (marked peer marks)⟩

theorem settled_settle (fleet : Fleet) : fleet.settle.Settled :=
  fun _ passed => (Bool.and_eq_true_iff.1 passed).2

/-- No two slots of different sides have passed the guard and live on. -/
def Exclusive (setup : Setup) (fleet : Fleet) : Prop :=
  ∀ npu gpu, setup.sideOf npu = some .npu → setup.sideOf gpu = some .gpu →
    Marked fleet npu → ¬ Marked fleet gpu

/-- Listing and clock can be read. -/
def Assumed (_ : Fleet) (action : FleetAction) : Prop :=
  assumed action = true

/-- And no peer becomes visible behind a guard's back. -/
def Steady (setup : Setup) (fleet : Fleet) (action : FleetAction) : Prop :=
  assumed action = true ∧ calmly setup fleet action = true

instance (fleet : Fleet) (action : FleetAction) :
    Decidable (Assumed fleet action) :=
  inferInstanceAs (Decidable (_ = true))

instance (setup : Setup) (fleet : Fleet) (action : FleetAction) :
    Decidable (Steady setup fleet action) :=
  inferInstanceAs (Decidable (_ = true ∧ _ = true))

/--
The rules agree on the plain configs and on no others.  With plain configs and
the policy `refuse`, in every run in which no peer becomes visible between its
snapshot and the decision, the two sides exclude each other.
-/
theorem exclusive_of_steady (setup : Setup) :
    (∀ name, Agree (setup.config name) ↔ Plain (setup.config name)) ∧
    ((∀ name ∈ setup.names, Plain (setup.config name)) →
      setup.policy = .refuse →
      ∀ record unit actions fleet,
        Run (Fleet.step setup) (Steady setup) (.boot record unit) actions
          fleet →
        Exclusive setup fleet) := by
  refine ⟨fun name => agree_iff_plain _, ?_⟩
  intro plain policy record unit actions fleet run
  have refuses : Refuses setup :=
    ⟨policy, fun name known => (agree_iff_plain _).2 (plain name known)⟩
  have boots : Kept setup (.boot record unit) := by
    refine ⟨nofun, nofun, ?_, nofun⟩
    intro _ _ _ _ _ marks
    cases marks.1
  obtain ⟨kept, -⟩ := run.invariant
    (fun fleet => Kept setup fleet ∧ fleet.Settled) ⟨boots, nofun⟩ (by
      rintro fleet action next ⟨kept, settled⟩ ⟨given, steady⟩ stepped
      obtain ⟨moved, moves, rfl⟩ := Option.map_eq_some_iff.1 stepped
      exact ⟨(kept.move refuses settled given steady moves).settle,
        settled_settle moved⟩)
  intro npu gpu first second marks
  exact kept.apart npu gpu .npu first second marks

/-! ## A refusal, and two loads which both pass -/

/-- A slot of each side. -/
def twoSides : Setup where
  policy := .refuse
  names := ["chat", "flm"]
  config := fun name =>
    if name = "flm" then ⟨some "npu", none, none⟩
    else ⟨some "gpu-vulkan", none, none⟩

theorem twoSides_plain :
    ∀ name ∈ twoSides.names, Plain (twoSides.config name) := by
  intro name known
  simp only [twoSides, mem_cons, not_mem_nil, or_false] at known
  rcases known with rfl | rfl
  · exact Or.inr (Or.inr (Or.inr (by decide)))
  · exact Or.inl rfl

/-- Two slots, both offline. -/
def bothOffline : Fleet :=
  .boot (fun _ => some chatOffline) fun _ => ⟨false, false⟩

/-- A load up to its guard. -/
def loadToGuard (name : SlotName) : List FleetAction :=
  [.start 1 (.loadLock none), .resume 1 {}, .resume 1 {},
    .resume 1 { config := some chatConfig }, .resume 1 {}].map (.slot name)

/-- The chat slot passes, alone. -/
def chatPasses : List FleetAction :=
  loadToGuard "chat" ++
    [.lock "chat" 1, .poll "flm" 9, .slot "flm" (.resume 9 {}),
      .slot "flm" (.resume 9 {}), .listed]

/-- The other load finds it in the table. -/
def flmRefused : List FleetAction :=
  chatPasses ++ loadToGuard "flm" ++
    [.lock "flm" 1, .poll "chat" 9, .slot "chat" (.resume 9 {}),
      .slot "chat" (.resume 9 {}), .listed, .clockRead ⟨true, false⟩,
      .slot "flm" (.resume 1 {}), .slot "chat" (.resume 1 {})]

/-- The second fabric is refused. -/
theorem exclusive_flm_refused :
    ∃ fleet,
      Run (Fleet.step twoSides) (Steady twoSides) bothOffline flmRefused
          fleet ∧
        Marked fleet "chat" ∧ ¬ Marked fleet "flm" := by
  obtain ⟨fleet, run, chat⟩ := Run.exists_of_exec (Fleet.step twoSides)
    (Steady twoSides) bothOffline flmRefused
    (fun fleet => fleet.passed "chat" && live (fleet.slot "chat"))
    (by decide +kernel)
  have marks : Marked fleet "chat" := Bool.and_eq_true_iff.1 chat
  refine ⟨fleet, run, marks, fun other => ?_⟩
  exact (exclusive_of_steady twoSides).2 twoSides_plain rfl _ _ _ fleet run
    "flm" "chat" (by decide) (by decide) other marks

/-- The chat slot publishes `STARTING` behind the back of the other guard. -/
def bothPass : List FleetAction :=
  chatPasses ++ loadToGuard "flm" ++
    [.lock "flm" 1, .poll "chat" 9, .slot "chat" (.resume 1 {}),
      .slot "chat" (.resume 1 {}), .slot "chat" (.resume 9 {}),
      .slot "chat" (.resume 9 {}), .listed]

/--
The other guard reads the chat slot while it is pending; the chat slot then
publishes `STARTING` and leaves the table, and both have passed.  And a slot
which names its backend the old way is on no side when it loads, but on the
graphics side in its snapshot.
-/
theorem both_sides_pass :
    (∃ fleet,
      Run (Fleet.step twoSides) Assumed bothOffline bothPass fleet ∧
        ¬ Exclusive twoSides fleet) ∧
    ¬ Agree ⟨none, some "vulkan", none⟩ := by
  constructor
  · obtain ⟨fleet, run, passed⟩ := Run.exists_of_exec
      (Fleet.step twoSides) Assumed bothOffline bothPass
      (fun fleet => fleet.passed "chat" && live (fleet.slot "chat") &&
        (fleet.passed "flm" && live (fleet.slot "flm")))
      (by decide +kernel)
    obtain ⟨chat, flm⟩ := Bool.and_eq_true_iff.1 passed
    refine ⟨fleet, run, fun exclusive => ?_⟩
    exact exclusive "flm" "chat" (by decide) (by decide)
      (Bool.and_eq_true_iff.1 flm) (Bool.and_eq_true_iff.1 chat)
  · intro agree
    have guarded := (agree .gpu).1 (by decide)
    cases guarded

end Hal0.Slots.FabricClock
