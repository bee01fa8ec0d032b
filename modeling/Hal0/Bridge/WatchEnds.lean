import Hal0.Bridge.StoredOnce

/-!
# A live run is left unwatched only for a reason

The loop ends when the run is over or gone, when `stop_all` was called, or
when the transaction which records the end of the run fails.  Every other
failure brings it to another connection, within a few steps of its own, as
long as no flush fails outside the body of the `try`: there nothing catches
it, and the watch of a live run ends.
-/

namespace Hal0.Bridge

open Option
open Hal0.Transition

/-- A flush outside the body of the `try` comes through if there is text. -/
def FlushComesThrough (watch : Watch) : WatchAction → Prop
  | .write .fails _ =>
    match watch.point with
    | .flushing after =>
      after.inBody = true ∨ watch.tail.isFlushed = true
    | _ => True
  | _ => True

/-- The ledger has no live row of the run. -/
def Watch.isEnded (watch : Watch) : Prop :=
  ∀ row, watch.ledger.getRun watch.tail.runId = some row →
    row.isLive = false

/-- A watch which ended, ended for a reason. -/
def Watch.Accounted (watch : Watch) : Prop :=
  ∀ reason, watch.point = .closed reason →
    reason = .stopped ∨ reason = .unrecorded ∨ watch.isEnded

/-- Something goes wrong in a step of the loop. -/
def Watch.Fails (watch : Watch) : WatchAction → Prop
  | .refused _ | .unavailable | .broken => True
  | .write .fails _ =>
    match watch.point with
    | .flushing _ => watch.tail.isFlushed = false
    | _ => True
  | _ => False

/-- The step is one of the watcher. -/
def WatchAction.isOwn : WatchAction → Bool
  | .restart _ _ | .other _ _ | .prune _ => false
  | _ => true

/-- The same loop: there is no restart. -/
def SameLoop (watch : Watch) (action : WatchAction) : Prop :=
  FlushComesThrough watch action ∧
    match action with
    | .restart _ _ => False
    | _ => True

/-! ## The end of a watch -/

section Ends

variable {timing : WatcherTiming} {watch next : Watch} {fate : Fate}
  {now : Time} {action : WatchAction}

theorem Watch.Accounted.of_going (going : watch.point.isOver = false) :
    watch.Accounted := by
  intro reason isOver
  rw [isOver] at going
  cases going

/-- The end is stored. -/
theorem Watch.isEnded_of_finish {ending : Ending}
    (done : watch.finish ending fate now = .ok next) : next.isEnded := by
  unfold Watch.finish at done
  cases fate with
  | fails => cases done
  | commits =>
    simp only at done
    split at done
    · rename_i refused
      cases done
      intro row found
      exact (Ledger.record_eq_none refused row found).2
    · rename_i recorded written
      cases done
      have records := Ledger.record_eq_some written
      intro row found
      obtain rfl := some.inj (records.row.symm.trans found)
      simp [RunRow.isLive, Ending.changes, ending.terminal]

/-- Nothing is written once the run is over. -/
theorem Watch.isEnded_of_flush_gone
    (gone : watch.flush fate now = .error .gone) : watch.isEnded := by
  unfold Watch.flush at gone
  split at gone
  · cases gone
  · cases fate with
    | fails => cases gone
    | commits =>
      simp only at gone
      split at gone
      · rename_i refused
        intro row found
        exact (Ledger.record_eq_none refused row found).2
      · cases gone

theorem Watch.isEnded_of_recordFrame_gone {frame : Frame}
    (gone : watch.recordFrame frame fate now = .error .gone) :
    watch.isEnded := by
  unfold Watch.recordFrame at gone
  cases fate with
  | fails => cases gone
  | commits =>
    simp only at gone
    split at gone
    · rename_i refused
      intro row found
      exact (Ledger.record_eq_none refused row found).2
    · cases gone

variable {raised : Raised}

theorem Watch.finish_raises {ending : Ending}
    (failed : watch.finish ending fate now = .error raised) :
    raised = .ledger := by
  unfold Watch.finish at failed
  cases fate with
  | fails =>
    cases failed
    rfl
  | commits =>
    simp only at failed
    split at failed <;> cases failed

/-- A flush raises for one of two reasons. -/
theorem Watch.flush_raises (failed : watch.flush fate now = .error raised) :
    watch.isEnded ∨ fate = .fails ∧ watch.tail.isFlushed = false := by
  cases raised with
  | gone => exact .inl (isEnded_of_flush_gone failed)
  | ledger =>
    right
    unfold Watch.flush at failed
    split at failed
    · cases failed
    · rename_i unflushed
      cases fate with
      | fails => exact ⟨rfl, by simpa using unflushed⟩
      | commits =>
        simp only at failed
        split at failed <;> cases failed

theorem Watch.Accounted.caught (gone : raised = .gone → watch.isEnded) :
    (watch.caught raised).Accounted := by
  cases raised with
  | ledger => exact .of_going rfl
  | gone => exact fun reason _ => .inr (.inr (gone rfl))

/-- A write ends for a reason. -/
theorem Watch.Accounted.write
    (through : FlushComesThrough watch (.write fate now))
    (done : watch.write fate now = some next) : next.Accounted := by
  unfold Watch.write at done
  cases place : watch.point with
  | flushing after =>
    simp only [place, some.injEq] at done
    subst done
    cases flush : watch.flush fate now with
    | ok flushed =>
      cases after with
      | frame frame =>
        refine .of_going ?_
        show (writeOf frame).isOver = false
        unfold writeOf
        split <;> rfl
      | quiet =>
        refine .of_going ?_
        show (if flushed.progressed then Point.cycled
          else .asking).isOver = false
        split <;> rfl
      | refused status =>
        refine .of_going ?_
        show (if status = 404 then Point.finishing .forgotten false
          else .cycled).isOver = false
        split <;> rfl
      | stream => exact .of_going rfl
      | lost => exact .of_going rfl
      | giveUp ending => exact .of_going rfl
    | error raised =>
      simp only
      split
      · refine .caught ?_
        rintro rfl
        exact isEnded_of_flush_gone flush
      · rename_i outside
        intro reason _
        rcases flush_raises flush with ended | ⟨rfl, unflushed⟩
        · exact .inr (.inr ended)
        · simp only [FlushComesThrough, place] at through
          rcases through with inBody | flushed
          · exact absurd inBody outside
          · rw [unflushed] at flushed
            cases flushed
  | recording frame =>
    simp only [place, some.injEq] at done
    subst done
    cases result : watch.recordFrame frame fate now with
    | ok written => exact .of_going rfl
    | error raised =>
      refine .caught ?_
      rintro rfl
      exact isEnded_of_recordFrame_gone result
  | finishing ending inBody =>
    simp only [place, some.injEq] at done
    subst done
    cases result : watch.finish ending fate now with
    | ok finished =>
      have ended : finished.isEnded := isEnded_of_finish result
      exact fun reason _ => .inr (.inr ended)
    | error raised =>
      simp only
      split
      · refine .caught ?_
        rintro rfl
        cases finish_raises result
      · intro reason isOver
        simp only [goTo, Point.closed.injEq] at isOver
        exact .inr (.inl isOver.symm)
  | connecting => simp [place] at done
  | streaming => simp [place] at done
  | asking => simp [place] at done
  | cycled => simp [place] at done
  | pausing => simp [place] at done
  | closed reason => simp [place] at done

theorem Watch.isEnded.other (ended : watch.isEnded)
    (decide : RunRow → Changes) :
    Watch.isEnded { watch with
      ledger := (watch.ledger.updateLive watch.tail.runId decide now).1 } := by
  intro row found
  obtain ⟨old, wasThere, same | ⟨live, _⟩⟩ := Ledger.getRun_updateLive found
  · rw [same]
    exact ended old wasThere
  · rw [ended old wasThere] at live
    cases live

theorem Watch.isEnded.prune (ended : watch.isEnded) (olderThan : Time) :
    Watch.isEnded { watch with
      ledger := watch.ledger.pruneRuns olderThan } := by
  intro row found
  have kept : (watch.ledger.pruneRuns olderThan).getRun watch.tail.runId =
      (watch.ledger.getRun watch.tail.runId).filter fun row =>
        olderThan ≤ row.createdAt := Ledger.getRun_pruneRuns olderThan
  exact ended row (filter_eq_some_iff.mp (kept.symm.trans found)).1

theorem Watch.onEvent_going {frame : Frame}
    (going : watch.point.isOver = false) :
    (watch.onEvent timing frame now).point.isOver = false := by
  unfold Watch.onEvent
  simp only
  split
  · exact going
  · split
    · split
      · rfl
      · exact going
    · rfl

/-- So does every step. -/
theorem Watch.Accounted.step (accounted : watch.Accounted)
    (through : FlushComesThrough watch action)
    (moved : watch.step timing action = some next) : next.Accounted := by
  cases action with
  | write fate now => exact .write through moved
  | connect =>
    simp only [Watch.step] at moved
    split at moved <;> cases moved
    exact .of_going rfl
  | frame frame now =>
    simp only [Watch.step] at moved
    split at moved
    · rename_i streaming
      cases moved
      refine .of_going (onEvent_going ?_)
      rw [streaming]
      rfl
    · cases moved
  | restart known now =>
    simp only [Watch.step, Watch.restart] at moved
    cases found : watch.ledger.getRun watch.tail.runId with
    | none => simp [found] at moved
    | some row =>
      rw [found, bind_some] at moved
      split at moved
      · cases moved
        refine .of_going ?_
        cases known <;> rfl
      · cases moved
  | other writer now =>
    cases moved
    intro reason isOver
    rcases accounted reason isOver with stopped | unrecorded | ended
    · exact .inl stopped
    · exact .inr (.inl unrecorded)
    · exact .inr (.inr (ended.other _))
  | prune olderThan =>
    cases moved
    intro reason isOver
    rcases accounted reason isOver with stopped | unrecorded | ended
    · exact .inl stopped
    · exact .inr (.inl unrecorded)
    · exact .inr (.inr (ended.prune olderThan))
  | stopAll =>
    simp only [Watch.step] at moved
    split at moved <;> cases moved
    intro reason isOver
    simp only [goTo, Point.closed.injEq] at isOver
    exact .inl isOver.symm
  | snapshot answer =>
    simp only [Watch.step] at moved
    split at moved <;> cases moved
    refine .of_going ?_
    simp only [goTo]
    split <;> rfl
  | check now =>
    simp only [Watch.step] at moved
    split at moved <;> cases moved
    refine .of_going ?_
    simp only [goTo]
    split <;> rfl
  | _ =>
    simp only [Watch.step] at moved
    split at moved <;> cases moved
    exact .of_going rfl

end Ends

/-! ## The way to another connection -/

/-- How many steps of the loop are left to the next connection, at most. -/
def Point.stepsLeft : Point → Option Nat
  | .flushing (.refused _) | .flushing .lost => some 4
  | .cycled => some 3
  | .pausing | .flushing (.giveUp _) => some 2
  | .connecting | .finishing _ false => some 1
  | _ => none

/--
After a failure: the loop is over, or it has asked for the stream once more,
or it has taken `taken` of the at most four steps which lead there.
-/
def Watch.Retries (asked taken : Nat) (watch : Watch) : Prop :=
  watch.point.isOver = true ∨ asked < watch.connections ∨
    watch.connections = asked ∧
      ∃ left, watch.point.stepsLeft = some left ∧ left + taken ≤ 4

section Retries

variable {timing : WatcherTiming} {watch next : Watch} {fate : Fate}
  {now : Time} {action : WatchAction} {asked taken : Nat}

/-- Connections are only counted up. -/
theorem Watch.connections_le (moved : watch.step timing action = some next) :
    watch.connections ≤ next.connections := by
  cases action with
  | write fate now => exact (Keeps.write moved).connections.ge
  | connect =>
    simp only [Watch.step] at moved
    split at moved <;> cases moved
    exact Nat.le_succ _
  | frame frame now =>
    simp only [Watch.step] at moved
    split at moved
    · cases moved
      exact (Keeps.onEvent frame).connections.ge
    · cases moved
  | restart known now =>
    simp only [Watch.step, Watch.restart] at moved
    cases found : watch.ledger.getRun watch.tail.runId with
    | none => simp [found] at moved
    | some row =>
      rw [found, bind_some] at moved
      split at moved <;> cases moved
      exact le_rfl
  | other writer now =>
    cases moved
    exact le_rfl
  | prune olderThan =>
    cases moved
    exact le_rfl
  | stopAll =>
    simp only [Watch.step] at moved
    split at moved <;> cases moved
    exact le_rfl
  | _ =>
    simp only [Watch.step] at moved
    split at moved <;> cases moved
    exact le_rfl

/-- After a failure the watcher connects again. -/
theorem Watch.retries_of_fails (fails : watch.Fails action)
    (moved : watch.step timing action = some next) :
    next.Retries watch.connections 0 := by
  cases action with
  | refused status =>
    simp only [Watch.step] at moved
    split at moved <;> cases moved
    exact .inr (.inr ⟨rfl, 4, rfl, le_rfl⟩)
  | unavailable =>
    simp only [Watch.step] at moved
    split at moved <;> cases moved
    exact .inr (.inr ⟨rfl, 4, rfl, le_rfl⟩)
  | broken =>
    simp only [Watch.step] at moved
    split at moved <;> cases moved
    exact .inr (.inr ⟨rfl, 3, rfl, by omega⟩)
  | write fate now =>
    cases fate with
    | commits => cases fails
    | fails =>
      have kept := (Keeps.write moved).connections
      simp only [Watch.step, Watch.write] at moved
      cases place : watch.point with
      | flushing after =>
        simp only [Watch.Fails, place] at fails
        simp only [place, Watch.flush, fails, Bool.false_eq_true,
          if_false, some.injEq] at moved
        subst moved
        split
        · exact .inr (.inr ⟨rfl, 3, rfl, by omega⟩)
        · exact .inl rfl
      | recording frame =>
        simp only [place, Watch.recordFrame, some.injEq]
          at moved
        subst moved
        exact .inr (.inr ⟨rfl, 3, rfl, by omega⟩)
      | finishing ending inBody =>
        simp only [place, Watch.finish, some.injEq] at moved
        subst moved
        split
        · exact .inr (.inr ⟨rfl, 3, rfl, by omega⟩)
        · exact .inl rfl
      | connecting => simp [place] at moved
      | streaming => simp [place] at moved
      | asking => simp [place] at moved
      | cycled => simp [place] at moved
      | pausing => simp [place] at moved
      | closed reason => simp [place] at moved
  | _ => cases fails

theorem Watch.stepsLeft_of_flush {after : After} {left : Nat}
    (place : watch.point = .flushing after) (outside : after.inBody = false)
    (leads : ∀ flushed : Watch, ∃ fewer,
      (flushed.afterFlush now after).point.stepsLeft = some fewer ∧
        fewer < left)
    (done : watch.write fate now = some next) :
    next.point.isOver = true ∨
      ∃ fewer, next.point.stepsLeft = some fewer ∧ fewer < left := by
  unfold Watch.write at done
  simp only [place, some.injEq] at done
  subst done
  cases watch.flush fate now with
  | ok flushed => exact .inr (leads flushed)
  | error raised =>
    left
    simp [outside, goTo, Point.isOver]

/-- A write brings the end nearer. -/
theorem Watch.stepsLeft_of_write {left : Nat}
    (place : watch.point.stepsLeft = some left)
    (done : watch.write fate now = some next) :
    next.point.isOver = true ∨
      ∃ fewer, next.point.stepsLeft = some fewer ∧ fewer < left := by
  cases at_ : watch.point with
  | flushing after =>
    rw [at_] at place
    cases after with
    | refused status =>
      cases place
      refine stepsLeft_of_flush at_ rfl (fun flushed => ?_) done
      simp only [afterFlush, goTo]
      split
      · exact ⟨1, rfl, by omega⟩
      · exact ⟨3, rfl, by omega⟩
    | lost =>
      cases place
      exact stepsLeft_of_flush at_ rfl
        (fun flushed => ⟨3, rfl, by omega⟩) done
    | giveUp ending =>
      cases place
      exact stepsLeft_of_flush at_ rfl
        (fun flushed => ⟨1, rfl, by omega⟩) done
    | _ => cases place
  | finishing ending inBody =>
    rw [at_] at place
    cases inBody with
    | true => cases place
    | false =>
      left
      simp only [Watch.write, at_, some.injEq] at done
      subst done
      cases watch.finish ending fate now <;> rfl
  | recording frame =>
    rw [at_] at place
    cases place
  | _ => simp [Watch.write, at_] at done

/-- A step of its own brings the retry nearer. -/
theorem Watch.Retries.own (retries : watch.Retries asked taken)
    (own : action.isOwn = true)
    (moved : watch.step timing action = some next) :
    next.Retries asked (taken + 1) := by
  rcases retries with isOver | more | ⟨same, left, place, few⟩
  · cases at_ : watch.point with
    | closed reason =>
      cases action <;>
        simp [Watch.step, Watch.write, at_, WatchAction.isOwn] at moved own
    | _ =>
      rw [at_] at isOver
      cases isOver
  · exact .inr (.inl (more.trans_le (connections_le moved)))
  · cases action with
    | write fate now =>
      rcases stepsLeft_of_write place moved with isOver | ⟨fewer, at_, less⟩
      · exact .inl isOver
      · refine .inr (.inr ⟨?_, fewer, at_, by omega⟩)
        rw [(Keeps.write moved).connections, same]
    | connect =>
      simp only [Watch.step] at moved
      split at moved <;> cases moved
      exact .inr (.inl (by simp [same]))
    | check now =>
      simp only [Watch.step] at moved
      split at moved
      · rename_i at_
        rw [at_] at place
        cases place
        cases moved
        refine .inr (.inr ⟨same, 2, ?_, by omega⟩)
        simp only [goTo]
        split <;> rfl
      · cases moved
    | wake =>
      simp only [Watch.step] at moved
      split at moved
      · rename_i at_
        rw [at_] at place
        cases place
        cases moved
        exact .inr (.inr ⟨same, 1, rfl, by omega⟩)
      · cases moved
    | stopAll =>
      simp only [Watch.step] at moved
      split at moved <;> cases moved
      exact .inl rfl
    | restart known now => cases own
    | other writer now => cases own
    | prune olderThan => cases own
    | _ =>
      simp only [Watch.step] at moved
      split at moved
      · rename_i at_
        rw [at_] at place
        cases place
      · cases moved

theorem Watch.Retries.foreign (retries : watch.Retries asked taken)
    (allowed : SameLoop watch action) (foreign : action.isOwn = false)
    (moved : watch.step timing action = some next) :
    next.Retries asked taken := by
  cases action with
  | other writer now =>
    cases moved
    exact retries
  | prune olderThan =>
    cases moved
    exact retries
  | restart known now => exact allowed.2.elim
  | _ => cases foreign

end Retries

/-! ## Whole runs -/

/-- Until it is over a step is open. -/
theorem Watch.exists_step (timing : WatcherTiming) {watch : Watch}
    (going : watch.point.isOver = false) :
    ∃ action next, action.isOwn = true ∧ FlushComesThrough watch action ∧
      watch.step timing action = some next := by
  cases place : watch.point with
  | connecting =>
    exact ⟨.connect, _, rfl, trivial, by simp only [step, place]; rfl⟩
  | streaming =>
    exact ⟨.quietEnd, _, rfl, trivial, by simp only [step, place]; rfl⟩
  | flushing after =>
    exact ⟨.write .commits 0, _, rfl, trivial, by
      simp only [step, write, place]; rfl⟩
  | recording frame =>
    exact ⟨.write .commits 0, _, rfl, trivial, by
      simp only [step, write, place]; rfl⟩
  | asking =>
    exact ⟨.snapshot .unreachable, _, rfl, trivial, by
      simp only [step, place]; rfl⟩
  | finishing ending inBody =>
    exact ⟨.write .commits 0, _, rfl, trivial, by
      simp only [step, write, place]; rfl⟩
  | cycled =>
    exact ⟨.check 0, _, rfl, trivial, by simp only [step, place]; rfl⟩
  | pausing =>
    exact ⟨.wake, _, rfl, trivial, by simp only [step, place]; rfl⟩
  | closed reason =>
    rw [place] at going
    cases going

theorem Watch.Retries.run {timing : WatcherTiming} {watch target : Watch}
    {later : List WatchAction} {asked : Nat} (retries : watch.Retries asked 0)
    (run : Run (Watch.step timing) SameLoop watch later target) :
    target.Retries asked (later.countP WatchAction.isOwn) := by
  refine run.history (fun past state =>
    state.Retries asked (past.countP WatchAction.isOwn)) retries ?_
  intro past state action next holds allowed moved
  rw [List.countP_append]
  cases own : action.isOwn with
  | true => simpa [own] using holds.own own moved
  | false => simpa [own] using holds.foreign allowed own moved

/--
As long as no flush fails outside the body of the `try`, a watch ends only
with the run, by `stop_all`, or because the end of the run could not be
recorded; after every other failure the loop, which is never stuck, asks for
the stream again.
-/
theorem watch_ends_for_a_reason (timing : WatcherTiming) {ledger : Ledger}
    {row : RunRow} {now : Time} {actions : List WatchAction} {watch : Watch}
    (run : Run (Watch.step timing) FlushComesThrough
      (.start ledger row now) actions watch) :
    watch.Accounted ∧
      (watch.point.isOver = false → ∃ action next, action.isOwn = true ∧
        FlushComesThrough watch action ∧
        watch.step timing action = some next) ∧
      ∀ action next later target, watch.Fails action →
        FlushComesThrough watch action →
        watch.step timing action = some next →
        Run (Watch.step timing) SameLoop next later target →
        4 < later.countP WatchAction.isOwn →
          watch.connections < target.connections ∨
            ∃ reason, target.point = .closed reason ∧ target.Accounted := by
  have accounted : watch.Accounted := by
    refine run.invariant Watch.Accounted (.of_going rfl) ?_
    intro state action next holds through moved
    exact holds.step through moved
  refine ⟨accounted, Watch.exists_step timing, ?_⟩
  intro action next later target fails through moved rest enough
  have still : target.Accounted := by
    refine rest.invariant Watch.Accounted (accounted.step through moved) ?_
    intro state action next holds allowed moved
    exact holds.step allowed.1 moved
  rcases (Watch.retries_of_fails fails moved).run rest with
    isOver | more | ⟨_, left, _, few⟩
  · right
    cases place : target.point with
    | closed reason => exact ⟨reason, rfl, still⟩
    | _ =>
      rw [place] at isOver
      cases isOver
  · exact .inl more
  · omega

/--
A piece of output is buffered, Hermes is lost, and the flush in the handler
fails: the watch is over and the run is live.
-/
theorem failed_flush_ends_watch :
    ∃ actions watch row,
      Run (Watch.step {}) Anything
        (.start codexLedger (freshRun "r1" "codex") 0) actions watch ∧
      watch.point = .closed .unflushed ∧
      watch.ledger.getRun watch.tail.runId = some row ∧
      row.isLive = true ∧ ¬ watch.Accounted := by
  refine ⟨[.connect, .frame hel 1, .unavailable, .write .fails 2], _, _,
    .cons trivial rfl <| .cons trivial rfl <| .cons trivial rfl <|
      .cons trivial rfl <| .nil _, rfl, rfl, rfl, ?_⟩
  intro accounted
  rcases accounted .unflushed rfl with stopped | unrecorded | ended
  · cases stopped
  · cases unrecorded
  · have := ended (freshRun "r1" "codex") rfl
    cases this

/-- The same flush fails in the body, and the loop asks again. -/
theorem watch_goes_on_after_failed_write :
    ∃ actions watch,
      Run (Watch.step {}) FlushComesThrough
        (.start codexLedger (freshRun "r1" "codex") 0) actions watch ∧
      watch.Accounted ∧ watch.connections = 2 := by
  have run : ∃ watch, Run (Watch.step {}) FlushComesThrough
      (.start codexLedger (freshRun "r1" "codex") 0)
      [.connect, .frame hel 1, .frame tool 2, .write .fails 3, .check 4,
        .wake, .connect] watch ∧ watch.connections = 2 :=
    ⟨_, .cons trivial rfl <| .cons trivial rfl <| .cons trivial rfl <|
      .cons (.inl rfl) rfl <| .cons trivial rfl <| .cons trivial rfl <|
      .cons trivial rfl <| .nil _, rfl⟩
  obtain ⟨watch, reached, asked⟩ := run
  exact ⟨_, watch, reached, (watch_ends_for_a_reason {} reached).1, asked⟩

end Hal0.Bridge
