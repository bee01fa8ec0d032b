import Hal0.Toolloop.OwnResults

/-!
# The budget of rounds

However a run of the loop ends, `done` is its last event and no event before
is one, and what the last completion said has been shown.  A reply which is
cut is asked for once more; where that was the last round of the budget the
fragment is gone.
-/

namespace Hal0.Toolloop

open List
open Hal0.Transition (Run)

/-! ## What a run should have shown -/

/-- The text of a completion without a call. -/
def visibleAnswer (runtime : Runtime) (response : Json) : Option String :=
  (readResponse runtime response).bind fun reading =>
    if reading.calls.isEmpty && reading.text ≠ "" then some reading.text
    else none

/-- The answer, with a note where it is cut. -/
def answerToken (response : Json) (text : String) : Emitted :=
  .token (if truncated response then text ++ cutNote else text)

/-- A `done` of the loop, or one which the dispatcher made. -/
def Emitted.isDone : Emitted → Bool
  | .done => true
  | .dispatched event => event.type = "done"
  | _ => false

/-- The events before a last `done`, which is the only one. -/
structure Ending (runtime : Runtime) (rounds : List Round)
    (emitted front : List Emitted) : Prop where
  last : emitted = front ++ [.done]
  once : ∀ event ∈ front, event.isDone = false
  answered : ∀ round text, rounds.getLast? = some round →
    visibleAnswer runtime round.response = some text →
      answerToken round.response text ∈ front

/-- A run stays in its budget, and ends with what was to be shown. -/
structure Answered (runtime : Runtime) (maxRounds : Nat)
    (rounds : List Round) (loop : Loop) : Prop where
  bounded : rounds.length ≤ maxRounds
  stops : (∀ round, loop.step runtime maxRounds round = none) →
    loop.ended = true
  ending : loop.ended = true →
    ∃ front, Ending runtime rounds loop.emitted front

/-! ## When it does -/

/-- The ids can be keys, and `done` is left to the loop. -/
structure Collected (replies : List Reply) : Prop where
  hashable : ∀ reply ∈ replies, reply.event.type = "tool_result" →
    reply.event.id.key?.isSome
  forwarded : ∀ reply ∈ replies, reply.event.engineOnly = false →
    reply.event.type ≠ "done"

/--
A completion can be read, one with an error says nothing, its calls can be
answered, and one which is cut for the first time says nothing in the last
round.
-/
structure Told (runtime : Runtime) (maxRounds : Nat) (loop : Loop)
    (round : Round) : Prop where
  readable : errorOf runtime round.response = none →
    (readResponse runtime round.response).isSome
  mute : errorOf runtime round.response ≠ none →
    visibleAnswer runtime round.response = none
  hashable : ∀ call ∈ roundCalls runtime round.response, call.id.key?.isSome
  dispatched : roundCalls runtime round.response ≠ [] →
    Collected round.replies
  cut : truncated round.response = true → loop.retried = false →
    loop.rounds + 1 = maxRounds →
      visibleAnswer runtime round.response = none

/-! ## One round -/

section
variable {runtime : Runtime} {maxRounds : Nat} {past : List Round}
  {loop : Loop} {round : Round}

/-- A loop which goes on: each round was one of the budget, and none is done. -/
structure Going (maxRounds : Nat) (past : List Round) (loop : Loop) :
    Prop where
  ended : loop.ended = false
  raised : loop.raised = false
  counted : loop.rounds = past.length
  bounded : loop.rounds < maxRounds
  undone : ∀ event ∈ loop.emitted, event.isDone = false

/-- A loop which has ended as it should. -/
structure Over (runtime : Runtime) (maxRounds : Nat) (past : List Round)
    (loop : Loop) : Prop where
  ended : loop.ended = true
  bounded : past.length ≤ maxRounds
  ending : ∃ front, Ending runtime past loop.emitted front

theorem Going.emit (going : Going maxRounds past loop)
    {events : List Emitted} (undone : ∀ event ∈ events, event.isDone = false) :
    Going maxRounds past (loop.emit events) where
  ended := going.ended
  raised := going.raised
  counted := going.counted
  bounded := going.bounded
  undone := by
    intro event isIn
    rcases mem_append.mp isIn with isOld | isNew
    · exact going.undone event isOld
    · exact undone event isNew

/-- A last event is `done`, after what was to be shown. -/
theorem Going.finish (going : Going maxRounds past loop)
    (answered : ∀ text, visibleAnswer runtime round.response = some text →
      answerToken round.response text ∈ loop.emitted) :
    Over runtime maxRounds (past ++ [round]) loop.finish where
  ended := rfl
  bounded := by
    rw [length_append, ← going.counted]
    exact going.bounded
  ending := by
    refine ⟨loop.emitted, rfl, going.undone, ?_⟩
    intro last text isLast isAnswer
    rw [getLast?_concat, Option.some.injEq] at isLast
    subst isLast
    exact answered text isAnswer

theorem Going.next (going : Going maxRounds past loop)
    (mute : loop.rounds + 1 = maxRounds →
      visibleAnswer runtime round.response = none) :
    Over runtime maxRounds (past ++ [round]) (loop.next maxRounds) ∨
      Going maxRounds (past ++ [round]) (loop.next maxRounds) := by
  rw [Loop.next]
  split
  · next isLast =>
      have told : Going maxRounds past
          (loop.emit [.error "tool loop budget exhausted"]) :=
        going.emit (by simp [Emitted.isDone])
      refine Or.inl (told.finish ?_)
      intro text isAnswer
      rw [mute isLast] at isAnswer
      cases isAnswer
  · next notLast =>
      have bounded := going.bounded
      refine Or.inr ⟨going.ended, going.raised, ?_, ?_, going.undone⟩
      · rw [length_append, ← going.counted]
        rfl
      · change loop.rounds + 1 < maxRounds
        omega

theorem undone_shown (reading : Reading) (cut : Bool) :
    ∀ event ∈ shown reading cut, event.isDone = false := by
  have undone : ∀ (text : String) (made : String → Emitted),
      (∀ text, (made text).isDone = false) →
        ∀ event ∈ if text = "" then [] else [made text],
          event.isDone = false := by
    intro text made notDone event isIn
    split at isIn
    · cases isIn
    · rw [mem_singleton.mp isIn]
      exact notDone text
  intro event isIn
  rw [shown] at isIn
  rcases mem_append.mp isIn with isThought | isToken
  · exact undone _ .thinking (fun _ => rfl) event isThought
  · exact undone _ .token (fun _ => rfl) event isToken

theorem token_shown {reading : Reading} {response : Json}
    (notEmpty : reading.text ≠ "") :
    answerToken response reading.text ∈
      shown reading (truncated response) := by
  rw [answerToken, shown]
  apply mem_append_right
  have isShown : ∀ text : String, text ≠ "" →
      Emitted.token text ∈ if text = "" then [] else [.token text] := by
    intro text notBlank
    rw [if_neg notBlank]
    exact mem_singleton.mpr rfl
  apply isShown
  split
  · intro isEmpty
    exact notEmpty (String.append_eq_empty_iff.mp isEmpty).1
  · exact notEmpty

theorem mem_collect {events : List Event} {results : Results} {event : Event}
    (isIn : event ∈ (collect events results).1) :
    event ∈ events ∧ event.engineOnly = false := by
  induction events generalizing results with
  | nil => cases isIn
  | cons first rest ih =>
    rw [collect] at isIn
    split at isIn
    · cases isIn
    · dsimp only at isIn
      split at isIn
      · obtain ⟨isLater, isForwarded⟩ := ih isIn
        exact ⟨mem_cons_of_mem _ isLater, isForwarded⟩
      · next notOnly =>
          rcases mem_cons.mp isIn with rfl | isLater
          · exact ⟨mem_cons_self, Bool.eq_false_iff.mpr notOnly⟩
          · obtain ⟨isLater, isForwarded⟩ := ih isLater
            exact ⟨mem_cons_of_mem _ isLater, isForwarded⟩

theorem Going.dispatch (going : Going maxRounds past loop)
    {calls : List ToolCall}
    (hashable : ∀ call ∈ calls, call.id.key?.isSome)
    (collected : Collected round.replies)
    (mute : visibleAnswer runtime round.response = none) :
    Over runtime maxRounds (past ++ [round])
        (loop.dispatch runtime maxRounds round calls) ∨
      Going maxRounds (past ++ [round])
        (loop.dispatch runtime maxRounds round calls) := by
  have eventsHashable : ∀ event ∈ round.replies.map Reply.event,
      event.type = "tool_result" → event.id.key?.isSome = true := by
    intro event isIn isResult
    obtain ⟨reply, isReply, rfl⟩ := mem_map.mp isIn
    exact collected.hashable reply isReply isResult
  obtain ⟨results, isResults, -⟩ :=
    collect_spec eventsHashable fun _ => none
  have told : Going maxRounds past (loop.emit
      ((collect (round.replies.map Reply.event) fun _ => none).1.map
        .dispatched)) := by
    apply going.emit
    intro event isIn
    obtain ⟨inner, isInner, rfl⟩ := mem_map.mp isIn
    obtain ⟨isEvent, isForwarded⟩ := mem_collect isInner
    obtain ⟨reply, isReply, rfl⟩ := mem_map.mp isEvent
    exact decide_eq_false (collected.forwarded reply isReply isForwarded)
  rw [Loop.dispatch]
  dsimp only
  rw [isResults]
  dsimp only
  rw [toolMessages_of_hashable results hashable, if_pos rfl]
  exact Going.next
    ⟨told.ended, told.raised, told.counted, told.bounded, told.undone⟩
    fun _ => mute

theorem Going.play (going : Going maxRounds past loop)
    (told : Told runtime maxRounds loop round) :
    Over runtime maxRounds (past ++ [round])
        (loop.play runtime maxRounds round) ∨
      Going maxRounds (past ++ [round])
        (loop.play runtime maxRounds round) := by
  have received : Going maxRounds past
      (loop.emit [.response round.response]) :=
    going.emit (by simp [Emitted.isDone])
  rw [Loop.play]
  cases isError : errorOf runtime round.response with
  | some message =>
    have failed : Going maxRounds past
        ((loop.emit [.response round.response]).emit [.error message]) :=
      received.emit (by simp [Emitted.isDone])
    refine Or.inl (failed.finish ?_)
    intro text isAnswer
    rw [told.mute (by simp [isError])] at isAnswer
    cases isAnswer
  | none =>
    obtain ⟨reading, isRead⟩ :=
      Option.isSome_iff_exists.mp (told.readable isError)
    have calls : roundCalls runtime round.response = reading.calls := by
      rw [roundCalls, isError, isRead]
      rfl
    have answer : visibleAnswer runtime round.response =
        if reading.calls.isEmpty && reading.text ≠ "" then
          some reading.text else none := by
      rw [visibleAnswer, isRead]
      rfl
    rw [isRead]
    dsimp only
    split
    · next retry =>
        rw [Bool.and_eq_true, Bool.and_eq_true, Bool.not_eq_true']
          at retry
        obtain ⟨⟨_, isCut⟩, notRetried⟩ := retry
        exact Going.next ⟨received.ended, received.raised,
          received.counted, received.bounded, received.undone⟩
            fun isLast => told.cut isCut notRetried isLast
    · next notRetry =>
        have said := received.emit (undone_shown reading
          (reading.calls.isEmpty && truncated round.response))
        cases isEmpty : reading.calls.isEmpty with
        | true =>
          rw [isEmpty] at said answer
          rw [if_pos rfl]
          refine Or.inl (said.finish ?_)
          intro text isAnswer
          rw [answer] at isAnswer
          split at isAnswer
          · next shows =>
              cases isAnswer
              have notEmpty : reading.text ≠ "" := by
                simpa using shows
              exact mem_append_right _ (token_shown notEmpty)
          · cases isAnswer
        | false =>
          rw [isEmpty] at said answer
          rw [if_neg (by decide)]
          have someCalls : roundCalls runtime round.response ≠ [] := by
            rw [calls]
            intro isNil
            rw [isNil] at isEmpty
            cases isEmpty
          have hashable := told.hashable
          rw [calls] at hashable
          exact said.dispatch hashable (told.dispatched someCalls) answer

end

/-! ## Every run -/

theorem start_going {maxRounds : Nat} (positive : 0 < maxRounds)
    (messages : List Json) (maxTokens : Int) :
    Going maxRounds [] (Loop.start maxRounds messages maxTokens) := by
  rw [Loop.start, if_neg (Nat.ne_of_gt positive)]
  exact ⟨rfl, rfl, rfl, positive, nofun⟩

/--
A run whose completions can be read and answered stays in its budget, ends
with the only `done`, and has shown what the last completion said, unless that
was cut in the last round for the first time.
-/
theorem answered_of_run {runtime : Runtime} {maxRounds : Nat}
    (positive : 0 < maxRounds) {messages : List Json} {maxTokens : Int}
    {rounds : List Round} {loop : Loop}
    (run : Run (Loop.step runtime maxRounds) (Told runtime maxRounds)
      (Loop.start maxRounds messages maxTokens) rounds loop) :
    Answered runtime maxRounds rounds loop := by
  have reached : Over runtime maxRounds rounds loop ∨
      Going maxRounds rounds loop := by
    apply run.history fun rounds loop =>
      Over runtime maxRounds rounds loop ∨ Going maxRounds rounds loop
    · exact Or.inr (start_going positive messages maxTokens)
    · intro past loop round next before told moved
      rw [Loop.step] at moved
      split at moved
      · cases moved
      · next enabled =>
          cases moved
          rcases before with isOver | going
          · rw [isOver.ended] at enabled
            exact absurd rfl enabled
          · exact going.play told
  rcases reached with isOver | going
  · exact ⟨isOver.bounded, fun _ => isOver.ended, fun _ => isOver.ending⟩
  · refine ⟨?_, ?_, ?_⟩
    · rw [← going.counted]
      exact Nat.le_of_lt going.bounded
    · intro stuck
      have moves := stuck ⟨.null, []⟩
      rw [Loop.step, going.ended, going.raised, if_neg] at moves
      · cases moves
      · simpa using going.bounded
    · intro isEnded
      rw [going.ended] at isEnded
      cases isEnded

/-- A completion which the budget of tokens has cut. -/
def cutRound : Round where
  response := .obj [("choices", .arr [.obj [("finish_reason", .str "length"),
    ("message", .obj [("content", .str "Let me check")])]])]
  replies := []

theorem visibleAnswer_cutRound :
    visibleAnswer plainRuntime cutRound.response = some "Let me check" := by
  decide

/-- In the second round of two it is shown. -/
theorem answered_cut_twice :
    ∃ loop, Run (Loop.step plainRuntime 2) (Told plainRuntime 2)
        (Loop.start 2 [] 4096) [cutRound, cutRound] loop ∧
      loop.ended = true ∧
        Answered plainRuntime 2 [cutRound, cutRound] loop := by
  have told : ∀ loop : Loop, loop.rounds = 0 ∨ loop.retried = true →
      Told plainRuntime 2 loop cutRound := by
    intro loop earlier
    refine ⟨fun _ => rfl, fun isError => absurd rfl isError, ?_, ?_, ?_⟩
    · intro call isCall
      cases isCall
    · intro someCalls
      exact absurd rfl someCalls
    · intro _ notRetried isLast
      rcases earlier with isFirst | isRetried
      · rw [isFirst] at isLast
        cases isLast
      · rw [isRetried] at notRetried
        cases notRetried
  have first : Run (Loop.step plainRuntime 2) (Told plainRuntime 2)
      (Loop.start 2 [] 4096) [cutRound] _ :=
    .snoc (.nil _) (told _ (Or.inl rfl)) rfl
  have run : Run (Loop.step plainRuntime 2) (Told plainRuntime 2)
      (Loop.start 2 [] 4096) [cutRound, cutRound] _ :=
    .snoc first (told _ (Or.inr rfl)) rfl
  exact ⟨_, run, rfl, answered_of_run (by decide) run⟩

/--
Cut in the only round the text is gone; a completion of another shape raises,
and the loop does not end.
-/
theorem answered_fails :
    (∃ loop, Run (Loop.step plainRuntime 1) Hal0.Transition.Anything
        (Loop.start 1 [] 4096) [cutRound] loop ∧
      ¬ Answered plainRuntime 1 [cutRound] loop) ∧
    ∃ round loop, Run (Loop.step plainRuntime 1) Hal0.Transition.Anything
        (Loop.start 1 [] 4096) [round] loop ∧
      ¬ Answered plainRuntime 1 [round] loop := by
  constructor
  · have run : Run (Loop.step plainRuntime 1) Hal0.Transition.Anything
        (Loop.start 1 [] 4096) [cutRound] _ :=
      .snoc (.nil _) trivial rfl
    refine ⟨_, run, ?_⟩
    intro answered
    obtain ⟨front, ending⟩ := answered.ending rfl
    have isShown := ending.answered cutRound _ rfl visibleAnswer_cutRound
    have isIn : answerToken cutRound.response "Let me check" ∈
        front ++ [.done] := mem_append_left _ isShown
    have emitted : (Loop.play plainRuntime 1 (Loop.start 1 [] 4096)
        cutRound).emitted = [.response cutRound.response,
          .error "tool loop budget exhausted", .done] := rfl
    rw [← ending.last, emitted] at isIn
    simp [answerToken] at isIn
  · have run : Run (Loop.step plainRuntime 1) Hal0.Transition.Anything
        (Loop.start 1 [] 4096)
        [⟨.obj [("choices", .arr [.str "x"])], []⟩] _ :=
      .snoc (.nil _) trivial rfl
    refine ⟨_, _, run, ?_⟩
    intro answered
    have ended := answered.stops fun _ => rfl
    cases ended

end Hal0.Toolloop
