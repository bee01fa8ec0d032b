import Hal0.Toolloop.Engine

/-!
# The results of a round

A dispatch gives each call of the round a final result, under the id of the
call.  The loop folds the results by id, the last one of an id winning: so a
call is told the result of whichever call of its id was answered last, and a
call without an id is told that there is none.
-/

namespace Hal0.Toolloop

open Function List
open Hal0.Latest
open Hal0.Transition (Run)

/-! ## What a run should append -/

/-- The calls which a round dispatches. -/
def roundCalls (runtime : Runtime) (response : Json) : List ToolCall :=
  match errorOf runtime response with
  | some _ => []
  | none => ((readResponse runtime response).map Reading.calls).getD []

/-- Each call has a final result of its own, under its id. -/
structure Answers (calls : List ToolCall) (replies : List Reply) : Prop where
  isResult : ∀ reply ∈ replies,
    reply.event.type = "tool_result" ↔ reply.call.isSome = true
  own : ∀ reply ∈ replies, ∀ index, reply.call = some index →
    ∃ call, calls[index]? = some call ∧ reply.event.id = call.id
  each : ∀ index, index < calls.length →
    ∃ reply ∈ replies, reply.call = some index

/-- `dispatch_fn` yields one final result for each call of the round. -/
def Dispatches (runtime : Runtime) (_ : Loop) (round : Round) : Prop :=
  Answers (roundCalls runtime round.response) round.replies

/-- The last result which was given for a call. -/
def finalResult (replies : List Reply) (index : Nat) : Json :=
  ((replies.reverse.find? fun reply => reply.call = some index).map
    fun reply => reply.event.result).getD .null

/-- The reply, and a tool message with its own result for each call. -/
def ownBlock (runtime : Runtime) (round : Round) : List Json :=
  let calls := roundCalls runtime round.response
  if calls.isEmpty then []
  else (assistantMessage round.response).toList ++
    calls.mapIdx fun index call =>
      buildToolMessage runtime call.id call.name
        (finalResult round.replies index)

/-- The message of one round, and its answers. -/
structure Turn where
  assistant : Fields
  answers : List Json

def Turn.messages (turn : Turn) : List Json :=
  .obj turn.assistant :: turn.answers

/-- Each call of the reply is answered once, in order. -/
def Turn.Paired (runtime : Runtime) (turn : Turn) : Prop :=
  ∃ reading, readMessage runtime turn.assistant = some reading ∧
    List.Forall₂ (fun call message => ∃ result,
      message = buildToolMessage runtime call.id call.name result)
      reading.calls turn.answers

/-- What the history has gained are replies with their tool messages. -/
def Paired (runtime : Runtime) (initial messages : List Json) : Prop :=
  ∃ turns : List Turn, messages = initial ++ turns.flatMap Turn.messages ∧
    ∀ turn ∈ turns, turn.Paired runtime

/--
Every id can be a key, calls with one id have one result, and a call without
an id has the one which says that there is none.
-/
structure Apart (runtime : Runtime) (round : Round) : Prop where
  hashable : ∀ call ∈ roundCalls runtime round.response,
    call.id.key?.isSome = true
  repeated : ∀ {first second : Nat} {call other : ToolCall} {key : Key},
    (roundCalls runtime round.response)[first]? = some call →
    (roundCalls runtime round.response)[second]? = some other →
    call.id.key? = some key → other.id.key? = some key → key ≠ .null →
    runtime.dumps (finalResult round.replies first) =
      runtime.dumps (finalResult round.replies second)
  missing : ∀ {index : Nat} {call : ToolCall},
    (roundCalls runtime round.response)[index]? = some call →
    call.id.key? = some .null →
    runtime.dumps (finalResult round.replies index) = runtime.dumps noResult

/-! ## The dictionary of results -/

/-- The event is the result of the call. -/
def Has (key : Key) (event : Event) : Prop :=
  event.type = "tool_result" ∧ event.id.key? = some key

/-- An event is folded under its key, `null` apart, and under no other. -/
theorem foldEvent_spec {event : Event}
    (hashable : event.type = "tool_result" → event.id.key?.isSome = true)
    (results : Results) :
    ∃ next, foldEvent results event = some next ∧
      next .null = results .null ∧
      ∀ key, key ≠ .null →
        (Has key event → next key = some event.result) ∧
        (¬ Has key event → next key = results key) := by
  by_cases isResult : event.type = "tool_result"
  · obtain ⟨own, isOwn⟩ := Option.isSome_iff_exists.mp (hashable isResult)
    have folded : foldEvent results event = some
        (if own = .null then results
          else update results own (some event.result)) := by
      rw [foldEvent, if_neg (not_not_intro isResult)]
      cases isId : event.id with
      | null | bool | number | str =>
        rw [isId] at isOwn
        cases isOwn
        rfl
      | arr | obj =>
        rw [isId] at isOwn
        cases isOwn
    refine ⟨_, folded, ?_, ?_⟩
    · split
      · rfl
      · next notNull => exact update_of_ne (Ne.symm notNull) _ _
    · intro key notNull
      constructor
      · rintro ⟨-, isKey⟩
        rw [isOwn] at isKey
        cases isKey
        rw [if_neg notNull, update_self]
      · intro hasNot
        have differs : key ≠ own := fun same =>
          hasNot ⟨isResult, by rw [same]; exact isOwn⟩
        split
        · rfl
        · exact update_of_ne differs _ _
  · refine ⟨results, by rw [foldEvent, if_pos isResult], rfl, ?_⟩
    intro key _
    exact ⟨fun has => absurd has.1 isResult, fun _ => rfl⟩

theorem foldEvent_of_not_hashable {event : Event}
    (isResult : event.type = "tool_result") (noKey : event.id.key? = none)
    (results : Results) : foldEvent results event = none := by
  rw [foldEvent, if_neg (not_not_intro isResult)]
  cases isId : event.id with
  | null | bool | number | str =>
    rw [isId] at noKey
    cases noKey
  | arr | obj => rfl

theorem collect_of_not_hashable {events : List Event} {event : Event}
    (listed : event ∈ events) (isResult : event.type = "tool_result")
    (noKey : event.id.key? = none) (results : Results) :
    (collect events results).2 = none := by
  induction events generalizing results with
  | nil => cases listed
  | cons first rest later =>
    rw [collect]
    cases folded : foldEvent results first with
    | none => rfl
    | some results =>
      rcases mem_cons.mp listed with rfl | isLater
      · rw [foldEvent_of_not_hashable isResult noKey] at folded
        cases folded
      · exact later isLater results

/-- The dictionary has the last result of each key, `null` apart. -/
theorem collect_spec {events : List Event}
    (hashable : ∀ event ∈ events, event.type = "tool_result" →
      event.id.key?.isSome = true) (results : Results) :
    ∃ final, (collect events results).2 = some final ∧
      final .null = results .null ∧
      ∀ key, key ≠ .null →
        ((∀ event ∈ events, ¬ Has key event) → final key = results key) ∧
        ∀ event, IsLatest (Has key) events event →
          final key = some event.result := by
  induction events generalizing results with
  | nil =>
    refine ⟨results, rfl, rfl, fun key _ => ⟨fun _ => rfl, ?_⟩⟩
    intro event latest
    cases latest.mem
  | cons first rest later =>
    obtain ⟨next, folded, nullKept, each⟩ :=
      foldEvent_spec (hashable first mem_cons_self) results
    obtain ⟨final, isFinal, nullFinal, eachFinal⟩ :=
      later (fun event listed =>
        hashable event (mem_cons_of_mem first listed)) next
    refine ⟨final, ?_, nullFinal.trans nullKept, ?_⟩
    · rw [collect, folded]
      exact isFinal
    · intro key notNull
      obtain ⟨absent, last⟩ := eachFinal key notNull
      constructor
      · intro none
        rw [absent fun event listed =>
          none event (mem_cons_of_mem first listed)]
        exact (each key notNull).2 (none first mem_cons_self)
      · intro event latest
        rcases isLatest_cons.mp latest with inRest | ⟨rfl, has, none⟩
        · exact last event inRest
        · rw [absent none]
          exact (each key notNull).1 has

/-! ## The result of a call -/

theorem finalResult_eq {replies : List Reply} {index : Nat} {reply : Reply}
    (latest : IsLatest (fun reply => reply.call = some index) replies reply) :
    finalResult replies index = reply.event.result := by
  obtain ⟨earlier, later, rfl, isCall, none⟩ := latest
  have absent : (later.reverse.find? fun reply => reply.call = some index) =
      Option.none := by
    rw [find?_eq_none]
    intro other listed
    simpa using none other (mem_reverse.mp listed)
  rw [finalResult, reverse_append, reverse_cons, append_assoc,
    find?_append, absent]
  simp [isCall]

theorem exists_told {calls : List ToolCall} {replies : List Reply}
    (answers : Answers calls replies) {final : Results}
    (last : ∀ key, key ≠ .null → ∀ event,
      IsLatest (Has key) (replies.map Reply.event) event →
        final key = some event.result)
    {index : Nat} {call : ToolCall} (isCall : calls[index]? = some call)
    {key : Key} (isKey : call.id.key? = some key) (notNull : key ≠ .null) :
    ∃ (told : Nat) (other : ToolCall), calls[told]? = some other ∧
      other.id.key? = some key ∧
      final key = some (finalResult replies told) := by
  obtain ⟨inRange, -⟩ := List.getElem?_eq_some_iff.mp isCall
  have hasKey : ∀ reply ∈ replies, ∀ position other, reply.call = some position →
      calls[position]? = some other → other.id.key? = some key →
      Has key reply.event := by
    intro reply listed position other isFor isOther otherKey
    obtain ⟨found, isFound, sameId⟩ := answers.own reply listed position isFor
    rw [isOther] at isFound
    cases isFound
    refine ⟨(answers.isResult reply listed).mpr (by rw [isFor]; rfl), ?_⟩
    rw [sameId, otherKey]
  rcases exists_isLatest (fun reply : Reply => Has key reply.event) replies
    with none | ⟨reply, latest⟩
  · obtain ⟨reply, listed, isFor⟩ := answers.each index inRange
    exact absurd (hasKey reply listed index call isFor isCall isKey)
      (none reply listed)
  · obtain ⟨isResult, replyKey⟩ := latest.holds
    obtain ⟨told, isFor⟩ := Option.isSome_iff_exists.mp
      ((answers.isResult reply latest.mem).mp isResult)
    obtain ⟨other, isOther, sameId⟩ :=
      answers.own reply latest.mem told isFor
    have otherKey : other.id.key? = some key := by rw [← sameId, replyKey]
    have own : IsLatest (fun reply => reply.call = some told) replies reply := by
      obtain ⟨earlier, later, whole, -, none⟩ := latest
      refine ⟨earlier, later, whole, isFor, ?_⟩
      intro another isLater isForToo
      have listed : another ∈ replies := by
        rw [whole]
        exact mem_append_right earlier (mem_cons_of_mem reply isLater)
      exact none another isLater
        (hasKey another listed told other isForToo isOther otherKey)
    refine ⟨told, other, isOther, otherKey, ?_⟩
    rw [finalResult_eq own]
    exact last key notNull reply.event latest.map

end Hal0.Toolloop
