import Hal0.Toolloop.Results

/-!
# Every call with its own result

A run tells every call its own result exactly when, in each of its rounds,
calls of one id have one result and a call without an id has none to tell.
The calls found in a text are always apart, by their positions.  The history
has the tool messages of a round behind its reply in any case.
-/

namespace Hal0.Toolloop

open List Option
open Hal0.Latest
open Hal0.Transition (Run)

/-! ## What a round appends -/

/-- The reply, and the tool messages made of the results by id. -/
def block (runtime : Runtime) (round : Round) : List Json :=
  let calls := roundCalls runtime round.response
  if calls.isEmpty then []
  else (assistantMessage round.response).toList ++
    match (collect (round.replies.map Reply.event) fun _ => none).2 with
    | none => []
    | some results => (toolMessages runtime results calls).1

@[simp]
theorem emit_messages (loop : Loop) (events : List Emitted) :
    (loop.emit events).messages = loop.messages := rfl

@[simp]
theorem finish_messages (loop : Loop) :
    loop.finish.messages = loop.messages := rfl

@[simp]
theorem raise_messages (loop : Loop) :
    loop.raise.messages = loop.messages := rfl

@[simp]
theorem next_messages (maxRounds : Nat) (loop : Loop) :
    (loop.next maxRounds).messages = loop.messages := by
  rw [Loop.next]
  split
  · rfl
  · rfl

theorem dispatch_messages (runtime : Runtime) (maxRounds : Nat) (loop : Loop)
    (round : Round) (calls : List ToolCall) :
    (loop.dispatch runtime maxRounds round calls).messages =
      loop.messages ++ ((assistantMessage round.response).toList ++
        match (collect (round.replies.map Reply.event) fun _ => none).2 with
        | none => []
        | some results => (toolMessages runtime results calls).1) := by
  rw [Loop.dispatch]
  cases (collect (round.replies.map Reply.event) fun _ => none).2 with
  | none => simp
  | some results =>
    dsimp only
    split
    · simp
    · simp

theorem play_messages (runtime : Runtime) (maxRounds : Nat) (loop : Loop)
    (round : Round) :
    (loop.play runtime maxRounds round).messages =
      loop.messages ++ block runtime round := by
  rw [Loop.play, block, roundCalls]
  cases errorOf runtime round.response with
  | some message => simp
  | none =>
    cases readResponse runtime round.response with
    | none => simp
    | some reading =>
      dsimp only [map_some, getD_some]
      split
      · next retry =>
          rw [Bool.and_eq_true, Bool.and_eq_true] at retry
          simp [retry.1.1]
      · by_cases isEmpty : reading.calls.isEmpty = true
        · simp [isEmpty]
        · simp [isEmpty, dispatch_messages]

/-! ## Replies and their calls -/

variable {runtime : Runtime}

theorem calls_of_readMessage_nil {reading : Reading}
    (read : readMessage runtime [] = some reading) : reading.calls = [] := by
  have native : nativeCalls runtime [] = some [] := rfl
  have found : parseTextToolCalls runtime "" = some ([], "") := by
    simp [parseTextToolCalls]
  have text : (splitThinking (assistantText [])).2 = "" := rfl
  rw [readMessage, native, bind_some] at read
  dsimp only at read
  rw [text, found] at read
  cases read
  rfl

theorem exists_message {response : Json}
    (calls : roundCalls runtime response ≠ []) :
    ∃ fields reading, assistantMessage response = some (.obj fields) ∧
      readMessage runtime fields = some reading ∧
      roundCalls runtime response = reading.calls := by
  rw [roundCalls] at calls ⊢
  cases isError : errorOf runtime response with
  | some message =>
    rw [isError] at calls
    exact absurd rfl calls
  | none =>
    rw [isError] at calls
    cases isRead : readResponse runtime response with
    | none =>
      rw [isRead] at calls
      exact absurd rfl calls
    | some reading =>
      rw [isRead] at calls
      obtain ⟨message, isMessage, read⟩ :=
        bind_eq_some_iff.mp isRead
      have notNil : message.getD [] ≠ [] := by
        intro isNil
        rw [isNil] at read
        exact calls (calls_of_readMessage_nil read)
      cases response with
      | null | bool | number | str | arr => cases isMessage
      | obj response =>
        rw [firstMessage] at isMessage
        split at isMessage
        · cases isMessage
          exact absurd rfl notNil
        · obtain ⟨choice, isChoice, inChoice⟩ :=
            bind_eq_some_iff.mp isMessage
          split at inChoice
          · cases inChoice
            exact absurd rfl notNil
          · split at inChoice
            · next fields isFields =>
                cases inChoice
                refine ⟨fields, reading, ?_, read, rfl⟩
                rw [assistantMessage, isChoice, bind_some, isFields]
            · cases inChoice

/-! ## Both blocks -/

variable {calls : List ToolCall}

theorem toolMessages_of_hashable (results : Results)
    (hashable : ∀ call ∈ calls, call.id.key?.isSome = true) :
    toolMessages runtime results calls =
      (calls.map fun call => buildToolMessage runtime call.id call.name
        ((call.id.key?.bind results).getD noResult), true) := by
  induction calls with
  | nil => rfl
  | cons call rest later =>
    obtain ⟨key, isKey⟩ := isSome_iff_exists.mp
      (hashable call mem_cons_self)
    rw [toolMessages, isKey, later fun other listed =>
      hashable other (mem_cons_of_mem call listed)]
    simp [isKey]

theorem toolMessages_prefix (runtime : Runtime) (results : Results)
    (calls : List ToolCall) :
    (toolMessages runtime results calls).1.length ≤ calls.length := by
  induction calls with
  | nil => exact Nat.le_refl 0
  | cons call rest later =>
    rw [toolMessages]
    split
    · exact Nat.zero_le _
    · exact Nat.succ_le_succ later

theorem block_length_le (runtime : Runtime) (round : Round) :
    (block runtime round).length ≤ (ownBlock runtime round).length := by
  rw [block, ownBlock]
  split
  · exact Nat.le_refl 0
  · rw [length_append, length_append, length_mapIdx]
    apply Nat.add_le_add_left
    split
    · exact Nat.zero_le _
    · exact toolMessages_prefix runtime _ _

theorem buildToolMessage_inj {id name first second : Json} :
    buildToolMessage runtime id name first =
        buildToolMessage runtime id name second ↔
      runtime.dumps first = runtime.dumps second := by
  simp [buildToolMessage]

theorem collect_eq_none {replies : List Reply}
    (answers : Answers calls replies) {call : ToolCall} (listed : call ∈ calls)
    (noKey : call.id.key? = none) :
    (collect (replies.map Reply.event) fun _ => none).2 = none := by
  obtain ⟨index, isCall⟩ := List.getElem?_of_mem listed
  obtain ⟨inRange, -⟩ := List.getElem?_eq_some_iff.mp isCall
  obtain ⟨reply, isReply, isFor⟩ := answers.each index inRange
  obtain ⟨other, isOther, sameId⟩ := answers.own reply isReply index isFor
  rw [isCall] at isOther
  cases isOther
  have isResult : reply.event.type = "tool_result" :=
    (answers.isResult reply isReply).mpr (by rw [isFor]; rfl)
  exact collect_of_not_hashable (mem_map_of_mem isReply) isResult
    (by rw [sameId, noKey]) _

theorem hashable_events {replies : List Reply}
    (answers : Answers calls replies)
    (hashable : ∀ call ∈ calls, call.id.key?.isSome = true) :
    ∀ event ∈ replies.map Reply.event, event.type = "tool_result" →
      event.id.key?.isSome = true := by
  intro event listed isResult
  obtain ⟨reply, isReply, rfl⟩ := mem_map.mp listed
  obtain ⟨index, isFor⟩ := isSome_iff_exists.mp
    ((answers.isResult reply isReply).mp isResult)
  obtain ⟨call, isCall, sameId⟩ := answers.own reply isReply index isFor
  rw [sameId]
  exact hashable call (mem_of_getElem? isCall)

theorem map_eq_mapIdx_iff {Element Image : Type} {elements : List Element}
    {image : Element → Image} {imageAt : Nat → Element → Image} :
    elements.map image = elements.mapIdx imageAt ↔
      ∀ (index : Nat) (element : Element), elements[index]? = some element →
        image element = imageAt index element := by
  constructor
  · intro same index element found
    have atIndex := congrArg (·[index]?) same
    simpa [found] using atIndex
  · intro each
    apply ext_getElem?
    intro index
    rw [getElem?_map, getElem?_mapIdx]
    cases found : elements[index]? with
    | none => rfl
    | some element => exact congrArg some (each index element found)

variable {round : Round}

theorem told_eq_iff
    (answers : Answers (roundCalls runtime round.response) round.replies)
    (hashable : ∀ call ∈ roundCalls runtime round.response,
      call.id.key?.isSome = true) {final : Results}
    (noNull : final .null = none)
    (last : ∀ key, key ≠ .null → ∀ event,
      IsLatest (Has key) (round.replies.map Reply.event) event →
        final key = some event.result) :
    (∀ (index : Nat) (call : ToolCall),
      (roundCalls runtime round.response)[index]? = some call →
      runtime.dumps ((call.id.key?.bind final).getD noResult) =
        runtime.dumps (finalResult round.replies index)) ↔
      Apart runtime round := by
  constructor
  · intro own
    refine ⟨hashable, ?_, ?_⟩
    · intro first second call other key isFirst isSecond firstKey secondKey _
      have firstOwn := own first call isFirst
      have secondOwn := own second other isSecond
      rw [firstKey] at firstOwn
      rw [secondKey] at secondOwn
      exact firstOwn.symm.trans secondOwn
    · intro index call isCall isNull
      have told := own index call isCall
      rw [isNull, bind_some, noNull] at told
      exact told.symm
  · intro apart index call isCall
    obtain ⟨key, isKey⟩ := isSome_iff_exists.mp
      (hashable call (mem_of_getElem? isCall))
    rw [isKey, bind_some]
    by_cases isNull : key = .null
    · subst isNull
      rw [noNull]
      exact (apart.missing isCall isKey).symm
    · obtain ⟨told, other, isOther, otherKey, isTold⟩ :=
        exists_told answers last isCall isKey isNull
      rw [isTold, getD_some]
      exact apart.repeated isOther isCall otherKey isKey isNull

theorem block_eq_iff
    (answers : Answers (roundCalls runtime round.response) round.replies) :
    block runtime round = ownBlock runtime round ↔ Apart runtime round := by
  rw [block, ownBlock]
  cases isCalls : roundCalls runtime round.response with
  | nil =>
    have apart : Apart runtime round := by
      constructor
      · intro call listed
        rw [isCalls] at listed
        cases listed
      · intro first second call other key isFirst
        rw [isCalls] at isFirst
        cases isFirst
      · intro index call isCall
        rw [isCalls] at isCall
        cases isCall
    simp [apart]
  | cons call rest =>
    rw [← isCalls]
    have nonempty : (roundCalls runtime round.response).isEmpty = false := by
      rw [isCalls]
      rfl
    simp only [nonempty, Bool.false_eq_true, if_false, append_cancel_left_eq]
    by_cases hashable : ∀ call ∈ roundCalls runtime round.response,
        call.id.key?.isSome = true
    · obtain ⟨final, isFinal, noNull, each⟩ :=
        collect_spec (hashable_events answers hashable) fun _ => none
      rw [isFinal]
      dsimp only
      rw [toolMessages_of_hashable final hashable, map_eq_mapIdx_iff]
      simp only [buildToolMessage_inj]
      exact told_eq_iff answers hashable noNull fun key notNull =>
        (each key notNull).2
    · constructor
      · intro same
        obtain ⟨other, listed, noKey⟩ : ∃ other ∈
            roundCalls runtime round.response, other.id.key? = none := by
          by_contra none
          apply hashable
          intro other listed
          rw [isSome_iff_ne_none]
          intro noKey
          exact none ⟨other, listed, noKey⟩
        rw [collect_eq_none answers listed noKey, isCalls,
          mapIdx_cons] at same
        cases same
      · intro apart
        exact absurd apart.hashable hashable

/-! ## Whole runs -/

theorem length_flatMap_le {Element Image : Type} {elements : List Element}
    {first second : Element → List Image}
    (shorter : ∀ element ∈ elements,
      (first element).length ≤ (second element).length) :
    (elements.flatMap first).length ≤ (elements.flatMap second).length := by
  induction elements with
  | nil => exact Nat.le_refl 0
  | cons element rest later =>
    rw [flatMap_cons, flatMap_cons, length_append, length_append]
    exact Nat.add_le_add (shorter element mem_cons_self)
      (later fun other listed =>
        shorter other (mem_cons_of_mem element listed))

theorem flatMap_eq_iff {Element Image : Type} {elements : List Element}
    {first second : Element → List Image}
    (shorter : ∀ element ∈ elements,
      (first element).length ≤ (second element).length) :
    elements.flatMap first = elements.flatMap second ↔
      ∀ element ∈ elements, first element = second element := by
  induction elements with
  | nil => simp
  | cons element rest later =>
    have shorterRest : ∀ other ∈ rest,
        (first other).length ≤ (second other).length := fun other listed =>
      shorter other (mem_cons_of_mem element listed)
    have lengths := length_flatMap_le shorterRest
    rw [flatMap_cons, flatMap_cons, forall_mem_cons, ← later shorterRest]
    constructor
    · intro same
      have total := congrArg List.length same
      rw [length_append, length_append] at total
      have here := shorter element mem_cons_self
      exact append_inj same (by omega)
    · rintro ⟨here, there⟩
      rw [here, there]

variable {maxRounds : Nat}

theorem messages_of_run {allowed : Loop → Round → Prop} {start target : Loop}
    {rounds : List Round}
    (run : Run (Loop.step runtime maxRounds) allowed start rounds target) :
    target.messages = start.messages ++ rounds.flatMap (block runtime) := by
  apply run.history fun rounds loop =>
    loop.messages = start.messages ++ rounds.flatMap (block runtime)
  · simp
  · intro past loop round next reached _ moved
    rw [Loop.step] at moved
    split at moved
    · cases moved
    · cases moved
      rw [play_messages, reached, flatMap_append, append_assoc]
      simp

theorem play_of_calls (calls : roundCalls runtime round.response ≠ [])
    (maxRounds : Nat) (loop : Loop) :
    ∃ asked : Loop, loop.play runtime maxRounds round =
      asked.dispatch runtime maxRounds round
        (roundCalls runtime round.response) := by
  rw [roundCalls] at calls ⊢
  rw [Loop.play]
  cases isError : errorOf runtime round.response with
  | some message =>
    rw [isError] at calls
    exact absurd rfl calls
  | none =>
    rw [isError] at calls
    cases isRead : readResponse runtime round.response with
    | none =>
      rw [isRead] at calls
      exact absurd rfl calls
    | some reading =>
      rw [isRead] at calls
      have nonempty : reading.calls.isEmpty = false := by
        simpa using calls
      refine ⟨(loop.emit [.response round.response]).emit
        (shown reading false), ?_⟩
      simp only [nonempty, Bool.false_and, Bool.false_eq_true, if_false,
        map_some, getD_some]

theorem answered_of_quiet {loop : Loop}
    (quiet : (loop.dispatch runtime maxRounds round calls).raised = false) :
    ∃ results, (collect (round.replies.map Reply.event) fun _ => none).2 =
        some results ∧
      (toolMessages runtime results calls).2 = true := by
  rw [Loop.dispatch] at quiet
  cases collected : (collect (round.replies.map Reply.event) fun _ => none).2
    with
  | none =>
    simp only [collected] at quiet
    cases quiet
  | some results =>
    simp only [collected] at quiet
    refine ⟨results, rfl, ?_⟩
    split at quiet
    · next answered => exact answered
    · cases quiet

theorem forall₂_toolMessages {results : Results}
    (answered : (toolMessages runtime results calls).2 = true) :
    List.Forall₂ (fun call message => ∃ result,
      message = buildToolMessage runtime call.id call.name result)
      calls (toolMessages runtime results calls).1 := by
  induction calls with
  | nil => exact .nil
  | cons call rest later =>
    rw [toolMessages] at answered ⊢
    cases isKey : call.id.key? with
    | none =>
      rw [isKey] at answered
      cases answered
    | some key =>
      rw [isKey] at answered
      exact .cons ⟨_, rfl⟩ (later answered)

theorem paired_play {loop : Loop}
    (quiet : (loop.play runtime maxRounds round).raised = false) :
    ∃ turns : List Turn, block runtime round = turns.flatMap Turn.messages ∧
      ∀ turn ∈ turns, turn.Paired runtime := by
  by_cases calls : roundCalls runtime round.response = []
  · refine ⟨[], ?_, by simp⟩
    simp [block, calls]
  · obtain ⟨fields, reading, isMessage, isRead, isCalls⟩ :=
      exists_message calls
    obtain ⟨asked, isDispatch⟩ := play_of_calls calls maxRounds loop
    rw [isDispatch] at quiet
    obtain ⟨results, collected, answered⟩ := answered_of_quiet quiet
    have paired := forall₂_toolMessages answered
    refine ⟨[⟨fields, (toolMessages runtime results
      (roundCalls runtime round.response)).1⟩], ?_, ?_⟩
    · have nonempty :
          (roundCalls runtime round.response).isEmpty = false := by
        simpa using calls
      rw [block]
      simp [nonempty, isMessage, collected, Turn.messages]
    · intro turn listed
      rw [mem_singleton.mp listed]
      refine ⟨reading, isRead, ?_⟩
      rw [isCalls] at paired ⊢
      exact paired

theorem paired_of_run {allowed : Loop → Round → Prop} {start target : Loop}
    {rounds : List Round}
    (run : Run (Loop.step runtime maxRounds) allowed start rounds target)
    (quiet : target.raised = false) :
    Paired runtime start.messages target.messages := by
  have whole : target.raised = false →
      Paired runtime start.messages target.messages := by
    apply run.invariant fun loop => loop.raised = false →
      Paired runtime start.messages loop.messages
    · intro _
      exact ⟨[], by simp, by simp⟩
    · intro loop round next reached _ moved
      rw [Loop.step] at moved
      split at moved
      · cases moved
      · next enabled =>
          cases moved
          intro quiet
          have calm : loop.raised = false := by
            rw [Bool.or_eq_true, Bool.or_eq_true, not_or, not_or] at enabled
            simpa using enabled.1.2
          obtain ⟨turns, isHistory, paired⟩ := reached calm
          obtain ⟨added, isBlock, pairedAdded⟩ := paired_play quiet
          refine ⟨turns ++ added, ?_, ?_⟩
          · rw [play_messages, isHistory, isBlock, flatMap_append,
              append_assoc]
          · intro turn listed
            rcases mem_append.mp listed with earlier | isNew
            · exact paired turn earlier
            · exact pairedAdded turn isNew
  exact whole quiet

/-! ## The claim of the loop -/

/--
A run appends the reply of each round with every call's own result, and its
tool messages answer the replies before them, exactly when the calls of each
round are apart.
-/
theorem own_results_iff {runtime : Runtime} {maxRounds : Nat}
    {start target : Loop} {rounds : List Round}
    (run : Run (Loop.step runtime maxRounds) (Dispatches runtime) start rounds
      target) :
    (target.messages = start.messages ++ rounds.flatMap (ownBlock runtime) ∧
      (target.raised = false →
        Paired runtime start.messages target.messages)) ↔
    ∀ round ∈ rounds, Apart runtime round := by
  have dispatched : ∀ round ∈ rounds,
      Answers (roundCalls runtime round.response) round.replies := by
    apply run.history fun rounds _ => ∀ round ∈ rounds,
      Answers (roundCalls runtime round.response) round.replies
    · intro round listed
      cases listed
    · intro past loop round next reached permitted _ other listed
      rcases mem_append.mp listed with earlier | isLast
      · exact reached other earlier
      · rw [mem_singleton.mp isLast]
        exact permitted
  have each : target.messages =
        start.messages ++ rounds.flatMap (ownBlock runtime) ↔
      ∀ round ∈ rounds, Apart runtime round := by
    rw [messages_of_run run, append_cancel_left_eq,
      flatMap_eq_iff fun round _ => block_length_le runtime round]
    constructor
    · intro same round listed
      exact (block_eq_iff (dispatched round listed)).mp (same round listed)
    · intro apart round listed
      exact (block_eq_iff (dispatched round listed)).mpr (apart round listed)
  constructor
  · rintro ⟨own, -⟩
    exact each.mp own
  · intro apart
    exact ⟨each.mpr apart, paired_of_run run⟩

/-- Distinct ids, of which none is `null`, keep the calls apart. -/
theorem apart_of_distinct {runtime : Runtime} {round : Round}
    (known : ∀ key ∈ (roundCalls runtime round.response).map
      (fun call => call.id.key?), key.isSome = true ∧ key ≠ some .null)
    (distinct : ((roundCalls runtime round.response).map
      fun call => call.id.key?).Nodup) : Apart runtime round where
  hashable := fun call listed => (known _ (mem_map_of_mem listed)).1
  repeated := by
    intro first second call other key isFirst isSecond firstKey secondKey _
    have inRange := (List.getElem?_eq_some_iff.mp isFirst).1
    have sameKey : ((roundCalls runtime round.response).map
        fun call => call.id.key?)[first]? =
          ((roundCalls runtime round.response).map
            fun call => call.id.key?)[second]? := by
      rw [getElem?_map, getElem?_map, isFirst, isSecond, map_some, map_some,
        firstKey, secondKey]
    have same := (getElem?_inj (by simpa using inRange) distinct).mp sameKey
    rw [same]
  missing := by
    intro index call isCall isNull
    have listed := mem_map_of_mem (f := fun call : ToolCall => call.id.key?)
      (List.mem_of_getElem? isCall)
    exact absurd isNull (known _ listed).2

/-- Two calls, with one result each. -/
theorem answers_pair {first second : ToolCall} {left right : Event}
    {replies : List Reply}
    (given : replies.Perm [⟨left, some 0⟩, ⟨right, some 1⟩])
    (isLeft : left.type = "tool_result" ∧ left.id = first.id)
    (isRight : right.type = "tool_result" ∧ right.id = second.id) :
    Answers [first, second] replies := by
  have among : ∀ reply, reply ∈ replies ↔
      reply = ⟨left, some 0⟩ ∨ reply = ⟨right, some 1⟩ := by
    intro reply
    rw [given.mem_iff, mem_cons, mem_singleton]
  constructor
  · intro reply listed
    rcases (among reply).mp listed with rfl | rfl
    · exact ⟨fun _ => rfl, fun _ => isLeft.1⟩
    · exact ⟨fun _ => rfl, fun _ => isRight.1⟩
  · intro reply listed index isFor
    rcases (among reply).mp listed with rfl | rfl
    · cases isFor
      exact ⟨first, rfl, isLeft.2⟩
    · cases isFor
      exact ⟨second, rfl, isRight.2⟩
  · intro index inRange
    rcases Nat.le_one_iff_eq_zero_or_eq_one.mp
      (Nat.lt_succ_iff.mp inRange) with rfl | rfl
    · exact ⟨_, (among _).mpr (.inl rfl), rfl⟩
    · exact ⟨_, (among _).mpr (.inr rfl), rfl⟩

/-- `json.dumps` of an object with one text. -/
def dumpsText : Json → String
  | .obj [(key, .str value)] =>
    "\x7b\"" ++ key ++ "\": \"" ++ value ++ "\"\x7d"
  | _ => "null"

/-- A runtime that reads no JSON. -/
def plainRuntime : Runtime where
  loads := fun _ => .invalid
  dumps := dumpsText
  str := dumpsText
  knownToolNames := []
  scan := fun text => some ([], text)

/-- A completion with native calls. -/
def completion (calls : List Json) : Json :=
  .obj [("choices", .arr [.obj [("message", .obj [
    ("role", .str "assistant"), ("tool_calls", .arr calls)])]])]

/-- A call of the weather tool, with or without an id. -/
def weatherCall (id : List (String × Json)) (city : String) : Json :=
  .obj (id ++ [("function", .obj [("name", .str "get_weather"),
    ("arguments", .obj [("city", .str city)])])])

def weatherResult (id : Json) (weather : String) : Event :=
  ⟨"tool_result", id, .obj [("weather", .str weather)], false⟩

/-- Two calls, each answered. -/
def answeredCalls : Round where
  response := completion [weatherCall [("id", .str "call-1")] "Oslo",
    weatherCall [("id", .str "call-2")] "Rome"]
  replies := [⟨weatherResult (.str "call-2") "sun", some 1⟩,
    ⟨weatherResult (.str "call-1") "rain", some 0⟩]

theorem two_calls_told :
    ∃ target,
      Run (Loop.step plainRuntime 4) (Dispatches plainRuntime)
          (.start 4 [] 0) [answeredCalls] target ∧
        target.messages = [answeredCalls].flatMap (ownBlock plainRuntime) ∧
        target.raised = false ∧
        Paired plainRuntime [] target.messages := by
  have calls : roundCalls plainRuntime answeredCalls.response =
      [⟨.str "call-1", .str "get_weather", [("city", .str "Oslo")]⟩,
        ⟨.str "call-2", .str "get_weather", [("city", .str "Rome")]⟩] := rfl
  have answers : Dispatches plainRuntime (.start 4 [] 0) answeredCalls := by
    rw [Dispatches, calls]
    exact answers_pair (.swap _ _ _) ⟨rfl, rfl⟩ ⟨rfl, rfl⟩
  have apart : Apart plainRuntime answeredCalls := by
    apply apart_of_distinct
    · rw [calls]
      decide
    · rw [calls]
      decide
  have run : Run (Loop.step plainRuntime 4) (Dispatches plainRuntime)
      (.start 4 [] 0) [answeredCalls] _ :=
    .snoc (.nil _) answers rfl
  obtain ⟨own, paired⟩ := (own_results_iff run).mpr fun round listed =>
    mem_singleton.mp listed ▸ apart
  exact ⟨_, run, own, rfl, paired rfl⟩

/-- Two calls without ids, each answered. -/
def twoCalls : Round where
  response := completion [weatherCall [] "Oslo", weatherCall [] "Rome"]
  replies := [⟨weatherResult (.str "") "rain", some 0⟩,
    ⟨weatherResult (.str "") "sun", some 1⟩]

/-- The call for Oslo is told the weather of Rome. -/
theorem call_without_id_told_another :
    ∃ target,
      Run (Loop.step plainRuntime 4) (Dispatches plainRuntime)
          (.start 4 [] 0) [twoCalls] target ∧
        target.messages ≠ (Loop.start 4 [] 0).messages ++
          [twoCalls].flatMap (ownBlock plainRuntime) := by
  have calls : roundCalls plainRuntime twoCalls.response =
      [⟨.str "", .str "get_weather", [("city", .str "Oslo")]⟩,
        ⟨.str "", .str "get_weather", [("city", .str "Rome")]⟩] := rfl
  have answers : Dispatches plainRuntime (.start 4 [] 0) twoCalls := by
    rw [Dispatches, calls]
    exact answers_pair (.refl _) ⟨rfl, rfl⟩ ⟨rfl, rfl⟩
  have run : Run (Loop.step plainRuntime 4) (Dispatches plainRuntime)
      (.start 4 [] 0) [twoCalls] _ :=
    .snoc (.nil _) answers rfl
  refine ⟨_, run, ?_⟩
  intro same
  have content := congrArg (fun messages => (messages[1]?.bind asFields).map
    fun fields => (get fields "content").key?) same
  revert content
  decide +kernel

end Hal0.Toolloop
