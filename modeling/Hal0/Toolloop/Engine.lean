import Hal0.Core.Latest
import Hal0.Core.Transition
import Hal0.Slots.ConfigDoc

/-!
# The tool loop

Each round sends the history to the model, reads the tool calls of its reply
(the native ones, or else those embedded in the text), has them dispatched and
appends the reply and one tool message for each call.  The results are folded
into a dictionary by the id which the model chose for its call.

A reply and the events of its dispatch are one action here.  Of an event the
action also says for which call of the round the dispatcher has made it; the
loop does not see that.
-/

namespace Hal0.Toolloop

open Hal0.Slots.ConfigFiles (stripped)

/-! ## Values -/

/-- A JSON value; the keys of an object are distinct. -/
inductive Json where
  | null
  | bool (value : Bool)
  | number (value : Rat)
  | str (value : String)
  | arr (items : List Json)
  | obj (fields : List (String × Json))

abbrev Fields := List (String × Json)

/-- `bool(value)` -/
def Json.truthy : Json → Bool
  | .null => false
  | .bool value => value
  | .number value => value ≠ 0
  | .str value => value ≠ ""
  | .arr items => !items.isEmpty
  | .obj fields => !fields.isEmpty

/-- `fields.get(key)` -/
def get (fields : Fields) (key : String) : Json :=
  (fields.lookup key).getD .null

/-- What a call's id is compared by. -/
inductive Key where
  | null
  | number (value : Rat)
  | str (value : String)
deriving DecidableEq

/-- A list and an object are not hashable. -/
def Json.key? : Json → Option Key
  | .null => some .null
  | .bool value => some (.number (if value then 1 else 0))
  | .number value => some (.number value)
  | .str value => some (.str value)
  | .arr _ => none
  | .obj _ => none

/-- What `json.loads` does: a `ValueError` and a `RecursionError` are apart. -/
inductive Loaded where
  | value (json : Json)
  | invalid
  | tooDeep

namespace Loaded

/-- The value, where it is read. -/
def value? : Loaded → Option Json
  | .value json => some json
  | .invalid | .tooDeep => none

/-- The read has failed by its depth. -/
def isTooDeep : Loaded → Bool
  | .tooDeep => true
  | .value _ | .invalid => false

end Loaded

/--
`json.loads`, `json.dumps` and `str` of a value, and the text dialects, where
`none` is an error which they let through.
-/
structure Runtime where
  loads : String → Loaded
  dumps : Json → String
  str : Json → String
  knownToolNames : List String
  /-- The known names and arguments which the dialects find, and the rest. -/
  scan : String → Option (List (String × Fields) × String)

/-- `build_tool_message` -/
def buildToolMessage (runtime : Runtime) (id name result : Json) : Json :=
  .obj [("role", .str "tool"), ("tool_call_id", id), ("name", name),
    ("content", .str (runtime.dumps result))]

/-! ## Reading a reply -/

/-- A call of the model. -/
structure ToolCall where
  id : Json
  name : Json
  arguments : Fields

/-- The first choice; `none` where there is none. -/
def firstChoice : Json → Option Fields
  | .obj response =>
    match get response "choices" with
    | .arr (.obj choice :: _) => some choice
    | _ => none
  | _ => none

/--
`choices[0].get("message") or {}`, and nothing without choices; the outer
`none` is the error of a reply of another shape.
-/
def firstMessage : Json → Option (Option Fields)
  | .obj response =>
    if !(get response "choices").truthy then some none
    else (firstChoice (.obj response)).bind fun choice =>
      if !(get choice "message").truthy then some (some [])
      else
        match get choice "message" with
        | .obj fields => some (some fields)
        | _ => none
  | _ => none

/-- `for tc in value or []` -/
def iterated (value : Json) : Option (List Json) :=
  if !value.truthy then some []
  else
    match value with
    | .arr items => some items
    | .obj fields => some (fields.map fun field => .str field.1)
    | .str _ => some []
    | _ => none

def asFields : Json → Option Fields
  | .obj fields => some fields
  | _ => none

/-- The arguments of a native call, decoded; only a `ValueError` is caught. -/
def nativeArguments (runtime : Runtime) : Json → Option Fields
  | .str raw =>
    match runtime.loads raw with
    | .value json => some ((asFields json).getD [])
    | .invalid => some []
    | .tooDeep => none
  | .obj arguments => some arguments
  | _ => some []

/-- One `tool_calls` entry which is an object. -/
def nativeCall (runtime : Runtime) (entry : Fields) : Option ToolCall :=
  let function : Option Fields :=
    if !(get entry "function").truthy then some []
    else asFields (get entry "function")
  function.bind fun function =>
    (nativeArguments runtime (get function "arguments")).map fun arguments =>
      { id := (entry.lookup "id").getD (.str "")
        name := (function.lookup "name").getD (.str "")
        arguments := arguments }

/-- `extract_tool_calls`, from the message on. -/
def nativeCalls (runtime : Runtime) (message : Fields) :
    Option (List ToolCall) :=
  (iterated (get message "tool_calls")).bind fun items =>
    (items.filterMap asFields).mapM (nativeCall runtime)

/-- `assistant_text` -/
def assistantText (message : Fields) : String :=
  match get message "content" with
  | .str content => content
  | _ => ""

/-- `value.strip()` -/
def strip (text : String) : String :=
  String.ofList (stripped text)

/-- `assistant_thinking` -/
def assistantThinking (message : Fields) : String :=
  let read (key : String) : String :=
    match get message key with
    | .str value => strip value
    | _ => ""
  if read "reasoning_content" ≠ "" then read "reasoning_content"
  else read "reasoning"

/-- `text.partition(mark)`, where the mark is in the text. -/
def partitionAt (mark : List Char) :
    List Char → Option (List Char × List Char)
  | [] => if mark = [] then some ([], []) else none
  | char :: rest =>
    if mark.isPrefixOf (char :: rest) then
      some ([], (char :: rest).drop mark.length)
    else (partitionAt mark rest).map fun parts =>
      (char :: parts.1, parts.2)

/-- The closed `<think>` blocks, and the text without them. -/
def thinkBlocks : Nat → List Char → List (List Char) × List Char
  | 0, text => ([], text)
  | fuel + 1, text =>
    match partitionAt "<think>".toList text with
    | none => ([], text)
    | some (before, opened) =>
      match partitionAt "</think>".toList opened with
      | none => ([], text)
      | some (inside, after) =>
        let rest := thinkBlocks fuel after
        (inside :: rest.1, before ++ rest.2)

/-- `"\n".join(part for part in parts if part)` -/
def joined (parts : List String) : String :=
  "\n".intercalate (parts.filter fun part => part ≠ "")

/-- `split_thinking` -/
def splitThinking (content : String) : String × String :=
  let text := content.toList
  match partitionAt "<think>".toList text with
  | none =>
    match partitionAt "</think>".toList text with
    | some (reasoning, visible) =>
      (strip (String.ofList reasoning), strip (String.ofList visible))
    | none => ("", content)
  | some _ =>
    let blocks := thinkBlocks text.length text
    let parts :=
      match partitionAt "<think>".toList blocks.2 with
      | some (visible, open_) => (blocks.1 ++ [open_], visible)
      | none => blocks
    (joined (parts.1.map fun part => strip (String.ofList part)),
      strip (String.ofList parts.2))

/-- `_record`: the id of the call which is found at a position. -/
def textId (position : Nat) (name : String) : String :=
  "txt-" ++ toString position ++ "-" ++ name

/-- `parse_text_tool_calls` -/
def parseTextToolCalls (runtime : Runtime) (text : String) :
    Option (List ToolCall × String) :=
  if text = "" || runtime.knownToolNames.isEmpty then some ([], text)
  else
    (runtime.scan text).map fun found =>
      if found.1.isEmpty then ([], text)
      else
        (found.1.mapIdx fun position call =>
          { id := .str (textId position call.1)
            name := .str call.1
            arguments := call.2 }, found.2)

/-- What is read from a response. -/
structure Reading where
  calls : List ToolCall
  thinking : String
  text : String

/-- The native calls first, or else those in the text. -/
def readMessage (runtime : Runtime) (message : Fields) : Option Reading :=
  (nativeCalls runtime message).bind fun native =>
    let split := splitThinking (assistantText message)
    let thinking := joined [assistantThinking message, split.1]
    if native.isEmpty then
      (parseTextToolCalls runtime split.2).map fun found =>
        ⟨found.1, thinking, found.2⟩
    else some ⟨native, thinking, split.2⟩

/-- What a round reads of a reply; `none` is an error of the read. -/
def readResponse (runtime : Runtime) (response : Json) : Option Reading :=
  (firstMessage response).bind fun message =>
    readMessage runtime (message.getD [])

/-- `assistant_message` -/
def assistantMessage (response : Json) : Option Json :=
  (firstChoice response).bind fun choice =>
    match get choice "message" with
    | .obj fields => some (.obj fields)
    | _ => none

/-- `_finish_reason(response) == "length"` -/
def truncated (response : Json) : Bool :=
  match (firstChoice response).map fun choice => get choice "finish_reason" with
  | some (.str reason) => reason = "length"
  | _ => false

/-- The text of an error reply. -/
def errorOf (runtime : Runtime) : Json → Option String
  | .obj response =>
    if (get response "error").truthy then
      some (runtime.str (get response "error"))
    else none
  | _ => none

/-! ## Dispatching -/

/-- An event of `dispatch_fn`; `id` is `null` where it has none. -/
structure Event where
  type : String
  id : Json
  result : Json
  engineOnly : Bool

/-- The dictionary `tool_results`. -/
abbrev Results := Key → Option Json

/-- One event is folded; `none` is the error of an id which is no key. -/
def foldEvent (results : Results) (event : Event) : Option Results :=
  if event.type ≠ "tool_result" then some results
  else
    match event.id with
    | .null => some results
    | id => id.key?.map fun key =>
      Function.update results key (some event.result)

/-- The events which are forwarded, and the results when nothing raises. -/
def collect : List Event → Results → List Event × Option Results
  | [], results => ([], some results)
  | event :: rest, results =>
    match foldEvent results event with
    | none => ([], none)
    | some results =>
      let later := collect rest results
      (if event.engineOnly then later.1 else event :: later.1, later.2)

/-- `{"error": "no dispatch result"}` -/
def noResult : Json :=
  .obj [("error", .str "no dispatch result")]

/-- The tool messages; the flag says that nothing raised. -/
def toolMessages (runtime : Runtime) (results : Results) :
    List ToolCall → List Json × Bool
  | [] => ([], true)
  | call :: rest =>
    match call.id.key? with
    | none => ([], false)
    | some key =>
      let later := toolMessages runtime results rest
      (buildToolMessage runtime call.id call.name
        ((results key).getD noResult) :: later.1, later.2)

/-! ## The loop -/

/-- What the loop yields. -/
inductive Emitted where
  | response (data : Json)
  | thinking (text : String)
  | token (text : String)
  | error (message : String)
  | done
  | dispatched (event : Event)

/-- A result, and the call it is for. -/
structure Reply where
  event : Event
  call : Option Nat

/-- A response, and the results of its calls. -/
structure Round where
  response : Json
  replies : List Reply

/-- The loop between two rounds. -/
structure Loop where
  messages : List Json
  maxTokens : Int
  retried : Bool
  rounds : Nat
  ended : Bool
  raised : Bool
  emitted : List Emitted

/-- More is yielded. -/
def Loop.emit (loop : Loop) (events : List Emitted) : Loop :=
  { loop with emitted := loop.emitted ++ events }

/-- The loop ends with `done`. -/
def Loop.finish (loop : Loop) : Loop :=
  { loop.emit [.done] with ended := true }

/-- The loop ends with an exception. -/
def Loop.raise (loop : Loop) : Loop :=
  { loop with raised := true }

/-- The rounds are used up. -/
def Loop.exhaust (loop : Loop) : Loop :=
  (loop.emit [.error "tool loop budget exhausted"]).finish

/-- The loop before its first round. -/
def Loop.start (maxRounds : Nat) (messages : List Json) (maxTokens : Int) :
    Loop :=
  let loop : Loop := ⟨messages, maxTokens, false, 0, false, false, []⟩
  if maxRounds = 0 then loop.exhaust else loop

/-- The next round, or the end of the budget. -/
def Loop.next (maxRounds : Nat) (loop : Loop) : Loop :=
  if loop.rounds + 1 = maxRounds then loop.exhaust
  else { loop with rounds := loop.rounds + 1 }

def truncationRetryFloor : Int := 8192

def cutNote : String :=
  "\n\n⚠ reply truncated — the completion budget ran out before " ++
    "the model finished (its reasoning consumes the same budget). " ++
    "Retry the message, or raise `max_tokens`."

/-- The events before the calls: what was thought, and what is shown. -/
def shown (reading : Reading) (cut : Bool) : List Emitted :=
  let text := if cut then reading.text ++ cutNote else reading.text
  (if reading.thinking = "" then [] else [.thinking reading.thinking]) ++
    (if text = "" then [] else [.token text])

/-- The calls are dispatched and answered. -/
def Loop.dispatch (runtime : Runtime) (maxRounds : Nat) (loop : Loop)
    (round : Round) (calls : List ToolCall) : Loop :=
  let asked := loop.messages ++ (assistantMessage round.response).toList
  let collected := collect (round.replies.map Reply.event) fun _ => none
  let loop := loop.emit (collected.1.map .dispatched)
  match collected.2 with
  | none => { loop with messages := asked }.raise
  | some results =>
    let answers := toolMessages runtime results calls
    let loop := { loop with messages := asked ++ answers.1 }
    if answers.2 then loop.next maxRounds else loop.raise

/-- One round of `run_tool_loop`. -/
def Loop.play (runtime : Runtime) (maxRounds : Nat) (loop : Loop)
    (round : Round) : Loop :=
  let loop := loop.emit [.response round.response]
  match errorOf runtime round.response with
  | some message => (loop.emit [.error message]).finish
  | none =>
    match readResponse runtime round.response with
    | none => loop.raise
    | some reading =>
      let cut := reading.calls.isEmpty && truncated round.response
      if cut && !loop.retried then
        { loop with
          retried := true
          maxTokens := max (loop.maxTokens * 2) truncationRetryFloor
        }.next maxRounds
      else
        let loop := loop.emit (shown reading cut)
        if reading.calls.isEmpty then loop.finish
        else loop.dispatch runtime maxRounds round reading.calls

/-- `run_tool_loop` plays rounds until it ends. -/
def Loop.step (runtime : Runtime) (maxRounds : Nat) :
    Hal0.Transition.StepFunction Loop Round :=
  fun loop round =>
    if loop.ended || loop.raised || maxRounds ≤ loop.rounds then none
    else some (loop.play runtime maxRounds round)

end Hal0.Toolloop
