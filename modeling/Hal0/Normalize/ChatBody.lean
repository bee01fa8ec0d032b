import Hal0.Toolloop.Engine

/-!
# Normalising a chat body

Two passes over a request of a client: `apply_thinking_policy` steers the
reasoning of a model, `normalize_system_messages` makes one system message of
all.  The client may send any JSON, and each of them raises a `TypeError` on
some of it: `none` here.

Values do not change; what a pass writes is followed on a heap of the objects
which the passes read and make.
-/

namespace Hal0.Normalize

open Hal0.Toolloop (Json Fields Key get asFields)

/-! ## Dictionaries -/

/-- `fields[key] = value` -/
def setKey (fields : Fields) (key : String) (value : Json) : Fields :=
  if (fields.lookup key).isSome then
    fields.map fun field => if field.1 = key then (key, value) else field
  else fields ++ [(key, value)]

def boolOf : Json → Option Bool
  | .bool value => some value
  | _ => none

def strOf : Json → Option String
  | .str value => some value
  | _ => none

/-! ## The thinking policy -/

/-- `_TOP_LEVEL_KEYS` -/
def topLevelKeys : List String :=
  ["enable_thinking", "thinking"]

/-- `_GRAMMAR_RESPONSE_FORMATS` -/
def grammarResponseFormats : List String :=
  ["json_object", "json_schema"]

/-- `_GRAMMAR_KEYS` -/
def grammarKeys : List String :=
  ["grammar", "json_schema"]

/-- `value in (None, "", {})` -/
def isNothing : Json → Bool
  | .null => true
  | .str value => value = ""
  | .obj fields => fields.isEmpty
  | _ => false

/-- `value in _GRAMMAR_RESPONSE_FORMATS`; a list or an object is not hashed. -/
def isGrammarFormat (value : Json) : Option Bool :=
  value.key?.map fun key => key ∈ grammarResponseFormats.map Key.str

/-- `_wants_structured_output` -/
def wantsStructuredOutput (body : Fields) : Option Bool :=
  let constrained := grammarKeys.any fun key => !isNothing (get body key)
  match get body "response_format" with
  | .obj format => (isGrammarFormat (get format "type")).map (· || constrained)
  | _ => some constrained

/-- `chat_template_kwargs.enable_thinking`, where it is set. -/
def kwarg (body : Fields) : Option Json :=
  (asFields (get body "chat_template_kwargs")).bind
    (·.lookup "enable_thinking")

/-- `_explicit_kwarg_set` -/
def explicitKwargSet (body : Fields) : Bool :=
  (kwarg body).isSome

/-- A `thinking` which is no boolean. -/
def typedThinking (body : Fields) : Bool :=
  (body.lookup "thinking").any fun value => (boolOf value).isNone

/-- `_caller_intent` -/
def callerIntent (body : Fields) : Option Bool :=
  topLevelKeys.findSome? fun key => boolOf (get body key)

/-- `{**(value or {})}` -/
def unpacked (value : Json) : Option Fields :=
  if value.truthy then asFields value else some []

/-- The body without the top-level booleans. -/
def withoutBooleans (body : Fields) : Fields :=
  body.filter fun field =>
    !(field.1 ∈ topLevelKeys && (boolOf field.2).isSome)

/-- What is wanted of the model; the inner `none` leaves the body as it is. -/
def wanted (defaultThinking : Option Bool) (grammarCollides : Bool)
    (body : Fields) : Option (Option Bool) :=
  match (callerIntent body).or defaultThinking with
  | some want => some (some want)
  | none =>
    if grammarCollides then
      (wantsStructuredOutput body).map fun wants =>
        if wants then none else some false
    else some (some false)

/-- The kwargs of the model with what is wanted. -/
def steeredKwargs (body : Fields) (want : Bool) : Option Fields :=
  (unpacked (get body "chat_template_kwargs")).map fun kwargs =>
    setKey kwargs "enable_thinking" (.bool want)

/-- `apply_thinking_policy` -/
def applyThinkingPolicy (defaultThinking : Option Bool)
    (grammarCollides : Bool) (body : Fields) : Option Fields :=
  if explicitKwargSet body || typedThinking body then some body
  else
    (wanted defaultThinking grammarCollides body).bind fun want =>
      match want with
      | none => some body
      | some want =>
        (steeredKwargs body want).map fun kwargs =>
          setKey (withoutBooleans body) "chat_template_kwargs" (.obj kwargs)

/-! ## The system messages -/

/-- The message has the role `system`. -/
def isSystem : Json → Bool
  | .obj message =>
    match get message "role" with
    | .str role => role = "system"
    | _ => false
  | _ => false

/-- `m.get("content", "")` -/
def contentOf : Json → Json
  | .obj message => (message.lookup "content").getD (.str "")
  | _ => .str ""

/-- The contents of the system messages; `none` where one cannot be joined. -/
def systemContents (items : List Json) : Option (List String) :=
  ((items.filter isSystem).map contentOf).mapM strOf

/-- One system message of several contents. -/
def systemMessage (contents : List String) : Json :=
  .obj [("role", .str "system"),
    ("content", .str ("\n\n".intercalate contents))]

/-- `normalize_system_messages` -/
def normalizeSystemMessages : Json → Option Json
  | .arr items =>
    if items.any isSystem then
      (systemContents items).map fun contents =>
        .arr (systemMessage contents ::
          items.filter fun item => !isSystem item)
    else some (.arr items)
  | messages => some messages

/-! ## What is expected of them -/

/-- The choice of the caller is what the model is told. -/
structure ChoiceKept (body once : Fields) : Prop where
  template : ∀ choice, kwarg body = some choice → kwarg once = some choice
  typed : typedThinking body → once = body
  topLevel : kwarg body = none → typedThinking body = false →
    ∀ choice, callerIntent body = some choice →
      kwarg once = some (.bool choice)

/-- The policy returns, once is enough, and a choice is kept. -/
def PolicyLaw (defaultThinking : Option Bool) (grammarCollides : Bool)
    (body : Fields) : Prop :=
  ∃ once, applyThinkingPolicy defaultThinking grammarCollides body =
      some once ∧
    applyThinkingPolicy defaultThinking grammarCollides once = some once ∧
      ChoiceKept body once

/-- One system message at the front with all contents, the others in order. -/
structure Canonical (items once : List Json) : Prop where
  front : ∀ position item, once[position]? = some item → isSystem item →
    position = 0
  content : items.any isSystem → ∃ contents,
    (items.filter isSystem).map contentOf = contents.map Json.str ∧
      once.head? = some (systemMessage contents)
  others : once.filter (fun item => !isSystem item) =
    items.filter fun item => !isSystem item

/-- The messages are canonical, once is enough, and what is no list stays. -/
def MessagesLaw (messages : Json) : Prop :=
  ∃ once, normalizeSystemMessages messages = some once ∧
    normalizeSystemMessages once = some once ∧
      match messages with
      | .arr items => ∃ canonical, once = .arr canonical ∧
          Canonical items canonical
      | _ => once = messages

/-! ## On the heap -/

abbrev Address := Nat

/-- The objects by their addresses. -/
abbrev Heap := List Json

/-- A new object. -/
def Heap.alloc (heap : Heap) (value : Json) : Heap × Address :=
  (heap ++ [value], heap.length)

/-- An object changed in place. -/
def Heap.write (heap : Heap) (address : Address) (value : Json) : Heap :=
  heap.set address value

/-- `apply_thinking_policy`, with the objects which it makes and writes. -/
def applyThinkingPolicyIn (defaultThinking : Option Bool)
    (grammarCollides : Bool) (heap : Heap) (address : Address) :
    Option (Heap × Address) :=
  (heap[address]?.bind asFields).bind fun body =>
    if explicitKwargSet body || typedThinking body then some (heap, address)
    else
      (wanted defaultThinking grammarCollides body).bind fun want =>
        match want with
        | none => some (heap, address)
        | some want =>
          (steeredKwargs body want).map fun kwargs =>
            let withKwargs := heap.alloc (.obj kwargs)
            let new := withKwargs.1.alloc (.obj (withoutBooleans body))
            (new.1.write new.2 (.obj (setKey (withoutBooleans body)
              "chat_template_kwargs" (.obj kwargs))), new.2)

/-- `normalize_system_messages`, with the list which it makes. -/
def normalizeSystemMessagesIn (heap : Heap) (address : Address) :
    Option (Heap × Address) :=
  heap[address]?.bind fun messages =>
    match messages with
    | .arr items =>
      if items.any isSystem then
        (systemContents items).map fun contents =>
          heap.alloc (.arr (systemMessage contents ::
            items.filter fun item => !isSystem item))
      else some (heap, address)
    | _ => some (heap, address)

/-- On the heap a pass has its result, and left what was there as it was. -/
def Untouched (heap : Heap) (expected : Option Json) :
    Option (Heap × Address) → Prop
  | none => expected = none
  | some (later, address) => heap <+: later ∧ later[address]? = expected

/-! ## Normalised bodies -/

/-- The passes return on a body what they should, and leave it alone. -/
structure Normalised (defaultThinking : Option Bool)
    (grammarCollides : Bool) (body : Fields) : Prop where
  policy : PolicyLaw defaultThinking grammarCollides body
  messages : MessagesLaw (get body "messages")
  bodyKept : ∀ (heap : Heap) (address : Address),
    heap[address]? = some (.obj body) →
      Untouched heap
        ((applyThinkingPolicy defaultThinking grammarCollides body).map .obj)
        (applyThinkingPolicyIn defaultThinking grammarCollides heap address)
  messagesKept : ∀ (heap : Heap) (address : Address),
    heap[address]? = some (get body "messages") →
      Untouched heap (normalizeSystemMessages (get body "messages"))
        (normalizeSystemMessagesIn heap address)

/-- The body says nothing about thinking. -/
def Decides (body : Fields) : Prop :=
  (explicitKwargSet body || typedThinking body) = false

/-- Neither the caller nor the default decides. -/
def Undecided (defaultThinking : Option Bool) (body : Fields) : Prop :=
  (callerIntent body).or defaultThinking = none

/-- A request with a grammar which the template collides with. -/
def Spared (defaultThinking : Option Bool) (grammarCollides : Bool)
    (body : Fields) : Prop :=
  Undecided defaultThinking body ∧ grammarCollides = true ∧
    wantsStructuredOutput body = some true

/-- What the passes have to read of a body can be read. -/
structure Readable (defaultThinking : Option Bool) (grammarCollides : Bool)
    (body : Fields) : Prop where
  format : Decides body → Undecided defaultThinking body →
    grammarCollides = true →
      ∀ format, get body "response_format" = .obj format →
        (get format "type").key?.isSome
  kwargs : Decides body → ¬ Spared defaultThinking grammarCollides body →
    (get body "chat_template_kwargs").truthy = false ∨
      ∃ kwargs, get body "chat_template_kwargs" = .obj kwargs
  contents : ∀ items, get body "messages" = .arr items → ∀ item ∈ items,
    isSystem item → ∃ text, contentOf item = .str text

end Hal0.Normalize
