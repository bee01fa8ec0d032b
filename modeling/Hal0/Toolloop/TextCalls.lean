import Hal0.Toolloop.Patterns

/-!
# Reading tool calls out of a text

A reply is searched for six dialects, one after another.  A match is taken
when it names a known tool; after the first dialect one which begins inside a
stretch taken before is not read.  The stretches are cut out of the reply.

With a call goes the region of the text it is read from.  A text which nests
too deep for `json.loads` is read here as one which is no JSON; the last
section says when one is read, and the scan raises.
-/

namespace Hal0.Toolloop

open Hal0.Scan

/-! ## Attribute-style XML -/

abbrev Token := Match (Text × String)

/-- A call and the text it is read from. -/
structure Found where
  name : String
  arguments : Fields
  region : Span

/-- `text[start:stop]` -/
def slice (text : Text) (start stop : Nat) : Text :=
  (text.take stop).drop start

/-- `fields[key] = value` -/
def assign (fields : Fields) (key : String) (value : Json) : Fields :=
  if fields.any fun field => field.1 = key then
    fields.map fun field => if field.1 = key then (key, value) else field
  else fields ++ [(key, value)]

/-- `_xml_param_value`, of what is in front of `</param>`. -/
def paramValue (runtime : Runtime) (text : Text) : Json :=
  let value := trim text
  match cdata value with
  | some inner => .str (String.ofList inner)
  | none =>
    if value.head?.all fun char => char = '\x7b' ∨ char = '[' then
      (runtime.loads (String.ofList value)).value?.getD
        (.str (String.ofList value))
    else .str (String.ofList value)

/-- `_xml_param_value` -/
def xmlParamValue (runtime : Runtime) (raw : Text) : Json :=
  paramValue runtime (withoutParamClose raw)

/-- `_starts_call` -/
def startsCall (known : List String) (token : Token) : Bool :=
  if token.data.1 = [] then token.data.2 ∈ known
  else token.data.1 = "function".toList

/-- The parameters of a call; a value ends where the next token begins. -/
def attrArguments (runtime : Runtime) (text : Text) (bodyEnd : Nat) :
    Fields → List Token → Fields
  | arguments, [] => arguments
  | arguments, token :: tokens =>
    if bodyEnd ≤ token.span.start then arguments
    else
      let following := (tokens.head?.map fun next => next.span.start).getD
        bodyEnd
      attrArguments runtime text bodyEnd
        (assign arguments token.data.2 (xmlParamValue runtime
          (slice text token.span.stop (min following bodyEnd)))) tokens

/-- Where the body of a call ends, and where the call does. -/
def attrEnd (text : Text) (openerEnd nextCallAt : Nat) : Nat × Nat :=
  match searchFrom functionClose openerEnd text with
  | some close =>
    if close.span.start ≤ nextCallAt then
      (close.span.start, close.span.stop)
    else (nextCallAt, nextCallAt)
  | none =>
    match searchFrom paraBreak openerEnd text with
    | some para => (min para.span.start nextCallAt,
        min para.span.start nextCallAt)
    | none => (nextCallAt, nextCallAt)

/-- The calls of a list of tokens. -/
def attrCalls (runtime : Runtime) (known : List String) (text : Text) :
    List Token → List Found
  | [] => []
  | token :: tokens =>
    if startsCall known token then
      let nextCallAt := ((tokens.find? (startsCall known)).map
        fun next => next.span.start).getD text.length
      let ends := attrEnd text token.span.stop nextCallAt
      { name := token.data.2
        arguments := attrArguments runtime text ends.1 []
          (tokens.takeWhile fun next => !startsCall known next)
        region := ⟨token.span.start, ends.2⟩ } ::
        attrCalls runtime known text tokens
    else attrCalls runtime known text tokens

/-- `_xml_attr_tool_calls` -/
def xmlAttrToolCalls (runtime : Runtime) (alphabet : Alphabet)
    (known : List String) (text : Text) : List Found :=
  attrCalls runtime known text (finditer (attrToken alphabet) text)

/-! ## JSON calls -/

/-- `_coerce_args` -/
def coerceArgs (runtime : Runtime) : Json → Fields
  | .obj arguments => arguments
  | .str raw => ((runtime.loads raw).value?.bind asFields).getD []
  | _ => []

def Json.isNull : Json → Bool
  | .null => true
  | _ => false

/-- The name of a call, and its arguments as they are written. -/
def namedArguments (value : Json) : Option (String × Json) :=
  (asFields value).bind fun fields =>
    let fn := (asFields (get fields "function")).getD []
    let name :=
      if (get fields "name").truthy then get fields "name" else get fn "name"
    match name with
    | .str name =>
      if name = "" then none
      else
        match ["arguments", "parameters", "args"].find? fun key =>
            !(get fields key).isNull with
        | some key => some (name, get fields key)
        | none => some (name, get fn "arguments")
    | _ => none

/-- `_toolcall_from_obj`; `null` arguments are none. -/
def toolcallFromObj (runtime : Runtime) (value : Json) :
    Option (String × Fields) :=
  (namedArguments value).map fun call =>
    (call.1, coerceArgs runtime call.2)

/-- A text which is the JSON of a call. -/
def jsonCall (runtime : Runtime) (text : Text) : Option (String × Fields) :=
  (runtime.loads (String.ofList text)).value?.bind (toolcallFromObj runtime)

/-! ## The dialects -/

/-- A match with its calls. -/
structure Candidate where
  span : Span
  calls : List Found

def Found.shift (offset : Nat) (found : Found) : Found :=
  { found with
    region := ⟨offset + found.region.start, offset + found.region.stop⟩ }

/-- What is inside one pair of `<tool_call>` tags. -/
def wrappedCalls (runtime : Runtime) (alphabet : Alphabet)
    (known : List String) (found : Match (Nat × Text)) : List Found :=
  let group := found.data.2
  let body := trim group
  match searchFrom functionTag 0 body with
  | some tag =>
    [⟨tag.data.1, coerceArgs runtime
      (.str (String.ofList (tag.data.2.getD "\x7b\x7d".toList))),
      found.span⟩]
  | none =>
    match jsonCall runtime body with
    | some call => [⟨call.1, call.2, found.span⟩]
    | none =>
      (xmlAttrToolCalls runtime alphabet known body).map
        (Found.shift (found.span.start + found.data.1 +
          (group.length - (spaces group).length)))

/-- 1) -/
def wrapped (runtime : Runtime) (alphabet : Alphabet) (known : List String)
    (text : Text) : List Candidate :=
  (finditer textToolcall text).map fun found =>
    ⟨found.span, wrappedCalls runtime alphabet known found⟩

/-- 2) -/
def functionTags (runtime : Runtime) (text : Text) : List Candidate :=
  (finditer functionTag text).map fun found =>
    ⟨found.span, [⟨found.data.1, coerceArgs runtime
      (.str (String.ofList (found.data.2.getD "\x7b\x7d".toList))),
      found.span⟩]⟩

/-- 2b) -/
def attributeCalls (runtime : Runtime) (alphabet : Alphabet)
    (known : List String) (text : Text) : List Candidate :=
  (xmlAttrToolCalls runtime alphabet known text).map fun found =>
    ⟨found.region, [found]⟩

/-- The arguments of a Gemma call; none where they are not an object. -/
def gemmaArguments (runtime : Runtime) : Option Text → Option Fields
  | some raw => (runtime.loads (String.ofList raw)).value?.bind asFields
  | none => some []

/-- 2c) -/
def gemmaCalls (runtime : Runtime) (text : Text) : List Candidate :=
  (finditer gemmaToolcall text).map fun found =>
    ⟨found.span, (gemmaArguments runtime found.data.2).toList.map
      fun arguments => ⟨found.data.1, arguments, found.span⟩⟩

/-- 3) -/
def fencedCalls (runtime : Runtime) (text : Text) : List Candidate :=
  (finditer fencedJson text).map fun found =>
    ⟨found.span, (jsonCall runtime found.data).toList.map
      fun call => ⟨call.1, call.2, found.span⟩⟩

/-! ## The passes -/

/-- The calls so far, and their spans. -/
structure Taken where
  calls : List Found
  spans : List Span

/-- `_record` of each call, and the span where one of them was recorded. -/
def take (known : List String) (taken : Taken) (candidate : Candidate) :
    Taken :=
  let recorded := candidate.calls.filter fun found => found.name ∈ known
  if recorded.isEmpty then taken
  else ⟨taken.calls ++ recorded, taken.spans ++ [candidate.span]⟩

/-- A match which begins inside a span taken before is passed over. -/
def takeOutside (known : List String) (taken : Taken)
    (candidate : Candidate) : Taken :=
  if ∃ span ∈ taken.spans, span.Covers candidate.span.start then taken
  else take known taken candidate

/-- The passes after the first. -/
def laterCandidates (runtime : Runtime) (alphabet : Alphabet)
    (known : List String) (text : Text) : List Candidate :=
  functionTags runtime text ++ attributeCalls runtime alphabet known text ++
    gemmaCalls runtime text ++ fencedCalls runtime text

/-- The calls of all passes over the text. -/
def embedded (runtime : Runtime) (alphabet : Alphabet) (known : List String)
    (text : Text) : Taken :=
  (laterCandidates runtime alphabet known text).foldl (takeOutside known)
    ((wrapped runtime alphabet known text).foldl (take known) ⟨[], []⟩)

/-- `text.index(part)` -/
def index (part : Text) : Text → Nat
  | [] => 0
  | char :: text =>
    if part.isPrefixOf (char :: text) then 0 else index part text + 1

/-- 4) The whole reply, as one match. -/
def wholeCandidate (runtime : Runtime) (text : Text) : Candidate :=
  let body := trim text
  let span : Span := ⟨index body text, index body text + body.length⟩
  let call :=
    if body.head? = some '\x7b' ∧ body.getLast? = some '\x7d' then
      jsonCall runtime body
    else none
  ⟨span, call.toList.map fun call => ⟨call.1, call.2, span⟩⟩

/-- `parse_text_tool_calls`, before the cut. -/
def found (runtime : Runtime) (alphabet : Alphabet) (known : List String)
    (text : Text) : Taken :=
  let taken := embedded runtime alphabet known text
  if taken.calls.isEmpty then take known taken (wholeCandidate runtime text)
  else taken

/-! ## Texts which nest too deep -/

/-- `json.loads` raises a `RecursionError`, which no dialect catches. -/
def Runtime.tooDeep (runtime : Runtime) (text : Text) : Bool :=
  (runtime.loads (String.ofList text)).isTooDeep

/-- `_xml_param_value` raises. -/
def paramRaises (runtime : Runtime) (raw : Text) : Bool :=
  let value := trim (withoutParamClose raw)
  (cdata value).isNone &&
    (value.head?.all fun char => char = '\x7b' ∨ char = '[') &&
    runtime.tooDeep value

/-- A parameter of a call raises. -/
def argumentsRaise (runtime : Runtime) (text : Text) (bodyEnd : Nat) :
    List Token → Bool
  | [] => false
  | token :: tokens =>
    if bodyEnd ≤ token.span.start then false
    else
      let following := (tokens.head?.map fun next => next.span.start).getD
        bodyEnd
      paramRaises runtime (slice text token.span.stop
          (min following bodyEnd)) ||
        argumentsRaise runtime text bodyEnd tokens

/-- Some argument nests too deep. -/
def attrCallsRaise (runtime : Runtime) (known : List String) (text : Text) :
    List Token → Bool
  | [] => false
  | token :: tokens =>
    let nextCallAt := ((tokens.find? (startsCall known)).map
      fun next => next.span.start).getD text.length
    (startsCall known token &&
      argumentsRaise runtime text
        (attrEnd text token.span.stop nextCallAt).1
        (tokens.takeWhile fun next => !startsCall known next)) ||
      attrCallsRaise runtime known text tokens

/-- `_xml_attr_tool_calls` raises. -/
def xmlAttrRaises (runtime : Runtime) (alphabet : Alphabet)
    (known : List String) (text : Text) : Bool :=
  attrCallsRaise runtime known text (finditer (attrToken alphabet) text)

/-- `_coerce_args` raises. -/
def coerceRaises (runtime : Runtime) : Json → Bool
  | .str raw => (runtime.loads raw).isTooDeep
  | _ => false

/-- The text nests too deep, or arguments which it holds as a text do. -/
def jsonRaises (runtime : Runtime) (text : Text) : Bool :=
  match runtime.loads (String.ofList text) with
  | .tooDeep => true
  | .invalid => false
  | .value json => (namedArguments json).any fun call =>
    coerceRaises runtime call.2

/-- What is inside one pair of `<tool_call>` tags raises. -/
def wrappedRaises (runtime : Runtime) (alphabet : Alphabet)
    (known : List String) (found : Match (Nat × Text)) : Bool :=
  let body := trim found.data.2
  match searchFrom functionTag 0 body with
  | some tag => runtime.tooDeep (tag.data.2.getD "\x7b\x7d".toList)
  | none =>
    jsonRaises runtime body ||
      ((jsonCall runtime body).isNone &&
        xmlAttrRaises runtime alphabet known body)

/--
The matches of the passes after the first, and whether reading one raises; the
calls of the pass 2b) are all read before its matches are gone through.
-/
def laterAttempts (runtime : Runtime) (alphabet : Alphabet)
    (known : List String) (text : Text) : List (Candidate × Bool) :=
  (functionTags runtime text).zip ((finditer functionTag text).map
      fun found => runtime.tooDeep (found.data.2.getD "\x7b\x7d".toList)) ++
    (attributeCalls runtime alphabet known text).map (·, false) ++
    (gemmaCalls runtime text).zip ((finditer gemmaToolcall text).map
      fun found => found.data.2.any runtime.tooDeep) ++
    (fencedCalls runtime text).zip ((finditer fencedJson text).map
      fun found => jsonRaises runtime found.data)

/-- A match which raises is not passed over. -/
def passesRaise (known : List String) : Taken → List (Candidate × Bool) → Bool
  | _, [] => false
  | taken, (candidate, raises) :: attempts =>
    (raises && ¬ ∃ span ∈ taken.spans, span.Covers candidate.span.start) ||
      passesRaise known (takeOutside known taken candidate) attempts

/-- One of the texts which the passes read as JSON nests too deep. -/
def scanRaises (runtime : Runtime) (alphabet : Alphabet)
    (known : List String) (text : Text) : Bool :=
  let body := trim text
  (finditer textToolcall text).any (wrappedRaises runtime alphabet known) ||
    passesRaise known
      ((wrapped runtime alphabet known text).foldl (take known) ⟨[], []⟩)
      (laterAttempts runtime alphabet known text) ||
    xmlAttrRaises runtime alphabet known text ||
    ((embedded runtime alphabet known text).calls.isEmpty &&
      body.head? = some '\x7b' && body.getLast? = some '\x7d' &&
      jsonRaises runtime body)

/-- The attempts are of the candidates, in order. -/
theorem map_fst_laterAttempts (runtime : Runtime) (alphabet : Alphabet)
    (known : List String) (text : Text) :
    (laterAttempts runtime alphabet known text).map Prod.fst =
      laterCandidates runtime alphabet known text := by
  have zipped : ∀ {α : Type} (found : List α) (read : α → Candidate)
      (raises : α → Bool),
      ((found.map read).zip (found.map raises)).map Prod.fst =
        found.map read := by
    intro α found read raises
    rw [List.map_fst_zip]
    simp
  have unread : ((attributeCalls runtime alphabet known text).map
      (·, false)).map Prod.fst = attributeCalls runtime alphabet known text := by
    rw [List.map_map]
    exact List.map_id _
  rw [laterAttempts, laterCandidates, List.map_append, List.map_append,
    List.map_append, functionTags, gemmaCalls, fencedCalls, zipped, zipped,
    zipped, unread]

/-! ## The scan -/

/-- The calls which the dialects find, and the reply without them. -/
def scanText (runtime : Runtime) (alphabet : Alphabet) (text : String) :
    Option (List (String × Fields) × String) :=
  let taken := found runtime alphabet runtime.knownToolNames text.toList
  if scanRaises runtime alphabet runtime.knownToolNames text.toList then none
  else some (taken.calls.map fun call => (call.name, call.arguments),
    String.ofList (trim (cut text.toList taken.spans)))

/-- A runtime which reads the dialects. -/
def Runtime.withDialects (runtime : Runtime) (alphabet : Alphabet) :
    Runtime :=
  { runtime with scan := scanText runtime alphabet }

end Hal0.Toolloop
