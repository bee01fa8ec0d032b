import Hal0.Core.Scan
import Hal0.Toolloop.Engine

/-!
# The patterns of text-embedded tool calls

The regular expressions which `parse_text_tool_calls` searches a reply with.
All of them but the one for CDATA ignore the case, and a dot is any character.

A greedy run of blanks or of name characters is always followed by a
character outside the run, so only the lazy groups have more than one way to
match; they are read by `lazily`.
-/

namespace Hal0.Toolloop

open Hal0.Scan
open Hal0.Slots.ConfigFiles (isSpace stripped)

abbrev Text := List Char

/-- A property of the characters of a text is decided one by one. -/
instance (priority := 2000) decidableForallChars (test : Char → Prop)
    [DecidablePred test] (text : List Char) :
    Decidable (∀ char, char ∈ text → test char) :=
  List.decidableBAll test text

/-! ## Parts of a pattern -/

/--
The character a literal of a pattern is compared with; the letters outside
ASCII are those which `IGNORECASE` takes for one of ASCII.
-/
def fold (char : Char) : Char :=
  if char = '\u0130' ∨ char = '\u0131' then 'i'
  else if char = '\u017f' then 's'
  else if char = '\u212a' then 'k'
  else char.toLower

/-- A literal, and what follows it. -/
def lit : Text → Text → Option Text
  | [], text => some text
  | _ :: _, [] => none
  | char :: literal, head :: text =>
    if fold head = char then lit literal text else none

/-- `\s*` -/
def spaces (text : Text) : Text :=
  text.dropWhile isSpace

/-- `[A-Za-z0-9_.\-]` -/
def isNameChar (char : Char) : Bool :=
  (fold char).isAlphanum || char = '_' || char = '.' || char = '-'

/-- `[A-Za-z0-9_.\-]+` -/
def nameRun (text : Text) : Option (String × Text) :=
  if (text.takeWhile isNameChar).isEmpty then none
  else some (String.ofList (text.takeWhile isNameChar),
    text.dropWhile isNameChar)

/-- `(.*?)`, up to the first place where the rest of the pattern matches. -/
def lazily (close : Text → Option Text) : Text → Option (Text × Text)
  | [] => (close []).map fun after => ([], after)
  | char :: text =>
    match close (char :: text) with
    | some after => some ([], after)
    | none => (lazily close text).map fun found =>
      (char :: found.1, found.2)

/-- `\s*` and a literal. -/
def closing (literal : Text) (text : Text) : Option Text :=
  lit literal (spaces text)

def braceThen (close : Text → Option Text) : Text → Option Text
  | '\x7d' :: text => close text
  | _ => none

/-- `(\{.*?\})`, and what closes the pattern. -/
def braced (close : Text → Option Text) : Text → Option (Text × Text)
  | '\x7b' :: text =>
    (lazily (braceThen close) text).map fun found =>
      ('\x7b' :: (found.1 ++ ['\x7d']), found.2)
  | _ => none

/-- `(\{.*?\})?`, and what closes the pattern. -/
def optionallyBraced (close : Text → Option Text) (text : Text) :
    Option (Option Text × Text) :=
  match braced close text with
  | some found => some (some found.1, found.2)
  | none => (close text).map fun after => (none, after)

/-! ## The patterns -/

/--
`_TEXT_TOOLCALL_RE`: `<tool_call>\s*(.*?)\s*</tool_call>`, with the offset of
the group.
-/
def textToolcall : Pattern Char (Nat × Text) := fun text =>
  (lit "<tool_call>".toList text).bind fun inner =>
    (lazily (closing "</tool_call>".toList) (spaces inner)).map fun found =>
      ((text.length - (spaces inner).length, found.1), found.2)

/-- `_FUNCTION_TAG_RE`: `<function=([A-Za-z0-9_.\-]+)>\s*(\{.*?\})?\s*</function>` -/
def functionTag : Pattern Char (String × Option Text) := fun text =>
  (lit "<function=".toList text).bind fun named =>
    (nameRun named).bind fun name =>
      (lit ">".toList name.2).bind fun inner =>
        (optionallyBraced (closing "</function>".toList)
          (spaces inner)).map fun found => ((name.1, found.1), found.2)

/--
`_GEMMA_TOOLCALL_RE`:
`<\|tool_call>\s*call:\s*([A-Za-z0-9_.\-]+)\s*(\{.*?\})?\s*<tool_call\|>`
-/
def gemmaToolcall : Pattern Char (String × Option Text) := fun text =>
  (lit "<|tool_call>".toList text).bind fun inner =>
    (lit "call:".toList (spaces inner)).bind fun called =>
      (nameRun (spaces called)).bind fun name =>
        (optionallyBraced (closing "<tool_call|>".toList)
          (spaces name.2)).map fun found => ((name.1, found.1), found.2)

/-- `(?:json|tool_call)?` -/
def fenceTag (text : Text) : Text :=
  match lit "json".toList text with
  | some after => after
  | none => (lit "tool_call".toList text).getD text

/-- `_FENCED_JSON_RE`: three backticks, the tag, `\s*(\{.*?\})\s*`, and three. -/
def fencedJson : Pattern Char Text := fun text =>
  (lit "```".toList text).bind fun inner =>
    braced (closing "```".toList) (spaces (fenceTag inner))

/-- What the patterns know of the characters: `\w` is a letter, digit or `_`. -/
structure Alphabet where
  isWord : Char → Bool
  blank : isWord ' ' = false

/-- `name\s*=\s*\"([^\"]+)\"\s*>` -/
def nameAttr (text : Text) : Option (String × Text) :=
  (lit "name".toList text).bind fun equals =>
    (lit "=".toList (spaces equals)).bind fun quoted =>
      (lit "\"".toList (spaces quoted)).bind fun value =>
        if (value.takeWhile (· ≠ '"')).isEmpty then none
        else
          (lit "\"".toList (value.dropWhile (· ≠ '"'))).bind fun closed =>
            (lit ">".toList (spaces closed)).map fun after =>
              (String.ofList (value.takeWhile (· ≠ '"')), after)

/-- `[^>]*?\s+`, and the attribute. -/
def inTag : Text → Option (String × Text)
  | [] => none
  | char :: text =>
    (if isSpace char then nameAttr (spaces text) else none).or
      (if char = '>' then none else inTag text)

/-- `(function|param)\b`, as `group(1).lower()` has it. -/
def tagWord (alphabet : Alphabet) (text : Text) : Option (Text × Text) :=
  let word : Option (Nat × Text) :=
    match lit "function".toList text with
    | some after => some (8, after)
    | none => (lit "param".toList text).map fun after => (5, after)
  word.bind fun found =>
    if found.2.head?.any alphabet.isWord then none
    else
      some ((text.take found.1).flatMap fun char =>
        if char = '\u0130' then ['i', '\u0307'] else [char.toLower], found.2)

/--
`_XML_ATTR_TOKEN_RE`:
`(?:<\s*(function|param)\b[^>]*?\s+)?name\s*=\s*\"([^\"]+)\"\s*>`, with the kind
and the name of the token.
-/
def attrToken (alphabet : Alphabet) : Pattern Char (Text × String) :=
  fun text =>
    match lit "<".toList text with
    | some opened =>
      (tagWord alphabet (spaces opened)).bind fun word =>
        (inTag word.2).map fun found => ((word.1, found.1), found.2)
    | none => (nameAttr text).map fun found => (([], found.1), found.2)

/-- `_XML_FUNCTION_CLOSE_RE`: `</\s*function\s*>` -/
def functionClose : Pattern Char Unit := fun text =>
  (lit "</".toList text).bind fun opened =>
    (closing "function".toList opened).bind fun named =>
      (closing ">".toList named).map fun after => ((), after)

/-- `_PARA_BREAK_RE`: `\n[ \t]*\n` -/
def paraBreak : Pattern Char Unit
  | '\n' :: text =>
    match text.dropWhile fun char => char = ' ' ∨ char = '\t' with
    | '\n' :: after => some ((), after)
    | _ => none
  | _ => none

/-- Whether `</\s*param\s*>\s*$` matches at the head of a text. -/
def closesParam (text : Text) : Bool :=
  (((lit "</".toList text).bind (closing "param".toList)).bind
    (closing ">".toList)).any fun after => after.all isSpace

/-- `_XML_PARAM_CLOSE_TAIL_RE.sub("", raw)` -/
def withoutParamClose : Text → Text
  | [] => []
  | char :: text =>
    if closesParam (char :: text) then []
    else char :: withoutParamClose text

/-- `_CDATA_RE`: `\A<!\[CDATA\[(.*)\]\]>\Z` -/
def cdata (value : Text) : Option Text :=
  let opening := "<![CDATA[".toList
  let closing := "]]>".toList
  let inner := value.drop opening.length
  if opening.isPrefixOf value && closing.isSuffixOf inner then
    some (inner.take (inner.length - closing.length))
  else none

/-- `text.strip()` -/
def trim (text : Text) : Text :=
  ((text.dropWhile isSpace).reverse.dropWhile isSpace).reverse

end Hal0.Toolloop
