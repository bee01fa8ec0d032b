import Hal0.Toolloop.TextCalls
import Hal0.Toolloop.TextQuiet

/-!
# Well-formed calls in a text

The calls a reply is built from: in each dialect what is written, which calls
it stands for, which of them are read, and when it is well-formed.  A part the
dialect leaves to the model (arguments, values) holds no markup itself.

A pattern which is deaf to all tags but its own finds nothing in a block which
does not use that tag.
-/

namespace Hal0.Toolloop

open Hal0.Scan
open Hal0.Slots.ConfigFiles (isSpace)

/-! ## What is written -/

/-- `NAME`, and a JSON object or nothing, between blanks. -/
structure Tag where
  name : Text
  lead : Text
  arguments : Option Text
  trail : Text

def Tag.body (tag : Tag) : Text :=
  tag.lead ++ (tag.arguments.getD [] ++ tag.trail)

/-- What stands between `<function=` and `</function>`. -/
def Tag.inner (tag : Tag) : Text :=
  tag.name ++ '>' :: tag.body

/-- `<function=…>…</function>` -/
def Tag.render (tag : Tag) : Text :=
  "<function=".toList ++ (tag.inner ++ "</function>".toList)

def Tag.gemmaInner (tag : Tag) : Text :=
  "call:".toList ++ (tag.name ++ tag.body)

def Tag.gemma (tag : Tag) : Text :=
  "<|tool_call>".toList ++ (tag.gemmaInner ++ "<tool_call|>".toList)

/-- `<param name="NAME">VALUE</param>`, and blanks. -/
structure Param where
  name : Text
  value : Text
  gap : Text

def Param.opener (param : Param) : Text :=
  "<param name=\"".toList ++ (param.name ++ "\">".toList)

def Param.render (param : Param) : Text :=
  param.opener ++ (param.value ++ ("</param>".toList ++ param.gap))

/-- `<function name="NAME">`, blanks and parameters, `</function>`. -/
structure Element where
  name : Text
  lead : Text
  params : List Param

def Element.opener (element : Element) : Text :=
  "<function name=\"".toList ++ (element.name ++ "\">".toList)

def Element.body (element : Element) : Text :=
  element.lead ++ element.params.flatMap Param.render

/-- `<function name="…">…</function>` -/
def Element.render (element : Element) : Text :=
  element.opener ++ (element.body ++ "</function>".toList)

def renderElements (elements : List (Text × Element)) : Text :=
  elements.flatMap fun element => element.1 ++ element.2.render

def renderTags (tags : List (Text × Tag)) : Text :=
  tags.flatMap fun tag => tag.1 ++ tag.2.render

/-- The calls of a reply, by dialect. -/
inductive Block where
  | wrappedJson (lead body trail : Text)
  | wrappedTags (lead : Text) (first : Tag) (others : List (Text × Tag))
      (trail : Text)
  | wrappedElements (lead : Text) (first : Element)
      (others : List (Text × Element)) (trail : Text)
  | functionTag (tag : Tag)
  | element (item : Element)
  | gemma (tag : Tag)
  | fenced (label lead body trail : Text)

/-- What stands between `<tool_call>` and `</tool_call>`. -/
def wrap (lead body trail : Text) : Text :=
  "<tool_call>".toList ++ (lead ++ (body ++ (trail ++ "</tool_call>".toList)))

/-- A call as it is written. -/
def Block.render : Block → Text
  | .wrappedJson lead body trail => wrap lead body trail
  | .wrappedTags lead first others trail =>
    wrap lead (renderTags (([], first) :: others)) trail
  | .wrappedElements lead first others trail =>
    wrap lead (renderElements (([], first) :: others)) trail
  | .functionTag tag => tag.render
  | .element item => item.render
  | .gemma tag => tag.gemma
  | .fenced label lead body trail =>
    "```".toList ++
      ((label ++ (lead ++ (body ++ trail))) ++ "```".toList)

/-! ## Which calls it stands for -/

/-- The call that a tag stands for. -/
def Tag.call (runtime : Runtime) (tag : Tag) : String × Fields :=
  (String.ofList tag.name,
    (tag.arguments.bind fun raw =>
      (runtime.loads (String.ofList raw)).value?.bind asFields).getD [])

/-- The call that an element stands for. -/
def Element.call (runtime : Runtime) (element : Element) :
    String × Fields :=
  (String.ofList element.name,
    element.params.foldl (fun fields param =>
      assign fields (String.ofList param.name)
        (paramValue runtime param.value)) [])

/-- The calls which are read; of several wrapped tags it is the first. -/
def Block.calls (runtime : Runtime) : Block → List (String × Fields)
  | .wrappedJson _ body _ => (jsonCall runtime body).toList
  | .wrappedTags _ first _ _ => [first.call runtime]
  | .wrappedElements _ first others _ =>
    first.call runtime :: others.map fun element => element.2.call runtime
  | .functionTag tag => [tag.call runtime]
  | .element item => [item.call runtime]
  | .gemma tag => [tag.call runtime]
  | .fenced _ _ body _ => (jsonCall runtime body).toList

/-- The calls which are written. -/
def Block.written (runtime : Runtime) : Block → List (String × Fields)
  | .wrappedTags _ first others _ =>
    first.call runtime :: others.map fun tag => tag.2.call runtime
  | block => block.calls runtime

/-- A wrapper holds one function tag at most. -/
def Block.oneTag : Block → Bool
  | .wrappedTags _ _ others _ => others.isEmpty
  | _ => true

/-! ## When it is well-formed -/

def Blank (text : Text) : Prop :=
  ∀ char ∈ text, isSpace char

instance (text : Text) : Decidable (Blank text) :=
  inferInstanceAs (Decidable (∀ char ∈ text, _))

/-- The text stands in braces. -/
def Braced (text : Text) : Prop :=
  ∃ inside, text = '\x7b' :: (inside ++ ['\x7d'])

/-- No brace in a text but the last is closed like the last one. -/
def sealed (word : Text) : Text → Bool
  | [] => true
  | char :: text =>
    (char ≠ '\x7d' || text.isEmpty || (closing word text).isNone) &&
      sealed word text

/-- A tag without markup in its parts. -/
structure Tag.WellFormed (runtime : Runtime) (tag : Tag) : Prop where
  named : tag.name ≠ [] ∧ ∀ char ∈ tag.name, isNameChar char
  lead : Blank tag.lead
  trail : Blank tag.trail
  object : ∀ raw, tag.arguments = some raw → Braced raw ∧
    ∃ fields, runtime.loads (String.ofList raw) = .value (.obj fields)

def AttrName (name : Text) : Prop :=
  name ≠ [] ∧ ∀ char ∈ name, char ≠ '"' ∧ char ≠ '<' ∧ char ≠ '`'

instance (name : Text) : Decidable (AttrName name) :=
  inferInstanceAs (Decidable (_ ∧ _))

structure Param.WellFormed (alphabet : Alphabet) (param : Param) :
    Prop where
  named : AttrName param.name
  value : plain alphabet param.value
  gap : Blank param.gap

/-- An element without markup in its parts. -/
structure Element.WellFormed (alphabet : Alphabet) (element : Element) :
    Prop where
  named : AttrName element.name
  lead : Blank element.lead
  params : ∀ param ∈ element.params, param.WellFormed alphabet

/-- Between the tags is the JSON of a call. -/
structure JsonBody (runtime : Runtime) (lead body trail : Text) :
    Prop where
  lead : Blank lead
  trail : Blank trail
  braced : Braced body
  call : (jsonCall runtime body).isSome

/-- A call without markup in its parts. -/
def Block.WellFormed (runtime : Runtime) (alphabet : Alphabet) :
    Block → Prop
  | .wrappedJson lead body trail => JsonBody runtime lead body trail ∧
      plain alphabet (lead ++ (body ++ trail))
  | .wrappedTags lead first others trail => Blank lead ∧ Blank trail ∧
      ∀ tag ∈ ([], first) :: others, Blank tag.1 ∧
        tag.2.WellFormed runtime ∧ plain alphabet tag.2.inner
  | .wrappedElements lead first others trail => Blank lead ∧ Blank trail ∧
      ∀ element ∈ ([], first) :: others,
        Blank element.1 ∧ element.2.WellFormed alphabet
  | .functionTag tag => tag.WellFormed runtime ∧ plain alphabet tag.inner
  | .element item => item.WellFormed alphabet
  | .gemma tag => tag.WellFormed runtime ∧ plain alphabet tag.gemmaInner
  | .fenced label lead body trail => JsonBody runtime lead body trail ∧
      plain alphabet (label ++ (lead ++ (body ++ trail))) ∧
      label ∈ [[], "json".toList, "tool_call".toList] ∧
      sealed "```".toList body

/-! ## Deaf patterns -/

/-- The tags blocks are written with. -/
def fixedTags : List Text :=
  ["<tool_call>".toList, "</tool_call>".toList, "<function=".toList,
    "</function>".toList, "<function name=\"".toList, "\">".toList,
    "<param name=\"".toList, "</param>".toList, "<|tool_call>".toList,
    "<tool_call|>".toList, "```".toList]

/-- A pattern which begins only at its own tag, and in markup. -/
structure Deaf (alphabet : Alphabet) {α : Type} (pattern : Pattern Char α)
    (own : Text) : Prop where
  plain : ∀ text, plain alphabet text → Quiet pattern Follows text
  inert : ∀ text, (∀ char ∈ text, char ≠ '<' ∧ char ≠ '`') →
    Quiet pattern Anything text
  fixed : ∀ tag ∈ fixedTags, tag ≠ own → Quiet pattern Anything tag

theorem Blank.inert {text : Text} (isBlank : Blank text) :
    ∀ char ∈ text, char ≠ '<' ∧ char ≠ '`' := by
  intro char isIn
  have blank := isBlank char isIn
  constructor
  · rintro rfl
    cases blank
  · rintro rfl
    cases blank

theorem follows_tag (after : Text) : Follows ('<' :: after) :=
  Or.inr (Or.inl ⟨after, rfl⟩)

section
variable {alphabet : Alphabet} {α : Type} {pattern : Pattern Char α}
  {own : Text}

section

variable (deaf : Deaf alphabet pattern own)
include deaf

theorem Deaf.wrap (notOpen : "<tool_call>".toList ≠ own)
    (notClose : "</tool_call>".toList ≠ own) {lead body trail : Text}
    (leadBlank : Blank lead) (trailBlank : Blank trail)
    (quiet : Quiet pattern Anything body) :
    Quiet pattern Anything (wrap lead body trail) := by
  apply (deaf.fixed _ (by decide) notOpen).append _ fun _ _ => trivial
  apply (deaf.inert _ leadBlank.inert).append _ fun _ _ => trivial
  apply quiet.append _ fun _ _ => trivial
  apply (deaf.inert _ trailBlank.inert).append _ fun _ _ => trivial
  exact deaf.fixed _ (by decide) notClose

theorem Deaf.tag (notOpen : "<function=".toList ≠ own)
    (notClose : "</function>".toList ≠ own) {tag : Tag}
    (isPlain : Toolloop.plain alphabet tag.inner) :
    Quiet pattern Anything tag.render := by
  apply (deaf.fixed _ (by decide) notOpen).append _ fun _ _ => trivial
  apply (deaf.plain _ isPlain).append _ fun rest _ => follows_tag _
  exact deaf.fixed _ (by decide) notClose

theorem Deaf.tags (notOpen : "<function=".toList ≠ own)
    (notClose : "</function>".toList ≠ own) {tags : List (Text × Tag)}
    (areWell : ∀ tag ∈ tags, Blank tag.1 ∧
      Toolloop.plain alphabet tag.2.inner) :
    Quiet pattern Anything (renderTags tags) := by
  induction tags with
  | nil => trivial
  | cons tag tags ih =>
    obtain ⟨isBlank, isPlain⟩ := areWell tag List.mem_cons_self
    have gap := deaf.inert _ isBlank.inert
    have first := gap.append (deaf.tag notOpen notClose isPlain)
      fun _ _ => trivial
    exact first.append (ih fun other isIn =>
      areWell other (List.mem_cons_of_mem tag isIn)) fun _ _ => trivial

theorem Deaf.param (notOpen : "<param name=\"".toList ≠ own)
    (notQuote : "\">".toList ≠ own) (notClose : "</param>".toList ≠ own)
    {param : Param} (wellFormed : param.WellFormed alphabet) :
    Quiet pattern Anything param.render := by
  have name := deaf.inert param.name fun char isIn =>
    (wellFormed.named.2 char isIn).2
  have opener : Quiet pattern Anything param.opener := by
    apply (deaf.fixed _ (by decide) notOpen).append _ fun _ _ => trivial
    apply name.append _ fun _ _ => trivial
    exact deaf.fixed _ (by decide) notQuote
  apply opener.append _ fun _ _ => trivial
  apply (deaf.plain _ wellFormed.value).append _ fun rest _ => follows_tag _
  apply (deaf.fixed _ (by decide) notClose).append _ fun _ _ => trivial
  exact deaf.inert _ wellFormed.gap.inert

theorem Deaf.elementBody (notOpen : "<param name=\"".toList ≠ own)
    (notQuote : "\">".toList ≠ own) (notClose : "</param>".toList ≠ own)
    {element : Element} (wellFormed : element.WellFormed alphabet) :
    Quiet pattern Anything element.body := by
  have params : ∀ params : List Param,
      (∀ param ∈ params, param.WellFormed alphabet) →
        Quiet pattern Anything (params.flatMap Param.render) := by
    intro params areWell
    induction params with
    | nil => trivial
    | cons param params ih =>
      rw [List.flatMap_cons]
      have first := deaf.param notOpen notQuote notClose
        (areWell param List.mem_cons_self)
      apply first.append _ fun _ _ => trivial
      exact ih fun other isIn =>
        areWell other (List.mem_cons_of_mem param isIn)
  apply (deaf.inert _ wellFormed.lead.inert).append _ fun _ _ => trivial
  exact params element.params wellFormed.params

end

end

/-! ## The deaf patterns -/

/-- A literal and a chunk agree as far as both go. -/
def agrees : Text → Text → Bool
  | [], _ => true
  | _ :: _, [] => true
  | char :: literal, head :: text => fold head = char && agrees literal text

/-- The word begins nowhere in the text. -/
def silent (word : Text) : Text → Bool
  | [] => true
  | char :: chunk => !agrees word (char :: chunk) && silent word chunk

theorem agrees_of_lit {word text rest after : Text}
    (matches_ : lit word (text ++ rest) = some after) :
    agrees word text := by
  induction word generalizing text with
  | nil => rfl
  | cons char word ih =>
    cases text with
    | nil => rfl
    | cons head text =>
      rw [List.cons_append, lit] at matches_
      split at matches_
      · rename_i isSame
        rw [agrees, Bool.and_eq_true]
        exact ⟨decide_eq_true isSame, ih matches_⟩
      · cases matches_

theorem quiet_of_silent {word chunk : Text} (isSilent : silent word chunk) :
    Quiet (literal word) Anything chunk := by
  induction chunk with
  | nil => trivial
  | cons char chunk ih =>
    rw [silent, Bool.and_eq_true, Bool.not_eq_true'] at isSilent
    refine ⟨?_, ih isSilent.2⟩
    intro rest _
    rw [literal, Option.map_eq_none_iff]
    cases result : lit word (char :: (chunk ++ rest)) with
    | none => rfl
    | some after =>
      rw [← List.cons_append] at result
      have both := agrees_of_lit result
      rw [isSilent.1] at both
      cases both

theorem quiet_inert {word text : Text} {head : Char}
    (isHead : head = '<' ∨ head = '`')
    (isInert : ∀ char ∈ text, char ≠ '<' ∧ char ≠ '`') :
    Quiet (literal (head :: word)) Anything text := by
  apply Quiet.of_head
  intro char isIn rest
  have differs : fold char ≠ head := by
    intro isSame
    rcases isHead with rfl | rfl
    · exact (isInert char isIn).1 (fold_eq_symbol (by decide) isSame)
    · exact (isInert char isIn).2 (fold_eq_symbol (by decide) isSame)
  rw [literal, lit, if_neg differs]
  rfl

/-- A pattern hears only texts with its own tag. -/
theorem deaf_of_opens {alphabet : Alphabet} {α : Type}
    {pattern : Pattern Char α} {own : Text} (isTag : own ∈ tagWords)
    (opens : ∀ text found, pattern text = some found → (lit own text).isSome)
    (others : ∀ tag ∈ fixedTags, tag ≠ own → silent own tag) :
    Deaf alphabet pattern own where
  plain _ isPlain := Quiet.of_literal opens (quiet_literal isTag isPlain)
  inert _ isInert := by
    obtain ⟨word, rfl, _⟩ := tagWords_tail isTag
    exact Quiet.of_literal opens (quiet_inert (Or.inl rfl) isInert)
  fixed tag isFixed isOther :=
    Quiet.of_literal opens (quiet_of_silent (others tag isFixed isOther))

theorem literal_opens (word text : Text) (found : Unit × Text)
    (isSome : literal word text = some found) : (lit word text).isSome := by
  rw [literal, Option.map_eq_some_iff] at isSome
  obtain ⟨after, isLit, _⟩ := isSome
  rw [isLit]
  rfl

section
variable (alphabet : Alphabet)

theorem deaf_textToolcall :
    Deaf alphabet textToolcall "<tool_call>".toList :=
  deaf_of_opens (by decide) textToolcall_opens (by decide)

theorem deaf_toolcallClose :
    Deaf alphabet (literal "</tool_call>".toList) "</tool_call>".toList :=
  deaf_of_opens (by decide) (literal_opens _) (by decide)

theorem deaf_functionTag :
    Deaf alphabet functionTag "<function=".toList :=
  deaf_of_opens (by decide) functionTag_opens (by decide)

theorem deaf_gemmaToolcall :
    Deaf alphabet gemmaToolcall "<|tool_call>".toList :=
  deaf_of_opens (by decide) gemmaToolcall_opens (by decide)

theorem deaf_fencedJson : Deaf alphabet fencedJson "```".toList where
  plain _ isPlain := quiet_fencedJson isPlain
  inert _ isInert :=
    Quiet.of_literal fencedJson_opens (quiet_inert (Or.inr rfl) isInert)
  fixed := by
    intro tag isFixed isOther
    apply Quiet.of_literal fencedJson_opens
    apply quiet_of_silent
    revert tag
    decide

theorem functionClose_opens (text : Text) (found : Unit × Text)
    (isSome : functionClose text = some found) :
    (lit "</".toList text).isSome := by
  simp only [functionClose, Option.bind_eq_some_iff] at isSome
  obtain ⟨inner, opens, _⟩ := isSome
  rw [opens]
  rfl

theorem deaf_functionClose :
    Deaf alphabet functionClose "</function>".toList where
  plain _ isPlain := quiet_functionClose isPlain
  inert _ isInert :=
    Quiet.of_literal functionClose_opens (quiet_inert (Or.inl rfl) isInert)
  fixed := by
    have slashed : ∀ tag ∈ fixedTags, tag = "</function>".toList ∨
        tag = "</tool_call>".toList ∨ tag = "</param>".toList ∨
          silent "</".toList tag := by
      decide
    have others : ∀ tail : Text, (tail = "tool_call>".toList ∨
        tail = "param>".toList) →
          Quiet functionClose Anything ('<' :: '/' :: tail) := by
      rintro tail (rfl | rfl)
      · refine ⟨fun _ _ => rfl, ?_⟩
        exact Quiet.of_literal functionClose_opens
          (quiet_of_silent (by decide))
      · refine ⟨fun _ _ => rfl, ?_⟩
        exact Quiet.of_literal functionClose_opens
          (quiet_of_silent (by decide))
    intro tag isFixed isOther
    rcases slashed tag isFixed with isOwn | rfl | rfl | isSilent
    · exact absurd isOwn isOther
    · exact others _ (Or.inl rfl)
    · exact others _ (Or.inr rfl)
    · exact Quiet.of_literal functionClose_opens (quiet_of_silent isSilent)

end

end Hal0.Toolloop
