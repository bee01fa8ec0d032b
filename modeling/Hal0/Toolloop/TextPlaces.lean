import Hal0.Toolloop.TextElements

/-!
# The calls of a reply and their places

A reply is prose with calls in between.  Scanned with the pattern of a dialect
it yields, block by block, what the pattern reads in a block; plain prose
yields nothing.
-/

namespace Hal0.Toolloop

open List
open Hal0.Scan
open Hal0.Slots.ConfigFiles (isSpace)

/-! ## Composed replies -/

/-- Calls with prose around them. -/
structure Composed where
  prose : Text
  blocks : List (Block × Text)

def renderBlocks (blocks : List (Block × Text)) : Text :=
  blocks.flatMap fun block => block.1.render ++ block.2

/-- The reply as it is written. -/
def Composed.render (reply : Composed) : Text :=
  reply.prose ++ renderBlocks reply.blocks

/-- The blocks, each with the position it begins at. -/
def placed : Nat → List (Block × Text) → List (Nat × Block)
  | _, [] => []
  | position, block :: blocks =>
    (position, block.1) ::
      placed (position + (block.1.render ++ block.2).length) blocks

/-- Where a call stands. -/
def blockSpan (place : Nat × Block) : Span :=
  ⟨place.1, place.1 + place.2.render.length⟩

/-! ## What the patterns read in a block -/

def bodyOffset (lead : Text) : Nat :=
  "<tool_call>".toList.length + lead.length

/-- The bodies of the blocks between `<tool_call>` tags. -/
def Block.wrapped? : Block → Option (Text × Text)
  | .wrappedJson lead body _ => some (lead, body)
  | .wrappedTags lead first others _ =>
    some (lead, renderTags (([], first) :: others))
  | .wrappedElements lead first others _ =>
    some (lead, renderElements (([], first) :: others))
  | _ => none

def wrapperMatches (position : Nat) (block : Block) :
    List (Match (Nat × Text)) :=
  block.wrapped?.toList.map fun inside =>
    ⟨blockSpan (position, block), (bodyOffset inside.1, inside.2)⟩

def tagMatch (position : Nat) (tag : Tag) : Match (String × Option Text) :=
  ⟨⟨position, position + tag.render.length⟩,
    (String.ofList tag.name, tag.arguments)⟩

/-- The matches of tags, the first of which begins at a position. -/
def tagsMatches : Nat → List (Text × Tag) →
    List (Match (String × Option Text))
  | _, [] => []
  | position, tag :: tags =>
    tagMatch (position + tag.1.length) tag.2 ::
      tagsMatches (position + (tag.1 ++ tag.2.render).length) tags

def tagMatches (position : Nat) : Block → List (Match (String × Option Text))
  | .wrappedTags lead first others _ =>
    tagsMatches (position + bodyOffset lead) (([], first) :: others)
  | .functionTag tag => [tagMatch position tag]
  | _ => []

def blockTokens (position : Nat) : Block → List Token
  | .wrappedElements lead first others _ =>
    elementsTokens (position + bodyOffset lead) (([], first) :: others)
  | .element item => elementTokens position item
  | _ => []

def gemmaMatches (position : Nat) :
    Block → List (Match (String × Option Text))
  | .gemma tag =>
    [⟨⟨position, position + tag.gemma.length⟩,
      (String.ofList tag.name, tag.arguments)⟩]
  | _ => []

def fenceMatches (position : Nat) (block : Block) : List (Match Text) :=
  match block with
  | .fenced _ _ body _ => [⟨blockSpan (position, block), body⟩]
  | _ => []

/-! ## Foreign tags -/

def elementTags : List Text :=
  ["<function name=\"".toList, "\">".toList, "<param name=\"".toList,
    "</param>".toList, "</function>".toList]

/-- How a block is written. -/
inductive Shape where
  | wrappedJson
  | wrappedTags
  | wrappedElements
  | functionTag
  | element
  | gemma
  | fenced
deriving DecidableEq

def Block.shape : Block → Shape
  | .wrappedJson _ _ _ => .wrappedJson
  | .wrappedTags _ _ _ _ => .wrappedTags
  | .wrappedElements _ _ _ _ => .wrappedElements
  | .functionTag _ => .functionTag
  | .element _ => .element
  | .gemma _ => .gemma
  | .fenced _ _ _ _ => .fenced

/-- The tags a block is written with. -/
def Shape.tags : Shape → List Text
  | .wrappedJson => ["<tool_call>".toList, "</tool_call>".toList]
  | .wrappedTags => ["<tool_call>".toList, "</tool_call>".toList,
      "<function=".toList, "</function>".toList]
  | .wrappedElements =>
    "<tool_call>".toList :: "</tool_call>".toList :: elementTags
  | .functionTag => ["<function=".toList, "</function>".toList]
  | .element => elementTags
  | .gemma => ["<|tool_call>".toList, "<tool_call|>".toList]
  | .fenced => ["```".toList]

/-- Which shapes are written with the opening tag of a dialect. -/
def Shape.opens : Shape → Text → Bool
  | .wrappedJson, tag => tag = "<tool_call>".toList
  | .wrappedTags, tag =>
    tag = "<tool_call>".toList || tag = "<function=".toList
  | .wrappedElements, tag => tag = "<tool_call>".toList
  | .functionTag, tag => tag = "<function=".toList
  | .element, _ => false
  | .gemma, tag => tag = "<|tool_call>".toList
  | .fenced, tag => tag = "```".toList

def openingTags : List Text :=
  ["<tool_call>".toList, "<function=".toList, "<|tool_call>".toList,
    "```".toList]

theorem Shape.foreign (shape : Shape) {own : Text}
    (isOpening : own ∈ openingTags) (notOwn : shape.opens own = false) :
    ∀ tag ∈ shape.tags, tag ≠ own := by
  have all : ∀ own ∈ openingTags, shape.opens own = false →
      ∀ tag ∈ shape.tags, tag ≠ own := by
    cases shape with
    | wrappedJson => decide
    | wrappedTags => decide
    | wrappedElements => decide
    | functionTag => decide
    | element => decide
    | gemma => decide
    | fenced => decide
  exact all own isOpening notOwn

section
variable {runtime : Runtime} {alphabet : Alphabet} {α : Type}
  {pattern : Pattern Char α} {own : Text}

theorem follows_fence (after : Text) : Follows ("```".toList ++ after) :=
  Or.inr (Or.inr ⟨after, rfl⟩)

theorem Deaf.element (deaf : Deaf alphabet pattern own)
    (foreign : ∀ tag ∈ elementTags, tag ≠ own) {element : Element}
    (wellFormed : element.WellFormed alphabet) :
    Quiet pattern Anything element.render := by
  have name := deaf.inert element.name fun char isIn =>
    (wellFormed.named.2 char isIn).2
  have opener : Quiet pattern Anything element.opener := by
    apply (deaf.fixed _ (by decide) (foreign _ (by decide))).append _
      fun _ _ => trivial
    apply name.append _ fun _ _ => trivial
    exact deaf.fixed _ (by decide) (foreign _ (by decide))
  have body := deaf.elementBody (foreign _ (by decide))
    (foreign _ (by decide)) (foreign _ (by decide)) wellFormed
  apply opener.append _ fun _ _ => trivial
  apply body.append _ fun _ _ => trivial
  exact deaf.fixed _ (by decide) (foreign _ (by decide))

theorem Deaf.elements (deaf : Deaf alphabet pattern own)
    (foreign : ∀ tag ∈ elementTags, tag ≠ own)
    {elements : List (Text × Element)}
    (areWell : ∀ element ∈ elements,
      Blank element.1 ∧ element.2.WellFormed alphabet) :
    Quiet pattern Anything (renderElements elements) := by
  induction elements with
  | nil => trivial
  | cons element elements ih =>
    obtain ⟨isBlank, isWell⟩ := areWell element mem_cons_self
    have gap := deaf.inert _ isBlank.inert
    have first := gap.append (deaf.element foreign isWell)
      fun _ _ => trivial
    exact first.append (ih fun other isIn =>
      areWell other (mem_cons_of_mem element isIn)) fun _ _ => trivial

theorem wrap_inner (lead body trail : Text) :
    wrap lead body trail = "<tool_call>".toList ++
      ((lead ++ (body ++ trail)) ++ "</tool_call>".toList) := by
  unfold wrap
  generalize "<tool_call>".toList = opening
  generalize "</tool_call>".toList = closing
  simp only [append_assoc]

/-- A block says nothing to a foreign pattern. -/
theorem Deaf.block (deaf : Deaf alphabet pattern own) {block : Block}
    (wellFormed : block.WellFormed runtime alphabet)
    (foreign : ∀ tag ∈ block.shape.tags, tag ≠ own) :
    Quiet pattern Anything block.render := by
  cases block with
  | wrappedJson lead body trail =>
    have foreign : ∀ tag ∈ ["<tool_call>".toList, "</tool_call>".toList],
        tag ≠ own := foreign
    rw [Block.render, wrap_inner]
    apply (deaf.fixed _ (by decide) (foreign _ (by decide))).append _
      fun _ _ => trivial
    apply (deaf.plain _ wellFormed.2).append _ fun rest _ => follows_tag _
    exact deaf.fixed _ (by decide) (foreign _ (by decide))
  | wrappedTags lead first others trail =>
    obtain ⟨leadBlank, trailBlank, areWell⟩ := wellFormed
    have foreign : ∀ tag ∈ ["<tool_call>".toList, "</tool_call>".toList,
        "<function=".toList, "</function>".toList], tag ≠ own := foreign
    apply deaf.wrap (foreign _ (by decide)) (foreign _ (by decide))
      leadBlank trailBlank
    exact deaf.tags (foreign _ (by decide)) (foreign _ (by decide))
      fun tag isTag => ⟨(areWell tag isTag).1, (areWell tag isTag).2.2⟩
  | wrappedElements lead first others trail =>
    obtain ⟨leadBlank, trailBlank, areWell⟩ := wellFormed
    have foreign : ∀ tag ∈ "<tool_call>".toList ::
        "</tool_call>".toList :: elementTags, tag ≠ own := foreign
    apply deaf.wrap (foreign _ (by decide)) (foreign _ (by decide))
      leadBlank trailBlank
    apply deaf.elements _ areWell
    intro tag isTag
    exact foreign tag (mem_cons_of_mem _
      (mem_cons_of_mem _ isTag))
  | functionTag tag =>
    have foreign : ∀ tag ∈ ["<function=".toList, "</function>".toList],
        tag ≠ own := foreign
    exact deaf.tag (foreign _ (by decide)) (foreign _ (by decide))
      wellFormed.2
  | element item => exact deaf.element foreign wellFormed
  | gemma tag =>
    have foreign : ∀ tag ∈ ["<|tool_call>".toList, "<tool_call|>".toList],
        tag ≠ own := foreign
    apply (deaf.fixed _ (by decide) (foreign _ (by decide))).append _
      fun _ _ => trivial
    apply (deaf.plain _ wellFormed.2).append _ fun rest _ => follows_tag _
    exact deaf.fixed _ (by decide) (foreign _ (by decide))
  | fenced label lead body trail =>
    have foreign : ∀ tag ∈ ["```".toList], tag ≠ own := foreign
    apply (deaf.fixed _ (by decide) (foreign _ (by decide))).append _
      fun _ _ => trivial
    apply (deaf.plain _ wellFormed.2.1).append _
      fun rest _ => follows_fence rest
    exact deaf.fixed _ (by decide) (foreign _ (by decide))

end

/-! ## What a scan finds in a block -/

theorem Solid.append {text : Text} (solid : Solid text) (before : Text) :
    Solid (before ++ text) := by
  obtain ⟨inside, last, rfl, notBlank⟩ := solid
  exact ⟨before ++ inside, last, (append_assoc _ _ _).symm, notBlank⟩

theorem solid_tag (before : Text) : Solid (before ++ ['>']) :=
  ⟨before, '>', rfl, by decide⟩

theorem Braced.begins {body : Text} (isBraced : Braced body) :
    ∃ first others, body = first :: others ∧ isSpace first = false := by
  obtain ⟨inside, rfl⟩ := isBraced
  exact ⟨'\x7b', _, rfl, by decide⟩

theorem Braced.solid {body : Text} (isBraced : Braced body) : Solid body := by
  obtain ⟨inside, rfl⟩ := isBraced
  exact ⟨'\x7b' :: inside, '\x7d', rfl, by decide⟩

theorem Tag.begins (tag : Tag) :
    ∃ first others, tag.render = first :: others ∧ isSpace first = false :=
  ⟨'<', _, rfl, by decide⟩

theorem Tag.solid (tag : Tag) : Solid tag.render := by
  have ending : "</function>".toList = "</function".toList ++ ['>'] := by
    decide
  have close : Solid "</function>".toList := by
    rw [ending]
    exact solid_tag _
  exact (close.append _).append _

theorem Element.solid (element : Element) : Solid element.render := by
  have ending : "</function>".toList = "</function".toList ++ ['>'] := by
    decide
  have close : Solid "</function>".toList := by
    rw [ending]
    exact solid_tag _
  exact (close.append _).append _

theorem renderElements_begins (first : Element)
    (others : List (Text × Element)) :
    ∃ char rest, renderElements (([], first) :: others) = char :: rest ∧
      isSpace char = false :=
  ⟨'<', _, rfl, by decide⟩

theorem renderElements_solid (element : Text × Element)
    (others : List (Text × Element)) :
    Solid (renderElements (element :: others)) := by
  induction others generalizing element with
  | nil =>
    have shape : renderElements [element] =
        element.1 ++ element.2.render := by
      rw [renderElements, flatMap_singleton]
    rw [shape]
    exact element.2.solid.append _
  | cons next others ih =>
    have shape : renderElements (element :: next :: others) =
        (element.1 ++ element.2.render) ++
          renderElements (next :: others) :=
      flatMap_cons
    rw [shape]
    exact (ih next).append _

theorem renderTags_solid (tag : Text × Tag) (others : List (Text × Tag)) :
    Solid (renderTags (tag :: others)) := by
  induction others generalizing tag with
  | nil =>
    have shape : renderTags [tag] = tag.1 ++ tag.2.render := by
      rw [renderTags, flatMap_singleton]
    rw [shape]
    exact tag.2.solid.append _
  | cons next others ih =>
    have shape : renderTags (tag :: next :: others) =
        (tag.1 ++ tag.2.render) ++ renderTags (next :: others) :=
      flatMap_cons
    rw [shape]
    exact (ih next).append _

section
variable {runtime : Runtime} {alphabet : Alphabet} {block : Block}

theorem wrapped_spec (wellFormed : block.WellFormed runtime alphabet)
    {inside : Text × Text} (isWrapped : block.wrapped? = some inside) :
    ∃ trail, block.render = wrap inside.1 inside.2 trail ∧
      Blank inside.1 ∧ Blank trail ∧
      (∃ first others, inside.2 = first :: others ∧
        isSpace first = false) ∧
      Solid inside.2 ∧
      Quiet (literal "</tool_call>".toList)
        (fun after => ∃ rest, after = trail ++ ("</tool_call>".toList ++ rest))
        inside.2 := by
  have deaf := deaf_toolcallClose alphabet
  cases block with
  | wrappedJson lead body trail =>
    cases isWrapped
    obtain ⟨isBody, isPlain⟩ := wellFormed
    refine ⟨trail, rfl, isBody.lead, isBody.trail, isBody.braced.begins,
      isBody.braced.solid, ?_⟩
    apply (deaf.plain _ isPlain).right.left.mono
    rintro after ⟨rest, rfl⟩
    exact ⟨_, follows_tag _, rfl⟩
  | wrappedTags lead first others trail =>
    cases isWrapped
    obtain ⟨leadBlank, trailBlank, areWell⟩ := wellFormed
    have quiet := deaf.tags (by decide) (by decide)
      fun tag isTag => ⟨(areWell tag isTag).1, (areWell tag isTag).2.2⟩
    exact ⟨trail, rfl, leadBlank, trailBlank, ⟨'<', _, rfl, by decide⟩,
      renderTags_solid _ _, quiet.mono fun _ _ => trivial⟩
  | wrappedElements lead first others trail =>
    cases isWrapped
    obtain ⟨leadBlank, trailBlank, areWell⟩ := wellFormed
    exact ⟨trail, rfl, leadBlank, trailBlank,
      renderElements_begins first others, renderElements_solid _ _,
      (deaf.elements (by decide) areWell).mono fun _ _ => trivial⟩
  | functionTag tag => cases isWrapped
  | element item => cases isWrapped
  | gemma tag => cases isWrapped
  | fenced label lead body trail => cases isWrapped

theorem wrap_ne_nil (lead body trail : Text) : wrap lead body trail ≠ [] := by
  intro isEmpty
  exact absurd (append_eq_nil_iff.mp isEmpty).1 (by decide)

/-- In a block of another kind nothing is found. -/
theorem scans_foreign {α : Type} {pattern : Pattern Char α} {own : Text}
    (deaf : Deaf alphabet pattern own) (isOpening : own ∈ openingTags)
    (wellFormed : block.WellFormed runtime alphabet)
    (notOwn : block.shape.opens own = false)
    {found : Nat → List (Match α)} (nothing : ∀ position,
      found position = []) :
    Scans pattern Anything block.render found := by
  have quiet := deaf.block wellFormed (block.shape.foreign isOpening notOwn)
  exact quiet.scans.congr fun position => (nothing position).symm

/-- A wrapper is found in its block only. -/
theorem scans_textToolcall (wellFormed : block.WellFormed runtime alphabet) :
    Scans textToolcall Anything block.render fun position =>
      wrapperMatches position block := by
  cases isWrapped : block.wrapped? with
  | some inside =>
    obtain ⟨trail, shape, leadBlank, trailBlank, ⟨first, others, begins,
      notBlank⟩, solid, quiet⟩ := wrapped_spec wellFormed isWrapped
    have whole : Scans textToolcall Anything
        (wrap inside.1 inside.2 trail) _ :=
      Scans.one (wrap_ne_nil _ _ _) fun rest _ =>
        textToolcall_wrap leadBlank trailBlank rest begins notBlank solid
          quiet
    rw [← shape] at whole
    apply whole.congr
    intro position
    rw [wrapperMatches, isWrapped]
    rfl
  | none =>
    apply scans_foreign (deaf_textToolcall alphabet) (by decide) wellFormed
    · cases block with
      | wrappedJson lead body trail => cases isWrapped
      | wrappedTags lead first others trail => cases isWrapped
      | wrappedElements lead first others trail => cases isWrapped
      | _ => rfl
    · intro position
      rw [wrapperMatches, isWrapped]
      rfl

theorem Tag.render_ne_nil (tag : Tag) : tag.render ≠ [] := by
  intro isEmpty
  exact absurd (append_eq_nil_iff.mp isEmpty).1 (by decide)

theorem Tag.gemma_ne_nil (tag : Tag) : tag.gemma ≠ [] := by
  intro isEmpty
  exact absurd (append_eq_nil_iff.mp isEmpty).1 (by decide)

theorem scans_tag {tag : Tag} (wellFormed : tag.WellFormed runtime)
    (isPlain : plain alphabet tag.inner) :
    Scans functionTag Anything tag.render fun position =>
      [tagMatch position tag] :=
  Scans.one tag.render_ne_nil fun rest _ =>
    functionTag_reads wellFormed isPlain rest

theorem scans_tags {tags : List (Text × Tag)}
    (areWell : ∀ tag ∈ tags, Blank tag.1 ∧
      tag.2.WellFormed runtime ∧ plain alphabet tag.2.inner) :
    Scans functionTag Anything (renderTags tags) fun position =>
      tagsMatches position tags := by
  induction tags with
  | nil => exact Scans.nil
  | cons tag tags ih =>
    obtain ⟨isBlank, isWell, isPlain⟩ := areWell tag mem_cons_self
    have gap := (deaf_functionTag alphabet).inert _ isBlank.inert
    have first := gap.scans.append (scans_tag isWell isPlain)
      fun _ _ => trivial
    have others := ih fun other isIn =>
      areWell other (mem_cons_of_mem tag isIn)
    have whole := first.append others fun _ _ => trivial
    exact whole

theorem wrap_parts (lead body trail : Text) :
    wrap lead body trail = ("<tool_call>".toList ++ lead) ++
      (body ++ (trail ++ "</tool_call>".toList)) := by
  unfold wrap
  generalize "<tool_call>".toList = opening
  generalize "</tool_call>".toList = closing
  simp only [append_assoc]

theorem scans_wrap {α : Type} {pattern : Pattern Char α}
    {lead body trail : Text}
    (front : Quiet pattern Anything ("<tool_call>".toList ++ lead))
    (back : Quiet pattern Anything (trail ++ "</tool_call>".toList))
    {found : Nat → List (Match α)}
    (scans : Scans pattern Anything body found) :
    Scans pattern Anything (wrap lead body trail) fun position =>
      found (position + bodyOffset lead) := by
  have whole := front.scans.append
    (scans.append back.scans fun _ _ => trivial) fun _ _ => trivial
  rw [wrap_parts]
  apply whole.congr
  intro position
  rw [nil_append, append_nil, length_append]
  rfl

section

variable (wellFormed : block.WellFormed runtime alphabet)
include wellFormed

theorem scans_functionTag :
    Scans functionTag Anything block.render fun position =>
      tagMatches position block := by
  have deaf := deaf_functionTag alphabet
  cases block with
  | wrappedTags lead first others trail =>
    obtain ⟨leadBlank, trailBlank, areWell⟩ := wellFormed
    have opening := deaf.fixed "<tool_call>".toList (by decide) (by decide)
    have closing := deaf.fixed "</tool_call>".toList (by decide) (by decide)
    have front := opening.append (deaf.inert _ leadBlank.inert)
      fun _ _ => trivial
    have back := (deaf.inert _ trailBlank.inert).append closing
      fun _ _ => trivial
    exact scans_wrap front back (scans_tags areWell)
  | functionTag tag => exact scans_tag wellFormed.1 wellFormed.2
  | _ => exact scans_foreign deaf (by decide) wellFormed rfl fun _ => rfl

theorem scans_gemmaToolcall :
    Scans gemmaToolcall Anything block.render fun position =>
      gemmaMatches position block := by
  cases block with
  | gemma tag =>
    exact Scans.one tag.gemma_ne_nil fun rest _ =>
      gemmaToolcall_reads wellFormed.1 wellFormed.2 rest
  | _ =>
    exact scans_foreign (deaf_gemmaToolcall alphabet) (by decide) wellFormed
      rfl fun _ => rfl

theorem scans_fencedJson :
    Scans fencedJson Anything block.render fun position =>
      fenceMatches position block := by
  cases block with
  | fenced label lead body trail =>
    obtain ⟨isBody, _, isLabel, isSealed⟩ := wellFormed
    have nonempty : (Block.fenced label lead body trail).render ≠ [] := by
      intro isEmpty
      exact absurd (append_eq_nil_iff.mp isEmpty).1 (by decide)
    exact Scans.one nonempty fun rest _ =>
      fencedJson_reads isLabel isBody.lead isBody.trail isBody.braced
        isSealed rest
  | _ =>
    exact scans_foreign (deaf_fencedJson alphabet) (by decide) wellFormed
      rfl fun _ => rfl

end

/-! ## Tokens in a block -/

theorem inTag_of_solid {chunk : Text}
    (notBlank : ∀ char ∈ chunk, isSpace char = false) (rest : Text) :
    inTag (chunk ++ '>' :: rest) = none := by
  induction chunk with
  | nil => rfl
  | cons char chunk ih =>
    have here := notBlank char mem_cons_self
    have later := ih fun other isIn =>
      notBlank other (mem_cons_of_mem char isIn)
    rw [cons_append, inTag, here, later, if_neg Bool.false_ne_true, ite_self]
    rfl

theorem quiet_attrToken_tag {tag : Tag} (wellFormed : tag.WellFormed runtime)
    (isPlain : plain alphabet tag.inner) :
    Quiet (attrToken alphabet) Anything tag.render := by
  have closing : Quiet (attrToken alphabet) Anything "</function>".toList :=
    quiet_attrToken_strange alphabet (by decide)
  have word : Quiet (attrToken alphabet) Anything "function=".toList :=
    quiet_attrToken_of_noName alphabet (by decide)
  have behind := word.append ((quiet_attrToken isPlain).append closing
    fun rest _ => follows_tag _) fun _ _ => trivial
  refine ⟨?_, behind⟩
  intro rest _
  have opens : ∀ text : Text, lit "<".toList ('<' :: text) = some text :=
    fun text => lit_self (by decide) text
  have function : ∀ text : Text,
      lit "function".toList ("function".toList ++ text) = some text :=
    fun text => lit_self (by decide) text
  have named : ∀ text : Text, spaces ("function".toList ++ text) =
      "function".toList ++ text := fun _ => rfl
  have shape : "function=".toList ++
      (tag.inner ++ "</function>".toList) ++ rest =
        "function".toList ++ (('=' :: tag.name) ++
          '>' :: (tag.body ++ ("</function>".toList ++ rest))) := by
    have equals : ∀ text : Text, "function=".toList ++ text =
        "function".toList ++ '=' :: text := fun _ => rfl
    rw [append_assoc, equals, Tag.inner]
    generalize "function".toList = function
    generalize "</function>".toList = closing
    simp only [append_assoc, cons_append]
  have noAttr : inTag (('=' :: tag.name) ++
      '>' :: (tag.body ++ ("</function>".toList ++ rest))) = none := by
    apply inTag_of_solid
    intro char isIn
    rcases mem_cons.mp isIn with rfl | isName
    · decide
    · by_contra isBlank
      have notName := not_nameChar_of_isSpace (Bool.of_not_eq_false isBlank)
      rw [wellFormed.named.2 char isName] at notName
      cases notName
  have result : attrToken alphabet ('<' :: ("function=".toList ++
      (tag.inner ++ "</function>".toList) ++ rest)) = none := by
    rw [shape, attrToken, opens]
    dsimp only
    rw [named, tagWord, function]
    dsimp only [Option.bind_some]
    split
    · rfl
    · rw [Option.bind_some, noAttr]
      rfl
  exact result

theorem quiet_attrToken_tags {tags : List (Text × Tag)}
    (areWell : ∀ tag ∈ tags, Blank tag.1 ∧
      tag.2.WellFormed runtime ∧ plain alphabet tag.2.inner) :
    Quiet (attrToken alphabet) Anything (renderTags tags) := by
  induction tags with
  | nil => trivial
  | cons tag tags ih =>
    obtain ⟨isBlank, isWell, isPlain⟩ := areWell tag mem_cons_self
    have first := (quiet_attrToken_blank alphabet isBlank).append
      (quiet_attrToken_tag isWell isPlain) fun _ _ => trivial
    exact first.append (ih fun other isIn =>
      areWell other (mem_cons_of_mem tag isIn)) fun _ _ => trivial

/-- The element tags of a block are found. -/
theorem scans_attrToken (wellFormed : block.WellFormed runtime alphabet) :
    Scans (attrToken alphabet) Anything block.render fun position =>
      blockTokens position block := by
  have opening : Quiet (attrToken alphabet) Anything "<tool_call>".toList :=
    quiet_attrToken_strange alphabet (by decide)
  have closing : Quiet (attrToken alphabet) Anything "</tool_call>".toList :=
    quiet_attrToken_strange alphabet (by decide)
  cases block with
  | wrappedJson lead body trail =>
    have quiet := opening.append ((quiet_attrToken wellFormed.2).append
      closing fun rest _ => follows_tag _) fun _ _ => trivial
    rw [← wrap_inner] at quiet
    exact quiet.scans
  | wrappedTags lead first others trail =>
    obtain ⟨leadBlank, trailBlank, areWell⟩ := wellFormed
    have front := opening.append (quiet_attrToken_blank alphabet leadBlank)
      fun _ _ => trivial
    have back := (quiet_attrToken_blank alphabet trailBlank).append closing
      fun _ _ => trivial
    exact scans_wrap front back (quiet_attrToken_tags areWell).scans
  | wrappedElements lead first others trail =>
    obtain ⟨leadBlank, trailBlank, areWell⟩ := wellFormed
    have front := opening.append (quiet_attrToken_blank alphabet leadBlank)
      fun _ _ => trivial
    have back := (quiet_attrToken_blank alphabet trailBlank).append closing
      fun _ _ => trivial
    exact scans_wrap front back (scans_elements alphabet areWell)
  | functionTag tag =>
    exact (quiet_attrToken_tag wellFormed.1 wellFormed.2).scans
  | element item => exact scans_element alphabet wellFormed
  | gemma tag =>
    have front : Quiet (attrToken alphabet) Anything
        "<|tool_call>".toList :=
      quiet_attrToken_strange alphabet (by decide)
    have back : Quiet (attrToken alphabet) Anything
        "<tool_call|>".toList :=
      quiet_attrToken_strange alphabet (by decide)
    have quiet := front.append ((quiet_attrToken wellFormed.2).append
      back fun rest _ => follows_tag _) fun _ _ => trivial
    exact quiet.scans
  | fenced label lead body trail =>
    have fence : Quiet (attrToken alphabet) Anything "```".toList :=
      quiet_attrToken_of_noName alphabet (by decide)
    have quiet := fence.append ((quiet_attrToken wellFormed.2.1).append
      fence fun rest _ => follows_fence rest) fun _ _ => trivial
    exact quiet.scans

end

end Hal0.Toolloop
