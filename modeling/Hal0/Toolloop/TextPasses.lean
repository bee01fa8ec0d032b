import Hal0.Toolloop.TextPlaces

/-!
# The passes over a reply

A block belongs to one dialect.  The pass of its dialect takes it whole, and
what another pass matches inside it begins in a stretch which was taken before;
so after all the passes each block has been taken once.
-/

namespace Hal0.Toolloop

open List Option
open Hal0.Scan
open Hal0.Slots.ConfigFiles (isSpace)

/-! ## A scan over a reply -/

/-- The blocks are well-formed, and behind each is plain prose. -/
def AreBlocks (runtime : Runtime) (alphabet : Alphabet)
    (blocks : List (Block × Text)) : Prop :=
  ∀ block ∈ blocks, block.1.WellFormed runtime alphabet ∧
    plain alphabet block.2

theorem Block.follows (block : Block) (rest : Text) :
    Follows (block.render ++ rest) := by
  cases block with
  | wrappedJson lead body trail => exact follows_tag _
  | wrappedTags lead first others trail => exact follows_tag _
  | wrappedElements lead first others trail => exact follows_tag _
  | functionTag tag => exact follows_tag _
  | element item => exact follows_tag _
  | gemma tag => exact follows_tag _
  | fenced label lead body trail => exact Or.inr (Or.inr ⟨_, rfl⟩)

theorem renderBlocks_cons (block : Block × Text)
    (blocks : List (Block × Text)) :
    renderBlocks (block :: blocks) =
      (block.1.render ++ block.2) ++ renderBlocks blocks :=
  flatMap_cons

theorem follows_renderBlocks (blocks : List (Block × Text)) :
    Follows (renderBlocks blocks) := by
  cases blocks with
  | nil => exact Or.inl rfl
  | cons block blocks =>
    rw [renderBlocks_cons, append_assoc]
    exact block.1.follows _

section
variable {runtime : Runtime} {alphabet : Alphabet} {known : List String}
  {α : Type} {pattern : Pattern Char α} {hits : Nat → Block → List (Match α)}
  {blocks : List (Block × Text)} {text : Text}

theorem scans_renderBlocks
    (prose : ∀ text, plain alphabet text → Quiet pattern Follows text)
    (scans : ∀ block : Block, block.WellFormed runtime alphabet →
      Scans pattern Anything block.render fun position => hits position block)
    (areBlocks : AreBlocks runtime alphabet blocks) :
    Scans pattern (· = []) (renderBlocks blocks) fun position =>
      (placed position blocks).flatMap fun place => hits place.1 place.2 := by
  induction blocks with
  | nil => exact Scans.nil
  | cons block blocks ih =>
    obtain ⟨isWell, isPlain⟩ := areBlocks block mem_cons_self
    have first := (scans block.1 isWell).append (prose _ isPlain).scans
      fun _ _ => trivial
    have others := ih fun other isIn =>
      areBlocks other (mem_cons_of_mem block isIn)
    have joins : ∀ rest : Text, rest = [] →
        Follows (renderBlocks blocks ++ rest) := by
      rintro _ rfl
      rw [append_nil]
      exact follows_renderBlocks blocks
    have whole := first.append others joins
    rw [renderBlocks_cons]
    apply whole.congr
    intro position
    rw [placed, flatMap_cons, append_nil]

/-- The reply is composed: plain prose in front of the first block. -/
structure Composed.WellFormed (runtime : Runtime) (alphabet : Alphabet)
    (reply : Composed) : Prop where
  prose : plain alphabet reply.prose
  blocks : AreBlocks runtime alphabet reply.blocks

def Composed.places (reply : Composed) : List (Nat × Block) :=
  placed reply.prose.length reply.blocks

/-- The matches in a reply are those of its blocks. -/
theorem finditer_composed {reply : Composed}
    (prose : ∀ text, plain alphabet text → Quiet pattern Follows text)
    (scans : ∀ block : Block, block.WellFormed runtime alphabet →
      Scans pattern Anything block.render fun position => hits position block)
    (wellFormed : reply.WellFormed runtime alphabet) :
    finditer pattern reply.render =
      reply.places.flatMap fun place => hits place.1 place.2 := by
  have joins : ∀ rest : Text, rest = [] →
      Follows (renderBlocks reply.blocks ++ rest) := by
    rintro _ rfl
    rw [append_nil]
    exact follows_renderBlocks reply.blocks
  have blocks := scans_renderBlocks prose scans wellFormed.blocks
  have whole := (prose _ wellFormed.prose).scans.append blocks joins
  rw [Composed.render, whole.finditer rfl, nil_append, Nat.zero_add]
  rfl

/-! ## The dialects of blocks -/

/-- The dialect, by the pass that reads it. -/
inductive Kind where
  | wrapped
  | functionTag
  | element
  | gemma
  | fenced
deriving DecidableEq

def Block.kind : Block → Kind
  | .wrappedJson _ _ _ => .wrapped
  | .wrappedTags _ _ _ _ => .wrapped
  | .wrappedElements _ _ _ _ => .wrapped
  | .functionTag _ => .functionTag
  | .element _ => .element
  | .gemma _ => .gemma
  | .fenced _ _ _ _ => .fenced

/-- The calls of a placed block, and where they are. -/
def blockFound (runtime : Runtime) (place : Nat × Block) : List Found :=
  match place.2 with
  | .wrappedElements lead first others _ =>
    elementsFound runtime (place.1 + bodyOffset lead)
      (([], first) :: others)
  | block => (block.calls runtime).map fun call =>
    ⟨call.1, call.2, blockSpan place⟩

/-- What a call is read as. -/
def placeCandidate (runtime : Runtime) (place : Nat × Block) : Candidate :=
  ⟨blockSpan place, blockFound runtime place⟩

theorem blockFound_calls (runtime : Runtime) (place : Nat × Block) :
    (blockFound runtime place).map
        (fun found => (found.name, found.arguments)) =
      place.2.calls runtime := by
  obtain ⟨position, block⟩ := place
  cases block with
  | wrappedElements lead first others trail =>
    exact elementsFound_calls runtime _ _
  | _ => simp [blockFound, Function.comp_def]

end

/-! ## What is between a pair of tags -/

/-- What the dialects rely on: the empty object, and that no JSON is a tag. -/
structure Decodes (runtime : Runtime) : Prop where
  empty : runtime.loads "\x7b\x7d" = .value (.obj [])
  noTag : ∀ rest, runtime.loads (String.ofList ('<' :: rest)) = .invalid

theorem spaces_begins {text : Text}
    (begins : ∃ first others, text = first :: others ∧ isSpace first = false) :
    spaces text = text := by
  obtain ⟨first, others, rfl, notBlank⟩ := begins
  exact spaces_cons notBlank others

theorem trim_self {text : Text}
    (begins : ∃ first others, text = first :: others ∧ isSpace first = false)
    (solid : Solid text) : trim text = text := by
  have front : text.dropWhile isSpace = text := spaces_begins begins
  obtain ⟨before, last, rfl, notBlank⟩ := solid
  rw [trim, front, reverse_append, reverse_singleton, singleton_append]
  have back : spaces (last :: before.reverse) = last :: before.reverse :=
    spaces_cons notBlank before.reverse
  unfold spaces at back
  rw [back, reverse_cons, reverse_reverse]

theorem searchFrom_zero {α : Type} (pattern : Pattern Char α) (text : Text) :
    searchFrom pattern 0 text = (finditer pattern text).head? :=
  rfl

section
variable {runtime : Runtime} {alphabet : Alphabet} {known : List String}

theorem coerceArgs_arguments (decodes : Decodes runtime) (tag : Tag) :
    coerceArgs runtime
        (.str (String.ofList (tag.arguments.getD "\x7b\x7d".toList))) =
      (tag.call runtime).2 := by
  cases arguments : tag.arguments with
  | none =>
    have empty : String.ofList "\x7b\x7d".toList = "\x7b\x7d" :=
      String.ofList_toList
    rw [getD_none, empty, coerceArgs, decodes.empty, Tag.call, arguments]
    rfl
  | some raw =>
    rw [getD_some, coerceArgs, Tag.call, arguments]
    rfl

theorem Quiet.of_extended {word first second : Text} {follows : Text → Prop}
    (quiet : Quiet (literal word) follows (first ++ second))
    (isEnd : follows []) : Quiet (literal word) (· = []) first := by
  induction first with
  | nil => trivial
  | cons char first ih =>
    refine ⟨?_, ih quiet.2⟩
    rintro _ rfl
    have nothing : literal word (char :: (first ++ second ++ [])) = none :=
      quiet.1 [] isEnd
    rw [append_nil, literal, map_eq_none_iff] at nothing
    rw [append_nil, literal, map_eq_none_iff]
    cases result : lit word (char :: first) with
    | none => rfl
    | some after =>
      have longer := lit_extend result second
      rw [cons_append, nothing] at longer
      cases longer

theorem jsonBody_noTag {lead body trail : Text}
    (isPlain : plain alphabet (lead ++ (body ++ trail))) :
    searchFrom functionTag 0 body = none := by
  have isTag : "<function=".toList ∈ tagWords := by decide
  have word := Quiet.of_extended (quiet_literal isTag isPlain).right
    (Or.inl rfl)
  have quiet := Quiet.of_literal functionTag_opens word
  rw [searchFrom_zero, quiet.scans.finditer rfl]
  rfl

theorem elementsFound_shift (offset position : Nat)
    (elements : List (Text × Element)) :
    (elementsFound runtime position elements).map (Found.shift offset) =
      elementsFound runtime (offset + position) elements := by
  induction elements generalizing position with
  | nil => rfl
  | cons element elements ih =>
    rw [elementsFound, map_cons, ih, elementsFound,
      Found.shift]
    simp only [Nat.add_assoc]

theorem elementsFound_inside {position : Nat}
    {elements : List (Text × Element)} {found : Found}
    (isFound : found ∈ elementsFound runtime position elements) :
    position ≤ found.region.start ∧ found.region.start < found.region.stop ∧
      found.region.stop ≤ position + (renderElements elements).length := by
  induction elements generalizing position with
  | nil => cases isFound
  | cons element elements ih =>
    have shape : renderElements (element :: elements) =
        (element.1 ++ element.2.render) ++ renderElements elements :=
      flatMap_cons
    have nonempty : 0 < element.2.render.length := by
      have opener := length_pos_iff.mpr element.2.opener_ne_nil
      rw [Element.render, length_append]
      omega
    rw [shape, length_append, length_append]
    rcases mem_cons.mp isFound with rfl | isLater
    · dsimp only
      omega
    · have later := ih isLater
      rw [length_append] at later
      omega

theorem xmlAttrToolCalls_elements {elements : List (Text × Element)}
    (areWell : ∀ element ∈ elements,
      Blank element.1 ∧ element.2.WellFormed alphabet) :
    xmlAttrToolCalls runtime alphabet known (renderElements elements) =
      elementsFound runtime 0 elements := by
  have tokens := (scans_elements alphabet areWell).finditer trivial
  have split : (renderElements elements).drop 0 =
      renderElements elements ++ [] := by
    rw [drop_zero, append_nil]
  have begins : Begins known (0 + (renderElements elements).length) [] := by
    intro token isFirst
    cases isFirst
  have calls := attrCalls_elements runtime alphabet known areWell split begins
  rw [append_nil] at calls
  rw [xmlAttrToolCalls, tokens, calls, attrCalls, append_nil]

/-- A wrapper gives the calls of its block. -/
theorem wrappedCalls_block (decodes : Decodes runtime) {place : Nat × Block}
    (wellFormed : place.2.WellFormed runtime alphabet)
    {inside : Text × Text} (isWrapped : place.2.wrapped? = some inside) :
    wrappedCalls runtime alphabet known
        ⟨blockSpan place, (bodyOffset inside.1, inside.2)⟩ =
      blockFound runtime place := by
  obtain ⟨_, _, _, _, begins, solid, _⟩ := wrapped_spec wellFormed isWrapped
  have trimmed := trim_self begins solid
  have stays := spaces_begins begins
  obtain ⟨position, block⟩ := place
  cases block with
  | wrappedJson lead body trail =>
    cases isWrapped
    obtain ⟨isBody, isPlain⟩ := wellFormed
    obtain ⟨call, isCall⟩ := isSome_iff_exists.mp isBody.call
    have noTag := jsonBody_noTag isPlain
    dsimp only at trimmed
    rw [wrappedCalls]
    dsimp only
    rw [trimmed, noTag, isCall]
    dsimp only
    rw [blockFound]
    dsimp only [Block.calls]
    rw [isCall]
    rfl
  | wrappedTags lead first others trail =>
    cases isWrapped
    obtain ⟨leadBlank, trailBlank, areWell⟩ := wellFormed
    have search : searchFrom functionTag 0
        (renderTags (([], first) :: others)) = some (tagMatch 0 first) := by
      rw [searchFrom_zero, (scans_tags areWell).finditer trivial]
      rfl
    dsimp only at trimmed
    rw [wrappedCalls]
    dsimp only
    rw [trimmed, search]
    dsimp only [tagMatch]
    rw [coerceArgs_arguments decodes]
    rfl
  | wrappedElements lead first others trail =>
    cases isWrapped
    obtain ⟨leadBlank, trailBlank, areWell⟩ := wellFormed
    have deaf := deaf_functionTag alphabet
    have search : searchFrom functionTag 0
        (renderElements (([], first) :: others)) = none := by
      have quiet := deaf.elements (by decide) areWell
      rw [searchFrom_zero, quiet.scans.finditer trivial]
      rfl
    have noJson : jsonCall runtime
        (renderElements (([], first) :: others)) = none := by
      have tag : ∃ rest, renderElements (([], first) :: others) =
          '<' :: rest := ⟨_, rfl⟩
      obtain ⟨rest, shape⟩ := tag
      rw [jsonCall, shape, decodes.noTag]
      rfl
    dsimp only at trimmed stays
    rw [wrappedCalls]
    dsimp only
    rw [trimmed, search, noJson, stays]
    dsimp only
    rw [xmlAttrToolCalls_elements areWell, elementsFound_shift]
    simp only [Nat.sub_self, Nat.add_zero]
    rfl
  | functionTag tag => cases isWrapped
  | element item => cases isWrapped
  | gemma tag => cases isWrapped
  | fenced label lead body trail => cases isWrapped

end

/-! ## What a pass finds in a reply -/

theorem mem_placed {blocks : List (Block × Text)} {position : Nat}
    {place : Nat × Block} (isPlace : place ∈ placed position blocks) :
    position ≤ place.1 ∧ ∃ block ∈ blocks, place.2 = block.1 := by
  induction blocks generalizing position with
  | nil => cases isPlace
  | cons block blocks ih =>
    rcases mem_cons.mp isPlace with rfl | isLater
    · exact ⟨Nat.le_refl _, block, mem_cons_self, rfl⟩
    · obtain ⟨beyond, other, isIn, same⟩ := ih isLater
      exact ⟨by omega, other, mem_cons_of_mem block isIn, same⟩

theorem placed_ordered (position : Nat) (blocks : List (Block × Text)) :
    (placed position blocks).Pairwise fun first second =>
      (blockSpan first).stop ≤ (blockSpan second).start := by
  induction blocks generalizing position with
  | nil => exact List.Pairwise.nil
  | cons block blocks ih =>
    apply List.Pairwise.cons
    · intro later isLater
      have beyond := (mem_placed isLater).1
      rw [length_append] at beyond
      dsimp only [blockSpan]
      omega
    · exact ih _

theorem Block.render_ne_nil (block : Block) : block.render ≠ [] := by
  cases block with
  | wrappedJson lead body trail => exact wrap_ne_nil _ _ _
  | wrappedTags lead first others trail => exact wrap_ne_nil _ _ _
  | wrappedElements lead first others trail => exact wrap_ne_nil _ _ _
  | functionTag tag => exact tag.render_ne_nil
  | element item =>
    exact append_ne_nil_of_left_ne_nil item.opener_ne_nil _
  | gemma tag => exact tag.gemma_ne_nil
  | fenced label lead body trail => exact cons_ne_nil _ _

/--
A pass finds the blocks of its dialect whole, and in the others only what
begins between a pair of `<tool_call>` tags.
-/
structure PassOf (runtime : Runtime) (kind : Kind)
    (places : List (Nat × Block))
    (candidatesAt : Nat × Block → List Candidate) : Prop where
  own : ∀ place ∈ places, place.2.kind = kind →
    candidatesAt place = [placeCandidate runtime place]
  foreign : ∀ place ∈ places, place.2.kind ≠ kind →
    ∀ candidate ∈ candidatesAt place, place.2.kind = .wrapped ∧
      (blockSpan place).Covers candidate.span.start

theorem wrap_length (lead body trail : Text) :
    (wrap lead body trail).length = bodyOffset lead +
      (body.length + (trail ++ "</tool_call>".toList).length) := by
  rw [wrap_parts, length_append, length_append, length_append]
  rfl

theorem tagsMatches_inside {tags : List (Text × Tag)} {position : Nat}
    {found : Match (String × Option Text)}
    (isFound : found ∈ tagsMatches position tags) :
    position ≤ found.span.start ∧
      found.span.start < position + (renderTags tags).length := by
  induction tags generalizing position with
  | nil => cases isFound
  | cons tag tags ih =>
    have shape : renderTags (tag :: tags) =
        (tag.1 ++ tag.2.render) ++ renderTags tags :=
      flatMap_cons
    have nonempty := length_pos_iff.mpr tag.2.render_ne_nil
    rw [shape, length_append, length_append]
    rcases mem_cons.mp isFound with rfl | isLater
    · dsimp only [tagMatch]
      omega
    · have later := ih isLater
      rw [length_append] at later
      omega

section
variable {runtime : Runtime} {alphabet : Alphabet} {known : List String}
  {reply : Composed}

theorem Composed.WellFormed.place
    (wellFormed : reply.WellFormed runtime alphabet) :
    ∀ place ∈ reply.places, place.2.WellFormed runtime alphabet := by
  intro place isPlace
  obtain ⟨_, block, isBlock, same⟩ := mem_placed isPlace
  rw [same]
  exact (wellFormed.blocks block isBlock).1

variable (known) in
/-- The first pass finds the wrappers. -/
theorem wrapped_composed (decodes : Decodes runtime)
    (wellFormed : reply.WellFormed runtime alphabet) :
    ∃ candidatesAt, wrapped runtime alphabet known reply.render =
        reply.places.flatMap candidatesAt ∧
      PassOf runtime .wrapped reply.places candidatesAt := by
  have matches_ := finditer_composed (deaf_textToolcall alphabet).plain
    (fun _ isWell => scans_textToolcall isWell) wellFormed
  refine ⟨_, by rw [wrapped, matches_, map_flatMap], ?_, ?_⟩
  · intro place isPlace isOwn
    have isWell := wellFormed.place place isPlace
    have isSome : ∃ inside, place.2.wrapped? = some inside := by
      obtain ⟨position, block⟩ := place
      cases block with
      | wrappedJson lead body trail => exact ⟨_, rfl⟩
      | wrappedTags lead first others trail => exact ⟨_, rfl⟩
      | wrappedElements lead first others trail => exact ⟨_, rfl⟩
      | _ => cases isOwn
    obtain ⟨inside, isWrapped⟩ := isSome
    rw [wrapperMatches, isWrapped, toList_some, map_singleton,
      map_singleton, wrappedCalls_block decodes isWell isWrapped]
    rfl
  · intro place isPlace notOwn candidate isCandidate
    obtain ⟨position, block⟩ := place
    cases block with
    | wrappedJson lead body trail => exact absurd rfl notOwn
    | wrappedTags lead first others trail => exact absurd rfl notOwn
    | wrappedElements lead first others trail => exact absurd rfl notOwn
    | _ => cases isCandidate

/-- The pass over tags finds the bare ones. -/
theorem functionTags_composed (decodes : Decodes runtime)
    (wellFormed : reply.WellFormed runtime alphabet) :
    ∃ candidatesAt, functionTags runtime reply.render =
        reply.places.flatMap candidatesAt ∧
      PassOf runtime .functionTag reply.places candidatesAt := by
  have matches_ := finditer_composed (deaf_functionTag alphabet).plain
    (fun _ isWell => scans_functionTag isWell) wellFormed
  refine ⟨_, by rw [functionTags, matches_, map_flatMap], ?_, ?_⟩
  · intro place isPlace isOwn
    obtain ⟨position, block⟩ := place
    cases block with
    | functionTag tag =>
      rw [tagMatches, map_singleton, tagMatch, coerceArgs_arguments decodes]
      rfl
    | _ => cases isOwn
  · intro place isPlace notOwn candidate isCandidate
    obtain ⟨position, block⟩ := place
    cases block with
    | wrappedTags lead first others trail =>
      obtain ⟨found, isFound, rfl⟩ := mem_map.mp isCandidate
      have inside := tagsMatches_inside isFound
      have length := wrap_length lead
        (renderTags (([], first) :: others)) trail
      refine ⟨rfl, ?_⟩
      dsimp only [blockSpan, Span.Covers, Block.render]
      omega
    | functionTag tag => exact absurd rfl notOwn
    | _ => cases isCandidate

theorem gemmaCalls_composed
    (wellFormed : reply.WellFormed runtime alphabet) :
    ∃ candidatesAt, gemmaCalls runtime reply.render =
        reply.places.flatMap candidatesAt ∧
      PassOf runtime .gemma reply.places candidatesAt := by
  have matches_ := finditer_composed (deaf_gemmaToolcall alphabet).plain
    (fun _ isWell => scans_gemmaToolcall isWell) wellFormed
  refine ⟨_, by rw [gemmaCalls, matches_, map_flatMap], ?_, ?_⟩
  · intro place isPlace isOwn
    have isWell := wellFormed.place place isPlace
    obtain ⟨position, block⟩ := place
    cases block with
    | gemma tag =>
      have arguments : gemmaArguments runtime tag.arguments =
          some (tag.call runtime).2 := by
        rw [Tag.call]
        cases isArguments : tag.arguments with
        | none => rfl
        | some raw =>
          obtain ⟨_, fields, isObject⟩ := isWell.1.object raw isArguments
          rw [gemmaArguments, bind_some, isObject]
          rfl
      rw [gemmaMatches, map_singleton, arguments]
      rfl
    | _ => cases isOwn
  · intro place isPlace notOwn candidate isCandidate
    obtain ⟨position, block⟩ := place
    cases block with
    | gemma tag => exact absurd rfl notOwn
    | _ => cases isCandidate

theorem fencedCalls_composed
    (wellFormed : reply.WellFormed runtime alphabet) :
    ∃ candidatesAt, fencedCalls runtime reply.render =
        reply.places.flatMap candidatesAt ∧
      PassOf runtime .fenced reply.places candidatesAt := by
  have matches_ := finditer_composed (deaf_fencedJson alphabet).plain
    (fun _ isWell => scans_fencedJson isWell) wellFormed
  refine ⟨_, by rw [fencedCalls, matches_, map_flatMap], ?_, ?_⟩
  · intro place isPlace isOwn
    have isWell := wellFormed.place place isPlace
    obtain ⟨position, block⟩ := place
    cases block with
    | fenced label lead body trail =>
      obtain ⟨call, isCall⟩ := isSome_iff_exists.mp isWell.1.call
      rw [fenceMatches, map_singleton, isCall, placeCandidate, blockFound]
      dsimp only [Block.calls]
      rw [isCall]
    | _ => cases isOwn
  · intro place isPlace notOwn candidate isCandidate
    obtain ⟨position, block⟩ := place
    cases block with
    | fenced label lead body trail => exact absurd rfl notOwn
    | _ => cases isCandidate

/-! ## Attribute-style calls in a reply -/

/-- The attribute-style calls of a placed block. -/
def elementCalls (runtime : Runtime) (place : Nat × Block) : List Found :=
  match place.2 with
  | .wrappedElements lead first others _ =>
    elementsFound runtime (place.1 + bodyOffset lead)
      (([], first) :: others)
  | .element item => elementsFound runtime place.1 [([], item)]
  | _ => []

theorem begins_blocks (known : List String) (position : Nat)
    (blocks : List (Block × Text)) :
    Begins known position
      ((placed position blocks).flatMap fun place =>
        blockTokens place.1 place.2) := by
  induction blocks generalizing position with
  | nil =>
    intro token isFirst
    cases isFirst
  | cons block blocks ih =>
    have later : Begins known position
        ((placed (position + (block.1.render ++ block.2).length)
          blocks).flatMap fun place => blockTokens place.1 place.2) := by
      intro token isFirst
      obtain ⟨starts, beyond⟩ := ih _ token isFirst
      exact ⟨starts, by omega⟩
    obtain ⟨block, prose⟩ := block
    rw [placed, flatMap_cons]
    cases block with
    | wrappedElements lead first others trail =>
      intro token isFirst
      cases isFirst
      refine ⟨rfl, ?_⟩
      dsimp only
      omega
    | element item =>
      intro token isFirst
      cases isFirst
      exact ⟨rfl, Nat.le_refl _⟩
    | _ => exact later

variable (runtime known) in
theorem attrCalls_blocks {blocks : List (Block × Text)}
    (areBlocks : AreBlocks runtime alphabet blocks) {text : Text}
    {position : Nat} (split : text.drop position = renderBlocks blocks) :
    attrCalls runtime known text ((placed position blocks).flatMap
        fun place => blockTokens place.1 place.2) =
      (placed position blocks).flatMap (elementCalls runtime) := by
  induction blocks generalizing position with
  | nil => rfl
  | cons block blocks ih =>
    obtain ⟨isWell, _⟩ := areBlocks block mem_cons_self
    have rest : text.drop
        (position + (block.1.render ++ block.2).length) =
          renderBlocks blocks := by
      rw [← drop_drop, split, renderBlocks_cons, drop_left]
    have others := ih
      (fun other isIn => areBlocks other (mem_cons_of_mem block isIn))
      rest
    have beyond := begins_blocks known
      (position + (block.1.render ++ block.2).length) blocks
    rw [placed, flatMap_cons, flatMap_cons]
    obtain ⟨block, prose⟩ := block
    rw [renderBlocks_cons, append_assoc] at split
    cases block with
    | wrappedElements lead first elements trail =>
      obtain ⟨_, _, areWell⟩ := isWell
      have inner : text.drop (position + bodyOffset lead) =
          renderElements (([], first) :: elements) ++
            ((trail ++ "</tool_call>".toList) ++
              (prose ++ renderBlocks blocks)) := by
        have front : ("<tool_call>".toList ++ lead).length =
            bodyOffset lead :=
          length_append
        rw [← drop_drop, split, Block.render, wrap_parts,
          append_assoc, ← front, drop_left, append_assoc]
      have length := wrap_length lead
        (renderElements (([], first) :: elements)) trail
      have begins : Begins known (position + bodyOffset lead +
          (renderElements (([], first) :: elements)).length)
            ((placed (position + ((Block.wrappedElements lead first
              elements trail).render ++ prose).length) blocks).flatMap
                fun place => blockTokens place.1 place.2) := by
        intro token isFirst
        obtain ⟨starts, isBeyond⟩ := beyond token isFirst
        rw [length_append] at isBeyond
        dsimp only [Block.render] at isBeyond
        exact ⟨starts, by omega⟩
      have calls := attrCalls_elements runtime alphabet known areWell
        inner begins
      rw [others] at calls
      exact calls
    | element item =>
      have begins : Begins known (position + item.render.length)
          ((placed (position + ((Block.element item).render ++
            prose).length) blocks).flatMap
              fun place => blockTokens place.1 place.2) := by
        intro token isFirst
        obtain ⟨starts, isBeyond⟩ := beyond token isFirst
        rw [length_append] at isBeyond
        dsimp only [Block.render] at isBeyond
        exact ⟨starts, by omega⟩
      have calls := attrCalls_element runtime alphabet known isWell split
        begins
      rw [others] at calls
      exact calls
    | _ => exact others

variable (known) in
/-- The last pass finds the bare elements. -/
theorem attributeCalls_composed
    (wellFormed : reply.WellFormed runtime alphabet) :
    ∃ candidatesAt, attributeCalls runtime alphabet known reply.render =
        reply.places.flatMap candidatesAt ∧
      PassOf runtime .element reply.places candidatesAt := by
  have matches_ := finditer_composed
    (fun _ isPlain => quiet_attrToken isPlain)
    (fun _ isWell => scans_attrToken isWell) wellFormed
  have split : reply.render.drop reply.prose.length =
      renderBlocks reply.blocks := by
    rw [Composed.render, drop_left]
  have calls := attrCalls_blocks runtime known wellFormed.blocks split
  have all : xmlAttrToolCalls runtime alphabet known reply.render =
      reply.places.flatMap (elementCalls runtime) := by
    rw [xmlAttrToolCalls, matches_]
    exact calls
  refine ⟨_, by rw [attributeCalls, all, map_flatMap], ?_, ?_⟩
  · intro place isPlace isOwn
    obtain ⟨position, block⟩ := place
    cases block with
    | element item => rfl
    | _ => cases isOwn
  · intro place isPlace notOwn candidate isCandidate
    obtain ⟨position, block⟩ := place
    cases block with
    | wrappedElements lead first others trail =>
      refine ⟨rfl, ?_⟩
      obtain ⟨found, isFound, rfl⟩ := mem_map.mp isCandidate
      have inside := elementsFound_inside isFound
      have length := wrap_length lead
        (renderElements (([], first) :: others)) trail
      dsimp only [blockSpan, Span.Covers, Block.render]
      omega
    | element item => exact absurd rfl notOwn
    | _ => cases isCandidate

end

end Hal0.Toolloop
