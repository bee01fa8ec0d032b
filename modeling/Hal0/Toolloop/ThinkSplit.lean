import Hal0.Toolloop.ThinkTags

/-!
# Splitting the reasoning off

`split_thinking` ends a block at the first closing mark, whatever was opened in
it, and looks for a block which the template opened only where nothing else is
opened.  The blocks themselves are nested, and a closing mark which nothing
opened ends one that was opened in front of the reply.
-/

namespace Hal0.Toolloop.Thinking

open Nat
open List
open Hal0.Slots.ConfigFiles (isSpace stripped)
open Hal0.Trim

/-! ## What is expected of it -/

/-- The characters outside the blocks, read at a depth after others. -/
def outsideFrom : Nat → List Char → List Token → List Char
  | _, kept, [] => kept
  | 0, kept, .char char :: rest => outsideFrom 0 (kept ++ [char]) rest
  | depth + 1, kept, .char _ :: rest => outsideFrom (depth + 1) kept rest
  | depth, kept, .mark .opening :: rest => outsideFrom (depth + 1) kept rest
  | depth + 1, kept, .mark .closing :: rest => outsideFrom depth kept rest
  | 0, _, .mark .closing :: rest => outsideFrom 0 [] rest

/-- The text outside the tags. -/
def outside (text : List Char) : List Char :=
  outsideFrom 0 [] (tokens text)

/-- No mark is visible, and of the text just what is outside the blocks. -/
structure ReasoningHidden (content : String) : Prop where
  noMark : ∀ mark : Mark, ¬ mark.text <:+: (splitThinking content).2.toList
  kept : stripped (splitThinking content).2 =
    Trim.trim isSpace (outside content.toList)

/-! ## When it is met -/

/--
The text around blocks which end at the first closing mark, up to a closing
mark which ends none of them.
-/
def around : Bool → List Token → List Char
  | _, [] => []
  | false, .char char :: rest => char :: around false rest
  | false, .mark .opening :: rest => around true rest
  | false, .mark .closing :: _ => []
  | true, .mark .closing :: rest => around false rest
  | true, _ :: rest => around true rest

/-- A closing mark ends none of these blocks. -/
def unpaired : Bool → List Token → Bool
  | _, [] => false
  | false, .char _ :: rest => unpaired false rest
  | false, .mark .opening :: rest => unpaired true rest
  | false, .mark .closing :: _ => true
  | true, .mark .closing :: rest => unpaired false rest
  | true, _ :: rest => unpaired true rest

/-- The text around these blocks after one in which another was opened. -/
def enclosed : Bool → Bool → List Token → List Char
  | _, _, [] => []
  | false, nested, .mark .opening :: rest => enclosed true nested rest
  | true, _, .mark .opening :: rest => enclosed true true rest
  | true, nested, .mark .closing :: rest => enclosed false nested rest
  | false, _, .mark .closing :: _ => []
  | false, true, .char char :: rest => char :: enclosed false true rest
  | false, false, .char _ :: rest => enclosed false false rest
  | true, nested, .char _ :: rest => enclosed true nested rest

/-- No tag opens, and at most one closes. -/
def Prefilled (sequence : List Token) : Prop :=
  .mark .opening ∉ sequence ∧ sequence.count (.mark .closing) ≤ 1

/-- Each block is closed by its first closing mark, or by the last of all. -/
structure Paired (sequence : List Token) : Prop where
  opens : .mark .opening ∈ sequence
  paired : unpaired false sequence = false
  unformed : ∀ mark : Mark, ¬ mark.text <:+: around false sequence
  enclosed : ∀ char ∈ enclosed false false sequence, isSpace char

/--
An opening mark is formed around the blocks, and the text in front of it is, by
chance, what is outside.
-/
def Formed (sequence : List Token) : Prop :=
  .mark .opening ∈ sequence ∧
    ∃ front after,
      around false sequence = front ++ Mark.opening.text ++ after ∧
        (∀ mark : Mark, ¬ mark.text <:+: front) ∧
          Trim.trim isSpace front = Trim.trim isSpace (outsideFrom 0 [] sequence)

/-! ## A reply without an opening mark -/

variable {sequence : List Token}

theorem outsideFrom_chars (kept : List Char)
    (noMark : ∀ mark : Mark, .mark mark ∉ sequence) :
    outsideFrom 0 kept sequence = kept ++ render sequence := by
  induction sequence generalizing kept with
  | nil => exact (append_nil kept).symm
  | cons token sequence ih =>
    have later : ∀ mark : Mark, .mark mark ∉ sequence :=
      fun mark isIn => noMark mark (mem_cons_of_mem _ isIn)
    cases token with
    | char char =>
      rw [outsideFrom, ih _ later, render_char,
        append_assoc]
      rfl
    | mark mark => exact absurd mem_cons_self (noMark mark)

theorem outsideFrom_prefilled (kept : List Char) {before after : List Token}
    (noMark : ∀ mark : Mark, .mark mark ∉ before) :
    outsideFrom 0 kept (before ++ .mark .closing :: after) =
      outsideFrom 0 [] after := by
  induction before generalizing kept with
  | nil => rfl
  | cons token before ih =>
    have later : ∀ mark : Mark, .mark mark ∉ before :=
      fun mark isIn => noMark mark (mem_cons_of_mem _ isIn)
    cases token with
    | char char =>
      rw [cons_append, outsideFrom, ih _ later]
    | mark mark => exact absurd mem_cons_self (noMark mark)

theorem mark_solid (mark : Mark) :
    ∀ char ∈ mark.text, isSpace char = false := by
  cases mark <;> decide

theorem trim_strip (text : List Char) :
    stripped (strip (String.ofList text)) = Trim.trim isSpace text := by
  have same : ∀ text, stripped (String.ofList text) = Trim.trim isSpace text := by
    intro text
    rw [stripped, String.toList_ofList]
    rfl
  rw [strip, same, same, trim_trim]

theorem mark_infix_strip (mark : Mark) (text : List Char) :
    mark.text <:+: (strip (String.ofList text)).toList ↔
      mark.text <:+: text := by
  have same : (strip (String.ofList text)).toList = Trim.trim isSpace text := by
    rw [strip, String.toList_ofList, stripped, String.toList_ofList]
    rfl
  rw [same]
  exact infix_trim_iff isSpace (mark_solid mark) mark.text_ne_nil text

variable {content : String} {text : List Char}

theorem hidden_of_strip
    (isVisible : (splitThinking content).2 = strip (String.ofList text)) :
    ReasoningHidden content ↔
      (∀ mark : Mark, ¬ mark.text <:+: text) ∧
        Trim.trim isSpace text = Trim.trim isSpace (outside content.toList) := by
  constructor
  · rintro ⟨noMark, kept⟩
    refine ⟨fun mark isInfix => noMark mark ?_, ?_⟩
    · rw [isVisible]
      exact (mark_infix_strip mark text).mpr isInfix
    · rw [← kept, isVisible, trim_strip]
  · rintro ⟨noMark, kept⟩
    refine ⟨fun mark isInfix => noMark mark ?_, ?_⟩
    · rw [isVisible] at isInfix
      exact (mark_infix_strip mark text).mp isInfix
    · rw [isVisible, trim_strip, kept]

variable {before : List Char}

theorem visible_unopened {after : List Char}
    (unopened : partitionAt Mark.opening.text content.toList = none)
    (closed : partitionAt Mark.closing.text content.toList =
      some (before, after)) :
    (splitThinking content).2 = strip (String.ofList after) := by
  change partitionAt "<think>".toList content.toList = none at unopened
  change partitionAt "</think>".toList content.toList = _ at closed
  rw [splitThinking]
  dsimp only
  rw [unopened, closed]

theorem visible_unmarked
    (unopened : partitionAt Mark.opening.text content.toList = none)
    (unclosed : partitionAt Mark.closing.text content.toList = none) :
    (splitThinking content).2 = content := by
  change partitionAt "<think>".toList content.toList = none at unopened
  change partitionAt "</think>".toList content.toList = none at unclosed
  rw [splitThinking]
  dsimp only
  rw [unopened, unclosed]

theorem hidden_unopened (unopened : .mark .opening ∉ tokens content.toList) :
    ReasoningHidden content ↔
      (tokens content.toList).count (.mark .closing) ≤ 1 := by
  have read := read_tokens content.toList
  have isContent := render_tokens content.toList
  have noOpening : partitionAt Mark.opening.text content.toList = none := by
    rw [partitionAt_eq_none Mark.opening.text_ne_nil, ← isContent,
      mark_infix_iff _ read]
    exact unopened
  rcases partitionAt_read .closing read with
    ⟨unclosed, noClosing⟩ | ⟨before, after, parts, notBefore, closed⟩
  · rw [isContent] at noClosing
    have noMark : ∀ mark : Mark, .mark mark ∉ tokens content.toList := by
      rintro (_ | _)
      · exact unopened
      · exact unclosed
    have visible := visible_unmarked noOpening noClosing
    constructor
    · intro _
      rw [count_eq_zero.mpr unclosed]
      exact zero_le 1
    · intro _
      refine ⟨fun mark isInfix => ?_, ?_⟩
      · rw [visible, ← isContent, mark_infix_iff _ read] at isInfix
        exact noMark mark isInfix
      · rw [visible, outside, outsideFrom_chars [] noMark, isContent]
        rfl
  · rw [isContent] at closed
    rw [hidden_of_strip (visible_unopened noOpening closed)]
    have readAfter : Read after := by
      have later := read
      rw [parts] at later
      exact (Read.of_append later).tail
    have unopenedParts := unopened
    rw [parts, mem_append, mem_cons, not_or, not_or]
      at unopenedParts
    obtain ⟨notOpen, _, notLater⟩ := unopenedParts
    have noMark : ∀ mark : Mark, .mark mark ∉ before := by
      rintro (_ | _)
      · exact notOpen
      · exact notBefore
    have counted : (tokens content.toList).count (.mark .closing) =
        after.count (.mark .closing) + 1 := by
      rw [parts, count_append, count_cons_self,
        count_eq_zero.mpr notBefore, Nat.zero_add]
    rw [counted]
    constructor
    · rintro ⟨noVisible, _⟩
      have notClosed : .mark .closing ∉ after := fun isIn =>
        noVisible .closing ((mark_infix_iff _ readAfter).mpr isIn)
      rw [count_eq_zero.mpr notClosed]
    · intro atMost
      have notClosed : .mark .closing ∉ after :=
        count_eq_zero.mp (by omega)
      have noLater : ∀ mark : Mark, .mark mark ∉ after := by
        rintro (_ | _)
        · exact notLater
        · exact notClosed
      refine ⟨fun mark isInfix => ?_, ?_⟩
      · exact noLater mark ((mark_infix_iff _ readAfter).mp isInfix)
      · rw [outside, parts, outsideFrom_prefilled [] noMark,
          outsideFrom_chars [] noLater]
        rfl

/-! ## A reply with an opening mark -/

theorem around_unopened {before : List Token}
    (unopened : .mark .opening ∉ before) (rest : List Token) :
    (around false (before ++ rest) = render before ++ around false rest ∧
        unpaired false (before ++ rest) = unpaired false rest) ∨
      (unpaired false (before ++ rest) = true ∧
        ∃ left, render before =
          around false (before ++ rest) ++ (Mark.closing.text ++ left)) := by
  induction before with
  | nil => exact Or.inl ⟨rfl, rfl⟩
  | cons token before ih =>
    have later := ih
      fun isIn => unopened (mem_cons_of_mem _ isIn)
    cases token with
    | char char =>
      rw [cons_append, around, unpaired, render_char]
      rcases later with ⟨isAround, isUnpaired⟩ | ⟨isUnpaired, left, parts⟩
      · exact Or.inl ⟨by rw [isAround]; rfl, isUnpaired⟩
      · exact Or.inr ⟨isUnpaired, left, by rw [parts]; rfl⟩
    | mark mark =>
      cases mark with
      | opening => exact absurd mem_cons_self unopened
      | closing =>
        exact Or.inr ⟨rfl, render before, render_mark .closing before⟩

theorem around_block {inside : List Token}
    (unclosed : .mark .closing ∉ inside) (rest : List Token) :
    around true (inside ++ .mark .closing :: rest) = around false rest ∧
      unpaired true (inside ++ .mark .closing :: rest) =
        unpaired false rest := by
  induction inside with
  | nil => exact ⟨rfl, rfl⟩
  | cons token inside ih =>
    have later := ih
      fun isIn => unclosed (mem_cons_of_mem _ isIn)
    cases token with
    | char char => exact later
    | mark mark =>
      cases mark with
      | opening => exact later
      | closing => exact absurd mem_cons_self unclosed

theorem around_open {inside : List Token}
    (unclosed : .mark .closing ∉ inside) :
    around true inside = [] ∧ unpaired true inside = false := by
  induction inside with
  | nil => exact ⟨rfl, rfl⟩
  | cons token inside ih =>
    have later := ih
      fun isIn => unclosed (mem_cons_of_mem _ isIn)
    cases token with
    | char char => exact later
    | mark mark =>
      cases mark with
      | opening => exact later
      | closing => exact absurd mem_cons_self unclosed

/-- What remains without the blocks begins with the text around them. -/
structure Remains (sequence : List Token) (text tail : List Char) : Prop where
  parts : text = around false sequence ++ tail
  closing : unpaired false sequence = true → Mark.closing.text <+: tail
  opening : unpaired false sequence = false →
    tail = [] ∨ Mark.opening.text <+: tail

theorem thinkBlocks_unopened {fuel : Nat}
    (unopened : partitionAt Mark.opening.text text = none) :
    (thinkBlocks fuel text).2 = text := by
  change partitionAt "<think>".toList text = none at unopened
  cases fuel with
  | zero => rfl
  | succ fuel => rw [thinkBlocks, unopened]

theorem thinkBlocks_unclosed {fuel : Nat} {opened : List Char}
    (isOpened : partitionAt Mark.opening.text text = some (before, opened))
    (unclosed : partitionAt Mark.closing.text opened = none) :
    (thinkBlocks fuel text).2 = text := by
  change partitionAt "<think>".toList text = _ at isOpened
  change partitionAt "</think>".toList opened = none at unclosed
  cases fuel with
  | zero => rfl
  | succ fuel =>
    rw [thinkBlocks, isOpened]
    dsimp only
    rw [unclosed]

theorem thinkBlocks_closed {fuel : Nat} {opened inside after : List Char}
    (isOpened : partitionAt Mark.opening.text text = some (before, opened))
    (isClosed : partitionAt Mark.closing.text opened =
      some (inside, after)) :
    (thinkBlocks (fuel + 1) text).2 =
      before ++ (thinkBlocks fuel after).2 := by
  change partitionAt "<think>".toList text = _ at isOpened
  change partitionAt "</think>".toList opened = _ at isClosed
  rw [thinkBlocks, isOpened]
  dsimp only
  rw [isClosed]

theorem thinkBlocks_remains (fuel : Nat) (read : Read sequence)
    (enough : (render sequence).length ≤ fuel) :
    ∃ tail, Remains sequence (thinkBlocks fuel (render sequence)).2 tail := by
  induction fuel generalizing sequence with
  | zero =>
    have isNil : sequence = [] := by
      rw [← read, length_eq_zero_iff.mp (le_zero.mp enough)]
      rfl
    subst isNil
    exact ⟨[], rfl, nofun, fun _ => Or.inl rfl⟩
  | succ fuel ih =>
    rcases partitionAt_read .opening read with
      ⟨unopened, noOpening⟩ | ⟨before, opened, rfl, notBefore, isOpened⟩
    · rw [thinkBlocks_unopened noOpening]
      have cases_ := around_unopened unopened []
      rw [append_nil] at cases_
      rcases cases_ with ⟨isAround, isUnpaired⟩ | ⟨isUnpaired, left, parts⟩
      · refine ⟨[], ?_, ?_, fun _ => Or.inl rfl⟩
        · rw [isAround, append_nil]
          exact (append_nil _).symm
        · rw [isUnpaired]
          nofun
      · refine ⟨Mark.closing.text ++ left, parts,
          fun _ => prefix_append _ _, ?_⟩
        rw [isUnpaired]
        nofun
    · have readOpened : Read opened := (Read.of_append read).tail
      have cases_ := around_unopened notBefore (.mark .opening :: opened)
      rcases partitionAt_read .closing readOpened with
        ⟨unclosed, noClosing⟩ | ⟨inside, after, rfl, notInside, isClosed⟩
      · rw [thinkBlocks_unclosed isOpened noClosing, render_append,
          render_mark]
        obtain ⟨isEmpty, isPaired⟩ := around_open unclosed
        rcases cases_ with
          ⟨isAround, isUnpaired⟩ | ⟨isUnpaired, left, parts⟩
        · rw [around, isEmpty, append_nil] at isAround
          rw [unpaired, isPaired] at isUnpaired
          refine ⟨Mark.opening.text ++ render opened, ?_, ?_,
            fun _ => Or.inr (prefix_append _ _)⟩
          · rw [isAround]
          · rw [isUnpaired]
            nofun
        · refine ⟨Mark.closing.text ++ left ++
            (Mark.opening.text ++ render opened), ?_, fun _ => ?_, ?_⟩
          · rw [parts]
            simp only [append_assoc]
          · rw [append_assoc]
            exact prefix_append _ _
          · rw [isUnpaired]
            nofun
      · have readAfter : Read after := (Read.of_append readOpened).tail
        rw [thinkBlocks_closed isOpened isClosed]
        have shorter : (render after).length ≤ fuel := by
          rw [render_append, render_mark, render_append, render_mark]
            at enough
          simp only [length_append, Mark.text, length_cons]
            at enough
          omega
        obtain ⟨tail, remains⟩ := ih readAfter shorter
        obtain ⟨isLater, isPaired⟩ := around_block notInside after
        rcases cases_ with
          ⟨isAround, isUnpaired⟩ | ⟨isUnpaired, left, parts⟩
        · rw [around, isLater] at isAround
          rw [unpaired, isPaired] at isUnpaired
          refine ⟨tail, ?_, ?_, ?_⟩
          · rw [isAround, append_assoc, ← remains.parts]
          · rw [isUnpaired]
            exact remains.closing
          · rw [isUnpaired]
            exact remains.opening
        · refine ⟨Mark.closing.text ++ left ++
            (thinkBlocks fuel (render after)).2, ?_, fun _ => ?_, ?_⟩
          · rw [parts]
            simp only [append_assoc]
          · rw [append_assoc]
            exact prefix_append _ _
          · rw [isUnpaired]
            nofun

theorem outsideFrom_nested {inside : Bool} {depth : Nat} (kept : List Char)
    (deep : inside.toNat < depth) (paired : unpaired inside sequence = false) :
    outsideFrom depth kept sequence = kept ∧
      around inside sequence = enclosed inside true sequence := by
  induction sequence generalizing inside depth with
  | nil => cases inside <;> cases depth <;> exact ⟨rfl, rfl⟩
  | cons token sequence ih =>
    obtain ⟨depth, rfl⟩ := exists_eq_succ_of_ne_zero
      (ne_of_gt (zero_lt_of_lt deep))
    cases token with
    | char char =>
      cases inside with
      | false =>
        obtain ⟨isKept, same⟩ := ih deep paired
        exact ⟨isKept, congrArg (char :: ·) same⟩
      | true => exact ih deep paired
    | mark mark =>
      cases mark with
      | opening =>
        have deeper : Bool.toNat true < depth + 1 + 1 :=
          succ_lt_succ (zero_lt_succ depth)
        cases inside with
        | false => exact ih deeper paired
        | true => exact ih deeper paired
      | closing =>
        cases inside with
        | false => cases paired
        | true =>
          exact ih (lt_of_succ_lt_succ deep)
            paired

theorem outsideFrom_paired {inside : Bool} (kept : List Char)
    (paired : unpaired inside sequence = false) :
    outsideFrom inside.toNat kept sequence ++ enclosed inside false sequence =
      kept ++ around inside sequence := by
  induction sequence generalizing inside kept with
  | nil => cases inside <;> rfl
  | cons token sequence ih =>
    cases token with
    | char char =>
      cases inside with
      | false =>
        have later := ih (kept ++ [char]) paired
        rw [append_assoc] at later
        exact later
      | true => exact ih kept paired
    | mark mark =>
      cases mark with
      | opening =>
        cases inside with
        | false => exact @ih true kept paired
        | true =>
          have deep : Bool.toNat true < 2 := Nat.one_lt_two
          obtain ⟨isKept, same⟩ :
              outsideFrom 2 kept sequence = kept ∧
                around true sequence = enclosed true true sequence :=
            outsideFrom_nested kept deep paired
          change outsideFrom 2 kept sequence ++
            enclosed true true sequence = kept ++ around true sequence
          rw [isKept, same]
      | closing =>
        cases inside with
        | false => cases paired
        | true => exact @ih false kept paired

theorem visible_opened {parts : List Char × List Char}
    (opened : partitionAt Mark.opening.text content.toList = some parts) :
    (splitThinking content).2 = strip (String.ofList
      (match partitionAt Mark.opening.text
          (thinkBlocks content.toList.length content.toList).2 with
        | some (visible, _) => visible
        | none => (thinkBlocks content.toList.length content.toList).2)) := by
  change partitionAt "<think>".toList content.toList = _ at opened
  rw [splitThinking]
  dsimp only
  rw [opened]
  change _ = strip (String.ofList (match partitionAt "<think>".toList
    (thinkBlocks content.toList.length content.toList).2 with
      | some (visible, _) => visible
      | none => (thinkBlocks content.toList.length content.toList).2))
  cases partitionAt "<think>".toList
    (thinkBlocks content.toList.length content.toList).2 <;> rfl

theorem visible_cases {tail : List Char}
    (opens : .mark .opening ∈ tokens content.toList)
    (isText : (thinkBlocks content.toList.length content.toList).2 = text)
    (remains : Remains (tokens content.toList) text tail) :
    ∃ visible, (splitThinking content).2 = strip (String.ofList visible) ∧
      match partitionAt Mark.opening.text
          (around false (tokens content.toList)) with
      | some (front, _) => visible = front
      | none =>
        if unpaired false (tokens content.toList) then
          Mark.closing.text <:+: visible
        else visible = around false (tokens content.toList) := by
  have opened : partitionAt Mark.opening.text content.toList ≠ none := by
    rw [Ne, partitionAt_eq_none Mark.opening.text_ne_nil, not_not,
      ← render_tokens content.toList,
      mark_infix_iff _ (read_tokens content.toList)]
    exact opens
  obtain ⟨parts, isOpened⟩ := Option.ne_none_iff_exists'.mp opened
  have isVisible := visible_opened isOpened
  rw [isText, remains.parts] at isVisible
  refine ⟨_, isVisible, ?_⟩
  cases isFormed : partitionAt Mark.opening.text
      (around false (tokens content.toList)) with
  | some found =>
    rw [partitionAt_append Mark.opening.text_ne_nil isFormed]
  | none =>
    have notFormed :=
      (partitionAt_eq_none Mark.opening.text_ne_nil).mp isFormed
    cases isUnpaired : unpaired false (tokens content.toList) with
    | true =>
      obtain ⟨left, rfl⟩ := remains.closing isUnpaired
      have skipped := partitionAt_skip .opening notFormed
        (Mark.closing.word ++ left)
      change partitionAt Mark.opening.text
        (_ ++ (Mark.closing.text ++ left)) = (partitionAt
          Mark.opening.text (Mark.closing.text ++ left)).map _ at skipped
      rw [skipped, partitionAt_other (by decide)]
      dsimp only
      rw [if_pos rfl]
      cases partitionAt Mark.opening.text left with
      | none =>
        exact ⟨around false (tokens content.toList), left,
          append_assoc _ _ _⟩
      | some found =>
        exact ⟨around false (tokens content.toList), found.1,
          append_assoc _ _ _⟩
    | false =>
      rcases remains.opening isUnpaired with rfl | ⟨left, rfl⟩
      · rw [append_nil, isFormed]
        rfl
      · have skipped := partitionAt_skip .opening notFormed
          (Mark.opening.word ++ left)
        change partitionAt Mark.opening.text
          (_ ++ (Mark.opening.text ++ left)) = (partitionAt
            Mark.opening.text (Mark.opening.text ++ left)).map _
            at skipped
        rw [skipped, partitionAt_of_leading Mark.opening.text_ne_nil
          (prefix_append _ _)]
        exact append_nil _

theorem hidden_opened (opens : .mark .opening ∈ tokens content.toList) :
    ReasoningHidden content ↔
      Paired (tokens content.toList) ∨ Formed (tokens content.toList) := by
  have enough : (render (tokens content.toList)).length ≤
      content.toList.length := by
    rw [render_tokens]
  obtain ⟨tail, remains⟩ := thinkBlocks_remains content.toList.length
    (read_tokens content.toList) enough
  rw [render_tokens] at remains
  obtain ⟨visible, isVisible, which⟩ := visible_cases opens rfl remains
  rw [hidden_of_strip isVisible]
  cases isFormed : partitionAt Mark.opening.text
      (around false (tokens content.toList)) with
  | some found =>
    obtain ⟨front, after⟩ := found
    rw [isFormed] at which
    have isFront : visible = front := which
    subst isFront
    obtain ⟨notFront, isAround⟩ :=
      partitionAt_front Mark.opening.text_ne_nil isFormed
    constructor
    · rintro ⟨noMark, kept⟩
      exact Or.inr ⟨opens, visible, after, isAround, noMark, kept⟩
    · rintro (paired | ⟨_, front, later, sameAround, noMark, kept⟩)
      · have notFormed := (partitionAt_eq_none
          Mark.opening.text_ne_nil).mpr (paired.unformed .opening)
        rw [isFormed] at notFormed
        cases notFormed
      · have skipped := partitionAt_skip .opening (noMark .opening)
          (Mark.opening.word ++ later)
        change partitionAt Mark.opening.text
          (_ ++ (Mark.opening.text ++ later)) = (partitionAt
            Mark.opening.text (Mark.opening.text ++ later)).map _
            at skipped
        rw [← append_assoc, ← sameAround, isFormed,
          partitionAt_of_leading Mark.opening.text_ne_nil
            (prefix_append _ _)] at skipped
        have same : visible = front := by
          have found := Option.some.inj skipped
          rw [Prod.mk.injEq, append_nil] at found
          exact found.1
        rw [same]
        exact ⟨noMark, kept⟩
  | none =>
    rw [isFormed] at which
    have notFormed :=
      (partitionAt_eq_none Mark.opening.text_ne_nil).mp isFormed
    have notAnother : ¬ Formed (tokens content.toList) := by
      rintro ⟨_, front, later, sameAround, _⟩
      exact notFormed ⟨front, later, sameAround.symm⟩
    cases isUnpaired : unpaired false (tokens content.toList) with
    | true =>
      rw [isUnpaired] at which
      have leaks : Mark.closing.text <:+: visible := which
      constructor
      · rintro ⟨noMark, _⟩
        exact absurd leaks (noMark .closing)
      · rintro (paired | formed)
        · rw [paired.paired] at isUnpaired
          cases isUnpaired
        · exact absurd formed notAnother
    | false =>
      rw [isUnpaired] at which
      have isAround : visible = around false (tokens content.toList) :=
        which
      have parts := outsideFrom_paired [] isUnpaired
      rw [nil_append] at parts
      have trims := trim_append_eq_iff isSpace (outside content.toList)
        (enclosed false false (tokens content.toList))
      change Trim.trim isSpace (outsideFrom 0 [] _ ++ _) = _ ↔ _ at trims
      change outsideFrom 0 [] _ ++ _ = _ at parts
      rw [parts] at trims
      rw [isAround]
      constructor
      · rintro ⟨noMark, kept⟩
        exact Or.inl ⟨opens, isUnpaired, noMark, trims.mp kept⟩
      · rintro (paired | formed)
        · exact ⟨paired.unformed, trims.mpr paired.enclosed⟩
        · exact absurd formed notAnother

/--
The reasoning of a reply is hidden, and the rest of it kept, just where nothing
is opened and at most one mark closes, or each block is closed by the first
closing mark in it and the removal of no block forms a mark.
-/
theorem hidden_iff (content : String) :
    ReasoningHidden content ↔
      Prefilled (tokens content.toList) ∨ Paired (tokens content.toList) ∨
        Formed (tokens content.toList) := by
  by_cases opens : .mark .opening ∈ tokens content.toList
  · rw [hidden_opened opens]
    constructor
    · exact Or.inr
    · rintro (prefilled | hidden)
      · exact absurd opens prefilled.1
      · exact hidden
  · rw [hidden_unopened opens]
    constructor
    · intro atMost
      exact Or.inl ⟨opens, atMost⟩
    · rintro (prefilled | paired | formed)
      · exact prefilled.2
      · exact absurd paired.opens opens
      · exact absurd formed.1 opens

/-- A block in another, and a block after one which the template opened. -/
theorem hidden_fails :
    ¬ ReasoningHidden "<think>a<think>b</think>c</think>d" ∧
      ¬ ReasoningHidden "a</think>b<think>c</think>d" := by
  constructor
  · intro hidden
    exact hidden.noMark .closing ⟨"c".toList, "d".toList, by decide⟩
  · intro hidden
    exact hidden.noMark .closing ⟨"a".toList, "bd".toList, by decide⟩

end Hal0.Toolloop.Thinking
