import Hal0.Core.Trim
import Hal0.Toolloop.Engine

/-!
# Reasoning tags

A reply read as a sequence of marks and characters.  No two marks overlap, so
what `partition` finds in a reply which was read is a mark of it.  In a text
which something was removed from a mark may have been formed.
-/

namespace Hal0.Toolloop.Thinking

open List

/-! ## Marks -/

/-- A tag which opens or closes. -/
inductive Mark where
  | opening
  | closing
deriving DecidableEq

def Mark.word : Mark → List Char
  | .opening => "think>".toList
  | .closing => "/think>".toList

def Mark.text (mark : Mark) : List Char :=
  '<' :: mark.word

/-- A tag or a character. -/
inductive Token where
  | mark (mark : Mark)
  | char (char : Char)
deriving DecidableEq

/-- The tag that the text begins with. -/
def markAt (text : List Char) : Option Mark :=
  [Mark.opening, .closing].find? fun mark => mark.text.isPrefixOf text

/-- A text as marks and characters; a mark covers its word. -/
def tokens : List Char → List Token
  | [] => []
  | char :: rest =>
    match markAt (char :: rest) with
    | some mark => .mark mark :: (tokens rest).drop mark.word.length
    | none => .char char :: tokens rest

def Token.text : Token → List Char
  | .mark tag => tag.text
  | .char letter => [letter]

/-- The text of the tokens. -/
def render (tokens : List Token) : List Char :=
  tokens.flatMap Token.text

/-! ## Reading a text -/

theorem Mark.word_plain (mark : Mark) : '<' ∉ mark.word := by
  cases mark <;> decide

theorem markAt_text (mark : Mark) (rest : List Char) :
    markAt (mark.text ++ rest) = some mark := by
  cases mark <;> rfl

variable {text : List Char}

theorem markAt_eq_some {mark : Mark} :
    markAt text = some mark ↔ mark.text <+: text := by
  constructor
  · intro isMark
    have isPrefix := find?_some
      (p := fun mark => Mark.text mark |>.isPrefixOf text) isMark
    exact List.isPrefixOf_iff_prefix.mp isPrefix
  · rintro ⟨rest, rfl⟩
    exact markAt_text mark rest

variable {char : Char}

theorem markAt_plain (isPlain : char ≠ '<')
    (rest : List Char) : markAt (char :: rest) = none := by
  cases isMark : markAt (char :: rest) with
  | none => rfl
  | some mark =>
    have isPrefix := markAt_eq_some.mp isMark
    exact absurd (cons_prefix_cons.mp isPrefix).1.symm isPlain

variable {rest : List Char}

theorem tokens_of_mark {mark : Mark}
    (isMark : markAt (char :: rest) = some mark) :
    tokens (char :: rest) =
      .mark mark :: (tokens rest).drop mark.word.length := by
  rw [tokens, isMark]

theorem tokens_of_no_mark (noMark : markAt (char :: rest) = none) :
    tokens (char :: rest) = .char char :: tokens rest := by
  rw [tokens, noMark]

theorem tokens_plain_append {word : List Char} (isPlain : '<' ∉ word)
    (rest : List Char) :
    tokens (word ++ rest) = word.map Token.char ++ tokens rest := by
  induction word with
  | nil => rfl
  | cons char word ih =>
    obtain ⟨notBracket, restPlain⟩ :=
      ne_and_not_mem_of_not_mem_cons isPlain
    rw [cons_append, tokens_of_no_mark
      (markAt_plain notBracket.symm _), ih restPlain]
    rfl

theorem tokens_mark_append (mark : Mark) (rest : List Char) :
    tokens (mark.text ++ rest) = .mark mark :: tokens rest := by
  have isMark : markAt ('<' :: (mark.word ++ rest)) = some mark :=
    markAt_text mark rest
  calc
    tokens ('<' :: (mark.word ++ rest)) =
        .mark mark :: (tokens (mark.word ++ rest)).drop mark.word.length :=
      tokens_of_mark isMark
    _ = .mark mark :: tokens rest := by
      rw [tokens_plain_append mark.word_plain, drop_left' (by simp)]

@[simp]
theorem render_mark (mark : Mark) (rest : List Token) :
    render (.mark mark :: rest) = mark.text ++ render rest :=
  flatMap_cons

@[simp]
theorem render_char (char : Char) (rest : List Token) :
    render (.char char :: rest) = char :: render rest :=
  flatMap_cons

@[simp]
theorem render_append (first second : List Token) :
    render (first ++ second) = render first ++ render second :=
  flatMap_append

theorem render_chars (word : List Char) :
    render (word.map Token.char) = word := by
  induction word with
  | nil => rfl
  | cons char word ih =>
    rw [map_cons, render_char, ih]

/-- The tokens of a text spell it. -/
theorem render_tokens (text : List Char) : render (tokens text) = text := by
  induction text with
  | nil => rfl
  | cons char rest ih =>
    cases isMark : markAt (char :: rest) with
    | none =>
      rw [tokens_of_no_mark isMark, render_char, ih]
    | some mark =>
      obtain ⟨after, same⟩ := markAt_eq_some.mp isMark
      obtain ⟨rfl, isRest⟩ := List.cons.inj same
      change mark.word ++ after = rest at isRest
      subst isRest
      rw [tokens_plain_append mark.word_plain, render_append,
        render_chars] at ih
      have isAfter := append_cancel_left ih
      change render (tokens (mark.text ++ after)) = mark.text ++ after
      rw [tokens_mark_append, render_mark, isAfter]

/-- The tokens are those of their text. -/
def Read (sequence : List Token) : Prop :=
  tokens (render sequence) = sequence

/-- Tokens of a text are read from it. -/
theorem read_tokens (text : List Char) : Read (tokens text) := by
  rw [Read, render_tokens]

theorem Read.of_mark {mark : Mark} {rest : List Token}
    (read : Read (.mark mark :: rest)) : Read rest := by
  rw [Read, render_mark, tokens_mark_append] at read
  exact (List.cons.inj read).2

theorem Read.of_char {rest : List Token} (read : Read (.char char :: rest)) :
    markAt (char :: render rest) = none ∧ Read rest := by
  rw [Read, render_char] at read
  cases isMark : markAt (char :: render rest) with
  | none =>
    rw [tokens_of_no_mark isMark] at read
    exact ⟨rfl, (List.cons.inj read).2⟩
  | some mark =>
    rw [tokens_of_mark isMark] at read
    cases (List.cons.inj read).1

theorem Read.tail {token : Token} {rest : List Token}
    (read : Read (token :: rest)) : Read rest := by
  cases token with
  | mark mark => exact read.of_mark
  | char char => exact read.of_char.2

theorem Read.of_append {before after : List Token}
    (read : Read (before ++ after)) : Read after := by
  induction before with
  | nil => exact read
  | cons token before ih =>
    exact ih read.tail

/-! ## Partitions -/

variable {mark : List Char}

theorem partitionAt_of_leading (nonempty : mark ≠ [])
    (isPrefix : mark <+: text) :
    partitionAt mark text = some ([], text.drop mark.length) := by
  cases text with
  | nil => exact absurd (prefix_nil.mp isPrefix) nonempty
  | cons char rest =>
    rw [partitionAt, if_pos (List.isPrefixOf_iff_prefix.mpr isPrefix)]

theorem partitionAt_of_not_leading (notPrefix : ¬ mark <+: char :: rest) :
    partitionAt mark (char :: rest) =
      (partitionAt mark rest).map fun parts =>
        (char :: parts.1, parts.2) := by
  rw [partitionAt, if_neg]
  rwa [List.isPrefixOf_iff_prefix]

theorem partitionAt_eq_none (nonempty : mark ≠ []) :
    partitionAt mark text = none ↔ ¬ mark <:+: text := by
  induction text with
  | nil => simp [partitionAt, nonempty]
  | cons char rest ih =>
    rw [infix_cons_iff]
    by_cases isPrefix : mark <+: char :: rest
    · rw [partitionAt_of_leading nonempty isPrefix]
      simp [isPrefix]
    · rw [partitionAt_of_not_leading isPrefix, Option.map_eq_none_iff,
        ih]
      simp [isPrefix]

theorem partitionAt_front {front after : List Char} (nonempty : mark ≠ [])
    (isFound : partitionAt mark text = some (front, after)) :
    ¬ mark <:+: front ∧ text = front ++ mark ++ after := by
  induction text generalizing front with
  | nil =>
    rw [partitionAt, if_neg nonempty] at isFound
    cases isFound
  | cons char rest ih =>
    by_cases isPrefix : mark <+: char :: rest
    · rw [partitionAt_of_leading nonempty isPrefix] at isFound
      cases isFound
      refine ⟨by simpa using nonempty, ?_⟩
      obtain ⟨later, same⟩ := isPrefix
      rw [← same, drop_left]
      rfl
    · rw [partitionAt_of_not_leading isPrefix,
        Option.map_eq_some_iff] at isFound
      obtain ⟨⟨inner, other⟩, isInner, same⟩ := isFound
      cases same
      obtain ⟨notInner, parts⟩ := ih isInner
      refine ⟨?_, congrArg (char :: ·) parts⟩
      rw [infix_cons_iff]
      rintro (isFront | isFront)
      · apply isPrefix
        rw [parts, append_assoc]
        exact isFront.trans ⟨mark ++ other, rfl⟩
      · exact notInner isFront

theorem Mark.text_ne_nil (mark : Mark) : mark.text ≠ [] :=
  cons_ne_nil _ _

theorem prefix_of_bracket {word before after : List Char}
    (isPlain : '<' ∉ word) (isPrefix : word <+: before ++ '<' :: after) :
    word <+: before := by
  induction word generalizing before with
  | nil => exact List.nil_prefix
  | cons char word ih =>
    obtain ⟨notBracket, restPlain⟩ :=
      ne_and_not_mem_of_not_mem_cons isPlain
    cases before with
    | nil =>
      obtain ⟨same, _⟩ := cons_prefix_cons.mp isPrefix
      exact absurd same.symm notBracket
    | cons head before =>
      obtain ⟨rfl, isRest⟩ := cons_prefix_cons.mp isPrefix
      exact cons_prefix_cons.mpr
        ⟨rfl, ih restPlain isRest⟩

theorem partitionAt_skip (mark : Mark) {before : List Char}
    (notIn : ¬ mark.text <:+: before) (after : List Char) :
    partitionAt mark.text (before ++ '<' :: after) =
      (partitionAt mark.text ('<' :: after)).map fun parts =>
        (before ++ parts.1, parts.2) := by
  induction before with
  | nil =>
    rw [nil_append]
    cases partitionAt mark.text ('<' :: after) <;> rfl
  | cons char before ih =>
    rw [infix_cons_iff, not_or] at notIn
    have notPrefix : ¬ mark.text <+: char :: (before ++ '<' :: after) := by
      intro isPrefix
      obtain ⟨same, isRest⟩ := cons_prefix_cons.mp isPrefix
      exact notIn.1 (cons_prefix_cons.mpr
        ⟨same, prefix_of_bracket mark.word_plain isRest⟩)
    rw [cons_append, partitionAt_of_not_leading notPrefix,
      ih notIn.2, Option.map_map]
    rfl

theorem partitionAt_append {front : List Char} (nonempty : mark ≠ [])
    (isFound : partitionAt mark text = some (front, rest))
    (after : List Char) :
    partitionAt mark (text ++ after) = some (front, rest ++ after) := by
  induction text generalizing front with
  | nil =>
    rw [partitionAt, if_neg nonempty] at isFound
    cases isFound
  | cons char text ih =>
    by_cases isPrefix : mark <+: char :: text
    · rw [partitionAt_of_leading nonempty isPrefix] at isFound
      cases isFound
      rw [partitionAt_of_leading nonempty
        (isPrefix.trans (prefix_append _ _)),
        drop_append_of_le_length isPrefix.length_le]
    · rw [partitionAt_of_not_leading isPrefix,
        Option.map_eq_some_iff] at isFound
      obtain ⟨⟨inner, other⟩, isInner, same⟩ := isFound
      cases same
      have notLater : ¬ mark <+: char :: (text ++ after) := by
        intro isLater
        apply isPrefix
        apply prefix_of_prefix_length_le isLater
          (prefix_append (char :: text) after)
        rw [(partitionAt_front nonempty isInner).2]
        simp only [length_cons, length_append]
        omega
      rw [cons_append, partitionAt_of_not_leading notLater,
        ih isInner]
      rfl

theorem partitionAt_other {mark other : Mark} (differs : mark ≠ other)
    (rest : List Char) :
    partitionAt mark.text (other.text ++ rest) =
      (partitionAt mark.text rest).map fun parts =>
        (other.text ++ parts.1, parts.2) := by
  have skipWord : ∀ word : List Char, '<' ∉ word →
      partitionAt mark.text (word ++ rest) =
        (partitionAt mark.text rest).map fun parts =>
          (word ++ parts.1, parts.2) := by
    intro word isPlain
    induction word with
    | nil =>
      rw [nil_append]
      cases partitionAt mark.text rest <;> rfl
    | cons char word ih =>
      obtain ⟨notBracket, restPlain⟩ :=
        ne_and_not_mem_of_not_mem_cons isPlain
      have notPrefix : ¬ mark.text <+: char :: (word ++ rest) :=
        fun isPrefix => notBracket (cons_prefix_cons.mp isPrefix).1
      rw [cons_append, partitionAt_of_not_leading notPrefix,
        ih restPlain, Option.map_map]
      rfl
  have notPrefix : ¬ mark.text <+: '<' :: (other.word ++ rest) := by
    intro isPrefix
    have isOther : markAt ('<' :: (other.word ++ rest)) = some other :=
      markAt_text other rest
    rw [markAt_eq_some.mpr isPrefix] at isOther
    exact differs (Option.some.inj isOther)
  change partitionAt mark.text ('<' :: (other.word ++ rest)) = _
  rw [partitionAt_of_not_leading notPrefix,
    skipWord other.word other.word_plain, Option.map_map]
  rfl

/-- A text is cut at the first mark token. -/
theorem partitionAt_read (mark : Mark) {sequence : List Token}
    (read : Read sequence) :
    (.mark mark ∉ sequence ∧
        partitionAt mark.text (render sequence) = none) ∨
      ∃ before after, sequence = before ++ .mark mark :: after ∧
        .mark mark ∉ before ∧
          partitionAt mark.text (render sequence) =
            some (render before, render after) := by
  induction sequence with
  | nil => exact Or.inl ⟨not_mem_nil, by cases mark <;> rfl⟩
  | cons token sequence ih =>
    have later := ih read.tail
    cases token with
    | char char =>
      have notPrefix : ¬ mark.text <+: char :: render sequence := by
        intro isPrefix
        have noMark := read.of_char.1
        rw [markAt_eq_some.mpr isPrefix] at noMark
        cases noMark
      rw [render_char, partitionAt_of_not_leading notPrefix]
      rcases later with ⟨notIn, isNone⟩ | ⟨before, after, rfl, notIn, found⟩
      · exact Or.inl ⟨by simpa using notIn, by rw [isNone]; rfl⟩
      · refine Or.inr ⟨.char char :: before, after, rfl,
          by simpa using notIn, ?_⟩
        rw [found, render_char]
        rfl
    | mark other =>
      rw [render_mark]
      by_cases same : mark = other
      · subst same
        refine Or.inr ⟨[], sequence, rfl, not_mem_nil, ?_⟩
        rw [partitionAt_of_leading mark.text_ne_nil
          (prefix_append _ _), drop_left]
        rfl
      · rw [partitionAt_other same]
        rcases later with ⟨notIn, isNone⟩ |
          ⟨before, after, rfl, notIn, found⟩
        · exact Or.inl ⟨by simp [notIn, same], by rw [isNone]; rfl⟩
        · refine Or.inr ⟨.mark other :: before, after, rfl,
            by simp [notIn, same], ?_⟩
          rw [found, render_mark]
          rfl

theorem mark_infix_iff (mark : Mark) {sequence : List Token}
    (read : Read sequence) :
    mark.text <:+: render sequence ↔ .mark mark ∈ sequence := by
  have isNone : partitionAt mark.text (render sequence) = none ↔
      ¬ mark.text <:+: render sequence :=
    partitionAt_eq_none mark.text_ne_nil
  rcases partitionAt_read mark read with
    ⟨notIn, none_⟩ | ⟨before, after, same, _, found⟩
  · have notInfix := isNone.mp none_
    exact ⟨fun isInfix => absurd isInfix notInfix,
      fun isIn => absurd isIn notIn⟩
  · constructor
    · intro _
      rw [same]
      exact mem_append_right _ mem_cons_self
    · intro _
      by_contra notInfix
      rw [isNone.mpr notInfix] at found
      cases found

end Hal0.Toolloop.Thinking
