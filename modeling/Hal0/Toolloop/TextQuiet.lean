import Hal0.Toolloop.PatternFacts

/-!
# Text without tool-call markup

Plain text holds no tag of a dialect, no fence which opens on a brace, and no
`name="..."` at the end of a tag.  Whatever stands behind it (a tag, a fence or
the end), no pattern matches from inside it.
-/

namespace Hal0.Toolloop

open List Option
open Hal0.Scan
open Hal0.Slots.ConfigFiles (isSpace)

/-! ## Plain text -/

/-- An attribute begins here which does or may end a tag. -/
def mayAttr (text : Text) : Bool :=
  (((lit "name".toList text).bind (closing "=".toList)).bind
    (closing "\"".toList)).any fun value =>
      match value.dropWhile (· ≠ '"') with
      | [] => true
      | _ :: closed => (closing ">".toList closed).isSome

/-- Such an attribute is in the rest of a tag, or the tag does not end. -/
def mayIn : Text → Bool
  | [] => true
  | char :: text =>
    (isSpace char && mayAttr (spaces text)) || (char ≠ '>' && mayIn text)

/-- A tag with such an attribute begins here. -/
def mayTag (alphabet : Alphabet) (text : Text) : Bool :=
  (lit "<".toList text).any fun opened =>
    (tagWord alphabet (spaces opened)).any fun word => mayIn word.2

/-- A fence begins here which opens on a brace. -/
def fenceOpens (text : Text) : Bool :=
  (lit "```".toList text).any fun inner =>
    (spaces (fenceTag inner)).head? = some '\x7b'

/-- Markup of one of the dialects begins here. -/
def markup (alphabet : Alphabet) (text : Text) : Bool :=
  (lit "<tool_call>".toList text).isSome ||
    (lit "</tool_call>".toList text).isSome ||
    (lit "<function=".toList text).isSome || (functionClose text).isSome ||
    mayTag alphabet text || mayAttr text ||
    (lit "<|tool_call>".toList text).isSome ||
    (lit "<tool_call|>".toList text).isSome || fenceOpens text

/-- There is no markup in a text. -/
def plain (alphabet : Alphabet) : Text → Bool
  | [] => true
  | char :: text => !markup alphabet (char :: text) && plain alphabet text

/-- What stands behind plain text: the end, a tag or a fence. -/
def Follows (rest : Text) : Prop :=
  rest = [] ∨ (∃ after, rest = '<' :: after) ∨
    ∃ after, rest = '`' :: '`' :: '`' :: after

/-! ## Literals in front of what follows -/

variable {text rest after : Text}

theorem lit_append_of_barrier {literal : Text} {head : Char}
    (barrier : ∀ char ∈ literal, fold head ≠ char)
    (matches_ : lit literal (text ++ head :: rest) = some after) :
    ∃ inner, lit literal text = some inner ∧
      after = inner ++ head :: rest := by
  induction literal generalizing text with
  | nil =>
    rw [lit] at matches_
    cases matches_
    exact ⟨text, by rw [lit], rfl⟩
  | cons char literal ih =>
    cases text with
    | nil =>
      have differs := barrier char mem_cons_self
      rw [nil_append, lit, if_neg differs] at matches_
      cases matches_
    | cons first text =>
      rw [cons_append, lit] at matches_
      split at matches_
      · rename_i isSame
        obtain ⟨inner, isInner, same⟩ := ih
          (fun other isIn => barrier other (mem_cons_of_mem char isIn))
          matches_
        exact ⟨inner, by rw [lit, if_pos isSame, isInner], same⟩
      · cases matches_

def Inert (literal : Text) : Prop :=
  ∀ char ∈ literal, char ≠ '<' ∧ char ≠ '`'

instance (literal : Text) : Decidable (Inert literal) :=
  inferInstanceAs (Decidable (∀ char ∈ literal, _))

/-- A literal does not reach over a text that follows. -/
theorem lit_append {literal : Text} (isInert : Inert literal)
    (isNext : Follows rest)
    (matches_ : lit literal (text ++ rest) = some after) :
    ∃ inner, lit literal text = some inner ∧ after = inner ++ rest := by
  rcases isNext with rfl | ⟨rest, rfl⟩ | ⟨rest, rfl⟩
  · rw [append_nil] at matches_
    exact ⟨after, matches_, (append_nil after).symm⟩
  · apply lit_append_of_barrier _ matches_
    intro char isIn isTag
    exact (isInert char isIn).1 isTag.symm
  · apply lit_append_of_barrier _ matches_
    intro char isIn isFence
    exact (isInert char isIn).2 isFence.symm

theorem lit_extend {literal : Text} (matches_ : lit literal text = some after)
    (rest : Text) :
    lit literal (text ++ rest) = some (after ++ rest) := by
  induction literal generalizing text with
  | nil =>
    rw [lit] at matches_ ⊢
    cases matches_
    rfl
  | cons char literal ih =>
    cases text with
    | nil => cases matches_
    | cons head text =>
      rw [lit] at matches_
      split at matches_
      · rename_i isSame
        rw [cons_append, lit, if_pos isSame]
        exact ih matches_
      · cases matches_

theorem lit_append_tail {char head : Char} {literal : Text}
    (isInert : Inert literal) (isNext : Follows rest)
    (matches_ : lit (char :: literal) (head :: (text ++ rest)) = some after) :
    ∃ inner, lit (char :: literal) (head :: text) = some inner ∧
      after = inner ++ rest := by
  rw [lit] at matches_ ⊢
  split at matches_
  · rename_i isSame
    rw [if_pos isSame]
    exact lit_append isInert isNext matches_
  · cases matches_

theorem spaces_append (isNext : Follows rest) (text : Text) :
    spaces (text ++ rest) = spaces text ++ rest := by
  have stays : rest.dropWhile isSpace = rest := by
    rcases isNext with rfl | ⟨rest, rfl⟩ | ⟨rest, rfl⟩
    · rfl
    · rfl
    · rfl
  unfold spaces
  rw [dropWhile_append]
  split
  · rename_i isEmpty
    rw [stays, isEmpty_iff.mp isEmpty, nil_append]
  · rfl

theorem closing_append {literal : Text} (isInert : Inert literal)
    (isNext : Follows rest)
    (closes : closing literal (text ++ rest) = some after) :
    ∃ inner, closing literal text = some inner ∧ after = inner ++ rest := by
  rw [closing, spaces_append isNext] at closes
  exact lit_append isInert isNext closes

/-! ## The patterns in front of what follows -/

section
variable {rest : Text}

variable {text : Text}

theorem mayAttr_of_nameAttr (isNext : Follows rest) {found : String × Text}
    (isSome : nameAttr (text ++ rest) = some found) :
    mayAttr text := by
  simp only [nameAttr, bind_eq_some_iff] at isSome
  obtain ⟨equals, isName, quoted, isEquals, value, isQuote, closes⟩ := isSome
  obtain ⟨equals, inName, rfl⟩ := lit_append (by decide) isNext isName
  obtain ⟨quoted, inEquals, rfl⟩ := closing_append (by decide) isNext isEquals
  obtain ⟨value, inQuote, rfl⟩ := closing_append (by decide) isNext isQuote
  rw [mayAttr, inName, bind_some, inEquals, bind_some, inQuote, any_some]
  cases ends : value.dropWhile (· ≠ '"') with
  | nil => rfl
  | cons quote closed =>
    split at closes
    · cases closes
    · have whole : (value ++ rest).dropWhile (· ≠ '"') =
          quote :: (closed ++ rest) := by
        rw [dropWhile_append, ends]
        rfl
      rw [whole] at closes
      simp only [bind_eq_some_iff, map_eq_some_iff] at closes
      obtain ⟨opened, isOpened, after, isBracket, _⟩ := closes
      have same : closed ++ rest = opened := by
        have isQuote : lit ['"'] (quote :: (closed ++ rest)) =
            some opened := isOpened
        rw [lit] at isQuote
        split at isQuote
        · rw [lit] at isQuote
          exact some.inj isQuote
        · cases isQuote
      subst same
      obtain ⟨inner, isInner, _⟩ := closing_append (by decide) isNext
        isBracket
      dsimp only
      rw [isInner]
      rfl

theorem mayIn_of_inTag (isNext : Follows rest) {found : String × Text}
    (isSome : inTag (text ++ rest) = some found) :
    mayIn text := by
  induction text with
  | nil => rfl
  | cons char text ih =>
    rw [cons_append, inTag, or_eq_some_iff] at isSome
    rw [mayIn, Bool.or_eq_true, Bool.and_eq_true, Bool.and_eq_true]
    rcases isSome with isAttr | ⟨_, isLater⟩
    · split at isAttr
      · rename_i isBlank
        rw [spaces_append isNext] at isAttr
        exact Or.inl ⟨isBlank, mayAttr_of_nameAttr isNext isAttr⟩
      · cases isAttr
    · split at isLater
      · cases isLater
      · rename_i isIn
        exact Or.inr ⟨decide_eq_true isIn, ih isLater⟩

theorem any_head_append {test : Char → Bool} {inner rest : Text}
    (isBoundary : ¬ (inner ++ rest).head?.any test) :
    ¬ inner.head?.any test := by
  cases inner with
  | nil => exact Bool.false_ne_true
  | cons char inner => exact isBoundary

variable {found : Text × Text}

theorem tagWord_append (alphabet : Alphabet) (isNext : Follows rest)
    (isSome : tagWord alphabet (text ++ rest) = some found) :
    ∃ kind after, tagWord alphabet text = some (kind, after) ∧
      found.2 = after ++ rest := by
  unfold tagWord at isSome ⊢
  cases isFunction : lit "function".toList (text ++ rest) with
  | some after =>
    obtain ⟨inner, inFunction, rfl⟩ :=
      lit_append (by decide) isNext isFunction
    rw [isFunction] at isSome
    rw [inFunction]
    dsimp only [bind_some] at isSome ⊢
    split at isSome
    · cases isSome
    · rename_i isBoundary
      cases isSome
      rw [if_neg (any_head_append isBoundary)]
      exact ⟨_, inner, rfl, rfl⟩
  | none =>
    have notFunction : lit "function".toList text = none := by
      cases inFunction : lit "function".toList text with
      | none => rfl
      | some inner =>
        rw [lit_extend inFunction rest] at isFunction
        cases isFunction
    rw [isFunction] at isSome
    rw [notFunction]
    dsimp only at isSome ⊢
    simp only [bind_eq_some_iff, map_eq_some_iff] at isSome
    obtain ⟨word, ⟨after, isParam, rfl⟩, isWord⟩ := isSome
    obtain ⟨inner, inParam, rfl⟩ := lit_append (by decide) isNext isParam
    rw [inParam]
    dsimp only [map_some, bind_some] at isWord ⊢
    split at isWord
    · cases isWord
    · rename_i isBoundary
      cases isWord
      rw [if_neg (any_head_append isBoundary)]
      exact ⟨_, inner, rfl, rfl⟩

variable {char : Char}

theorem mayTag_of_attrToken (alphabet : Alphabet) (isNext : Follows rest)
    {found : (Text × String) × Text}
    (isSome : attrToken alphabet (char :: (text ++ rest)) = some found) :
    mayTag alphabet (char :: text) || mayAttr (char :: text) := by
  rw [Bool.or_eq_true]
  unfold attrToken at isSome
  split at isSome
  · rename_i opened isTag
    simp only [bind_eq_some_iff, map_eq_some_iff] at isSome
    obtain ⟨word, isWord, inside, isInside, _⟩ := isSome
    have opensTag : lit ('<' :: []) (char :: (text ++ rest)) =
        some opened := isTag
    obtain ⟨inner, isInner, rfl⟩ :=
      lit_append_tail (by decide) isNext opensTag
    rw [spaces_append isNext] at isWord
    obtain ⟨kind, after, inWord, same⟩ :=
      tagWord_append alphabet isNext isWord
    rw [same] at isInside
    apply Or.inl
    have opens : lit "<".toList (char :: text) = some inner := isInner
    rw [mayTag, opens, any_some, inWord, any_some]
    exact mayIn_of_inTag isNext isInside
  · rw [map_eq_some_iff] at isSome
    obtain ⟨inside, isInside, _⟩ := isSome
    rw [← cons_append] at isInside
    exact Or.inr (mayAttr_of_nameAttr isNext isInside)

theorem functionClose_append (isNext : Follows rest) {found : Unit × Text}
    (isSome : functionClose (char :: (text ++ rest)) = some found) :
    (functionClose (char :: text)).isSome := by
  simp only [functionClose, bind_eq_some_iff, map_eq_some_iff] at isSome
  obtain ⟨opened, isOpened, named, isNamed, closed, isClosed, _⟩ := isSome
  have opensTag : lit ('<' :: ['/']) (char :: (text ++ rest)) =
      some opened := isOpened
  obtain ⟨opened, inOpened, rfl⟩ :=
    lit_append_tail (by decide) isNext opensTag
  obtain ⟨named, inNamed, rfl⟩ := closing_append (by decide) isNext isNamed
  obtain ⟨closed, inClosed, _⟩ := closing_append (by decide) isNext isClosed
  have opens : lit "</".toList (char :: text) = some opened := inOpened
  rw [functionClose, opens, bind_some, inNamed, bind_some, inClosed]
  rfl

theorem fenceTag_append (isNext : Follows rest) (text : Text) :
    fenceTag (text ++ rest) = fenceTag text ++ rest := by
  have same : ∀ literal : Text, Inert literal →
      lit literal (text ++ rest) = (lit literal text).map (· ++ rest) := by
    intro literal isInert
    cases inside : lit literal text with
    | some inner => exact lit_extend inside rest
    | none =>
      cases beyond : lit literal (text ++ rest) with
      | none => rfl
      | some after =>
        obtain ⟨inner, isInner, _⟩ := lit_append isInert isNext beyond
        rw [isInner] at inside
        cases inside
  unfold fenceTag
  rw [same _ (by decide), same _ (by decide)]
  cases lit "json".toList text with
  | some after => rfl
  | none =>
    cases lit "tool_call".toList text with
    | some after => rfl
    | none => rfl

theorem braced_head {close : Text → Option Text}
    (isSome : braced close text = some found) :
    text.head? = some '\x7b' := by
  unfold braced at isSome
  split at isSome
  · rfl
  · cases isSome

theorem fence_append (isNext : Follows rest) {inner : Text}
    (isFence : lit "```".toList (char :: (text ++ rest)) = some inner) :
    (∃ inside, lit "```".toList (char :: text) = some inside ∧
      inner = inside ++ rest) ∨ ∃ after, inner = '`' :: after := by
  have fences : lit ['`', '`', '`'] (char :: (text ++ rest)) = some inner :=
    isFence
  rcases isNext with rfl | ⟨rest, rfl⟩ | ⟨rest, rfl⟩
  · rw [append_nil] at isFence
    exact Or.inl ⟨inner, isFence, (append_nil inner).symm⟩
  · rw [← cons_append] at isFence
    exact Or.inl (lit_append_of_barrier (by decide) isFence)
  · rw [lit] at fences
    split at fences
    · rename_i isFirst
      rcases text with _ | ⟨second, _ | ⟨third, text⟩⟩
      · simp [lit] at fences
        exact Or.inr ⟨_, fences.2.symm⟩
      · simp [lit] at fences
        exact Or.inr ⟨_, fences.2.2.symm⟩
      · simp [lit] at fences
        refine Or.inl ⟨text, ?_, fences.2.2.symm⟩
        simp [lit, isFirst, fences.1, fences.2.1]
    · cases fences

theorem fenceOpens_of_fencedJson (isNext : Follows rest)
    (isSome : fencedJson (char :: (text ++ rest)) = some found) :
    fenceOpens (char :: text) := by
  simp only [fencedJson, bind_eq_some_iff] at isSome
  obtain ⟨inner, isFence, isBraced⟩ := isSome
  have opens := braced_head isBraced
  rcases fence_append isNext isFence with ⟨inside, inFence, rfl⟩ | ⟨after, rfl⟩
  · rw [fenceTag_append isNext, spaces_append isNext] at opens
    rw [fenceOpens, inFence, any_some]
    cases begins : spaces (fenceTag inside) with
    | nil =>
      rw [begins, nil_append] at opens
      rcases isNext with rfl | ⟨rest, rfl⟩ | ⟨rest, rfl⟩
      · cases opens
      · cases opens
      · cases opens
    | cons first others =>
      rw [begins] at opens
      exact decide_eq_true opens
  · cases opens

/-! ## Plain text is quiet -/

def literal (word : Text) : Pattern Char Unit := fun text =>
  (lit word text).map fun after => ((), after)

/-- Plain text is quiet to a pattern that asks for markup. -/
theorem quiet_of_plain {alphabet : Alphabet} {α : Type}
    {pattern : Pattern Char α} (isPlain : plain alphabet text)
    (reads : ∀ char chunk rest found, Follows rest →
      pattern (char :: (chunk ++ rest)) = some found →
        markup alphabet (char :: chunk)) :
    Quiet pattern Follows text := by
  induction text with
  | nil => trivial
  | cons char text ih =>
    rw [plain, Bool.and_eq_true, Bool.not_eq_true'] at isPlain
    refine ⟨?_, ih isPlain.2⟩
    intro rest isNext
    cases result : pattern (char :: (text ++ rest)) with
    | none => rfl
    | some found =>
      have isMarkup := reads char text rest found isNext result
      rw [isPlain.1] at isMarkup
      cases isMarkup

section
variable {alphabet : Alphabet} {text : Text}

theorem quiet_attrToken (isPlain : plain alphabet text) :
    Quiet (attrToken alphabet) Follows text := by
  apply quiet_of_plain isPlain
  intro char chunk rest found isNext reads
  have may := mayTag_of_attrToken alphabet isNext reads
  rw [Bool.or_eq_true] at may
  rcases may with may | may
  · simp [markup, may]
  · simp [markup, may]

theorem quiet_functionClose (isPlain : plain alphabet text) :
    Quiet functionClose Follows text := by
  apply quiet_of_plain isPlain
  intro char chunk rest found isNext reads
  simp [markup, functionClose_append isNext reads]

theorem quiet_fencedJson (isPlain : plain alphabet text) :
    Quiet fencedJson Follows text := by
  apply quiet_of_plain isPlain
  intro char chunk rest found isNext reads
  simp [markup, fenceOpens_of_fencedJson isNext reads]

/-- The opening and closing tags of the dialects. -/
def tagWords : List Text :=
  ["<tool_call>".toList, "</tool_call>".toList, "<function=".toList,
    "</function>".toList, "<|tool_call>".toList, "<tool_call|>".toList]

variable {word : Text}

theorem tagWords_tail (isTag : word ∈ tagWords) :
    ∃ tail, word = '<' :: tail ∧ Inert tail := by
  simp only [tagWords, mem_cons, not_mem_nil, or_false] at isTag
  rcases isTag with rfl | rfl | rfl | rfl | rfl | rfl
  · exact ⟨_, rfl, by decide⟩
  · exact ⟨_, rfl, by decide⟩
  · exact ⟨_, rfl, by decide⟩
  · exact ⟨_, rfl, by decide⟩
  · exact ⟨_, rfl, by decide⟩
  · exact ⟨_, rfl, by decide⟩

theorem lit_split (first second text : Text) :
    lit (first ++ second) text = (lit first text).bind (lit second) := by
  induction first generalizing text with
  | nil =>
    rw [lit]
    rfl
  | cons char first ih =>
    cases text with
    | nil => rfl
    | cons head text =>
      rw [cons_append, lit, lit]
      split
      · exact ih text
      · rfl

theorem closing_of_lit {char : Char} {text after : Text}
    (notBlank : isSpace char = false)
    (matches_ : lit (char :: word) text = some after) :
    closing (char :: word) text = some after := by
  cases text with
  | nil => cases matches_
  | cons head text =>
    have isSame : fold head = char := by
      by_contra differs
      rw [lit, if_neg differs] at matches_
      cases matches_
    have stays : spaces (head :: text) = head :: text := by
      apply dropWhile_cons_of_neg
      intro isBlank
      exact fold_ne_of_isSpace isBlank notBlank isSame
    rw [closing, stays, matches_]

theorem functionClose_of_lit {text after : Text}
    (matches_ : lit "</function>".toList text = some after) :
    functionClose text = some ((), after) := by
  have parts : "</function>".toList =
      "</".toList ++ ("function".toList ++ ">".toList) := by decide
  rw [parts, lit_split, bind_eq_some_iff] at matches_
  obtain ⟨opened, isOpened, matches_⟩ := matches_
  rw [lit_split, bind_eq_some_iff] at matches_
  obtain ⟨named, isNamed, isClosed⟩ := matches_
  have word : closing ('f' :: "unction".toList) opened = some named :=
    closing_of_lit (by decide) isNamed
  have bracket : closing ('>' :: []) named = some after :=
    closing_of_lit (by decide) isClosed
  have wordCloses : closing "function".toList opened = some named := word
  have bracketCloses : closing ">".toList named = some after := bracket
  rw [functionClose, isOpened, bind_some, wordCloses, bind_some, bracketCloses]
  rfl

theorem markup_of_lit (isTag : word ∈ tagWords) {char : Char} {chunk : Text}
    (isSome : (lit word (char :: chunk)).isSome) :
    markup alphabet (char :: chunk) := by
  simp only [tagWords, mem_cons, not_mem_nil, or_false] at isTag
  rcases isTag with rfl | rfl | rfl | rfl | rfl | rfl
  · simp only [markup, isSome, Bool.true_or]
  · simp only [markup, isSome, Bool.true_or, Bool.or_true]
  · simp only [markup, isSome, Bool.true_or, Bool.or_true]
  · obtain ⟨after, matches_⟩ := isSome_iff_exists.mp isSome
    simp only [markup, functionClose_of_lit matches_, isSome_some,
      Bool.true_or, Bool.or_true]
  · simp only [markup, isSome, Bool.true_or, Bool.or_true]
  · simp only [markup, isSome, Bool.true_or, Bool.or_true]

/-- Plain text holds no tag. -/
theorem quiet_literal (isTag : word ∈ tagWords)
    (isPlain : plain alphabet text) : Quiet (literal word) Follows text := by
  apply quiet_of_plain isPlain
  intro char chunk rest found isNext reads
  rw [literal, map_eq_some_iff] at reads
  obtain ⟨after, isLit, _⟩ := reads
  apply markup_of_lit isTag
  obtain ⟨tail, rfl, isInert⟩ := tagWords_tail isTag
  obtain ⟨inner, inLit, _⟩ := lit_append_tail isInert isNext isLit
  rw [inLit]
  rfl

end

/-! ## Patterns which begin with a literal -/

theorem Quiet.of_literal {α : Type} {pattern : Pattern Char α} {word : Text}
    {follows : Text → Prop} {chunk : Text}
    (opens : ∀ text found, pattern text = some found →
      (lit word text).isSome)
    (quiet : Quiet (literal word) follows chunk) :
    Quiet pattern follows chunk := by
  induction chunk with
  | nil => trivial
  | cons char chunk ih =>
    refine ⟨?_, ih quiet.2⟩
    intro rest isNext
    cases result : pattern (char :: (chunk ++ rest)) with
    | none => rfl
    | some found =>
      have isSome := opens _ found result
      have nothing := quiet.1 rest isNext
      rw [literal, map_eq_none_iff] at nothing
      rw [nothing] at isSome
      cases isSome

theorem textToolcall_opens (text : Text) (found : (Nat × Text) × Text)
    (isSome : textToolcall text = some found) :
    (lit "<tool_call>".toList text).isSome := by
  simp only [textToolcall, bind_eq_some_iff] at isSome
  obtain ⟨inner, opens, _⟩ := isSome
  rw [opens]
  rfl

theorem functionTag_opens (text : Text)
    (found : (String × Option Text) × Text)
    (isSome : functionTag text = some found) :
    (lit "<function=".toList text).isSome := by
  simp only [functionTag, bind_eq_some_iff] at isSome
  obtain ⟨inner, opens, _⟩ := isSome
  rw [opens]
  rfl

theorem gemmaToolcall_opens (text : Text)
    (found : (String × Option Text) × Text)
    (isSome : gemmaToolcall text = some found) :
    (lit "<|tool_call>".toList text).isSome := by
  simp only [gemmaToolcall, bind_eq_some_iff] at isSome
  obtain ⟨inner, opens, _⟩ := isSome
  rw [opens]
  rfl

theorem fencedJson_opens (text : Text) (found : Text × Text)
    (isSome : fencedJson text = some found) :
    (lit "```".toList text).isSome := by
  simp only [fencedJson, bind_eq_some_iff] at isSome
  obtain ⟨inner, opens, _⟩ := isSome
  rw [opens]
  rfl

end

end Hal0.Toolloop
