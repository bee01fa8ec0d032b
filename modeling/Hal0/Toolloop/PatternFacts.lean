import Hal0.Toolloop.Patterns
import Mathlib.Data.List.TakeWhile

/-!
# What the patterns take

Each pattern takes the characters it matches and leaves the rest of the text.
-/

namespace Hal0.Toolloop

open List Option
open Hal0.Scan
open Hal0.Slots.ConfigFiles (isSpace)

/-! ## Characters -/

variable {char : Char}

theorem fold_of_isSpace (isBlank : isSpace char) :
    fold char = char := by
  have notUpper : ¬ (65 ≤ char.toNat ∧ char.toNat ≤ 90) := by
    rintro ⟨atLeast, atMost⟩
    simp only [isSpace, Bool.or_eq_true, Bool.and_eq_true,
      decide_eq_true_eq] at isBlank
    omega
  have lower : char.toLower = char := by
    unfold Char.toLower
    split
    · rename_i isUpper
      exact absurd isUpper notUpper
    · rfl
  rw [fold, lower]
  repeat' split
  · rename_i isDotted
    rcases isDotted with rfl | rfl
    · exact absurd isBlank (by decide)
    · exact absurd isBlank (by decide)
  · rename_i isLong
    subst isLong
    exact absurd isBlank (by decide)
  · rename_i isKelvin
    subst isKelvin
    exact absurd isBlank (by decide)
  · rfl

theorem fold_ne_of_isSpace {other : Char} (isBlank : isSpace char)
    (notBlank : isSpace other = false) : fold char ≠ other := by
  rw [fold_of_isSpace isBlank]
  rintro rfl
  rw [notBlank] at isBlank
  cases isBlank

theorem fold_eq_symbol {symbol : Char}
    (notLetter : ¬ (97 ≤ symbol.toNat ∧ symbol.toNat ≤ 122))
    (isSame : fold char = symbol) : char = symbol := by
  unfold fold at isSame
  split at isSame
  · subst isSame
    exact absurd (by decide) notLetter
  · split at isSame
    · subst isSame
      exact absurd (by decide) notLetter
    · split at isSame
      · subst isSame
        exact absurd (by decide) notLetter
      · unfold Char.toLower at isSame
        split at isSame
        · rename_i isUpper
          subst isSame
          have atLeast : 65 ≤ char.val.toNat := isUpper.1
          have atMost : char.val.toNat ≤ 90 := isUpper.2
          have lower : (char.val + ('a'.val - 'A'.val)).toNat =
              char.val.toNat + 32 := by
            have offset : ('a'.val - 'A'.val).toNat = 32 := by decide
            rw [UInt32.toNat_add, offset]
            omega
          refine absurd ?_ notLetter
          rw [Char.toNat, lower]
          omega
        · exact isSame

/-! ## Literals and blanks -/

variable {text after : Text}

theorem lit_eq_some {literal : Text}
    (matches_ : lit literal text = some after) :
    ∃ taken, text = taken ++ after ∧ taken.map fold = literal := by
  induction literal generalizing text with
  | nil =>
    cases text with
    | nil =>
      cases matches_
      exact ⟨[], rfl, rfl⟩
    | cons head text =>
      cases matches_
      exact ⟨[], rfl, rfl⟩
  | cons char literal ih =>
    cases text with
    | nil => cases matches_
    | cons head text =>
      rw [lit] at matches_
      split at matches_
      · rename_i isSame
        obtain ⟨taken, rfl, folded⟩ := ih matches_
        exact ⟨head :: taken, rfl, by rw [map_cons, isSame, folded]⟩
      · cases matches_

theorem lit_length {literal : Text}
    (matches_ : lit literal text = some after) :
    after.length + literal.length = text.length := by
  obtain ⟨taken, rfl, rfl⟩ := lit_eq_some matches_
  rw [length_append, length_map, Nat.add_comm]

theorem spaces_length (text : Text) : (spaces text).length ≤ text.length :=
  (dropWhile_suffix _).length_le

theorem spaces_eq (text : Text) :
    ∃ blanks, text = blanks ++ spaces text ∧
      ∀ char ∈ blanks, isSpace char := by
  refine ⟨text.takeWhile isSpace, ?_, ?_⟩
  · exact (takeWhile_append_dropWhile).symm
  · intro char isIn
    exact mem_takeWhile_imp isIn

theorem closing_eq_some {literal : Text}
    (closes : closing literal text = some after) :
    ∃ blanks taken, text = blanks ++ (taken ++ after) ∧
      (∀ char ∈ blanks, isSpace char) ∧ taken.map fold = literal := by
  obtain ⟨blanks, split, areBlank⟩ := spaces_eq text
  obtain ⟨taken, isTaken, folded⟩ := lit_eq_some closes
  exact ⟨blanks, taken, by rw [← isTaken, ← split], areBlank, folded⟩

/-- What is left is no longer than before. -/
def Shrinks (step : Text → Option Text) : Prop :=
  ∀ text after, step text = some after → after.length ≤ text.length

theorem shrinks_closing (literal : Text) : Shrinks (closing literal) := by
  intro text after isSome
  have length := lit_length isSome
  have blanks := spaces_length text
  omega

variable {close : Text → Option Text}

theorem lazily_length (shrinks : Shrinks close) {found : Text × Text}
    (isSome : lazily close text = some found) :
    found.1.length + found.2.length ≤ text.length := by
  induction text generalizing found with
  | nil =>
    rw [lazily, map_eq_some_iff] at isSome
    obtain ⟨after, closes, rfl⟩ := isSome
    have length := shrinks _ _ closes
    simpa using length
  | cons char text ih =>
    rw [lazily] at isSome
    split at isSome
    · rename_i after closes
      cases isSome
      have length := shrinks _ _ closes
      simpa using length
    · rw [map_eq_some_iff] at isSome
      obtain ⟨rest, isRest, rfl⟩ := isSome
      have length := ih isRest
      simp only [length_cons]
      omega

theorem shrinks_braceThen
    (shrinks : Shrinks close) : Shrinks (braceThen close) := by
  intro text after isSome
  unfold braceThen at isSome
  split at isSome
  · have length := shrinks _ _ isSome
    simp only [length_cons]
    omega
  · cases isSome

theorem braced_length (shrinks : Shrinks close) {found : Text × Text}
    (isSome : braced close text = some found) :
    found.2.length ≤ text.length := by
  unfold braced at isSome
  split at isSome
  · rw [map_eq_some_iff] at isSome
    obtain ⟨rest, isRest, rfl⟩ := isSome
    have length := lazily_length (shrinks_braceThen shrinks) isRest
    simp only [length_cons]
    omega
  · cases isSome

theorem optionallyBraced_length (shrinks : Shrinks close)
    {found : Option Text × Text}
    (isSome : optionallyBraced close text = some found) :
    found.2.length ≤ text.length := by
  unfold optionallyBraced at isSome
  split at isSome
  · rename_i inside isBraced
    cases isSome
    exact braced_length shrinks isBraced
  · rw [map_eq_some_iff] at isSome
    obtain ⟨after, closes, rfl⟩ := isSome
    exact shrinks _ _ closes

variable {found : String × Text}

theorem nameRun_length (isSome : nameRun text = some found) :
    found.2.length ≤ text.length := by
  unfold nameRun at isSome
  split at isSome
  · cases isSome
  · cases isSome
    exact (dropWhile_suffix _).length_le

/-! ## The patterns -/

theorem textToolcall_length {data : Nat × Text}
    (isSome : textToolcall text = some (data, after)) :
    data.1 + data.2.length + after.length ≤ text.length ∧
      after.length < text.length := by
  simp only [textToolcall, bind_eq_some_iff, map_eq_some_iff] at isSome
  obtain ⟨inner, opens, found, closes, same⟩ := isSome
  cases same
  have opened := lit_length opens
  have blanks := spaces_length inner
  have closed := lazily_length (shrinks_closing _) closes
  have positive : 0 < "<tool_call>".toList.length := by decide
  dsimp only
  omega

theorem consumes_textToolcall : Consumes textToolcall :=
  fun _ _ _ isSome => (textToolcall_length isSome).2

theorem consumes_functionTag : Consumes functionTag := by
  intro text data after isSome
  simp only [functionTag, bind_eq_some_iff, map_eq_some_iff] at isSome
  obtain ⟨named, opens, name, isName, inner, closesTag, found, closes, same⟩ :=
    isSome
  cases same
  have opened := lit_length opens
  have run := nameRun_length isName
  have tag := lit_length closesTag
  have blanks := spaces_length inner
  have closed := optionallyBraced_length (shrinks_closing _) closes
  have positive : 0 < "<function=".toList.length := by decide
  omega

theorem consumes_gemmaToolcall : Consumes gemmaToolcall := by
  intro text data after isSome
  simp only [gemmaToolcall, bind_eq_some_iff, map_eq_some_iff] at isSome
  obtain ⟨inner, opens, called, calls, name, isName, found, closes, same⟩ :=
    isSome
  cases same
  have opened := lit_length opens
  have blanks := spaces_length inner
  have call := lit_length calls
  have calledBlanks := spaces_length called
  have run := nameRun_length isName
  have nameBlanks := spaces_length name.2
  have closed := optionallyBraced_length (shrinks_closing _) closes
  have positive : 0 < "<|tool_call>".toList.length := by decide
  omega

theorem fenceTag_length (text : Text) :
    (fenceTag text).length ≤ text.length := by
  unfold fenceTag
  split
  · rename_i after isTag
    have length := lit_length isTag
    omega
  · cases isTag : lit "tool_call".toList text with
    | none => exact Nat.le_refl _
    | some after =>
      have length := lit_length isTag
      rw [getD_some]
      omega

theorem consumes_fencedJson : Consumes fencedJson := by
  intro text data after isSome
  simp only [fencedJson, bind_eq_some_iff] at isSome
  obtain ⟨inner, opens, isBraced⟩ := isSome
  have opened := lit_length opens
  have tag := fenceTag_length inner
  have blanks := spaces_length (fenceTag inner)
  have closed := braced_length (shrinks_closing _) isBraced
  have positive : 0 < "```".toList.length := by decide
  dsimp only at closed
  omega

theorem nameAttr_length (isSome : nameAttr text = some found) :
    found.2.length < text.length := by
  simp only [nameAttr, bind_eq_some_iff] at isSome
  obtain ⟨equals, isName, quoted, isEquals, value, isQuote, rest⟩ := isSome
  split at rest
  · cases rest
  · simp only [bind_eq_some_iff, map_eq_some_iff] at rest
    obtain ⟨closed, isClosed, after, isAfter, rfl⟩ := rest
    have name := lit_length isName
    have equalsBlanks := spaces_length equals
    have equalsSign := lit_length isEquals
    have quotedBlanks := spaces_length quoted
    have quote := lit_length isQuote
    have run := (dropWhile_suffix (l := value) (· ≠ '"')).length_le
    have unquote := lit_length isClosed
    have closedBlanks := spaces_length closed
    have bracket := lit_length isAfter
    have positive : 0 < "name".toList.length := by decide
    dsimp only
    omega

theorem inTag_length
    (isSome : inTag text = some found) : found.2.length < text.length := by
  induction text with
  | nil =>
    rw [inTag] at isSome
    cases isSome
  | cons char text ih =>
    rw [inTag, or_eq_some_iff] at isSome
    rcases isSome with isAttr | ⟨_, isLater⟩
    · split at isAttr
      · have length := nameAttr_length isAttr
        have blanks := spaces_length text
        simp only [length_cons]
        omega
      · cases isAttr
    · split at isLater
      · cases isLater
      · have length := ih isLater
        simp only [length_cons]
        omega

theorem tagWord_length {alphabet : Alphabet} {found : Text × Text}
    (isSome : tagWord alphabet text = some found) :
    found.2.length ≤ text.length := by
  simp only [tagWord, bind_eq_some_iff] at isSome
  obtain ⟨word, isWord, rest⟩ := isSome
  split at rest
  · cases rest
  · cases rest
    split at isWord
    · rename_i after isFunction
      cases isWord
      have length := lit_length isFunction
      dsimp only
      omega
    · rw [map_eq_some_iff] at isWord
      obtain ⟨after, isParam, rfl⟩ := isWord
      have length := lit_length isParam
      dsimp only
      omega

theorem consumes_attrToken (alphabet : Alphabet) :
    Consumes (attrToken alphabet) := by
  intro text data after isSome
  unfold attrToken at isSome
  split at isSome
  · rename_i opened opens
    simp only [bind_eq_some_iff, map_eq_some_iff] at isSome
    obtain ⟨word, isWord, found, isFound, same⟩ := isSome
    cases same
    have bracket := lit_length opens
    have blanks := spaces_length opened
    have wordLength := tagWord_length isWord
    have attr := inTag_length isFound
    omega
  · rw [map_eq_some_iff] at isSome
    obtain ⟨found, isFound, same⟩ := isSome
    cases same
    exact nameAttr_length isFound

theorem consumes_functionClose : Consumes functionClose := by
  intro text data after isSome
  simp only [functionClose, bind_eq_some_iff, map_eq_some_iff] at isSome
  obtain ⟨opened, opens, named, isNamed, closed, isClosed, same⟩ := isSome
  cases same
  have slash := lit_length opens
  have word := shrinks_closing _ _ _ isNamed
  have bracket := shrinks_closing _ _ _ isClosed
  have positive : 0 < "</".toList.length := by decide
  omega

theorem consumes_paraBreak : Consumes paraBreak := by
  intro text data after isSome
  unfold paraBreak at isSome
  split at isSome
  · rename_i inner
    split at isSome
    · rename_i last isLast
      cases isSome
      have length := (dropWhile_suffix (l := inner)
        fun char => decide (char = ' ' ∨ char = '\t')).length_le
      rw [isLast] at length
      simp only [length_cons] at *
      omega
    · cases isSome
  · cases isSome

/-! ## Where no token begins -/

/-- A folded chunk in which no tag opens and no `name` begins. -/
def noName : Text → Bool
  | [] => true
  | char :: rest =>
    char ≠ '<' && (char ≠ 'n' || rest.head?.any (· ≠ 'a')) && noName rest

/-- Without a name there is no element tag. -/
theorem attrToken_of_noName (alphabet : Alphabet) {chunk rest : Text}
    (named : noName ((char :: chunk).map fold)) :
    attrToken alphabet (char :: (chunk ++ rest)) = none := by
  simp only [map_cons, noName, Bool.and_eq_true, Bool.or_eq_true,
    decide_eq_true_eq] at named
  obtain ⟨⟨notTag, notName⟩, _⟩ := named
  have attr : nameAttr (char :: (chunk ++ rest)) = none := by
    rcases notName with notName | notName
    · simp [nameAttr, lit, notName]
    · cases chunk with
      | nil => simp at notName
      | cons next chunk =>
        have notNext : fold next ≠ 'a' := by simpa using notName
        simp [nameAttr, lit, notNext]
  simp [attrToken, lit, notTag, attr]

theorem quiet_attrToken_of_noName (alphabet : Alphabet) {chunk : Text}
    {follows : Text → Prop} (named : noName (chunk.map fold)) :
    Quiet (attrToken alphabet) follows chunk := by
  induction chunk with
  | nil => trivial
  | cons char chunk ih =>
    refine ⟨fun rest _ => attrToken_of_noName alphabet named, ?_⟩
    apply ih
    simp only [map_cons, noName, Bool.and_eq_true] at named
    exact named.2

theorem noName_blanks {blanks rest : Text}
    (areBlank : ∀ char ∈ blanks, isSpace char) :
    noName ((blanks ++ rest).map fold) = noName (rest.map fold) := by
  induction blanks with
  | nil => rfl
  | cons char blanks ih =>
    have isBlank := areBlank char mem_cons_self
    have notTag : fold char ≠ '<' := fold_ne_of_isSpace isBlank (by decide)
    have notName : fold char ≠ 'n' := fold_ne_of_isSpace isBlank (by decide)
    rw [cons_append, map_cons, noName, ih
      fun other isIn => areBlank other (mem_cons_of_mem char isIn)]
    simp [notTag, notName]

theorem functionClose_eq_some (closes : functionClose text = some ((), after))
    (alphabet : Alphabet) :
    ∃ taken, text = taken ++ after ∧
      Quiet (attrToken alphabet) Anything taken := by
  simp only [functionClose, bind_eq_some_iff, map_eq_some_iff] at closes
  obtain ⟨opened, opens, named, isNamed, closed, isClosed, same⟩ := closes
  cases same
  obtain ⟨slash, rfl, foldedSlash⟩ := lit_eq_some opens
  obtain ⟨blanks, word, rfl, areBlank, foldedWord⟩ := closing_eq_some isNamed
  obtain ⟨more, bracket, rfl, areMore, foldedBracket⟩ :=
    closing_eq_some isClosed
  have slashLetters : slash.map fold = ['<', '/'] := foldedSlash
  have wordLetters : word.map fold =
      ['f', 'u', 'n', 'c', 't', 'i', 'o', 'n'] := foldedWord
  obtain ⟨first, _, rfl, foldedFirst, foldedRest⟩ :=
    map_eq_cons_iff.mp slashLetters
  obtain ⟨second, _, rfl, foldedSecond, foldedNil⟩ :=
    map_eq_cons_iff.mp foldedRest
  obtain rfl := map_eq_nil_iff.mp foldedNil
  refine ⟨[first, second] ++ (blanks ++ (word ++ (more ++ bracket))), ?_, ?_⟩
  · simp
  · have tail : noName ((more ++ bracket).map fold) := by
      rw [noName_blanks areMore, foldedBracket]
      decide
    have afterWord : ((more ++ bracket).map fold).head?.any (· ≠ 'a') := by
      cases more with
      | nil =>
        rw [nil_append, foldedBracket]
        decide
      | cons char more =>
        have notA : fold char ≠ 'a' :=
          fold_ne_of_isSpace (areMore char mem_cons_self) (by decide)
        simp [notA]
    have inWord : noName ((word ++ (more ++ bracket)).map fold) := by
      rw [map_append, wordLetters]
      simp only [cons_append, nil_append, noName, tail, afterWord]
      rfl
    have afterSlash : noName
        ((second :: (blanks ++ (word ++ (more ++ bracket)))).map fold) := by
      rw [map_cons, foldedSecond, noName, noName_blanks areBlank, inWord]
      rfl
    have notBlank : isSpace second = false := by
      by_contra isBlank
      exact fold_ne_of_isSpace (Bool.of_not_eq_false isBlank)
        (by decide) foldedSecond
    refine ⟨?_, quiet_attrToken_of_noName alphabet afterSlash⟩
    intro rest _
    have opens : ∀ text : Text, lit ['<'] (first :: text) = some text := by
      intro text
      rw [lit, if_pos foldedFirst, lit]
    have stays : ∀ text : Text, spaces (second :: text) = second :: text := by
      intro text
      apply dropWhile_cons_of_neg
      rw [notBlank]
      exact Bool.false_ne_true
    have notWord : ∀ (head : Char) (tail text : Text), head ≠ '/' →
        lit (head :: tail) (second :: text) = none := by
      intro head tail text differs
      rw [lit, if_neg]
      rw [foldedSecond]
      exact differs.symm
    have noWord : ∀ text : Text, tagWord alphabet (second :: text) = none := by
      intro text
      have function : lit "function".toList (second :: text) = none :=
        notWord 'f' "unction".toList text (by decide)
      have param : lit "param".toList (second :: text) = none :=
        notWord 'p' "aram".toList text (by decide)
      rw [tagWord, function, param]
      rfl
    have isTag : ∀ text : Text, lit "<".toList (first :: text) = some text :=
      opens
    have result : attrToken alphabet (first :: second ::
        ((blanks ++ (word ++ (more ++ bracket))) ++ rest)) = none := by
      rw [attrToken, isTag]
      dsimp only
      rw [stays, noWord]
      rfl
    exact result

end Hal0.Toolloop
