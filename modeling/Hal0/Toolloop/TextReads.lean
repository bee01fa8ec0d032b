import Hal0.Toolloop.TextBlocks

/-!
# How the patterns read well-formed calls

Each pattern reads the blocks of its dialect whole, with what they hold, and
finds nothing in the blocks of the others but for the tags which are written
inside a pair of `<tool_call>` tags.
-/

namespace Hal0.Toolloop

open List Option
open Hal0.Scan
open Hal0.Slots.ConfigFiles (isSpace)

/-! ## Blanks and closers -/

variable {word : Text}

theorem lit_self (folded : word.map fold = word) (rest : Text) :
    lit word (word ++ rest) = some rest := by
  induction word with
  | nil => rw [nil_append, lit]
  | cons char word ih =>
    obtain ⟨isSame, folded⟩ := List.cons.inj folded
    rw [cons_append, lit, if_pos isSame, ih folded]

theorem spaces_blank {blanks : Text} (isBlank : Blank blanks) (text : Text) :
    spaces (blanks ++ text) = spaces text := by
  induction blanks with
  | nil => rfl
  | cons char blanks ih =>
    rw [cons_append, spaces, dropWhile_cons_of_pos
      (isBlank char mem_cons_self)]
    exact ih fun other isIn =>
      isBlank other (mem_cons_of_mem char isIn)

theorem spaces_cons {char : Char} (notBlank : isSpace char = false)
    (text : Text) : spaces (char :: text) = char :: text := by
  apply dropWhile_cons_of_neg
  rw [notBlank]
  exact Bool.false_ne_true

theorem closing_self (begins : word.head?.any fun char => !isSpace char)
    (folded : word.map fold = word) (rest : Text) :
    closing word (word ++ rest) = some rest := by
  cases word with
  | nil => cases begins
  | cons char word =>
    have notBlank : isSpace char = false := by simpa using begins
    rw [closing, cons_append, spaces_cons notBlank,
      ← cons_append, lit_self folded]

/-- The text ends in no blank. -/
def Solid (text : Text) : Prop :=
  ∃ before last, text = before ++ [last] ∧ isSpace last = false

variable {text : Text}

theorem Solid.tail {char : Char} (solid : Solid (char :: text))
    (nonempty : text ≠ []) : Solid text := by
  obtain ⟨before, last, same, notBlank⟩ := solid
  cases before with
  | nil =>
    simp only [nil_append, List.cons.injEq] at same
    exact absurd same.2 nonempty
  | cons head before =>
    exact ⟨before, last, (List.cons.inj same).2, notBlank⟩

variable {rest : Text}

theorem closing_of_quiet (quiet : Quiet (literal word) (· = rest) text)
    (solid : Solid text) :
    closing word (text ++ rest) = none := by
  induction text with
  | nil =>
    obtain ⟨before, last, same, _⟩ := solid
    simp at same
  | cons char text ih =>
    cases blank : isSpace char with
    | false =>
      have nothing := quiet.1 rest rfl
      rw [literal, map_eq_none_iff] at nothing
      rw [closing, cons_append, spaces_cons blank, nothing]
    | true =>
      have nonempty : text ≠ [] := by
        rintro rfl
        obtain ⟨before, last, same, notBlank⟩ := solid
        cases before with
        | nil =>
          simp only [nil_append, List.cons.injEq, and_true] at same
          rw [← same, blank] at notBlank
          cases notBlank
        | cons head before => simp at same
      have later := ih quiet.2 (solid.tail nonempty)
      have skips : spaces (char :: (text ++ rest)) =
          spaces (text ++ rest) :=
        dropWhile_cons_of_pos blank
      rw [closing, cons_append, skips]
      exact later

variable {after : Text}

theorem lazily_of_quiet (quiet : Quiet (literal word) (· = rest) text)
    (solid : Solid text) (closes : closing word rest = some after) :
    lazily (closing word) (text ++ rest) = some (text, after) := by
  have atEnd : lazily (closing word) rest = some ([], after) := by
    cases rest with
    | nil =>
      rw [lazily, closes]
      rfl
    | cons char rest =>
      rw [lazily, closes]
  induction text with
  | nil => exact atEnd
  | cons char text ih =>
    have here := closing_of_quiet quiet solid
    rw [cons_append] at here
    rw [cons_append, lazily, here]
    dsimp only
    rcases eq_or_ne text [] with rfl | nonempty
    · rw [nil_append, atEnd]
      rfl
    · rw [ih quiet.2 (solid.tail nonempty)]
      rfl

theorem closing_blank {blanks : Text} (isBlank : Blank blanks)
    (closes : closing word text = some after) :
    closing word (blanks ++ text) = some after := by
  rw [closing, spaces_blank isBlank]
  exact closes

/-! ## `<tool_call>` -/

theorem wrap_append (lead body trail rest : Text) :
    wrap lead body trail ++ rest = "<tool_call>".toList ++
      (lead ++ (body ++ (trail ++ ("</tool_call>".toList ++ rest)))) := by
  unfold wrap
  generalize "<tool_call>".toList = opening
  generalize "</tool_call>".toList = closing
  simp only [append_assoc]

/-- A wrapper is read with its body. -/
theorem textToolcall_wrap {lead body trail : Text} (leadBlank : Blank lead)
    (trailBlank : Blank trail) (rest : Text) {first : Char} {others : Text}
    (begins : body = first :: others) (notBlank : isSpace first = false)
    (solid : Solid body)
    (quiet : Quiet (literal "</tool_call>".toList)
      (fun after => ∃ rest, after = trail ++ ("</tool_call>".toList ++ rest))
      body) :
    textToolcall (wrap lead body trail ++ rest) =
      some (("<tool_call>".toList.length + lead.length, body), rest) := by
  have opens : lit "<tool_call>".toList (wrap lead body trail ++ rest) =
      some (lead ++ (body ++ (trail ++ ("</tool_call>".toList ++ rest)))) := by
    rw [wrap_append]
    exact lit_self (by decide) _
  have inner : spaces (lead ++ (body ++ (trail ++
      ("</tool_call>".toList ++ rest)))) =
        body ++ (trail ++ ("</tool_call>".toList ++ rest)) := by
    rw [spaces_blank leadBlank, begins, cons_append, spaces_cons notBlank]
  have closes : closing "</tool_call>".toList
      (trail ++ ("</tool_call>".toList ++ rest)) = some rest :=
    closing_blank trailBlank (closing_self (by decide) (by decide) rest)
  have reads := lazily_of_quiet
    (quiet.mono fun after isAfter => ⟨rest, isAfter⟩) solid closes
  have offset : (wrap lead body trail ++ rest).length -
      (body ++ (trail ++ ("</tool_call>".toList ++ rest))).length =
        "<tool_call>".toList.length + lead.length := by
    rw [wrap_append]
    generalize "<tool_call>".toList = opening
    generalize "</tool_call>".toList = closing
    simp only [length_append]
    omega
  rw [textToolcall, opens, bind_some, inner, reads, map_some, offset]

/-! ## Braces -/

variable {head : Char}

theorem spaces_append_cons (notBlank : isSpace head = false)
    (text rest : Text) :
    spaces (text ++ head :: rest) = spaces text ++ head :: rest := by
  unfold spaces
  rw [dropWhile_append]
  split
  · rename_i isEmpty
    rw [isEmpty_iff.mp isEmpty, nil_append]
    exact spaces_cons notBlank rest
  · rfl

theorem closing_append_cons (barrier : ∀ char ∈ word, fold head ≠ char)
    (notBlank : isSpace head = false) (rest : Text)
    (nothing : closing word (text ++ [head]) = none) :
    closing word (text ++ head :: rest) = none := by
  cases result : closing word (text ++ head :: rest) with
  | none => rfl
  | some after =>
    rw [closing, spaces_append_cons notBlank] at result
    obtain ⟨inner, isInner, _⟩ := lit_append_of_barrier barrier result
    rw [closing, spaces_append_cons notBlank, lit_extend isInner] at nothing
    cases nothing

theorem lazily_braced {inside : Text}
    (noBrace : ∀ char ∈ word, fold '\x7d' ≠ char)
    (isSealed : sealed word (inside ++ ['\x7d']))
    (closes : closing word rest = some after) :
    lazily (braceThen (closing word)) (inside ++ '\x7d' :: rest) =
      some (inside, after) := by
  induction inside with
  | nil =>
    have here : braceThen (closing word) ('\x7d' :: rest) = some after :=
      closes
    rw [nil_append, lazily, here]
  | cons char inside ih =>
    rw [cons_append, sealed, Bool.and_eq_true] at isSealed
    have here : braceThen (closing word)
        (char :: (inside ++ '\x7d' :: rest)) = none := by
      unfold braceThen
      split
      · rename_i text same
        obtain ⟨rfl, rfl⟩ := List.cons.inj same
        have nothing : closing word (inside ++ ['\x7d']) = none := by
          simpa using isSealed.1
        exact closing_append_cons noBrace (by decide) rest nothing
      · rfl
    rw [cons_append, lazily, here]
    dsimp only
    rw [ih isSealed.2]
    rfl

theorem braced_reads {raw : Text} (noBrace : ∀ char ∈ word, fold '\x7d' ≠ char)
    (isBraced : Braced raw) (isSealed : sealed word raw)
    (closes : closing word rest = some after) :
    braced (closing word) (raw ++ rest) = some (raw, after) := by
  obtain ⟨inside, rfl⟩ := isBraced
  rw [sealed, Bool.and_eq_true] at isSealed
  have reads := lazily_braced noBrace isSealed.2 closes
  rw [cons_append, append_assoc, singleton_append, braced, reads]
  rfl

theorem optionallyBraced_reads (notBlank : isSpace head = false)
    (notOpen : head ≠ '\x7b') (noBrace : ∀ char ∈ word, fold '\x7d' ≠ char)
    {tag : Tag} (leadBlank : Blank tag.lead) (trailBlank : Blank tag.trail)
    (isBraced : ∀ raw, tag.arguments = some raw →
      Braced raw ∧ sealed word raw) (begins : ∃ others, rest = head :: others)
    (closes : closing word rest = some after) :
    optionallyBraced (closing word) (spaces (tag.body ++ rest)) =
      some (tag.arguments, after) := by
  obtain ⟨others, rfl⟩ := begins
  have trailCloses := closing_blank trailBlank closes
  have shape : tag.body ++ head :: others = tag.lead ++
      (tag.arguments.getD [] ++ (tag.trail ++ head :: others)) := by
    rw [Tag.body, append_assoc, append_assoc]
  rw [shape, spaces_blank leadBlank]
  cases arguments : tag.arguments with
  | none =>
    have ends : spaces (tag.trail ++ head :: others) = head :: others := by
      rw [spaces_blank trailBlank, spaces_cons notBlank]
    have noObject : braced (closing word) (head :: others) = none := by
      unfold braced
      split
      · rename_i text same
        exact absurd (List.cons.inj same).1 notOpen
      · rfl
    rw [getD_none, nil_append, ends, optionallyBraced, noObject, closes]
    rfl
  | some raw =>
    obtain ⟨isObject, isSealed⟩ := isBraced raw arguments
    have reads := braced_reads noBrace isObject isSealed trailCloses
    have begins : spaces (raw ++ (tag.trail ++ head :: others)) =
        raw ++ (tag.trail ++ head :: others) := by
      obtain ⟨inside, rfl⟩ := isObject
      rw [cons_append]
      exact spaces_cons (by decide) _
    rw [getD_some, begins, optionallyBraced, reads]

theorem plain_of_suffix {alphabet : Alphabet} {before : Text}
    (isPlain : plain alphabet (before ++ text)) : plain alphabet text := by
  induction before with
  | nil => exact isPlain
  | cons char before ih =>
    rw [cons_append, plain, Bool.and_eq_true] at isPlain
    exact ih isPlain.2

theorem sealed_of_plain {alphabet : Alphabet} {raw trail : Text}
    (isTag : word ∈ tagWords) (isPlain : plain alphabet (raw ++ trail)) :
    sealed word raw := by
  induction raw with
  | nil => rfl
  | cons char raw ih =>
    rw [cons_append, plain, Bool.and_eq_true] at isPlain
    have nothing : closing word raw = none := by
      cases result : closing word raw with
      | none => rfl
      | some inner =>
        obtain ⟨blanks, same, _⟩ := spaces_eq raw
        have later := isPlain.2
        rw [same, append_assoc] at later
        have plainRest := plain_of_suffix later
        rw [closing] at result
        cases begins : spaces raw with
        | nil =>
          obtain ⟨tail, rfl, _⟩ := tagWords_tail isTag
          rw [begins] at result
          cases result
        | cons head others =>
          rw [begins] at result plainRest
          have longer := lit_extend result trail
          have isMarkup : markup alphabet
              (head :: (others ++ trail)) := by
            apply markup_of_lit isTag
            rw [← cons_append, longer]
            rfl
          rw [cons_append, plain, isMarkup] at plainRest
          cases plainRest
    rw [sealed, Bool.and_eq_true, nothing]
    refine ⟨?_, ih isPlain.2⟩
    simp

/-! ## Names and tags -/

theorem not_nameChar_of_isSpace {char : Char} (isBlank : isSpace char) :
    isNameChar char = false := by
  have folded := fold_of_isSpace isBlank
  have codes : ¬ char.isAlphanum := by
    intro isLetter
    have classes : char.isAlphanum =
        ((decide (char.val ≥ 'A'.val ∧ char.val ≤ 'Z'.val) ||
          decide (char.val ≥ 'a'.val) && decide (char.val ≤ 'z'.val)) ||
          decide (char.val ≥ '0'.val) && decide (char.val ≤ '9'.val)) := rfl
    simp only [classes, Bool.or_eq_true, Bool.and_eq_true, decide_eq_true_eq,
      UInt32.le_iff_toNat_le, ge_iff_le] at isLetter
    simp only [isSpace, Bool.or_eq_true, Bool.and_eq_true,
      decide_eq_true_eq] at isBlank
    have code : char.toNat = char.val.toNat := rfl
    simp at isLetter
    omega
  have others : char ≠ '_' ∧ char ≠ '.' ∧ char ≠ '-' := by
    refine ⟨?_, ?_, ?_⟩
    · rintro rfl
      cases isBlank
    · rintro rfl
      cases isBlank
    · rintro rfl
      cases isBlank
  simp [isNameChar, folded, codes, others]

theorem nameRun_reads {name : Text}
    (named : name ≠ [] ∧ ∀ char ∈ name, isNameChar char)
    (stops : isNameChar head = false) (rest : Text) :
    nameRun (name ++ head :: rest) =
      some (String.ofList name, head :: rest) := by
  have taken : (name ++ head :: rest).takeWhile isNameChar = name := by
    rw [takeWhile_append_of_pos named.2]
    rw [takeWhile_cons_of_neg (by rw [stops]; exact Bool.false_ne_true),
      append_nil]
  have left : (name ++ head :: rest).dropWhile isNameChar = head :: rest := by
    rw [dropWhile_append_of_pos named.2]
    exact dropWhile_cons_of_neg
      (by rw [stops]; exact Bool.false_ne_true)
  have nonempty : name.isEmpty = false := by
    rw [isEmpty_eq_false_iff]
    exact named.1
  rw [nameRun, taken, left, nonempty]
  rfl

theorem closing_tag (isTag : word ∈ tagWords) (rest : Text) :
    closing word (word ++ rest) = some rest := by
  have folded : ∀ word ∈ tagWords, word.map fold = word := by decide
  have begins : ∀ word ∈ tagWords,
      word.head?.any fun char => !isSpace char := by
    decide
  exact closing_self (begins word isTag) (folded word isTag) rest

section
variable {runtime : Runtime} {alphabet : Alphabet} {tag : Tag}

theorem Tag.WellFormed.sealedArguments (wellFormed : tag.WellFormed runtime)
    {word : Text} (isTag : word ∈ tagWords)
    (isPlain : plain alphabet tag.body) :
    ∀ raw, tag.arguments = some raw → Braced raw ∧ sealed word raw := by
  intro raw isArguments
  refine ⟨(wellFormed.object raw isArguments).1, ?_⟩
  rw [Tag.body, isArguments, getD_some] at isPlain
  exact sealed_of_plain isTag (plain_of_suffix isPlain)

theorem Tag.WellFormed.reads (wellFormed : tag.WellFormed runtime)
    {word : Text} (isTag : word ∈ tagWords)
    (isPlain : plain alphabet tag.body) (rest : Text) :
    optionallyBraced (closing word) (spaces (tag.body ++ (word ++ rest))) =
      some (tag.arguments, rest) := by
  have noBrace : ∀ word ∈ tagWords, ∀ char ∈ word, fold '\x7d' ≠ char := by
    decide
  have isSealed := wellFormed.sealedArguments isTag isPlain
  have closes := closing_tag isTag rest
  obtain ⟨tail, rfl, _⟩ := tagWords_tail isTag
  have notBlank : isSpace '<' = false := by decide
  exact optionallyBraced_reads notBlank (by decide) (noBrace _ isTag)
    wellFormed.lead wellFormed.trail isSealed ⟨_, rfl⟩ closes

theorem Tag.render_append (tag : Tag) (rest : Text) :
    tag.render ++ rest = "<function=".toList ++
      (tag.name ++ '>' :: (tag.body ++ ("</function>".toList ++ rest))) := by
  unfold Tag.render Tag.inner
  generalize "<function=".toList = opening
  generalize "</function>".toList = closing
  simp only [append_assoc, cons_append]

theorem Tag.gemma_append (tag : Tag) (rest : Text) :
    tag.gemma ++ rest = "<|tool_call>".toList ++ ("call:".toList ++
      (tag.name ++ (tag.body ++ ("<tool_call|>".toList ++ rest)))) := by
  unfold Tag.gemma Tag.gemmaInner
  generalize "<|tool_call>".toList = opening
  generalize "call:".toList = called
  generalize "<tool_call|>".toList = closing
  simp only [append_assoc]

/-- A tag is read as it was written. -/
theorem functionTag_reads (wellFormed : tag.WellFormed runtime)
    (isPlain : plain alphabet tag.inner) (rest : Text) :
    functionTag (tag.render ++ rest) =
      some ((String.ofList tag.name, tag.arguments), rest) := by
  have plainBody : plain alphabet tag.body := by
    have parts : tag.inner = (tag.name ++ ['>']) ++ tag.body := by
      rw [Tag.inner, append_assoc, singleton_append]
    rw [parts] at isPlain
    exact plain_of_suffix isPlain
  have opens : lit "<function=".toList (tag.render ++ rest) = some
      (tag.name ++ '>' :: (tag.body ++ ("</function>".toList ++ rest))) := by
    rw [Tag.render_append]
    exact lit_self (by decide) _
  have stops : isNameChar '>' = false := by decide
  have name := nameRun_reads wellFormed.named stops
    (tag.body ++ ("</function>".toList ++ rest))
  have bracket : ∀ text : Text, lit ">".toList ('>' :: text) = some text :=
    fun text => lit_self (by decide) text
  have isTag : "</function>".toList ∈ tagWords := by decide
  have arguments := wellFormed.reads isTag plainBody rest
  rw [functionTag, opens, bind_some, name, bind_some, bracket,
    bind_some, arguments]
  rfl

theorem Tag.WellFormed.stops (wellFormed : tag.WellFormed runtime)
    {word : Text} (isTag : word ∈ tagWords) (rest : Text) :
    ∃ head others, tag.body ++ (word ++ rest) = head :: others ∧
      isNameChar head = false := by
  obtain ⟨tail, rfl, _⟩ := tagWords_tail isTag
  have blanks : ∀ blanks text : Text, Blank blanks →
      (∃ head others, text = head :: others ∧ isNameChar head = false) →
        ∃ head others, blanks ++ text = head :: others ∧
          isNameChar head = false := by
    intro blanks text isBlank behind
    cases blanks with
    | nil => exact behind
    | cons char blanks =>
      exact ⟨char, blanks ++ text, rfl,
        not_nameChar_of_isSpace (isBlank char mem_cons_self)⟩
  rw [Tag.body, append_assoc, append_assoc]
  apply blanks _ _ wellFormed.lead
  cases arguments : tag.arguments with
  | none =>
    apply blanks _ _ wellFormed.trail
    exact ⟨'<', tail ++ rest, rfl, by decide⟩
  | some raw =>
    obtain ⟨⟨inside, rfl⟩, _⟩ := wellFormed.object raw arguments
    exact ⟨'\x7b', _, rfl, by decide⟩

theorem gemmaToolcall_reads (wellFormed : tag.WellFormed runtime)
    (isPlain : plain alphabet tag.gemmaInner) (rest : Text) :
    gemmaToolcall (tag.gemma ++ rest) =
      some ((String.ofList tag.name, tag.arguments), rest) := by
  have plainBody : plain alphabet tag.body := by
    rw [Tag.gemmaInner] at isPlain
    exact plain_of_suffix (plain_of_suffix isPlain)
  have isTag : "<tool_call|>".toList ∈ tagWords := by decide
  have opens : lit "<|tool_call>".toList (tag.gemma ++ rest) = some
      ("call:".toList ++
        (tag.name ++ (tag.body ++ ("<tool_call|>".toList ++ rest)))) := by
    rw [Tag.gemma_append]
    exact lit_self (by decide) _
  have called : ∀ text : Text, closing "call:".toList
      ("call:".toList ++ text) = some text :=
    fun text => closing_self (by decide) (by decide) text
  have arguments := wellFormed.reads isTag plainBody rest
  have name : nameRun (spaces (tag.name ++
      (tag.body ++ ("<tool_call|>".toList ++ rest)))) =
        some (String.ofList tag.name,
          tag.body ++ ("<tool_call|>".toList ++ rest)) := by
    obtain ⟨head, others, begins, stops⟩ := wellFormed.stops isTag rest
    have stays : ∀ text, spaces (tag.name ++ text) = tag.name ++ text := by
      intro text
      obtain ⟨nonempty, areName⟩ := wellFormed.named
      cases named : tag.name with
      | nil => exact absurd named nonempty
      | cons char name =>
        rw [named] at areName
        apply spaces_cons
        by_contra isBlank
        have notName := not_nameChar_of_isSpace
          (Bool.of_not_eq_false isBlank)
        rw [areName char mem_cons_self] at notName
        cases notName
    rw [stays, begins]
    exact nameRun_reads wellFormed.named stops others
  have calls := called (tag.name ++
    (tag.body ++ ("<tool_call|>".toList ++ rest)))
  rw [closing] at calls
  rw [gemmaToolcall, opens, bind_some, calls, bind_some, name,
    bind_some, arguments]
  rfl

end

/-! ## Fences -/

theorem fenceTag_label {label lead body : Text}
    (isLabel : label ∈ [[], "json".toList, "tool_call".toList])
    (leadBlank : Blank lead) (isBraced : Braced body) (rest : Text) :
    fenceTag (label ++ (lead ++ (body ++ rest))) =
      lead ++ (body ++ rest) := by
  have unlabelled : fenceTag (lead ++ (body ++ rest)) =
      lead ++ (body ++ rest) := by
    have neither : ∀ char, (isSpace char ∨ char = '\x7b') →
        fold char ≠ 'j' ∧ fold char ≠ 't' := by
      rintro char (isBlank | rfl)
      · exact ⟨fold_ne_of_isSpace isBlank (by decide),
          fold_ne_of_isSpace isBlank (by decide)⟩
      · decide
    have begins : ∃ char others, lead ++ (body ++ rest) = char :: others ∧
        (isSpace char ∨ char = '\x7b') := by
      obtain ⟨inside, rfl⟩ := isBraced
      cases lead with
      | nil => exact ⟨'\x7b', _, rfl, Or.inr rfl⟩
      | cons char lead =>
        exact ⟨char, _, rfl, Or.inl (leadBlank char mem_cons_self)⟩
    obtain ⟨char, others, same, isFirst⟩ := begins
    obtain ⟨notJson, notCall⟩ := neither char isFirst
    have json : lit ('j' :: "son".toList) (char :: others) = none := by
      rw [lit, if_neg notJson]
    have call : lit ('t' :: "ool_call".toList) (char :: others) = none := by
      rw [lit, if_neg notCall]
    have jsonWord : lit "json".toList (char :: others) = none := json
    have callWord : lit "tool_call".toList (char :: others) = none := call
    rw [same, fenceTag, jsonWord, callWord]
    rfl
  simp only [mem_cons, not_mem_nil, or_false] at isLabel
  rcases isLabel with rfl | rfl | rfl
  · exact unlabelled
  · rw [fenceTag, lit_self (by decide)]
  · have notJson : ∀ text : Text,
        lit "json".toList ("tool_call".toList ++ text) = none :=
      fun _ => rfl
    rw [fenceTag, notJson, lit_self (by decide)]
    rfl

theorem fencedJson_reads {label lead body trail : Text}
    (isLabel : label ∈ [[], "json".toList, "tool_call".toList])
    (leadBlank : Blank lead) (trailBlank : Blank trail)
    (isBraced : Braced body) (isSealed : sealed "```".toList body)
    (rest : Text) :
    fencedJson ("```".toList ++
        ((label ++ (lead ++ (body ++ trail))) ++ "```".toList) ++ rest) =
      some (body, rest) := by
  have shape : "```".toList ++
      ((label ++ (lead ++ (body ++ trail))) ++ "```".toList) ++ rest =
        "```".toList ++ (label ++ (lead ++ (body ++
          (trail ++ ("```".toList ++ rest))))) := by
    generalize "```".toList = fence
    simp only [append_assoc]
  have opens : ∀ text : Text,
      lit "```".toList ("```".toList ++ text) = some text :=
    fun text => lit_self (by decide) text
  have begins : spaces (lead ++ (body ++
      (trail ++ ("```".toList ++ rest)))) =
        body ++ (trail ++ ("```".toList ++ rest)) := by
    rw [spaces_blank leadBlank]
    obtain ⟨inside, rfl⟩ := isBraced
    exact spaces_cons (by decide) _
  have closes : closing "```".toList ("```".toList ++ rest) = some rest :=
    closing_self (by decide) (by decide) rest
  have reads := braced_reads (by decide) isBraced isSealed
    (closing_blank trailBlank closes)
  rw [shape, fencedJson, opens, bind_some,
    fenceTag_label isLabel leadBlank isBraced, begins, reads]

/-! ## Attribute-style tokens -/

theorem nameAttr_reads {name : Text} (named : AttrName name) (rest : Text) :
    nameAttr ("name=\"".toList ++ (name ++ ("\">".toList ++ rest))) =
      some (String.ofList name, rest) := by
  have opening : "name=\"".toList =
      "name".toList ++ ("=".toList ++ "\"".toList) := by decide
  have ending : ∀ text : Text, "\">".toList ++ text =
      '"' :: (">".toList ++ text) := fun _ => rfl
  have word : ∀ text : Text,
      lit "name".toList ("name".toList ++ text) = some text :=
    fun text => lit_self (by decide) text
  have equals : ∀ text : Text,
      lit "=".toList (spaces ("=".toList ++ text)) = some text :=
    fun text => closing_self (by decide) (by decide) text
  have quote : ∀ text : Text,
      lit "\"".toList (spaces ("\"".toList ++ text)) = some text :=
    fun text => closing_self (by decide) (by decide) text
  have unquote : ∀ text : Text,
      lit "\"".toList ('"' :: text) = some text :=
    fun text => lit_self (by decide) text
  have bracket : ∀ text : Text,
      lit ">".toList (spaces (">".toList ++ text)) = some text :=
    fun text => closing_self (by decide) (by decide) text
  have inside : ∀ char ∈ name, decide (char ≠ '"') = true :=
    fun char isIn => decide_eq_true (named.2 char isIn).1
  have taken : ∀ text : Text,
      (name ++ '"' :: text).takeWhile (· ≠ '"') = name := by
    intro text
    rw [takeWhile_append_of_pos inside]
    simp
  have left : ∀ text : Text,
      (name ++ '"' :: text).dropWhile (· ≠ '"') = '"' :: text := by
    intro text
    rw [dropWhile_append_of_pos inside]
    simp
  have nonempty : name.isEmpty = false :=
    isEmpty_eq_false_iff.mpr named.1
  rw [opening, append_assoc, append_assoc, ending, nameAttr, word,
    bind_some, equals, bind_some, quote, bind_some,
    taken, left, nonempty, unquote, bind_some, bracket]
  rfl

section
variable (alphabet : Alphabet)

theorem tagWord_reads {kind : Text}
    (isKind : kind = "function".toList ∨ kind = "param".toList)
    (text : Text) :
    tagWord alphabet (kind ++ ' ' :: text) = some (kind, ' ' :: text) := by
  have boundary : (' ' :: text).head?.any alphabet.isWord = false :=
    alphabet.blank
  rcases isKind with rfl | rfl
  · have word := lit_self (show "function".toList.map fold =
      "function".toList by decide) (' ' :: text)
    rw [tagWord, word]
    dsimp only [bind_some]
    rw [boundary]
    rfl
  · have notFunction : lit "function".toList
        ("param".toList ++ ' ' :: text) = none := rfl
    have word := lit_self (show "param".toList.map fold =
      "param".toList by decide) (' ' :: text)
    rw [tagWord, notFunction, word]
    dsimp only [map_some, bind_some]
    rw [boundary]
    rfl

/-- The opening of an element is read. -/
theorem attrToken_tag {kind name : Text}
    (isKind : kind = "function".toList ∨ kind = "param".toList)
    (named : AttrName name) (rest : Text) :
    attrToken alphabet ('<' :: (kind ++ ' ' :: ("name=\"".toList ++
        (name ++ ("\">".toList ++ rest))))) =
      some ((kind, String.ofList name), rest) := by
  have opens : ∀ text : Text, lit "<".toList ('<' :: text) = some text :=
    fun text => lit_self (by decide) text
  have stays : ∀ text : Text, spaces (kind ++ text) = kind ++ text := by
    intro text
    rcases isKind with rfl | rfl
    · rfl
    · rfl
  have attr : ∀ text : Text, spaces ("name=\"".toList ++ text) =
      "name=\"".toList ++ text := fun _ => rfl
  have blank : isSpace ' ' := by decide
  rw [attrToken, opens]
  dsimp only
  rw [stays, tagWord_reads alphabet isKind, bind_some, inTag,
    if_pos blank, attr, nameAttr_reads named]
  rfl

theorem attrToken_element {element : Element} (named : AttrName element.name)
    (rest : Text) :
    attrToken alphabet (element.opener ++ rest) =
      some (("function".toList, String.ofList element.name), rest) := by
  have opening : ∀ text : Text, "<function name=\"".toList ++ text =
      '<' :: ("function".toList ++ ' ' :: ("name=\"".toList ++ text)) :=
    fun _ => rfl
  have shape : element.opener ++ rest = "<function name=\"".toList ++
      (element.name ++ ("\">".toList ++ rest)) := by
    unfold Element.opener
    generalize "<function name=\"".toList = opening
    generalize "\">".toList = ending
    simp only [append_assoc]
  rw [shape, opening]
  exact attrToken_tag alphabet (Or.inl rfl) named rest

theorem attrToken_param {param : Param} (named : AttrName param.name)
    (rest : Text) :
    attrToken alphabet (param.opener ++ rest) =
      some (("param".toList, String.ofList param.name), rest) := by
  have opening : ∀ text : Text, "<param name=\"".toList ++ text =
      '<' :: ("param".toList ++ ' ' :: ("name=\"".toList ++ text)) :=
    fun _ => rfl
  have shape : param.opener ++ rest = "<param name=\"".toList ++
      (param.name ++ ("\">".toList ++ rest)) := by
    unfold Param.opener
    generalize "<param name=\"".toList = opening
    generalize "\">".toList = ending
    simp only [append_assoc]
  rw [shape, opening]
  exact attrToken_tag alphabet (Or.inr rfl) named rest

/-! ## The tokens of elements -/

/-- The tokens of parameters which begin at a position. -/
def paramTokens : Nat → List Param → List Token
  | _, [] => []
  | position, param :: params =>
    ⟨⟨position, position + param.opener.length⟩,
      ("param".toList, String.ofList param.name)⟩ ::
      paramTokens (position + param.render.length) params

/-- The tokens of an element which begins at a position. -/
def elementTokens (position : Nat) (element : Element) : List Token :=
  ⟨⟨position, position + element.opener.length⟩,
    ("function".toList, String.ofList element.name)⟩ ::
    paramTokens (position + element.opener.length + element.lead.length)
      element.params

/-- The tokens of elements, the first of which begins at a position. -/
def elementsTokens : Nat → List (Text × Element) → List Token
  | _, [] => []
  | position, element :: elements =>
    elementTokens (position + element.1.length) element.2 ++
      elementsTokens
        (position + (element.1 ++ element.2.render).length) elements

theorem quiet_attrToken_blank {blanks : Text} (isBlank : Blank blanks) :
    Quiet (attrToken alphabet) Anything blanks := by
  apply quiet_attrToken_of_noName
  have ends : noName ((blanks ++ []).map fold) = noName ([].map fold) :=
    noName_blanks isBlank
  rw [append_nil] at ends
  exact ends

/-- A tag which is neither a function nor a parameter, by its second character. -/
def strangeTag : Text → Bool
  | '<' :: second :: tail => !isSpace second && fold second ≠ 'f' &&
      fold second ≠ 'p' && noName ((second :: tail).map fold)
  | _ => false

theorem quiet_attrToken_strange {tag : Text} (isStrange : strangeTag tag) :
    Quiet (attrToken alphabet) Anything tag := by
  unfold strangeTag at isStrange
  split at isStrange
  · rename_i second tail
    simp only [Bool.and_eq_true, Bool.not_eq_true', decide_eq_true_eq]
      at isStrange
    obtain ⟨⟨⟨notBlank, notFunction⟩, notParam⟩, named⟩ := isStrange
    refine ⟨?_, quiet_attrToken_of_noName alphabet named⟩
    intro rest _
    have opens : ∀ text : Text, lit "<".toList ('<' :: text) = some text :=
      fun text => lit_self (by decide) text
    have function : lit "function".toList (second :: (tail ++ rest)) =
        none := by
      have word : lit ('f' :: "unction".toList) (second :: (tail ++ rest)) =
          none := by
        rw [lit, if_neg notFunction]
      exact word
    have param : lit "param".toList (second :: (tail ++ rest)) = none := by
      have word : lit ('p' :: "aram".toList) (second :: (tail ++ rest)) =
          none := by
        rw [lit, if_neg notParam]
      exact word
    rw [cons_append, attrToken, opens]
    dsimp only
    rw [spaces_cons notBlank, tagWord, function, param]
    rfl
  · cases isStrange

theorem Param.opener_ne_nil (param : Param) : param.opener ≠ [] := by
  intro isEmpty
  exact absurd (append_eq_nil_iff.mp isEmpty).1 (by decide)

theorem Element.opener_ne_nil (element : Element) : element.opener ≠ [] := by
  intro isEmpty
  exact absurd (append_eq_nil_iff.mp isEmpty).1 (by decide)

theorem scans_param {param : Param} (wellFormed : param.WellFormed alphabet) :
    Scans (attrToken alphabet) Anything param.render fun position =>
      [⟨⟨position, position + param.opener.length⟩,
        ("param".toList, String.ofList param.name)⟩] := by
  have opener : Scans (attrToken alphabet) Anything param.opener _ :=
    Scans.one param.opener_ne_nil fun rest _ =>
      attrToken_param alphabet wellFormed.named rest
  have value := quiet_attrToken wellFormed.value
  have close : Quiet (attrToken alphabet) Anything "</param>".toList :=
    quiet_attrToken_strange alphabet (by decide)
  have behind : Quiet (attrToken alphabet) Anything
      (param.value ++ ("</param>".toList ++ param.gap)) := by
    apply value.append _ fun rest _ => follows_tag _
    exact close.append (quiet_attrToken_blank alphabet wellFormed.gap)
      fun _ _ => trivial
  have whole := opener.append behind.scans fun _ _ => trivial
  exact whole

theorem scans_params {params : List Param}
    (areWell : ∀ param ∈ params, param.WellFormed alphabet) :
    Scans (attrToken alphabet) Anything (params.flatMap Param.render)
      fun position => paramTokens position params := by
  induction params with
  | nil => exact Scans.nil
  | cons param params ih =>
    rw [flatMap_cons]
    have first := scans_param alphabet (areWell param mem_cons_self)
    have others := ih fun other isIn =>
      areWell other (mem_cons_of_mem param isIn)
    exact first.append others fun _ _ => trivial

theorem scans_element {element : Element}
    (wellFormed : element.WellFormed alphabet) :
    Scans (attrToken alphabet) Anything element.render fun position =>
      elementTokens position element := by
  have opener : Scans (attrToken alphabet) Anything element.opener _ :=
    Scans.one element.opener_ne_nil fun rest _ =>
      attrToken_element alphabet wellFormed.named rest
  have close : Quiet (attrToken alphabet) Anything "</function>".toList :=
    quiet_attrToken_strange alphabet (by decide)
  have lead := quiet_attrToken_blank alphabet wellFormed.lead
  have body := lead.scans.append (scans_params alphabet wellFormed.params)
    fun _ _ => trivial
  have behind := body.append close.scans fun _ _ => trivial
  have whole := opener.append behind fun _ _ => trivial
  intro position rest isNext
  rw [Element.render, Element.body, whole position rest isNext]
  dsimp only
  rw [nil_append, append_nil]
  rfl

theorem scans_elements {elements : List (Text × Element)}
    (areWell : ∀ element ∈ elements,
      Blank element.1 ∧ element.2.WellFormed alphabet) :
    Scans (attrToken alphabet) Anything (renderElements elements)
      fun position => elementsTokens position elements := by
  induction elements with
  | nil => exact Scans.nil
  | cons element elements ih =>
    obtain ⟨isBlank, isWell⟩ := areWell element mem_cons_self
    have gap := quiet_attrToken_blank alphabet isBlank
    have first := gap.scans.append (scans_element alphabet isWell)
      fun _ _ => trivial
    have others := ih fun other isIn =>
      areWell other (mem_cons_of_mem element isIn)
    have whole := first.append others fun _ _ => trivial
    exact whole

end

end Hal0.Toolloop
