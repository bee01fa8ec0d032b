import Hal0.Core.Json

/-!
# Reading what was written

The reader gives back each value which was written, whatever the style.  So a
text has one value, and sorted texts which are the same are of values which
differ in the order of their keys at most.
-/

namespace Hal0.Json

open Nat
open List

/-! ## Blanks -/

theorem skip_append {gap : List Char} (blank : ∀ char ∈ gap, isBlank char)
    (text : List Char) : skip (gap ++ text) = skip text :=
  dropWhile_append_of_pos blank

theorem skip_cons {first : Char} (solid : isBlank first = false)
    (rest : List Char) : skip (first :: rest) = first :: rest := by
  rw [skip, dropWhile_cons_of_neg (by simp [solid])]

/-! ## Units -/

theorem hexValue_digitChar : ∀ digit < 16,
    hexValue (Nat.digitChar digit) = some digit := by
  decide

theorem readUnit_digits {code : Nat} (small : code < 65536) :
    readUnit (Nat.digitChar (code / 4096 % 16))
      (Nat.digitChar (code / 256 % 16)) (Nat.digitChar (code / 16 % 16))
        (Nat.digitChar (code % 16)) = some code := by
  unfold readUnit
  rw [hexValue_digitChar _ (mod_lt _ (by omega)),
    hexValue_digitChar _ (mod_lt _ (by omega)),
    hexValue_digitChar _ (mod_lt _ (by omega)),
    hexValue_digitChar _ (mod_lt _ (by omega))]
  rw [Option.some.injEq]
  omega

/-! ## Strings -/

theorem readChars_unit {code : Nat} (small : code < 65536)
    (notHigh : isHigh code = false) (notLow : isLow code = false)
    (rest : List Char) :
    readChars (writeUnit code ++ rest) =
      inFront (Char.ofNat code) (readChars rest) := by
  unfold writeUnit
  simp only [cons_append, nil_append]
  rw [readChars, readUnit_digits small]
  simp [notHigh, notLow]

/-- A surrogate pair is one character. -/
theorem readChars_pair {high low : Nat} (isHighUnit : isHigh high = true)
    (isLowUnit : isLow low = true) (rest : List Char) :
    readChars (writeUnit high ++ (writeUnit low ++ rest)) =
      inFront (Char.ofNat (65536 + (high - 55296) * 1024 + (low - 56320)))
        (readChars rest) := by
  have highSmall : high < 65536 := by
    simp only [isHigh, Bool.and_eq_true, decide_eq_true_eq] at isHighUnit
    omega
  have lowSmall : low < 65536 := by
    simp only [isLow, Bool.and_eq_true, decide_eq_true_eq] at isLowUnit
    omega
  unfold writeUnit
  simp only [cons_append, nil_append]
  rw [readChars, readUnit_digits highSmall]
  simp only [isHighUnit, if_true]
  rw [readUnit_digits lowSmall]
  simp only [isLowUnit, if_true]

theorem readChars_plain {char : Char} (noEscape : shortEscape char = none)
    (printable : ¬ char.toNat < 32) (rest : List Char) :
    readChars (char :: rest) = inFront char (readChars rest) := by
  have notQuote : char ≠ '"' := by
    rintro rfl
    exact absurd noEscape (by decide)
  have notBackslash : char ≠ '\\' := by
    rintro rfl
    exact absurd noEscape (by decide)
  rw [readChars.eq_def]
  split
  · next isEmpty => exact absurd isEmpty (by simp)
  · next same => exact absurd (List.cons.inj same).1 notQuote
  · next same => exact absurd (List.cons.inj same).1 notBackslash
  · next same => exact absurd (List.cons.inj same).1 notBackslash
  · next same =>
      obtain ⟨rfl, rfl⟩ := List.cons.inj same
      rw [if_neg printable]

theorem readChars_short {char letter : Char}
    (isShort : shortEscape char = some letter) (rest : List Char) :
    readChars ('\\' :: letter :: rest) = inFront char (readChars rest) := by
  unfold shortEscape at isShort
  split_ifs at isShort <;> cases isShort <;> subst_vars <;> rfl

/-- Every character is read as it was written. -/
theorem readChars_writeChar (ascii : Bool) (char : Char) (rest : List Char) :
    readChars (writeChar ascii char ++ rest) =
      inFront char (readChars rest) := by
  unfold writeChar
  cases short : shortEscape char with
  | some letter => exact readChars_short short rest
  | none =>
    dsimp only
    split
    · have valid := char.valid
      have code : char.val.toNat = char.toNat := rfl
      simp only [UInt32.isValidChar, Nat.isValidChar, code] at valid
      split
      · next small =>
          rw [readChars_unit small (by simp [isHigh]; omega)
            (by simp [isLow]; omega), Char.ofNat_toNat]
      · next large =>
          rw [append_assoc, readChars_pair (by simp [isHigh]; omega)
            (by simp [isLow]; omega)]
          have back : 65536 + (55296 + (char.toNat - 65536) / 1024 - 55296) *
              1024 + (56320 + (char.toNat - 65536) % 1024 - 56320) =
                char.toNat := by omega
          rw [back, Char.ofNat_toNat]
    · next plain =>
        simp only [Bool.or_eq_true, decide_eq_true_eq, not_or] at plain
        exact readChars_plain short plain.1 rest

theorem readChars_writeChars (ascii : Bool) (chars rest : List Char) :
    readChars (writeChars ascii chars ++ '"' :: rest) = some (chars, rest) := by
  induction chars with
  | nil => rw [writeChars, flatMap_nil, nil_append, readChars]
  | cons char later ih =>
    rw [writeChars, flatMap_cons, append_assoc, readChars_writeChar]
    rw [writeChars] at ih
    rw [ih]
    rfl

theorem readStr_writeStr (ascii : Bool) (text : String) (rest : List Char) :
    readStr (writeStr ascii text ++ rest) = some (text, rest) := by
  rw [writeStr, cons_append, append_assoc, cons_append, nil_append, readStr,
    readChars_writeChars, Option.map_some, String.ofList_toList]

/-! ## Numbers -/

theorem head_toDigits : ∀ value : Nat,
    (Nat.toDigits 10 value).head? = some '0' → value = 0 := by
  have ofDigit : ∀ digit < 10,
      [Nat.digitChar digit].head? = some '0' → digit = 0 := by decide
  intro value
  induction value using Nat.strong_induction_on with
  | _ value ih =>
    intro isZero
    by_cases small : value < 10
    · rw [toDigits_of_lt_base small] at isZero
      exact ofDigit value small isZero
    · rw [toDigits_of_base_le (by omega) (by omega),
        head?_append_of_ne_nil _ toDigits_ne_nil] at isZero
      have front := ih (value / 10) (by omega) isZero
      omega

theorem readNat_toDigits (value : Nat) :
    readNat (Nat.toDigits 10 value) = some value := by
  unfold readNat
  rw [if_pos, ofDigitChars_ten_toDigits]
  refine ⟨toDigits_ne_nil, ?_, ?_⟩
  · rw [all_eq_true]
    exact fun char isIn =>
      isDigit_of_mem_toDigits (by omega) (by omega) isIn
  · intro isZero
    rw [head_toDigits value isZero]
    rfl

theorem exists_digit (value : Nat) : ∃ first rest,
    Nat.toDigits 10 value = first :: rest ∧ first.isDigit = true := by
  obtain ⟨first, rest, digits⟩ := exists_cons_of_ne_nil
    (toDigits_ne_nil (n := value) (b := 10))
  refine ⟨first, rest, digits, ?_⟩
  apply isDigit_of_mem_toDigits (b := 10) (n := value) (by omega) (by omega)
  rw [digits]
  exact mem_cons_self

/-- An integer is read as it was written. -/
theorem readInt_writeInt (value : Int) :
    readInt (writeInt value) = some value := by
  unfold writeInt
  split
  · next negative =>
      rw [readInt, readNat_toDigits, Option.map_some, Option.some.injEq]
      omega
  · next positive =>
      obtain ⟨first, rest, digits, isDigit⟩ := exists_digit value.natAbs
      have notMinus : first ≠ '-' := by
        rintro rfl
        exact absurd isDigit (by decide)
      rw [digits, readInt.eq_def]
      split
      · next same => exact absurd (List.cons.inj same).1 notMinus
      · rw [← digits, readNat_toDigits, Option.map_some, Option.some.injEq]
        simp only [Int.ofNat_eq_natCast]
        omega

/-- How a number can begin. -/
def startsNumber (char : Char) : Prop :=
  char.isDigit ∨ char ∈ ['-', 'N', 'I']

theorem writeInt_starts (value : Int) : ∃ first rest,
    writeInt value = first :: rest ∧ startsNumber first := by
  unfold writeInt
  split
  · exact ⟨'-', _, rfl, Or.inr (by simp)⟩
  · obtain ⟨first, rest, digits, isDigit⟩ := exists_digit value.natAbs
    exact ⟨first, rest, digits, Or.inl isDigit⟩

theorem writeInt_chars {value : Int} {char : Char}
    (isIn : char ∈ writeInt value) : isNumberChar char = true := by
  have ofDigit : ∀ char ∈ Nat.toDigits 10 value.natAbs,
      isNumberChar char = true := by
    intro char isIn
    have isDigit := isDigit_of_mem_toDigits (b := 10) (by omega) (by omega)
      isIn
    simp [isNumberChar, isDigit]
  unfold writeInt at isIn
  split at isIn
  · rcases mem_cons.mp isIn with rfl | isDigit
    · decide
    · exact ofDigit char isDigit
  · exact ofDigit char isIn

/-- A number ends before the text. -/
def StopsNumber (text : List Char) : Prop :=
  ∀ first rest, text = first :: rest → isNumberChar first = false

theorem takeWhile_token {token rest : List Char}
    (chars : ∀ char ∈ token, isNumberChar char)
    (stops : StopsNumber rest) :
    (token ++ rest).takeWhile isNumberChar = token ∧
      (token ++ rest).dropWhile isNumberChar = rest := by
  rw [takeWhile_append_of_pos chars, dropWhile_append_of_pos chars]
  cases rest with
  | nil => simp
  | cons first later =>
    have isEnd := stops first later rfl
    simp [isEnd]

section Values

variable {Real : Type} {floats : Floats Real} {style : Style}

/-- A number is read up to what cannot be one. -/
theorem readValue_number {first : Char} (starts : startsNumber first)
    (fuel : Nat) (rest : List Char) :
    readValue floats (fuel + 1) (first :: rest) =
      (readNumber floats ((first :: rest).takeWhile isNumberChar)).map
        fun value => (value, (first :: rest).dropWhile isNumberChar) := by
  have other : first ≠ '"' ∧ first ≠ '[' ∧ first ≠ '\x7b' ∧ first ≠ 'n' ∧
      first ≠ 't' ∧ first ≠ 'f' := by
    refine ⟨?_, ?_, ?_, ?_, ?_, ?_⟩ <;> rintro rfl <;>
      simp [startsNumber] at starts
  obtain ⟨notQuote, notBracket, notBrace, notN, notT, notF⟩ := other
  rw [readValue.eq_def]
  dsimp only
  split
  · next same => exact absurd (List.cons.inj same).1 notQuote
  · next same => exact absurd (List.cons.inj same).1 notBracket
  · next same => exact absurd (List.cons.inj same).1 notBrace
  · next same => exact absurd (List.cons.inj same).1 notN
  · next same => exact absurd (List.cons.inj same).1 notT
  · next same => exact absurd (List.cons.inj same).1 notF
  · rfl

theorem readValue_token {token rest : List Char} {value : Value Real}
    (isNumber : readNumber floats token = some value)
    (chars : ∀ char ∈ token, isNumberChar char)
    (starts : ∃ first later, token = first :: later ∧ startsNumber first)
    (stops : StopsNumber rest) (fuel : Nat) :
    readValue floats (fuel + 1) (token ++ rest) = some (value, rest) := by
  obtain ⟨first, later, rfl, isFirst⟩ := starts
  obtain ⟨isToken, isRest⟩ := takeWhile_token chars stops
  rw [cons_append] at isToken isRest ⊢
  rw [readValue_number isFirst, isToken, isRest, isNumber]
  rfl

/-! ## Values -/

mutual

/-- How many values there are in a value, and how many brackets. -/
def size : Value Real → Nat
  | .list items => 1 + sizeItems items
  | .dict entries => 1 + sizeMembers entries
  | .null => 1
  | .bool _ => 1
  | .int _ => 1
  | .real _ => 1
  | .str _ => 1

def sizeItems : List (Value Real) → Nat
  | [] => 0
  | item :: rest => 1 + size item + sizeItems rest

def sizeMembers : List (String × Value Real) → Nat
  | [] => 0
  | (_, value) :: rest => 1 + size value + sizeMembers rest

end

/-- A text of a value does not begin as one of these. -/
def StartsValue (text : List Char) : Prop :=
  ∃ first rest, text = first :: rest ∧ isBlank first = false ∧
    first ≠ ']' ∧ first ≠ '\x7d'

theorem startsValue_of_number {first : Char} (starts : startsNumber first) :
    isBlank first = false ∧ first ≠ ']' ∧ first ≠ '\x7d' := by
  refine ⟨?_, ?_, ?_⟩
  · rw [Bool.eq_false_iff]
    intro blank
    simp only [isBlank, Bool.or_eq_true, decide_eq_true_eq] at blank
    rcases blank with ((rfl | rfl) | rfl) | rfl <;>
      simp [startsNumber] at starts
  · rintro rfl
    simp [startsNumber] at starts
  · rintro rfl
    simp [startsNumber] at starts

/-- No written value begins with a blank. -/
theorem startsValue_write (depth : Nat) (value : Value Real) :
    StartsValue (write floats style depth value) := by
  cases value with
  | null => exact ⟨'n', _, rfl, by decide, by decide, by decide⟩
  | bool value =>
    cases value with
    | true => exact ⟨'t', _, rfl, by decide, by decide, by decide⟩
    | false => exact ⟨'f', _, rfl, by decide, by decide, by decide⟩
  | int value =>
    obtain ⟨first, rest, text, starts⟩ := writeInt_starts value
    exact ⟨first, rest, by rw [write, text], startsValue_of_number starts⟩
  | real value =>
    obtain ⟨first, rest, text, starts⟩ := floats.starts value
    exact ⟨first, rest, by rw [write, text], startsValue_of_number starts⟩
  | str value => exact ⟨'"', _, by rw [write, writeStr], by decide, by decide,
      by decide⟩
  | list items =>
    cases items with
    | nil => exact ⟨'[', _, by rw [write], by decide, by decide, by decide⟩
    | cons first rest =>
      exact ⟨'[', _, by rw [write], by decide, by decide, by decide⟩
  | dict entries =>
    cases entries with
    | nil => exact ⟨'\x7b', _, by rw [write], by decide, by decide, by decide⟩
    | cons first rest =>
      exact ⟨'\x7b', _, by rw [write], by decide, by decide, by decide⟩

theorem skip_write (depth : Nat) (value : Value Real) (rest : List Char) :
    skip (write floats style depth value ++ rest) =
      write floats style depth value ++ rest := by
  have starts : StartsValue (write floats style depth value) :=
    startsValue_write depth value
  obtain ⟨first, later, text, solid, -, -⟩ := starts
  rw [text, cons_append, skip_cons solid]

theorem stops_cons {first : Char} (notNumber : isNumberChar first = false)
    (rest : List Char) : StopsNumber (first :: rest) := by
  intro other later same
  rw [← (List.cons.inj same).1]
  exact notNumber

theorem stops_append {gap : List Char} (blank : ∀ char ∈ gap, isBlank char)
    {rest : List Char} (stops : StopsNumber rest) :
    StopsNumber (gap ++ rest) := by
  cases gap with
  | nil => exact stops
  | cons first later =>
    apply stops_cons
    have isFirst := blank first mem_cons_self
    simp only [isBlank, Bool.or_eq_true, decide_eq_true_eq] at isFirst
    rcases isFirst with ((rfl | rfl) | rfl) | rfl <;> decide

/-- The items of a list, the first too. -/
def writeAll (floats : Floats Real) (style : Style) (depth : Nat) :
    List (Value Real) → List Char
  | [] => []
  | first :: rest =>
    write floats style depth first ++ writeItems floats style depth rest

def writeAllMembers (floats : Floats Real) (style : Style) (depth : Nat) :
    List (String × Value Real) → List Char
  | [] => []
  | (key, value) :: rest =>
    writeStr style.ascii key ++ ':' :: (style.keyGap ++
      (write floats style depth value ++
        writeMembers floats style depth rest))

theorem stops_items (depth : Nat) (items : List (Value Real))
    {gap : List Char} (blank : ∀ char ∈ gap, isBlank char)
    (rest : List Char) :
    StopsNumber (writeItems floats style depth items ++
      (gap ++ ']' :: rest)) := by
  cases items with
  | nil =>
    rw [writeItems, nil_append]
    exact stops_append blank (stops_cons (by decide) _)
  | cons item later =>
    rw [writeItems, cons_append]
    exact stops_cons (by decide) _

theorem stops_members (depth : Nat) (entries : List (String × Value Real))
    {gap : List Char} (blank : ∀ char ∈ gap, isBlank char)
    (rest : List Char) :
    StopsNumber (writeMembers floats style depth entries ++
      (gap ++ '\x7d' :: rest)) := by
  cases entries with
  | nil =>
    rw [writeMembers, nil_append]
    exact stops_append blank (stops_cons (by decide) _)
  | cons entry later =>
    obtain ⟨key, value⟩ := entry
    rw [writeMembers, cons_append]
    exact stops_cons (by decide) _

theorem readValue_list {rest later : List Char} {first : Char}
    (inside : skip rest = first :: later) (isOpen : first ≠ ']') (fuel : Nat) :
    readValue floats (fuel + 1) ('[' :: rest) =
      (readItems floats fuel (skip rest)).map fun pair =>
        (.list pair.1, pair.2) := by
  rw [readValue, inside]
  split
  · next same => exact absurd (List.cons.inj same).1 isOpen
  · rfl

theorem readValue_dict {rest later : List Char} {first : Char}
    (inside : skip rest = first :: later) (isOpen : first ≠ '\x7d')
    (fuel : Nat) :
    readValue floats (fuel + 1) ('\x7b' :: rest) =
      (readMembers floats fuel (skip rest)).map fun pair =>
        (.dict pair.1, pair.2) := by
  rw [readValue, inside]
  split
  · next same => exact absurd (List.cons.inj same).1 isOpen
  · rfl

theorem readMembers_entry {text behind rest : List Char} {key : String}
    {value : Value Real} {fuel : Nat}
    (isKey : readStr text = some (key, ':' :: behind))
    (isValue : readValue floats fuel (skip behind) = some (value, rest)) :
    readMembers floats (fuel + 1) text =
      match skip rest with
      | '\x7d' :: later => some ([(key, value)], later)
      | ',' :: later => (readMembers floats fuel (skip later)).map
          fun pair => ((key, value) :: pair.1, pair.2)
      | _ => none := by
  have colon : skip (':' :: behind) = ':' :: behind := skip_cons (by decide) _
  rw [readMembers, isKey]
  simp only [colon, isValue] <;> rfl

theorem skip_writeStr (text : String) (rest : List Char) :
    skip (writeStr style.ascii text ++ rest) =
      writeStr style.ascii text ++ rest :=
  skip_cons (by decide) _

mutual

/-- Every value is read as it was written. -/
theorem readValue_write : ∀ (value : Value Real) (depth fuel : Nat)
    (rest : List Char), size value ≤ fuel → StopsNumber rest →
      readValue floats fuel (write floats style depth value ++ rest) =
        some (value, rest)
  | .null, depth, fuel + 1, rest, _, _ => rfl
  | .bool true, depth, fuel + 1, rest, _, _ => rfl
  | .bool false, depth, fuel + 1, rest, _, _ => rfl
  | .int value, depth, fuel + 1, rest, _, stops => by
      rw [write]
      refine readValue_token ?_ (fun _ => writeInt_chars)
        (writeInt_starts value) stops fuel
      rw [readNumber, readInt_writeInt]
  | .real value, depth, fuel + 1, rest, _, stops => by
      rw [write]
      refine readValue_token ?_ (floats.chars value) (floats.starts value)
        stops fuel
      rw [readNumber, floats.notInt]
      dsimp only
      rw [floats.read_repr, Option.map_some]
  | .str value, depth, fuel + 1, rest, _, _ => by
      have isRead := readStr_writeStr style.ascii value rest
      rw [writeStr, cons_append] at isRead
      rw [write, writeStr, cons_append, readValue, isRead]
      rfl
  | .list [], depth, fuel + 1, rest, _, _ => rfl
  | .list (first :: items), depth, fuel + 1, rest, enough, _ => by
      have isRead := readItems_write (first :: items) (depth + 1) fuel
        (style.closing depth) rest (by simp) (style.closingBlank depth)
        (by rw [size] at enough; omega)
      have opens : StartsValue (write floats style (depth + 1) first) :=
        startsValue_write (depth + 1) first
      obtain ⟨head, later, text, -, isOpen, -⟩ := opens
      have inside : skip (style.opening (depth + 1) ++
          (writeAll floats style (depth + 1) (first :: items) ++
            (style.closing depth ++ ']' :: rest))) =
          writeAll floats style (depth + 1) (first :: items) ++
            (style.closing depth ++ ']' :: rest) := by
        rw [skip_append (style.openingBlank _), writeAll, append_assoc,
          skip_write]
      have starts : writeAll floats style (depth + 1) (first :: items) ++
          (style.closing depth ++ ']' :: rest) = head :: (later ++
            (writeItems floats style (depth + 1) items ++
              (style.closing depth ++ ']' :: rest))) := by
        rw [writeAll, text, append_assoc, cons_append]
      have shape : write floats style depth (.list (first :: items)) ++ rest =
          '[' :: (style.opening (depth + 1) ++
            (writeAll floats style (depth + 1) (first :: items) ++
              (style.closing depth ++ ']' :: rest))) := by
        simp only [write, writeAll, cons_append, append_assoc, nil_append]
      rw [shape, readValue_list (inside.trans starts) isOpen, inside, isRead]
      rfl
  | .dict [], depth, fuel + 1, rest, _, _ => rfl
  | .dict ((key, value) :: entries), depth, fuel + 1, rest, enough, _ => by
      have isRead := readMembers_write ((key, value) :: entries) (depth + 1)
        fuel (style.closing depth) rest (by simp) (style.closingBlank depth)
        (by rw [size] at enough; omega)
      have inside : skip (style.opening (depth + 1) ++
          (writeAllMembers floats style (depth + 1) ((key, value) :: entries) ++
            (style.closing depth ++ '\x7d' :: rest))) =
          writeAllMembers floats style (depth + 1) ((key, value) :: entries) ++
            (style.closing depth ++ '\x7d' :: rest) := by
        rw [skip_append (style.openingBlank _), writeAllMembers,
          append_assoc, skip_writeStr]
      have shape : write floats style depth (.dict ((key, value) :: entries)) ++
          rest = '\x7b' :: (style.opening (depth + 1) ++
            (writeAllMembers floats style (depth + 1) ((key, value) :: entries) ++
              (style.closing depth ++ '\x7d' :: rest))) := by
        simp only [write, writeAllMembers, cons_append, append_assoc,
          nil_append]
      have starts : writeAllMembers floats style (depth + 1)
          ((key, value) :: entries) ++ (style.closing depth ++ '\x7d' :: rest) =
            '"' :: _ :=
        rfl
      rw [shape, readValue_dict (inside.trans starts) (by decide), inside,
        isRead]
      rfl
  | .null, _, 0, _, enough, _ => absurd enough (by simp [size])
  | .bool _, _, 0, _, enough, _ => absurd enough (by simp [size])
  | .int _, _, 0, _, enough, _ => absurd enough (by simp [size])
  | .real _, _, 0, _, enough, _ => absurd enough (by simp [size])
  | .str _, _, 0, _, enough, _ => absurd enough (by simp [size])
  | .list _, _, 0, _, enough, _ => absurd enough (by simp [size])
  | .dict _, _, 0, _, enough, _ => absurd enough (by simp [size])

theorem readItems_write : ∀ (items : List (Value Real)) (depth fuel : Nat)
    (gap rest : List Char), items ≠ [] → (∀ char ∈ gap, isBlank char) →
      sizeItems items ≤ fuel →
        readItems floats fuel (writeAll floats style depth items ++
          (gap ++ ']' :: rest)) = some (items, rest)
  | [], _, _, _, _, nonempty, _, _ => absurd rfl nonempty
  | first :: items, depth, 0, gap, rest, _, _, enough =>
    absurd enough (by rw [sizeItems]; omega)
  | first :: items, depth, fuel + 1, gap, rest, _, blank, enough => by
      rw [sizeItems] at enough
      have isFirst := readValue_write first depth fuel
        (writeItems floats style depth items ++ (gap ++ ']' :: rest))
        (by omega) (stops_items depth items blank rest)
      rw [writeAll, append_assoc, readItems, isFirst]
      dsimp only
      cases items with
      | nil =>
        rw [writeItems, nil_append, skip_append blank,
          skip_cons (by decide)]
        rfl
      | cons second later =>
        have isRest := readItems_write (second :: later) depth fuel gap rest
          (by simp) blank (by omega)
        rw [writeAll, append_assoc] at isRest
        rw [writeItems, cons_append, skip_cons (by decide)]
        change (readItems floats fuel (skip _)).map _ = _
        rw [append_assoc, skip_append (style.betweenBlank depth),
          append_assoc, skip_write, isRest]
        rfl

/-- So are the members of a dict. -/
theorem readMembers_write : ∀ (entries : List (String × Value Real))
    (depth fuel : Nat) (gap rest : List Char), entries ≠ [] →
      (∀ char ∈ gap, isBlank char) → sizeMembers entries ≤ fuel →
        readMembers floats fuel (writeAllMembers floats style depth entries ++
          (gap ++ '\x7d' :: rest)) = some (entries, rest)
  | [], _, _, _, _, nonempty, _, _ => absurd rfl nonempty
  | (key, value) :: entries, depth, 0, gap, rest, _, _, enough =>
    absurd enough (by rw [sizeMembers]; omega)
  | (key, value) :: entries, depth, fuel + 1, gap, rest, _, blank, enough => by
      rw [sizeMembers] at enough
      have isFirst := readValue_write value depth fuel
        (writeMembers floats style depth entries ++ (gap ++ '\x7d' :: rest))
        (by omega) (stops_members depth entries blank rest)
      have isKey := readStr_writeStr style.ascii key
        (':' :: (style.keyGap ++ (write floats style depth value ++
          (writeMembers floats style depth entries ++
            (gap ++ '\x7d' :: rest)))))
      rw [← skip_write, ← skip_append style.keyBlank] at isFirst
      have shape : writeAllMembers floats style depth ((key, value) :: entries) ++
          (gap ++ '\x7d' :: rest) = writeStr style.ascii key ++ ':' ::
            (style.keyGap ++ (write floats style depth value ++
              (writeMembers floats style depth entries ++
                (gap ++ '\x7d' :: rest)))) := by
        simp only [writeAllMembers, cons_append, append_assoc]
      rw [shape, readMembers_entry isKey isFirst]
      cases entries with
      | nil =>
        rw [writeMembers, nil_append, skip_append blank,
          skip_cons (by decide)]
        rfl
      | cons second later =>
        obtain ⟨secondKey, secondValue⟩ := second
        have isRest := readMembers_write ((secondKey, secondValue) :: later)
          depth fuel gap rest (by simp) blank (by omega)
        rw [writeAllMembers, append_assoc] at isRest
        rw [writeMembers, cons_append, skip_cons (by decide)]
        change (readMembers floats fuel (skip _)).map _ = _
        rw [append_assoc, skip_append (style.betweenBlank depth),
          append_assoc, skip_writeStr, isRest]
        rfl

end

/-! ## Texts -/

mutual

theorem size_le_length : ∀ (value : Value Real) (depth : Nat),
    size value ≤ (write floats style depth value).length
  | .null, depth => by simp [size, write]
  | .bool true, depth => by simp [size, write]
  | .bool false, depth => by simp [size, write]
  | .int value, depth => by
      obtain ⟨first, rest, text, -⟩ := writeInt_starts value
      rw [size, write, text, length_cons]
      omega
  | .real value, depth => by
      obtain ⟨first, rest, text, -⟩ := floats.starts value
      rw [size, write, text, length_cons]
      omega
  | .str value, depth => by
      rw [size, write, writeStr, length_cons]
      omega
  | .list [], depth => by simp [size, sizeItems, write]
  | .list (first :: rest), depth => by
      have ofFirst := size_le_length first (depth + 1)
      have ofRest := sizeItems_le_length rest (depth + 1)
      simp only [size, sizeItems, write, length_cons, length_append]
      omega
  | .dict [], depth => by simp [size, sizeMembers, write]
  | .dict ((key, value) :: rest), depth => by
      have ofValue := size_le_length value (depth + 1)
      have ofRest := sizeMembers_le_length rest (depth + 1)
      simp only [size, sizeMembers, write, length_cons, length_append]
      omega

theorem sizeItems_le_length : ∀ (items : List (Value Real)) (depth : Nat),
    sizeItems items ≤ (writeItems floats style depth items).length
  | [], depth => by simp [sizeItems]
  | item :: rest, depth => by
      have ofItem := size_le_length item depth
      have ofRest := sizeItems_le_length rest depth
      simp only [sizeItems, writeItems, length_cons, length_append]
      omega

theorem sizeMembers_le_length : ∀ (entries : List (String × Value Real))
    (depth : Nat),
      sizeMembers entries ≤ (writeMembers floats style depth entries).length
  | [], depth => by simp [sizeMembers]
  | (key, value) :: rest, depth => by
      have ofValue := size_le_length value depth
      have ofRest := sizeMembers_le_length rest depth
      simp only [sizeMembers, writeMembers, length_cons, length_append]
      omega

end

theorem readText_write (value : Value Real) :
    readText floats (write floats style 0 value) = some value := by
  have enough : size value ≤ (write floats style 0 value).length :=
    size_le_length value 0
  have isRead : readValue floats ((write floats style 0 value).length + 1)
      (write floats style 0 value ++ []) = some (value, []) :=
    readValue_write value 0 _ [] (by omega)
      (fun first rest same => absurd same (by simp))
  have inFront : skip (write floats style 0 value ++ []) =
      write floats style 0 value ++ [] := skip_write 0 value []
  rw [append_nil] at isRead inFront
  rw [readText, inFront, isRead]
  rfl

theorem write_injective {first second : Value Real}
    (same : write floats style 0 first = write floats style 0 second) :
    first = second := by
  have isFirst : readText floats (write floats style 0 first) = some first :=
    readText_write first
  rw [same, readText_write, Option.some.injEq] at isFirst
  exact isFirst.symm

theorem sorted_eq_of_dumps {first second : Value Real}
    (same : dumpsSorted floats first = dumpsSorted floats second) :
    sorted first = sorted second :=
  write_injective same

/-! ## Dictionaries -/

mutual

/-- Each dictionary has its keys once. -/
def Distinct : Value Real → Prop
  | .list items => DistinctItems items
  | .dict entries => (entries.map Prod.fst).Nodup ∧ DistinctEntries entries
  | .null => True
  | .bool _ => True
  | .int _ => True
  | .real _ => True
  | .str _ => True

def DistinctItems : List (Value Real) → Prop
  | [] => True
  | item :: rest => Distinct item ∧ DistinctItems rest

def DistinctEntries : List (String × Value Real) → Prop
  | [] => True
  | (_, value) :: rest => Distinct value ∧ DistinctEntries rest

end

theorem setEntry_of_new {Field : Type} {entries : List (String × Field)}
    {key : String} (isNew : key ∉ entries.map Prod.fst) (value : Field) :
    setEntry entries key value = entries ++ [(key, value)] := by
  rw [setEntry, if_neg isNew]

mutual

theorem merged_of_distinct : ∀ value : Value Real,
    Distinct value → merged value = value
  | .null, _ => rfl
  | .bool _, _ => rfl
  | .int _, _ => rfl
  | .real _, _ => rfl
  | .str _, _ => rfl
  | .list items, distinct => by
      rw [merged, mergedItems_of_distinct items distinct]
  | .dict entries, distinct => by
      rw [merged, mergedEntries_of_distinct entries [] distinct.1 distinct.2,
        nil_append]

theorem mergedItems_of_distinct : ∀ items : List (Value Real),
    DistinctItems items → mergedItems items = items
  | [], _ => rfl
  | item :: rest, distinct => by
      rw [mergedItems, merged_of_distinct item distinct.1,
        mergedItems_of_distinct rest distinct.2]

theorem mergedEntries_of_distinct : ∀ (entries before :
    List (String × Value Real)),
      ((before ++ entries).map Prod.fst).Nodup → DistinctEntries entries →
        mergedEntries before entries = before ++ entries
  | [], before, _, _ => by rw [mergedEntries, append_nil]
  | (key, value) :: rest, before, nodup, distinct => by
      have isNew : key ∉ before.map Prod.fst := by
        rw [map_append, map_cons] at nodup
        exact (nodup_middle.mp nodup).notMem ∘ mem_append_left _
      rw [mergedEntries, merged_of_distinct value distinct.1,
        setEntry_of_new isNew, mergedEntries_of_distinct rest _
          (by simpa using nodup) distinct.2]
      simp

end

/-- `json.loads` gives back what was written. -/
theorem loads_write {value : Value Real} (distinct : Distinct value) :
    loads floats (write floats style 0 value) = some value := by
  rw [loads, readText_write, Option.map_some, merged_of_distinct value distinct]

end Values

end Hal0.Json
