import Mathlib.Data.List.Sort
import Mathlib.Data.String.Basic

/-!
# JSON values and their texts

A value is written with some blanks between its parts, and with or without the
characters which are not ASCII.  The reader takes any of these texts.  It keeps
the members of an object as they stand; `merged` then lets the last of one key
win, as a dictionary does.
-/

namespace Hal0.Json

/-- A JSON value over a type of floats. -/
inductive Value (Real : Type) where
  | null
  | bool (value : Bool)
  | int (value : Int)
  | real (value : Real)
  | str (value : String)
  | list (items : List (Value Real))
  | dict (entries : List (String × Value Real))

/-! ## Characters -/

/-- The blanks between tokens. -/
def isBlank (char : Char) : Bool :=
  char = ' ' || char = '\t' || char = '\n' || char = '\r'

/-- A character that a number may have. -/
def isNumberChar (char : Char) : Bool :=
  char.isDigit || char ∈ "-+.eENaInfity".toList

def skip (text : List Char) : List Char :=
  text.dropWhile isBlank

/-- The value of a hexadecimal digit. -/
def hexValue (char : Char) : Option Nat :=
  let code := char.toNat
  if 48 ≤ code ∧ code ≤ 57 then some (code - 48)
  else if 97 ≤ code ∧ code ≤ 102 then some (code - 87)
  else if 65 ≤ code ∧ code ≤ 70 then some (code - 55)
  else none

/-- `\uXXXX` -/
def writeUnit (code : Nat) : List Char :=
  ['\\', 'u', Nat.digitChar (code / 4096 % 16),
    Nat.digitChar (code / 256 % 16), Nat.digitChar (code / 16 % 16),
    Nat.digitChar (code % 16)]

/-- The four digits of `\u`. -/
def readUnit (first second third fourth : Char) : Option Nat :=
  match hexValue first, hexValue second, hexValue third, hexValue fourth with
  | some first, some second, some third, some fourth =>
    some (first * 4096 + second * 256 + third * 16 + fourth)
  | _, _, _, _ => none

/-! ## Strings -/

/-- The letter behind the backslash of a short escape. -/
def shortEscape (char : Char) : Option Char :=
  if char = '"' then some '"'
  else if char = '\\' then some '\\'
  else if char = '\n' then some 'n'
  else if char = '\r' then some 'r'
  else if char = '\t' then some 't'
  else if char = '\x08' then some 'b'
  else if char = '\x0c' then some 'f'
  else none

/-- The escapes of one letter. -/
def readShort (letter : Char) : Option Char :=
  if letter = '"' then some '"'
  else if letter = '\\' then some '\\'
  else if letter = '/' then some '/'
  else if letter = 'n' then some '\n'
  else if letter = 'r' then some '\r'
  else if letter = 't' then some '\t'
  else if letter = 'b' then some '\x08'
  else if letter = 'f' then some '\x0c'
  else none

/-- One character of a string; above the plane of `\uXXXX` by two units. -/
def writeChar (ascii : Bool) (char : Char) : List Char :=
  match shortEscape char with
  | some letter => ['\\', letter]
  | none =>
    if char.toNat < 32 || (ascii && 126 < char.toNat) then
      if char.toNat < 65536 then writeUnit char.toNat
      else
        writeUnit (55296 + (char.toNat - 65536) / 1024) ++
          writeUnit (56320 + (char.toNat - 65536) % 1024)
    else [char]

def writeChars (ascii : Bool) (chars : List Char) : List Char :=
  chars.flatMap (writeChar ascii)

def writeStr (ascii : Bool) (text : String) : List Char :=
  '"' :: (writeChars ascii text.toList ++ ['"'])

/-- The first half of a surrogate pair. -/
def isHigh (unit : Nat) : Bool :=
  55296 ≤ unit && unit < 56320

/-- The second half of a surrogate pair. -/
def isLow (unit : Nat) : Bool :=
  56320 ≤ unit && unit < 57344

/-- A character in front of what was read. -/
def inFront (char : Char) (found : Option (List Char × List Char)) :
    Option (List Char × List Char) :=
  found.map fun pair => (char :: pair.1, pair.2)

/-- The characters up to the closing quote, and what is behind it. -/
def readChars : List Char → Option (List Char × List Char)
  | [] => none
  | '"' :: rest => some ([], rest)
  | '\\' :: 'u' :: first :: second :: third :: fourth :: rest =>
    match readUnit first second third fourth with
    | none => none
    | some unit =>
      if isHigh unit then
        match rest with
        | '\\' :: 'u' :: fifth :: sixth :: seventh :: eighth :: later =>
          match readUnit fifth sixth seventh eighth with
          | none => none
          | some low =>
            if isLow low then
              inFront (Char.ofNat (65536 + (unit - 55296) * 1024 +
                (low - 56320))) (readChars later)
            else none
        | _ => none
      else if isLow unit then none
      else inFront (Char.ofNat unit) (readChars rest)
  | '\\' :: letter :: rest =>
    match readShort letter with
    | none => none
    | some char => inFront char (readChars rest)
  | char :: rest =>
    if char.toNat < 32 then none else inFront char (readChars rest)

/-! ## Numbers -/

/-- Some digits, without a zero in front. -/
def readNat (digits : List Char) : Option Nat :=
  if digits ≠ [] ∧ digits.all Char.isDigit ∧
      (digits.head? = some '0' → digits = ['0']) then
    some (Nat.ofDigitChars 10 digits 0)
  else none

/-- An integer with its sign. -/
def readInt : List Char → Option Int
  | '-' :: digits => (readNat digits).map fun value : Nat => -(value : Int)
  | digits => (readNat digits).map Int.ofNat

def writeInt (value : Int) : List Char :=
  if value < 0 then '-' :: Nat.toDigits 10 value.natAbs
  else Nat.toDigits 10 value.natAbs

/-- How floats are written, and read: `float.__repr__` and `float`. -/
structure Floats (Real : Type) where
  repr : Real → List Char
  read : List Char → Option Real
  read_repr : ∀ value, read (repr value) = some value
  chars : ∀ value, ∀ char ∈ repr value, isNumberChar char
  starts : ∀ value, ∃ first rest, repr value = first :: rest ∧
    (first.isDigit ∨ first ∈ ['-', 'N', 'I'])
  notInt : ∀ value, readInt (repr value) = none

/-- No value is a float. -/
def noFloats : Floats Empty where
  repr := Empty.elim
  read _ := none
  read_repr value := value.elim
  chars value := value.elim
  starts value := value.elim
  notInt value := value.elim

section Texts

variable {Real : Type} (floats : Floats Real)

/-- An integer where it is one, or a float. -/
def readNumber (token : List Char) : Option (Value Real) :=
  match readInt token with
  | some value => some (.int value)
  | none => (floats.read token).map .real

/-! ## Writing -/

/-- Whether all is ASCII, and the blanks between the parts, by the depth. -/
structure Style where
  ascii : Bool
  opening : Nat → List Char
  between : Nat → List Char
  closing : Nat → List Char
  keyGap : List Char
  openingBlank : ∀ depth, ∀ char ∈ opening depth, isBlank char
  betweenBlank : ∀ depth, ∀ char ∈ between depth, isBlank char
  closingBlank : ∀ depth, ∀ char ∈ closing depth, isBlank char
  keyBlank : ∀ char ∈ keyGap, isBlank char

variable (style : Style)

mutual

/-- The text of a value, `depth` brackets deep. -/
def write (depth : Nat) : Value Real → List Char
  | .null => "null".toList
  | .bool true => "true".toList
  | .bool false => "false".toList
  | .int value => writeInt value
  | .real value => floats.repr value
  | .str value => writeStr style.ascii value
  | .list [] => ['[', ']']
  | .list (first :: rest) =>
    '[' :: (style.opening (depth + 1) ++ (write (depth + 1) first ++
      (writeItems (depth + 1) rest ++ (style.closing depth ++ [']']))))
  | .dict [] => ['\x7b', '\x7d']
  | .dict ((key, value) :: rest) =>
    '\x7b' :: (style.opening (depth + 1) ++ (writeStr style.ascii key ++
      ':' :: (style.keyGap ++ (write (depth + 1) value ++
        (writeMembers (depth + 1) rest ++
          (style.closing depth ++ ['\x7d']))))))

/-- The items behind the first. -/
def writeItems (depth : Nat) : List (Value Real) → List Char
  | [] => []
  | item :: rest =>
    ',' :: (style.between depth ++
      (write depth item ++ writeItems depth rest))

/-- The members behind the first. -/
def writeMembers (depth : Nat) : List (String × Value Real) → List Char
  | [] => []
  | (key, value) :: rest =>
    ',' :: (style.between depth ++ (writeStr style.ascii key ++
      ':' :: (style.keyGap ++
        (write depth value ++ writeMembers depth rest))))

end

/-! ## Reading -/

/-- A quoted string. -/
def readStr : List Char → Option (String × List Char)
  | '"' :: rest => (readChars rest).map fun pair =>
    (String.ofList pair.1, pair.2)
  | _ => none

mutual

/-- The value in front of a text, and what is behind it. -/
def readValue : Nat → List Char → Option (Value Real × List Char)
  | 0, _ => none
  | fuel + 1, text =>
    match text with
    | '"' :: rest => (readStr ('"' :: rest)).map fun pair =>
      (.str pair.1, pair.2)
    | '[' :: rest =>
      match skip rest with
      | ']' :: later => some (.list [], later)
      | items => (readItems fuel items).map fun pair =>
        (.list pair.1, pair.2)
    | '\x7b' :: rest =>
      match skip rest with
      | '\x7d' :: later => some (.dict [], later)
      | members => (readMembers fuel members).map fun pair =>
        (.dict pair.1, pair.2)
    | 'n' :: 'u' :: 'l' :: 'l' :: rest => some (.null, rest)
    | 't' :: 'r' :: 'u' :: 'e' :: rest => some (.bool true, rest)
    | 'f' :: 'a' :: 'l' :: 's' :: 'e' :: rest => some (.bool false, rest)
    | text => (readNumber floats (text.takeWhile isNumberChar)).map
        fun value => (value, text.dropWhile isNumberChar)

/-- The items up to the closing bracket. -/
def readItems : Nat → List Char → Option (List (Value Real) × List Char)
  | 0, _ => none
  | fuel + 1, text =>
    match readValue fuel text with
    | none => none
    | some (item, rest) =>
      match skip rest with
      | ']' :: later => some ([item], later)
      | ',' :: later => (readItems fuel (skip later)).map fun pair =>
        (item :: pair.1, pair.2)
      | _ => none

/-- The members up to the closing brace. -/
def readMembers :
    Nat → List Char → Option (List (String × Value Real) × List Char)
  | 0, _ => none
  | fuel + 1, text =>
    match readStr text with
    | none => none
    | some (key, rest) =>
      match skip rest with
      | ':' :: behind =>
        match readValue fuel (skip behind) with
        | none => none
        | some (value, rest) =>
          match skip rest with
          | '\x7d' :: later => some ([(key, value)], later)
          | ',' :: later => (readMembers fuel (skip later)).map
              fun pair => ((key, value) :: pair.1, pair.2)
          | _ => none
      | _ => none

end

/-- The value of a text, its members as they stand. -/
def readText (text : List Char) : Option (Value Real) :=
  match readValue floats (text.length + 1) (skip text) with
  | some (value, rest) => if skip rest = [] then some value else none
  | none => none

end Texts

/-! ## Dictionaries -/

section Dictionaries

variable {Real : Type}

/-- A key keeps its place, and has its last value. -/
def setEntry {Field : Type} (entries : List (String × Field)) (key : String)
    (value : Field) : List (String × Field) :=
  if key ∈ entries.map Prod.fst then
    entries.map fun entry =>
      if entry.1 = key then (key, value) else entry
  else entries ++ [(key, value)]

mutual

/-- Each object as the dictionary which it is read to. -/
def merged : Value Real → Value Real
  | .list items => .list (mergedItems items)
  | .dict entries => .dict (mergedEntries [] entries)
  | .null => .null
  | .bool value => .bool value
  | .int value => .int value
  | .real value => .real value
  | .str value => .str value

def mergedItems : List (Value Real) → List (Value Real)
  | [] => []
  | item :: rest => merged item :: mergedItems rest

def mergedEntries (before : List (String × Value Real)) :
    List (String × Value Real) → List (String × Value Real)
  | [] => before
  | (key, value) :: rest =>
    mergedEntries (setEntry before key (merged value)) rest

end

mutual

/-- The value with the keys of its dictionaries in order. -/
def sorted : Value Real → Value Real
  | .list items => .list (sortedItems items)
  | .dict entries => .dict ((sortedEntries entries).insertionSort
      fun first second => first.1 ≤ second.1)
  | .null => .null
  | .bool value => .bool value
  | .int value => .int value
  | .real value => .real value
  | .str value => .str value

def sortedItems : List (Value Real) → List (Value Real)
  | [] => []
  | item :: rest => sorted item :: sortedItems rest

def sortedEntries :
    List (String × Value Real) → List (String × Value Real)
  | [] => []
  | (key, value) :: rest => (key, sorted value) :: sortedEntries rest

end

/-! ## `json` -/

/-- `, ` and `: `, and all in ASCII. -/
def plain : Style where
  ascii := true
  opening _ := []
  between _ := [' ']
  closing _ := []
  keyGap := [' ']
  openingBlank := by simp
  betweenBlank := by simp [isBlank]
  closingBlank := by simp
  keyBlank := by simp [isBlank]

/-- `,` and `:`, and all in ASCII. -/
def compact : Style where
  ascii := true
  opening _ := []
  between _ := []
  closing _ := []
  keyGap := []
  openingBlank := by simp
  betweenBlank := by simp
  closingBlank := by simp
  keyBlank := by simp

/-- `json.dumps(value, sort_keys=True)` -/
def dumpsSorted (floats : Floats Real) (value : Value Real) : List Char :=
  write floats plain 0 (sorted value)

/-- `json.dumps(value, separators=(",", ":"))` -/
def dumpsCompact (floats : Floats Real) (value : Value Real) : List Char :=
  write floats compact 0 value

/-- `json.loads` -/
def loads (floats : Floats Real) (text : List Char) : Option (Value Real) :=
  (readText floats text).map merged

end Dictionaries

end Hal0.Json
