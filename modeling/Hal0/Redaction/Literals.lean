import Hal0.Core.Groups
import Hal0.Core.Masking

/-!
# Masking the secret values of a text

`_mask_literals` masks a list of literals in one scan of the text, where a
loop over the literals would scan the text for each.  The pattern it scans
with is built from a trie of the literals; long literals, literals which could
match a part of a mask, and sets for which the scan costs too much take the
loop.
-/

namespace Hal0.Redaction

open Hal0.Groups (find put)
open Hal0.Masking (replace)

abbrev Text := List Char

/-- `MASK` -/
def mask : Text := "***REDACTED***".toList

/-- `_LITERAL_TRIE_MAX_NESTING` -/
def literalTrieMaxNesting : Nat := 100

/-- `_LITERAL_OCCURRENCES_PER_CHAR_MAX` -/
def literalOccurrencesPerCharMax : Nat := 4

/-- `_LITERAL_SCAN_MAX` -/
def literalScanMax : Nat := 128

/-- `_LITERAL_REPLACE_BUDGET` -/
def literalReplaceBudget : Nat := 500000000

/-- `_may_match_a_mask` -/
def mayMatchAMask (literal : Text) : Bool :=
  literal <:+: mask || mask <:+: literal ||
    (List.range' 1 (mask.length - 1)).any fun i =>
      mask.drop i <+: literal || mask.take i <:+ literal

/-- `_replace_each` -/
def replaceEach (text : Text) (literals : List Text) : Text :=
  literals.foldl (fun text literal => replace literal mask text) text

/-! ## The trie -/

/-- A dictionary by characters; `id` is what the key `""` holds. -/
inductive Trie where
  | node (id : Option Nat) (children : List (Char × Trie))

namespace Trie

/-- The literal that ends here. -/
def id : Trie → Option Nat
  | node id _ => id

/-- The nodes below, by character. -/
def children : Trie → List (Char × Trie)
  | node _ children => children

/-- A trie without literals. -/
def empty : Trie := node none []

/-- A literal is put in; the first id of a literal stays. -/
def insert (number : Nat) : Text → Trie → Trie
  | [], node id children => node (id.or (some number)) children
  | char :: rest, node id children =>
    node id (put children char
      (insert number rest ((find children char).getD empty)))

/-- The trie of the literals, numbered in order. -/
def ofLiterals (literals : List Text) : Trie :=
  literals.zipIdx.foldl
    (fun trie numbered => trie.insert numbered.2 numbered.1) empty

/-- The ids of the literals which are found along a literal. -/
def prefixes : Text → Trie → List Nat
  | [], _ => []
  | char :: rest, node _ children =>
    match find children char with
    | none => []
    | some child => child.id.toList ++ prefixes rest child

/-- A node without id and with one child is followed to that child. -/
def follow : Trie → Text × Trie
  | node none [(char, child)] => (char :: (follow child).1, (follow child).2)
  | trie => ([], trie)

end Trie

/-! ## The pattern -/

/-- A pattern of literals, alternatives and greedy options. -/
inductive Pattern where
  | run (text : Text)
  | seq (first second : Pattern)
  | alt (first second : Pattern)
  | opt (body : Pattern)

/--
What a pattern can leave of a text, in the order in which `re` tries it: the
first alternative first, and an option before its absence.
-/
def Pattern.rests : Pattern → Text → List Text
  | run literal, text =>
    if literal <+: text then [text.drop literal.length] else []
  | seq first second, text => (first.rests text).flatMap second.rests
  | alt first second, text => first.rests text ++ second.rests text
  | opt body, text => body.rests text ++ [text]

/-- `_literal_trie_regex`, with the levels which are left for nesting. -/
def Trie.regex : Nat → Trie → Option Pattern
  | 0, _ => none
  | deeper + 1, node id children => do
      let sorted := children.insertionSort fun first second =>
        first.1 ≤ second.1
      let alts ← sorted.mapM fun branch => do
        let rest ← regex deeper branch.2.follow.2
        return Pattern.seq (.run (branch.1 :: branch.2.follow.1)) rest
      match alts with
      | [] => return .run []
      | first :: others =>
        let body := others.foldl Pattern.alt first
        return if id.isSome then .opt body else body

/-! ## The scan -/

/-- `lit_id` -/
def litIds (trie : Trie) (literals : List Text) : List (Text × Nat) :=
  literals.foldl
    (fun ids literal =>
      put ids literal ((Trie.prefixes literal trie).getLast?.getD 0)) []

/-- The ids of the literals which begin where the pattern matches. -/
def idsAt (trie : Trie) (literals : List Text) (body : Pattern)
    (tail : Text) : Option (List Nat) :=
  (body.rests tail).head?.map fun rest =>
    let found := tail.take (tail.length - rest.length)
    let ends := literals.map fun literal => Trie.prefixes literal trie
    ends.getD ((find (litIds trie literals) found).getD 0) []

/-- The positions of each literal, unless they are more than the budget. -/
def collect (ids : Text → Option (List Nat)) :
    List (Text × Nat) → Int → List (List Nat) → Option (List (List Nat))
  | [], _, occurrences => some occurrences
  | (tail, start) :: later, budget, occurrences =>
    match ids tail with
    | none => collect ids later budget occurrences
    | some found =>
      if budget - found.length < 0 then none
      else collect ids later (budget - found.length)
        (found.foldl
          (fun occurrences id => occurrences.modify id (· ++ [start]))
          occurrences)

/-- What is masked, and the spans. -/
structure Marking where
  masked : Nat → Bool
  spans : List (Nat × Nat)

/-- `masked.find(1, start, start + size) < 0` -/
def Marking.isFree (marking : Marking) (start size : Nat) : Bool :=
  (List.range size).all fun offset => !marking.masked (start + offset)

/-- One more stretch is masked. -/
def Marking.mark (marking : Marking) (start size : Nat) : Marking where
  masked := fun position =>
    marking.masked position ||
      (decide (start ≤ position) && decide (position < start + size))
  spans := marking.spans ++ [(start, start + size)]

/-- One occurrence, with the position from which the literal is free. -/
def markOne (size : Nat) (state : Marking × Nat) (start : Nat) :
    Marking × Nat :=
  if state.2 ≤ start ∧ state.1.isFree start size then
    (state.1.mark start size, start + size)
  else state

/-- Every stretch of one literal. -/
def markLiteral (marking : Marking) (size : Nat) (occurrences : List Nat) :
    Marking :=
  (occurrences.foldl (markOne size) (marking, 0)).1

/-- Spans by begin, then by end. -/
def spanOrder (first second : Nat × Nat) : Prop :=
  first.1 < second.1 ∨ (first.1 = second.1 ∧ first.2 ≤ second.2)

instance : DecidableRel spanOrder := fun first second =>
  inferInstanceAs (Decidable (first.1 < second.1 ∨
    (first.1 = second.1 ∧ first.2 ≤ second.2)))

/-- The text from a position on, with a mask for each span. -/
def spliced (text : Text) : Nat → List (Nat × Nat) → Text
  | position, [] => text.drop position
  | position, span :: spans =>
    (text.take span.1).drop position ++ mask ++ spliced text span.2 spans

/-- The literals in one scan, or by the loop where the scan is given up. -/
def scanLiterals (compiles : Pattern → Bool) (text : Text)
    (literals : List Text) : Text :=
  let trie := Trie.ofLiterals literals
  match trie.regex (literalTrieMaxNesting + 1) with
  | none => replaceEach text literals
  | some body =>
    if compiles body then
      match collect (idsAt trie literals body) text.tails.zipIdx
          (literalOccurrencesPerCharMax * text.length + literals.length)
          (List.replicate literals.length []) with
      | none => replaceEach text literals
      | some occurrences =>
        let marking := (literals.zip occurrences).foldl
          (fun marking numbered =>
            markLiteral marking numbered.1.length numbered.2)
          ⟨fun _ => false, []⟩
        spliced text 0 (marking.spans.insertionSort spanOrder)
    else replaceEach text literals

/-- `_mask_literals`; `compiles` tells which patterns `re` compiles. -/
def maskLiterals (compiles : Pattern → Bool) (text : Text)
    (literals : List Text) : Text :=
  let longRun := min
    (literals.takeWhile fun literal => literalScanMax < literal.length).length
    (literalReplaceBudget / max text.length 1)
  let masked := replaceEach text (literals.take longRun)
  let others := literals.drop longRun
  if others = [] ∨ others.any mayMatchAMask then replaceEach masked others
  else scanLiterals compiles masked others

end Hal0.Redaction
