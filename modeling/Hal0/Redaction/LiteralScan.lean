import Hal0.Redaction.LiteralMarks
import Hal0.Redaction.LiteralTrie

/-!
# One scan for all literals

The scan finds the occurrences of every literal in the text as it was, and
marks them in the order of the loop.  What it gives is what the loop gives,
also where the loop finds the masks of earlier literals in the text.
-/

namespace Hal0.Redaction

open Option
open Hal0.Groups (find put find_put)
open Hal0.Masking
open Trie (ofLiterals idAt longest)

variable {literals : List Text} {text tail literal : Text} {number : Nat}

/-! ## The ids at a position -/

theorem find_litIds (trie : Trie) (literals : List Text) (literal : Text) :
    find (litIds trie literals) literal =
      if literal ∈ literals then
        some ((Trie.prefixes literal trie).getLast?.getD 0)
      else none := by
  induction literals using List.reverseRecOn with
  | nil => rfl
  | append_singleton literals last ih =>
    rw [litIds] at ih
    rw [litIds, List.foldl_append, List.foldl_cons, List.foldl_nil, find_put,
      ih]
    by_cases isLast : last = literal
    · simp [isLast]
    · simp [isLast, Ne.symm isLast]

theorem ends_of_held (isHeld : literals.idxOf? literal = some number)
    (nonempty : literal ≠ []) :
    (literals.map fun literal =>
        Trie.prefixes literal (ofLiterals literals)).getD
      ((find (litIds (ofLiterals literals) literals) literal).getD 0) [] =
        Trie.prefixes literal (ofLiterals literals) := by
  obtain ⟨inside, isLiteral, -⟩ := List.idxOf?_eq_some_iff.mp isHeld
  have isIn : literal ∈ literals := isLiteral ▸ List.getElem_mem inside
  have isLast := Trie.getLast?_prefixes
    ((Trie.idAt_ofLiterals literals literal).trans isHeld) nonempty
  rw [find_litIds, if_pos isIn, isLast]
  simp [inside, isLiteral]

theorem eq_of_idxOf? (isFirst : literals.idxOf? text = some number)
    (isSecond : literals.idxOf? literal = some number) : text = literal := by
  obtain ⟨_, isText, -⟩ := List.idxOf?_eq_some_iff.mp isFirst
  obtain ⟨_, isLiteral, -⟩ := List.idxOf?_eq_some_iff.mp isSecond
  exact isText.symm.trans isLiteral

theorem root_some (notEmpty : literals ≠ []) :
    (ofLiterals literals).id.isSome ∨
      (ofLiterals literals).children ≠ [] := by
  obtain ⟨last, others, rfl⟩ :=
    (List.eq_nil_or_concat literals).resolve_left notEmpty
  rw [List.concat_eq_append, Trie.ofLiterals_concat]
  exact Trie.insert_some _ _ _

section Spots

variable {body : Pattern} {levels : Nat}
  (made : (ofLiterals literals).regex levels = some body)
  (notEmpty : literals ≠ []) (nonempty : ∀ literal ∈ literals, literal ≠ [])
include made notEmpty nonempty

theorem idsAt_eq (tail : Text) :
    idsAt (ofLiterals literals) literals body tail =
      (longest tail (ofLiterals literals)).map fun length =>
        Trie.prefixes (tail.take length) (ofLiterals literals) := by
  rw [idsAt, Trie.head?_regex made (Trie.sound_ofLiterals literals)
    (root_some notEmpty), Trie.leaves, map_map]
  refine map_congr fun length isLongest => ?_
  obtain ⟨inside, held, -⟩ := Trie.longest_eq_some isLongest
  obtain ⟨number, isHeld⟩ := isSome_iff_exists.mp held
  rw [Trie.idAt_ofLiterals] at isHeld
  have isIn : tail.take length ∈ literals :=
    List.isSome_idxOf?.mp (isHeld ▸ rfl)
  have found : tail.take (tail.length - (tail.drop length).length) =
      tail.take length := by
    rw [List.length_drop, Nat.sub_sub_self inside]
  rw [Function.comp_apply, found]
  exact ends_of_held isHeld (nonempty _ isIn)

/-- The literals that begin here. -/
theorem mem_idsAt (tail : Text) :
    number ∈ (idsAt (ofLiterals literals) literals body tail).getD [] ↔
      ∃ literal, literals.idxOf? literal = some number ∧ literal <+: tail := by
  rw [idsAt_eq made notEmpty nonempty]
  constructor
  · intro isIn
    cases isLongest : longest tail (ofLiterals literals) with
    | none =>
      rw [isLongest] at isIn
      exact absurd isIn List.not_mem_nil
    | some length =>
      rw [isLongest] at isIn
      obtain ⟨shorter, -, -, isHeld⟩ := Trie.mem_prefixes.mp isIn
      rw [Trie.idAt_ofLiterals] at isHeld
      exact ⟨_, isHeld,
        (List.take_prefix _ _).trans (List.take_prefix _ _)⟩
  · rintro ⟨literal, isHeld, isFront⟩
    have isIn : literal ∈ literals := List.isSome_idxOf?.mp (isHeld ▸ rfl)
    have taken : tail.take literal.length = literal :=
      (List.prefix_iff_eq_take.mp isFront).symm
    have here : idAt (tail.take literal.length) (ofLiterals literals) =
        some number := by
      rw [taken, Trie.idAt_ofLiterals, isHeld]
    cases isLongest : longest tail (ofLiterals literals) with
    | none =>
      rw [Trie.longest_eq_none isLongest] at here
      cases here
    | some length =>
      obtain ⟨inside, -, most⟩ := Trie.longest_eq_some isLongest
      have notMore := most _ isFront.length_le (here ▸ rfl)
      refine Trie.mem_prefixes.mpr ⟨literal.length,
        List.length_pos_of_ne_nil (nonempty literal isIn), ?_, ?_⟩
      · rw [List.length_take]
        exact le_min notMore isFront.length_le
      · rw [List.take_take, min_eq_left notMore]
        exact here

theorem nodup_idsAt (tail : Text) :
    ((idsAt (ofLiterals literals) literals body tail).getD []).Nodup := by
  rw [idsAt_eq made notEmpty nonempty]
  cases longest tail (ofLiterals literals) with
  | none => exact List.nodup_nil
  | some length =>
    refine Trie.nodup_prefixes ?_
    intro first second number isFirst isSecond firstHeld secondHeld
    rw [Trie.idAt_ofLiterals] at firstHeld secondHeld
    have same := congrArg List.length (eq_of_idxOf? firstHeld secondHeld)
    rwa [List.length_take_of_le isFirst,
      List.length_take_of_le isSecond] at same

end Spots

/-! ## The occurrences -/

theorem getElem?_foldl_modify {ids : List Nat} (distinct : ids.Nodup)
    (occurrences : List (List Nat)) (start number : Nat) :
    (ids.foldl (fun occurrences id => occurrences.modify id (· ++ [start]))
        occurrences)[number]? =
      occurrences[number]?.map fun positions =>
        if number ∈ ids then positions ++ [start] else positions := by
  induction ids generalizing occurrences with
  | nil => simp
  | cons id ids ih =>
    rw [List.nodup_cons] at distinct
    rw [List.foldl_cons, ih distinct.2,
      List.getElem?_modify, map_eq_map, map_map]
    congr 1
    funext positions
    by_cases same : id = number
    · subst same
      simp [distinct.1]
    · simp [same, Ne.symm same]

variable {found : List (List Nat)}

/-- Within the budget every place is found. -/
theorem collect_eq_some {ids : Text → Option (List Nat)}
    (distinct : ∀ tail, ((ids tail).getD []).Nodup) {tails : List (Text × Nat)}
    {budget : Int} {occurrences : List (List Nat)}
    (collected : collect ids tails budget occurrences = some found)
    (number : Nat) :
    found[number]? = occurrences[number]?.map fun positions =>
      positions ++ (tails.filter fun spot =>
        number ∈ (ids spot.1).getD []).map Prod.snd := by
  induction tails generalizing budget occurrences with
  | nil =>
    obtain rfl := some.inj collected
    simp
  | cons spot later ih =>
    obtain ⟨tail, start⟩ := spot
    rw [collect] at collected
    split at collected
    · next isNone =>
        rw [ih collected, List.filter_cons_of_neg
          (by simp [isNone])]
    · next numbers isSome =>
        split at collected
        · cases collected
        · have apart := distinct tail
          rw [isSome, getD_some] at apart
          rw [ih collected, getElem?_foldl_modify apart,
            map_map]
          congr 1
          funext positions
          by_cases isIn : number ∈ numbers
          · simp [isSome, isIn]
          · simp [isSome, isIn]

theorem filter_tails (nonempty : literal ≠ []) (text : Text) (position : Nat) :
    ((text.tails.zipIdx position).filter fun spot =>
        literal <+: spot.1).map Prod.snd =
      occurrences literal position text := by
  induction text generalizing position with
  | nil => simp [occurrences, nonempty]
  | cons char text ih =>
    rw [List.tails_cons, List.zipIdx_cons, occurrences]
    split
    · next isFront =>
        rw [List.filter_cons_of_pos (by simpa using isFront),
          List.map_cons, ih]
    · next notFront =>
        rw [List.filter_cons_of_neg (by simpa using notFront),
          ih]

theorem occurrences_of_collect {body : Pattern} {levels : Nat}
    (made : (ofLiterals literals).regex levels = some body)
    (notEmpty : literals ≠ []) (nonempty : ∀ literal ∈ literals, literal ≠ [])
    {budget : Int}
    (collected : collect (idsAt (ofLiterals literals) literals body)
      text.tails.zipIdx budget (List.replicate literals.length []) =
        some found) (isLiteral : literals[number]? = some literal) :
    found[number]? = some
      (if literals.idxOf? literal = some number then
        occurrences literal 0 text
      else []) := by
  have inside : number < literals.length :=
    (List.getElem?_eq_some_iff.mp isLiteral).1
  have isIn : literal ∈ literals := List.mem_of_getElem? isLiteral
  have empty : (List.replicate literals.length ([] : List Nat))[number]? =
      some [] := by
    simp [inside]
  rw [collect_eq_some (nodup_idsAt made notEmpty nonempty) collected, empty,
    map_some, List.nil_append]
  congr 1
  split
  · next isFirst =>
      rw [← filter_tails (nonempty literal isIn)]
      congr 1
      refine List.filter_congr fun spot _ => decide_eq_decide.mpr ?_
      rw [mem_idsAt made notEmpty nonempty]
      constructor
      · rintro ⟨other, isOther, isFront⟩
        exact eq_of_idxOf? isOther isFirst ▸ isFront
      · exact fun isFront => ⟨literal, isFirst, isFront⟩
  · next notFirst =>
      refine List.map_eq_nil_iff.mpr (List.filter_eq_nil_iff.mpr ?_)
      intro spot _
      rw [decide_eq_true_eq, mem_idsAt made notEmpty nonempty]
      rintro ⟨other, isOther, -⟩
      obtain ⟨_, same, -⟩ := List.idxOf?_eq_some_iff.mp isOther
      have isOther' : literals[number]? = some other :=
        List.getElem?_eq_some_iff.mpr ⟨inside, same⟩
      rw [isLiteral] at isOther'
      cases isOther'
      exact notFirst isOther

/-! ## The loop -/

/-- A clean literal meets no mask. -/
theorem clean_of_not_mayMatchAMask
    (isClean : ¬ mayMatchAMask literal) : Clean literal mask := by
  simp only [mayMatchAMask, Bool.or_eq_true, decide_eq_true_eq,
    List.any_eq_true, not_or, not_exists, not_and] at isClean
  obtain ⟨⟨notInside, notAround⟩, noPart⟩ := isClean
  have part {cut : Nat} (positive : 0 < cut) (less : cut < mask.length) :
      ¬ mask.drop cut <+: literal ∧ ¬ mask.take cut <:+ literal :=
    noPart cut (List.mem_range'_1.mpr (by omega))
  refine ⟨?_, notInside, notAround, ?_, ?_⟩
  · rintro rfl
    exact notInside (List.nil_infix)
  · intro tail isTail some isFront
    have positive := List.length_pos_of_ne_nil some
    by_cases isWhole : tail.length = mask.length
    · rw [isTail.eq_of_length isWhole] at isFront
      exact notAround isFront.isInfix
    · have notMore := isTail.length_le
      rw [List.suffix_iff_eq_drop.mp isTail] at isFront
      exact (part (by omega) (by omega)).1 isFront
  · intro head isHead some isBack
    have positive := List.length_pos_of_ne_nil some
    by_cases isWhole : head.length = mask.length
    · rw [isHead.eq_of_length isWhole] at isBack
      exact notAround isBack.isInfix
    · have notMore := isHead.length_le
      rw [List.prefix_iff_eq_take.mp isHead] at isBack
      exact (part positive (by omega)).2 isBack

theorem replace_eq (nonempty : literal ≠ []) (text : Text) :
    replace literal mask text = replaceFrom literal mask 0 text := by
  rw [replace, if_neg nonempty]

/-- The loop masks one literal after another. -/
theorem marks_of_loop (clean : ∀ literal ∈ literals, Clean literal mask)
    (collected : ∀ number literal, literals[number]? = some literal →
      found[number]? = some
        (if literals.idxOf? literal = some number then
          occurrences literal 0 text
        else [])) {before after : List Text}
    (whole : literals = before ++ after) {marking : Marking}
    {cells : List (Cell Char)} (shows : Shows marking cells)
    (isText : original cells = text)
    (done : ∀ literal ∈ before, ¬ literal.map Cell.kept <:+: cells) :
    ∃ cells',
      Shows ((after.zip (found.drop before.length)).foldl
        (fun marking numbered =>
          markLiteral marking numbered.1.length numbered.2) marking) cells' ∧
      original cells' = text ∧
      replaceEach (render mask cells) after = render mask cells' := by
  induction after generalizing before marking cells with
  | nil => exact ⟨cells, shows, isText, rfl⟩
  | cons literal after ih =>
    have isHere : literals[before.length]? = some literal := by
      simp [whole]
    have isClean := clean literal (List.mem_of_getElem? isHere)
    obtain ⟨inside, isFound⟩ :=
      List.getElem?_eq_some_iff.mp (collected _ _ isHere)
    obtain ⟨cells', masks, step⟩ : ∃ cells',
        Masks literal isClean.nonempty cells cells' ∧
          Shows (markLiteral marking literal.length found[before.length])
            cells' := by
      rw [isFound]
      by_cases isDone : literal ∈ before
      · -- An earlier literal of this text has taken all occurrences.
        have notFirst : literals.idxOf? literal ≠ some before.length := by
          intro isFirst
          obtain ⟨_, -, none⟩ := List.idxOf?_eq_some_iff.mp isFirst
          obtain ⟨earlier, isLess, isEarlier⟩ :=
            List.getElem_of_mem isDone
          refine none earlier isLess ?_
          simpa [whole, isLess] using isEarlier
        rw [if_neg notFirst]
        exact ⟨cells, masks_self _ (done literal isDone), shows⟩
      · have isFirst : literals.idxOf? literal = some before.length := by
          refine List.idxOf?_eq_some_iff.mpr
            ⟨(List.getElem?_eq_some_iff.mp isHere).1,
              (List.getElem?_eq_some_iff.mp isHere).2, ?_⟩
          intro earlier isLess isEarlier
          refine isDone (List.mem_of_getElem (h := isLess) ?_)
          simpa [whole, isLess] using isEarlier
        obtain ⟨cells', masks⟩ := exists_masks isClean.nonempty cells
        rw [if_pos isFirst, ← isText]
        exact ⟨cells', masks, shows.markLiteral masks⟩
    have later : ∀ other ∈ before ++ [literal],
        ¬ other.map Cell.kept <:+: cells' := by
      intro other isIn kept
      rcases List.mem_append.mp isIn with isBefore | isLast
      · exact done other isBefore (masks.infix_of_infix kept)
      · rw [List.mem_singleton.mp isLast] at kept
        exact masks.not_infix kept
    obtain ⟨final, showsFinal, isTextFinal, replaced⟩ :=
      @ih (before ++ [literal])
        (by rw [whole, List.append_assoc, List.singleton_append])
        _ _ step (masks.original_eq.trans isText) later
    refine ⟨final, ?_, isTextFinal, ?_⟩
    · rw [List.drop_eq_getElem_cons inside, List.zip_cons_cons,
        List.foldl_cons]
      rw [List.length_append, List.length_singleton] at showsFinal
      exact showsFinal
    · rw [replaceEach] at replaced
      rw [replaceEach, List.foldl_cons, replace_eq isClean.nonempty,
        masks.replaceFrom_render isClean, replaced]

theorem original_whole (text : Text) :
    original (text.map Cell.kept) = text := by
  have whole := original_map_kept text []
  rwa [List.append_nil, original, List.append_nil] at whole

theorem render_whole (text : Text) :
    render mask (text.map Cell.kept) = text := by
  have whole := render_map_kept mask text []
  rwa [List.append_nil, render, List.append_nil] at whole

theorem shows_whole (text : Text) :
    Shows ⟨fun _ => false, []⟩ (text.map Cell.kept) := by
  have none := spans_map_kept text [] 0
  rw [List.append_nil, spans] at none
  refine ⟨none ▸ List.Perm.refl _, fun inside _ => ?_⟩
  rw [none]
  simp [Covered]

/-- The scan is the replacements in turn. -/
theorem scanLiterals_eq (compiles : Pattern → Bool) (text : Text)
    (notEmpty : literals ≠ [])
    (clean : ∀ literal ∈ literals, ¬ mayMatchAMask literal) :
    scanLiterals compiles text literals = replaceEach text literals := by
  have isClean : ∀ literal ∈ literals, Clean literal mask :=
    fun literal isIn => clean_of_not_mayMatchAMask (clean literal isIn)
  have nonempty : ∀ literal ∈ literals, literal ≠ [] :=
    fun literal isIn => (isClean literal isIn).nonempty
  rw [scanLiterals]
  simp only
  cases made : (ofLiterals literals).regex (literalTrieMaxNesting + 1) with
  | none => rfl
  | some body =>
    simp only
    by_cases isPattern : compiles body
    · rw [if_pos isPattern]
      split
      · rfl
      · next found collected =>
          obtain ⟨cells, shows, isText, replaced⟩ := @marks_of_loop
            literals text found isClean
            (fun number literal isLiteral => occurrences_of_collect made
              notEmpty nonempty collected isLiteral)
            [] literals rfl _ _ (shows_whole text) (original_whole text) nofun
          rw [render_whole] at replaced
          rw [List.length_nil, List.drop_zero] at shows
          rw [shows.sorted, replaced]
          exact @spliced_spans _ _ _ [] isText.symm (le_refl 0)
    · rw [if_neg isPattern]

theorem replaceEach_append (text : Text) (first second : List Text) :
    replaceEach text (first ++ second) =
      replaceEach (replaceEach text first) second :=
  List.foldl_append

/-- The literals which are not replaced one by one may be found by a scan. -/
theorem scanned_eq_replaceEach (compiles : Pattern → Bool) (text : Text)
    (others : List Text) :
    (if others = [] ∨ others.any mayMatchAMask then replaceEach text others
      else scanLiterals compiles text others) = replaceEach text others := by
  split
  · rfl
  · next scans =>
      rw [not_or] at scans
      refine scanLiterals_eq compiles _ scans.1 fun literal isIn mayMatch => ?_
      exact scans.2 (List.any_eq_true.mpr ⟨literal, isIn, mayMatch⟩)

/--
Whatever the literals are, and whatever patterns `re` compiles, the literals
are masked as the loop masks them.
-/
theorem maskLiterals_eq_replaceEach (compiles : Pattern → Bool) (text : Text)
    (literals : List Text) :
    maskLiterals compiles text literals = replaceEach text literals := by
  rw [maskLiterals]
  rw [scanned_eq_replaceEach, ← replaceEach_append, List.take_append_drop]

end Hal0.Redaction
