import Hal0.Redaction.Literals

/-!
# The trie of the literals

A node of the trie is reached along the text of a literal.  The trie holds a
literal under the first number it was put in with, and its pattern matches the
longest literal at the front of a text.
-/

namespace Hal0.Redaction

open Nat
open List Option
open Hal0.Groups

namespace Trie

/-! ## Nodes along a text -/

/-- The node which a text leads to. -/
def nodeAt : Text → Trie → Option Trie
  | [], trie => some trie
  | char :: rest, node _ children => (find children char).bind (nodeAt rest)

/-- The literal that ends at a node. -/
def idAt (text : Text) (trie : Trie) : Option Nat :=
  (trie.nodeAt text).bind Trie.id

variable {trie : Trie} {text literal : Text} {number : Nat}

theorem idAt_cons (char : Char) (text : Text) (id : Option Nat)
    (children : List (Char × Trie)) :
    idAt (char :: text) (node id children) =
      (find children char).bind (idAt text) := by
  rw [idAt, nodeAt, bind_assoc]
  rfl

theorem idAt_empty (text : Text) : idAt text empty = none := by
  cases text <;> rfl

theorem idAt_getD (children : List (Char × Trie)) (char : Char)
    (text : Text) :
    idAt text ((find children char).getD empty) =
      (find children char).bind (idAt text) := by
  cases find children char with
  | none => exact idAt_empty text
  | some child => rfl

/-- An inserted literal ends at its own node. -/
theorem idAt_insert (number : Nat) (literal text : Text) (trie : Trie) :
    idAt text (insert number literal trie) =
      if text = literal then (idAt literal trie).or (some number)
      else idAt text trie := by
  induction literal generalizing text trie with
  | nil =>
    obtain ⟨id, children⟩ := trie
    cases text with
    | nil => rfl
    | cons char text =>
      rw [if_neg (cons_ne_nil char text)]
      rfl
  | cons first literal ih =>
    obtain ⟨id, children⟩ := trie
    cases text with
    | nil => rfl
    | cons char text =>
      rw [insert, idAt_cons, idAt_cons, idAt_cons, find_put]
      by_cases same : first = char
      · subst same
        rw [if_pos rfl, bind_some, ih, idAt_getD,
          idAt_getD]
        by_cases isLiteral : text = literal
        · rw [if_pos isLiteral, if_pos (congrArg _ isLiteral)]
        · rw [if_neg isLiteral,
            if_neg fun same => isLiteral (List.cons.inj same).2]
      · rw [if_neg same, if_neg fun isLiteral =>
          same (List.cons.inj isLiteral).1.symm]

theorem ofLiterals_concat (literals : List Text) (literal : Text) :
    ofLiterals (literals ++ [literal]) =
      insert literals.length literal (ofLiterals literals) := by
  rw [ofLiterals, zipIdx_append, foldl_append]
  simp [ofLiterals]

theorem idxOf?_concat (literals : List Text) (last text : Text) :
    (literals ++ [last]).idxOf? text =
      (literals.idxOf? text).or
        (if text = last then some literals.length else none) := by
  rw [idxOf?, findIdx?_append, findIdx?_singleton]
  by_cases isLast : text = last
  · simp [isLast]
  · simp [isLast, Ne.symm isLast]

theorem idAt_ofLiterals (literals : List Text) (text : Text) :
    idAt text (ofLiterals literals) = literals.idxOf? text := by
  induction literals using List.reverseRecOn generalizing text with
  | nil => exact idAt_empty text
  | append_singleton literals last ih =>
    rw [ofLiterals_concat, idAt_insert, ih,
      ih, idxOf?_concat]
    split
    · next isLast => rw [isLast]
    · rw [Option.or_none]

/-! ## Sound nodes -/

/-- The characters of a node are distinct, and a leaf has an id. -/
def Sound (trie : Trie) : Prop :=
  ∀ text node, trie.nodeAt text = some node →
    (node.children.map Prod.fst).Nodup ∧
      (text ≠ [] → node.id.isSome ∨ node.children ≠ [])

variable {children : List (Char × Trie)}

theorem Sound.child {id : Option Nat} (sound : Sound (node id children))
    {char : Char} {child : Trie} (found : find children char = some child) :
    Sound child ∧ (child.id.isSome ∨ child.children ≠ []) := by
  have path (text : Text) :
      (node id children).nodeAt (char :: text) = child.nodeAt text := by
    rw [nodeAt, found]
    rfl
  refine ⟨fun text inner reached => ?_, ?_⟩
  · rw [← path] at reached
    have here := sound _ _ reached
    exact ⟨here.1, fun _ => here.2 (cons_ne_nil _ _)⟩
  · exact (sound [char] child (path [])).2 (cons_ne_nil _ _)

theorem sound_of_children {id : Option Nat}
    (distinct : (children.map Prod.fst).Nodup)
    (sound : ∀ char child, find children char = some child →
      Sound child ∧ (child.id.isSome ∨ child.children ≠ [])) :
    Sound (node id children) := by
  intro text inner reached
  cases text with
  | nil =>
    cases reached
    exact ⟨distinct, fun isPath => absurd rfl isPath⟩
  | cons char text =>
    obtain ⟨child, found, isInner⟩ := bind_eq_some_iff.mp reached
    obtain ⟨soundChild, some⟩ := sound char child found
    refine ⟨(soundChild text inner isInner).1, fun _ => ?_⟩
    cases text with
    | nil =>
      cases isInner
      exact some
    | cons next text =>
      exact (soundChild _ inner isInner).2 (cons_ne_nil _ _)

theorem sound_empty : Sound empty :=
  sound_of_children nodup_nil nofun

theorem put_ne_nil (char : Char)
    (child : Trie) : put children char child ≠ [] := by
  cases children with
  | nil =>
    intro same
    cases same
  | cons entry rest =>
    rw [put]
    split <;> intro same <;> cases same

theorem insert_some (number : Nat) (literal : Text) (trie : Trie) :
    (insert number literal trie).id.isSome ∨
      (insert number literal trie).children ≠ [] := by
  obtain ⟨id, children⟩ := trie
  cases literal with
  | nil =>
    left
    cases id <;> rfl
  | cons char literal => exact Or.inr (put_ne_nil _ _)

/-- An insertion keeps the trie sound. -/
theorem Sound.insert (sound : Sound trie) (number : Nat) (literal : Text) :
    Sound (insert number literal trie) := by
  induction literal generalizing trie with
  | nil =>
    obtain ⟨id, children⟩ := trie
    exact sound_of_children (sound [] _ rfl).1
      fun char child found => sound.child found
  | cons first literal ih =>
    obtain ⟨id, children⟩ := trie
    refine sound_of_children (nodup_put (sound [] _ rfl).1 _ _) ?_
    intro char child found
    rw [find_put] at found
    split at found
    · obtain rfl := some.inj found
      refine ⟨ih ?_, insert_some _ _ _⟩
      cases known : find children first with
      | none => exact sound_empty
      | some old => exact (sound.child known).1
    · exact sound.child found

theorem sound_ofLiterals (literals : List Text) :
    Sound (ofLiterals literals) := by
  induction literals using List.reverseRecOn with
  | nil => exact sound_empty
  | append_singleton literals last ih =>
    rw [ofLiterals_concat]
    exact ih.insert _ _

/-! ## Prefixes of a literal -/

/-- The literals that are fronts of the text. -/
theorem mem_prefixes :
    number ∈ prefixes text trie ↔
      ∃ length, 0 < length ∧ length ≤ text.length ∧
        idAt (text.take length) trie = some number := by
  induction text generalizing trie with
  | nil =>
    refine ⟨nofun, ?_⟩
    rintro ⟨length, positive, notMore, -⟩
    exact absurd notMore (not_le.mpr positive)
  | cons char text ih =>
    obtain ⟨id, children⟩ := trie
    have shift : (∃ length, 0 < length ∧
        length ≤ (char :: text).length ∧
          idAt ((char :: text).take length) (node id children) =
            some number) ↔
        ∃ length, length ≤ text.length ∧
          (find children char).bind (idAt (text.take length)) =
            some number := by
      constructor
      · rintro ⟨length, positive, notMore, isId⟩
        obtain ⟨shorter, rfl⟩ := exists_eq_succ_of_ne_zero positive.ne'
        rw [succ_eq_add_one, take_succ_cons, idAt_cons] at isId
        exact ⟨shorter, le_of_succ_le_succ notMore, isId⟩
      · rintro ⟨length, notMore, isId⟩
        refine ⟨length + 1, succ_pos _, succ_le_succ notMore, ?_⟩
        rw [take_succ_cons, idAt_cons]
        exact isId
    rw [shift, prefixes]
    cases find children char with
    | none => simp
    | some child =>
      rw [mem_append, mem_toList, ih]
      constructor
      · rintro (isId | ⟨length, -, notMore, isId⟩)
        · exact ⟨0, zero_le _, isId⟩
        · exact ⟨length, notMore, isId⟩
      · rintro ⟨length, notMore, isId⟩
        rcases length.eq_zero_or_pos with rfl | positive
        · exact Or.inl isId
        · exact Or.inr ⟨length, positive, notMore, isId⟩

/-- The longest one is the text itself. -/
theorem getLast?_prefixes (isHeld : idAt text trie = some number)
    (nonempty : text ≠ []) :
    (prefixes text trie).getLast? = some number := by
  induction text generalizing trie with
  | nil => exact absurd rfl nonempty
  | cons char text ih =>
    obtain ⟨id, children⟩ := trie
    rw [idAt_cons] at isHeld
    obtain ⟨child, found, isId⟩ := bind_eq_some_iff.mp isHeld
    rw [prefixes, found]
    simp only
    cases text with
    | nil =>
      have isOwn : child.id = some number := isId
      rw [isOwn, prefixes]
      rfl
    | cons next text =>
      have later := ih isId (cons_ne_nil _ _)
      rw [getLast?_append, later, some_or]

theorem nodup_prefixes
    (apart : ∀ first second number, first ≤ text.length →
      second ≤ text.length → idAt (text.take first) trie = some number →
        idAt (text.take second) trie = some number → first = second) :
    (prefixes text trie).Nodup := by
  induction text generalizing trie with
  | nil => exact nodup_nil
  | cons char text ih =>
    obtain ⟨id, children⟩ := trie
    rw [prefixes]
    cases found : find children char with
    | none => exact nodup_nil
    | some child =>
      have path (length : Nat) :
          idAt ((char :: text).take (length + 1)) (node id children) =
            idAt (text.take length) child := by
        rw [take_succ_cons, idAt_cons, found]
        rfl
      have below : ∀ first second number, first ≤ text.length →
          second ≤ text.length →
            idAt (text.take first) child = some number →
              idAt (text.take second) child = some number →
                first = second := by
        intro first second number isFirst isSecond firstId secondId
        rw [← path] at firstId secondId
        exact Nat.succ.inj (apart _ _ number (succ_le_succ isFirst)
          (succ_le_succ isSecond) firstId secondId)
      refine nodup_append.mpr
        ⟨?_, ih below, ?_⟩
      · cases child.id with
        | none => exact nodup_nil
        | some _ => exact nodup_singleton _
      · rintro first isOwn second isLater rfl
        obtain ⟨length, positive, notMore, isId⟩ :=
          mem_prefixes.mp isLater
        have same := below 0 length first (zero_le _) notMore
          (mem_toList.mp isOwn) isId
        omega

/-! ## The longest literal -/

/-- The length of the longest literal at the front of a text. -/
def longest : Text → Trie → Option Nat
  | [], node id _ => id.map fun _ => 0
  | char :: rest, node id children =>
    (((find children char).bind (longest rest)).map (· + 1)).or
      (id.map fun _ => 0)

/-- No front of the text is a literal. -/
theorem longest_eq_none (isNone : longest text trie = none) (length : Nat) :
    idAt (text.take length) trie = none := by
  induction text generalizing trie length with
  | nil =>
    obtain ⟨id, children⟩ := trie
    rw [take_nil]
    exact map_eq_none_iff.mp isNone
  | cons char text ih =>
    obtain ⟨id, children⟩ := trie
    obtain ⟨below, own⟩ := or_eq_none_iff.mp isNone
    cases length with
    | zero => exact map_eq_none_iff.mp own
    | succ length =>
      rw [take_succ_cons, idAt_cons]
      cases found : find children char with
      | none => rfl
      | some child =>
        rw [found, bind_some, map_eq_none_iff] at below
        exact ih below length

/-- The longest front that is one. -/
theorem longest_eq_some {length : Nat}
    (isLongest : longest text trie = some length) :
    length ≤ text.length ∧ (idAt (text.take length) trie).isSome ∧
      ∀ other, other ≤ text.length →
        (idAt (text.take other) trie).isSome → other ≤ length := by
  induction text generalizing trie length with
  | nil =>
    obtain ⟨id, children⟩ := trie
    obtain ⟨number, rfl, rfl⟩ := map_eq_some_iff.mp isLongest
    exact ⟨le_refl _, rfl, fun other notMore _ => notMore⟩
  | cons char text ih =>
    obtain ⟨id, children⟩ := trie
    rcases or_eq_some_iff.mp isLongest with below | ⟨none, own⟩
    · obtain ⟨shorter, isBelow, rfl⟩ := map_eq_some_iff.mp below
      obtain ⟨child, found, isChild⟩ := bind_eq_some_iff.mp isBelow
      obtain ⟨notMore, held, most⟩ := ih isChild
      refine ⟨succ_le_succ notMore, ?_, ?_⟩
      · rw [take_succ_cons, idAt_cons, found]
        exact held
      · intro other inside isHeld
        cases other with
        | zero => exact zero_le _
        | succ other =>
          rw [take_succ_cons, idAt_cons, found] at isHeld
          exact succ_le_succ
            (most other (le_of_succ_le_succ inside) isHeld)
    · obtain ⟨number, rfl, rfl⟩ := map_eq_some_iff.mp own
      refine ⟨zero_le _, rfl, fun other inside isHeld => ?_⟩
      cases other with
      | zero => exact le_refl _
      | succ other =>
        rw [map_eq_none_iff] at none
        rw [take_succ_cons, idAt_cons] at isHeld
        cases found : find children char with
        | none =>
          rw [found] at isHeld
          cases isHeld
        | some child =>
          rw [found] at isHeld none
          have notHeld := longest_eq_none none other
          rw [bind_some, notHeld] at isHeld
          cases isHeld

/-! ## The pattern -/

theorem follow_of_not_only
    (notOnly : ∀ char child, trie = node none [(char, child)] → False) :
    trie.follow = ([], trie) := by
  rw [follow]
  exact notOnly

/-- A chain of single nodes is followed. -/
theorem longest_follow (text : Text) (trie : Trie) :
    longest text trie =
      if trie.follow.1 <+: text then
        (longest (text.drop trie.follow.1.length) trie.follow.2).map
          (· + trie.follow.1.length)
      else none := by
  induction trie using follow.induct generalizing text with
  | case1 char child ih =>
    rw [follow]
    cases text with
    | nil => rfl
    | cons first text =>
      rw [longest, find, find]
      by_cases same : char = first
      · subst same
        rw [if_pos rfl, bind_some, ih]
        by_cases isFront : child.follow.1 <+: text
        · have isFull : char :: child.follow.1 <+: char :: text :=
            cons_prefix_cons.mpr ⟨rfl, isFront⟩
          rw [if_pos isFront, if_pos isFull, Option.map_none,
            Option.or_none, Option.map_map]
          rfl
        · have notFull : ¬ char :: child.follow.1 <+: char :: text :=
            fun isFull => isFront (cons_prefix_cons.mp isFull).2
          rw [if_neg isFront, if_neg notFull]
          rfl
      · have notFull : ¬ char :: child.follow.1 <+: first :: text :=
          fun isFull => same (cons_prefix_cons.mp isFull).1
        rw [if_neg same, if_neg notFull]
        rfl
  | case2 trie notOnly =>
    rw [follow_of_not_only notOnly, if_pos List.nil_prefix]
    exact map_id'.symm

theorem Sound.follow (sound : Sound trie)
    (some : trie.id.isSome ∨ trie.children ≠ []) :
    Sound trie.follow.2 ∧
      (trie.follow.2.id.isSome ∨ trie.follow.2.children ≠ []) := by
  induction trie using follow.induct with
  | case1 char child ih =>
    have found : find [(char, child)] char = .some child := by simp [find]
    obtain ⟨soundChild, someChild⟩ := sound.child found
    rw [Trie.follow]
    exact ih soundChild someChild
  | case2 trie notOnly =>
    rw [follow_of_not_only notOnly]
    exact ⟨sound, some⟩

theorem rests_foldl_alt (first : Pattern) (others : List Pattern)
    (text : Text) :
    (others.foldl Pattern.alt first).rests text =
      first.rests text ++ others.flatMap fun other => other.rests text := by
  induction others generalizing first with
  | nil => simp
  | cons other others ih =>
    rw [foldl_cons, ih, Pattern.rests,
      flatMap_cons, append_assoc]

theorem head?_run_seq (run : Text) (rest : Pattern) (text : Text) :
    ((Pattern.seq (.run run) rest).rests text).head? =
      if run <+: text then (rest.rests (text.drop run.length)).head?
      else none := by
  rw [Pattern.rests, Pattern.rests]
  split
  · simp
  · rfl

/-- What follows the longest literal. -/
def leaves (text : Text) (trie : Trie) : Option Text :=
  (longest text trie).map text.drop

theorem head?_branch {char : Char} {child : Trie} {rest : Pattern}
    (below : ∀ text, (rest.rests text).head? = leaves text child.follow.2)
    (first : Char) (text : Text) :
    ((Pattern.seq (.run (char :: child.follow.1)) rest).rests
        (first :: text)).head? =
      if char = first then leaves text child else none := by
  rw [head?_run_seq, below]
  by_cases same : char = first
  · subst same
    rw [if_pos rfl, leaves, leaves, longest_follow text child]
    by_cases isFront : child.follow.1 <+: text
    · have isFull : char :: child.follow.1 <+: char :: text :=
        cons_prefix_cons.mpr ⟨rfl, isFront⟩
      rw [if_pos isFront, if_pos isFull, length_cons,
        drop_succ_cons, Option.map_map]
      refine Option.map_congr fun length _ => ?_
      rw [drop_drop, Function.comp_apply, Nat.add_comm]
    · have notFull : ¬ char :: child.follow.1 <+: char :: text :=
        fun isFull => isFront (cons_prefix_cons.mp isFull).2
      rw [if_neg isFront, if_neg notFull]
      rfl
  · rw [if_neg same, if_neg fun isFull =>
      same (cons_prefix_cons.mp isFull).1]

/-- What is left behind the longest literal through one of the branches. -/
def leavesThrough : Text → List (Char × Trie) → Option Text
  | [], _ => none
  | first :: text, branches => (find branches first).bind (leaves text)

theorem leaves_node (text : Text) (id : Option Nat)
    (children : List (Char × Trie)) :
    leaves text (node id children) =
      (leavesThrough text children).or (id.map fun _ => text) := by
  cases text with
  | nil => cases id <;> rfl
  | cons first text =>
    rw [leaves, longest, Option.map_or, Option.map_map, Option.map_bind,
      Option.map_map, leavesThrough]
    congr 1

theorem head?_alternatives {deeper : Nat} {branches : List (Char × Trie)}
    {alts : List Pattern}
    (distinct : (branches.map Prod.fst).Nodup)
    (made : (branches.mapM fun branch => do
      let rest ← regex deeper branch.2.follow.2
      return Pattern.seq (.run (branch.1 :: branch.2.follow.1)) rest) =
        some alts)
    (below : ∀ branch ∈ branches, ∀ rest,
      regex deeper branch.2.follow.2 = some rest →
        ∀ text, (rest.rests text).head? = leaves text branch.2.follow.2)
    (text : Text) :
    (alts.flatMap fun alt => alt.rests text).head? =
      leavesThrough text branches := by
  induction branches generalizing alts with
  | nil =>
    cases made
    cases text <;> rfl
  | cons branch branches ih =>
    obtain ⟨rest, isRest, others, areOthers, rfl⟩ : ∃ rest,
        regex deeper branch.2.follow.2 = some rest ∧ ∃ others,
          (branches.mapM fun branch => do
            let rest ← regex deeper branch.2.follow.2
            return Pattern.seq (.run (branch.1 :: branch.2.follow.1))
              rest) = some others ∧
            alts = .seq (.run (branch.1 :: branch.2.follow.1)) rest ::
              others := by
      simpa [mapM_cons, bind_eq_some_iff, and_assoc,
        eq_comm (a := alts)] using made
    rw [map_cons, nodup_cons] at distinct
    have ofOthers := ih distinct.2 areOthers
      fun branch isIn => below branch (mem_cons_of_mem _ isIn)
    rw [flatMap_cons, head?_append, ofOthers]
    cases text with
    | nil =>
      rw [head?_run_seq, if_neg (by simp)]
      rfl
    | cons first text =>
      rw [head?_branch (below branch mem_cons_self rest isRest),
        leavesThrough, leavesThrough, find]
      by_cases same : branch.1 = first
      · have noOther : find branches first = none :=
          find_eq_none_iff.mpr (same ▸ distinct.1)
        rw [if_pos same, if_pos same, noOther, bind_none,
          Option.or_none, bind_some]
      · rw [if_neg same, if_neg same, none_or]

/-- The pattern matches the longest literal. -/
theorem head?_regex {deeper : Nat} {body : Pattern}
    (made : regex deeper trie = some body) (sound : Sound trie)
    (some : trie.id.isSome ∨ trie.children ≠ []) (text : Text) :
    (body.rests text).head? = leaves text trie := by
  induction deeper generalizing trie body text with
  | zero => cases made
  | succ deeper ih =>
    obtain ⟨id, children⟩ := trie
    have distinct := (sound [] _ rfl).1
    obtain ⟨alts, areAlts, isBody⟩ := bind_eq_some_iff.mp made
    have perm := perm_insertionSort
      (fun first second : Char × Trie => first.1 ≤ second.1) children
    have below : ∀ branch ∈ children.insertionSort
        (fun first second => first.1 ≤ second.1), ∀ rest,
          regex deeper branch.2.follow.2 = .some rest → ∀ text,
            (rest.rests text).head? = leaves text branch.2.follow.2 := by
      intro branch isIn rest isRest text
      obtain ⟨soundChild, someChild⟩ := sound.child
        ((find_eq_some_iff distinct).mpr (perm.mem_iff.mp isIn))
      obtain ⟨soundLast, someLast⟩ := soundChild.follow someChild
      exact ih isRest soundLast someLast text
    have ofAlts := head?_alternatives
      ((perm.map Prod.fst).nodup_iff.mpr distinct) areAlts below text
    have sorted : leavesThrough text (children.insertionSort
        fun first second => first.1 ≤ second.1) =
          leavesThrough text children := by
      cases text with
      | nil => rfl
      | cons first text =>
        rw [leavesThrough, leavesThrough, find_perm perm
          ((perm.map Prod.fst).nodup_iff.mpr distinct)]
    rw [sorted] at ofAlts
    rw [leaves_node, ← ofAlts]
    cases alts with
    | nil =>
      -- A leaf, which has an id.
      cases isBody
      have leaf : children = [] := by
        cases shape : children.insertionSort
            (fun first second => first.1 ≤ second.1) with
        | nil => exact (shape ▸ perm).nil_eq.symm
        | cons branch branches =>
          rw [shape, mapM_cons] at areAlts
          simp [bind_eq_some_iff] at areAlts
      have isHeld := some.resolve_right fun notLeaf => notLeaf leaf
      obtain ⟨number, rfl⟩ := isSome_iff_exists.mp isHeld
      rw [Pattern.rests, if_pos List.nil_prefix]
      rfl
    | cons first others =>
      cases id with
      | none =>
        cases isBody
        rw [isSome_none, if_neg Bool.false_ne_true, rests_foldl_alt,
          flatMap_cons, Option.map_none, Option.or_none]
      | some number =>
        cases isBody
        rw [isSome_some, if_pos rfl, Pattern.rests,
          rests_foldl_alt, flatMap_cons, head?_append]
        rfl

end Trie

end Hal0.Redaction
