import Mathlib.Data.List.Infix

/-!
# Replacing literals by a mask

A literal is replaced by a mask from the left, in a text which may hold masks
of earlier literals.  The text is read as cells: a character which is kept, or
a stretch of the original text which a mask stands for.  Where a literal shares
no end with the mask, replacing it takes the same stretches as masking it in
the cells does.
-/

namespace Hal0.Masking

open List

variable {χ : Type*}

/-! ## Replacing -/

section Replacing

variable [DecidableEq χ]

/-- `skip` characters of an occurrence are left. -/
def replaceFrom (old new : List χ) : Nat → List χ → List χ
  | _, [] => []
  | skip + 1, _ :: rest => replaceFrom old new skip rest
  | 0, char :: rest =>
    if old <+: char :: rest then
      new ++ replaceFrom old new (old.length - 1) rest
    else char :: replaceFrom old new 0 rest

/-- `text.replace(old, new)`; the empty text is found around each character. -/
def replace (old new text : List χ) : List χ :=
  if old = [] then new ++ text.flatMap fun char => char :: new
  else replaceFrom old new 0 text

variable {old new : List χ}

theorem replaceFrom_skip (front rest : List χ) :
    replaceFrom old new front.length (front ++ rest) =
      replaceFrom old new 0 rest := by
  induction front with
  | nil => rfl
  | cons char front ih =>
    rw [cons_append, length_cons, replaceFrom, ih]

theorem replaceFrom_append (nonempty : old ≠ []) (rest : List χ) :
    replaceFrom old new 0 (old ++ rest) =
      new ++ replaceFrom old new 0 rest := by
  cases old with
  | nil => exact absurd rfl nonempty
  | cons char old =>
    have isHere : char :: old <+: char :: (old ++ rest) :=
      prefix_append (char :: old) rest
    rw [cons_append, replaceFrom, if_pos isHere, length_cons,
      Nat.add_sub_cancel, replaceFrom_skip]

theorem replaceFrom_of_not_front {char : χ} {rest : List χ}
    (notHere : ¬ old <+: char :: rest) :
    replaceFrom old new 0 (char :: rest) =
      char :: replaceFrom old new 0 rest := by
  rw [replaceFrom, if_neg notHere]

end Replacing

/-! ## Cells -/

/-- A character, or a mark in place of a stretch. -/
inductive Cell (χ : Type*) where
  | kept (char : χ)
  | gone (stretch : List χ) (nonempty : stretch ≠ [])

open Cell

/-- What the cells stand for in the text which is masked. -/
def original : List (Cell χ) → List χ
  | [] => []
  | kept char :: rest => char :: original rest
  | gone stretch _ :: rest => stretch ++ original rest

/-- The text with the masks in it. -/
def render (mask : List χ) : List (Cell χ) → List χ
  | [] => []
  | kept char :: rest => char :: render mask rest
  | gone _ _ :: rest => mask ++ render mask rest

theorem original_map_kept (text : List χ) (rest : List (Cell χ)) :
    original (text.map kept ++ rest) = text ++ original rest := by
  induction text with
  | nil => rfl
  | cons char text ih =>
    rw [map_cons, cons_append, original, ih, cons_append]

theorem render_map_kept (mask text : List χ) (rest : List (Cell χ)) :
    render mask (text.map kept ++ rest) = text ++ render mask rest := by
  induction text with
  | nil => rfl
  | cons char text ih =>
    rw [map_cons, cons_append, render, ih, cons_append]

/-- A literal is masked where all its characters are kept, from the left. -/
inductive Masks (literal : List χ) (nonempty : literal ≠ []) :
    List (Cell χ) → List (Cell χ) → Prop where
  | nil : Masks literal nonempty [] []
  | gone {rest rest' : List (Cell χ)} (stretch : List χ)
      (some : stretch ≠ []) (masks : Masks literal nonempty rest rest') :
      Masks literal nonempty (.gone stretch some :: rest)
        (.gone stretch some :: rest')
  | pass {rest rest' : List (Cell χ)} (char : χ)
      (notHere : ¬ literal.map kept <+: kept char :: rest)
      (masks : Masks literal nonempty rest rest') :
      Masks literal nonempty (kept char :: rest) (kept char :: rest')
  | hit {rest rest' : List (Cell χ)}
      (masks : Masks literal nonempty rest rest') :
      Masks literal nonempty (literal.map kept ++ rest)
        (.gone literal nonempty :: rest')

variable {literal mask : List χ} {nonempty : literal ≠ []}
  {cells cells' : List (Cell χ)}

/-- Every row of cells can be masked. -/
theorem exists_masks (nonempty : literal ≠ []) (cells : List (Cell χ)) :
    ∃ cells', Masks literal nonempty cells cells' := by
  induction bound : cells.length using Nat.strong_induction_on
    generalizing cells with
  | _ length ih =>
    subst bound
    cases cells with
    | nil => exact ⟨[], .nil⟩
    | cons cell rest =>
      have shorter : rest.length < (cell :: rest).length :=
        Nat.lt_succ_self _
      obtain ⟨rest', masks⟩ := ih _ shorter rest rfl
      cases cell with
      | gone stretch some => exact ⟨_, .gone stretch some masks⟩
      | kept char =>
        by_cases isHere : literal.map kept <+: kept char :: rest
        · obtain ⟨after, whole⟩ := isHere
          have less : after.length < (kept char :: rest).length := by
            rw [← whole, length_append, length_map]
            have := length_pos_of_ne_nil nonempty
            omega
          obtain ⟨after', masksAfter⟩ :=
            ih _ less after rfl
          rw [← whole]
          exact ⟨_, .hit masksAfter⟩
        · exact ⟨_, .pass char isHere masks⟩

theorem Masks.original_eq (masks : Masks literal nonempty cells cells') :
    original cells' = original cells := by
  induction masks with
  | nil => rfl
  | gone stretch some _ ih =>
    rw [original, original, ih]
  | pass char _ _ ih =>
    rw [original, original, ih]
  | hit _ ih =>
    rw [original, original_map_kept, ih]

/-! ## What masking leaves -/

section

variable (masks : Masks literal nonempty cells cells')
include masks

/-- A front of characters was one before. -/
theorem Masks.front_of_front {text : List χ}
    (isFront : text.map kept <+: cells') : text.map kept <+: cells := by
  induction masks generalizing text with
  | nil => exact isFront
  | gone stretch some _ _ =>
    cases text with
    | nil => exact List.nil_prefix
    | cons char text =>
      exact absurd (cons_prefix_cons.mp isFront).1 nofun
  | pass char notHere _ ih =>
    cases text with
    | nil => exact List.nil_prefix
    | cons first text =>
      obtain ⟨same, isLater⟩ := cons_prefix_cons.mp isFront
      exact cons_prefix_cons.mpr
        ⟨same, ih isLater⟩
  | hit _ _ =>
    cases text with
    | nil => exact List.nil_prefix
    | cons char text =>
      exact absurd (cons_prefix_cons.mp isFront).1 nofun

/-- So was a stretch of characters. -/
theorem Masks.infix_of_infix {text : List χ}
    (isIn : text.map kept <:+: cells') : text.map kept <:+: cells := by
  induction masks with
  | nil => exact isIn
  | gone stretch some masks ih =>
    rcases infix_cons_iff.mp isIn with isFront | isLater
    · exact ((Masks.gone stretch some masks).front_of_front
        isFront).isInfix
    · exact infix_cons (ih isLater)
  | pass char notHere masks ih =>
    rcases infix_cons_iff.mp isIn with isFront | isLater
    · exact ((Masks.pass char notHere masks).front_of_front
        isFront).isInfix
    · exact infix_cons (ih isLater)
  | hit masks ih =>
    rcases infix_cons_iff.mp isIn with isFront | isLater
    · exact ((Masks.hit masks).front_of_front isFront).isInfix
    · exact (ih isLater).trans
        (suffix_append _ _).isInfix

/-- The literal is nowhere left. -/
theorem Masks.not_infix :
    ¬ literal.map kept <:+: cells' := by
  obtain ⟨first, others, rfl⟩ := exists_cons_of_ne_nil nonempty
  induction masks with
  | nil => simp
  | gone stretch some masks ih =>
    intro isIn
    rcases infix_cons_iff.mp isIn with isFront | isLater
    · exact absurd (cons_prefix_cons.mp isFront).1 nofun
    · exact ih isLater
  | pass char notHere masks ih =>
    intro isIn
    rcases infix_cons_iff.mp isIn with isFront | isLater
    · exact notHere
        ((Masks.pass char notHere masks).front_of_front isFront)
    · exact ih isLater
  | hit masks ih =>
    intro isIn
    rcases infix_cons_iff.mp isIn with isFront | isLater
    · exact absurd (cons_prefix_cons.mp isFront).1 nofun
    · exact ih isLater

end

theorem masks_self (nonempty : literal ≠ [])
    (notIn : ¬ literal.map kept <:+: cells) :
    Masks literal nonempty cells cells := by
  induction cells with
  | nil => exact .nil
  | cons cell rest ih =>
    have later := ih fun isIn => notIn (infix_cons isIn)
    cases cell with
    | gone stretch some => exact .gone stretch some later
    | kept char => exact .pass char (fun isHere => notIn isHere.isInfix) later

/-! ## Replacing in the rendered text -/

/-- A literal and a mask which cannot overlap in a text. -/
structure Clean (literal mask : List χ) : Prop where
  nonempty : literal ≠ []
  notInside : ¬ literal <:+: mask
  notAround : ¬ mask <:+: literal
  notBehind : ∀ tail, tail <:+ mask → tail ≠ [] → ¬ tail <+: literal
  notBefore : ∀ head, head <+: mask → head ≠ [] → ¬ head <:+ literal

/-- A tail of a clean literal meets no mask. -/
theorem Clean.kept_of_prefix (clean : Clean literal mask) {tail : List χ}
    (isTail : tail <:+ literal) (isFront : tail <+: render mask cells) :
    tail.map kept <+: cells := by
  induction tail generalizing cells with
  | nil => exact List.nil_prefix
  | cons first tail ih =>
    cases cells with
    | nil => exact absurd isFront (by simp [render])
    | cons cell rest =>
      cases cell with
      | kept char =>
        obtain ⟨rfl, isLater⟩ := cons_prefix_cons.mp isFront
        exact cons_prefix_cons.mpr ⟨rfl, ih
          ((suffix_cons _ _).trans isTail) isLater⟩
      | gone stretch some =>
        rcases List.prefix_or_prefix_of_prefix isFront
            (prefix_append mask (render mask rest)) with
          isHead | isAround
        · exact absurd isTail
            (clean.notBefore _ isHead (cons_ne_nil _ _))
        · exact absurd (isAround.isInfix.trans isTail.isInfix)
            clean.notAround

theorem Clean.not_front_of_mask (clean : Clean literal mask) {tail : List χ}
    (isTail : tail <:+ mask) (some : tail ≠ []) (rest : List χ) :
    ¬ literal <+: tail ++ rest := by
  intro isHere
  rcases List.prefix_or_prefix_of_prefix isHere (prefix_append tail rest) with
    isInside | isBehind
  · exact clean.notInside (isInside.isInfix.trans isTail.isInfix)
  · exact clean.notBehind _ isTail some isBehind

theorem Clean.infix_behind_mask (clean : Clean literal mask)
    {tail rest : List χ} (isTail : tail <:+ mask)
    (isIn : literal <:+: tail ++ rest) : literal <:+: rest := by
  induction tail with
  | nil => exact isIn
  | cons char tail ih =>
    rcases infix_cons_iff.mp isIn with isFront | isLater
    · exact absurd isFront
        (clean.not_front_of_mask isTail (cons_ne_nil _ _) rest)
    · exact ih ((suffix_cons _ _).trans isTail) isLater

/-- A literal that is read was there before. -/
theorem Clean.kept_of_inside (clean : Clean literal mask)
    (isIn : literal <:+: render mask cells) :
    literal.map kept <:+: cells := by
  induction cells with
  | nil => exact absurd (infix_nil.mp isIn) clean.nonempty
  | cons cell rest ih =>
    cases cell with
    | kept char =>
      rcases infix_cons_iff.mp isIn with isFront | isLater
      · exact (@Clean.kept_of_prefix _ _ _ (kept char :: rest) clean _
          (suffix_refl literal) isFront).isInfix
      · exact infix_cons (ih isLater)
    | gone stretch some =>
      exact infix_cons (ih
        (clean.infix_behind_mask (suffix_refl mask) isIn))

variable [DecidableEq χ]

theorem Clean.replaceFrom_mask (clean : Clean literal mask) {tail : List χ}
    (isTail : tail <:+ mask) (rest : List χ) :
    replaceFrom literal mask 0 (tail ++ rest) =
      tail ++ replaceFrom literal mask 0 rest := by
  induction tail with
  | nil => rfl
  | cons char tail ih =>
    have notHere : ¬ literal <+: char :: tail ++ rest :=
      clean.not_front_of_mask isTail (cons_ne_nil _ _) rest
    rw [cons_append] at notHere ⊢
    rw [replaceFrom_of_not_front notHere,
      ih ((suffix_cons _ _).trans isTail), cons_append]

/-- Masking the cells masks what is read. -/
theorem Masks.replaceFrom_render
    (masks : Masks literal nonempty cells cells')
    (clean : Clean literal mask) :
    replaceFrom literal mask 0 (render mask cells) = render mask cells' := by
  induction masks with
  | nil => rfl
  | gone stretch some _ ih =>
    rw [render, clean.replaceFrom_mask (suffix_refl mask),
      ih, render]
  | @pass rest _ char notHere _ ih =>
    have notRead : ¬ literal <+: char :: render mask rest :=
      fun isHere => notHere (@Clean.kept_of_prefix _ _ _
        (kept char :: rest) clean _ (suffix_refl literal) isHere)
    rw [render, replaceFrom_of_not_front notRead, ih,
      render]
  | hit _ ih =>
    rw [render_map_kept, replaceFrom_append nonempty, ih,
      render]

/-! ## Positions -/

/-- The positions at which a literal is read, from a position on. -/
def occurrences (literal : List χ) : Nat → List χ → List Nat
  | _, [] => []
  | position, char :: rest =>
    if literal <+: char :: rest then
      position :: occurrences literal (position + 1) rest
    else occurrences literal (position + 1) rest

/-- The rest is searched where the front left off. -/
theorem occurrences_append (literal front rest : List χ) (position : Nat) :
    ∃ inside, occurrences literal position (front ++ rest) =
        inside ++ occurrences literal (position + front.length) rest ∧
      ∀ start ∈ inside, position ≤ start ∧
        start < position + front.length := by
  induction front generalizing position with
  | nil => exact ⟨[], rfl, nofun⟩
  | cons char front ih =>
    obtain ⟨inside, whole, bounds⟩ := ih (position + 1)
    have length : position + 1 + front.length =
        position + (char :: front).length := by
      rw [length_cons]
      omega
    rw [length] at whole bounds
    rw [cons_append, occurrences, whole]
    split
    · refine ⟨position :: inside, rfl, fun start isIn => ?_⟩
      rcases mem_cons.mp isIn with rfl | isLater
      · exact ⟨le_refl _, by simp⟩
      · have := bounds start isLater
        omega
    · refine ⟨inside, rfl, fun start isIn => ?_⟩
      have := bounds start isIn
      omega

/-- The literal occurs at its own begin. -/
theorem occurrences_self (nonempty : literal ≠ []) (rest : List χ)
    (position : Nat) :
    ∃ inside, occurrences literal position (literal ++ rest) =
        position :: (inside ++
          occurrences literal (position + literal.length) rest) ∧
      ∀ start ∈ inside, start < position + literal.length := by
  cases literal with
  | nil => exact absurd rfl nonempty
  | cons char others =>
    obtain ⟨inside, whole, bounds⟩ :=
      occurrences_append (char :: others) others rest (position + 1)
    have isFront : char :: others <+: char :: (others ++ rest) :=
      prefix_append (char :: others) rest
    rw [cons_append, occurrences, if_pos isFront, whole,
      length_cons, Nat.add_right_comm, Nat.add_assoc]
    refine ⟨inside, rfl, fun start isIn => ?_⟩
    have := (bounds start isIn).2
    omega

omit [DecidableEq χ] in
/-- The spans of the stretches which are gone. -/
def spans : Nat → List (Cell χ) → List (Nat × Nat)
  | _, [] => []
  | position, kept _ :: rest => spans (position + 1) rest
  | position, gone stretch _ :: rest =>
    (position, position + stretch.length) ::
      spans (position + stretch.length) rest

/-- A span reaches over the position. -/
def Covered (spans : List (Nat × Nat)) (position : Nat) : Prop :=
  ∃ span ∈ spans, span.1 ≤ position ∧ position < span.2

end Hal0.Masking
