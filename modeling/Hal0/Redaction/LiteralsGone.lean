import Hal0.Redaction.LiteralScan

/-!
# No literal is left

Masking takes stretches of the text away, each of which was a literal.  Where
no literal shares an end with the mask, a mask beside what is kept makes none
up, so none is left in the masked text.
-/

namespace Hal0.Redaction

open Hal0.Masking

variable {literals : List Text}

/-- The stretches which are masked are literals. -/
def TakesOnly (literals : List Text) (cells : List (Cell Char)) : Prop :=
  ∀ stretch some, Cell.gone stretch some ∈ cells → stretch ∈ literals

/-- A masked stretch stays gone. -/
theorem gone_of_masks {literal stretch : Text} {nonempty : literal ≠ []}
    {some : stretch ≠ []} {cells cells' : List (Cell Char)}
    (masks : Masks literal nonempty cells cells')
    (isIn : Cell.gone stretch some ∈ cells') :
    stretch = literal ∨ Cell.gone stretch some ∈ cells := by
  induction masks with
  | nil => exact .inr isIn
  | gone other _ _ later =>
    rcases List.mem_cons.mp isIn with same | isLater
    · exact .inr (same ▸ List.mem_cons_self)
    · exact (later isLater).imp_right (List.mem_cons_of_mem _)
  | pass char _ _ later =>
    exact (later (by simpa using isIn)).imp_right (List.mem_cons_of_mem _)
  | hit _ later =>
    rcases List.mem_cons.mp isIn with same | isLater
    · cases same
      exact .inl rfl
    · exact (later isLater).imp_right (List.mem_append_right _)

/-- One literal after the other: what an earlier one left stays away. -/
theorem replaceEach_render {rest : List Text}
    (clean : ∀ literal ∈ rest, Clean literal mask)
    (inside : rest ⊆ literals) (cells : List (Cell Char))
    (takes : TakesOnly literals cells) :
    ∃ cells', original cells' = original cells ∧
      render mask cells' = replaceEach (render mask cells) rest ∧
      TakesOnly literals cells' ∧
      (∀ literal ∈ rest, ¬ literal.map Cell.kept <:+: cells') ∧
      ∀ other : Text, other.map Cell.kept <:+: cells' →
        other.map Cell.kept <:+: cells := by
  induction rest generalizing cells with
  | nil =>
    exact ⟨cells, rfl, rfl, takes,
      fun _ isIn => absurd isIn List.not_mem_nil, fun _ isIn => isIn⟩
  | cons literal rest ih =>
    have isClean := clean literal List.mem_cons_self
    obtain ⟨middle, masks⟩ := exists_masks isClean.nonempty cells
    obtain ⟨cells', same, rendered, takes', none, fewer⟩ :=
      ih
        (fun other isIn => clean other (List.mem_cons_of_mem _ isIn))
        (fun other isIn => inside (List.mem_cons_of_mem _ isIn)) middle
        fun stretch some isIn => (gone_of_masks masks isIn).elim
          (fun same => same ▸ inside List.mem_cons_self)
          (takes stretch some)
    refine ⟨cells', same.trans masks.original_eq, ?_, takes', ?_, ?_⟩
    · rw [rendered, replaceEach, replaceEach, List.foldl_cons,
        replace_eq isClean.nonempty, masks.replaceFrom_render isClean]
    · intro other isIn kept
      rcases List.mem_cons.mp isIn with rfl | isLater
      · exact masks.not_infix (fewer _ kept)
      · exact none other isLater kept
    · exact fun other kept => masks.infix_of_infix (fewer other kept)

/--
Where no literal may match a mask, the masked text is the text with literals
of the list masked in it, and holds none of them.
-/
theorem literals_gone (compiles : Pattern → Bool) (text : Text)
    (clean : ∀ literal ∈ literals, ¬ mayMatchAMask literal) :
    (∃ cells, original cells = text ∧
      render mask cells = maskLiterals compiles text literals ∧
      TakesOnly literals cells) ∧
    ∀ literal ∈ literals,
      ¬ literal <:+: maskLiterals compiles text literals := by
  have isClean : ∀ literal ∈ literals, Clean literal mask :=
    fun literal isIn => clean_of_not_mayMatchAMask (clean literal isIn)
  have isLoop : maskLiterals compiles text literals =
      replaceEach text literals := by
    rw [maskLiterals]
    rw [scanned_eq_replaceEach, ← replaceEach_append, List.take_append_drop]
  obtain ⟨cells, same, rendered, takes, none, -⟩ :=
    replaceEach_render isClean (List.Subset.refl _) (text.map Cell.kept)
      fun _ _ isIn => by simp at isIn
  rw [original_whole] at same
  rw [render_whole] at rendered
  refine ⟨⟨cells, same, rendered.trans isLoop.symm, takes⟩, ?_⟩
  intro literal isIn isLeft
  rw [isLoop, ← rendered] at isLeft
  exact none literal isIn ((isClean literal isIn).kept_of_inside isLeft)

/-- Two tokens, one of them a front of the other. -/
theorem tokens_gone : ¬ "hf_a".toList <:+:
    maskLiterals (fun _ => true) "hf_abhf_a".toList
      ["hf_ab".toList, "hf_a".toList] :=
  (literals_gone _ _ (by decide)).2 _ (by decide)

end Hal0.Redaction
