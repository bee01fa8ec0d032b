import Mathlib.Data.List.Pairwise

/-!
# Numbered histories

A history is a list of items whose numbers increase strictly.  A reader who
has read up to a number and is given the item which comes next has read up to
the number of that item, and nothing was left out or read twice.
-/

namespace Hal0

open List

universe u

/-- Items in the strict order of their numbers. -/
structure Numbered (Item : Type u) (number : Item → Nat) where
  items : List Item
  ordered : items.Pairwise fun left right => number left < number right

namespace Numbered

variable {Item : Type u} {number : Item → Nat}

/-- The items numbered up to a bound. -/
def upTo (history : Numbered Item number) (bound : Nat) : List Item :=
  history.items.filter fun item => number item ≤ bound

/-- The items after one number, up to another. -/
def within (history : Numbered Item number) (after bound : Nat) :
    List Item :=
  history.items.filter fun item => after < number item && number item ≤ bound

/-- The first item after a number. -/
def IsNext (history : Numbered Item number) (after : Nat) (item : Item) :
    Prop :=
  item ∈ history.items ∧ after < number item ∧
    ∀ other ∈ history.items, after < number other →
      number item ≤ number other

instance (history : Numbered Item number) (after : Nat) (item : Item)
    [DecidableEq Item] : Decidable (history.IsNext after item) :=
  inferInstanceAs (Decidable (_ ∧ _ ∧ _))

variable {history : Numbered Item number} {after bound : Nat} {item : Item}

private theorem filter_next {items : List Item}
    (ordered : items.Pairwise fun left right => number left < number right)
    (listed : item ∈ items) (later : after < number item)
    (first : ∀ other ∈ items, after < number other →
      number item ≤ number other) :
    items.filter (fun other => decide (number other ≤ number item)) =
      items.filter (fun other => decide (number other ≤ after)) ++
        [item] := by
  induction items with
  | nil => simp at listed
  | cons head rest reached =>
    rw [pairwise_cons] at ordered
    rcases mem_cons.mp listed with rfl | inRest
    · have none : ∀ other ∈ rest, number item < number other :=
        ordered.1
      have noneUpTo : rest.filter
          (fun other => decide (number other ≤ number item)) = [] := by
        rw [filter_eq_nil_iff]
        intro other mem
        simpa using none other mem
      have noneBefore : rest.filter
          (fun other => decide (number other ≤ after)) = [] := by
        rw [filter_eq_nil_iff]
        intro other mem
        simpa using Nat.lt_trans later (none other mem)
      rw [filter_cons_of_pos (by simp), noneUpTo,
        filter_cons_of_neg (by simpa using later), noneBefore]
      rfl
    · have earlier : number head < number item := ordered.1 item inRest
      have read : number head ≤ after := by
        by_contra unread
        have := first head (mem_cons_self ..) (by omega)
        omega
      have rested := reached ordered.2 inRest fun other mem =>
        first other (mem_cons_of_mem _ mem)
      rw [filter_cons_of_pos (by simpa using Nat.le_of_lt earlier),
        filter_cons_of_pos (by simpa using read), rested]
      rfl

theorem upTo_next (next : history.IsNext after item) :
    history.upTo (number item) = history.upTo after ++ [item] :=
  filter_next history.ordered next.1 next.2.1 next.2.2

/-- A stretch goes on where the items end. -/
theorem upTo_append_within (le : after ≤ bound) :
    history.upTo after ++ history.within after bound =
      history.upTo bound := by
  obtain ⟨items, ordered⟩ := history
  simp only [upTo, within]
  induction items with
  | nil => rfl
  | cons head rest reached =>
    rw [pairwise_cons] at ordered
    by_cases read : number head ≤ after
    · rw [filter_cons_of_pos (by simpa using read),
        filter_cons_of_neg (by simp; omega),
        filter_cons_of_pos (by simp; omega), cons_append,
        reached ordered.2]
    · have none : rest.filter
          (fun other => decide (number other ≤ after)) = [] := by
        rw [filter_eq_nil_iff]
        intro other mem
        have := ordered.1 other mem
        simp
        omega
      have rested := reached ordered.2
      rw [none, nil_append] at rested
      rw [filter_cons_of_neg (by simpa using read), none, nil_append]
      simp only [filter_cons, rested]
      have unread : after < number head := by omega
      simp [unread]

theorem within_self : history.within after after = [] := by
  unfold within
  rw [filter_eq_nil_iff]
  intro item _
  simp

theorem within_next (le : after ≤ bound)
    (next : history.IsNext bound item) :
    history.within after (number item) =
      history.within after bound ++ [item] := by
  have whole := upTo_next next
  have lt : bound < number item := next.2.1
  have split : history.upTo after ++ history.within after (number item) =
      history.upTo (number item) :=
    upTo_append_within (Nat.le_of_lt (Nat.lt_of_le_of_lt le lt))
  rw [← split, ← upTo_append_within le, append_assoc] at whole
  exact append_cancel_left whole

end Numbered

end Hal0
