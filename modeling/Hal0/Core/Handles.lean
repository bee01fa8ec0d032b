import Mathlib.Logic.Function.Basic
import Mathlib.Data.List.Count
import Mathlib.Data.List.Perm.Basic

/-!
# Counters kept under rebindable handles

Names are bound to keys by a partial injective map, and a counter is a total
function on keys which is zero where nothing is stored.  `Books handle counts
expected` says that the counter shows `expected name` under the key of every
name and nothing anywhere else.  The rules below cover counting up and down,
the first binding of a name, moving a name to a fresh key together with its
counter, and relabelling a key which counts nothing.
-/

namespace Hal0.Handles

open Function

variable {Name Key : Type}

/-- Distinct names have distinct keys. -/
def Separate (handle : Name → Option Key) : Prop :=
  ∀ left right key, handle left = some key → handle right = some key →
    left = right

/-- No name stands for the key. -/
def Unbound (handle : Name → Option Key) (key : Key) : Prop :=
  ∀ name, handle name ≠ some key

/-- The counter agrees with the numbers expected under each name. -/
structure Books (handle : Name → Option Key) (counts : Key → Nat)
    (expected : Name → Nat) : Prop where
  bound : ∀ name key, handle name = some key → counts key = expected name
  fresh : ∀ name, handle name = none → expected name = 0
  spare : ∀ key, Unbound handle key → counts key = 0

variable {handle : Name → Option Key} {counts : Key → Nat}
  {expected : Name → Nat}

theorem Books.congr {other : Name → Nat} (books : Books handle counts expected)
    (same : ∀ name, other name = expected name) :
    Books handle counts other := by
  have equal : other = expected := funext same
  rw [equal]
  exact books

theorem Books.counts_eq_zero (books : Books handle counts expected)
    (nothing : ∀ name, expected name = 0) (key : Key) :
    counts key = 0 := by
  by_cases bound : ∃ name, handle name = some key
  · obtain ⟨name, held⟩ := bound
    rw [books.bound name key held]
    exact nothing name
  · apply books.spare
    intro name held
    exact bound ⟨name, held⟩

variable [DecidableEq Name]

variable {name : Name}

theorem Separate.bind {key : Key} (separate : Separate handle)
    (unbound : Unbound handle key) :
    Separate (update handle name (some key)) := by
  intro left right other boundLeft boundRight
  rw [update_apply] at boundLeft boundRight
  split_ifs at boundLeft boundRight with isLeft isRight isRight
  · exact isLeft.trans isRight.symm
  · exact absurd (boundLeft ▸ boundRight) (unbound right)
  · exact absurd (boundRight ▸ boundLeft) (unbound left)
  · exact separate left right other boundLeft boundRight

theorem Separate.unbind (separate : Separate handle) :
    Separate (update handle name none) := by
  intro left right other boundLeft boundRight
  rw [update_apply] at boundLeft boundRight
  split_ifs at boundLeft boundRight
  exact separate left right other boundLeft boundRight

theorem Separate.unbound_unbind {key : Key} (separate : Separate handle)
    (bound : handle name = some key) :
    Unbound (update handle name none) key := by
  intro other still
  rw [update_apply] at still
  split_ifs at still with same
  exact same (separate other name key still bound)

namespace Books

variable {handle : Name → Option Key} {counts : Key → Nat}
  {expected : Name → Nat} {name : Name} {key : Key}

/-- A new name for a free key. -/
theorem bind (books : Books handle counts expected)
    (absent : handle name = none) (unbound : Unbound handle key) :
    Books (update handle name (some key)) counts expected := by
  constructor
  · intro other otherKey otherBound
    rw [update_apply] at otherBound
    split_ifs at otherBound with same
    · obtain rfl := Option.some.inj otherBound
      rw [books.spare _ unbound, same, books.fresh name absent]
    · exact books.bound other otherKey otherBound
  · intro other stillUnbound
    rw [update_apply] at stillUnbound
    split_ifs at stillUnbound
    exact books.fresh other stillUnbound
  · intro otherKey stillUnbound
    apply books.spare
    intro other otherBound
    have apart : other ≠ name := by
      intro equal
      rw [equal, absent] at otherBound
      cases otherBound
    exact stillUnbound other
      (by rw [update_of_ne apart]; exact otherBound)

/-- A name nothing is booked on. -/
theorem unbind (books : Books handle counts expected)
    (nothing : expected name = 0) :
    Books (update handle name none) counts expected := by
  constructor
  · intro other otherKey otherBound
    rw [update_apply] at otherBound
    split_ifs at otherBound
    exact books.bound other otherKey otherBound
  · intro other unboundName
    by_cases same : other = name
    · rw [same]
      exact nothing
    · rw [update_of_ne same] at unboundName
      exact books.fresh other unboundName
  · intro otherKey unbound
    by_cases was : handle name = some otherKey
    · rw [books.bound name otherKey was]
      exact nothing
    · apply books.spare
      intro other otherBound
      have apart : other ≠ name := fun equal => was (equal ▸ otherBound)
      exact unbound other
        (by rw [update_of_ne apart]; exact otherBound)

variable [DecidableEq Key]

/-- A new count for a name. -/
theorem set (books : Books handle counts expected)
    (separate : Separate handle) (bound : handle name = some key)
    (value : Nat) :
    Books handle (update counts key value)
      (update expected name value) := by
  constructor
  · intro other otherKey otherBound
    by_cases same : other = name
    · subst same
      obtain rfl := Option.some.inj (otherBound.symm.trans bound)
      rw [update_self, update_self]
    · have apart : otherKey ≠ key := by
        intro equal
        exact same (separate other name key (equal ▸ otherBound) bound)
      rw [update_of_ne same, update_of_ne apart]
      exact books.bound other otherKey otherBound
  · intro other unboundName
    have apart : other ≠ name := by
      intro equal
      rw [equal, bound] at unboundName
      cases unboundName
    rw [update_of_ne apart]
    exact books.fresh other unboundName
  · intro otherKey unbound
    have apart : otherKey ≠ key := by
      intro equal
      exact unbound name (equal ▸ bound)
    rw [update_of_ne apart]
    exact books.spare otherKey unbound

end Books

variable [DecidableEq Key]

/--
Move what is stored under `source` to `target`, in place of what is stored
there.
-/
def migrate (counts : Key → Nat) (source target : Key) : Key → Nat :=
  if counts source = 0 then counts
  else update (update counts source 0) target
    (counts source)

/-- A name and its count go to a free key. -/
theorem Books.migrate {source target : Key}
    (books : Books handle counts expected) (separate : Separate handle)
    (bound : handle name = some source) (unbound : Unbound handle target) :
    Books (update handle name (some target))
      (migrate counts source target) expected := by
  have apart : source ≠ target := by
    intro equal
    exact unbound name (equal ▸ bound)
  have moved : ∀ key, Handles.migrate counts source target key =
      if key = target then counts source
      else if key = source then 0 else counts key := by
    intro key
    have empty := books.spare target unbound
    simp only [Handles.migrate]
    split_ifs with nothing isTarget isSource isTarget isSource
    · rw [isTarget, empty, nothing]
    · rw [isSource, nothing]
    · rfl
    · rw [isTarget, update_self]
    · rw [isSource, update_of_ne apart, update_self]
    · rw [update_of_ne isTarget, update_of_ne isSource]
  constructor
  · intro other otherKey otherBound
    rw [moved]
    rw [update_apply] at otherBound
    split_ifs at otherBound with same
    · obtain rfl := Option.some.inj otherBound
      rw [if_pos rfl, same, books.bound name source bound]
    · have notTarget : otherKey ≠ target :=
        fun equal => unbound other (equal ▸ otherBound)
      have notSource : otherKey ≠ source :=
        fun equal => same (separate other name source
          (equal ▸ otherBound) bound)
      rw [if_neg notTarget, if_neg notSource]
      exact books.bound other otherKey otherBound
  · intro other unboundName
    rw [update_apply] at unboundName
    split_ifs at unboundName
    exact books.fresh other unboundName
  · intro otherKey stillUnbound
    have notTarget : otherKey ≠ target := by
      intro equal
      exact stillUnbound name (by rw [equal, update_self])
    rw [moved, if_neg notTarget]
    split_ifs with isSource
    · rfl
    · apply books.spare
      intro other otherBound
      have different : other ≠ name := by
        intro equal
        rw [equal, bound] at otherBound
        exact isSource (Option.some.inj otherBound).symm
      exact stillUnbound other
        (by rw [update_of_ne different]; exact otherBound)

/-! ## Counting the members of a list -/

theorem countP_replace {Item : Type} [DecidableEq Item]
    (test : Item → Bool) {items : List Item} {old : Item}
    (member : old ∈ items) (new : Item) :
    (new :: items.erase old).countP test + (if test old then 1 else 0) =
      items.countP test + (if test new then 1 else 0) := by
  rw [(List.perm_cons_erase member).countP_eq, List.countP_cons,
    List.countP_cons]
  omega

theorem countP_remove {Item : Type} [DecidableEq Item]
    (test : Item → Bool) {items : List Item} {old : Item}
    (member : old ∈ items) :
    (items.erase old).countP test + (if test old then 1 else 0) =
      items.countP test := by
  rw [(List.perm_cons_erase member).countP_eq, List.countP_cons]

end Hal0.Handles
