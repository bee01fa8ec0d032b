import Hal0.Core.Latest
import Mathlib.Data.Finset.Card
import Mathlib.Data.List.Sort

/-!
# Windows on the newest rows of a table

Rows are kept in the order of their keys, a row which is put replaces the one
with its key, and only so many of the newest rows are kept.  To prune after
every row is to prune once, after the last: so the window holds the highest
keys there have ever been, each with the last row put for it.
-/

namespace Hal0.Windows

open List
open Hal0.Latest (IsLatest isLatest_concat)

variable {Row Key : Type} [LinearOrder Key] (key : Row → Key)

/-- The rows stand in order, without repetition. -/
def Ordered (rows : List Row) : Prop :=
  rows.Pairwise fun left right => key left < key right

/-- Put a row in its place; it replaces the row with its key. -/
def put (rows : List Row) (row : Row) : List Row :=
  rows.filter (fun other => key other < key row) ++
    row :: rows.filter (fun other => key row < key other)

/-- The last rows, at most as many as the cap. -/
def newest (cap : Nat) (rows : List Row) : List Row :=
  rows.drop (rows.length - cap)

/-- Every row put, one after another. -/
def putAll (rows history : List Row) : List Row :=
  history.foldl (put key) rows

variable {key} {rows rest history : List Row} {row first other : Row}
  {cap : Nat}

/-! ## Putting a row -/

theorem mem_put :
    other ∈ put key rows row ↔
      other = row ∨ (other ∈ rows ∧ key other ≠ key row) := by
  simp only [put, mem_append, mem_cons, mem_filter,
    decide_eq_true_eq, ne_iff_lt_or_gt]
  tauto

theorem ordered_put (ordered : Ordered key rows) :
    Ordered key (put key rows row) := by
  refine pairwise_append.mpr ⟨ordered.filter _, ?_, ?_⟩
  · refine pairwise_cons.mpr ⟨fun other mem => ?_, ordered.filter _⟩
    simpa using (mem_filter.mp mem).2
  · intro left leftMem right rightMem
    have below : key left < key row := by
      simpa using (mem_filter.mp leftMem).2
    rcases mem_cons.mp rightMem with rfl | above
    · exact below
    · exact below.trans (by simpa using (mem_filter.mp above).2)

theorem filter_below_of_first (ordered : Ordered key (first :: rest))
    (below : key row ≤ key first) :
    rest.filter (fun other => key other < key row) = [] := by
  rw [filter_eq_nil_iff]
  intro other mem
  have above := (pairwise_cons.mp ordered).1 other mem
  simpa using below.trans above.le

theorem filter_above_of_first (ordered : Ordered key (first :: rest))
    (below : key row ≤ key first) :
    rest.filter (fun other => key row < key other) = rest := by
  rw [filter_eq_self]
  intro other mem
  have above := (pairwise_cons.mp ordered).1 other mem
  simpa using lt_of_le_of_lt below above

theorem put_later (below : key first < key row) :
    put key (first :: rest) row = first :: put key rest row := by
  simp [put, below, not_lt_of_gt below]

theorem put_before_rest (ordered : Ordered key (first :: rest))
    (below : key row ≤ key first) : put key rest row = row :: rest := by
  rw [put, filter_below_of_first ordered below,
    filter_above_of_first ordered below, nil_append]

theorem put_replaces (ordered : Ordered key (first :: rest))
    (same : key row = key first) :
    put key (first :: rest) row = row :: rest := by
  have restPut := put_before_rest ordered same.le
  rw [put] at restPut ⊢
  simpa [filter_cons, same] using restPut

theorem put_before (ordered : Ordered key (first :: rest))
    (above : key row < key first) :
    put key (first :: rest) row = row :: first :: rest := by
  have restPut := put_before_rest ordered above.le
  simp only [put, filter_cons, above, not_lt_of_gt above, decide_true,
    decide_false, if_true] at restPut ⊢
  rw [filter_below_of_first ordered above.le,
    filter_above_of_first ordered above.le]
  rfl

theorem length_le_put (ordered : Ordered key rows) :
    rows.length ≤ (put key rows row).length := by
  induction rows with
  | nil => simp
  | cons first rest ih =>
    rcases lt_trichotomy (key first) (key row) with below | same | above
    · rw [put_later below]
      simpa using ih (pairwise_cons.mp ordered).2
    · rw [put_replaces ordered same.symm]
      simp
    · rw [put_before ordered above]
      simp

/-! ## The newest rows -/

theorem newest_cons_of_lt (few : rest.length < cap) :
    newest cap (first :: rest) = first :: rest := by
  rw [newest, length_cons, Nat.sub_eq_zero_of_le few]
  rfl

theorem newest_cons_of_le (enough : cap ≤ rest.length) :
    newest cap (first :: rest) = newest cap rest := by
  rw [newest, newest, length_cons, Nat.succ_sub enough]
  rfl

theorem newest_sublist : (newest cap rows).Sublist rows :=
  drop_sublist _ _

theorem ordered_newest (ordered : Ordered key rows) :
    Ordered key (newest cap rows) :=
  ordered.sublist newest_sublist

/-- In descending order there is no row at the rank of the cap. -/
theorem newest_of_few (positive : 0 < cap)
    (noRow : rows.reverse[cap - 1]? = none) : newest cap rows = rows := by
  rw [getElem?_eq_none_iff, length_reverse] at noRow
  rw [newest, Nat.sub_eq_zero_of_le (by omega), drop_zero]

/-- The rows from a row on. -/
theorem filter_not_below_eq_drop {index : Nat} (ordered : Ordered key rows)
    (isRow : rows[index]? = some row) :
    (rows.filter fun other => ¬ key other < key row) = rows.drop index := by
  induction rows generalizing index with
  | nil => cases isRow
  | cons first rest ih =>
    obtain ⟨above, orderedRest⟩ := pairwise_cons.mp ordered
    cases index with
    | zero =>
      have same : first = row := Option.some.inj isRow
      subst same
      rw [drop_zero, filter_eq_self]
      intro other isIn
      rcases mem_cons.mp isIn with rfl | isLater
      · simp
      · simpa using (above other isLater).le
    | succ index =>
      have isLater : rest[index]? = some row := isRow
      have below := above row (mem_of_getElem? isLater)
      rw [filter_cons, if_neg (by simpa using below), drop_succ_cons]
      exact ih orderedRest isLater

/-- The newest rows are those not below the row at the rank of the cap. -/
theorem newest_of_rank (ordered : Ordered key rows) (positive : 0 < cap)
    (isRow : rows.reverse[cap - 1]? = some row) :
    newest cap rows = rows.filter fun other => ¬ key other < key row := by
  have inRange : cap - 1 < rows.length := by
    have within := (List.getElem?_eq_some_iff.mp isRow).1
    rwa [length_reverse] at within
  have position : rows.length - 1 - (cap - 1) = rows.length - cap := by
    omega
  rw [getElem?_reverse inRange, position] at isRow
  exact (filter_not_below_eq_drop ordered isRow).symm

/-- A row stays while few are above it. -/
theorem mem_newest (ordered : Ordered key rows) :
    row ∈ newest cap rows ↔
      row ∈ rows ∧
        (rows.filter fun other => key row < key other).length < cap := by
  induction rows with
  | nil => simp [newest]
  | cons first rest ih =>
    obtain ⟨firstBelow, restOrdered⟩ := pairwise_cons.mp ordered
    rcases Nat.lt_or_ge rest.length cap with few | enough
    · rw [newest_cons_of_lt few]
      refine ⟨fun mem => ⟨mem, ?_⟩, And.left⟩
      have notAll : ((first :: rest).filter fun other =>
          key row < key other).length < (first :: rest).length :=
        length_filter_lt_length_iff_exists.mpr ⟨row, mem, by simp⟩
      exact lt_of_le_of_lt (Nat.le_of_lt_succ notAll) few
    · rw [newest_cons_of_le enough, ih restOrdered]
      constructor
      · rintro ⟨mem, few⟩
        have notAbove : ¬ key row < key first :=
          not_lt_of_gt (firstBelow row mem)
        exact ⟨mem_cons_of_mem first mem,
          by simpa [notAbove] using few⟩
      · rintro ⟨mem, few⟩
        rcases mem_cons.mp mem with rfl | mem
        · rw [filter_cons_of_neg (by simp),
            filter_above_of_first ordered le_rfl] at few
          exact absurd few (Nat.not_lt.mpr enough)
        · have notAbove : ¬ key row < key first :=
            not_lt_of_gt (firstBelow row mem)
          exact ⟨mem, by simpa [notAbove] using few⟩

/-- Dropping early drops nothing that would stay. -/
theorem newest_put (ordered : Ordered key rows) :
    newest cap (put key (newest cap rows) row) =
      newest cap (put key rows row) := by
  induction rows with
  | nil => simp [newest]
  | cons first rest ih =>
    have restOrdered := (pairwise_cons.mp ordered).2
    rcases Nat.lt_or_ge rest.length cap with few | enough
    · rw [newest_cons_of_lt few]
    · rw [newest_cons_of_le enough, ih restOrdered]
      rcases lt_trichotomy (key first) (key row) with below | same | above
      · rw [put_later below, newest_cons_of_le
          (enough.trans (length_le_put restOrdered))]
      · rw [put_replaces ordered same.symm, put_before_rest ordered same.ge]
      · rw [put_before ordered above, put_before_rest ordered above.le,
          newest_cons_of_le enough,
          newest_cons_of_le (enough.trans (by simp)),
          newest_cons_of_le enough]

/-! ## What the window holds of a history -/

theorem ordered_putAll (ordered : Ordered key rows) :
    Ordered key (putAll key rows history) := by
  induction history generalizing rows with
  | nil => exact ordered
  | cons row later ih => exact ih (ordered_put ordered)

theorem foldl_newest_put (ordered : Ordered key rows) :
    history.foldl (fun kept row => newest cap (put key kept row))
        (newest cap rows) =
      newest cap (putAll key rows history) := by
  induction history generalizing rows with
  | nil => rfl
  | cons row later ih =>
    rw [foldl_cons, newest_put ordered, ih (ordered_put ordered)]
    rfl

/-- Of rows of one key the latest stays. -/
theorem mem_putAll :
    row ∈ putAll key [] history ↔
      IsLatest (fun other => key other = key row) history row := by
  induction history using List.reverseRecOn with
  | nil =>
    exact ⟨fun mem => absurd mem not_mem_nil,
      fun latest => absurd latest.mem not_mem_nil⟩
  | append_singleton earlier last ih =>
    rw [putAll] at ih
    rw [putAll, foldl_append, foldl_cons, foldl_nil, mem_put,
      isLatest_concat, ih]
    constructor
    · rintro (rfl | ⟨latest, differs⟩)
      · exact Or.inl ⟨rfl, rfl⟩
      · exact Or.inr ⟨Ne.symm differs, latest⟩
    · rintro (⟨isLast, _⟩ | ⟨differs, latest⟩)
      · exact Or.inl isLast
      · exact Or.inr ⟨latest, Ne.symm differs⟩

theorem toFinset_putAll :
    ((putAll key [] history).map key).toFinset =
      (history.map key).toFinset := by
  ext value
  simp only [mem_toFinset, mem_map]
  constructor
  · rintro ⟨row, mem, rfl⟩
    exact ⟨row, (mem_putAll.mp mem).mem, rfl⟩
  · rintro ⟨row, mem, rfl⟩
    rcases Latest.exists_isLatest (fun other => key other = key row)
        history with none | ⟨last, latest⟩
    · exact absurd rfl (none row mem)
    · have same : key last = key row := latest.holds
      exact ⟨last, mem_putAll.mpr (by rwa [same]), same⟩

theorem Ordered.nodup (ordered : Ordered key rows) :
    (rows.map key).Nodup :=
  pairwise_map.mpr (ordered.imp ne_of_lt)

theorem length_filter_eq_card (ordered : Ordered key rows) (value : Key) :
    (rows.filter fun other => value < key other).length =
      ((rows.map key).toFinset.filter (value < ·)).card := by
  have filtered : ((rows.map key).toFinset.filter (value < ·)) =
      ((rows.map key).filter (value < ·)).toFinset := by
    ext other
    simp
  rw [filtered, toFinset_card_of_nodup (ordered.nodup.filter _),
    filter_map, length_map]
  rfl

/--
The window on a history: the highest keys, as many as the cap, and each with
the last row put for it.
-/
theorem mem_newest_putAll :
    row ∈ newest cap (putAll key [] history) ↔
      IsLatest (fun other => key other = key row) history row ∧
        ((history.map key).toFinset.filter (key row < ·)).card < cap := by
  have ordered : Ordered key (putAll key [] history) :=
    ordered_putAll List.Pairwise.nil
  rw [mem_newest ordered, mem_putAll, length_filter_eq_card ordered,
    toFinset_putAll]

/-! ## Paging -/

theorem filter_above_last {page : List Row} {last : Row}
    (ordered : Ordered key (page ++ rest))
    (isLast : page.getLast? = some last) :
    (page ++ rest).filter (fun row => key last < key row) = rest := by
  obtain ⟨before, rfl⟩ : ∃ before, page = before ++ [last] :=
    getLast?_eq_some_iff.mp isLast
  obtain ⟨pageOrdered, _, apart⟩ := pairwise_append.mp ordered
  rw [filter_append, filter_eq_nil_iff.mpr, nil_append, filter_eq_self.mpr]
  · exact fun row mem => by simpa using apart last (by simp) row mem
  · intro row mem
    rcases mem_append.mp mem with mem | mem
    · have := (pairwise_append.mp pageOrdered).2.2 row mem last (by simp)
      simpa using this.le
    · simp [mem_singleton.mp mem]

end Hal0.Windows
