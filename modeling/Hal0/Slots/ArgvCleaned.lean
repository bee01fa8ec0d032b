import Hal0.Slots.ArgvEdits
import Mathlib.Data.List.Dedup

/-!
# Both edits of a command line

A line is normalised and stripped of a denylist in either order.  Neither edit
undoes the other, and the order does not tell which flags are left, also where
an edit joins a flag with a bare argument.
-/

namespace Hal0.Slots.Argv

open List
open Hal0.Options

variable {isAlpha : Char → Bool} {tokens denylist : List String}

/-- The keys of a line which are not repeatable. -/
def lineKeys (isAlpha : Char → Bool) (tokens : List String) : List String :=
  (splitPairs isAlpha tokens).filterMap pairKey

/-- Both edits leave the line alone. -/
structure Cleaned (isAlpha : Char → Bool) (denylist line : List String) :
    Prop where
  normal : (normalizeArgv isAlpha line).argv = line
  nothingRemoved : (normalizeArgv isAlpha line).removed = 0
  stripped : stripManagedFlags isAlpha line denylist = (line, [])

theorem dedup_filter (keep : String → Bool) (keys : List String) :
    (keys.filter keep).dedup = keys.dedup.filter keep := by
  induction keys with
  | nil => rfl
  | cons key rest later =>
    by_cases again : key ∈ rest
    · rw [dedup_cons_of_mem again, ← later, filter_cons]
      split
      · next kept =>
          exact dedup_cons_of_mem (mem_filter.mpr ⟨again, kept⟩)
      · rfl
    · rw [dedup_cons_of_notMem again, filter_cons, filter_cons, ← later]
      split
      · exact dedup_cons_of_notMem fun isIn => again (mem_filter.mp isIn).1
      · rfl

/-- The last of each key is kept. -/
theorem keys_lastWins (pairs : List (Item String)) :
    (lastWins pairKey pairs).filterMap pairKey =
      (pairs.filterMap pairKey).dedup := by
  induction pairs with
  | nil => rfl
  | cons pair rest later =>
    cases isKey : pairKey pair with
    | none =>
      have last : ¬ Superseded pairKey pair rest := fun superseded => by
        simp [Superseded, isKey] at superseded
      rw [lastWins_of_last last, filterMap_cons_none isKey, later,
        filterMap_cons_none isKey]
    | some key =>
      have again : Superseded pairKey pair rest ↔
          key ∈ rest.filterMap pairKey := by
        simp [Superseded, isKey, mem_filterMap]
      rw [filterMap_cons_some isKey]
      by_cases superseded : Superseded pairKey pair rest
      · rw [lastWins_of_superseded superseded, later,
          dedup_cons_of_mem (again.mp superseded)]
      · rw [lastWins_of_last superseded, filterMap_cons_some isKey, later,
          dedup_cons_of_notMem fun isIn => superseded (again.mpr isIn)]

theorem setsDenied_of_key {pair : Item String} {key : String}
    (isKey : pairKey pair = some key) :
    setsDenied denylist pair = decide (key ∈ denylist) := by
  cases pair with
  | bare token => cases isKey
  | flag head value =>
    rw [pairKey] at isKey
    split at isKey
    · cases isKey
    · exact congrArg (fun key => decide (key ∈ denylist)) (Option.some.inj isKey)

theorem keys_allowed (denylist : List String) (pairs : List (Item String)) :
    (pairs.filter fun pair => !setsDenied denylist pair).filterMap pairKey =
      (pairs.filterMap pairKey).filter fun key => key ∉ denylist := by
  rw [filterMap_filter, filter_filterMap]
  refine filterMap_congr fun pair _ => ?_
  cases isKey : pairKey pair with
  | none => simp
  | some key => simp [setsDenied_of_key isKey, Option.filter]

theorem lineKeys_normalizeArgv (tokens : List String) :
    lineKeys isAlpha (normalizeArgv isAlpha tokens).argv =
      (lineKeys isAlpha tokens).dedup := by
  rw [lineKeys, splitPairs_normalizeArgv, keys_rejoin]
  exact keys_lastWins _

theorem lineKeys_stripManaged (denylist tokens : List String) :
    lineKeys isAlpha (stripManagedFlags isAlpha tokens denylist).1 =
      (lineKeys isAlpha tokens).filter fun key => key ∉ denylist := by
  rw [lineKeys, splitPairs_stripManaged, keys_rejoin]
  exact keys_allowed denylist _

theorem normalizeArgv_of_nodup (distinct : (lineKeys isAlpha tokens).Nodup) :
    (normalizeArgv isAlpha tokens).argv = tokens ∧
      (normalizeArgv isAlpha tokens).removed = 0 := by
  have all : lastWins pairKey (splitPairs isAlpha tokens) =
      splitPairs isAlpha tokens :=
    lastWins_of_nodup distinct
  rw [normalizeArgv, dedup_eq, all]
  exact ⟨Grammar.flatMap_tokens_group _ _, Nat.sub_self _⟩

theorem not_setsDenied_normalizeArgv
    (allowed : ∀ pair ∈ splitPairs isAlpha tokens,
      setsDenied denylist pair = false) :
    ∀ pair ∈ splitPairs isAlpha (normalizeArgv isAlpha tokens).argv,
      setsDenied denylist pair = false := by
  intro pair listed
  rw [splitPairs_normalizeArgv] at listed
  cases pair with
  | bare token => rfl
  | flag head value =>
    obtain ⟨before, survives⟩ := Grammar.head_of_mem_rejoin listed
    have was := (survivors_sublist tokens).mem survives
    simpa [setsDenied, Item.keptFlag] using allowed _ was

/--
In either order the two edits give a line which both leave alone, and the same
keys in it: those of the line which are not denied, at their last places.
-/
theorem cleaned_in_either_order (isAlpha : Char → Bool)
    (denylist tokens : List String) :
    let first := normalizeArgv isAlpha
      (stripManagedFlags isAlpha tokens denylist).1
    let second := stripManagedFlags isAlpha
      (normalizeArgv isAlpha tokens).argv denylist
    Cleaned isAlpha denylist first.argv ∧
      Cleaned isAlpha denylist second.1 ∧
      lineKeys isAlpha first.argv = lineKeys isAlpha second.1 := by
  have allowed := @not_setsDenied_stripManaged isAlpha denylist
  have firstKeys := @lineKeys_normalizeArgv isAlpha
    (stripManagedFlags isAlpha tokens denylist).1
  have secondKeys := @lineKeys_stripManaged isAlpha denylist
    (normalizeArgv isAlpha tokens).argv
  have firstDone := normalizeArgv_of_nodup (firstKeys ▸ nodup_dedup _)
  rw [lineKeys_normalizeArgv] at secondKeys
  have secondDone := normalizeArgv_of_nodup
    (secondKeys ▸ (nodup_dedup _).filter _)
  refine ⟨⟨firstDone.1, firstDone.2, stripManagedFlags_of_allowed
      (not_setsDenied_normalizeArgv (allowed tokens))⟩,
    ⟨secondDone.1, secondDone.2,
      stripManagedFlags_of_allowed (allowed _)⟩, ?_⟩
  rw [firstKeys, secondKeys, lineKeys_stripManaged]
  exact dedup_filter _ _

end Hal0.Slots.Argv
