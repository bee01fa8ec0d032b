import Hal0.Core.OptionEdits
import Hal0.Slots.ArgvScreen

/-!
# Edits of a command line

`normalize_argv` drops the superseded duplicates of a command line,
`strip_managed_flags` the flags of a denylist and
`strip_reasoning_format_none` one setting of one flag.  Each of them reads the
line with `_split_pairs`, drops pairs and writes the others back, so that
pairs which were apart stand side by side.  A flag which had no value then
takes a bare argument after it, unless a pair which stays stands between them.
-/

namespace Hal0.Slots.Argv

open List
open Hal0.Options

/-! ## The deduplication -/

/-- The key of a pair, unless it is bare or its flag is repeatable. -/
def pairKey : Item String → Option String
  | .flag head _ =>
    if canon head ∈ appendFlags then none else some (canon head)
  | .bare _ => none

/-- `last_index` of a key, in the pairs from a position on. -/
def lastIndexFrom (key : String) : Nat → List (Item String) → Option Nat
  | _, [] => none
  | index, pair :: rest =>
    (lastIndexFrom key (index + 1) rest).or
      (if pairKey pair = some key then some index else none)

/-- What `_dedup` returns. -/
structure Deduped where
  argv : List String
  removed : Nat
  winners : List (String × Item String)
deriving DecidableEq

/-- The second loop of `_dedup`, from a position on. -/
def dedupFrom (lastIndex : String → Option Nat) :
    Nat → List (Item String) → Deduped
  | _, [] => ⟨[], 0, []⟩
  | index, .bare token :: rest =>
    let later := dedupFrom lastIndex (index + 1) rest
    { later with argv := token :: later.argv }
  | index, .flag head value :: rest =>
    let later := dedupFrom lastIndex (index + 1) rest
    let argv := head :: value.toList ++ later.argv
    if canon head ∈ appendFlags then { later with argv := argv }
    else if lastIndex (canon head) = some index then
      { later with
        argv := argv
        winners := (canon head, .flag head value) :: later.winners }
    else { later with removed := later.removed + 1 }

/-- `_dedup` -/
def dedup (pairs : List (Item String)) : Deduped :=
  dedupFrom (fun key => lastIndexFrom key 0 pairs) 0 pairs

/-- `NormalizedArgv` -/
structure NormalizedArgv where
  argv : List String
  removed : Nat
  winners : List (String × String)
deriving DecidableEq

/-- `normalize_argv` -/
def normalizeArgv (isAlpha : Char → Bool) (tokens : List String) :
    NormalizedArgv :=
  let deduped := dedup (splitPairs isAlpha tokens)
  { argv := deduped.argv
    removed := deduped.removed
    winners := deduped.winners.map fun winner =>
      (winner.1, winner.2.first) }

/-! ## The denylists -/

/-- The loop of `strip_managed_flags`. -/
def stripManagedPairs (denylist : List String) :
    List (Item String) → List String × List String
  | [] => ([], [])
  | .bare token :: rest =>
    let (clean, removed) := stripManagedPairs denylist rest
    (token :: clean, removed)
  | .flag head value :: rest =>
    let (clean, removed) := stripManagedPairs denylist rest
    if canon head ∈ denylist then (clean, head :: removed)
    else (head :: value.toList ++ clean, removed)

/-- `strip_managed_flags`: the clean tokens and the removed flags. -/
def stripManagedFlags (isAlpha : Char → Bool) (tokens denylist : List String) :
    List String × List String :=
  stripManagedPairs denylist (splitPairs isAlpha tokens)

/-- The pair sets a flag of `denylist`. -/
def setsDenied (denylist : List String) (pair : Item String) : Bool :=
  pair.keptFlag fun head => canon head ∈ denylist

variable {isAlpha : Char → Bool}

/-! ## Writing pairs back -/

variable {tokens : List String}

theorem fits_of_splitPairs :
    ∀ pair ∈ splitPairs isAlpha tokens, (grammar isAlpha).Fits pair :=
  fun _ listed => Grammar.fits_of_mem_group listed

variable {pairs : List (Item String)}

/-- Pairs of a line are read again as `rejoin` has them. -/
theorem splitPairs_tokens (among : pairs.Sublist (splitPairs isAlpha tokens)) :
    splitPairs isAlpha (pairs.flatMap Item.tokens) =
      (grammar isAlpha).rejoin pairs :=
  Grammar.group_flatMap fun pair listed =>
    fits_of_splitPairs pair (among.mem listed)

/-! ## What `_dedup` computes -/

variable {index : Nat}

theorem lastIndexFrom_ge {key : String} {found : Nat}
    (isLast : lastIndexFrom key index pairs = some found) : index ≤ found := by
  induction pairs generalizing index with
  | nil => cases isLast
  | cons pair rest later =>
    rw [lastIndexFrom, Option.or_eq_some_iff] at isLast
    rcases isLast with inRest | ⟨-, here⟩
    · exact Nat.le_of_succ_le (later inRest)
    · split at here
      · cases here
        exact Nat.le_refl _
      · cases here

theorem lastIndexFrom_isSome {key : String} :
    (lastIndexFrom key index pairs).isSome = true ↔
      ∃ pair ∈ pairs, pairKey pair = some key := by
  induction pairs generalizing index with
  | nil => simp [lastIndexFrom]
  | cons pair rest later =>
    rw [lastIndexFrom, Option.isSome_or, Bool.or_eq_true, later,
      exists_mem_cons_iff, or_comm]
    split <;> simp_all

/-- The last index of a key is that of the pairs which are still to come. -/
def Upcoming (lastIndex : String → Option Nat) (index : Nat)
    (pairs : List (Item String)) : Prop :=
  ∀ key, (∃ pair ∈ pairs, pairKey pair = some key) →
    lastIndex key = lastIndexFrom key index pairs

variable {lastIndex : String → Option Nat}

theorem Upcoming.tail {pair : Item String} {rest : List (Item String)}
    (upcoming : Upcoming lastIndex index (pair :: rest)) :
    Upcoming lastIndex (index + 1) rest := by
  intro key inRest
  obtain ⟨other, listed, isKey⟩ := inRest
  rw [upcoming key ⟨other, mem_cons_of_mem _ listed, isKey⟩,
    lastIndexFrom, Option.or_of_isSome]
  exact lastIndexFrom_isSome.mpr ⟨other, listed, isKey⟩

theorem Upcoming.eq_some_iff {pair : Item String} {rest : List (Item String)}
    {key : String} (upcoming : Upcoming lastIndex index (pair :: rest))
    (isKey : pairKey pair = some key) :
    lastIndex key = some index ↔ ¬ Superseded pairKey pair rest := by
  rw [upcoming key ⟨pair, mem_cons_self, isKey⟩, lastIndexFrom, if_pos isKey]
  cases later : lastIndexFrom key (index + 1) rest with
  | none =>
    constructor
    · rintro - ⟨-, other, listed, sameKey⟩
      have found : (lastIndexFrom key (index + 1) rest).isSome = true :=
        lastIndexFrom_isSome.mpr ⟨other, listed, sameKey.trans isKey⟩
      simp [later] at found
    · intro last
      rfl
  | some found =>
    constructor
    · intro here
      obtain rfl : found = index := by simpa using here
      have beyond := lastIndexFrom_ge later
      omega
    · intro last
      have listed : (lastIndexFrom key (index + 1) rest).isSome = true := by
        simp [later]
      obtain ⟨other, inRest, sameKey⟩ := lastIndexFrom_isSome.mp listed
      refine absurd ⟨?_, other, inRest, ?_⟩ last
      · simp [isKey]
      · rw [sameKey, isKey]

/-- The pair under its key. -/
def winnerOf (pair : Item String) : Option (String × Item String) :=
  (pairKey pair).map fun key => (key, pair)

/-- The loop keeps the last of each key. -/
theorem dedupFrom_eq (upcoming : Upcoming lastIndex index pairs) :
    dedupFrom lastIndex index pairs =
      ⟨(lastWins pairKey pairs).flatMap Item.tokens,
        pairs.length - (lastWins pairKey pairs).length,
        (lastWins pairKey pairs).filterMap winnerOf⟩ := by
  induction pairs generalizing index with
  | nil => rfl
  | cons pair rest later =>
    have fewer := (lastWins_sublist pairKey rest).length_le
    cases pair with
    | bare token =>
      have keyless : pairKey (.bare token) = none := rfl
      rw [dedupFrom, later upcoming.tail,
        lastWins_of_last (not_superseded_bare keyless rest)]
      simp [Item.tokens, winnerOf, keyless]
    | flag head value =>
      rw [dedupFrom, later upcoming.tail]
      by_cases repeatable : canon head ∈ appendFlags
      · have keyless : pairKey (.flag head value) = none := by
          simp [pairKey, repeatable]
        rw [if_pos repeatable,
          lastWins_of_last fun superseded => by
            simp [Superseded, keyless] at superseded]
        simp [Item.tokens, winnerOf, keyless]
      · have isKey : pairKey (.flag head value) = some (canon head) := by
          simp [pairKey, repeatable]
        rw [if_neg repeatable]
        by_cases superseded : Superseded pairKey (.flag head value) rest
        · have notLast : ¬ lastIndex (canon head) = some index :=
            fun last => (upcoming.eq_some_iff isKey).mp last superseded
          rw [if_neg notLast, lastWins_of_superseded superseded,
            length_cons, Nat.sub_add_comm fewer]
        · rw [if_pos ((upcoming.eq_some_iff isKey).mpr superseded),
            lastWins_of_last superseded]
          simp [Item.tokens, winnerOf, isKey]

theorem dedup_eq (pairs : List (Item String)) :
    dedup pairs =
      ⟨(lastWins pairKey pairs).flatMap Item.tokens,
        pairs.length - (lastWins pairKey pairs).length,
        (lastWins pairKey pairs).filterMap winnerOf⟩ :=
  dedupFrom_eq fun _ _ => rfl

/-! ## Normalising -/

/-- The pairs of a line which survive the deduplication. -/
def survivors (isAlpha : Char → Bool) (tokens : List String) :
    List (Item String) :=
  lastWins pairKey (splitPairs isAlpha tokens)

theorem survivors_sublist (tokens : List String) :
    (survivors isAlpha tokens).Sublist (splitPairs isAlpha tokens) :=
  lastWins_sublist pairKey _

/--
The normalised line is read as the surviving pairs of the line, and
normalising it again changes and removes nothing.
-/
structure Preserves (isAlpha : Char → Bool) (tokens : List String) : Prop where
  reread : splitPairs isAlpha (normalizeArgv isAlpha tokens).argv =
    survivors isAlpha tokens
  stable : (normalizeArgv isAlpha (normalizeArgv isAlpha tokens).argv).argv =
    (normalizeArgv isAlpha tokens).argv
  nothingRemoved : (normalizeArgv isAlpha
    (normalizeArgv isAlpha tokens).argv).removed = 0

/--
Between a flag without a value and a bare argument after it stands a pair
which is not superseded, unless the flag itself is superseded.
-/
def KeepsApart (isAlpha : Char → Bool) (tokens : List String) : Prop :=
  ∀ before head middle token after,
    splitPairs isAlpha tokens =
      before ++ .flag head none :: (middle ++ .bare token :: after) →
    takesValue head = true →
    Superseded pairKey (.flag head none) (middle ++ .bare token :: after) ∨
      Stays (Superseded pairKey) middle (.bare token :: after)

theorem settled_survivors_iff (tokens : List String) :
    (grammar isAlpha).Settled (survivors isAlpha tokens) ↔
      KeepsApart isAlpha tokens := by
  rw [survivors, lastWins_eq_sieve, Grammar.settled_sieve_iff]
  apply forall_congr'
  intro before
  apply forall₄_congr
  intro head middle token after
  apply imp_congr_right
  intro same
  apply imp_congr_right
  intro takes
  rw [or_iff_left (not_superseded_bare rfl after)]

theorem keys_rejoin (pairs : List (Item String)) :
    ((grammar isAlpha).rejoin pairs).filterMap pairKey =
      pairs.filterMap pairKey := by
  induction pairs using (grammar isAlpha).rejoin_induction with
  | nil => rfl
  | joined head token rest takes later =>
    rw [Grammar.rejoin_dangling takes]
    simp only [filterMap_cons, pairKey, later]
  | alone item rest apart later =>
    rw [Grammar.rejoin_cons apart, filterMap_cons, filterMap_cons, later]

theorem normalizeArgv_argv (tokens : List String) :
    (normalizeArgv isAlpha tokens).argv =
      (survivors isAlpha tokens).flatMap Item.tokens := by
  rw [normalizeArgv, dedup_eq]
  rfl

theorem splitPairs_normalizeArgv (tokens : List String) :
    splitPairs isAlpha (normalizeArgv isAlpha tokens).argv =
      (grammar isAlpha).rejoin (survivors isAlpha tokens) := by
  rw [normalizeArgv_argv, splitPairs_tokens (survivors_sublist tokens)]

theorem survivors_normalizeArgv (tokens : List String) :
    survivors isAlpha (normalizeArgv isAlpha tokens).argv =
      splitPairs isAlpha (normalizeArgv isAlpha tokens).argv := by
  rw [survivors]
  apply lastWins_of_nodup
  rw [splitPairs_normalizeArgv, keys_rejoin]
  exact nodup_keys_lastWins pairKey _

theorem normalizeArgv_normalizeArgv (tokens : List String) :
    (normalizeArgv isAlpha (normalizeArgv isAlpha tokens).argv).argv =
        (normalizeArgv isAlpha tokens).argv ∧
      (normalizeArgv isAlpha
        (normalizeArgv isAlpha tokens).argv).removed = 0 := by
  constructor
  · rw [normalizeArgv_argv (normalizeArgv isAlpha tokens).argv,
      survivors_normalizeArgv]
    exact Grammar.flatMap_tokens_group _ _
  · have kept : survivors isAlpha (normalizeArgv isAlpha tokens).argv =
        splitPairs isAlpha (normalizeArgv isAlpha tokens).argv :=
      survivors_normalizeArgv tokens
    rw [survivors] at kept
    rw [normalizeArgv, dedup_eq, kept]
    exact Nat.sub_self _

/-- A normalised line keeps its meaning exactly when its pairs stay apart. -/
theorem normalize_preserves_iff (isAlpha : Char → Bool)
    (tokens : List String) :
    Preserves isAlpha tokens ↔ KeepsApart isAlpha tokens := by
  rw [← settled_survivors_iff, ← Grammar.rejoin_eq_self_iff,
    ← splitPairs_normalizeArgv]
  constructor
  · intro preserves
    exact preserves.reread
  · intro reread
    obtain ⟨stable, nothingRemoved⟩ := normalizeArgv_normalizeArgv tokens
    exact ⟨reread, stable, nothingRemoved⟩

/-- `-fa` takes the bare argument which a dropped pair stood before. -/
theorem bare_argument_becomes_value :
    ¬ Preserves Char.isAlpha
      ["-fa", "--threads", "4", "draft.txt", "--threads", "8"] := by
  intro preserves
  have reread := preserves.reread
  revert reread
  decide +kernel

/-! ## Stripping a denylist -/

/-- The pairs which set no flag of `denylist`. -/
def allowedPairs (isAlpha : Char → Bool) (denylist tokens : List String) :
    List (Item String) :=
  (splitPairs isAlpha tokens).filter fun pair => !setsDenied denylist pair

/-- No managed flag is left. -/
theorem stripManagedPairs_clean (denylist : List String)
    (pairs : List (Item String)) :
    (stripManagedPairs denylist pairs).1 =
      (pairs.filter fun pair => !setsDenied denylist pair).flatMap
        Item.tokens := by
  induction pairs with
  | nil => rfl
  | cons pair rest later =>
    cases pair with
    | bare token =>
      simp [stripManagedPairs, later, setsDenied, Item.keptFlag,
        Item.tokens]
    | flag head value =>
      by_cases denied : canon head ∈ denylist
      · simp [stripManagedPairs, later, setsDenied, Item.keptFlag, denied]
      · simp [stripManagedPairs, later, setsDenied, Item.keptFlag, denied,
          Item.tokens]

theorem stripManagedFlags_removed (denylist tokens : List String) :
    (stripManagedFlags isAlpha tokens denylist).2 =
      offendingFlags isAlpha denylist tokens := by
  rw [stripManagedFlags, offendingFlags]
  induction splitPairs isAlpha tokens with
  | nil => rfl
  | cons pair rest later =>
    cases pair with
    | bare token => simp [stripManagedPairs, later]
    | flag head value =>
      by_cases denied : canon head ∈ denylist
      · simp [stripManagedPairs, later, denied]
      · simp [stripManagedPairs, later, denied]

theorem stripManagedFlags_clean (denylist tokens : List String) :
    (stripManagedFlags isAlpha tokens denylist).1 =
      (allowedPairs isAlpha denylist tokens).flatMap Item.tokens :=
  stripManagedPairs_clean denylist _

variable {denylist : List String}

theorem offendingFlags_eq_nil :
    offendingFlags isAlpha denylist tokens = [] ↔
      ∀ pair ∈ splitPairs isAlpha tokens, setsDenied denylist pair = false := by
  rw [offendingFlags, filterMap_eq_nil_iff]
  apply forall₂_congr
  intro pair listed
  cases pair with
  | bare token => simp [setsDenied, Item.keptFlag]
  | flag head value => simp [setsDenied, Item.keptFlag]

theorem splitPairs_stripManaged (denylist tokens : List String) :
    splitPairs isAlpha (stripManagedFlags isAlpha tokens denylist).1 =
      (grammar isAlpha).rejoin (allowedPairs isAlpha denylist tokens) := by
  rw [stripManagedFlags_clean]
  exact splitPairs_tokens filter_sublist

theorem not_setsDenied_stripManaged (denylist tokens : List String) :
    ∀ pair ∈ splitPairs isAlpha
        (stripManagedFlags isAlpha tokens denylist).1,
      setsDenied denylist pair = false := by
  intro pair listed
  rw [splitPairs_stripManaged] at listed
  cases pair with
  | bare token => rfl
  | flag head value =>
    obtain ⟨before, found⟩ := Grammar.head_of_mem_rejoin listed
    have allowed := (mem_filter.mp found).2
    simpa [setsDenied, Item.keptFlag] using allowed

theorem stripManagedFlags_of_allowed
    (allowed : ∀ pair ∈ splitPairs isAlpha tokens,
      setsDenied denylist pair = false) :
    stripManagedFlags isAlpha tokens denylist = (tokens, []) := by
  apply Prod.ext
  · rw [stripManagedFlags_clean, allowedPairs, filter_eq_self.mpr]
    · exact Grammar.flatMap_tokens_group _ _
    · intro pair listed
      simp [allowed pair listed]
  · rw [stripManagedFlags_removed]
    exact offendingFlags_eq_nil.mpr allowed

theorem exists_setsDenied_iff :
    (∃ pair ∈ splitPairs isAlpha tokens, setsDenied denylist pair = true) ↔
      ¬ ∀ pair ∈ splitPairs isAlpha tokens,
        setsDenied denylist pair = false := by
  simp

/--
What `strip_managed_flags` promises: it removes something when a pair sets a
denied flag, and so when the screen refuses the line; the healed line sets
none, has all other pairs as they were, and is left alone by a second pass.
-/
structure Heals (isAlpha : Char → Bool) (denylist tokens : List String) :
    Prop where
  removes : (stripManagedFlags isAlpha tokens denylist).2 ≠ [] ↔
    ∃ pair ∈ splitPairs isAlpha tokens, setsDenied denylist pair = true
  changes : (stripManagedFlags isAlpha tokens denylist).1 ≠ tokens ↔
    ∃ pair ∈ splitPairs isAlpha tokens, setsDenied denylist pair = true
  refused : denylist = managedArgsDenylist → ∀ segment,
    (stripManagedFlags isAlpha tokens denylist).2 = [] ↔
      denyManagedFlags isAlpha tokens segment = .ok ()
  cleared : ∀ pair ∈ splitPairs isAlpha
      (stripManagedFlags isAlpha tokens denylist).1,
    setsDenied denylist pair = false
  others : splitPairs isAlpha (stripManagedFlags isAlpha tokens denylist).1 =
    allowedPairs isAlpha denylist tokens
  stable : stripManagedFlags isAlpha
      (stripManagedFlags isAlpha tokens denylist).1 denylist =
    ((stripManagedFlags isAlpha tokens denylist).1, [])

/--
Between a flag without a value, which is not denied, and a bare argument after
it stands a pair which is not denied.
-/
def AllowedApart (isAlpha : Char → Bool) (denylist tokens : List String) :
    Prop :=
  ∀ before head middle token after,
    splitPairs isAlpha tokens =
      before ++ .flag head none :: (middle ++ .bare token :: after) →
    takesValue head = true → canon head ∉ denylist →
    ∃ pair ∈ middle, setsDenied denylist pair = false

theorem stays_filter {keep : Item String → Bool}
    {middle later : List (Item String)} :
    Stays (fun pair _ => keep pair = false) middle later ↔
      ∃ pair ∈ middle, keep pair = true := by
  constructor
  · rintro ⟨left, kept, right, rfl, stays⟩
    exact ⟨kept, by simp, by simpa using stays⟩
  · rintro ⟨pair, listed, kept⟩
    obtain ⟨left, right, rfl⟩ := append_of_mem listed
    exact ⟨left, pair, right, rfl, by simp [kept]⟩

theorem settled_allowedPairs_iff (denylist tokens : List String) :
    (grammar isAlpha).Settled (allowedPairs isAlpha denylist tokens) ↔
      AllowedApart isAlpha denylist tokens := by
  rw [allowedPairs, filter_eq_sieve, Grammar.settled_sieve_iff]
  apply forall_congr'
  intro before
  apply forall₄_congr
  intro head middle token after
  apply imp_congr_right
  intro same
  apply imp_congr_right
  intro takes
  rw [stays_filter]
  by_cases denied : canon head ∈ denylist
  · simp [setsDenied, Item.keptFlag, denied]
  · simp [setsDenied, Item.keptFlag, denied]

/-- Healing keeps its promises exactly when the allowed pairs stay apart. -/
theorem strip_heals_iff (isAlpha : Char → Bool)
    (denylist tokens : List String) :
    Heals isAlpha denylist tokens ↔ AllowedApart isAlpha denylist tokens := by
  rw [← settled_allowedPairs_iff, ← Grammar.rejoin_eq_self_iff,
    ← splitPairs_stripManaged]
  constructor
  · intro heals
    exact heals.others
  · intro others
    have cleared : ∀ pair ∈ splitPairs isAlpha
        (stripManagedFlags isAlpha tokens denylist).1,
        setsDenied denylist pair = false :=
      not_setsDenied_stripManaged denylist tokens
    refine ⟨?_, ?_, ?_, cleared, others, ?_⟩
    · rw [stripManagedFlags_removed, exists_setsDenied_iff]
      exact not_congr offendingFlags_eq_nil
    · rw [exists_setsDenied_iff]
      apply not_congr
      constructor
      · intro same
        rw [same] at cleared
        exact cleared
      · intro allowed
        rw [stripManagedFlags_of_allowed allowed]
    · rintro rfl segment
      rw [stripManagedFlags_removed, denyManagedFlags, deny_eq_ok]
    · exact stripManagedFlags_of_allowed cleared

/-- `-fa` takes the bare argument which a managed flag stood before. -/
theorem bare_argument_joins_healed_flag :
    ¬ Heals Char.isAlpha managedArgsDenylist
      ["-fa", "--port", "8080", "draft.txt"] := by
  intro heals
  have others := heals.others
  revert others
  decide +kernel

end Hal0.Slots.Argv
