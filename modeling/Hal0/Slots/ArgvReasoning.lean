import Hal0.Slots.ArgvEdits

/-!
# No launch with `--reasoning-format none`

`resolve_argv` strips the setting from each segment, joins the segments and
deduplicates the line.  Each of the three makes pairs neighbours which were
apart, so that a `--reasoning-format` without a value can take a bare `none`
which the strip has already passed.
-/

namespace Hal0.Slots.Argv

open List
open Hal0.Options

variable {isAlpha : Char → Bool}

/-! ## The strip -/

/-- The pairs of a line which the strip leaves. -/
def reasonablePairs (isAlpha : Char → Bool) (tokens : List String) :
    List (Item String) :=
  (splitPairs isAlpha tokens).filter fun pair => !setsReasoningNone pair

theorem splitPairs_strip (tokens : List String) :
    splitPairs isAlpha (stripReasoningFormatNone isAlpha tokens) =
      (grammar isAlpha).rejoin (reasonablePairs isAlpha tokens) := by
  rw [stripReasoningFormatNone_eq]
  exact splitPairs_tokens filter_sublist

theorem strip_eq_self_iff (tokens : List String) :
    stripReasoningFormatNone isAlpha tokens = tokens ↔
      ∀ pair ∈ splitPairs isAlpha tokens, setsReasoningNone pair = false := by
  have whole : (splitPairs isAlpha tokens).flatMap Item.tokens = tokens :=
    Grammar.flatMap_tokens_group _ _
  rw [stripReasoningFormatNone_eq]
  constructor
  · intro same pair listed
    have kept := forall_keep_of_tokens (same.trans whole.symm) pair listed
    simpa using kept
  · intro none
    rw [filter_eq_self.mpr fun pair listed => by simp [none pair listed]]
    exact whole

theorem setsReasoningNone_alone {head : String}
    (takes : takesValue head = true) :
    setsReasoningNone (.flag head none) = false := by
  have notJoined : isJoined head = false := by
    cases joined : isJoined head with
    | false => rfl
    | true => simp [takesValue, joined] at takes
  have empty : isNone "" = false := by decide +kernel
  simp [setsReasoningNone, notJoined, empty]

/--
Between a `--reasoning-format` without a value and a bare `none` after it
stands a pair which the strip leaves.
-/
def NoneApart (isAlpha : Char → Bool) (tokens : List String) : Prop :=
  ∀ before head middle token after,
    splitPairs isAlpha tokens =
      before ++ .flag head none :: (middle ++ .bare token :: after) →
    takesValue head = true →
    setsReasoningNone (.flag head (some token)) = true →
    ∃ pair ∈ middle, setsReasoningNone pair = false

/-- When stripping twice is stripping once. -/
theorem strip_strip_iff (tokens : List String) :
    stripReasoningFormatNone isAlpha
        (stripReasoningFormatNone isAlpha tokens) =
      stripReasoningFormatNone isAlpha tokens ↔ NoneApart isAlpha tokens := by
  have allowed : ∀ pair ∈ reasonablePairs isAlpha tokens,
      setsReasoningNone pair = false := by
    intro pair listed
    simpa using (mem_filter.mp listed).2
  rw [strip_eq_self_iff, splitPairs_strip, Grammar.forall_mem_rejoin allowed,
    reasonablePairs, filter_eq_sieve, isChain_sieve_iff]
  constructor
  · intro apart before head middle token after same takes sets
    by_contra nothing
    have left := apart before _ middle _ after same
      (by simp [setsReasoningNone_alone takes])
      (fun stays => nothing (by simpa using stays_filter.mp stays))
      (by simp [setsReasoningNone]) head token rfl rfl takes
    simp [left] at sets
  · rintro apart before left middle right after same staysLeft nothing
      staysRight head token rfl rfl takes
    cases sets : setsReasoningNone (.flag head (some token)) with
    | false => rfl
    | true =>
      have stays := apart before head middle token after same takes sets
      exact absurd (stays_filter.mpr (by simpa using stays)) nothing

/-! ## The launch -/

/-- The pairs of all segments, each read on its own. -/
def segmentPairs (isAlpha : Char → Bool) (segments : List Segment) :
    List (Item String) :=
  segments.flatMap fun segment => splitPairs isAlpha segment.2

/-- The pairs which the strip leaves of the segments. -/
def reasonableSegments (isAlpha : Char → Bool) (segments : List Segment) :
    List (Item String) :=
  (segmentPairs isAlpha segments).filter fun pair => !setsReasoningNone pair

/-- The pairs of the segments, without the setting, which win their key. -/
def winningPairs (isAlpha : Char → Bool) (segments : List Segment) :
    List (Item String) :=
  lastWins pairKey (reasonableSegments isAlpha segments)

variable {segments : List Segment}

theorem fits_of_reasonable :
    ∀ pair ∈ reasonableSegments isAlpha segments,
      (grammar isAlpha).Fits pair := by
  intro pair listed
  obtain ⟨segment, -, inSegment⟩ :=
    mem_flatMap.mp (mem_filter.mp listed).1
  exact fits_of_splitPairs pair inSegment

theorem tokens_of_segments (segments : List Segment) :
    (segments.flatMap (segmentTokens isAlpha)).map Prod.fst =
      (reasonableSegments isAlpha segments).flatMap Item.tokens := by
  induction segments with
  | nil => rfl
  | cons segment rest later =>
    have here : (segmentTokens isAlpha segment).map Prod.fst =
        stripReasoningFormatNone isAlpha segment.2 := by
      simp [segmentTokens, Function.comp_def]
    rw [flatMap_cons, map_append, later, here, stripReasoningFormatNone_eq]
    simp [reasonableSegments, segmentPairs]

theorem mergedPairs_map (segments : List Segment) :
    (mergedPairs isAlpha segments).map (Item.map Prod.fst) =
      (grammar isAlpha).rejoin (reasonableSegments isAlpha segments) := by
  rw [mergedPairs, ← Grammar.group_map, tokens_of_segments]
  exact Grammar.group_flatMap fits_of_reasonable

theorem survivingPairs_map (segments : List Segment) :
    (survivingPairs isAlpha segments).map (Item.map Prod.fst) =
      lastWins pairKey
        ((grammar isAlpha).rejoin (reasonableSegments isAlpha segments)) := by
  have sameKey : dedupKey = fun item => pairKey (item.map Prod.fst) := by
    funext item
    cases item with
    | flag head value => rfl
    | bare token => rfl
  rw [survivingPairs, sameKey, lastWins_map, mergedPairs_map]

theorem map_flatMap_tokens {Source Token : Type} (project : Source → Token)
    (items : List (Item Source)) :
    (items.flatMap Item.tokens).map project =
      (items.map (Item.map project)).flatMap Item.tokens := by
  induction items with
  | nil => rfl
  | cons item rest later =>
    rw [flatMap_cons, map_append, later, map_cons, flatMap_cons]
    cases item with
    | bare token => rfl
    | flag head value => cases value <;> rfl

theorem splitPairs_resolveArgv {resolved : ResolvedArgv}
    (returns : resolveArgv isAlpha segments = .ok resolved) :
    splitPairs isAlpha resolved.argv =
      (grammar isAlpha).rejoin (lastWins pairKey
        ((grammar isAlpha).rejoin (reasonableSegments isAlpha segments))) := by
  obtain ⟨-, rfl⟩ := screened_of_resolve returns
  rw [map_flatMap_tokens, survivingPairs_map]
  apply Grammar.group_flatMap
  intro pair survives
  have merged := (lastWins_sublist pairKey _).mem survives
  rw [← Grammar.group_flatMap fits_of_reasonable] at merged
  exact Grammar.fits_of_mem_group merged

/--
The launched line never sets `--reasoning-format` to `none`, and has every
other pair of the segments which wins its key.
-/
structure Launched (isAlpha : Char → Bool) (segments : List Segment)
    (resolved : ResolvedArgv) : Prop where
  stripped : ∀ pair ∈ splitPairs isAlpha resolved.argv,
    setsReasoningNone pair = false
  others : (winningPairs isAlpha segments).Sublist
    (splitPairs isAlpha resolved.argv)

/-- The pair is stripped, or superseded by one which is not. -/
def Gone (pair : Item String) (later : List (Item String)) : Prop :=
  (!setsReasoningNone pair) = false ∨
    Superseded pairKey pair (later.filter fun other =>
      !setsReasoningNone other)

/--
Between a flag without a value and a bare argument after it stands a pair
which the strip leaves, and one which also wins its key, unless the flag loses
its own.
-/
def LaunchedApart (isAlpha : Char → Bool) (segments : List Segment) : Prop :=
  ∀ before head middle token after,
    segmentPairs isAlpha segments =
      before ++ .flag head none :: (middle ++ .bare token :: after) →
    takesValue head = true →
    (∃ pair ∈ middle, setsReasoningNone pair = false) ∧
      (Gone (.flag head none) (middle ++ .bare token :: after) ∨
        Stays Gone middle (.bare token :: after))

theorem settled_reasonable_iff (segments : List Segment) :
    ((grammar isAlpha).Settled (reasonableSegments isAlpha segments) ∧
        (grammar isAlpha).Settled (winningPairs isAlpha segments)) ↔
      LaunchedApart isAlpha segments := by
  have notGone : ∀ token after, ¬ Gone (.bare token) after := by
    rintro token after (stripped | superseded)
    · cases stripped
    · exact not_superseded_bare rfl _ superseded
  have left : ∀ head, takesValue head = true →
      (!setsReasoningNone (.flag head none)) = true := by
    intro head takes
    simp [setsReasoningNone_alone takes]
  rw [winningPairs, reasonableSegments, lastWins_filter_eq_sieve,
    Grammar.settled_sieve_iff, filter_eq_sieve, Grammar.settled_sieve_iff]
  constructor
  · rintro ⟨joined, settled⟩ before head middle token after same takes
    constructor
    · rcases joined before head middle token after same takes with
        stripped | stays | stripped
      · simp [left head takes] at stripped
      · simpa using stays_filter.mp stays
      · cases stripped
    · rcases settled before head middle token after same takes with
        gone | stays | gone
      · exact .inl gone
      · exact .inr stays
      · exact absurd gone (notGone token after)
  · intro apart
    constructor
    · intro before head middle token after same takes
      apply Or.inr
      apply Or.inl
      apply stays_filter.mpr
      simpa using (apart before head middle token after same takes).1
    · intro before head middle token after same takes
      rcases (apart before head middle token after same takes).2 with
        gone | stays
      · exact .inl gone
      · exact .inr (.inl stays)

/-- The launches which return. -/
theorem launched_iff {resolved : ResolvedArgv}
    (returns : resolveArgv isAlpha segments = .ok resolved) :
    Launched isAlpha segments resolved ↔ LaunchedApart isAlpha segments := by
  have read := splitPairs_resolveArgv returns
  have keyless : ∀ token, pairKey (.bare token) = none := fun _ => rfl
  rw [← settled_reasonable_iff]
  constructor
  · intro launched
    have all : (reasonableSegments isAlpha segments).countP Item.isBare ≤
        (splitPairs isAlpha resolved.argv).countP Item.isBare := by
      rw [← countP_lastWins keyless (reasonableSegments isAlpha segments)]
      exact launched.others.countP_le
    rw [read] at all
    have joined : (grammar isAlpha).Settled
        (reasonableSegments isAlpha segments) := by
      apply Grammar.settled_of_countP
      apply all.trans
      apply (Grammar.countP_rejoin_le _).trans
      exact (countP_lastWins keyless _).le
    refine ⟨joined, ?_⟩
    rw [Grammar.rejoin_of_settled joined] at all
    apply Grammar.settled_of_countP
    exact (countP_lastWins keyless _).trans_le all
  · rintro ⟨joined, settled⟩
    rw [Grammar.rejoin_of_settled joined] at read
    have same : splitPairs isAlpha resolved.argv =
        winningPairs isAlpha segments :=
      read.trans (Grammar.rejoin_of_settled settled)
    constructor
    · rw [same]
      intro pair listed
      have kept := (lastWins_sublist pairKey _).mem listed
      simpa using (mem_filter.mp kept).2
    · rw [same]

/--
The launched line is as promised exactly when the pairs of the segments stay
apart, and the strip is idempotent exactly when it makes no setting.
-/
theorem reasoning_none_not_launched_iff {segments : List Segment}
    {resolved : ResolvedArgv}
    (returns : resolveArgv isAlpha segments = .ok resolved)
    (tokens : List String) :
    (Launched isAlpha segments resolved ↔ LaunchedApart isAlpha segments) ∧
      (stripReasoningFormatNone isAlpha
          (stripReasoningFormatNone isAlpha tokens) =
        stripReasoningFormatNone isAlpha tokens ↔
          NoneApart isAlpha tokens) :=
  ⟨launched_iff returns, strip_strip_iff tokens⟩

/-- A line and its slot's setting of the reasoning format. -/
def reasoningSegments : List Segment :=
  [("base", ["-m", "m.gguf"]),
    ("slot", ["--reasoning-format", "none", "--jinja"])]

/-- A launch which asks for no format. -/
theorem launch_without_reasoning_none :
    ∃ resolved, resolveArgv Char.isAlpha reasoningSegments = .ok resolved ∧
      Launched Char.isAlpha reasoningSegments resolved ∧
      stripReasoningFormatNone Char.isAlpha
          (stripReasoningFormatNone Char.isAlpha
            ["--reasoning-format", "none", "--jinja"]) =
        stripReasoningFormatNone Char.isAlpha
          ["--reasoning-format", "none", "--jinja"] := by
  have returns : resolveArgv Char.isAlpha reasoningSegments =
      .ok ⟨["-m", "m.gguf", "--jinja"], [⟨"-m", some "m.gguf", "base"⟩,
        ⟨"--jinja", none, "slot"⟩], 0⟩ := by
    decide +kernel
  obtain ⟨launched, strips⟩ := reasoning_none_not_launched_iff returns
    ["--reasoning-format", "none", "--jinja"]
  refine ⟨_, returns, launched.mpr ?_, strips.mpr ?_⟩
  -- No argument is bare in either line.
  · have pairs : segmentPairs Char.isAlpha reasoningSegments =
        [.flag "-m" (some "m.gguf"),
          .flag "--reasoning-format" (some "none"), .flag "--jinja" none] := by
      decide +kernel
    intro before head middle token after whole
    rw [pairs] at whole
    have isBare : Item.bare token ∈ before ++ .flag head none ::
        (middle ++ .bare token :: after) := by simp
    simp [← whole] at isBare
  · have pairs : splitPairs Char.isAlpha
        ["--reasoning-format", "none", "--jinja"] =
          [.flag "--reasoning-format" (some "none"), .flag "--jinja" none] := by
      decide +kernel
    intro before head middle token after whole
    rw [pairs] at whole
    have isBare : Item.bare token ∈ before ++ .flag head none ::
        (middle ++ .bare token :: after) := by simp
    simp [← whole] at isBare

/-- A stripped setting joins the flag before it with the `none` after it. -/
theorem reasoning_none_launched :
    ∃ resolved, resolveArgv Char.isAlpha [("slot",
        ["--reasoning-format", "--reasoning-format", "none", "none"])] =
          .ok resolved ∧
      ¬ Launched Char.isAlpha [("slot",
        ["--reasoning-format", "--reasoning-format", "none", "none"])]
          resolved ∧
      stripReasoningFormatNone Char.isAlpha (stripReasoningFormatNone
          Char.isAlpha
          ["--reasoning-format", "--reasoning-format", "none", "none"]) ≠
        stripReasoningFormatNone Char.isAlpha
          ["--reasoning-format", "--reasoning-format", "none", "none"] := by
  refine ⟨⟨["--reasoning-format", "none"],
    [⟨"--reasoning-format", some "none", "slot"⟩], 0⟩, ?_, ?_, ?_⟩
  · decide +kernel
  · intro launched
    have stripped := launched.stripped
    revert stripped
    decide +kernel
  · decide +kernel

end Hal0.Slots.Argv
