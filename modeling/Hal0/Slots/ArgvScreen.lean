import Hal0.Slots.Argv

/-!
# What a profile can put on the command line

No pair which comes from a profile segment has a screened key, and no bare
argument does; every entry of the provenance names the last segment with its
key.  The flags with a screened key are the ones of the same call without the
profile, as long as the trusted segments do not leave a flag without its value
before a bare token: such a flag could take the token in one of the two
command lines and not in the other.
-/

namespace Hal0.Slots.Argv

open List
open Hal0.Options

/-- All keys which a profile may not set. -/
@[irreducible]
def screenedFlags : List String :=
  managedArgsDenylist ++ slotHardwareFlags ++ modelFactFlags ++
    derivedPlacementFlags ++ hostOwnedFlags

/-- The flag is on one of the lists. -/
def isScreened (token : String) : Bool := screenedFlags.contains (canon token)

variable {isAlpha : Char → Bool}

/-! ## What a screened segment contains -/

theorem deny_eq_ok {refusal : Refusal} {segment : String}
    {offenders : List String} :
    deny refusal segment offenders = .ok () ↔ offenders = [] := by
  unfold deny
  split
  · next none => simp [none]
  · next some => simp [some]

theorem bind_eq_ok {Value : Type} {first : Except BadRequest Unit}
    {second : Except BadRequest Value} {value : Value} :
    (do first; second) = .ok value ↔ first = .ok () ∧ second = .ok value := by
  cases first with
  | error error => simp [bind, Except.bind]
  | ok passed => simp [bind, Except.bind]

variable {tokens : List String}

theorem screenProfileSegment_eq_ok {label : String} :
    screenProfileSegment isAlpha tokens label = .ok () ↔
      offendingFlags isAlpha slotHardwareFlags tokens = [] ∧
      offendingFlags isAlpha managedArgsDenylist tokens = [] ∧
      offendingFlags isAlpha (modelFactFlags ++ derivedPlacementFlags)
        tokens = [] ∧
      offendingFlags isAlpha hostOwnedFlags tokens = [] ∧
      bareArguments isAlpha tokens = [] := by
  simp only [screenProfileSegment, bind_eq_ok, denySlotHardwareFlags,
    denyManagedFlags, denyProfileOwnedElsewhere, denyHostOwnedFlags,
    denyPositionalArgs, deny_eq_ok]

theorem not_mem_of_offendingFlags {denied : List String}
    (none : offendingFlags isAlpha denied tokens = []) {head : String}
    {value : Option String}
    (listed : Item.flag head value ∈ splitPairs isAlpha tokens) :
    canon head ∉ denied := by
  intro isDenied
  have nothing := filterMap_eq_nil_iff.mp none _ listed
  simp [isDenied] at nothing

theorem item_of_screened {label : String}
    (passed : screenProfileSegment isAlpha tokens label = .ok ())
    {item : Item String} (listed : item ∈ splitPairs isAlpha tokens) :
    item.isBare = false ∧ isScreened item.first = false := by
  obtain ⟨hardware, managed, facts, host, bare⟩ :=
    screenProfileSegment_eq_ok.mp passed
  cases item with
  | bare token =>
    have nothing := filterMap_eq_nil_iff.mp bare _ listed
    cases nothing
  | flag head value =>
    have notHardware := not_mem_of_offendingFlags hardware listed
    have notManaged := not_mem_of_offendingFlags managed listed
    have notFact := not_mem_of_offendingFlags facts listed
    have notHost := not_mem_of_offendingFlags host listed
    simp only [mem_append, not_or] at notFact
    refine ⟨rfl, ?_⟩
    simp [isScreened, screenedFlags, Item.first, notHardware, notManaged,
      notFact.1, notFact.2, notHost]

/-! ## Stripping keeps items -/

theorem withoutReasoningNone_eq {item : Item String}
    (fits : (grammar isAlpha).Fits item) :
    withoutReasoningNone item =
      if setsReasoningNone item then [] else item.tokens := by
  unfold withoutReasoningNone
  split
  · cases item with
    | bare token => rfl
    | flag head value =>
      dsimp only
      split
      · next joined =>
          cases value with
          | none => rfl
          | some token =>
            have takes := (fits.2 token rfl).1
            simp [grammar, takesValue, joined] at takes
      · rfl
  · rfl

theorem stripReasoningFormatNone_eq (tokens : List String) :
    stripReasoningFormatNone isAlpha tokens =
      ((splitPairs isAlpha tokens).filter fun item =>
        !setsReasoningNone item).flatMap Item.tokens := by
  unfold stripReasoningFormatNone
  have fits : ∀ item ∈ splitPairs isAlpha tokens,
      (grammar isAlpha).Fits item :=
    fun item listed => Grammar.fits_of_mem_group listed
  generalize splitPairs isAlpha tokens = items at fits
  induction items with
  | nil => rfl
  | cons item rest later =>
    have rest := later fun other listed =>
      fits other (mem_cons_of_mem _ listed)
    rw [flatMap_cons, rest,
      withoutReasoningNone_eq (fits item mem_cons_self), filter_cons]
    cases setsReasoningNone item <;> simp

theorem splitPairs_flatMap {items : List (Item String)}
    (fits : ∀ item ∈ items, (grammar isAlpha).Fits item)
    (notBare : ∀ item ∈ items, item.isBare = false) :
    splitPairs isAlpha (items.flatMap Item.tokens) = items := by
  induction items with
  | nil => rfl
  | cons item rest later =>
    have fitsRest : ∀ other ∈ rest, (grammar isAlpha).Fits other :=
      fun other listed => fits other (mem_cons_of_mem _ listed)
    have notBareRest : ∀ other ∈ rest, other.isBare = false :=
      fun other listed => notBare other (mem_cons_of_mem _ listed)
    have starts : (grammar isAlpha).StartsWithFlag
        (rest.flatMap Item.tokens) :=
      Grammar.startsWithFlag_of_items fitsRest fun other isFirst =>
        notBareRest other (mem_of_mem_head? isFirst)
    have itself : (grammar isAlpha).group item.tokens = [item] := by
      have itemFits := fits item mem_cons_self
      cases item with
      | bare token =>
        have isFlag := notBare (.bare token) mem_cons_self
        cases isFlag
      | flag head value =>
        cases value with
        | none => simp [Item.tokens, Grammar.group, itemFits.1]
        | some token =>
          obtain ⟨takes, isValue⟩ := itemFits.2 token rfl
          exact Grammar.group_cons_value [] itemFits.1 takes isValue
    rw [flatMap_cons, splitPairs, Grammar.group_append
      (starts.apart _), itself]
    exact congrArg (item :: ·) (later fitsRest notBareRest)

theorem item_of_stripped {label : String}
    (passed : screenProfileSegment isAlpha tokens label = .ok ())
    {item : Item String}
    (listed : item ∈ splitPairs isAlpha
      (stripReasoningFormatNone isAlpha tokens)) :
    item.isBare = false ∧ isScreened item.first = false := by
  rw [stripReasoningFormatNone_eq, splitPairs_flatMap] at listed
  · exact item_of_screened passed (mem_filter.mp listed).1
  · intro other isOther
    exact Grammar.fits_of_mem_group (mem_filter.mp isOther).1
  · intro other isOther
    exact (item_of_screened passed (mem_filter.mp isOther).1).1

/-! ## The profile in the merged line -/

/-- The grammar on tokens with their source. -/
def sourced (isAlpha : Char → Bool) : Grammar Sourced :=
  (grammar isAlpha).comap Prod.fst

/-- The tokens of all segments. -/
def mergedTokens (isAlpha : Char → Bool) (segments : List Segment) :
    List Sourced :=
  segments.flatMap (segmentTokens isAlpha)

/-- The segments that are screened. -/
def withoutProfile (segments : List Segment) : List Segment :=
  segments.filter fun segment => !isProfile segment.1

/-- Every profile segment has passed its screen. -/
def Screened (isAlpha : Char → Bool) (segments : List Segment) : Prop :=
  ∀ label tokens, (label, tokens) ∈ segments → isProfile label = true →
    screenProfileSegment isAlpha tokens label = .ok ()

variable {segments : List Segment}

/-- What passes the screen. -/
theorem screenSegments_eq_ok :
    screenSegments isAlpha segments = .ok () ↔
      Screened isAlpha segments := by
  induction segments with
  | nil => simp [screenSegments, Screened]
  | cons segment rest later =>
    obtain ⟨label, tokens⟩ := segment
    rw [screenSegments]
    cases isOperator : isProfile label with
    | true =>
      simp only [if_true, bind_eq_ok, later, Screened, mem_cons,
        Prod.mk.injEq]
      constructor
      · rintro ⟨passed, others⟩ other otherTokens
          (⟨rfl, rfl⟩ | listed) operator
        · exact passed
        · exact others other otherTokens listed operator
      · intro all
        exact ⟨all label tokens (.inl ⟨rfl, rfl⟩) isOperator,
          fun other otherTokens listed =>
            all other otherTokens (.inr listed)⟩
    | false =>
      simp only [Bool.false_eq_true, if_false, Screened, mem_cons,
        Prod.mk.injEq]
      constructor
      · rintro passed other otherTokens (⟨rfl, rfl⟩ | listed) operator
        · simp [isOperator] at operator
        · exact later.mp passed other otherTokens listed operator
      · intro all
        exact later.mpr fun other otherTokens listed =>
          all other otherTokens (.inr listed)

variable {segment : Segment}

theorem Screened.tail {rest : List Segment}
    (screened : Screened isAlpha (segment :: rest)) :
    Screened isAlpha rest :=
  fun label tokens listed =>
    screened label tokens (mem_cons_of_mem _ listed)

theorem group_segmentTokens (isAlpha : Char → Bool) (segment : Segment) :
    (sourced isAlpha).group (segmentTokens isAlpha segment) =
      (splitPairs isAlpha (stripReasoningFormatNone isAlpha
        segment.2)).map (Item.map (·, segment.1)) :=
  Grammar.group_map (sourced isAlpha) (·, segment.1) _

variable {item : Item Sourced}

theorem item_of_profile
    (passed : screenProfileSegment isAlpha segment.2 segment.1 = .ok ())
    (listed : item ∈ (sourced isAlpha).group
      (segmentTokens isAlpha segment)) :
    item.isBare = false ∧ isScreened item.first.1 = false := by
  rw [group_segmentTokens] at listed
  obtain ⟨plain, isPlain, rfl⟩ := mem_map.mp listed
  obtain ⟨notBare, unscreened⟩ := item_of_stripped passed isPlain
  refine ⟨?_, by simpa using unscreened⟩
  cases plain with
  | flag head value => rfl
  | bare token => exact notBare

theorem startsWithFlag_of_profile
    (passed : screenProfileSegment isAlpha segment.2 segment.1 = .ok ())
    (later : List Sourced) (nonempty : segmentTokens isAlpha segment ≠ []) :
    (sourced isAlpha).StartsWithFlag
      (segmentTokens isAlpha segment ++ later) := by
  intro token isFirst
  cases line : segmentTokens isAlpha segment with
  | nil => exact absurd line nonempty
  | cons head rest =>
    rw [line] at isFirst
    obtain rfl : head = token := by simpa using isFirst
    rcases (sourced isAlpha).group_cases head rest with
      ⟨isBare, read⟩ | ⟨_, _, _, isFlag, _⟩ | ⟨isFlag, _⟩
    · have listed : Item.bare head ∈ (sourced isAlpha).group
          (segmentTokens isAlpha segment) := by
        rw [line, read]
        exact mem_cons_self
      have notBare := (item_of_profile passed listed).1
      cases notBare
    · exact isFlag
    · exact isFlag

theorem label_of_mem_segmentTokens {token : Sourced}
    (listed : token ∈ segmentTokens isAlpha segment) :
    token.2 = segment.1 := by
  obtain ⟨_, _, rfl⟩ := mem_map.mp listed
  rfl

theorem label_of_bare {token : Sourced} :
    ∀ {before : List Sourced}, Screened isAlpha segments →
      (∀ other ∈ before, isProfile other.2 = false) →
      Item.bare token ∈ (sourced isAlpha).group
        (before ++ mergedTokens isAlpha segments) →
      isProfile token.2 = false := by
  induction segments with
  | nil =>
    intro before screened trusted listed
    have known := Grammar.first_mem_of_mem_group listed
    exact trusted token (by simpa [mergedTokens, Item.first] using known)
  | cons segment rest later =>
    intro before screened trusted listed
    have merged : mergedTokens isAlpha (segment :: rest) =
      segmentTokens isAlpha segment ++ mergedTokens isAlpha rest := rfl
    cases isOperator : isProfile segment.1 with
    | false =>
      rw [merged, ← append_assoc] at listed
      refine later screened.tail ?_ listed
      intro other known
      rcases mem_append.mp known with inBefore | here
      · exact trusted other inBefore
      · rw [label_of_mem_segmentTokens here]
        exact isOperator
    | true =>
      have passed := screened segment.1 segment.2 mem_cons_self
        isOperator
      by_cases empty : segmentTokens isAlpha segment = []
      · rw [merged, empty, nil_append] at listed
        exact later screened.tail trusted listed
      · rw [merged, Grammar.group_append
          ((startsWithFlag_of_profile passed _ empty).apart _)] at listed
        rcases mem_append.mp listed with inBefore | inRest
        · exact trusted token (Grammar.first_mem_of_mem_group inBefore)
        · have inLater := Grammar.bare_mem_group_append
            (fun item known => (item_of_profile passed known).1) inRest
          have nothing : ∀ other ∈ ([] : List Sourced),
              isProfile other.2 = false := by simp
          exact later screened.tail nothing (by simpa using inLater)

theorem screened_of_resolve {resolved : ResolvedArgv}
    (returns : resolveArgv isAlpha segments = .ok resolved) :
    Screened isAlpha segments ∧
      resolved = {
        argv := ((survivingPairs isAlpha segments).flatMap
          Item.tokens).map Prod.fst
        provenance := (survivingPairs isAlpha segments).filterMap
          provenanceOf
        removed := (mergedPairs isAlpha segments).length -
          (survivingPairs isAlpha segments).length } := by
  unfold resolveArgv at returns
  rw [bind_eq_ok, screenSegments_eq_ok] at returns
  exact ⟨returns.1, (Except.ok.inj returns.2).symm⟩

theorem mem_merged_of_surviving
    (survives : item ∈ survivingPairs isAlpha segments) :
    item ∈ mergedPairs isAlpha segments :=
  (lastWins_sublist _ _).subset survives

theorem profile_pair (screened : Screened isAlpha segments)
    (listed : item ∈ mergedPairs isAlpha segments)
    (operator : isProfile item.first.2 = true) :
    item.isBare = false ∧ isScreened item.first.1 = false := by
  have fits : (sourced isAlpha).Fits item := Grammar.fits_of_mem_group listed
  cases item with
  | bare token =>
    have nothing : ∀ other ∈ ([] : List Sourced),
        isProfile other.2 = false := by simp
    have trusted := label_of_bare screened nothing listed
    simp [Item.first, trusted] at operator
  | flag head value =>
    refine ⟨rfl, ?_⟩
    have known := Grammar.first_mem_of_mem_group listed
    obtain ⟨segment, isSegment, here⟩ := mem_flatMap.mp known
    have label := label_of_mem_segmentTokens here
    have passed := screened segment.1 segment.2 isSegment
      (label ▸ operator)
    have isFlag : (sourced isAlpha).isFlag head = true := fits.1
    obtain ⟨other, found⟩ := Grammar.exists_of_mem_line here isFlag
    exact (item_of_profile passed found).2

/-! ## The provenance -/

/--
The entry names a segment which has its flag, and no later segment has a flag
with the same key.
-/
def Supplied (isAlpha : Char → Bool) (segments : List Segment)
    (entry : FlagProvenance) : Prop :=
  ∃ before tokens after,
    segments = before ++ (entry.source, tokens) :: after ∧
    entry.flag ∈ stripReasoningFormatNone isAlpha tokens ∧
    ∀ later ∈ after, ∀ token ∈ stripReasoningFormatNone isAlpha later.2,
      isFlag isAlpha token = true → canon token ≠ canon entry.flag

theorem fits_of_merged (listed : item ∈ mergedPairs isAlpha segments) :
    (sourced isAlpha).Fits item :=
  Grammar.fits_of_mem_group listed

theorem dedupKey_of_single {head : Sourced} (value : Option Sourced)
    (single : canon head.1 ∉ appendFlags) :
    dedupKey (.flag head value) = some (canon head.1) := by
  simp only [dedupKey, single, if_false]

/-- A surviving flag is from a segment. -/
theorem supplied_of_surviving {head : Sourced} {value : Option Sourced}
    (survives : Item.flag head value ∈ survivingPairs isAlpha segments)
    (single : canon head.1 ∉ appendFlags) :
    Supplied isAlpha segments ⟨head.1, value.map Prod.fst, head.2⟩ := by
  have keyed := dedupKey_of_single value single
  obtain ⟨left, right, pairs, last⟩ :=
    split_of_mem_lastWins (by rw [keyed]; rfl) survives
  have tokens := (sourced isAlpha).flatMap_tokens_group
    (mergedTokens isAlpha segments)
  have read : (sourced isAlpha).group (mergedTokens isAlpha segments) =
    left ++ .flag head value :: right := pairs
  rw [read, flatMap_append, flatMap_cons] at tokens
  have whole : segments.flatMap (segmentTokens isAlpha) =
      left.flatMap Item.tokens ++ head ::
        (value.toList ++ right.flatMap Item.tokens) := tokens.symm
  obtain ⟨before, segment, after, inner, outer, rfl, here, remains⟩ :=
    Grammar.split_of_flatMap_eq whole
  have inSegment : head ∈ segmentTokens isAlpha segment := by
    rw [here]
    simp
  have label := label_of_mem_segmentTokens inSegment
  obtain ⟨plain, isPlain, rfl⟩ := mem_map.mp inSegment
  refine ⟨before, segment.2, after, rfl, isPlain, ?_⟩
  intro later isLater token isToken tokenIsFlag sameKey
  have known : (token, later.1) ∈ value.toList ++
      right.flatMap Item.tokens := by
    rw [remains]
    exact mem_append_right _ (mem_flatMap.mpr
      ⟨later, isLater, mem_map.mpr ⟨token, isToken, rfl⟩⟩)
  have isSourcedFlag : (sourced isAlpha).isFlag (token, later.1) = true :=
    tokenIsFlag
  rcases mem_append.mp known with isValue | inRight
  · have fits := fits_of_merged (mem_merged_of_surviving survives)
    have notFlag := (fits.2 (token, later.1) (by simpa using isValue)).2
    simp [isSourcedFlag] at notFlag
  · obtain ⟨item, isItem, inItem⟩ := mem_flatMap.mp inRight
    have fits : (sourced isAlpha).Fits item := fits_of_merged (by
      rw [pairs]
      simp [isItem])
    obtain ⟨otherValue, rfl⟩ := fits.eq_flag inItem isSourcedFlag
    apply last _ isItem
    simp only [dedupKey, sameKey]

theorem surviving_of_token (isSegment : segment ∈ segments) {token : String}
    (isToken : token ∈ stripReasoningFormatNone isAlpha segment.2)
    (tokenIsFlag : isFlag isAlpha token = true)
    (single : canon token ∉ appendFlags) :
    ∃ head value, Item.flag head value ∈ survivingPairs isAlpha segments ∧
      canon head.1 = canon token := by
  have known : (token, segment.1) ∈ mergedTokens isAlpha segments :=
    mem_flatMap.mpr
      ⟨segment, isSegment, mem_map.mpr ⟨token, isToken, rfl⟩⟩
  have isSourcedFlag : (sourced isAlpha).isFlag (token, segment.1) = true :=
    tokenIsFlag
  obtain ⟨value, pair⟩ := Grammar.exists_of_mem_line known isSourcedFlag
  obtain ⟨winner, wins, sameKey⟩ : ∃ winner ∈ survivingPairs isAlpha segments,
      dedupKey winner = dedupKey (.flag (token, segment.1) value) :=
    exists_mem_lastWins pair
  have keyed : dedupKey (.flag (token, segment.1) value) =
    some (canon token) := dedupKey_of_single value single
  rw [keyed] at sameKey
  cases winner with
  | bare other => cases sameKey
  | flag head other =>
    refine ⟨head, other, wins, ?_⟩
    simp only [dedupKey] at sameKey
    split at sameKey
    · cases sameKey
    · exact Option.some.inj sameKey

theorem mem_provenance {items : List (Item Sourced)}
    {entry : FlagProvenance} :
    entry ∈ items.filterMap provenanceOf ↔
      ∃ head value, Item.flag head value ∈ items ∧
        canon head.1 ∉ appendFlags ∧
        entry = ⟨head.1, value.map Prod.fst, head.2⟩ := by
  rw [mem_filterMap]
  constructor
  · rintro ⟨item, listed, isEntry⟩
    cases item with
    | bare token => cases isEntry
    | flag head value =>
      simp only [provenanceOf] at isEntry
      split at isEntry
      · cases isEntry
      · next single =>
          exact ⟨head, value, listed, single,
            (Option.some.inj isEntry).symm⟩
  · rintro ⟨head, value, listed, single, rfl⟩
    refine ⟨_, listed, ?_⟩
    simp only [provenanceOf, single, if_false]

/-! ## The screened flags, with and without the profile -/

/-- The tokens of the segments which are not of the profile. -/
def trustedTokens (isAlpha : Char → Bool) (segments : List Segment) :
    List Sourced :=
  mergedTokens isAlpha (withoutProfile segments)

/--
No flag of the other segments has its value on the other side of a profile
segment.
-/
def Unsplit (isAlpha : Char → Bool) (before : List Sourced)
    (segments : List Segment) : Prop :=
  ∀ earlier label tokens later,
    segments = earlier ++ (label, tokens) :: later →
    isProfile label = true → stripReasoningFormatNone isAlpha tokens ≠ [] →
      (sourced isAlpha).Apart (before ++ trustedTokens isAlpha earlier)
        (trustedTokens isAlpha later)

def screenedToken (token : Sourced) : Bool := isScreened token.1

def screenedPair (item : Item Sourced) : Bool := item.keptFlag screenedToken

/--
No flag with a screened key waits for its value before a bare argument of the
other segments.
-/
def Filled (isAlpha : Char → Bool) (segments : List Segment) : Prop :=
  (mergedPairs isAlpha (withoutProfile segments)).Pairwise fun left right =>
    (sourced isAlpha).Dangles left = true → screenedPair left = true →
      right.isBare = false

theorem withoutProfile_cons (segment : Segment) (rest : List Segment) :
    withoutProfile (segment :: rest) =
      if isProfile segment.1 then withoutProfile rest
      else segment :: withoutProfile rest := by
  cases operator : isProfile segment.1 <;>
    simp [withoutProfile, operator]

theorem Unsplit.tail {before : List Sourced} {rest : List Segment}
    (unsplit : Unsplit isAlpha before (segment :: rest)) :
    Unsplit isAlpha (before ++ trustedTokens isAlpha [segment]) rest := by
  intro earlier label tokens later isRest operator nonempty
  have apart := unsplit (segment :: earlier) label tokens later
    (by rw [isRest]; rfl) operator nonempty
  have joined : trustedTokens isAlpha (segment :: earlier) =
      trustedTokens isAlpha [segment] ++ trustedTokens isAlpha earlier := by
    simp only [trustedTokens, mergedTokens, withoutProfile,
      ← flatMap_append, ← filter_append]
    rfl
  rwa [joined, ← append_assoc] at apart

theorem Unsplit.of_append {before : List Sourced}
    (unsplit : Unsplit isAlpha before segments) :
    Unsplit isAlpha [] segments :=
  fun earlier label tokens later isSplit operator nonempty =>
    (unsplit earlier label tokens later isSplit operator
      nonempty).of_append before

theorem unkept_of_profile
    (passed : screenProfileSegment isAlpha segment.2 segment.1 = .ok ())
    (listed : item ∈ (sourced isAlpha).group
      (segmentTokens isAlpha segment)) :
    item.isBare = false ∧ item.keptFlag screenedToken = false := by
  obtain ⟨notBare, unscreened⟩ := item_of_profile passed listed
  refine ⟨notBare, ?_⟩
  cases item with
  | flag head value => exact unscreened
  | bare token => cases notBare

/--
A profile leaves the pairs with a screened key as they are without it, and
adds no bare argument.
-/
theorem filter_merged :
    ∀ {before : List Sourced}, Screened isAlpha segments →
      Unsplit isAlpha before segments →
      (((sourced isAlpha).group
          (before ++ mergedTokens isAlpha segments)).filter screenedPair =
        ((sourced isAlpha).group
          (before ++ trustedTokens isAlpha segments)).filter screenedPair) ∧
      List.Sublist
        (((sourced isAlpha).group
          (before ++ mergedTokens isAlpha segments)).filter fun item =>
            item.isBare || screenedPair item)
        (((sourced isAlpha).group
          (before ++ trustedTokens isAlpha segments)).filter fun item =>
            item.isBare || screenedPair item) := by
  induction segments with
  | nil => exact fun _ _ => ⟨rfl, List.Sublist.refl _⟩
  | cons segment rest later =>
    intro before screened unsplit
    have merged : mergedTokens isAlpha (segment :: rest) =
      segmentTokens isAlpha segment ++ mergedTokens isAlpha rest := rfl
    have restUnsplit := unsplit.tail
    cases isOperator : isProfile segment.1 with
    | false =>
      have trusted : trustedTokens isAlpha (segment :: rest) =
          segmentTokens isAlpha segment ++ trustedTokens isAlpha rest := by
        rw [trustedTokens, withoutProfile_cons, isOperator]
        rfl
      have single : trustedTokens isAlpha [segment] =
          segmentTokens isAlpha segment := by
        simp [trustedTokens, withoutProfile, isOperator, mergedTokens]
      rw [single] at restUnsplit
      rw [merged, trusted, ← append_assoc, ← append_assoc]
      exact later screened.tail restUnsplit
    | true =>
      have trusted : trustedTokens isAlpha (segment :: rest) =
          trustedTokens isAlpha rest := by
        rw [trustedTokens, withoutProfile_cons, isOperator]
        rfl
      have passed := screened segment.1 segment.2 mem_cons_self
        isOperator
      rw [merged, trusted]
      by_cases empty : segmentTokens isAlpha segment = []
      · have single : trustedTokens isAlpha [segment] = [] := by
          simp [trustedTokens, withoutProfile, isOperator, mergedTokens]
        rw [single, append_nil] at restUnsplit
        rw [empty, nil_append]
        exact later screened.tail restUnsplit
      · have nonempty : stripReasoningFormatNone isAlpha segment.2 ≠ [] :=
          fun none => empty (by rw [segmentTokens, none]; rfl)
        have apart := unsplit [] segment.1 segment.2 rest rfl isOperator
          nonempty
        have apart : (sourced isAlpha).Apart before
            (trustedTokens isAlpha rest) := by
          simpa [trustedTokens, withoutProfile, mergedTokens] using apart
        have starts := startsWithFlag_of_profile passed
          (mergedTokens isAlpha rest) empty
        have unkept : ∀ item ∈ (sourced isAlpha).group
            (segmentTokens isAlpha segment),
            item.isBare = false ∧ item.keptFlag screenedToken = false :=
          fun item listed => unkept_of_profile passed listed
        obtain ⟨same, fewer⟩ := Grammar.filter_group_append unkept
          (mergedTokens isAlpha rest)
        obtain ⟨sameRest, fewerRest⟩ :=
          later screened.tail restUnsplit.of_append
        rw [Grammar.group_append (starts.apart before),
          Grammar.group_append apart, filter_append,
          filter_append, filter_append, filter_append]
        exact ⟨congrArg _ (same.trans sameRest),
          List.Sublist.append (List.Sublist.refl _)
            (fewer.trans fewerRest)⟩

theorem screenedPair_eq_of_key {left right : Item Sourced}
    (keyed : (dedupKey left).isSome) (same : dedupKey left = dedupKey right) :
    screenedPair left = screenedPair right := by
  cases left with
  | bare token => cases keyed
  | flag head value =>
    simp only [dedupKey] at keyed same
    split at keyed
    · cases keyed
    · next single =>
        rw [if_neg single] at same
        cases right with
        | bare token => cases same
        | flag other otherValue =>
          simp only at same
          split at same
          · cases same
          · have sameKey := Option.some.inj same
            simp only [screenedPair, Item.keptFlag, screenedToken,
              isScreened, sameKey]

theorem filter_surviving (screened : Screened isAlpha segments)
    (unsplit : Unsplit isAlpha [] segments) :
    (survivingPairs isAlpha segments).filter screenedPair =
      (survivingPairs isAlpha (withoutProfile segments)).filter
        screenedPair := by
  have closed : ∀ left right : Item Sourced, (dedupKey left).isSome →
      dedupKey left = dedupKey right →
        screenedPair left = screenedPair right :=
    fun _ _ => screenedPair_eq_of_key
  have same := (filter_merged screened unsplit).1
  rw [survivingPairs, survivingPairs, filter_lastWins closed,
    filter_lastWins closed]
  exact congrArg _ same

theorem filled_of_sublist {kept pairs : List (Item Sourced)}
    (fewer : List.Sublist
      (kept.filter fun item => item.isBare || screenedPair item)
      (pairs.filter fun item => item.isBare || screenedPair item))
    (filled : pairs.Pairwise fun left right =>
      (sourced isAlpha).Dangles left = true → screenedPair left = true →
        right.isBare = false) :
    kept.Pairwise fun left right =>
      (sourced isAlpha).Dangles left = true → screenedPair left = true →
        right.isBare = false := by
  have chosen := (filled.sublist filter_sublist).sublist fewer
  refine (pairwise_filter.mp chosen).imp ?_
  intro left right apart dangles isScreenedLeft
  cases isBare : right.isBare with
  | false => rfl
  | true =>
    have notBare := apart (by simp [isScreenedLeft]) (by simp [isBare])
      dangles isScreenedLeft
    simp [isBare] at notBare

theorem filter_splitPairs {items : List (Item Sourced)}
    (fits : ∀ item ∈ items, (sourced isAlpha).Fits item)
    (filled : items.Pairwise fun left right =>
      (sourced isAlpha).Dangles left = true → screenedPair left = true →
        right.isBare = false) :
    (splitPairs isAlpha ((items.flatMap Item.tokens).map Prod.fst)).filter
        (Item.keptFlag isScreened) =
      (items.filter screenedPair).map (Item.map Prod.fst) := by
  have sameKept : (Item.keptFlag isScreened ∘ Item.map Prod.fst) =
      screenedPair := by
    funext item
    cases item <;> rfl
  have read := Grammar.filter_group_flatMap fits filled
  rw [splitPairs, Grammar.group_map, filter_map, sameKept]
  exact congrArg _ read

theorem filter_argv (screened : Screened isAlpha segments)
    (unsplit : Unsplit isAlpha [] segments)
    (filled : Filled isAlpha segments) :
    (splitPairs isAlpha (((survivingPairs isAlpha segments).flatMap
        Item.tokens).map Prod.fst)).filter (Item.keptFlag isScreened) =
      ((survivingPairs isAlpha (withoutProfile segments)).filter
        screenedPair).map (Item.map Prod.fst) := by
  have fits : ∀ item ∈ survivingPairs isAlpha segments,
      (sourced isAlpha).Fits item :=
    fun item survives => fits_of_merged (mem_merged_of_surviving survives)
  have fewer := (filter_merged screened unsplit).2
  have survivingFilled := filled_of_sublist
    (((lastWins_sublist dedupKey (mergedPairs isAlpha segments)).filter
      _).trans fewer) filled
  rw [filter_splitPairs fits survivingFilled,
    filter_surviving screened unsplit]

/-! ## What a call returns -/

/-- The entries of the provenance, for every key which is not repeatable. -/
structure ProvenanceNamed (isAlpha : Char → Bool) (segments : List Segment)
    (provenance : List FlagProvenance) : Prop where
  survives : ∀ entry, entry ∈ provenance ↔
    ∃ head value, Item.flag head value ∈ survivingPairs isAlpha segments ∧
      canon head.1 ∉ appendFlags ∧
      entry = ⟨head.1, value.map Prod.fst, head.2⟩
  supplied : ∀ entry ∈ provenance, Supplied isAlpha segments entry
  covers : ∀ segment ∈ segments,
    ∀ token ∈ stripReasoningFormatNone isAlpha segment.2,
      isFlag isAlpha token = true → canon token ∉ appendFlags →
        ∃ entry ∈ provenance, canon entry.flag = canon token

/-- Each flag names its segment. -/
theorem provenanceNamed (isAlpha : Char → Bool) (segments : List Segment) :
    ProvenanceNamed isAlpha segments
      ((survivingPairs isAlpha segments).filterMap provenanceOf) where
  survives := fun _ => mem_provenance
  supplied := by
    intro entry listed
    obtain ⟨head, value, survives, single, rfl⟩ := mem_provenance.mp listed
    exact supplied_of_surviving survives single
  covers := by
    intro segment isSegment token isToken tokenIsFlag single
    obtain ⟨head, value, survives, sameKey⟩ :=
      surviving_of_token isSegment isToken tokenIsFlag single
    have stillSingle : canon head.1 ∉ appendFlags := by rwa [sameKey]
    have listed := mem_provenance.mpr ⟨head, value, survives, stillSingle, rfl⟩
    exact ⟨⟨head.1, value.map Prod.fst, head.2⟩, listed, sameKey⟩

theorem withoutProfile_withoutProfile (segments : List Segment) :
    withoutProfile (withoutProfile segments) = withoutProfile segments := by
  simp [withoutProfile]

theorem trusted_of_mem_withoutProfile
    (listed : segment ∈ withoutProfile segments) :
    isProfile segment.1 = false := by
  simpa using (mem_filter.mp listed).2

theorem screened_withoutProfile (segments : List Segment) :
    Screened isAlpha (withoutProfile segments) := by
  intro label tokens listed operator
  have trusted := trusted_of_mem_withoutProfile listed
  simp [operator] at trusted

theorem unsplit_withoutProfile (segments : List Segment) :
    Unsplit isAlpha [] (withoutProfile segments) := by
  intro earlier label tokens later isSplit operator
  have listed : (label, tokens) ∈ withoutProfile segments := by
    rw [isSplit]
    simp
  have trusted := trusted_of_mem_withoutProfile listed
  simp [operator] at trusted

theorem resolveArgv_of_screened (screened : Screened isAlpha segments) :
    resolveArgv isAlpha segments = .ok {
      argv := ((survivingPairs isAlpha segments).flatMap
        Item.tokens).map Prod.fst
      provenance := (survivingPairs isAlpha segments).filterMap provenanceOf
      removed := (mergedPairs isAlpha segments).length -
        (survivingPairs isAlpha segments).length } := by
  unfold resolveArgv
  rw [bind_eq_ok]
  exact ⟨screenSegments_eq_ok.mpr screened, rfl⟩

/--
A call which returns has nothing of a profile but flags with unscreened keys,
and names the segment of every flag.  What it does with the screened keys is
what the call without the profile does, when no flag of the other segments
takes its value over a profile segment or waits for it before a bare argument.
-/
theorem screening_complete {segments : List Segment}
    {resolved : ResolvedArgv}
    (returns : resolveArgv isAlpha segments = .ok resolved) :
    resolved.argv = ((survivingPairs isAlpha segments).flatMap
        Item.tokens).map Prod.fst ∧
    (∀ item ∈ survivingPairs isAlpha segments,
      isProfile item.first.2 = true →
        item.isBare = false ∧ isScreened item.first.1 = false) ∧
    ProvenanceNamed isAlpha segments resolved.provenance ∧
    (Unsplit isAlpha [] segments → Filled isAlpha segments →
      ∃ others, resolveArgv isAlpha (withoutProfile segments) = .ok others ∧
        (splitPairs isAlpha resolved.argv).filter
            (Item.keptFlag isScreened) =
          (splitPairs isAlpha others.argv).filter
            (Item.keptFlag isScreened)) := by
  obtain ⟨screened, rfl⟩ := screened_of_resolve returns
  refine ⟨rfl, ?_, provenanceNamed isAlpha segments, ?_⟩
  · intro item survives operator
    exact profile_pair screened (mem_merged_of_surviving survives) operator
  · intro unsplit filled
    refine ⟨_, resolveArgv_of_screened (screened_withoutProfile segments), ?_⟩
    have othersFilled : Filled isAlpha (withoutProfile segments) := by
      rw [Filled, withoutProfile_withoutProfile]
      exact filled
    rw [filter_argv screened unsplit filled,
      filter_argv (screened_withoutProfile segments)
        (unsplit_withoutProfile segments) othersFilled,
      withoutProfile_withoutProfile]

/-- A launch without screened flags. -/
def launch : List Segment :=
  [("base", ["-m", "m.gguf"]), ("profile", ["--temp", "0"]),
    ("slot", ["--ctx_size=4096"])]

theorem unsplit_launch : Unsplit Char.isAlpha [] launch := by
  intro earlier label tokens later isSplit operator nonempty
  match earlier, isSplit with
  | [], isSplit => cases isSplit; exact absurd operator (by decide)
  | [_], isSplit =>
    cases isSplit
    apply Grammar.StartsWithFlag.apart
    intro token isFirst
    have isToken : (trustedTokens Char.isAlpha
        [("slot", ["--ctx_size=4096"])]).head? =
          some ("--ctx_size=4096", "slot") := by decide +kernel
    rw [isToken] at isFirst
    cases isFirst
    decide +kernel
  | [_, _], isSplit => cases isSplit; exact absurd operator (by decide)
  | _ :: _ :: _ :: _, isSplit => simp [launch] at isSplit

/-- A launch of three segments. -/
theorem launch_screened :
    ∃ resolved others, resolveArgv Char.isAlpha launch = .ok resolved ∧
      resolveArgv Char.isAlpha (withoutProfile launch) = .ok others ∧
      resolved.argv =
        ["-m", "m.gguf", "--temp", "0", "--ctx_size=4096"] ∧
      ProvenanceNamed Char.isAlpha launch resolved.provenance ∧
      (splitPairs Char.isAlpha resolved.argv).filter
          (Item.keptFlag isScreened) =
        (splitPairs Char.isAlpha others.argv).filter
          (Item.keptFlag isScreened) := by
  have passes : screenSegments Char.isAlpha launch = .ok () := by
    decide +kernel
  have returns := resolveArgv_of_screened (screenSegments_eq_ok.mp passes)
  obtain ⟨-, -, named, unaffected⟩ := screening_complete returns
  have filled : Filled Char.isAlpha launch := by
    unfold Filled
    decide +kernel
  obtain ⟨others, othersReturn, same⟩ := unaffected unsplit_launch filled
  exact ⟨_, others, returns, othersReturn, by decide +kernel, named, same⟩

/-- A flag which waits for its value takes it over the profile's place. -/
theorem waiting_flag_depends_on_profile :
    ∃ resolved others,
      resolveArgv Char.isAlpha [("base", ["--model"]),
        ("profile", ["--temp", "0"]), ("slot", ["x"])] = .ok resolved ∧
      resolveArgv Char.isAlpha (withoutProfile [("base", ["--model"]),
        ("profile", ["--temp", "0"]), ("slot", ["x"])]) = .ok others ∧
      (splitPairs Char.isAlpha resolved.argv).filter
          (Item.keptFlag isScreened) ≠
        (splitPairs Char.isAlpha others.argv).filter
          (Item.keptFlag isScreened) := by
  refine ⟨⟨["--model", "--temp", "0", "x"],
    [⟨"--model", none, "base"⟩, ⟨"--temp", some "0", "profile"⟩], 0⟩,
    ⟨["--model", "x"], [⟨"--model", some "x", "base"⟩], 0⟩, ?_, ?_, ?_⟩
  · decide +kernel
  · decide +kernel
  · decide +kernel

end Hal0.Slots.Argv
