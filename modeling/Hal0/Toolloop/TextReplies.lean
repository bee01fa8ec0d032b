import Hal0.Toolloop.TextOnce

/-!
# What a reply is read as

Of any text: the calls which are returned name known tools and are read from
stretches of their own, which lie apart unless a match crosses one which was
taken before it.

Of prose with well-formed calls in it: each call is returned once, and what is
left is the prose, unless a wrapper holds several function tags, of which only
the first is read.

A text which nests too deep for `json.loads` makes the scan raise.
-/

namespace Hal0.Toolloop

open List
open Hal0.Scan
open Hal0.Slots.ConfigFiles (isSpace)

/-! ## Any text -/

/-- The calls with their ids, as they are returned. -/
def numbered (calls : List Found) : List ToolCall :=
  calls.mapIdx fun position call =>
    { id := .str (textId position call.name)
      name := .str call.name
      arguments := call.arguments }

/-- What is found in a text, and what is cut out of it. -/
structure Extracted (runtime : Runtime) (alphabet : Alphabet) (text : Text)
    (taken : Taken) : Prop where
  known : ∀ call ∈ taken.calls, call.name ∈ runtime.knownToolNames
  read : ∀ call ∈ taken.calls, ∃ candidate ∈
    candidates runtime alphabet runtime.knownToolNames text,
      call ∈ candidate.calls
  inside : ∀ call ∈ taken.calls, ∃ span ∈ taken.spans,
    Inside call.region span
  inText : ∀ span ∈ taken.spans,
    span.start < span.stop ∧ span.stop ≤ text.length
  apart : taken.spans.Pairwise Span.Apart ↔ NoneReachesOver taken.spans
  own : NoneReachesOver taken.spans → taken.calls.Pairwise
    fun first second => first.region.Apart second.region
  cleaned : NoneReachesOver taken.spans →
    cut text taken.spans = Scan.outside taken.spans 0 text

section
variable (runtime : Runtime) (alphabet : Alphabet)

theorem found_extracted (text : Text) :
    Extracted runtime alphabet text
      (found runtime alphabet runtime.knownToolNames text) := by
  obtain ⟨accepted, accounts⟩ :=
    found_accounts runtime alphabet runtime.knownToolNames text
  have calls := accounts.call_spec
  refine ⟨fun call isCall => (calls call isCall).1,
    fun call isCall => (calls call isCall).2.1,
    fun call isCall => (calls call isCall).2.2, ?_, accounts.apart_iff,
    fun none_ => accounts.regions_apart (accounts.apart_iff.mpr none_),
    fun none_ => accounts.cut_eq (accounts.apart_iff.mpr none_)⟩
  intro span isSpan
  rw [accounts.spans] at isSpan
  obtain ⟨candidate, isIn, rfl⟩ := mem_map.mp isSpan
  have proper := accounts.proper candidate isIn
  exact ⟨proper.nonempty, proper.inText⟩

theorem found_nothing {text : Text}
    (nothing : text = [] ∨ runtime.knownToolNames = []) :
    (found runtime alphabet runtime.knownToolNames text).calls = [] := by
  have extracted := found_extracted runtime alphabet text
  apply eq_nil_iff_forall_not_mem.mpr
  intro call isCall
  rcases nothing with rfl | noTools
  · obtain ⟨span, isSpan, _⟩ := extracted.inside call isCall
    have bounds := extracted.inText span isSpan
    rw [length_nil] at bounds
    omega
  · have isKnown := extracted.known call isCall
    rw [noTools] at isKnown
    cases isKnown

/-- Reading the calls of the text raises a `RecursionError`. -/
def parseRaises (text : String) : Bool :=
  text ≠ "" && !runtime.knownToolNames.isEmpty &&
    scanRaises runtime alphabet runtime.knownToolNames text.toList

theorem parse_found (text : String) :
    let taken := found runtime alphabet runtime.knownToolNames text.toList
    parseTextToolCalls (runtime.withDialects alphabet) text =
      if parseRaises runtime alphabet text then none
      else if taken.calls.isEmpty then some ([], text)
      else some (numbered taken.calls,
        String.ofList (trim (cut text.toList taken.spans))) := by
  intro taken
  rw [parseTextToolCalls]
  split
  · rename_i nothing
    have noRaise : parseRaises runtime alphabet text = false := by
      rw [parseRaises, Bool.and_eq_false_iff]
      left
      rw [Bool.or_eq_true, decide_eq_true_eq] at nothing
      rcases nothing with rfl | noTools
      · rfl
      · have known : runtime.knownToolNames.isEmpty = true := noTools
        rw [known]
        simp
    have noCalls : taken.calls = [] := by
      apply found_nothing
      rw [Bool.or_eq_true, decide_eq_true_eq, List.isEmpty_iff] at nothing
      rcases nothing with rfl | noTools
      · exact Or.inl rfl
      · exact Or.inr noTools
    rw [noRaise, noCalls]
    rfl
  · rename_i something
    have raises : parseRaises runtime alphabet text =
        scanRaises runtime alphabet runtime.knownToolNames text.toList := by
      have present : (decide (text ≠ "") &&
          !runtime.knownToolNames.isEmpty) = true := by
        simpa [Runtime.withDialects] using something
      rw [parseRaises, present, Bool.true_and]
    have same : (runtime.withDialects alphabet).scan text =
        scanText runtime alphabet text := rfl
    rw [raises, same, scanText]
    split
    · rfl
    · have isEmpty : (taken.calls.map fun call =>
          (call.name, call.arguments)).isEmpty = taken.calls.isEmpty :=
        isEmpty_map
      have calls : ((taken.calls.map fun call =>
          (call.name, call.arguments)).mapIdx fun position call =>
            ({ id := .str (textId position call.1)
               name := .str call.1
               arguments := call.2 } : ToolCall)) = numbered taken.calls := by
        apply ext_getElem?
        intro position
        rw [numbered, getElem?_mapIdx, getElem?_mapIdx, getElem?_map,
          Option.map_map]
        rfl
      rw [Option.map_some]
      dsimp only
      rw [isEmpty, calls]
      split
      · rfl
      · rfl

theorem numbered_calls (calls : List Found) :
    (numbered calls).map (fun call => (call.name, call.arguments)) =
      calls.map fun found => (Json.str found.name, found.arguments) := by
  apply ext_getElem?
  intro position
  rw [numbered, getElem?_map, getElem?_mapIdx, getElem?_map, Option.map_map]
  rfl

/--
The calls of a text run once: they name known tools, and each is read from a
region of its own inside one of the stretches which are cut out; these lie
apart, and what is outside is left, trimmed.
-/
structure RunsOnce (text : String) (taken : Taken) : Prop where
  returned : parseTextToolCalls (runtime.withDialects alphabet) text =
    some (numbered taken.calls,
      String.ofList (trim (Scan.outside taken.spans 0 text.toList)))
  known : ∀ call ∈ taken.calls, call.name ∈ runtime.knownToolNames
  inside : ∀ call ∈ taken.calls, ∃ span ∈ taken.spans,
    Inside call.region span
  own : taken.calls.Pairwise fun first second =>
    first.region.Apart second.region
  apart : taken.spans.Pairwise Span.Apart

/--
No text which is read nests too deep, no match crosses a stretch, and a text
in which no match names a tool is trimmed.
-/
structure Orderly (text : String) : Prop where
  shallow : parseRaises runtime alphabet text = false
  uncrossed : NeverCrosses runtime alphabet runtime.knownToolNames text.toList
  trimmed : (∀ candidate ∈
      candidates runtime alphabet runtime.knownToolNames text.toList,
        Nameless runtime.knownToolNames candidate) →
    String.ofList (trim text.toList) = text

theorem runsOnce_iff (text : String) :
    RunsOnce runtime alphabet text
        (found runtime alphabet runtime.knownToolNames text.toList) ↔
      Orderly runtime alphabet text := by
  have parsed := parse_found runtime alphabet text
  have extracted := found_extracted runtime alphabet text.toList
  have nameless : (found runtime alphabet runtime.knownToolNames
        text.toList).calls = [] ↔
      ∀ candidate ∈
          candidates runtime alphabet runtime.knownToolNames text.toList,
        Nameless runtime.knownToolNames candidate :=
    found_calls_eq_nil
  obtain ⟨accepted, accounts⟩ := found_accounts runtime alphabet
    runtime.knownToolNames text.toList
  dsimp only at parsed
  constructor
  · rintro ⟨returned, -, -, -, apart⟩
    have shallow : parseRaises runtime alphabet text = false := by
      rw [Bool.eq_false_iff]
      intro raises
      rw [parsed, if_pos raises] at returned
      cases returned
    refine ⟨shallow, found_noneReachesOver.mp (extracted.apart.mp apart), ?_⟩
    intro noNames
    have noCalls := nameless.mpr noNames
    rw [parsed, shallow, noCalls, accounts.spans_of_no_calls noCalls,
      outside_of_uncovered (by simp)] at returned
    exact (Prod.mk.inj (Option.some.inj returned)).2.symm
  · rintro ⟨shallow, uncrossed, trimmed⟩
    have none_ := found_noneReachesOver.mpr uncrossed
    refine ⟨?_, extracted.known, extracted.inside, extracted.own none_,
      extracted.apart.mpr none_⟩
    rw [parsed, shallow, if_neg Bool.false_ne_true]
    split
    · rename_i isEmpty
      have noCalls := List.isEmpty_iff.mp isEmpty
      rw [noCalls, accounts.spans_of_no_calls noCalls,
        outside_of_uncovered (by simp), trimmed (nameless.mp noCalls)]
      rfl
    · rw [extracted.cleaned none_]

/-! ## Prose with calls in it -/

/-- Prose with calls, or the JSON of one call. -/
inductive Written where
  | composed (reply : Composed)
  | bare (lead body trail : Text)

/-- The reply as it is written. -/
def Written.text : Written → Text
  | .composed reply => reply.render
  | .bare lead body trail => lead ++ (body ++ trail)

/-- The calls which are written. -/
def Written.calls (runtime : Runtime) : Written → List (String × Fields)
  | .composed reply =>
    reply.blocks.flatMap fun block => block.1.written runtime
  | .bare _ body _ => (jsonCall runtime body).toList

/-- The calls which are read. -/
def Written.read (runtime : Runtime) : Written → List (String × Fields)
  | .composed reply => reply.calls runtime
  | .bare _ body _ => (jsonCall runtime body).toList

/-- No wrapper holds several function tags. -/
def Written.OneTag : Written → Prop
  | .composed reply => ∀ block ∈ reply.blocks, block.1.oneTag = true
  | .bare _ _ _ => True

/-- The reply without its calls. -/
def Written.prose : Written → Text
  | .composed reply => reply.bare
  | .bare lead _ trail => lead ++ trail

/-- Prose alone is not itself the JSON of a call. -/
def Written.WellFormed (runtime : Runtime) (alphabet : Alphabet) :
    Written → Prop
  | .composed reply => reply.WellFormed runtime alphabet ∧
      (reply.blocks = [] → ∀ call,
        jsonCall runtime (trim reply.prose) = some call →
          call.1 ∉ runtime.knownToolNames)
  | .bare lead body trail => JsonBody runtime lead body trail ∧
      plain alphabet (lead ++ (body ++ trail))

theorem Block.calls_sublist (runtime : Runtime) (block : Block) :
    (block.calls runtime).Sublist (block.written runtime) := by
  cases block with
  | wrappedTags lead first others trail =>
    exact (nil_sublist _).cons_cons _
  | _ => exact Sublist.refl _

theorem Block.calls_eq_written (runtime : Runtime) {block : Block}
    (oneTag : block.oneTag = true) :
    block.calls runtime = block.written runtime := by
  cases block with
  | wrappedTags lead first others trail =>
    rw [Block.oneTag, List.isEmpty_iff] at oneTag
    rw [oneTag]
    rfl
  | _ => rfl

theorem Block.oneTag_of_length (runtime : Runtime) {block : Block}
    (length : (block.written runtime).length ≤
      (block.calls runtime).length) : block.oneTag = true := by
  cases block with
  | wrappedTags lead first others trail =>
    rw [Block.written, Block.calls, length_cons, length_singleton,
      length_map] at length
    rw [Block.oneTag, List.isEmpty_iff, ← length_eq_zero_iff]
    omega
  | _ => rfl

theorem calls_sublist_written (runtime : Runtime)
    (blocks : List (Block × Text)) :
    (blocks.flatMap fun block => block.1.calls runtime).Sublist
      (blocks.flatMap fun block => block.1.written runtime) := by
  induction blocks with
  | nil => exact Sublist.refl _
  | cons block blocks ih =>
    rw [flatMap_cons, flatMap_cons]
    exact (block.1.calls_sublist runtime).append ih

theorem oneTag_of_length (runtime : Runtime) {blocks : List (Block × Text)}
    (length : (blocks.flatMap fun block => block.1.written runtime).length ≤
      (blocks.flatMap fun block => block.1.calls runtime).length) :
    ∀ block ∈ blocks, block.1.oneTag = true := by
  induction blocks with
  | nil => nofun
  | cons block blocks ih =>
    have here := (block.1.calls_sublist runtime).length_le
    have there : (blocks.flatMap fun block => block.1.calls runtime).length ≤
        (blocks.flatMap fun block => block.1.written runtime).length :=
      (calls_sublist_written runtime blocks).length_le
    rw [flatMap_cons, flatMap_cons, length_append, length_append] at length
    exact forall_mem_cons.mpr
      ⟨block.1.oneTag_of_length runtime (by omega), ih (by omega)⟩

theorem Written.read_subset (runtime : Runtime) (written : Written) :
    ∀ call ∈ written.read runtime, call ∈ written.calls runtime := by
  intro call isCall
  cases written with
  | composed reply =>
    exact (calls_sublist_written runtime reply.blocks).subset isCall
  | bare lead body trail => exact isCall

theorem Written.read_eq_calls (runtime : Runtime) {written : Written}
    (oneTag : written.OneTag) :
    written.read runtime = written.calls runtime := by
  cases written with
  | composed reply =>
    exact flatMap_congr fun block isBlock =>
      Block.calls_eq_written runtime (oneTag block isBlock)
  | bare lead body trail => rfl

theorem Written.oneTag_of_length (runtime : Runtime) {written : Written}
    (length : (written.calls runtime).length ≤
      (written.read runtime).length) : written.OneTag := by
  cases written with
  | composed reply => exact Toolloop.oneTag_of_length runtime length
  | bare lead body trail => trivial

variable {body : Text}

theorem trim_blanks {lead trail : Text} (leadBlank : Blank lead)
    (trailBlank : Blank trail) (isBraced : Braced body) :
    trim (lead ++ (body ++ trail)) = body := by
  have inner := trim_self isBraced.begins isBraced.solid
  have front : (lead ++ (body ++ trail)).dropWhile isSpace =
      body ++ trail := by
    have skips := spaces_blank leadBlank (body ++ trail)
    obtain ⟨inside, rfl⟩ := isBraced
    exact skips.trans (spaces_cons (by decide) _)
  have back : (body ++ trail).reverse.dropWhile isSpace =
      body.reverse.dropWhile isSpace := by
    rw [reverse_append]
    apply spaces_blank
    intro char isIn
    exact trailBlank char (mem_reverse.mp isIn)
  have stays : body.dropWhile isSpace = body := spaces_begins isBraced.begins
  rw [trim, stays] at inner
  rw [trim, front, back, inner]

theorem index_blanks {lead : Text} (trail : Text) (leadBlank : Blank lead)
    (isBraced : Braced body) :
    index body (lead ++ (body ++ trail)) = lead.length := by
  induction lead with
  | nil =>
    have isPrefix : body.isPrefixOf (body ++ trail) :=
      List.isPrefixOf_iff_prefix.mpr (prefix_append body trail)
    have found : ∀ text : Text, text ≠ [] → body.isPrefixOf text →
        index body text = 0 := by
      intro text nonempty isFirst
      cases text with
      | nil => exact absurd rfl nonempty
      | cons char text => rw [index, if_pos isFirst]
    apply found _ _ isPrefix
    obtain ⟨inside, rfl⟩ := isBraced
    exact cons_ne_nil _ _
  | cons char lead ih =>
    have later := ih fun other isIn =>
      leadBlank other (mem_cons_of_mem char isIn)
    have notPrefix : ¬ body.isPrefixOf
        (char :: (lead ++ (body ++ trail))) := by
      intro isPrefix
      obtain ⟨inside, rfl⟩ := isBraced
      obtain ⟨rest, same⟩ := List.isPrefixOf_iff_prefix.mp isPrefix
      have first : '\x7b' = char := (List.cons.inj same).1
      have blank := leadBlank char mem_cons_self
      rw [← first] at blank
      cases blank
    rw [cons_append, index, if_neg notPrefix, later, length_cons]

theorem braced_ends (isBraced : Braced body) :
    body.head? = some '\x7b' ∧ body.getLast? = some '\x7d' := by
  obtain ⟨inside, rfl⟩ := isBraced
  refine ⟨rfl, ?_⟩
  rw [← cons_append, getLast?_append]
  rfl

variable {runtime alphabet}

theorem found_bare (decodes : Decodes runtime) {lead trail : Text}
    (isBody : JsonBody runtime lead body trail)
    (isPlain : plain alphabet (lead ++ (body ++ trail)))
    {call : String × Fields} (isCall : jsonCall runtime body = some call)
    (isKnown : call.1 ∈ runtime.knownToolNames) :
    found runtime alphabet runtime.knownToolNames
        (lead ++ (body ++ trail)) =
      ⟨[⟨call.1, call.2, ⟨lead.length, lead.length + body.length⟩⟩],
        [⟨lead.length, lead.length + body.length⟩]⟩ := by
  have trimmed := trim_blanks isBody.lead isBody.trail isBody.braced
  have begins := index_blanks trail isBody.lead isBody.braced
  have whole : wholeCandidate runtime (lead ++ (body ++ trail)) =
      ⟨⟨lead.length, lead.length + body.length⟩,
        [⟨call.1, call.2, ⟨lead.length, lead.length + body.length⟩⟩]⟩ := by
    rw [wholeCandidate, trimmed, begins,
      if_pos (braced_ends isBody.braced), isCall]
    rfl
  have recorded : ∀ region : Span, [(⟨call.1, call.2, region⟩ : Found)].filter
      (fun found => found.name ∈ runtime.knownToolNames) =
        [⟨call.1, call.2, region⟩] :=
    fun _ => filter_cons_of_pos (decide_eq_true isKnown)
  rw [found_prose decodes isPlain, whole, take, recorded]
  rfl

theorem cut_bare (lead body trail : Text) :
    cut (lead ++ (body ++ trail))
        [⟨lead.length, lead.length + body.length⟩] = lead ++ trail := by
  have single : cut (lead ++ (body ++ trail))
      [⟨lead.length, lead.length + body.length⟩] =
        cutSpan (lead ++ (body ++ trail))
          ⟨lead.length, lead.length + body.length⟩ := by
    rw [cut, mergeSort_singleton]
    rfl
  rw [single, cutSpan]
  dsimp only
  rw [take_left, ← drop_drop, drop_left, drop_left]

theorem found_no_call (decodes : Decodes runtime) {text : Text}
    (isPlain : plain alphabet text)
    (noCall : ∀ call, jsonCall runtime (trim text) = some call →
      call.1 ∉ runtime.knownToolNames) :
    found runtime alphabet runtime.knownToolNames text = ⟨[], []⟩ := by
  have nothing : (wholeCandidate runtime text).calls.filter
      (fun found => found.name ∈ runtime.knownToolNames) = [] := by
    apply filter_eq_nil_iff.mpr
    intro found isFound isKnown
    obtain ⟨call, isCall, rfl⟩ := mem_map.mp isFound
    split at isCall
    · exact noCall call (Option.mem_toList.mp isCall)
        (of_decide_eq_true isKnown)
    · cases isCall
  rw [found_prose decodes isPlain, take, nothing]
  rfl

theorem found_written (decodes : Decodes runtime) {written : Written}
    (wellFormed : written.WellFormed runtime alphabet)
    (areKnown : ∀ call ∈ written.read runtime,
      call.1 ∈ runtime.knownToolNames) :
    let taken := found runtime alphabet runtime.knownToolNames written.text
    (taken.calls.map fun found => (found.name, found.arguments)).Perm
        (written.read runtime) ∧
      (written.read runtime ≠ [] →
        cut written.text taken.spans = written.prose) := by
  intro taken
  cases written with
  | composed reply =>
    obtain ⟨isWell, noCall⟩ := wellFormed
    by_cases isEmpty : reply.calls runtime = []
    · have noBlocks : reply.blocks = [] := by
        apply eq_nil_iff_forall_not_mem.mpr
        intro block isBlock
        exact Block.calls_ne_nil (isWell.blocks block isBlock).1
          (flatMap_eq_nil_iff.mp isEmpty block isBlock)
      have shape : reply.render = reply.prose := by
        rw [Composed.render, noBlocks]
        exact append_nil _
      have nothing : taken = ⟨[], []⟩ := by
        have prose := found_no_call decodes isWell.prose (noCall noBlocks)
        rw [← shape] at prose
        exact prose
      rw [nothing, Written.read, isEmpty]
      exact ⟨List.Perm.refl _, fun nonempty => absurd rfl nonempty⟩
    · have all : taken = takenOf runtime reply.places kinds :=
        found_composed decodes isWell areKnown isEmpty
      rw [all]
      exact ⟨reply.calls_perm runtime, fun _ => cut_composed runtime reply⟩
  | bare lead body trail =>
    obtain ⟨isBody, isPlain⟩ := wellFormed
    obtain ⟨call, isCall⟩ := Option.isSome_iff_exists.mp isBody.call
    have one : (Written.bare lead body trail).read runtime = [call] := by
      rw [Written.read, isCall]
      rfl
    have isKnown := areKnown call (one ▸ mem_singleton_self call)
    have whole : taken = _ := found_bare decodes isBody isPlain isCall isKnown
    rw [whole, one]
    exact ⟨List.Perm.refl _, fun _ => cut_bare lead body trail⟩

/-- The calls which are read are returned, and the prose is left. -/
theorem parse_written (decodes : Decodes runtime) {written : Written}
    (wellFormed : written.WellFormed runtime alphabet)
    (areKnown : ∀ call ∈ written.read runtime,
      call.1 ∈ runtime.knownToolNames)
    (shallow : parseRaises runtime alphabet (String.ofList written.text) =
      false) :
    ∃ result, parseTextToolCalls (runtime.withDialects alphabet)
        (String.ofList written.text) = some result ∧
      (result.1.map fun call => (call.name, call.arguments)).Perm
          ((written.read runtime).map fun call =>
            (Json.str call.1, call.2)) ∧
        result.2 =
          if (written.read runtime).isEmpty then String.ofList written.text
          else String.ofList (trim written.prose) := by
  obtain ⟨isPerm, isCut⟩ := found_written decodes wellFormed areKnown
  have parsed := parse_found runtime alphabet (String.ofList written.text)
  dsimp only at parsed isPerm isCut ⊢
  rw [String.toList_ofList, shallow, if_neg Bool.false_ne_true] at parsed
  by_cases noCalls : written.read runtime = []
  · rw [noCalls] at isPerm ⊢
    have nothing := map_eq_nil_iff.mp isPerm.eq_nil
    rw [nothing] at parsed
    exact ⟨_, parsed, List.Perm.refl _, rfl⟩
  · have some_ : (found runtime alphabet runtime.knownToolNames
        written.text).calls.isEmpty = false := by
      rw [isEmpty_eq_false_iff]
      intro isEmpty
      rw [isEmpty] at isPerm
      exact noCalls isPerm.nil_eq.symm
    have holds : (written.read runtime).isEmpty = false :=
      isEmpty_eq_false_iff.mpr noCalls
    rw [some_, if_neg Bool.false_ne_true] at parsed
    rw [holds, ← isCut noCalls]
    refine ⟨_, parsed, ?_, rfl⟩
    have numbers := numbered_calls
      (found runtime alphabet runtime.knownToolNames written.text).calls
    have named := isPerm.map fun call => (Json.str call.1, call.2)
    rw [map_map] at named
    exact numbers ▸ named

/-- Every call which is written is returned once, and the prose is left. -/
def Recovered (runtime : Runtime) (alphabet : Alphabet) (written : Written) :
    Prop :=
  ∃ result, parseTextToolCalls (runtime.withDialects alphabet)
      (String.ofList written.text) = some result ∧
    (result.1.map fun call => (call.name, call.arguments)).Perm
        ((written.calls runtime).map fun call =>
          (Json.str call.1, call.2)) ∧
      result.2 =
        if (written.calls runtime).isEmpty then String.ofList written.text
        else String.ofList (trim written.prose)

theorem recovered_iff (decodes : Decodes runtime) {written : Written}
    (wellFormed : written.WellFormed runtime alphabet)
    (areKnown : ∀ call ∈ written.calls runtime,
      call.1 ∈ runtime.knownToolNames) :
    Recovered runtime alphabet written ↔
      parseRaises runtime alphabet (String.ofList written.text) = false ∧
        written.OneTag := by
  have readKnown : ∀ call ∈ written.read runtime,
      call.1 ∈ runtime.knownToolNames := fun call isCall =>
    areKnown call (written.read_subset runtime call isCall)
  constructor
  · rintro ⟨result, parsed, isPerm, -⟩
    have shallow : parseRaises runtime alphabet
        (String.ofList written.text) = false := by
      rw [Bool.eq_false_iff]
      intro raises
      have raised := parse_found runtime alphabet (String.ofList written.text)
      dsimp only at raised
      rw [if_pos raises, parsed] at raised
      cases raised
    obtain ⟨read, readParsed, readPerm, -⟩ :=
      parse_written decodes wellFormed readKnown shallow
    rw [parsed] at readParsed
    cases readParsed
    have lengths := (isPerm.symm.trans readPerm).length_eq
    rw [length_map, length_map] at lengths
    exact ⟨shallow, Written.oneTag_of_length runtime lengths.le⟩
  · rintro ⟨shallow, oneTag⟩
    have read := parse_written decodes wellFormed readKnown shallow
    rw [Written.read_eq_calls runtime oneTag] at read
    exact read

end

/-! ## Replies with two tools -/

/--
Two tools, and the JSON which is passed to them; `[[]]` stands for a text
which nests too deep.
-/
def twoTools : Runtime where
  loads raw :=
    if raw = "\x7b\x7d" then .value (.obj [])
    else if raw = quotingJson then
      .value (.obj [("x", .str "<tool_call><function=b></function></tool_call>")])
    else if raw = "[[]]" then .tooDeep
    else .invalid
  dumps _ := ""
  str _ := ""
  knownToolNames := ["a", "b"]
  scan _ := some ([], "")
where
  quotingJson :=
    "\x7b\"x\":\"<tool_call><function=b></function></tool_call>\"\x7d"

/-- Words of ASCII letters. -/
def asciiWords : Alphabet where
  isWord char := char.isAlphanum || char = '_'
  blank := by decide

theorem twoTools_decodes : Decodes twoTools where
  empty := rfl
  noTag rest := by
    have differs : ∀ other : Text, other.head? ≠ some '<' →
        String.ofList ('<' :: rest) ≠ String.ofList other := by
      intro other begins same
      rw [← String.ofList_inj.mp same] at begins
      exact begins rfl
    have notEmpty := differs "\x7b\x7d".toList (by decide)
    have notQuoting := differs twoTools.quotingJson.toList (by decide)
    have notDeep := differs "[[]]".toList (by decide)
    rw [String.ofList_toList] at notEmpty notQuoting notDeep
    exact (if_neg notEmpty).trans ((if_neg notQuoting).trans (if_neg notDeep))

def quotingReply : String :=
  "hi <function=a>" ++ twoTools.quotingJson ++ "</function> bye"

def twoTags : Written :=
  .composed ⟨[], [(.wrappedTags [] ⟨"a".toList, [], none, []⟩
    [([], ⟨"b".toList, [], none, []⟩)] [], [])]⟩

/-- A reply in two dialects. -/
def exampleReply : Written :=
  .composed ⟨"hi ".toList,
    [(.functionTag ⟨"a".toList, [], some "\x7b\x7d".toList, []⟩,
        " and ".toList),
      (.wrappedElements [] ⟨"a".toList, [], [⟨"k".toList, "v".toList, []⟩]⟩
        [([], ⟨"b".toList, [], []⟩)] [], " bye".toList)]⟩

theorem exampleReply_wellFormed :
    exampleReply.WellFormed twoTools asciiWords := by
  have noArguments : ∀ raw, some "\x7b\x7d".toList = some raw →
      Braced raw ∧ ∃ fields,
        twoTools.loads (String.ofList raw) = .value (.obj fields) := by
    rintro raw ⟨⟩
    exact ⟨⟨[], rfl⟩, [], rfl⟩
  refine ⟨⟨by decide +kernel, ?_⟩, nofun⟩
  intro block isBlock
  rcases mem_cons.mp isBlock with rfl | isBlock
  · exact ⟨⟨⟨by decide +kernel, by decide +kernel, by decide +kernel,
      noArguments⟩, by decide +kernel⟩, by decide +kernel⟩
  · rw [mem_singleton.mp isBlock]
    refine ⟨⟨by decide +kernel, by decide +kernel, ?_⟩, by decide +kernel⟩
    intro element isElement
    rcases mem_cons.mp isElement with rfl | isElement
    · refine ⟨by decide +kernel, by decide +kernel, by decide +kernel, ?_⟩
      intro param isParam
      rw [mem_singleton.mp isParam]
      exact ⟨by decide +kernel, by decide +kernel, by decide +kernel⟩
    · rw [mem_singleton.mp isElement]
      exact ⟨by decide +kernel, by decide +kernel, by decide +kernel,
        nofun⟩

end Hal0.Toolloop
