import Hal0.Normalize.ChatBody

/-!
# Normalising is total on what it can join and unpack

The passes return just where the kwargs of the template are an object or say
nothing, the response format can be looked up, and each system content is a
text.  Where they return, once is enough.
-/

namespace Hal0.Normalize

open List
open Hal0.Toolloop (Json Fields Key get asFields)

/-! ## Dictionaries -/

theorem lookup_setKey (fields : Fields) (key : String) (value : Json) :
    (setKey fields key value).lookup key = some value := by
  have replaced : ∀ fields : Fields, (fields.lookup key).isSome →
      (fields.map fun field =>
        if field.1 = key then (key, value) else field).lookup key =
          some value := by
    intro fields isSet
    induction fields with
    | nil => cases isSet
    | cons field fields ih =>
      obtain ⟨name, old⟩ := field
      by_cases same : name = key
      · subst same
        simp
      · have differs : (key == name) = false :=
          beq_eq_false_iff_ne.mpr (Ne.symm same)
        rw [lookup_cons, differs] at isSet
        rw [map_cons, if_neg same, lookup_cons, differs]
        exact ih isSet
  have appended : ∀ fields : Fields, fields.lookup key = none →
      (fields ++ [(key, value)]).lookup key = some value := by
    intro fields notSet
    rw [lookup_append, notSet]
    simp
  rw [setKey]
  split
  · next isSet => exact replaced fields isSet
  · next notSet => exact appended fields (Option.not_isSome_iff_eq_none.mp notSet)

theorem kwarg_setKey (fields kwargs : Fields) :
    kwarg (setKey fields "chat_template_kwargs" (.obj kwargs)) =
      kwargs.lookup "enable_thinking" := by
  rw [kwarg]
  unfold Toolloop.get
  rw [lookup_setKey]
  rfl

/-! ## The policy -/

section
variable {defaultThinking : Option Bool} {grammarCollides : Bool}
  {body once : Fields}

theorem apply_of_untouched
    (untouched : explicitKwargSet body || typedThinking body) :
    applyThinkingPolicy defaultThinking grammarCollides body = some body := by
  rw [applyThinkingPolicy, if_pos untouched]

theorem apply_of_decides
    (decides : (explicitKwargSet body || typedThinking body) = false) :
    applyThinkingPolicy defaultThinking grammarCollides body =
      (wanted defaultThinking grammarCollides body).bind fun want =>
        match want with
        | none => some body
        | some want =>
          (steeredKwargs body want).map fun kwargs =>
            setKey (withoutBooleans body) "chat_template_kwargs"
              (.obj kwargs) := by
  rw [applyThinkingPolicy, decides]
  rfl

theorem kwarg_of_steered {want : Bool} {kwargs : Fields}
    (isSteered : steeredKwargs body want = some kwargs) :
    kwarg (setKey (withoutBooleans body) "chat_template_kwargs"
      (.obj kwargs)) = some (.bool want) := by
  obtain ⟨inner, _, rfl⟩ := Option.map_eq_some_iff.mp isSteered
  rw [kwarg_setKey, lookup_setKey]

/-- The body is left alone, or thinking is decided. -/
theorem apply_cases
    (isOnce : applyThinkingPolicy defaultThinking grammarCollides body =
      some once) :
    once = body ∨
      ((explicitKwargSet body || typedThinking body) = false ∧
        ∃ want, wanted defaultThinking grammarCollides body =
            some (some want) ∧
          kwarg once = some (.bool want)) := by
  cases decides : explicitKwargSet body || typedThinking body with
  | true =>
    rw [apply_of_untouched decides] at isOnce
    exact Or.inl (Option.some.inj isOnce).symm
  | false =>
    rw [apply_of_decides decides, Option.bind_eq_some_iff] at isOnce
    obtain ⟨want, isWanted, isOnce⟩ := isOnce
    cases want with
    | none => exact Or.inl (Option.some.inj isOnce).symm
    | some want =>
      obtain ⟨kwargs, isSteered, rfl⟩ := Option.map_eq_some_iff.mp isOnce
      exact Or.inr ⟨rfl, want, isWanted, kwarg_of_steered isSteered⟩

theorem apply_idempotent
    (isOnce : applyThinkingPolicy defaultThinking grammarCollides body =
      some once) :
    applyThinkingPolicy defaultThinking grammarCollides once = some once := by
  rcases apply_cases isOnce with rfl | ⟨_, want, _, isKwarg⟩
  · exact isOnce
  · apply apply_of_untouched
    rw [explicitKwargSet, isKwarg]
    rfl

theorem wanted_of_intent {choice : Bool}
    (isIntent : callerIntent body = some choice) :
    wanted defaultThinking grammarCollides body = some (some choice) := by
  rw [wanted, isIntent]
  rfl

/-- A caller's choice is kept. -/
theorem choice_kept
    (isOnce : applyThinkingPolicy defaultThinking grammarCollides body =
      some once) : ChoiceKept body once where
  template := by
    intro choice isChoice
    rcases apply_cases isOnce with rfl | ⟨decides, _⟩
    · exact isChoice
    · rw [explicitKwargSet, isChoice] at decides
      cases decides
  typed := by
    intro isTyped
    rcases apply_cases isOnce with rfl | ⟨decides, _⟩
    · rfl
    · rw [isTyped, Bool.or_true] at decides
      cases decides
  topLevel := by
    intro noKwarg notTyped choice isIntent
    have decides : (explicitKwargSet body || typedThinking body) = false := by
      rw [explicitKwargSet, noKwarg, notTyped]
      rfl
    rw [apply_of_decides decides, wanted_of_intent isIntent,
      Option.bind_some] at isOnce
    obtain ⟨kwargs, isSteered, rfl⟩ := Option.map_eq_some_iff.mp isOnce
    exact kwarg_of_steered isSteered

theorem policyLaw_iff_returns :
    PolicyLaw defaultThinking grammarCollides body ↔
      (applyThinkingPolicy defaultThinking grammarCollides body).isSome := by
  constructor
  · rintro ⟨once, isOnce, _⟩
    rw [isOnce]
    rfl
  · intro returns
    obtain ⟨once, isOnce⟩ := Option.isSome_iff_exists.mp returns
    exact ⟨once, isOnce, apply_idempotent isOnce, choice_kept isOnce⟩

end

/-! ## The messages -/

theorem isSystem_systemMessage (contents : List String) :
    isSystem (systemMessage contents) :=
  rfl

theorem filter_canonical (contents : List String) (items : List Json) :
    (systemMessage contents ::
        items.filter fun item => !isSystem item).filter isSystem =
      [systemMessage contents] := by
  rw [filter_cons_of_pos (isSystem_systemMessage contents)]
  have none_ : (items.filter fun item => !isSystem item).filter isSystem =
      [] := by
    apply filter_eq_nil_iff.mpr
    intro item isIn isSys
    have notSys := (mem_filter.mp isIn).2
    rw [isSys] at notSys
    cases notSys
  rw [none_]

/-- One system message in front stays so. -/
theorem normalize_canonical (contents : List String) (items : List Json) :
    normalizeSystemMessages (.arr (systemMessage contents ::
        items.filter fun item => !isSystem item)) =
      some (.arr (systemMessage contents ::
        items.filter fun item => !isSystem item)) := by
  have anySystem : (systemMessage contents ::
      items.filter fun item => !isSystem item).any isSystem = true := rfl
  have joined : systemContents (systemMessage contents ::
      items.filter fun item => !isSystem item) =
        some ["\n\n".intercalate contents] := by
    rw [systemContents, filter_canonical]
    rfl
  have others : (systemMessage contents ::
      items.filter fun item => !isSystem item).filter
        (fun item => !isSystem item) =
      items.filter fun item => !isSystem item := by
    rw [filter_cons_of_neg (by rw [isSystem_systemMessage]; decide),
      filter_filter]
    simp
  rw [normalizeSystemMessages, if_pos anySystem, joined, others]
  rfl

theorem mapM_strOf_eq_some {values : List Json} {texts : List String} :
    values.mapM strOf = some texts ↔ values = texts.map Json.str := by
  have isText : ∀ (value : Json) (text : String),
      strOf value = some text ↔ value = .str text := by
    intro value text
    cases value with
    | str other =>
      rw [strOf, Option.some.injEq, Json.str.injEq]
    | _ => simp [strOf]
  induction values generalizing texts with
  | nil =>
    rw [mapM_nil, nil_eq, map_eq_nil_iff]
    exact ⟨fun same => (Option.some.inj same).symm, fun same => by rw [same]; rfl⟩
  | cons value values ih =>
    rw [mapM_cons]
    simp only [Option.bind_eq_bind, Option.pure_def,
      Option.bind_eq_some_iff, Option.some.injEq]
    constructor
    · rintro ⟨text, isFirst, rest, isRest, rfl⟩
      rw [map_cons, (isText value text).mp isFirst,
        ih.mp isRest]
    · intro same
      cases texts with
      | nil => cases same
      | cons text texts =>
        obtain ⟨isFirst, isRest⟩ := List.cons.inj same
        exact ⟨text, (isText value text).mpr isFirst, texts,
          ih.mpr isRest, rfl⟩

/-- The system messages are one in front. -/
theorem canonical_of_contents {items : List Json} {contents : List String}
    (isContents : systemContents items = some contents) :
    Canonical items (systemMessage contents ::
      items.filter fun item => !isSystem item) where
  front := by
    intro position item isItem isSys
    cases position with
    | zero => rfl
    | succ position =>
      rw [getElem?_cons_succ] at isItem
      have isIn := mem_of_getElem? isItem
      have notSys := (mem_filter.mp isIn).2
      rw [isSys] at notSys
      cases notSys
  content _ := ⟨contents, mapM_strOf_eq_some.mp isContents, rfl⟩
  others := by
    rw [filter_cons_of_neg (by rw [isSystem_systemMessage]; decide),
      filter_filter]
    simp

theorem canonical_of_no_system {items : List Json}
    (noSystem : items.any isSystem = false) : Canonical items items where
  front := by
    intro position item isItem isSys
    have isIn := mem_of_getElem? isItem
    rw [any_eq_false] at noSystem
    exact absurd isSys (noSystem item isIn)
  content := by
    intro anySystem
    rw [noSystem] at anySystem
    cases anySystem
  others := rfl

/-- The law holds where the function returns. -/
theorem messagesLaw_iff_returns (messages : Json) :
    MessagesLaw messages ↔ (normalizeSystemMessages messages).isSome := by
  constructor
  · rintro ⟨once, isOnce, _⟩
    rw [isOnce]
    rfl
  · intro returns
    obtain ⟨once, isOnce⟩ := Option.isSome_iff_exists.mp returns
    cases messages with
    | arr items =>
      rw [normalizeSystemMessages] at isOnce
      split at isOnce
      · obtain ⟨contents, isContents, rfl⟩ :=
          Option.map_eq_some_iff.mp isOnce
        refine ⟨_, ?_, normalize_canonical contents items, _, rfl,
          canonical_of_contents isContents⟩
        rw [normalizeSystemMessages, if_pos ‹_›, isContents]
        rfl
      · next noSystem =>
          cases isOnce
          have same : normalizeSystemMessages (.arr items) =
              some (.arr items) := by
            rw [normalizeSystemMessages, if_neg noSystem]
          exact ⟨_, same, same, _, rfl,
            canonical_of_no_system (Bool.eq_false_iff.mpr noSystem)⟩
    | null => exact ⟨_, rfl, rfl, rfl⟩
    | bool value => exact ⟨_, rfl, rfl, rfl⟩
    | number value => exact ⟨_, rfl, rfl, rfl⟩
    | str value => exact ⟨_, rfl, rfl, rfl⟩
    | obj fields => exact ⟨_, rfl, rfl, rfl⟩

/-! ## The objects of the caller -/

theorem Heap.prefix_alloc (heap : Heap) (value : Json) :
    heap <+: (heap.alloc value).1 :=
  prefix_append heap [value]

theorem Heap.prefix_write {heap later : Heap} {address : Address}
    (isPrefix : heap <+: later) (isNew : heap.length ≤ address)
    (value : Json) : heap <+: later.write address value := by
  obtain ⟨rest, rfl⟩ := isPrefix
  rw [Heap.write, set_append_right _ _ isNew]
  exact prefix_append heap _

section
variable {defaultThinking : Option Bool} {grammarCollides : Bool}
  {heap : Heap} {address : Address}

/-- The caller's body is not changed. -/
theorem policy_untouched {body : Fields}
    (isBody : heap[address]? = some (.obj body)) :
    Untouched heap (applyThinkingPolicy defaultThinking grammarCollides body
      |>.map Json.obj)
      (applyThinkingPolicyIn defaultThinking grammarCollides heap
        address) := by
  rw [applyThinkingPolicyIn, isBody]
  dsimp only [Option.bind_some, asFields]
  cases decides : explicitKwargSet body || typedThinking body with
  | true =>
    rw [apply_of_untouched decides]
    exact ⟨prefix_refl heap, isBody⟩
  | false =>
    rw [apply_of_decides decides]
    cases wanted defaultThinking grammarCollides body with
    | none => trivial
    | some want =>
      cases want with
      | none => exact ⟨prefix_refl heap, isBody⟩
      | some want =>
        dsimp only [Option.bind_some]
        cases steeredKwargs body want with
        | none => trivial
        | some kwargs =>
          have first := heap.prefix_alloc (.obj kwargs)
          have second := first.trans
            (Heap.prefix_alloc _ (.obj (withoutBooleans body)))
          refine ⟨Heap.prefix_write second ?_ _, ?_⟩
          · simp [Heap.alloc]
          · simp [Heap.alloc, Heap.write]

/-- The caller's messages are not changed. -/
theorem messages_untouched {messages : Json}
    (isMessages : heap[address]? = some messages) :
    Untouched heap (normalizeSystemMessages messages)
      (normalizeSystemMessagesIn heap address) := by
  rw [normalizeSystemMessagesIn, isMessages]
  dsimp only [Option.bind_some]
  cases messages with
  | arr items =>
    rw [normalizeSystemMessages]
    dsimp only
    split
    · cases systemContents items with
      | none => rfl
      | some contents =>
        exact ⟨heap.prefix_alloc _, getElem?_concat_length⟩
    · exact ⟨prefix_refl heap, isMessages⟩
  | null => exact ⟨prefix_refl heap, isMessages⟩
  | bool value => exact ⟨prefix_refl heap, isMessages⟩
  | number value => exact ⟨prefix_refl heap, isMessages⟩
  | str value => exact ⟨prefix_refl heap, isMessages⟩
  | obj fields => exact ⟨prefix_refl heap, isMessages⟩

end

/-! ## When the passes return -/

section
variable {defaultThinking : Option Bool} {grammarCollides : Bool}
  {body : Fields}

theorem wantsStructuredOutput_isSome (body : Fields) :
    (wantsStructuredOutput body).isSome ↔
      ∀ format, get body "response_format" = .obj format →
        (get format "type").key?.isSome := by
  rw [wantsStructuredOutput]
  cases get body "response_format" with
  | obj format => simp [isGrammarFormat]
  | _ => simp

theorem unpacked_isSome (value : Json) :
    (unpacked value).isSome ↔
      value.truthy = false ∨ ∃ fields, value = .obj fields := by
  rw [unpacked]
  cases value with
  | obj fields =>
    cases Toolloop.Json.truthy (.obj fields) <;> simp [asFields]
  | _ => simp [asFields]

/-- When the policy returns. -/
theorem apply_isSome :
    (applyThinkingPolicy defaultThinking grammarCollides body).isSome ↔
      (Decides body → Undecided defaultThinking body →
        grammarCollides = true → (wantsStructuredOutput body).isSome) ∧
      (Decides body → ¬ Spared defaultThinking grammarCollides body →
        (unpacked (get body "chat_template_kwargs")).isSome) := by
  cases decides : explicitKwargSet body || typedThinking body with
  | true =>
    rw [apply_of_untouched decides]
    simp [Decides, decides]
  | false =>
    rw [apply_of_decides decides]
    have isSteered : ∀ want, (steeredKwargs body want).isSome =
        (unpacked (get body "chat_template_kwargs")).isSome :=
      fun want => Option.isSome_map
    rw [wanted]
    cases chosen : (callerIntent body).or defaultThinking with
    | some want =>
      simp [Decides, Undecided, Spared, decides, chosen, isSteered]
    | none =>
      cases grammarCollides with
      | false =>
        simp [Decides, Undecided, Spared, decides, chosen, isSteered]
      | true =>
        cases isWanted : wantsStructuredOutput body with
        | none => simp [Decides, Undecided, decides, chosen]
        | some structured =>
          cases structured with
          | false =>
            simp [Decides, Undecided, Spared, decides, chosen,
              isSteered, isWanted]
          | true =>
            simp [Decides, Undecided, Spared, decides, chosen,
              isWanted]

/-- When the messages are returned. -/
theorem normalize_isSome (messages : Json) :
    (normalizeSystemMessages messages).isSome ↔
      ∀ items, messages = .arr items → ∀ item ∈ items, isSystem item →
        ∃ text, contentOf item = .str text := by
  cases messages with
  | arr items =>
    rw [normalizeSystemMessages]
    constructor
    · rintro returns _ ⟨⟩ item isIn isSys
      have anySystem : items.any isSystem :=
        any_eq_true.mpr ⟨item, isIn, isSys⟩
      rw [if_pos anySystem, Option.isSome_map] at returns
      obtain ⟨contents, isContents⟩ := Option.isSome_iff_exists.mp returns
      have isContent := mem_map_of_mem (f := contentOf)
        (mem_filter.mpr ⟨isIn, isSys⟩)
      rw [mapM_strOf_eq_some.mp isContents] at isContent
      obtain ⟨text, _, same⟩ := mem_map.mp isContent
      exact ⟨text, same.symm⟩
    · intro areTexts
      split
      · have texts : ∀ values : List Json,
            (∀ value ∈ values, ∃ text, value = .str text) →
              ∃ contents : List String, values = contents.map Json.str := by
          intro values isText
          induction values with
          | nil => exact ⟨[], rfl⟩
          | cons value values ih =>
            obtain ⟨text, rfl⟩ := isText value mem_cons_self
            obtain ⟨contents, rfl⟩ := ih
              fun other isIn => isText other (mem_cons_of_mem _ isIn)
            exact ⟨text :: contents, rfl⟩
        obtain ⟨contents, areContents⟩ := texts
          ((items.filter isSystem).map contentOf) (by
            intro value isValue
            obtain ⟨item, isItem, rfl⟩ := mem_map.mp isValue
            obtain ⟨isIn, isSys⟩ := mem_filter.mp isItem
            exact areTexts items rfl item isIn isSys)
        rw [systemContents, mapM_strOf_eq_some.mpr areContents]
        rfl
      · rfl
  | _ => simp [normalizeSystemMessages]

/--
The passes keep their laws just on the bodies which they can read: where a
choice is to be made the response format can be looked up and the kwargs are
an object or say nothing, and each system content is a text.
-/
theorem normalised_iff (defaultThinking : Option Bool)
    (grammarCollides : Bool) (body : Fields) :
    Normalised defaultThinking grammarCollides body ↔
      Readable defaultThinking grammarCollides body := by
  constructor
  · intro normalised
    have policy := apply_isSome.mp (policyLaw_iff_returns.mp normalised.policy)
    have messages := (normalize_isSome _).mp
      ((messagesLaw_iff_returns _).mp normalised.messages)
    refine ⟨?_, ?_, messages⟩
    · intro decides undecided collides
      exact (wantsStructuredOutput_isSome body).mp
        (policy.1 decides undecided collides)
    · intro decides notSpared
      exact (unpacked_isSome _).mp (policy.2 decides notSpared)
  · intro readable
    have policy : (applyThinkingPolicy defaultThinking grammarCollides
        body).isSome := by
      apply apply_isSome.mpr
      constructor
      · intro decides undecided collides
        exact (wantsStructuredOutput_isSome body).mpr
          (readable.format decides undecided collides)
      · intro decides notSpared
        exact (unpacked_isSome _).mpr (readable.kwargs decides notSpared)
    have messages := (normalize_isSome _).mpr readable.contents
    exact ⟨policyLaw_iff_returns.mpr policy,
      (messagesLaw_iff_returns _).mpr messages,
      fun _ _ isBody => policy_untouched isBody,
      fun _ _ isMessages => messages_untouched isMessages⟩

end

/-- Parts of a content, no content, and kwargs which are a list. -/
theorem normalised_fails :
    ¬ Normalised none false [("messages", .arr [.obj
        [("role", .str "system"), ("content", .arr [])]])] ∧
      ¬ Normalised none false [("messages", .arr [.obj
        [("role", .str "system"), ("content", .null)]])] ∧
      ¬ Normalised none false
        [("chat_template_kwargs", .arr [.number 1])] := by
  refine ⟨?_, ?_, ?_⟩
  · intro normalised
    obtain ⟨_, isOnce, _⟩ := normalised.messages
    cases isOnce
  · intro normalised
    obtain ⟨_, isOnce, _⟩ := normalised.messages
    cases isOnce
  · intro normalised
    obtain ⟨_, isOnce, _⟩ := normalised.policy
    cases isOnce

end Hal0.Normalize
