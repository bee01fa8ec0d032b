import Hal0.Toolloop.TextReads

/-!
# The calls of attribute-style elements

Wherever well-formed elements stand in a text, the tokens of each are read as
one call with all its parameters, whose region is the element.
-/

namespace Hal0.Toolloop

open List
open Hal0.Scan
open Hal0.Slots.ConfigFiles (isSpace)

/-! ## A parameter value -/

theorem not_mem_of_fold {taken word : Text} (folded : taken.map fold = word)
    (isFree : '<' ∉ word) : '<' ∉ taken := by
  intro isIn
  apply isFree
  rw [← folded]
  exact mem_map.mpr ⟨'<', isIn, by decide⟩

theorem Blank.not_mem {text : Text} (isBlank : Blank text) : '<' ∉ text :=
  fun isIn => (isBlank.inert '<' isIn).1 rfl

theorem closesParam_tail {char : Char} {text : Text}
    (closes : closesParam (char :: text)) : '<' ∉ text := by
  rw [closesParam, Option.any_eq_true] at closes
  obtain ⟨after, isSome, isBlank⟩ := closes
  simp only [Option.bind_eq_some_iff] at isSome
  obtain ⟨named, ⟨opened, opens, isNamed⟩, isClosed⟩ := isSome
  obtain ⟨slash, same, foldedSlash⟩ := lit_eq_some opens
  obtain ⟨blanks, word, rfl, areBlank, foldedWord⟩ := closing_eq_some isNamed
  obtain ⟨more, bracket, rfl, areMore, foldedBracket⟩ :=
    closing_eq_some isClosed
  have slashLetters : slash.map fold = ['<', '/'] := foldedSlash
  obtain ⟨first, others, rfl, _, foldedRest⟩ :=
    map_eq_cons_iff.mp slashLetters
  have parts : text = others ++
      (blanks ++ (word ++ (more ++ (bracket ++ after)))) :=
    (List.cons.inj same).2
  have afterBlank : Blank after := by
    intro other isIn
    exact all_eq_true.mp isBlank other isIn
  rw [parts]
  simp only [mem_append, not_or]
  exact ⟨not_mem_of_fold foldedRest (by decide), Blank.not_mem areBlank,
    not_mem_of_fold foldedWord (by decide), Blank.not_mem areMore,
    not_mem_of_fold foldedBracket (by decide), afterBlank.not_mem⟩

theorem withoutParamClose_reads {gap : Text} (isBlank : Blank gap)
    (value : Text) :
    withoutParamClose (value ++ ("</param>".toList ++ gap)) = value := by
  induction value with
  | nil =>
    have opens : lit "</".toList ("</param>".toList ++ gap) =
        some ("param".toList ++ (">".toList ++ gap)) := by
      have parts : "</param>".toList ++ gap =
          "</".toList ++ ("param".toList ++ (">".toList ++ gap)) := rfl
      rw [parts]
      exact lit_self (by decide) _
    have word : closing "param".toList ("param".toList ++
        (">".toList ++ gap)) = some (">".toList ++ gap) :=
      closing_self (by decide) (by decide) _
    have bracket : closing ">".toList (">".toList ++ gap) = some gap :=
      closing_self (by decide) (by decide) gap
    have blank : gap.all isSpace := all_eq_true.mpr isBlank
    have closes : closesParam ("</param>".toList ++ gap) := by
      rw [closesParam, opens, Option.bind_some, word, Option.bind_some,
        bracket, Option.any_some, blank]
    have shape : "</param>".toList ++ gap =
        '<' :: ("/param>".toList ++ gap) := rfl
    rw [shape] at closes
    rw [nil_append, shape, withoutParamClose, closes]
    rfl
  | cons char value ih =>
    have open_ : closesParam
        (char :: (value ++ ("</param>".toList ++ gap))) = false := by
      by_contra closes
      have noTag := closesParam_tail (Bool.of_not_eq_false closes)
      apply noTag
      simp
    rw [cons_append, withoutParamClose, open_, ih]
    rfl

theorem xmlParamValue_reads (runtime : Runtime) {gap : Text}
    (isBlank : Blank gap) (value : Text) :
    xmlParamValue runtime (value ++ ("</param>".toList ++ gap)) =
      paramValue runtime value := by
  rw [xmlParamValue, withoutParamClose_reads isBlank]

/-! ## The parameters of a call -/

theorem slice_eq {text first middle last : Text} {start stop : Nat}
    (split : text.drop start = first ++ (middle ++ last))
    (isStop : stop = start + (first.length + middle.length)) :
    slice text (start + first.length) stop = middle := by
  subst isStop
  have count : start + (first.length + middle.length) -
      (start + first.length) = middle.length := by
    omega
  rw [slice, drop_take, count, ← drop_drop, split, drop_left, take_left]

theorem param_length (param : Param) :
    param.render.length = param.opener.length +
      (param.value ++ ("</param>".toList ++ param.gap)).length := by
  rw [Param.render, length_append]

section
variable (runtime : Runtime) (alphabet : Alphabet) (text : Text)

variable {position : Nat} {behind : Text}

/-- The parameters are read as they were written. -/
theorem attrArguments_reads {params : List Param}
    (areWell : ∀ param ∈ params, param.WellFormed alphabet) {bodyEnd : Nat}
    (split : text.drop position = params.flatMap Param.render ++ behind)
    (isEnd : bodyEnd = position + (params.flatMap Param.render).length)
    (fields : Fields) :
    attrArguments runtime text bodyEnd fields
        (paramTokens position params) =
      params.foldl (fun fields param =>
        assign fields (String.ofList param.name)
          (paramValue runtime param.value)) fields := by
  induction params generalizing position fields with
  | nil => rfl
  | cons param params ih =>
    rw [flatMap_cons, append_assoc] at split
    rw [flatMap_cons, length_append] at isEnd
    have length := param_length param
    have positive := length_pos_iff.mpr param.opener_ne_nil
    have inside : ¬ bodyEnd ≤ position := by omega
    have laterSplit : text.drop (position + param.render.length) =
        params.flatMap Param.render ++ behind := by
      rw [← drop_drop, split, drop_left]
    have following : min (((paramTokens (position + param.render.length)
        params).head?.map fun next => next.span.start).getD bodyEnd)
          bodyEnd = position + param.render.length := by
      cases params with
      | nil =>
        rw [flatMap_nil, length_nil] at isEnd
        have same : bodyEnd = position + param.render.length := by omega
        rw [same]
        exact Nat.min_self _
      | cons next params =>
        have begins : ((paramTokens (position + param.render.length)
            (next :: params)).head?.map fun token =>
              token.span.start).getD bodyEnd =
                position + param.render.length := rfl
        rw [begins]
        exact Nat.min_eq_left (by omega)
    have value : slice text (position + param.opener.length)
        (position + param.render.length) =
          param.value ++ ("</param>".toList ++ param.gap) := by
      have parts : text.drop position = param.opener ++
          ((param.value ++ ("</param>".toList ++ param.gap)) ++
            (params.flatMap Param.render ++ behind)) := by
        rw [split, Param.render, append_assoc]
      exact slice_eq parts (by rw [length])
    have later := ih
      (fun other isIn => areWell other (mem_cons_of_mem param isIn))
      laterSplit (by omega)
    have isWell := areWell param mem_cons_self
    rw [paramTokens, attrArguments, if_neg inside]
    dsimp only
    rw [following, value, xmlParamValue_reads runtime isWell.gap, later]
    rfl

/-! ## The elements of a text -/

theorem functionClose_reads (rest : Text) :
    functionClose ("</function>".toList ++ rest) = some ((), rest) :=
  functionClose_of_lit (lit_self (by decide) rest)

variable {text} in
/-- An element ends where it was closed. -/
theorem attrEnd_reads {element : Element}
    (wellFormed : element.WellFormed alphabet) {nextCallAt : Nat}
    (split : text.drop position = element.render ++ behind)
    (isNext : position + element.render.length ≤ nextCallAt) :
    attrEnd text (position + element.opener.length) nextCallAt =
      (position + element.opener.length + element.body.length,
        position + element.render.length) := by
  have quiet := (deaf_functionClose alphabet).elementBody (by decide)
    (by decide) (by decide) wellFormed
  have nonempty : "</function>".toList ≠ [] := by decide
  have close : Scans functionClose Anything "</function>".toList _ :=
    Scans.one nonempty fun rest _ => functionClose_reads rest
  have scans := quiet.scans.append close fun _ _ => trivial
  have rest : text.drop (position + element.opener.length) =
      (element.body ++ "</function>".toList) ++ behind := by
    rw [← drop_drop, split, Element.render, append_assoc, drop_left]
  have length : element.render.length = element.opener.length +
      (element.body.length + "</function>".toList.length) := by
    rw [Element.render, length_append, length_append]
  have isFirst : searchFrom functionClose (position + element.opener.length)
      text = some ⟨⟨position + element.opener.length + element.body.length,
        position + element.opener.length + element.body.length +
          "</function>".toList.length⟩, ()⟩ := by
    rw [searchFrom, rest, scans _ behind trivial]
    rfl
  have before : position + element.opener.length + element.body.length ≤
      nextCallAt := by
    omega
  rw [attrEnd, isFirst]
  dsimp only
  rw [if_pos before, length]
  congr 1
  omega

variable (known : List String)

/-- The next token begins a call, at or behind a position. -/
def Begins (bound : Nat) (tokens : List Token) : Prop :=
  ∀ token, tokens.head? = some token →
    startsCall known token ∧ bound ≤ token.span.start

theorem paramTokens_not_starts {params : List Param} :
    ∀ token ∈ paramTokens position params, startsCall known token = false := by
  induction params generalizing position with
  | nil => simp [paramTokens]
  | cons param params ih =>
    intro token isToken
    rcases mem_cons.mp isToken with rfl | isLater
    · rfl
    · exact ih token isLater

variable {later : List Token}

theorem attrCalls_params {tokens : List Token}
    (notStarts : ∀ token ∈ tokens, startsCall known token = false) :
    attrCalls runtime known text (tokens ++ later) =
      attrCalls runtime known text later := by
  induction tokens with
  | nil => rfl
  | cons token tokens ih =>
    have here := notStarts token mem_cons_self
    rw [cons_append, attrCalls, here]
    exact ih fun other isIn =>
      notStarts other (mem_cons_of_mem token isIn)

variable {known text} in
theorem Begins.nextCallAt {bound : Nat} (begins : Begins known bound later)
    (inText : bound ≤ text.length) :
    bound ≤ ((later.find? (startsCall known)).map
      fun next => next.span.start).getD text.length := by
  cases later with
  | nil => exact inText
  | cons token later =>
    obtain ⟨starts, beyond⟩ := begins token rfl
    rw [find?_cons_of_pos starts]
    exact beyond

variable {text} in
/-- An element is read as its call. -/
theorem attrCalls_element {element : Element}
    (wellFormed : element.WellFormed alphabet)
    (split : text.drop position = element.render ++ behind)
    (begins : Begins known (position + element.render.length) later) :
    attrCalls runtime known text (elementTokens position element ++ later) =
      ⟨(element.call runtime).1, (element.call runtime).2,
        ⟨position, position + element.render.length⟩⟩ ::
        attrCalls runtime known text later := by
  have notStarts : ∀ token ∈ paramTokens
      (position + element.opener.length + element.lead.length)
        element.params, startsCall known token = false :=
    paramTokens_not_starts known
  have inText : position + element.render.length ≤ text.length := by
    have length := congrArg List.length split
    have positive := length_pos_iff.mpr element.opener_ne_nil
    rw [length_drop, length_append, Element.render, length_append] at length
    rw [Element.render, length_append]
    omega
  have isNext := begins.nextCallAt inText
  have params : text.drop
      (position + element.opener.length + element.lead.length) =
        element.params.flatMap Param.render ++
          ("</function>".toList ++ behind) := by
    rw [Nat.add_assoc, ← drop_drop, split, Element.render, Element.body,
      append_assoc, append_assoc, append_assoc,
      ← append_assoc, ← length_append, drop_left]
  have bodyEnd : position + element.opener.length + element.body.length =
      position + element.opener.length + element.lead.length +
        (element.params.flatMap Param.render).length := by
    rw [Element.body, length_append]
    omega
  have found : (paramTokens
      (position + element.opener.length + element.lead.length)
        element.params ++ later).find? (startsCall known) =
      later.find? (startsCall known) := by
    rw [find?_append, find?_eq_none.mpr, Option.none_or]
    intro token isToken
    rw [notStarts token isToken]
    exact Bool.false_ne_true
  have taken : (paramTokens
      (position + element.opener.length + element.lead.length)
        element.params ++ later).takeWhile
          (fun next => !startsCall known next) =
      paramTokens (position + element.opener.length + element.lead.length)
        element.params := by
    rw [takeWhile_append_of_pos]
    · cases later with
      | nil => exact append_nil _
      | cons token later =>
        have starts := (begins token rfl).1
        rw [takeWhile_cons_of_neg (by rw [starts]; decide),
          append_nil]
    · intro token isToken
      rw [notStarts token isToken]
      rfl
  have starts : startsCall known
      ⟨⟨position, position + element.opener.length⟩,
        ("function".toList, String.ofList element.name)⟩ = true := rfl
  rw [elementTokens, cons_append, attrCalls, if_pos starts]
  dsimp only
  rw [found, taken, attrEnd_reads alphabet wellFormed split isNext]
  dsimp only
  rw [attrArguments_reads runtime alphabet text wellFormed.params params
    bodyEnd, attrCalls_params runtime text known notStarts]
  rfl

/-- The calls of elements, the first of which begins at a position. -/
def elementsFound : Nat → List (Text × Element) → List Found
  | _, [] => []
  | position, element :: elements =>
    ⟨(element.2.call runtime).1, (element.2.call runtime).2,
      ⟨position + element.1.length,
        position + element.1.length + element.2.render.length⟩⟩ ::
      elementsFound
        (position + (element.1 ++ element.2.render).length) elements

variable {text} in
theorem attrCalls_elements {elements : List (Text × Element)}
    (areWell : ∀ element ∈ elements,
      Blank element.1 ∧ element.2.WellFormed alphabet)
    (split : text.drop position = renderElements elements ++ behind)
    (begins : Begins known (position + (renderElements elements).length)
      later) :
    attrCalls runtime known text (elementsTokens position elements ++ later) =
      elementsFound runtime position elements ++
        attrCalls runtime known text later := by
  induction elements generalizing position with
  | nil => rfl
  | cons element elements ih =>
    have isWell := (areWell element mem_cons_self).2
    have shape : renderElements (element :: elements) =
        (element.1 ++ element.2.render) ++ renderElements elements :=
      flatMap_cons
    rw [shape, append_assoc] at split
    rw [shape, length_append] at begins
    have rest : text.drop
        (position + (element.1 ++ element.2.render).length) =
          renderElements elements ++ behind := by
      rw [← drop_drop, split, drop_left]
    have others := ih
      (fun other isIn => areWell other (mem_cons_of_mem element isIn))
      rest (by rw [Nat.add_assoc]; exact begins)
    have here : text.drop (position + element.1.length) =
        element.2.render ++ (renderElements elements ++ behind) := by
      rw [← drop_drop, split, append_assoc, drop_left]
    have first : Begins known
        (position + element.1.length + element.2.render.length)
        (elementsTokens (position + (element.1 ++ element.2.render).length)
          elements ++ later) := by
      intro token isFirst
      cases elements with
      | nil =>
        obtain ⟨starts, beyond⟩ := begins token isFirst
        rw [length_append] at beyond
        exact ⟨starts, by omega⟩
      | cons next elements =>
        cases isFirst
        refine ⟨rfl, ?_⟩
        rw [length_append]
        dsimp only
        omega
    rw [elementsTokens, append_assoc,
      attrCalls_element runtime alphabet known isWell here first, others]
    rfl

theorem elementsFound_calls (position : Nat)
    (elements : List (Text × Element)) :
    (elementsFound runtime position elements).map
        (fun found => (found.name, found.arguments)) =
      elements.map fun element => element.2.call runtime := by
  induction elements generalizing position with
  | nil => rfl
  | cons element elements ih =>
    rw [elementsFound, map_cons, map_cons, ih]

end

end Hal0.Toolloop
