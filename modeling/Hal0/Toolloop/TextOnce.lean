import Hal0.Toolloop.TextPasses
import Hal0.Toolloop.TextSpans
import Mathlib.Data.List.Pairwise

/-!
# Each call of a reply runs once

The passes take every block of a composed reply once, in the order of the
dialects, and cutting the blocks out leaves the prose.
-/

namespace Hal0.Toolloop

open List
open Hal0.Scan
open Hal0.Slots.ConfigFiles (isSpace)

/-! ## The blocks of some dialects -/

/-- The calls of one dialect. -/
def ofKind (kind : Kind) (places : List (Nat × Block)) :
    List (Nat × Block) :=
  places.filter fun place => place.2.kind = kind

/-- What has been taken after the passes of some dialects. -/
def takenOf (runtime : Runtime) (places : List (Nat × Block))
    (kinds : List Kind) : Taken where
  calls := kinds.flatMap fun kind =>
    (ofKind kind places).flatMap (blockFound runtime)
  spans := kinds.flatMap fun kind => (ofKind kind places).map blockSpan

def kinds : List Kind :=
  [.wrapped, .functionTag, .element, .gemma, .fenced]

theorem mem_kinds (kind : Kind) : kind ∈ kinds := by
  cases kind with
  | wrapped => decide
  | functionTag => decide
  | element => decide
  | gemma => decide
  | fenced => decide

theorem flatMap_ofKind_perm {order : List Kind} (nodup : order.Nodup)
    {places : List (Nat × Block)}
    (all : ∀ place ∈ places, place.2.kind ∈ order) :
    (order.flatMap fun kind => ofKind kind places).Perm places := by
  induction places with
  | nil =>
    have nothing : (order.flatMap fun kind => ofKind kind []) = [] :=
      flatMap_eq_nil_iff.mpr fun _ _ => rfl
    rw [nothing]
  | cons place places ih =>
    have others := ih fun other isIn =>
      all other (mem_cons_of_mem place isIn)
    obtain ⟨before, after, split⟩ :=
      append_of_mem (all place mem_cons_self)
    have skips : ∀ kind, kind ≠ place.2.kind →
        ofKind kind (place :: places) = ofKind kind places := by
      intro kind differs
      exact filter_cons_of_neg (by simpa using fun same => differs same.symm)
    have takes : ofKind place.2.kind (place :: places) =
        place :: ofKind place.2.kind places :=
      filter_cons_of_pos (by simp)
    rw [split, nodup_append, nodup_cons] at nodup
    obtain ⟨_, ⟨notAfter, _⟩, apart⟩ := nodup
    have front : (before.flatMap fun kind => ofKind kind (place :: places)) =
        before.flatMap fun kind => ofKind kind places := by
      apply flatMap_congr
      intro kind isBefore
      exact skips kind (apart kind isBefore _ mem_cons_self)
    have back : (after.flatMap fun kind => ofKind kind (place :: places)) =
        after.flatMap fun kind => ofKind kind places := by
      apply flatMap_congr
      intro kind isAfter
      apply skips
      rintro rfl
      exact notAfter isAfter
    rw [split, flatMap_append, flatMap_cons] at others
    rw [split, flatMap_append, flatMap_cons, front, back, takes, cons_append]
    exact perm_middle.trans (others.cons place)

/-! ## One pass -/

section
variable {runtime : Runtime} {alphabet : Alphabet} {known : List String}
  {places : List (Nat × Block)}
  {candidatesAt : Nat × Block → List Candidate} {kind : Kind}

/-- All calls of the blocks are known, and there is one in each. -/
def AllKnown (runtime : Runtime) (known : List String)
    (places : List (Nat × Block)) : Prop :=
  ∀ place ∈ places, place.2.calls runtime ≠ [] ∧
    ∀ call ∈ place.2.calls runtime, call.1 ∈ known

theorem take_place {place : Nat × Block}
    (nonempty : place.2.calls runtime ≠ [])
    (areKnown : ∀ call ∈ place.2.calls runtime, call.1 ∈ known)
    (taken : Taken) :
    take known taken (placeCandidate runtime place) =
      ⟨taken.calls ++ blockFound runtime place,
        taken.spans ++ [blockSpan place]⟩ := by
  have calls := blockFound_calls runtime place
  have all : (blockFound runtime place).filter
      (fun found => found.name ∈ known) = blockFound runtime place := by
    apply filter_eq_self.mpr
    intro found isFound
    apply decide_eq_true
    have isCall := mem_map_of_mem
      (f := fun found : Found => (found.name, found.arguments)) isFound
    rw [calls] at isCall
    exact areKnown _ isCall
  have some_ : (blockFound runtime place).isEmpty = false := by
    rw [isEmpty_eq_false_iff]
    intro isEmpty
    rw [isEmpty] at calls
    exact nonempty calls.symm
  rw [take, placeCandidate]
  dsimp only
  rw [all, some_]
  rfl

theorem PassOf.foldl_takeOutside
    (pass : PassOf runtime kind places candidatesAt)
    (areKnown : AllKnown runtime known places)
    (ordered : places.Pairwise fun first second =>
      (blockSpan first).stop ≤ (blockSpan second).start)
    {taken : Taken}
    (done : ∀ place ∈ places, place.2.kind ≠ kind →
      place.2.kind = .wrapped → blockSpan place ∈ taken.spans)
    (free : ∀ span ∈ taken.spans, ∀ place ∈ places, place.2.kind = kind →
      ¬ span.Covers place.1) :
    (places.flatMap candidatesAt).foldl (takeOutside known) taken =
      ⟨taken.calls ++ (ofKind kind places).flatMap (blockFound runtime),
        taken.spans ++ (ofKind kind places).map blockSpan⟩ := by
  induction places generalizing taken with
  | nil => simp [ofKind]
  | cons place places ih =>
    obtain ⟨first, ordered⟩ := pairwise_cons.mp ordered
    have rest : PassOf runtime kind places candidatesAt :=
      ⟨fun other isIn => pass.own other (mem_cons_of_mem place isIn),
        fun other isIn =>
          pass.foreign other (mem_cons_of_mem place isIn)⟩
    have restKnown : AllKnown runtime known places := fun other isIn =>
      areKnown other (mem_cons_of_mem place isIn)
    rw [flatMap_cons, foldl_append]
    by_cases isOwn : place.2.kind = kind
    · obtain ⟨nonempty, allKnown⟩ := areKnown place mem_cons_self
      have outside : ¬ ∃ span ∈ taken.spans, span.Covers place.1 := by
        rintro ⟨span, isSpan, covers⟩
        exact free span isSpan place mem_cons_self isOwn covers
      have here : takeOutside known taken (placeCandidate runtime place) =
          ⟨taken.calls ++ blockFound runtime place,
            taken.spans ++ [blockSpan place]⟩ := by
        rw [takeOutside]
        split
        · rename_i covered
          exact absurd covered outside
        · exact take_place nonempty allKnown taken
      have takes : ofKind kind (place :: places) =
          place :: ofKind kind places :=
        filter_cons_of_pos (by simpa using isOwn)
      rw [pass.own place mem_cons_self isOwn, foldl_cons,
        foldl_nil, here, ih rest restKnown ordered,
        takes, flatMap_cons, map_cons]
      · simp only [append_assoc, singleton_append]
      · intro other isIn notOwn isWrapped
        exact mem_append_left _
          (done other (mem_cons_of_mem place isIn) notOwn isWrapped)
      · intro span isSpan other isIn isKind covers
        rcases mem_append.mp isSpan with isSpan | isSpan
        · exact free span isSpan other (mem_cons_of_mem place isIn)
            isKind covers
        · rw [mem_singleton.mp isSpan] at covers
          have stops : (blockSpan place).stop ≤ other.1 := first other isIn
          have := covers.2
          omega
    · have skips : ∀ candidates : List Candidate,
          (∀ candidate ∈ candidates, place.2.kind = .wrapped ∧
            (blockSpan place).Covers candidate.span.start) →
          candidates.foldl (takeOutside known) taken = taken := by
        intro candidates areInside
        induction candidates with
        | nil => rfl
        | cons candidate candidates inner =>
          obtain ⟨isWrapped, covers⟩ :=
            areInside candidate mem_cons_self
          have covered : ∃ span ∈ taken.spans,
              span.Covers candidate.span.start :=
            ⟨blockSpan place, done place mem_cons_self isOwn
              isWrapped, covers⟩
          rw [foldl_cons, takeOutside, if_pos covered]
          exact inner fun other isIn =>
            areInside other (mem_cons_of_mem candidate isIn)
      have leaves : ofKind kind (place :: places) = ofKind kind places :=
        filter_cons_of_neg (by simpa using isOwn)
      rw [skips _ (pass.foreign place mem_cons_self isOwn), leaves]
      apply ih rest restKnown ordered
      · exact fun other isIn =>
          done other (mem_cons_of_mem place isIn)
      · exact fun span isSpan other isIn =>
          free span isSpan other (mem_cons_of_mem place isIn)

theorem PassOf.foldl_take
    (pass : PassOf runtime .wrapped places candidatesAt)
    (areKnown : AllKnown runtime known places) (taken : Taken) :
    (places.flatMap candidatesAt).foldl (take known) taken =
      ⟨taken.calls ++ (ofKind .wrapped places).flatMap (blockFound runtime),
        taken.spans ++ (ofKind .wrapped places).map blockSpan⟩ := by
  induction places generalizing taken with
  | nil => simp [ofKind]
  | cons place places ih =>
    have rest : PassOf runtime .wrapped places candidatesAt :=
      ⟨fun other isIn => pass.own other (mem_cons_of_mem place isIn),
        fun other isIn =>
          pass.foreign other (mem_cons_of_mem place isIn)⟩
    have restKnown : AllKnown runtime known places := fun other isIn =>
      areKnown other (mem_cons_of_mem place isIn)
    rw [flatMap_cons, foldl_append]
    by_cases isOwn : place.2.kind = .wrapped
    · obtain ⟨nonempty, allKnown⟩ := areKnown place mem_cons_self
      have takes : ofKind .wrapped (place :: places) =
          place :: ofKind .wrapped places :=
        filter_cons_of_pos (by simpa using isOwn)
      rw [pass.own place mem_cons_self isOwn, foldl_cons, foldl_nil,
        take_place nonempty allKnown, ih rest restKnown,
        takes, flatMap_cons, map_cons]
      simp only [append_assoc, singleton_append]
    · have nothing : candidatesAt place = [] := by
        apply eq_nil_iff_forall_not_mem.mpr
        intro candidate isIn
        exact isOwn
          (pass.foreign place mem_cons_self isOwn candidate isIn).1
      have leaves : ofKind .wrapped (place :: places) =
          ofKind .wrapped places :=
        filter_cons_of_neg (by simpa using isOwn)
      rw [nothing, leaves]
      exact ih rest restKnown taken

/-! ## All the passes -/

theorem blockSpan_nonempty (place : Nat × Block) :
    (blockSpan place).start < (blockSpan place).stop := by
  have nonempty := length_pos_iff.mpr place.2.render_ne_nil
  dsimp only [blockSpan]
  omega

theorem blockSpan_apart
    (ordered : places.Pairwise fun first second =>
      (blockSpan first).stop ≤ (blockSpan second).start)
    {first second : Nat × Block} (isFirst : first ∈ places)
    (isSecond : second ∈ places) (differ : first ≠ second) :
    (blockSpan first).Apart (blockSpan second) := by
  have apart : places.Pairwise fun first second =>
      (blockSpan first).Apart (blockSpan second) :=
    ordered.imp fun stops => Or.inl stops
  have symmetric : Std.Symm fun first second : Nat × Block =>
      (blockSpan first).Apart (blockSpan second) :=
    ⟨fun _ _ isApart => isApart.symm⟩
  exact apart.forall isFirst isSecond differ

theorem takenOf_append (runtime : Runtime) (places : List (Nat × Block))
    (done : List Kind) (kind : Kind) :
    takenOf runtime places (done ++ [kind]) =
      ⟨(takenOf runtime places done).calls ++
          (ofKind kind places).flatMap (blockFound runtime),
        (takenOf runtime places done).spans ++
          (ofKind kind places).map blockSpan⟩ := by
  simp [takenOf]

/-- A later pass takes the blocks of its kind. -/
theorem PassOf.foldl_takenOf
    (pass : PassOf runtime kind places candidatesAt)
    (areKnown : AllKnown runtime known places)
    (ordered : places.Pairwise fun first second =>
      (blockSpan first).stop ≤ (blockSpan second).start)
    {done : List Kind} (isFirst : .wrapped ∈ done) (notDone : kind ∉ done) :
    (places.flatMap candidatesAt).foldl (takeOutside known)
        (takenOf runtime places done) =
      takenOf runtime places (done ++ [kind]) := by
  rw [takenOf_append]
  apply pass.foldl_takeOutside areKnown ordered
  · intro place isPlace _ isWrapped
    apply mem_flatMap.mpr
    refine ⟨.wrapped, isFirst, mem_map_of_mem ?_⟩
    exact mem_filter.mpr ⟨isPlace, decide_eq_true isWrapped⟩
  · intro span isSpan place isPlace isKind covers
    obtain ⟨earlier, isDone, isSpan⟩ := mem_flatMap.mp isSpan
    obtain ⟨other, isOther, rfl⟩ := mem_map.mp isSpan
    obtain ⟨isOther, isEarlier⟩ := mem_filter.mp isOther
    have differ : other ≠ place := by
      rintro rfl
      have same : kind = earlier :=
        isKind.symm.trans (of_decide_eq_true isEarlier)
      exact notDone (same ▸ isDone)
    have nonempty := blockSpan_nonempty place
    rcases blockSpan_apart ordered isOther isPlace differ with stops | stops
    · have := covers.2
      dsimp only [blockSpan] at *
      omega
    · have := covers.1
      dsimp only [blockSpan] at *
      omega

variable {reply : Composed}

/-- The passes take each block once. -/
theorem embedded_composed (decodes : Decodes runtime)
    (wellFormed : reply.WellFormed runtime alphabet)
    (areKnown : AllKnown runtime known reply.places) :
    embedded runtime alphabet known reply.render =
      takenOf runtime reply.places kinds := by
  have ordered := placed_ordered reply.prose.length reply.blocks
  obtain ⟨_, wrapped_, first⟩ :=
    wrapped_composed known decodes wellFormed
  obtain ⟨_, tags, second⟩ := functionTags_composed decodes wellFormed
  obtain ⟨_, elements, third⟩ :=
    attributeCalls_composed known wellFormed
  obtain ⟨_, gemma, fourth⟩ := gemmaCalls_composed wellFormed
  obtain ⟨_, fences, fifth⟩ := fencedCalls_composed wellFormed
  have start : (⟨[] ++ (ofKind .wrapped reply.places).flatMap
        (blockFound runtime),
      [] ++ (ofKind .wrapped reply.places).map blockSpan⟩ : Taken) =
        takenOf runtime reply.places [.wrapped] := by
    simp [takenOf]
  rw [embedded, laterCandidates, wrapped_, first.foldl_take areKnown, start,
    tags, elements, gemma, fences, foldl_append, foldl_append,
    foldl_append,
    second.foldl_takenOf areKnown ordered (by decide) (by decide),
    third.foldl_takenOf areKnown ordered (by decide) (by decide),
    fourth.foldl_takenOf areKnown ordered (by decide) (by decide),
    fifth.foldl_takenOf areKnown ordered (by decide) (by decide)]
  rfl

/-! ## What is cut out -/

/-- The text without its calls. -/
def Composed.bare (reply : Composed) : Text :=
  reply.prose ++ reply.blocks.flatMap Prod.snd

/-- Outside the blocks there is the prose. -/
theorem outside_blocks {blocks : List (Block × Text)} {spans : List Span}
    {position : Nat}
    (same : ∀ index, position ≤ index →
      ((∃ span ∈ spans, span.Covers index) ↔
        ∃ place ∈ placed position blocks, (blockSpan place).Covers index)) :
    Scan.outside spans position (renderBlocks blocks) =
      blocks.flatMap Prod.snd := by
  induction blocks generalizing position with
  | nil => rfl
  | cons block blocks ih =>
    have later : ∀ place ∈ placed
        (position + (block.1.render ++ block.2).length) blocks,
        position + (block.1.render.length + block.2.length) ≤ place.1 := by
      intro place isPlace
      have beyond := (mem_placed isPlace).1
      rwa [length_append] at beyond
    have dropped : Scan.outside spans position block.1.render = [] := by
      apply outside_of_covered
      intro index atLeast below
      exact (same index atLeast).mpr
        ⟨(position, block.1), mem_cons_self, atLeast, below⟩
    have kept : Scan.outside spans (position + block.1.render.length)
        block.2 = block.2 := by
      apply outside_of_uncovered
      intro span isSpan index atLeast below covers
      obtain ⟨place, isPlace, inPlace⟩ :=
        (same index (by omega)).mp ⟨span, isSpan, covers⟩
      rcases mem_cons.mp isPlace with rfl | isLater
      · have := inPlace.2
        dsimp only [blockSpan] at this
        omega
      · have beyond := later place isLater
        have := inPlace.1
        dsimp only [blockSpan] at this
        omega
    have rest : Scan.outside spans
        (position + (block.1.render ++ block.2).length)
          (renderBlocks blocks) = blocks.flatMap Prod.snd := by
      apply ih
      intro index atLeast
      rw [length_append] at atLeast
      have notFirst : ¬ (blockSpan (position, block.1)).Covers index := by
        intro covers
        have := covers.2
        dsimp only [blockSpan] at this
        omega
      rw [same index (by omega), placed, exists_mem_cons_iff]
      simp only [notFirst, false_or]
    rw [renderBlocks_cons, outside_append, rest, outside_append, dropped,
      kept, flatMap_cons, nil_append]

theorem takenOf_calls_perm (runtime : Runtime)
    (places : List (Nat × Block)) :
    (takenOf runtime places kinds).calls.Perm
      (places.flatMap (blockFound runtime)) := by
  have isPerm : (kinds.flatMap fun kind => ofKind kind places).Perm places :=
    flatMap_ofKind_perm (by decide) fun place _ => mem_kinds place.2.kind
  rw [takenOf, ← flatMap_assoc]
  exact isPerm.flatMap_right _

theorem takenOf_spans_perm (runtime : Runtime)
    (places : List (Nat × Block)) :
    (takenOf runtime places kinds).spans.Perm (places.map blockSpan) := by
  have isPerm : (kinds.flatMap fun kind => ofKind kind places).Perm places :=
    flatMap_ofKind_perm (by decide) fun place _ => mem_kinds place.2.kind
  rw [takenOf, ← map_flatMap]
  exact isPerm.map _

/-- The cut leaves the prose. -/
theorem cut_composed (runtime : Runtime) (reply : Composed) :
    cut reply.render (takenOf runtime reply.places kinds).spans =
      reply.bare := by
  have isPerm := takenOf_spans_perm runtime reply.places
  have ordered := placed_ordered reply.prose.length reply.blocks
  have apart : (takenOf runtime reply.places kinds).spans.Pairwise
      Span.Apart := by
    apply (isPerm.pairwise_iff fun apart => apart.symm).mpr
    exact List.Pairwise.map _ (fun _ _ stops => Or.inl stops) ordered
  have same : ∀ index, (∃ span ∈ (takenOf runtime reply.places kinds).spans,
      span.Covers index) ↔ ∃ place ∈ reply.places,
        (blockSpan place).Covers index := by
    intro index
    simp only [isPerm.mem_iff, mem_map, exists_exists_and_eq_and]
  have front : Scan.outside (takenOf runtime reply.places kinds).spans 0
      reply.prose = reply.prose := by
    apply outside_of_uncovered
    intro span isSpan index _ below covers
    obtain ⟨place, isPlace, inPlace⟩ := (same index).mp ⟨span, isSpan, covers⟩
    have beyond := (mem_placed isPlace).1
    have := inPlace.1
    dsimp only [blockSpan] at this
    omega
  rw [cut_of_apart apart, Composed.render, outside_append, front,
    Nat.zero_add, outside_blocks fun index _ => same index, Composed.bare]
  intro span isSpan
  obtain ⟨place, _, rfl⟩ := mem_map.mp (isPerm.mem_iff.mp isSpan)
  exact Nat.le_of_lt (blockSpan_nonempty place)

/-! ## What a reply is read as -/

/-- The calls in their order. -/
def Composed.calls (runtime : Runtime) (reply : Composed) :
    List (String × Fields) :=
  reply.blocks.flatMap fun block => block.1.calls runtime

theorem flatMap_placed (position : Nat) (blocks : List (Block × Text)) :
    (placed position blocks).map Prod.snd = blocks.map Prod.fst := by
  induction blocks generalizing position with
  | nil => rfl
  | cons block blocks ih =>
    rw [placed, map_cons, map_cons, ih]

theorem Composed.calls_perm (runtime : Runtime) (reply : Composed) :
    ((takenOf runtime reply.places kinds).calls.map fun found =>
      (found.name, found.arguments)).Perm (reply.calls runtime) := by
  have isPerm := (takenOf_calls_perm runtime reply.places).map fun found =>
    (found.name, found.arguments)
  have same : (reply.places.flatMap (blockFound runtime)).map
      (fun found => (found.name, found.arguments)) = reply.calls runtime := by
    have places : reply.places.map Prod.snd = reply.blocks.map Prod.fst :=
      flatMap_placed _ _
    calc
      _ = reply.places.flatMap fun place => place.2.calls runtime := by
        rw [map_flatMap]
        exact flatMap_congr fun place _ => blockFound_calls runtime place
      _ = (reply.places.map Prod.snd).flatMap fun block =>
            block.calls runtime := by
        rw [flatMap_map]
      _ = reply.calls runtime := by
        rw [places, flatMap_map]
        rfl
  rw [same] at isPerm
  exact isPerm

theorem Block.calls_ne_nil {block : Block}
    (wellFormed : block.WellFormed runtime alphabet) :
    block.calls runtime ≠ [] := by
  have some_ : ∀ body, (jsonCall runtime body).isSome →
      (jsonCall runtime body).toList ≠ [] := by
    intro body isSome
    obtain ⟨call, isCall⟩ := Option.isSome_iff_exists.mp isSome
    rw [isCall]
    exact cons_ne_nil _ _
  cases block with
  | wrappedJson lead body trail => exact some_ body wellFormed.1.call
  | fenced label lead body trail => exact some_ body wellFormed.1.call
  | _ => exact cons_ne_nil _ _

theorem Composed.allKnown (wellFormed : reply.WellFormed runtime alphabet)
    (areKnown : ∀ call ∈ reply.calls runtime, call.1 ∈ known) :
    AllKnown runtime known reply.places := by
  intro place isPlace
  refine ⟨Block.calls_ne_nil (wellFormed.place place isPlace), ?_⟩
  intro call isCall
  obtain ⟨_, block, isBlock, same⟩ := mem_placed isPlace
  rw [same] at isCall
  exact areKnown call (mem_flatMap.mpr ⟨block, isBlock, isCall⟩)

/-- A composed reply has just its blocks taken. -/
theorem found_composed (decodes : Decodes runtime)
    (wellFormed : reply.WellFormed runtime alphabet)
    (areKnown : ∀ call ∈ reply.calls runtime, call.1 ∈ known)
    (nonempty : reply.calls runtime ≠ []) :
    found runtime alphabet known reply.render =
      takenOf runtime reply.places kinds := by
  have taken := embedded_composed decodes wellFormed
    (reply.allKnown wellFormed areKnown)
  have holds : (takenOf runtime reply.places kinds).calls.isEmpty = false := by
    rw [isEmpty_eq_false_iff]
    intro isEmpty
    have isPerm := reply.calls_perm runtime
    rw [isEmpty] at isPerm
    exact nonempty isPerm.nil_eq.symm
  rw [found, taken, holds]
  rfl

theorem found_prose {text : Text} (decodes : Decodes runtime)
    (isPlain : plain alphabet text) :
    found runtime alphabet known text =
      take known ⟨[], []⟩ (wholeCandidate runtime text) := by
  have wellFormed : (⟨text, []⟩ : Composed).WellFormed runtime alphabet :=
    ⟨isPlain, nofun⟩
  have taken : embedded runtime alphabet known (⟨text, []⟩ : Composed).render =
      ⟨[], []⟩ :=
    embedded_composed decodes wellFormed nofun
  have shape : (⟨text, []⟩ : Composed).render = text :=
    append_nil text
  rw [shape] at taken
  rw [found, taken]
  rfl

end

end Hal0.Toolloop
