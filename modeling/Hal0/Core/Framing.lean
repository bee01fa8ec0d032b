import Mathlib.Data.List.Infix

/-!
# Frames of a stream

A stream is cut into frames, each of which ends where a terminator is complete
for the first time, and the rest.  Where no terminator is complete within
another there is one such cut, and the frames of a stream do not depend on how
much of it has been seen.
-/

namespace Hal0.Framing

open List

variable {χ : Type*}

/-! ## Frames -/

/-- A terminator is at the end of the frame, and none in it before. -/
structure Frame (terminators : List (List χ)) (frame : List χ) : Prop where
  ends : ∃ terminator ∈ terminators, terminator <:+ frame
  first : ∀ terminator ∈ terminators, ¬ terminator <:+: frame.dropLast

/-- The text has no terminator in it. -/
def Open (terminators : List (List χ)) (text : List χ) : Prop :=
  ∀ terminator ∈ terminators, ¬ terminator <:+: text

/-- The frames of a stream, and the rest of it. -/
structure Cut (terminators : List (List χ)) (stream : List χ)
    (frames : List (List χ)) (rest : List χ) : Prop where
  whole : stream = frames.flatten ++ rest
  framed : ∀ frame ∈ frames, Frame terminators frame
  left : Open terminators rest

/-- No terminator is empty or complete within another. -/
structure Prompt (terminators : List (List χ)) : Prop where
  nonempty : [] ∉ terminators
  apart : ∀ first ∈ terminators, Open terminators first.dropLast

section
variable {terminators : List (List χ)} {text frame other rest left : List χ}
  {frames others : List (List χ)}

theorem prefix_dropLast (isPrefix : frame <+: other)
    (shorter : frame.length < other.length) : frame <+: other.dropLast := by
  apply prefix_of_prefix_length_le isPrefix (List.dropLast_prefix other)
  rw [length_dropLast]
  omega

/-- A text begins with one frame at most. -/
theorem Frame.unique (isFrame : Frame terminators frame)
    (isOther : Frame terminators other)
    (same : frame ++ rest = other ++ left) : frame = other := by
  have notShorter : ∀ first second firstRest secondRest : List χ,
      Frame terminators first → Frame terminators second →
        first ++ firstRest = second ++ secondRest →
          second.length ≤ first.length := by
    intro first second firstRest secondRest isFirst isSecond equal
    by_contra shorter
    have isPrefix : first <+: second :=
      prefix_of_prefix_length_le ⟨firstRest, equal⟩
        (prefix_append second secondRest) (by omega)
    obtain ⟨terminator, isIn, ends⟩ := isFirst.ends
    exact isSecond.first terminator isIn (ends.isInfix.trans
      (prefix_dropLast isPrefix (by omega)).isInfix)
  have lengths : frame.length = other.length := Nat.le_antisymm
    (notShorter other frame left rest isOther isFrame same.symm)
    (notShorter frame other rest left isFrame isOther same)
  exact (append_inj same lengths).1

theorem Open.no_frame (isOpen : Open terminators (frame ++ rest))
    (isFrame : Frame terminators frame) : False := by
  obtain ⟨terminator, isIn, ends⟩ := isFrame.ends
  exact isOpen terminator isIn
    (ends.isInfix.trans (prefix_append frame rest).isInfix)

/-- A text has one cut. -/
theorem Cut.unique (cut : Cut terminators text frames rest)
    (another : Cut terminators text others left) :
    frames = others ∧ rest = left := by
  induction frames generalizing text others with
  | nil =>
    have isRest : text = rest := cut.whole
    subst isRest
    cases others with
    | nil => exact ⟨rfl, another.whole⟩
    | cons other others =>
      have open_ := cut.left
      rw [another.whole, flatten_cons, append_assoc] at open_
      exact (open_.no_frame (another.framed other
        mem_cons_self)).elim
  | cons frame frames ih =>
    cases others with
    | nil =>
      have open_ := another.left
      have isLeft : text = left := another.whole
      rw [← isLeft, cut.whole, flatten_cons, append_assoc]
        at open_
      exact (open_.no_frame (cut.framed frame mem_cons_self)).elim
    | cons other others =>
      have same := cut.whole
      rw [another.whole, flatten_cons, flatten_cons,
        append_assoc, append_assoc] at same
      have isFrame : other = frame := Frame.unique
        (another.framed other mem_cons_self)
        (cut.framed frame mem_cons_self) same
      subst isFrame
      obtain ⟨rfl, sameRest⟩ := ih
        ⟨rfl, fun frame isIn =>
          cut.framed frame (mem_cons_of_mem _ isIn), cut.left⟩
        ⟨(append_cancel_left same).symm, fun frame isIn =>
          another.framed frame (mem_cons_of_mem _ isIn),
          another.left⟩
      exact ⟨rfl, sameRest⟩

theorem Cut.nil (isOpen : Open terminators text) :
    Cut terminators text [] text :=
  ⟨rfl, nofun, isOpen⟩

theorem Cut.append {more : List χ} (cut : Cut terminators text frames rest)
    (later : Cut terminators (rest ++ more) others left) :
    Cut terminators (text ++ more) (frames ++ others) left where
  whole := by
    rw [cut.whole, append_assoc, later.whole, flatten_append, append_assoc]
  framed := by
    intro frame isIn
    rcases mem_append.mp isIn with isEarlier | isLater
    · exact cut.framed frame isEarlier
    · exact later.framed frame isLater
  left := later.left

theorem Cut.cons (isFrame : Frame terminators frame)
    (cut : Cut terminators text frames rest) :
    Cut terminators (frame ++ text) (frame :: frames) rest where
  whole := by
    rw [cut.whole, flatten_cons, append_assoc]
  framed := by
    intro other isIn
    rcases mem_cons.mp isIn with rfl | isLater
    · exact isFrame
    · exact cut.framed other isLater
  left := cut.left

end

/-! ## Searching for the end of a frame -/

variable [DecidableEq χ]

/-- The terminator which a text begins with. -/
def terminatorAt (terminators : List (List χ)) (text : List χ) :
    Option (List χ) :=
  terminators.find? fun terminator => terminator.isPrefixOf text

/-- The text up to the end of the leftmost terminator, and what follows. -/
def search (terminators : List (List χ)) :
    List χ → Option (List χ × List χ)
  | [] => none
  | char :: rest =>
    match terminatorAt terminators (char :: rest) with
    | some terminator =>
      some (terminator, (char :: rest).drop terminator.length)
    | none => (search terminators rest).map fun found =>
      (char :: found.1, found.2)

variable {terminators : List (List χ)} {text frame rest : List χ}

theorem terminatorAt_spec {terminator : List χ}
    (isAt : terminatorAt terminators text = some terminator) :
    terminator ∈ terminators ∧ terminator <+: text :=
  ⟨mem_of_find?_eq_some isAt,
    List.isPrefixOf_iff_prefix.mp (find?_some
      (p := fun terminator : List χ => terminator.isPrefixOf text) isAt)⟩

theorem terminatorAt_eq_none :
    terminatorAt terminators text = none ↔
      ∀ terminator ∈ terminators, ¬ terminator <+: text := by
  rw [terminatorAt, find?_eq_none]
  simp only [List.isPrefixOf_iff_prefix]

/-- Where none is found there is none. -/
theorem open_of_search (prompt : Prompt terminators)
    (notFound : search terminators text = none) : Open terminators text := by
  induction text with
  | nil =>
    intro terminator isIn isInfix
    rw [infix_nil] at isInfix
    subst isInfix
    exact prompt.nonempty isIn
  | cons char text ih =>
    rw [search] at notFound
    split at notFound
    · cases notFound
    · next noneAt =>
        intro terminator isIn isInfix
        rcases infix_cons_iff.mp isInfix with isPrefix | isLater
        · exact terminatorAt_eq_none.mp noneAt terminator isIn isPrefix
        · exact ih (Option.map_eq_none_iff.mp notFound)
            terminator isIn isLater

/-- What is found is the first frame. -/
theorem frame_of_search (prompt : Prompt terminators)
    (isFound : search terminators text = some (frame, rest)) :
    text = frame ++ rest ∧ Frame terminators frame := by
  induction text generalizing frame with
  | nil => cases isFound
  | cons char text ih =>
    rw [search] at isFound
    split at isFound
    · next terminator isAt =>
        cases isFound
        obtain ⟨isIn, later, same⟩ := terminatorAt_spec isAt
        refine ⟨?_, ⟨frame, isIn, suffix_refl frame⟩,
          prompt.apart frame isIn⟩
        rw [← same, drop_left]
    · next noneAt =>
        obtain ⟨⟨inner, other⟩, isInner, same⟩ :=
          Option.map_eq_some_iff.mp isFound
        cases same
        obtain ⟨rfl, isFrame⟩ := ih isInner
        refine ⟨rfl, ?_, ?_⟩
        · obtain ⟨terminator, isIn, ends⟩ := isFrame.ends
          exact ⟨terminator, isIn, ends.trans (suffix_cons char inner)⟩
        · intro terminator isIn isInfix
          have notEmpty : inner ≠ [] := by
            rintro rfl
            obtain ⟨ending, isEnding, ends⟩ := isFrame.ends
            rw [suffix_nil] at ends
            subst ends
            exact prompt.nonempty isEnding
          rw [dropLast_cons_of_ne_nil notEmpty] at isInfix
          rcases infix_cons_iff.mp isInfix with isPrefix | isLater
          · apply terminatorAt_eq_none.mp noneAt terminator isIn
            have front : char :: inner.dropLast <+:
                char :: (inner ++ other) :=
              cons_prefix_cons.mpr ⟨rfl,
                (List.dropLast_prefix inner).trans
                  (prefix_append inner other)⟩
            exact isPrefix.trans front
          · exact isFrame.first terminator isIn isLater

/-- A frame takes something off the text. -/
theorem search_shorter (nonempty : [] ∉ terminators)
    (isFound : search terminators text = some (frame, rest)) :
    rest.length < text.length := by
  induction text generalizing frame with
  | nil => cases isFound
  | cons char text ih =>
    rw [search] at isFound
    split at isFound
    · next terminator isAt =>
        cases isFound
        have isIn := (terminatorAt_spec isAt).1
        have notEmpty : frame ≠ [] := fun isEmpty =>
          nonempty (isEmpty ▸ isIn)
        have positive := length_pos_iff.mpr notEmpty
        rw [length_drop]
        exact Nat.sub_lt (Nat.zero_lt_succ _) positive
    · obtain ⟨⟨inner, other⟩, isInner, same⟩ :=
        Option.map_eq_some_iff.mp isFound
      cases same
      exact Nat.lt_succ_of_lt (ih isInner)

/-- Every text has a cut. -/
theorem exists_cut (prompt : Prompt terminators) (stream : List χ) :
    ∃ frames rest, Cut terminators stream frames rest := by
  induction size : stream.length using Nat.strong_induction_on
    generalizing stream with
  | _ count ih =>
    cases found : search terminators stream with
    | none => exact ⟨[], stream, .nil (open_of_search prompt found)⟩
    | some parts =>
      obtain ⟨frame, rest⟩ := parts
      obtain ⟨rfl, isFrame⟩ := frame_of_search prompt found
      have shorter := search_shorter prompt.nonempty found
      obtain ⟨frames, left, cut⟩ := ih rest.length
        (by rw [← size]; exact shorter) rest rfl
      exact ⟨frame :: frames, left, cut.cons isFrame⟩

/-- The frames of two pieces: those the first completes, then the others. -/
theorem Cut.split {more : List χ} {frames : List (List χ)}
    (prompt : Prompt terminators)
    (cut : Cut terminators (text ++ more) frames rest) :
    ∃ first left later, frames = first ++ later ∧
      Cut terminators text first left ∧
      Cut terminators (left ++ more) later rest := by
  obtain ⟨first, left, isFirst⟩ := exists_cut prompt text
  obtain ⟨later, last, isLater⟩ := exists_cut prompt (left ++ more)
  obtain ⟨rfl, rfl⟩ := cut.unique (isFirst.append isLater)
  exact ⟨first, left, later, rfl, isFirst, isLater⟩

end Hal0.Framing
