import Hal0.Registry.PullNames

/-!
# When two pulls derive different names

`disjoint_iff_apart` says which pulls share no path: their sanitised ids
differ, no staging name of one continues the id of the other, and they do not
install under the same name in the same directory.
-/

namespace Hal0.Registry.Pulls

open List

/-! ## Sanitised texts -/

theorem isEdge_of_head?_dropWhile {text : Name} {char : Char}
    (isFirst : (text.dropWhile isEdge).head? = some char) :
    isEdge char = false := by
  induction text with
  | nil => cases isFirst
  | cons first rest later =>
    cases edge : isEdge first with
    | true =>
      rw [dropWhile_cons_of_pos edge] at isFirst
      exact later isFirst
    | false =>
      rw [dropWhile_cons_of_neg (by simp [edge])] at isFirst
      obtain rfl : first = char := by simpa using isFirst
      exact edge

theorem isEdge_of_getLast?_stripEdges {text : Name} {char : Char}
    (isLast : (stripEdges text).getLast? = some char) :
    isEdge char = false := by
  rw [stripEdges, getLast?_reverse] at isLast
  exact isEdge_of_head?_dropWhile isLast

theorem isEdge_of_head?_stripEdges {text : Name} {char : Char}
    (isFirst : (stripEdges text).head? = some char) :
    isEdge char = false := by
  have shorter : stripEdges text <+: text.dropWhile isEdge := by
    rw [← reverse_suffix, stripEdges, reverse_reverse]
    exact dropWhile_suffix _
  obtain ⟨rest, whole⟩ := shorter
  have isFirstToo : (text.dropWhile isEdge).head? = some char := by
    rw [← whole, head?_append, isFirst]
    rfl
  exact isEdge_of_head?_dropWhile isFirstToo

theorem sanitiseId_edges (text : Name) :
    (∀ char, (sanitiseId text).head? = some char → isEdge char = false) ∧
    (∀ char, (sanitiseId text).getLast? = some char →
      isEdge char = false) := by
  unfold sanitiseId
  dsimp only
  split
  · constructor <;> (intro char same; cases same; decide)
  · exact ⟨fun _ => isEdge_of_head?_stripEdges,
      fun _ => isEdge_of_getLast?_stripEdges⟩

theorem sanitiseId_ne_nil (text : Name) : sanitiseId text ≠ [] := by
  unfold sanitiseId
  dsimp only
  split
  · decide
  · assumption

theorem sanitiseId_ne_tmp (text : Name) : sanitiseId text ≠ ".tmp".toList := by
  intro same
  have edge := (sanitiseId_edges text).1 '.' (by rw [same]; rfl)
  simp [isEdge] at edge

/-! ## The separator -/

/--
Of two texts before a separator, when the results are the same, the longer one
continues the shorter one by the separator and more, if it does not end with a
dash.
-/
theorem append_separator_eq {left right first second : Name}
    (rightEnds : ∀ char, right.getLast? = some char → isEdge char = false)
    (differ : left ≠ right)
    (same : left ++ "--".toList ++ first = right ++ "--".toList ++ second)
    (shorter : left.length ≤ right.length) :
    ∃ middle, right = left ++ "--".toList ++ middle ∧
      first = middle ++ "--".toList ++ second := by
  have dashes : "--".toList = ['-', '-'] := rfl
  rw [dashes, append_assoc, append_assoc] at same
  rw [dashes]
  rcases append_eq_append_iff.mp same with
    ⟨extra, rfl, later⟩ | ⟨extra, rfl, -⟩
  · match extra, later with
    | [], _ => exact absurd (append_nil left).symm differ
    | [char], later =>
      obtain rfl : '-' = char := (List.cons.inj later).1
      exact absurd (rightEnds '-' (by simp)) (by decide)
    | [char, other], later =>
      obtain rfl : '-' = other :=
        (List.cons.inj (List.cons.inj later).2).1
      exact absurd (rightEnds '-' (by simp)) (by decide)
    | char :: other :: next :: middle, later =>
      simp only [cons_append, nil_append, List.cons.injEq]
        at later
      obtain ⟨rfl, rfl, later⟩ := later
      exact ⟨next :: middle, by simp, by simpa using later⟩
  · have empty : extra = [] := by
      rw [length_append] at shorter
      exact eq_nil_of_length_eq_zero (by omega)
    rw [empty, append_nil] at differ
    exact absurd rfl differ

namespace Request

variable (layout : Layout)

/-- The request downloads the file. -/
def Fetches (request : Request) (file : Name) : Prop :=
  ∃ slot, request.fileOf layout slot = some file

/--
The id of the other pull is the id of this one, the separator and a text, with
which the file of this one begins before the file of the other.
-/
def Continues (request : Request) (file : Name) (other : Request)
    (otherFile : Name) : Prop :=
  ∃ middle,
    sanitiseId other.modelId =
      sanitiseId request.modelId ++ "--".toList ++ middle ∧
    sanitiseId file = middle ++ "--".toList ++ sanitiseId otherFile

variable {request other : Request} {otherFile : Name}

theorem Continues.stagingStem_eq {file : Name}
    (continues : request.Continues file other otherFile) :
    request.stagingStem file = other.stagingStem otherFile := by
  obtain ⟨middle, isOther, isFile⟩ := continues
  simp only [stagingStem, isOther, isFile, append_assoc]

theorem Continues.head?_eq {file : Name}
    (continues : request.Continues file other otherFile) :
    (sanitiseId other.modelId).head? = (sanitiseId request.modelId).head? := by
  obtain ⟨middle, isOther, -⟩ := continues
  rw [isOther, append_assoc, head?_append]
  cases id : sanitiseId request.modelId with
  | nil => exact absurd id (sanitiseId_ne_nil _)
  | cons char rest => rfl

theorem stagingStem_eq {file : Name}
    (differ : sanitiseId request.modelId ≠ sanitiseId other.modelId)
    (same : request.stagingStem file = other.stagingStem otherFile) :
    request.Continues file other otherFile ∨
      other.Continues otherFile request file := by
  rcases Nat.le_total (sanitiseId request.modelId).length
      (sanitiseId other.modelId).length with shorter | longer
  · exact .inl (append_separator_eq (sanitiseId_edges other.modelId).2 differ
      same shorter)
  · exact .inr (append_separator_eq (sanitiseId_edges request.modelId).2
      (Ne.symm differ) same.symm longer)

/-- The names of two pulls are kept apart. -/
structure Apart (request other : Request) : Prop where
  ids : sanitiseId request.modelId ≠ sanitiseId other.modelId
  stems : ∀ file, request.Fetches layout file →
    ∀ otherFile, other.Fetches layout otherFile →
      ¬ request.Continues file other otherFile ∧
        ¬ other.Continues otherFile request file
  installs : request.directory layout = other.directory layout →
    ∀ name, request.UsesName layout name → ¬ other.UsesName layout name

/-- The install directory is none of the job or the staging directories. -/
structure Placed (request : Request) : Prop where
  notStaging : ¬ tmpDir layout <+: request.directory layout
  notJobs : request.directory layout ≠ layout.jobs

variable {layout}

theorem directory_of_no_override (layout : Layout)
    (default : request.destOverride = none) :
    request.directory layout = layout.root ∨
      ∃ name rest, name ≠ ".tmp".toList ∧
        request.directory layout = layout.root ++ name :: rest := by
  unfold directory mainFinal finalPathForEntry
  rw [default]
  cases request.capability with
  | some capability =>
    exact .inr ⟨sanitiseId capability, [sanitiseId request.modelId],
      sanitiseId_ne_tmp _, by simp⟩
  | none =>
    cases parts : pathParts request.hfFile with
    | nil => exact .inl (by simp [finalPath, parts])
    | cons part rest =>
      exact .inr ⟨sanitiseId request.modelId, (part :: rest).dropLast,
        sanitiseId_ne_tmp _, by simp [finalPath, parts]⟩

theorem placed_of_no_override (separate : ¬ layout.root <+: layout.jobs)
    (default : request.destOverride = none) :
    request.Placed layout := by
  rcases directory_of_no_override layout default with
    isRoot | ⟨name, rest, notTmp, inRoot⟩
  · refine ⟨?_, ?_⟩
    · rw [isRoot, tmpDir]
      intro below
      have length := below.length_le
      rw [length_append, length_singleton] at length
      omega
    · rw [isRoot]
      rintro same
      exact separate (same ▸ prefix_refl _)
  · refine ⟨?_, ?_⟩
    · rw [inRoot, tmpDir]
      intro below
      have later := (prefix_append_right_inj layout.root).mp below
      exact notTmp (cons_prefix_cons.mp later).1.symm
    · rw [inRoot]
      intro same
      exact separate (same ▸ prefix_append _ _)

/-! ## Paths of two pulls -/

theorem append_singleton_inj {left right : Path} {first second : Name}
    (same : left ++ [first] = right ++ [second]) :
    left = right ∧ first = second :=
  ⟨append_inj_left' same rfl,
    singleton_inj.mp (append_inj_right' same rfl)⟩

/-- A staging file or directory of the pull. -/
def Stages (layout : Layout) (request : Request) (path : Path) : Prop :=
  (∃ file, request.Fetches layout file ∧
    (path = request.stagingPart layout file ∨
      path = request.stagingSidecar layout file)) ∨
  request.splitStagingDir layout <+: path

variable {path : Path}

/-- The paths of a pull. -/
theorem owns_iff :
    request.Owns layout path ↔
      path = request.pullJobFile layout ∨ request.Stages layout path ∨
      ∃ name, request.UsesName layout name ∧
        path = request.directory layout ++ [name] := by
  have files : (∃ slot file, request.fileOf layout slot = some file ∧
      (path = request.stagingPart layout file ∨
        path = request.stagingSidecar layout file)) ↔
      ∃ file, request.Fetches layout file ∧
        (path = request.stagingPart layout file ∨
          path = request.stagingSidecar layout file) := by
    constructor
    · rintro ⟨slot, file, known, isPath⟩
      exact ⟨file, ⟨slot, known⟩, isPath⟩
    · rintro ⟨file, ⟨slot, known⟩, isPath⟩
      exact ⟨slot, file, known, isPath⟩
  simp only [Owns, Stages, files, or_assoc]

theorem tmpDir_prefix_of_stages (staged : request.Stages layout path) :
    ∃ name rest, path = tmpDir layout ++ name :: rest := by
  rcases staged with ⟨file, -, rfl | rfl⟩ | ⟨rest, rfl⟩
  · exact ⟨_, [], rfl⟩
  · exact ⟨_, [], rfl⟩
  · exact ⟨_, rest, by rw [splitStagingDir, append_assoc]; rfl⟩

theorem not_stages_of_directory {directory : Path} {name : Name}
    (outside : ¬ tmpDir layout <+: directory) :
    ¬ request.Stages layout (directory ++ [name]) := by
  intro staged
  obtain ⟨first, rest, same⟩ := tmpDir_prefix_of_stages staged
  apply outside
  have whole : directory ++ [name] =
      (tmpDir layout ++ (first :: rest).dropLast) ++
        [(first :: rest).getLast (by simp)] := by
    rw [same, append_assoc, dropLast_append_getLast]
  rw [(append_singleton_inj whole).1]
  exact prefix_append _ _

theorem not_stages_of_splitStagingDir
    (differ : sanitiseId request.modelId ≠ sanitiseId other.modelId)
    (below : request.splitStagingDir layout <+: path) :
    ¬ other.Stages layout path := by
  obtain ⟨rest, rfl⟩ := below
  have file : ∀ ending stem : Name,
      request.splitStagingDir layout ++ rest =
        tmpDir layout ++ [stem ++ ending] →
      (∀ left right : Name, left ++ "--parts".toList ≠ right ++ ending) →
        False := by
    intro ending stem same unlike
    rw [splitStagingDir, append_assoc] at same
    have names := append_cancel_left same
    rw [singleton_append] at names
    exact unlike _ _ (List.cons.inj names).1
  rintro (⟨_, -, isPart | isSidecar⟩ | below)
  · exact file _ _ isPart fun left right same => by
      have last := congrArg getLast? same
      simp at last
  · exact file _ _ isSidecar fun left right same => by
      have last := congrArg getLast? same
      simp at last
  · have shared : request.splitStagingDir layout =
        other.splitStagingDir layout := by
      apply List.IsPrefix.eq_of_length
        (prefix_of_prefix_length_le (prefix_append _ rest) below
          (by simp [splitStagingDir]))
      simp [splitStagingDir]
    have names := (append_singleton_inj shared).2
    exact differ (append_cancel_right names)

/-- Pulls apart stage no file together. -/
theorem not_stages (apart : request.Apart layout other)
    (staged : request.Stages layout path) : ¬ other.Stages layout path := by
  intro otherStaged
  rcases staged with ⟨file, fetched, isPath⟩ | below
  · rcases otherStaged with ⟨otherFile, otherFetched, isOther⟩ | below
    · have stems : request.stagingStem file ≠ other.stagingStem otherFile := by
        intro same
        obtain ⟨first, second⟩ :=
          apart.stems file fetched otherFile otherFetched
        rcases stagingStem_eq apart.ids same with left | right
        · exact first left
        · exact second right
      rcases isPath with rfl | rfl <;> rcases isOther with same | same
      · exact stems (append_cancel_right (append_singleton_inj same).2)
      · have last := congrArg getLast? (append_singleton_inj same).2
        simp at last
      · have last := congrArg getLast? (append_singleton_inj same).2
        simp at last
      · exact stems (append_cancel_right (append_singleton_inj same).2)
    · exact not_stages_of_splitStagingDir (Ne.symm apart.ids) below
        (.inl ⟨file, fetched, isPath⟩)
  · exact not_stages_of_splitStagingDir apart.ids below otherStaged

theorem root_prefix_tmpDir (layout : Layout) :
    layout.root <+: tmpDir layout :=
  prefix_append _ _

/-- The pulls share no path. -/
def Disjoint (layout : Layout) (request other : Request) : Prop :=
  ∀ path, request.Owns layout path → ¬ other.Owns layout path

/-- Pulls apart own no path together. -/
theorem disjoint_of_apart (separate : ¬ layout.root <+: layout.jobs)
    (placed : request.Placed layout) (otherPlaced : other.Placed layout)
    (apart : request.Apart layout other) :
    Disjoint layout request other := by
  have jobsOutside : ¬ tmpDir layout <+: layout.jobs :=
    fun below => separate ((root_prefix_tmpDir layout).trans below)
  intro path owned otherOwned
  rcases owns_iff.mp owned with isJob | staged | ⟨name, used, isPath⟩
  · rcases owns_iff.mp otherOwned with isOther | staged | ⟨name, -, isOther⟩
    · have names := (append_singleton_inj (isJob.symm.trans isOther)).2
      exact apart.ids (append_cancel_right names)
    · exact not_stages_of_directory jobsOutside (isJob ▸ staged)
    · have same := (append_singleton_inj (isOther.symm.trans isJob)).1
      exact otherPlaced.notJobs same
  · rcases owns_iff.mp otherOwned with rfl | otherStaged | ⟨name, -, rfl⟩
    · exact not_stages_of_directory jobsOutside staged
    · exact not_stages apart staged otherStaged
    · exact not_stages_of_directory otherPlaced.notStaging staged
  · rcases owns_iff.mp otherOwned with isOther | staged |
      ⟨otherName, otherUsed, isOther⟩
    · have same := (append_singleton_inj (isPath.symm.trans isOther)).1
      exact placed.notJobs same
    · exact not_stages_of_directory placed.notStaging (isPath ▸ staged)
    · obtain ⟨sameDirectory, rfl⟩ :=
        append_singleton_inj (isPath.symm.trans isOther)
      exact apart.installs sameDirectory name used otherUsed

/-- And only those. -/
theorem apart_of_disjoint (disjoint : Disjoint layout request other) :
    request.Apart layout other where
  ids := by
    intro same
    refine disjoint (request.pullJobFile layout) (.inl rfl) (.inl ?_)
    rw [pullJobFile, pullJobFile, same]
  stems := by
    intro file fetched otherFile otherFetched
    have differ : request.stagingStem file ≠ other.stagingStem otherFile := by
      intro same
      refine disjoint (request.stagingPart layout file)
        (owns_iff.mpr (.inr (.inl (.inl ⟨file, fetched, .inl rfl⟩))))
        (owns_iff.mpr (.inr (.inl (.inl ⟨otherFile, otherFetched, .inl ?_⟩))))
      rw [stagingPart, stagingPart, same]
    exact ⟨fun continues => differ continues.stagingStem_eq,
      fun continues => differ continues.stagingStem_eq.symm⟩
  installs := by
    intro sameDirectory name used otherUsed
    refine disjoint (request.directory layout ++ [name])
      (owns_iff.mpr (.inr (.inr ⟨name, used, rfl⟩)))
      (owns_iff.mpr (.inr (.inr ⟨name, otherUsed, ?_⟩)))
    rw [sameDirectory]

/-- Just pulls with names of their own share no path. -/
theorem disjoint_iff_apart (separate : ¬ layout.root <+: layout.jobs)
    (placed : request.Placed layout) (otherPlaced : other.Placed layout) :
    Disjoint layout request other ↔ request.Apart layout other :=
  ⟨apart_of_disjoint, disjoint_of_apart separate placed otherPlaced⟩

end Request

end Hal0.Registry.Pulls
