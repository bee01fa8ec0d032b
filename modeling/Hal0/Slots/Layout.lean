import Hal0.Slots.ConfigDirectory
import Mathlib.Data.List.Nodup

/-!
# Which file is a slot

The slots directory holds a file for each slot, under the slot's name or under
its id, and several readers find the file of a slot by its display name.
`resolve_slot_stem` takes a file of that stem first, and then the first file
which embeds the name.  `_iter_configured_slots` lists each file under one
name, an id-keyed one under its embedded name and a name-keyed one under its
stem, and skips the files which `shadowed_slot_files` reports.

Here a file may be unreadable or no UTF-8, and the values under `name` may be
of any type.  The listed files exist, and a display name can be a file's stem.
-/

namespace Hal0.Slots.Layout

open List
open Hal0.Slots.ConfigFiles (Stem isIdStem)

/-! ## Slot files -/

/-- A TOML value; of one which is no string, `bool(..)` and `str(..)`. -/
inductive NameValue where
  | text (name : String)
  | other (truthy : Bool) (rendered : String)
deriving DecidableEq

namespace NameValue

def truthy : NameValue → Bool
  | .text name => name ≠ ""
  | .other truthy _ => truthy

def rendered : NameValue → String
  | .text name => name
  | .other _ rendered => rendered

def string? : NameValue → Option String
  | .text name => some name
  | .other _ _ => none

end NameValue

/-- The value of the root `name`, and of `name` in the table `[slot]`. -/
structure Content where
  root : Option NameValue
  nested : Option NameValue
deriving DecidableEq

/--
A file which cannot be opened or is no TOML; one on which the parser fails
with another error, as on text which is not UTF-8; and any other.
-/
inductive SlotFile (Content : Type) where
  | unreadable
  | undecodable
  | parsed (content : Content)
deriving DecidableEq

namespace SlotFile

variable {Content : Type}

def content? : SlotFile Content → Option Content
  | .parsed content => some content
  | .unreadable | .undecodable => none

def decodes : SlotFile Content → Bool
  | .undecodable => false
  | .unreadable | .parsed _ => true

end SlotFile

/-- `<stem>.toml` is the name of one file, which has at most 255 bytes. -/
def isFileStem (text : String) : Bool :=
  '/' ∉ text.toList && text.utf8ByteSize ≤ 250

/-- The files `*.toml`, in the order of `sorted(d.glob(..))`. -/
structure Directory where
  files : List (Stem × SlotFile Content)
  ordered : files.Pairwise fun first second =>
    first.1 ++ ".toml" < second.1 ++ ".toml"
  named : ∀ file ∈ files, isFileStem file.1 = true

/-- `p.name.startswith(".")` -/
def hidden (stem : Stem) : Bool :=
  stem = "" || stem.toList.head? = some '.'

namespace Directory

def stems (dir : Directory) : List Stem := dir.files.map Prod.fst

/-- The files which are not hidden. -/
def visible (dir : Directory) : List (Stem × SlotFile Content) :=
  dir.files.filter fun file => !hidden file.1

/-- No visible file raises when it is read. -/
def decodes (dir : Directory) : Bool :=
  dir.visible.all fun file => file.2.decodes

end Directory

/-! ## The readers of the layout -/

/-- The string `read_slot_display_name` considers. -/
def candidateName (content : Content) : Option String :=
  match content.root.bind NameValue.string? with
  | some name => some name
  | none => content.nested.bind NameValue.string?

/-- The display name which is read from a file, if one is. -/
def shownName (file : SlotFile Content) : Option String :=
  (file.content?.bind candidateName).filter
    fun name => name ≠ "" && !isIdStem name

/-- `read_slot_display_name`; `none` is a `UnicodeDecodeError`. -/
def readSlotDisplayName (file : SlotFile Content) : Option (Option String) :=
  if file.decodes then some (shownName file) else none

/-- The stem of the first file with the display name. -/
def stemByName (dir : Directory) (name : String) : Option Stem :=
  (dir.visible.find? fun file =>
    shownName file.2 = some name).map Prod.fst

/--
`resolve_slot_stem` of a key which can be a stem; `none` is the error of
`slot_stems_by_name`, which reads every visible file.
-/
def resolveSlotStem (dir : Directory) (key : String) : Option (Option Stem) :=
  if key = "" then some none
  else if key ∈ dir.stems then some (some key)
  else if dir.decodes then some (stemByName dir key)
  else none

/-- The name under which `shadowed_slot_files` groups a file. -/
def groupName (file : Stem × SlotFile Content) : Option String :=
  match shownName file.2 with
  | some name => some name
  | none => if isIdStem file.1 then none else some file.1

/-- The files of one name. -/
def group (dir : Directory) (name : String) : List (Stem × SlotFile Content) :=
  dir.visible.filter fun file => groupName file = some name

/-- The first id-keyed file of the group, or else the first one. -/
def winner (dir : Directory) (name : String) :
    Option (Stem × SlotFile Content) :=
  match (group dir name).find? fun file => isIdStem file.1 with
  | some file => some file
  | none => (group dir name).head?

/-- The keys of `shadowed_slot_files`. -/
def isShadowed (dir : Directory) (file : Stem × SlotFile Content) : Bool :=
  match groupName file with
  | none => false
  | some name => (winner dir name).map Prod.fst ≠ some file.1

/-! ## The enumeration of the manager -/

/-- The identity store as the manager asks it, and `str.isdigit`. -/
structure Manager where
  identityName : Nat → Option String
  peekKey : String → Option Int
  isDigitChar : Char → Bool

namespace Manager

/-- `text.isdigit()` -/
def isDigit (manager : Manager) (text : String) : Bool :=
  text ≠ "" && text.toList.all manager.isDigitChar

/-- `int(stem)` -/
def slotId (stem : Stem) : Nat :=
  stem.toList.foldl (fun value char => 10 * value + (char.toNat - 48)) 0

/-- The first of three names which is truthy, as a string. -/
def takenName (manager : Manager) (stem : Stem) (file : SlotFile Content) :
    Option String :=
  let nested := (file.content?.bind Content.nested).filter NameValue.truthy
  let root := (file.content?.bind Content.root).filter NameValue.truthy
  let identity := (manager.identityName (slotId stem)).filter (· ≠ "")
  match nested.or root with
  | some value => some value.rendered
  | none => identity

/-- The name which the manager recovers for an id-keyed file. -/
def recoveredName (manager : Manager) (stem : Stem)
    (file : SlotFile Content) : Option String :=
  (manager.takenName stem file).filter fun name => !manager.isDigit name

/-- `_slot_name_from_id_toml`; `none` is a `UnicodeDecodeError`. -/
def slotNameFromIdToml (manager : Manager) (stem : Stem)
    (file : SlotFile Content) : Option (Option String) :=
  if file.decodes then some (manager.recoveredName stem file) else none

/-- The name under which a file is listed. -/
def listedName (manager : Manager) (file : Stem × SlotFile Content) :
    Option String :=
  if isIdStem file.1 then manager.recoveredName file.1 file.2
  else some file.1

/-- The id with which a file is listed. -/
def listedId (manager : Manager) (stem : Stem) : Option Int :=
  if isIdStem stem then some (slotId stem)
  else (manager.peekKey stem).filter (1 ≤ ·)

/--
`_iter_configured_slots`; `none` when a file raises, and when the assertion
fails that a name-keyed file has no stem of digits.
-/
def iterConfiguredSlots (manager : Manager) (dir : Directory) :
    Option (List (Option Int × String × Stem)) :=
  let kept := dir.visible.filter fun file => !isShadowed dir file
  if !dir.decodes then none
  else if kept.any fun file => !isIdStem file.1 && manager.isDigit file.1 then
    none
  else some (kept.filterMap fun file =>
    (manager.listedName file).map fun name =>
      (manager.listedId file.1, name, file.1))

end Manager

/-! ## Agreement -/

/-- The manager lists the file `stem` under `name`. -/
def Lists (listed : List (Option Int × String × Stem)) (name : String)
    (stem : Stem) : Prop :=
  ∃ id, (id, name, stem) ∈ listed

/-- A name that a slot can be asked by. -/
structure IsDisplayName (name : String) : Prop where
  nonempty : name ≠ ""
  notId : isIdStem name = false
  fits : isFileStem name = true

/--
For every display name the layout finds the file which the manager lists, no
shadowed one; and both read the same name from an id-keyed file.
-/
structure Agree (manager : Manager) (dir : Directory) : Prop where
  found : ∃ listed, manager.iterConfiguredSlots dir = some listed ∧
    ∀ name stem, IsDisplayName name →
      (resolveSlotStem dir name = some (some stem) ↔ Lists listed name stem)
  unshadowed : ∀ name stem file, IsDisplayName name →
    resolveSlotStem dir name = some (some stem) →
    (stem, file) ∈ dir.visible → isShadowed dir (stem, file) = false
  named : ∀ stem file, (stem, file) ∈ dir.visible → isIdStem stem = true →
    readSlotDisplayName file = manager.slotNameFromIdToml stem file

/-- The names of an id-keyed file fit together. -/
def OneName (manager : Manager) (stem : Stem) (file : SlotFile Content) : Prop :=
  match (file.content?.bind candidateName).filter
      fun name => name ≠ "" && !isIdStem name with
  | some name =>
    manager.takenName stem file = some name ∧
      manager.isDigit name = false
  | none => ∀ name, manager.takenName stem file = some name →
      manager.isDigit name = true

/--
A tidy directory: no file on which a reader raises, no hidden slot file, no
stem of other digits, no name which a name-keyed file shares with another one,
no embedded name which misses or hits a stem, and id-keyed files with one name.
-/
structure Tidy (manager : Manager) (dir : Directory) : Prop where
  decodes : dir.decodes = true
  plain : ∀ stem ∈ dir.stems, hidden stem = true → stem = ""
  spelled : ∀ stem file, (stem, file) ∈ dir.visible →
    isIdStem stem = false → manager.isDigit stem = false
  alone : ∀ first second, first ∈ dir.visible → second ∈ dir.visible →
    ∀ name, groupName first = some name → groupName second = some name →
      first ≠ second → isIdStem first.1 = true
  embedded : ∀ stem file, (stem, file) ∈ dir.visible →
    isIdStem stem = false → ∀ name, IsDisplayName name →
      shownName file = some name → name ∈ dir.stems
  apart : ∀ stem file, (stem, file) ∈ dir.visible →
    isIdStem stem = true → ∀ name, shownName file = some name →
      name ∉ dir.stems
  oneName : ∀ stem file, (stem, file) ∈ dir.visible →
    isIdStem stem = true → OneName manager stem file

/-! ## The directory -/

theorem Directory.distinct (dir : Directory) : dir.stems.Nodup := by
  rw [Directory.stems, List.Nodup, pairwise_map]
  refine dir.ordered.imp ?_
  intro first second before same
  rw [same] at before
  exact lt_irrefl _ before

variable {dir : Directory} {file : Stem × SlotFile Content}

theorem mem_visible :
    file ∈ dir.visible ↔ file ∈ dir.files ∧ hidden file.1 = false := by
  simp [Directory.visible]

variable {stem : Stem}

theorem mem_stems_of_visible {file : SlotFile Content}
    (listed : (stem, file) ∈ dir.visible) :
    stem ∈ dir.stems :=
  mem_map_of_mem (mem_visible.mp listed).1

theorem visible_inj {first second : Stem × SlotFile Content}
    (firstListed : first ∈ dir.visible) (secondListed : second ∈ dir.visible)
    (same : first.1 = second.1) : first = second :=
  inj_on_of_nodup_map dir.distinct (mem_visible.mp firstListed).1
    (mem_visible.mp secondListed).1 same

theorem isDisplayName_of_visible {file : SlotFile Content}
    (listed : (stem, file) ∈ dir.visible)
    (nameKeyed : isIdStem stem = false) : IsDisplayName stem := by
  refine ⟨?_, nameKeyed, dir.named _ (mem_visible.mp listed).1⟩
  rintro rfl
  simpa [hidden] using (mem_visible.mp listed).2

variable {name : String}

theorem isDisplayName_of_read {file : SlotFile Content}
    (read : shownName file = some name) (fits : isFileStem name = true) :
    IsDisplayName name := by
  have passes := (Option.filter_eq_some_iff.mp read).2
  simp only [ne_eq, decide_not, Bool.and_eq_true, Bool.not_eq_true',
    decide_eq_false_iff_not] at passes
  exact ⟨passes.1, passes.2, fits⟩

theorem isFileStem_of_mem (listed : name ∈ dir.stems) :
    isFileStem name = true := by
  obtain ⟨file, isFile, rfl⟩ := mem_map.mp listed
  exact dir.named file isFile

theorem resolveSlotStem_of_mem (isName : IsDisplayName name)
    (listed : name ∈ dir.stems) :
    resolveSlotStem dir name = some (some name) := by
  simp [resolveSlotStem, isName.1, listed]

theorem resolveSlotStem_of_not_mem (decodes : dir.decodes = true)
    (isName : IsDisplayName name) (missing : name ∉ dir.stems) :
    resolveSlotStem dir name = some (stemByName dir name) := by
  simp [resolveSlotStem, isName.1, missing, decodes]

theorem decodes_of_visible (decodes : dir.decodes = true)
    (listed : file ∈ dir.visible) : file.2.decodes = true :=
  all_eq_true.mp decodes file listed

theorem readSlotDisplayName_of_decodes {file : SlotFile Content}
    (decodes : file.decodes = true) :
    readSlotDisplayName file = some (shownName file) := if_pos decodes

theorem slotNameFromIdToml_of_decodes {manager : Manager}
    {file : SlotFile Content} (decodes : file.decodes = true) :
    manager.slotNameFromIdToml stem file =
      some (manager.recoveredName stem file) := if_pos decodes

/-! ## Groups -/

theorem groupName_eq_some :
    groupName file = some name ↔
      shownName file.2 = some name ∨
        (shownName file.2 = none ∧ isIdStem file.1 = false ∧
          file.1 = name) := by
  unfold groupName
  cases read : shownName file.2 with
  | some embedded => simp
  | none => cases isIdStem file.1 <;> simp

theorem mem_group :
    file ∈ group dir name ↔
      file ∈ dir.visible ∧ groupName file = some name := by
  simp [group]

theorem winner_mem (wins : winner dir name = some file) :
    file ∈ group dir name := by
  unfold winner at wins
  split at wins
  · next found =>
      cases wins
      exact mem_of_find?_eq_some found
  · exact mem_of_head? wins

theorem winner_isId (listed : file ∈ group dir name)
    (idKeyed : isIdStem file.1 = true) :
    ∃ best, winner dir name = some best ∧ isIdStem best.1 = true := by
  have found : ((group dir name).find? fun file =>
      isIdStem file.1).isSome := by
    rw [find?_isSome]
    exact ⟨file, listed, idKeyed⟩
  obtain ⟨best, isBest⟩ := Option.isSome_iff_exists.mp found
  have idKeyed : isIdStem best.1 = true := by
    simpa using find?_some isBest
  exact ⟨best, by simp [winner, isBest], idKeyed⟩

/-- The file which counts of its name. -/
theorem isShadowed_eq_false (listed : file ∈ dir.visible) :
    isShadowed dir file = false ↔
      ∀ name, groupName file = some name → winner dir name = some file := by
  unfold isShadowed
  cases isGroup : groupName file with
  | none => simp
  | some name =>
    simp only [decide_eq_false_iff_not, ne_eq, not_not, Option.some.injEq,
      forall_eq']
    constructor
    · intro wins
      obtain ⟨best, isBest, same⟩ := Option.map_eq_some_iff.mp wins
      have inGroup := mem_group.mp (winner_mem isBest)
      rw [isBest, visible_inj inGroup.1 listed same]
    · intro wins
      rw [wins]
      rfl

/-! ## The list -/

variable {manager : Manager}

/-- No visible file raises, and no listed file has a stem of other digits. -/
theorem iter_eq_some {listed : List (Option Int × String × Stem)}
    (isListed : manager.iterConfiguredSlots dir = some listed) :
    dir.decodes = true ∧
      (∀ file ∈ dir.visible.filter fun file => !isShadowed dir file,
        (!isIdStem file.1 && manager.isDigit file.1) = false) ∧
      listed = (dir.visible.filter fun file => !isShadowed dir file).filterMap
        fun file => (manager.listedName file).map fun name =>
          (manager.listedId file.1, name, file.1) := by
  unfold Manager.iterConfiguredSlots at isListed
  dsimp only at isListed
  split at isListed
  · cases isListed
  · next decodes =>
      split at isListed
      · cases isListed
      · next passes =>
          simp only [Bool.not_eq_true, any_eq_false] at passes
          refine ⟨by simpa using decodes, fun file kept => ?_,
            (Option.some.inj isListed).symm⟩
          simpa using passes file kept

/-- What is enumerated. -/
theorem lists_iff {listed : List (Option Int × String × Stem)}
    (isListed : manager.iterConfiguredSlots dir = some listed) :
    Lists listed name stem ↔
      ∃ file, (stem, file) ∈ dir.visible ∧
        isShadowed dir (stem, file) = false ∧
        manager.listedName (stem, file) = some name := by
  obtain ⟨-, -, rfl⟩ := iter_eq_some isListed
  constructor
  · rintro ⟨id, inList⟩
    obtain ⟨⟨other, file⟩, kept, entry⟩ := mem_filterMap.mp inList
    obtain ⟨visible, unshadowed⟩ := mem_filter.mp kept
    obtain ⟨found, isFound, same⟩ := Option.map_eq_some_iff.mp entry
    cases same
    exact ⟨file, visible, by simpa using unshadowed, isFound⟩
  · rintro ⟨file, visible, unshadowed, isFound⟩
    refine ⟨manager.listedId stem, mem_filterMap.mpr
      ⟨(stem, file), mem_filter.mpr ⟨visible, by simp [unshadowed]⟩,
        ?_⟩⟩
    simp [isFound]

theorem not_isDigit_of_iter {listed : List (Option Int × String × Stem)}
    (isListed : manager.iterConfiguredSlots dir = some listed)
    {file : SlotFile Content} (visible : (stem, file) ∈ dir.visible)
    (unshadowed : isShadowed dir (stem, file) = false)
    (nameKeyed : isIdStem stem = false) : manager.isDigit stem = false := by
  obtain ⟨-, passes, -⟩ := iter_eq_some isListed
  have here := passes (stem, file)
    (mem_filter.mpr ⟨visible, by simp [unshadowed]⟩)
  simpa [nameKeyed] using here

theorem iter_isSome (decodes : dir.decodes = true)
    (spelled : ∀ stem file, (stem, file) ∈ dir.visible →
      isIdStem stem = false → manager.isDigit stem = false) :
    ∃ listed, manager.iterConfiguredSlots dir = some listed := by
  unfold Manager.iterConfiguredSlots
  dsimp only
  rw [if_neg (by simp [decodes]), if_neg]
  · exact ⟨_, rfl⟩
  · simp only [Bool.not_eq_true, any_eq_false]
    rintro ⟨stem, file⟩ kept
    have visible := (mem_filter.mp kept).1
    cases keyed : isIdStem stem with
    | true => simp
    | false => simp [spelled stem file visible keyed]

theorem named_iff_oneName {file : SlotFile Content} :
    shownName file = manager.recoveredName stem file ↔
      OneName manager stem file := by
  unfold OneName Manager.recoveredName shownName
  cases read : (file.content?.bind candidateName).filter
      fun name => name ≠ "" && !isIdStem name with
  | some name =>
    dsimp only
    constructor
    · intro same
      obtain ⟨taken, passes⟩ := Option.filter_eq_some_iff.mp same.symm
      exact ⟨taken, by simpa using passes⟩
    · rintro ⟨taken, spelled⟩
      rw [taken, Option.filter_some, if_pos (by simp [spelled])]
  | none =>
    dsimp only
    constructor
    · intro same name taken
      rw [taken, Option.filter_some] at same
      simpa using same
    · intro digits
      cases taken : manager.takenName stem file with
      | none => rfl
      | some name =>
        rw [Option.filter_some, if_neg (by simp [digits name taken])]

/-! ## Agreeing readers leave a tidy directory -/

namespace Agree

variable {manager : Manager} {dir : Directory} {stem : Stem}
  {file : SlotFile Content}

variable {name : String}

section

variable (agree : Agree manager dir)
include agree

theorem decodes : dir.decodes = true := by
  obtain ⟨listed, isListed, -⟩ := agree.found
  exact (iter_eq_some isListed).1

theorem shownName_eq (visible : (stem, file) ∈ dir.visible)
    (idKeyed : isIdStem stem = true) :
    shownName file = manager.recoveredName stem file := by
  have decodes := decodes_of_visible agree.decodes visible
  have same := agree.named stem file visible idKeyed
  rw [readSlotDisplayName_of_decodes decodes,
    slotNameFromIdToml_of_decodes decodes] at same
  exact Option.some.inj same

theorem unshadowed_of_mem (isName : IsDisplayName name)
    (known : name ∈ dir.stems) :
    ∃ file, (name, file) ∈ dir.visible ∧
      isShadowed dir (name, file) = false := by
  obtain ⟨listed, isListed, same⟩ := agree.found
  have lists := (same name name isName).mp
    (resolveSlotStem_of_mem isName known)
  obtain ⟨file, visible, unshadowed, -⟩ := (lists_iff isListed).mp lists
  exact ⟨file, visible, unshadowed⟩

theorem wins (visible : (stem, file) ∈ dir.visible)
    (nameKeyed : isIdStem stem = false) :
    isShadowed dir (stem, file) = false := by
  obtain ⟨other, otherVisible, unshadowed⟩ := agree.unshadowed_of_mem
    (isDisplayName_of_visible visible nameKeyed)
    (mem_stems_of_visible visible)
  have same := visible_inj otherVisible visible rfl
  exact same ▸ unshadowed

theorem plain (known : stem ∈ dir.stems)
    (isHidden : hidden stem = true) : stem = "" := by
  by_contra nonempty
  have isName : IsDisplayName stem := by
    refine ⟨nonempty, ?_, isFileStem_of_mem known⟩
    simp only [hidden, nonempty, decide_false, Bool.false_or,
      decide_eq_true_eq] at isHidden
    unfold isIdStem
    cases chars : stem.toList with
    | nil => simp [chars] at isHidden
    | cons first rest =>
      simp only [chars, head?_cons, Option.some.injEq] at isHidden
      subst isHidden
      simp
  obtain ⟨file, visible, -⟩ := agree.unshadowed_of_mem isName known
  have shown := (mem_visible.mp visible).2
  simp [isHidden] at shown

theorem alone {first second : Stem × SlotFile Content}
    (firstVisible : first ∈ dir.visible) (secondVisible : second ∈ dir.visible)
    (firstGroup : groupName first = some name)
    (secondGroup : groupName second = some name)
    (distinct : first ≠ second) : isIdStem first.1 = true := by
  by_contra nameKeyed
  have nameKeyed : isIdStem first.1 = false := by simpa using nameKeyed
  have firstWins := (isShadowed_eq_false firstVisible).mp
    (agree.wins firstVisible nameKeyed) name firstGroup
  cases keyed : isIdStem second.1 with
  | false =>
    have secondWins := (isShadowed_eq_false secondVisible).mp
      (agree.wins secondVisible keyed) name secondGroup
    exact distinct (Option.some.inj (firstWins.symm.trans secondWins))
  | true =>
    obtain ⟨best, isBest, idKeyed⟩ := winner_isId
      (mem_group.mpr ⟨secondVisible, secondGroup⟩) keyed
    cases Option.some.inj (firstWins.symm.trans isBest)
    simp [nameKeyed] at idKeyed

theorem embedded (visible : (stem, file) ∈ dir.visible)
    (nameKeyed : isIdStem stem = false) (isName : IsDisplayName name)
    (read : shownName file = some name) : name ∈ dir.stems := by
  by_contra missing
  obtain ⟨listed, isListed, same⟩ := agree.found
  have found : (dir.visible.find? fun file =>
      shownName file.2 = some name).isSome := by
    rw [find?_isSome]
    exact ⟨(stem, file), visible, by simpa using read⟩
  obtain ⟨first, isFirst⟩ := Option.isSome_iff_exists.mp found
  have resolved : resolveSlotStem dir name = some (some first.1) := by
    rw [resolveSlotStem_of_not_mem agree.decodes isName missing, stemByName,
      isFirst]
    rfl
  obtain ⟨content, firstVisible, -, isListedName⟩ :=
    (lists_iff isListed).mp ((same name first.1 isName).mp resolved)
  unfold Manager.listedName at isListedName
  split at isListedName
  · next idKeyed =>
      have alsoRead := (agree.shownName_eq firstVisible idKeyed).trans
        isListedName
      have isId := agree.alone visible firstVisible
        (groupName_eq_some.mpr (.inl read))
        (groupName_eq_some.mpr (.inl alsoRead))
        (by
          intro equal
          have sameStem := congrArg Prod.fst equal
          dsimp only at sameStem idKeyed
          rw [← sameStem, nameKeyed] at idKeyed
          cases idKeyed)
      simp [nameKeyed] at isId
  · cases isListedName
    exact missing (mem_stems_of_visible firstVisible)

theorem apart (visible : (stem, file) ∈ dir.visible)
    (idKeyed : isIdStem stem = true)
    (read : shownName file = some name) : name ∉ dir.stems := by
  intro known
  obtain ⟨listed, isListed, same⟩ := agree.found
  have isName := isDisplayName_of_read read (isFileStem_of_mem known)
  obtain ⟨⟨best, content⟩, isBest, bestIsId⟩ := winner_isId
    (mem_group.mpr ⟨visible, groupName_eq_some.mpr (.inl read)⟩) idKeyed
  obtain ⟨bestVisible, bestGroup⟩ := mem_group.mp (winner_mem isBest)
  have bestRead : shownName content = some name := by
    rcases groupName_eq_some.mp bestGroup with embedded | ⟨-, keyed, -⟩
    · exact embedded
    · simp [keyed] at bestIsId
  have unshadowed : isShadowed dir (best, content) = false := by
    rw [isShadowed_eq_false bestVisible]
    intro other isOther
    rw [bestGroup] at isOther
    cases isOther
    exact isBest
  have isListedName : manager.listedName (best, content) = some name := by
    rw [Manager.listedName, if_pos bestIsId,
      ← agree.shownName_eq bestVisible bestIsId, bestRead]
  have resolved := (same name best isName).mpr
    ((lists_iff isListed).mpr
      ⟨content, bestVisible, unshadowed, isListedName⟩)
  rw [resolveSlotStem_of_mem isName known] at resolved
  cases resolved
  have plain := isName.notId
  simp [plain] at bestIsId

/-- Where the readers agree the directory is tidy. -/
theorem tidy : Tidy manager dir where
  decodes := agree.decodes
  plain := fun _ known isHidden => agree.plain known isHidden
  spelled := by
    intro stem file visible nameKeyed
    obtain ⟨listed, isListed, -⟩ := agree.found
    exact not_isDigit_of_iter isListed visible (agree.wins visible nameKeyed)
      nameKeyed
  alone := fun _ _ firstVisible secondVisible _ firstGroup secondGroup =>
    agree.alone firstVisible secondVisible firstGroup secondGroup
  embedded := fun _ _ visible nameKeyed _ isName =>
    agree.embedded visible nameKeyed isName
  apart := fun _ _ visible idKeyed _ => agree.apart visible idKeyed
  oneName := fun stem file visible idKeyed =>
    named_iff_oneName.mp (agree.shownName_eq visible idKeyed)

end

end Agree

/-! ## In a tidy directory the readers agree -/

namespace Tidy

variable {manager : Manager} {dir : Directory}

variable {name : String}

theorem visible_of_mem (tidy : Tidy manager dir) (isName : IsDisplayName name)
    (known : name ∈ dir.stems) :
    ∃ file, (name, file) ∈ dir.visible := by
  obtain ⟨⟨stem, file⟩, listed, rfl⟩ := mem_map.mp known
  refine ⟨file, mem_visible.mpr ⟨listed, ?_⟩⟩
  cases isHidden : hidden stem with
  | false => rfl
  | true => exact absurd (tidy.plain stem known isHidden) isName.1

theorem unshadowed (tidy : Tidy manager dir) {file : Stem × SlotFile Content}
    (visible : file ∈ dir.visible) (nameKeyed : isIdStem file.1 = false) :
    isShadowed dir file = false := by
  rw [isShadowed_eq_false visible]
  intro name isGroup
  have members : ∀ other ∈ group dir name, other = file := by
    intro other listed
    obtain ⟨otherVisible, otherGroup⟩ := mem_group.mp listed
    by_contra distinct
    have isId := tidy.alone file other visible otherVisible name isGroup
      otherGroup fun same => distinct same.symm
    simp [nameKeyed] at isId
  have noId : (group dir name).find? (fun file => isIdStem file.1) =
      none := by
    rw [find?_eq_none]
    intro other listed
    simp [members other listed, nameKeyed]
  have mine : file ∈ group dir name := mem_group.mpr ⟨visible, isGroup⟩
  cases inGroup : group dir name with
  | nil => simp [inGroup] at mine
  | cons first rest =>
    have isFirst := members first (by simp [inGroup])
    simp only [winner, noId]
    simp [inGroup, isFirst]

/-- Where no file has the stem `name`, only id-keyed files have the name. -/
theorem isId_of_read (tidy : Tidy manager dir) (isName : IsDisplayName name)
    (missing : name ∉ dir.stems)
    {file : Stem × SlotFile Content} (visible : file ∈ dir.visible)
    (read : shownName file.2 = some name) :
    isIdStem file.1 = true := by
  cases keyed : isIdStem file.1 with
  | true => rfl
  | false =>
    exact absurd
      (tidy.embedded file.1 file.2 visible keyed name isName read) missing

theorem group_eq (dir : Directory) (missing : name ∉ dir.stems) :
    group dir name = dir.visible.filter fun file =>
      shownName file.2 = some name := by
  apply filter_congr
  intro file visible
  rw [Bool.eq_iff_iff]
  simp only [decide_eq_true_eq, groupName_eq_some]
  constructor
  · rintro (read | ⟨-, -, rfl⟩)
    · exact read
    · exact absurd (mem_stems_of_visible visible) missing
  · exact .inl

theorem winner_eq (tidy : Tidy manager dir) (isName : IsDisplayName name)
    (missing : name ∉ dir.stems) :
    winner dir name = dir.visible.find? fun file =>
      shownName file.2 = some name := by
  have isId : ∀ file ∈ group dir name, isIdStem file.1 = true := by
    intro file listed
    rw [group_eq dir missing, mem_filter] at listed
    exact tidy.isId_of_read isName missing listed.1
      (by simpa using listed.2)
  rw [← head?_filter, ← group_eq dir missing]
  unfold winner
  cases inGroup : group dir name with
  | nil => rfl
  | cons first rest =>
    have firstIsId := isId first (by simp [inGroup])
    simp [firstIsId]

/-- A listed name resolves to its file. -/
theorem resolves (tidy : Tidy manager dir)
    {listed : List (Option Int × String × Stem)}
    (isListed : manager.iterConfiguredSlots dir = some listed) {stem : Stem}
    (isName : IsDisplayName name)
    (resolved : resolveSlotStem dir name = some (some stem)) :
    Lists listed name stem := by
  rw [lists_iff isListed]
  by_cases known : name ∈ dir.stems
  · rw [resolveSlotStem_of_mem isName known] at resolved
    cases resolved
    obtain ⟨file, visible⟩ := tidy.visible_of_mem isName known
    exact ⟨file, visible, tidy.unshadowed visible isName.notId,
      by simp [Manager.listedName, isName.notId]⟩
  · rw [resolveSlotStem_of_not_mem tidy.decodes isName known] at resolved
    obtain ⟨⟨first, file⟩, isFirst, rfl⟩ :=
      Option.map_eq_some_iff.mp (Option.some.inj resolved)
    have visible := mem_of_find?_eq_some isFirst
    have read : shownName file = some name := by
      simpa using find?_some isFirst
    have idKeyed := tidy.isId_of_read isName known visible read
    refine ⟨file, visible, ?_, ?_⟩
    · rw [isShadowed_eq_false visible]
      intro other isOther
      rw [groupName_eq_some.mpr (.inl read)] at isOther
      cases isOther
      rw [tidy.winner_eq isName known, isFirst]
    · rw [Manager.listedName, if_pos idKeyed, ← named_iff_oneName.mpr
        (tidy.oneName first file visible idKeyed), read]

theorem listed_resolves (tidy : Tidy manager dir)
    {listed : List (Option Int × String × Stem)}
    (isListed : manager.iterConfiguredSlots dir = some listed) {stem : Stem}
    (isName : IsDisplayName name) (lists : Lists listed name stem) :
    resolveSlotStem dir name = some (some stem) := by
  obtain ⟨file, visible, unshadowed, isListedName⟩ :=
    (lists_iff isListed).mp lists
  unfold Manager.listedName at isListedName
  split at isListedName
  · next idKeyed =>
      have read := (named_iff_oneName.mpr
        (tidy.oneName stem file visible idKeyed)).trans isListedName
      have missing := tidy.apart stem file visible idKeyed name read
      have wins := (isShadowed_eq_false visible).mp unshadowed name
        (groupName_eq_some.mpr (.inl read))
      rw [tidy.winner_eq isName missing] at wins
      rw [resolveSlotStem_of_not_mem tidy.decodes isName missing,
        stemByName, wins]
      rfl
  · cases isListedName
    exact resolveSlotStem_of_mem isName (mem_stems_of_visible visible)

/-- In a tidy directory the readers agree. -/
theorem agree (tidy : Tidy manager dir) : Agree manager dir := by
  obtain ⟨listed, isListed⟩ := iter_isSome tidy.decodes tidy.spelled
  refine ⟨⟨listed, isListed, fun name stem isName =>
    ⟨tidy.resolves isListed isName, tidy.listed_resolves isListed isName⟩⟩,
    ?_, ?_⟩
  · intro name stem file isName resolved visible
    obtain ⟨other, otherVisible, unshadowed, -⟩ :=
      (lists_iff isListed).mp (tidy.resolves isListed isName resolved)
    have same := visible_inj otherVisible visible rfl
    exact same ▸ unshadowed
  · intro stem file visible idKeyed
    have decodes := decodes_of_visible tidy.decodes visible
    rw [readSlotDisplayName_of_decodes decodes,
      slotNameFromIdToml_of_decodes decodes, named_iff_oneName.mpr
        (tidy.oneName stem file visible idKeyed)]

end Tidy

/-- The readers agree exactly in the tidy directories. -/
theorem readers_agree_iff (manager : Manager) (dir : Directory) :
    Agree manager dir ↔ Tidy manager dir :=
  ⟨Agree.tidy, Tidy.agree⟩

/-! ## A half-migrated directory -/

/-- No identity rows; the digits are those of ASCII. -/
def plainManager : Manager where
  identityName := fun _ => none
  peekKey := fun _ => none
  isDigitChar := fun char => '0' ≤ char && char ≤ '9'

/-- A stale `agent.toml` beside the `1.toml` to which it was migrated. -/
def staleAgent : Directory where
  files := [("1", .parsed ⟨some (.text "agent"), none⟩),
    ("agent", .parsed ⟨some (.text "agent"), none⟩)]
  ordered := by decide
  named := by decide

/-- The layout resolves `agent` to the file which the manager skips. -/
theorem stale_agent_splits_readers :
    resolveSlotStem staleAgent "agent" = some (some "agent") ∧
      (plainManager.iterConfiguredSlots staleAgent).map
        (·.map Prod.snd) = some [("agent", "1")] ∧
      isShadowed staleAgent
        ("agent", .parsed ⟨some (.text "agent"), none⟩) = true ∧
      ¬ Agree plainManager staleAgent := by
  refine ⟨by decide, by decide, by decide, ?_⟩
  intro agree
  have shown := agree.unshadowed "agent" "agent"
    (.parsed ⟨some (.text "agent"), none⟩)
    ⟨by decide, by decide, by decide⟩ (by decide) (by decide)
  exact absurd shown (by decide)

end Hal0.Slots.Layout
