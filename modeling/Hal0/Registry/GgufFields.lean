import Hal0.Registry.GgufCollects

/-!
# A header which decodes in full

The dictionary of such a header holds what the full decode gives, and its
promoted fields do not depend on the order of the pairs, as long as no key
occurs twice and the architecture is settled.
-/

namespace Hal0.Registry.Gguf

open Hal0.Cursors
open Hal0.Json (Table)
open Hal0.Latest (IsLatest isLatest_concat isLatest_cons)

/-! ## The result of a header -/

/-- A header whose pairs all decode. -/
structure WellFormed (levels : Nat) (window : Bytes) (header : Preamble)
    (pairs : List (String × Value)) (stop : Nat) : Prop where
  long : 24 ≤ window.length
  isGguf : header.magic = ggufMagic
  begins : ∃ start, preamble window 0 = .ok (header, start) ∧
    decodePairs levels window header.kvCount start = (pairs, .ok stop)

/-- What a header comes to, with the pairs which decode. -/
def Preamble.result (header : Preamble) (window : Bytes)
    (pairs : List (String × Value)) (complete : Option Nat) : Table Value :=
  promote (pairs.foldl Scan.note header.scan)
    (header.withTensors window complete
      (pairs.foldl Scan.note header.scan).out)

section

variable {levels stop : Nat} {window : Bytes} {header : Preamble}
  {pairs : List (String × Value)} {complete : Option Nat} {key : String}

theorem readHeaderBytes_of_wellFormed
    (wellFormed : WellFormed levels window header pairs stop)
    (requireComplete : Bool) :
    readHeaderBytes levels window requireComplete =
      .ok (some (header.result window pairs (some stop))) := by
  obtain ⟨start, begins, decodes⟩ := wellFormed.begins
  rw [readHeaderBytes, if_neg (Nat.not_lt.mpr wellFormed.long), parseHeader,
    begins]
  dsimp only
  rw [if_neg (not_not.mpr wellFormed.isGguf), Scan.pairs_eq, decodes, scanEnd]
  simp [Preamble.result]

theorem get_withTensors_of_ne (differs : key ≠ "tensor_names_prefix")
    (out : Table Value) :
    (header.withTensors window complete out).get key = out.get key := by
  cases complete with
  | none => rfl
  | some pos =>
    simp only [Preamble.withTensors]
    split
    · rfl
    · cases readTensorNames window pos
          (min header.tensorCount tensorNamePrefixCount) with
      | none => rfl
      | some names => exact Table.get_put_of_ne _ differs _

theorem aliases_plain : ∀ entry ∈ aliases, '.' ∉ entry.2.toList := by
  decide

theorem aliases_distinct : (aliases.map Prod.snd).Nodup := by
  decide

theorem get_promote_of_ne (differs : key ∉ aliases.map Prod.snd)
    (scan : Scan) (out : Table Value) :
    (promote scan out).get key = out.get key := by
  have first : (aliases.foldl promoteFirst out).get key = out.get key :=
    get_foldl_promoteFirst_of_ne aliases_plain differs
  rw [promote]
  cases scan.arch with
  | none => exact first
  | some arch =>
    dsimp only
    split
    · exact first
    · exact get_foldl_promoteArch_of_ne differs

theorem get_result_of_not_own (notOwn : key ∉ ownKeys) :
    (header.result window pairs complete).get key =
      (pairs.foldl Scan.note header.scan).out.get key := by
  rw [ownKeys, List.mem_append, not_or] at notOwn
  rw [Preamble.result, get_promote_of_ne notOwn.2, get_withTensors_of_ne]
  rintro rfl
  exact notOwn.1 (by decide)

theorem scan_out (header : Preamble) (pairs : List (String × Value)) :
    (pairs.foldl Scan.note header.scan).out =
      header.scan.out.putAll (collectedFrom none pairs) := by
  rw [foldl_note]
  rfl

theorem get_scan_of_not_own (notOwn : key ∉ ownKeys) :
    header.scan.out.get key = none := by
  have notVersion : key ≠ "version" := by
    rintro rfl
    exact notOwn (by decide)
  have notCount : key ≠ "tensor_count" := by
    rintro rfl
    exact notOwn (by decide)
  rw [Preamble.scan, Table.get_put_of_ne _ notCount,
    Table.get_put_of_ne _ notVersion, Table.get_empty]

theorem get_scanned_of_own (isOwn : key ∈ ownKeys) :
    (pairs.foldl Scan.note header.scan).out.get key =
      header.scan.out.get key := by
  rw [scan_out]
  exact Table.get_putAll_of_not_mem _
    (not_mem_collected (plain_of_own isOwn) none pairs)

theorem get_result_eq_some (notOwn : key ∉ ownKeys) {value : Value} :
    (header.result window pairs complete).get key = some value ↔
      IsLatest (fun pair => pair.1 = key) (collectedFrom none pairs)
        (key, value) := by
  rw [get_result_of_not_own notOwn, scan_out]
  exact Table.get_putAll_eq_some (get_scan_of_not_own notOwn)

end

/-! ## Last occurrences -/

/-- What the dictionary of a header holds of its pairs. -/
structure HoldsPairs (pairs : List (String × Value)) (out : Table Value) :
    Prop where
  last : ∀ key value, key ∉ ownKeys → (out.get key = some value ↔
    IsLatest (fun pair => pair.1 = key) (collectedFrom none pairs)
      (key, value))
  static : ∀ key value, key ∈ interestingKeysStatic →
    (out.get key = some value ↔
      IsLatest (fun pair => pair.1 = key) pairs (key, value))
  once : ∀ key value, key ∉ ownKeys → out.get key = some value →
    (pairs.map Prod.fst).count key = 1 →
      IsLatest (fun pair => pair.1 = key) pairs (key, value)

theorem isLatest_of_count {key : String} {value : Value}
    {pairs : List (String × Value)} (mem : (key, value) ∈ pairs)
    (once : (pairs.map Prod.fst).count key = 1) :
    IsLatest (fun pair => pair.1 = key) pairs (key, value) := by
  obtain ⟨earlier, later, rfl⟩ := List.append_of_mem mem
  refine ⟨earlier, later, rfl, rfl, fun other isLater same => ?_⟩
  rw [List.map_append, List.map_cons, List.count_append,
    List.count_cons_self] at once
  have : 0 < (later.map Prod.fst).count key :=
    List.count_pos_iff.mpr (same ▸ List.mem_map_of_mem isLater)
  omega

theorem not_own_of_static {key : String}
    (isStatic : key ∈ interestingKeysStatic) : key ∉ ownKeys :=
  fun isOwn => plain_of_own isOwn (dotted_of_static isStatic)

theorem holdsPairs_result (header : Preamble) (window : Bytes)
    (pairs : List (String × Value)) (complete : Option Nat) :
    HoldsPairs pairs (header.result window pairs complete) where
  last key value notOwn := get_result_eq_some notOwn
  static key value isStatic := by
    rw [get_result_eq_some (not_own_of_static isStatic)]
    exact isLatest_collectedFrom (collects_of_static isStatic) none pairs _
  once key value notOwn found once :=
    isLatest_of_count ((collectedFrom_sublist none pairs).mem
      ((get_result_eq_some notOwn).mp found).mem) once

/-! ## The order of the pairs -/

/-- The header names its architecture. -/
def Named (pairs : List (String × Value)) : Prop :=
  ∃ arch ≠ "", ("general.architecture", Value.str arch) ∈ pairs

/-- The header names none, and no promoted suffix is met twice. -/
def Anonymous (pairs : List (String × Value)) : Prop :=
  (∀ arch, ("general.architecture", Value.str arch) ∉ pairs) ∧
    ∀ entry ∈ aliases, ∀ first ∈ pairs, ∀ second ∈ pairs,
      endsWith first.1 entry.1 = true → endsWith second.1 entry.1 = true →
        first.1 = second.1

section Promoted

variable {pairs : List (String × Value)} {arch : String}

theorem archAfter_cases (pair : String × Value) (before : Option String) :
    archAfter pair.1 pair.2 before = before ∨
      ∃ text, pair = ("general.architecture", .str text) ∧
        archAfter pair.1 pair.2 before = some text := by
  obtain ⟨key, value⟩ := pair
  cases value with
  | str text =>
    by_cases isArch : key = "general.architecture"
    · exact Or.inr ⟨text, by rw [isArch], by simp [archAfter, isArch]⟩
    · exact Or.inl (archAfter_of_ne isArch _ _)
  | int _ | bool _ | float _ | list _ => exact Or.inl rfl

/-- One name is the architecture. -/
theorem archFrom_of_only {before : Option String}
    (only : ∀ text, ("general.architecture", Value.str text) ∈ pairs →
      text = arch) (settled : before = some arch ∨
        ("general.architecture", Value.str arch) ∈ pairs) :
    archFrom before pairs = some arch := by
  induction pairs generalizing before with
  | nil => exact settled.resolve_right List.not_mem_nil
  | cons pair rest ih =>
    rw [archFrom_cons]
    refine ih (fun text mem => only text (List.mem_cons_of_mem _ mem)) ?_
    rcases archAfter_cases pair before with same | ⟨text, isPair, isText⟩
    · rw [same]
      rcases settled with isBefore | mem
      · exact Or.inl isBefore
      · rcases List.mem_cons.mp mem with isFirst | mem
        · refine Or.inl ?_
          rw [← same, ← isFirst]
          simp [archAfter]
        · exact Or.inr mem
    · left
      rw [isText, only text (isPair ▸ List.mem_cons_self)]

theorem mem_collectedFrom_archKey {before : Option String}
    (only : ∀ text, ("general.architecture", Value.str text) ∈ pairs →
      text = arch) (settled : before = none ∨ before = some arch)
    {suffix : String} (isSuffix : suffix ∈ archKeySuffixes) (value : Value) :
    (archKey arch suffix, value) ∈ collectedFrom before pairs ↔
      (archKey arch suffix, value) ∈ pairs := by
  have isCollected : collects (archKey arch suffix) before = true := by
    rw [collects, Bool.or_eq_true]
    right
    rcases settled with rfl | rfl
    · exact List.any_eq_true.mpr
        ⟨suffix, isSuffix, endsWith_archKey arch suffix⟩
    · exact List.any_eq_true.mpr ⟨suffix, isSuffix, by simp⟩
  induction pairs generalizing before with
  | nil => rfl
  | cons pair rest ih =>
    have onlyRest := fun text mem =>
      only text (List.mem_cons_of_mem pair mem)
    rw [collectedFrom, List.mem_cons]
    split
    · rw [List.mem_cons]
      refine or_congr_right ?_
      rcases archAfter_cases pair before with same | ⟨text, isPair, isText⟩
      · rw [same]
        exact ih onlyRest settled isCollected
      · have isArch := only text (isPair ▸ List.mem_cons_self)
        rw [isText, isArch]
        refine ih onlyRest (Or.inr rfl) ?_
        rw [collects, Bool.or_eq_true]
        exact Or.inr (List.any_eq_true.mpr ⟨suffix, isSuffix, by simp⟩)
    · next isPassed =>
        refine (ih onlyRest settled isCollected).trans
          ⟨Or.inr, fun mem => mem.resolve_left ?_⟩
        rintro rfl
        exact isPassed isCollected

theorem mem_collectedFrom_none
    (noArch : ∀ text, ("general.architecture", Value.str text) ∉ pairs)
    (pair : String × Value) :
    pair ∈ collectedFrom none pairs ↔
      pair ∈ pairs ∧ collects pair.1 none = true := by
  induction pairs with
  | nil => simp [collectedFrom]
  | cons first rest ih =>
    have noneLater := fun text mem =>
      noArch text (List.mem_cons_of_mem first mem)
    have stays : archAfter first.1 first.2 none = none := by
      rcases archAfter_cases first none with same | ⟨text, isPair, _⟩
      · exact same
      · exact absurd (isPair ▸ List.mem_cons_self) (noArch text)
    rw [collectedFrom, stays]
    have later := ih noneLater
    split
    · next isCollected =>
        rw [List.mem_cons, List.mem_cons, later]
        constructor
        · rintro (rfl | ⟨mem, isKept⟩)
          · exact ⟨Or.inl rfl, isCollected⟩
          · exact ⟨Or.inr mem, isKept⟩
        · rintro ⟨rfl | mem, isKept⟩
          · exact Or.inl rfl
          · exact Or.inr ⟨mem, isKept⟩
    · next isPassed =>
        rw [later, List.mem_cons]
        constructor
        · rintro ⟨mem, isKept⟩
          exact ⟨Or.inr mem, isKept⟩
        · rintro ⟨rfl | mem, isKept⟩
          · exact absurd isKept isPassed
          · exact ⟨mem, isKept⟩

theorem archFrom_of_none
    (noArch : ∀ text, ("general.architecture", Value.str text) ∉ pairs) :
    archFrom none pairs = none := by
  induction pairs with
  | nil => rfl
  | cons first rest ih =>
    rw [archFrom_cons]
    rcases archAfter_cases first none with same | ⟨text, isPair, _⟩
    · rw [same]
      exact ih fun text mem => noArch text (List.mem_cons_of_mem first mem)
    · exact absurd (isPair ▸ List.mem_cons_self) (noArch text)

variable {header : Preamble} {window : Bytes} {complete : Option Nat}
  {entry : String × String}

theorem own_of_alias (isAlias : entry ∈ aliases) : entry.2 ∈ ownKeys :=
  List.mem_append_right _ (List.mem_map_of_mem isAlias)

theorem get_alias_before (isAlias : entry ∈ aliases) :
    (header.withTensors window complete
      (pairs.foldl Scan.note header.scan).out).get entry.2 = none := by
  have others : ∀ entry ∈ aliases, entry.2 ≠ "tensor_names_prefix" ∧
      entry.2 ≠ "tensor_count" ∧ entry.2 ≠ "version" := by decide
  obtain ⟨notNames, notCount, notVersion⟩ := others entry isAlias
  rw [get_withTensors_of_ne notNames,
    get_scanned_of_own (own_of_alias isAlias), Preamble.scan,
    Table.get_put_of_ne _ notCount, Table.get_put_of_ne _ notVersion,
    Table.get_empty]

theorem not_own_archKey (arch suffix : String) :
    archKey arch suffix ∉ ownKeys :=
  fun isOwn => plain_of_own isOwn (dotted_archKey arch suffix)

theorem get_result_alias (isArch : archFrom none pairs = some arch)
    (nonempty : arch ≠ "") (isAlias : entry ∈ aliases) :
    (header.result window pairs complete).get entry.2 =
      (header.result window pairs complete).get (archKey arch entry.1) := by
  have notAlias : archKey arch entry.1 ∉ aliases.map Prod.snd :=
    fun isIn => not_own_archKey arch entry.1 (List.mem_append_right _ isIn)
  have scanned : (pairs.foldl Scan.note header.scan).arch = some arch := by
    rw [foldl_note]
    exact isArch
  rw [Preamble.result, get_promote_of_ne notAlias, promote, scanned]
  dsimp only
  rw [if_neg nonempty, get_foldl_promoteArch aliases_plain aliases_distinct
    isAlias, get_alias_before isAlias, Option.or_none]

theorem firstOf_withTensors (out : Table Value)
    (isNew : out.get "tensor_names_prefix" = none) (suffix : String) :
    firstOf (header.withTensors window complete out) suffix =
      firstOf out suffix := by
  cases complete with
  | none => rfl
  | some pos =>
    simp only [Preamble.withTensors]
    split
    · rfl
    · cases readTensorNames window pos
          (min header.tensorCount tensorNamePrefixCount) with
      | none => rfl
      | some names => exact firstOf_put (by decide) isNew _ suffix

theorem get_tensorNames_before :
    (pairs.foldl Scan.note header.scan).out.get "tensor_names_prefix" =
      none := by
  rw [get_scanned_of_own (by decide), Preamble.scan,
    Table.get_put_of_ne _ (by decide), Table.get_put_of_ne _ (by decide),
    Table.get_empty]

theorem get_result_alias_of_unnamed
    (unnamed : ∀ arch, archFrom none pairs = some arch → arch = "")
    (isAlias : entry ∈ aliases) :
    (header.result window pairs complete).get entry.2 =
      firstOf (pairs.foldl Scan.note header.scan).out entry.1 := by
  have first : (aliases.foldl promoteFirst (header.withTensors window
      complete (pairs.foldl Scan.note header.scan).out)).get entry.2 =
        firstOf (pairs.foldl Scan.note header.scan).out entry.1 := by
    rw [get_foldl_promoteFirst aliases_plain aliases_distinct isAlias,
      get_alias_before isAlias, Option.none_or,
      firstOf_withTensors _ get_tensorNames_before]
  have scanned : (pairs.foldl Scan.note header.scan).arch =
      archFrom none pairs := by
    rw [foldl_note]
    rfl
  rw [Preamble.result, promote, scanned]
  cases isArch : archFrom none pairs with
  | none => exact first
  | some arch =>
    dsimp only
    rw [if_pos (unnamed arch isArch)]
    exact first

variable {value : Value}

/-- The one key with that ending. -/
theorem firstOf_eq_some {out : Table Value} {suffix : String}
    (unique : ∀ first second, (out.get first).isSome →
      (out.get second).isSome → endsWith first suffix = true →
        endsWith second suffix = true → first = second) :
    firstOf out suffix = some value ↔
      ∃ key, out.get key = some value ∧ endsWith key suffix = true := by
  have ending : ∀ pair, (out.entries.find? fun pair =>
      endsWith pair.1 suffix) = some pair → endsWith pair.1 suffix = true :=
    fun pair found => List.find?_some
      (p := fun pair : String × Value => endsWith pair.1 suffix) found
  rw [firstOf, Option.map_eq_some_iff]
  constructor
  · rintro ⟨pair, found, rfl⟩
    exact ⟨pair.1, Json.lookup_of_mem out.distinct
      (List.mem_of_find?_eq_some found), ending pair found⟩
  · rintro ⟨key, isIn, ends⟩
    cases found : out.entries.find? fun pair => endsWith pair.1 suffix with
    | none =>
      obtain ⟨before, after, parts, _⟩ := List.lookup_eq_some_iff.mp isIn
      have mem : (key, value) ∈ out.entries := by
        rw [parts]
        exact List.mem_append_right _ List.mem_cons_self
      exact absurd ends (List.find?_eq_none.mp found _ mem)
    | some pair =>
      have first : out.get pair.1 = some pair.2 :=
        Json.lookup_of_mem out.distinct (List.mem_of_find?_eq_some found)
      have same : pair.1 = key := unique _ _ (by rw [first]; rfl)
        (by rw [isIn]; rfl) (ending pair found) ends
      refine ⟨pair, rfl, ?_⟩
      rw [same, isIn] at first
      exact (Option.some.inj first).symm

/-! ### Pairs in another order -/

theorem isLatest_iff_mem (distinct : (pairs.map Prod.fst).Nodup)
    {key : String} :
    IsLatest (fun pair => pair.1 = key) pairs (key, value) ↔
      (key, value) ∈ pairs :=
  ⟨IsLatest.mem, fun mem => isLatest_of_count mem
    (List.count_eq_one_of_mem distinct
      (List.mem_map_of_mem (f := Prod.fst) mem))⟩

theorem get_result_iff_mem (distinct : (pairs.map Prod.fst).Nodup)
    {key : String} (notOwn : key ∉ ownKeys) :
    (header.result window pairs complete).get key = some value ↔
      (key, value) ∈ collectedFrom none pairs := by
  rw [get_result_eq_some notOwn]
  exact isLatest_iff_mem
    (distinct.sublist ((collectedFrom_sublist none pairs).map Prod.fst))

theorem archKeySuffix_of_alias (isAlias : entry ∈ aliases) :
    entry.1 ∈ archKeySuffixes := by
  have all : ∀ entry ∈ aliases, entry.1 ∈ archKeySuffixes := by decide
  exact all entry isAlias

theorem eq_of_distinct (distinct : (pairs.map Prod.fst).Nodup) {key : String}
    {other : Value} (mem : (key, value) ∈ pairs)
    (otherMem : (key, other) ∈ pairs) : other = value := by
  have same := List.inj_on_of_nodup_map distinct mem otherMem rfl
  exact (Prod.mk.inj same).2.symm

theorem get_alias_of_named (distinct : (pairs.map Prod.fst).Nodup)
    (nonempty : arch ≠ "")
    (names : ("general.architecture", Value.str arch) ∈ pairs)
    (isAlias : entry ∈ aliases) :
    (header.result window pairs complete).get entry.2 = some value ↔
      (archKey arch entry.1, value) ∈ pairs := by
  have only : ∀ text, ("general.architecture", Value.str text) ∈ pairs →
      text = arch := by
    intro text mem
    exact Value.str.inj (eq_of_distinct distinct names mem)
  rw [get_result_alias (archFrom_of_only only (Or.inr names)) nonempty
    isAlias, get_result_iff_mem distinct (not_own_archKey arch entry.1)]
  exact mem_collectedFrom_archKey only (Or.inl rfl)
    (archKeySuffix_of_alias isAlias) value

theorem get_alias_of_anonymous (distinct : (pairs.map Prod.fst).Nodup)
    (anonymous : Anonymous pairs) (isAlias : entry ∈ aliases) :
    (header.result window pairs complete).get entry.2 = some value ↔
      ∃ key, (key, value) ∈ pairs ∧ endsWith key entry.1 = true := by
  obtain ⟨noArch, single⟩ := anonymous
  have notOwn : ∀ key, endsWith key entry.1 = true → key ∉ ownKeys :=
    fun key ends isOwn => plain_of_own isOwn (dotted_of_endsWith ends)
  have isCollected : ∀ key, endsWith key entry.1 = true →
      collects key none = true := by
    intro key ends
    rw [collects, Bool.or_eq_true]
    exact Or.inr (List.any_eq_true.mpr
      ⟨entry.1, archKeySuffix_of_alias isAlias, ends⟩)
  have found : ∀ key value, endsWith key entry.1 = true →
      ((pairs.foldl Scan.note header.scan).out.get key = some value ↔
        (key, value) ∈ pairs) := by
    intro key value ends
    rw [scan_out, Table.get_putAll_eq_some
        (get_scan_of_not_own (notOwn key ends)),
      isLatest_iff_mem (distinct.sublist
        ((collectedFrom_sublist none pairs).map Prod.fst)),
      mem_collectedFrom_none noArch]
    exact ⟨And.left, fun mem => ⟨mem, isCollected key ends⟩⟩
  have unnamed : ∀ arch, archFrom none pairs = some arch → arch = "" := by
    intro arch isArch
    rw [archFrom_of_none noArch] at isArch
    cases isArch
  rw [get_result_alias_of_unnamed unnamed isAlias, firstOf_eq_some]
  · constructor
    · rintro ⟨key, isIn, ends⟩
      exact ⟨key, (found key value ends).mp isIn, ends⟩
    · rintro ⟨key, mem, ends⟩
      exact ⟨key, (found key value ends).mpr mem, ends⟩
  · intro first second isFirst isSecond firstEnds secondEnds
    obtain ⟨one, isOne⟩ := Option.isSome_iff_exists.mp isFirst
    obtain ⟨two, isTwo⟩ := Option.isSome_iff_exists.mp isSecond
    exact single entry isAlias _ ((found first one firstEnds).mp isOne) _
      ((found second two secondEnds).mp isTwo) firstEnds secondEnds

theorem get_alias_of_perm {others : List (String × Value)}
    {header' : Preamble} {window' : Bytes} {complete' : Option Nat}
    (perm : pairs.Perm others) (distinct : (pairs.map Prod.fst).Nodup)
    (settled : Named pairs ∨ Anonymous pairs) (isAlias : entry ∈ aliases) :
    (header.result window pairs complete).get entry.2 =
      (header'.result window' others complete').get entry.2 := by
  have distinct' : (others.map Prod.fst).Nodup :=
    (perm.map Prod.fst).nodup_iff.mp distinct
  ext value
  rcases settled with ⟨arch, nonempty, names⟩ | anonymous
  · rw [get_alias_of_named distinct nonempty names isAlias,
      get_alias_of_named distinct' nonempty (perm.mem_iff.mp names) isAlias,
      perm.mem_iff]
  · have anonymous' : Anonymous others :=
      ⟨fun text mem => anonymous.1 text (perm.mem_iff.mpr mem),
        fun entry isAlias first mem second mem' =>
          anonymous.2 entry isAlias first (perm.mem_iff.mpr mem) second
            (perm.mem_iff.mpr mem')⟩
    rw [get_alias_of_anonymous distinct anonymous isAlias,
      get_alias_of_anonymous distinct' anonymous' isAlias]
    simp only [perm.mem_iff]

end Promoted

/-! ## Headers against their full decode -/

/--
To pass a value ends where reading it ends and fails as it fails; so the
dictionary of a header holds what the full decode gives, and its promoted
fields do not depend on the order of the pairs.
-/
theorem header_holds_decoded :
    (∀ levels vtype window pos,
      skipValue levels vtype window pos =
        (readValue levels vtype window pos).map fun result =>
          ((), result.2)) ∧
    (∀ levels window header pairs stop requireComplete,
      WellFormed levels window header pairs stop →
        ∃ out, readHeaderBytes levels window requireComplete =
          .ok (some out) ∧ HoldsPairs pairs out) ∧
    (∀ levels window window' header header' pairs pairs' stop stop'
      requireComplete,
      WellFormed levels window header pairs stop →
      WellFormed levels window' header' pairs' stop' →
      pairs.Perm pairs' → (pairs.map Prod.fst).Nodup →
      Named pairs ∨ Anonymous pairs →
        ∃ out out',
          readHeaderBytes levels window requireComplete =
            .ok (some out) ∧
          readHeaderBytes levels window' requireComplete =
            .ok (some out') ∧
          ∀ entry ∈ aliases, out.get entry.2 = out'.get entry.2) := by
  refine ⟨?_, ?_, ?_⟩
  · intro levels vtype window pos
    rw [skipValue_eq_skim, skim, map, Cursors.bind]
    cases readValue levels vtype window pos <;> rfl
  · intro levels window header pairs stop requireComplete wellFormed
    exact ⟨_, readHeaderBytes_of_wellFormed wellFormed requireComplete,
      holdsPairs_result header window pairs _⟩
  · intro levels window window' header header' pairs pairs' stop stop'
      requireComplete wellFormed wellFormed' perm distinct settled
    exact ⟨_, _, readHeaderBytes_of_wellFormed wellFormed requireComplete,
      readHeaderBytes_of_wellFormed wellFormed' requireComplete,
      fun entry isAlias => get_alias_of_perm perm distinct settled isAlias⟩

/-! ### Headers as bytes -/

/-- A number, the least byte first. -/
def numberBytes : Nat → Nat → Bytes
  | 0, _ => []
  | size + 1, value =>
    UInt8.ofNat (value % 256) :: numberBytes size (value / 256)

/-- A text as the file has it. -/
def stringBytes (text : String) : Bytes :=
  numberBytes 8 text.toUTF8.size ++ text.toUTF8.toList

def bytePair (key : String) (value : Nat) : Bytes :=
  stringBytes key ++ numberBytes 4 0 ++ numberBytes 1 value

def textPair (key text : String) : Bytes :=
  stringBytes key ++ numberBytes 4 typeString ++ stringBytes text

/-- A header without tensors. -/
def headerBytes (pairs : List Bytes) : Bytes :=
  ggufMagic ++ numberBytes 4 3 ++ numberBytes 8 0 ++
    numberBytes 8 pairs.length ++ pairs.flatten

/-- A key of the result of a header. -/
def readKey (levels : Nat) (buf : Bytes) (key : String) : Option Value :=
  (readHeaderBytes levels buf).toOption.bind fun result =>
    result.bind fun out => out.get key

/-- A key twice, with the architecture between. -/
def straddling : Bytes :=
  headerBytes [bytePair "a.context_length" 1,
    textPair "general.architecture" "b", bytePair "a.context_length" 2]

theorem wellFormed_straddling :
    WellFormed 1 straddling ⟨ggufMagic, 3, 0, 3⟩
      [("a.context_length", .int 1), ("general.architecture", .str "b"),
        ("a.context_length", .int 2)] straddling.length where
  long := by decide
  isGguf := rfl
  begins := ⟨24, by decide +kernel, by decide +kernel⟩

theorem wellFormed_named :
    WellFormed 1 (headerBytes [textPair "general.architecture" "b",
        bytePair "b.context_length" 2]) ⟨ggufMagic, 3, 0, 2⟩
      [("general.architecture", .str "b"), ("b.context_length", .int 2)]
        94 where
  long := by decide
  isGguf := rfl
  begins := ⟨24, by decide +kernel, by decide +kernel⟩

theorem wellFormed_named_later :
    WellFormed 1 (headerBytes [bytePair "b.context_length" 2,
        textPair "general.architecture" "b"]) ⟨ggufMagic, 3, 0, 2⟩
      [("b.context_length", .int 2), ("general.architecture", .str "b")]
        94 where
  long := by decide
  isGguf := rfl
  begins := ⟨24, by decide +kernel, by decide +kernel⟩

/-- A header read across two windows. -/
theorem header_holds_decoded_named :
    (∃ out, readHeaderBytes 1 straddling false = .ok (some out) ∧
      HoldsPairs [("a.context_length", .int 1),
        ("general.architecture", .str "b"), ("a.context_length", .int 2)]
          out) ∧
    ∃ out out',
      readHeaderBytes 1 (headerBytes [textPair "general.architecture" "b",
        bytePair "b.context_length" 2]) false = .ok (some out) ∧
      readHeaderBytes 1 (headerBytes [bytePair "b.context_length" 2,
        textPair "general.architecture" "b"]) false = .ok (some out') ∧
      ∀ entry ∈ aliases, out.get entry.2 = out'.get entry.2 :=
  ⟨header_holds_decoded.2.1 1 straddling _ _ _ false wellFormed_straddling,
    header_holds_decoded.2.2 1 _ _ _ _ _ _ _ _ false wellFormed_named
      wellFormed_named_later (.swap _ _ _) (by decide)
        (Or.inl ⟨"b", by decide, List.mem_cons_self⟩)⟩

/--
A key which is met again after the architecture keeps the value it had before;
and without an architecture the first of two keys is promoted.
-/
theorem straddling_keeps_first :
    (WellFormed 1 straddling ⟨ggufMagic, 3, 0, 3⟩
      [("a.context_length", .int 1), ("general.architecture", .str "b"),
        ("a.context_length", .int 2)] straddling.length ∧
      readKey 1 straddling "a.context_length" = some (.int 1)) ∧
    readKey 1 (headerBytes [bytePair "a.context_length" 1,
      bytePair "b.context_length" 2]) "context_length" = some (.int 1) ∧
    readKey 1 (headerBytes [bytePair "b.context_length" 2,
      bytePair "a.context_length" 1]) "context_length" = some (.int 2) :=
  ⟨⟨wellFormed_straddling, by decide +kernel⟩, by decide +kernel,
    by decide +kernel⟩

end Hal0.Registry.Gguf
