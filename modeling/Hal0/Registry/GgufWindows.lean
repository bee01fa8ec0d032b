import Hal0.Registry.GgufFields

/-!
# Headers which are cut off

What decodes in a part of a file decodes in the whole of it, so a window which
ends too soon has the first pairs.  Later pairs may add keys, replace values,
and name the architecture; what the first pairs settle, they do not touch.
-/

namespace Hal0.Registry.Gguf

open Hal0.Cursors
open Hal0.Json (Table)
open Hal0.Latest (IsLatest isLatest_concat isLatest_cons)

/-! ## Reading a part of a window -/

theorem local_u32 : Local u32 :=
  (Local.take _ _).map

theorem local_u64 : Local u64 :=
  (Local.take _ _).map

theorem local_ggufString : Local ggufString :=
  local_u64.bind fun _ => (Local.take _ _).map.within

variable {array : Reading Failure Value}

theorem local_readScalar (isLocal : Local array) (vtype : Nat) :
    Local (readScalar vtype array) := by
  rw [readScalar]
  cases scalarFormats vtype with
  | some format => exact (Local.take _ _).map
  | none =>
    dsimp only
    split
    · exact local_ggufString.map
    · split
      · exact isLocal
      · exact Local.fail _

theorem local_readValue (levels vtype : Nat) :
    Local (readValue levels vtype) := by
  induction levels generalizing vtype with
  | zero => exact local_readScalar (Local.fail _) vtype
  | succ levels ih =>
    exact local_readScalar (local_u32.bind fun elemType =>
      local_u64.bind fun length => ((ih elemType).times length).map) vtype

theorem local_decodePair (levels : Nat) : Local (decodePair levels) :=
  local_ggufString.bind fun _ => local_u32.bind fun vtype =>
    (local_readValue levels vtype).map

theorem local_preamble : Local preamble :=
  (Local.take _ _).bind fun _ => local_u32.bind fun _ =>
    local_u64.bind fun _ => local_u64.map

theorem local_tensorName : Local tensorName := by
  refine local_ggufString.bind fun _ => local_u32.bind fun dims => ?_
  split
  · exact Local.fail _
  · rw [← skim_take]
    exact (Local.take _ _).map.map

variable {levels : Nat}

theorem decodePairs_of_part {cut whole : Bytes} (part : cut <+: whole)
    (count pos : Nat) :
    ∃ rest, (decodePairs levels whole count pos).1 =
        (decodePairs levels cut count pos).1 ++ rest ∧
      ∀ after, (decodePairs levels cut count pos).2 = .ok after →
        rest = [] ∧ (decodePairs levels whole count pos).2 = .ok after := by
  induction count generalizing pos with
  | zero => exact ⟨[], rfl, fun after done => ⟨rfl, done⟩⟩
  | succ count ih =>
    rw [decodePairs, decodePairs]
    cases first : decodePair levels cut pos with
    | error failure =>
      exact ⟨_, rfl, fun after done => by cases done⟩
    | ok pair =>
      rw [local_decodePair levels part first]
      obtain ⟨rest, isRest, complete⟩ := ih pair.2
      exact ⟨rest, congrArg (pair.1 :: ·) isRest, complete⟩

/-! ## How a parse ends -/

theorem moves_u32 : Moves 4 u32 :=
  (Moves.take _ _).map

theorem moves_u64 : Moves 8 u64 :=
  (Moves.take _ _).map

theorem moves_ggufString : Moves 8 ggufString :=
  moves_u64.bind fun _ => ((Moves.take _ _).map.within).mono (Nat.zero_le _)

theorem moves_readScalar (moves : Moves 0 array) (vtype : Nat) :
    Moves 0 (readScalar vtype array) := by
  rw [readScalar]
  cases scalarFormats vtype with
  | some format => exact (Moves.take _ _).map.mono (Nat.zero_le _)
  | none =>
    dsimp only
    split
    · exact moves_ggufString.map.mono (Nat.zero_le _)
    · split
      · exact moves
      · exact Moves.fail _ _

theorem moves_readValue (levels vtype : Nat) :
    Moves 0 (readValue levels vtype) := by
  induction levels generalizing vtype with
  | zero => exact moves_readScalar (Moves.fail _ _) vtype
  | succ levels ih =>
    exact moves_readScalar ((moves_u32.bind fun elemType =>
      moves_u64.bind fun length =>
        ((ih elemType).times length).map).mono (Nat.zero_le _)) vtype

theorem moves_decodePair (levels : Nat) : Moves 0 (decodePair levels) :=
  (moves_ggufString.bind fun _ => moves_u32.bind fun vtype =>
    (moves_readValue levels vtype).map).mono (Nat.zero_le _)

theorem never_u32 : Never .recursion u32 :=
  (Never.take (by decide) _).map

theorem never_u64 : Never .recursion u64 :=
  (Never.take (by decide) _).map

theorem never_ggufString : Never .recursion ggufString :=
  never_u64.bind fun _ =>
    (Never.take (by decide) _).map.within (by decide)

variable {window : Bytes} {pos : Nat}

theorem readScalar_ne_recursion
    (shallow : array window pos ≠ .error .recursion) (vtype : Nat) :
    readScalar vtype array window pos ≠ .error .recursion := by
  rw [readScalar]
  cases scalarFormats vtype with
  | some format => exact (Never.take (by decide) _).map window pos
  | none =>
    dsimp only
    split
    · exact never_ggufString.map window pos
    · split
      · exact shallow
      · exact Never.fail (by decide) window pos

theorem readValue_ne_recursion (inside : pos ≤ window.length)
    (enough : window.length < pos + levels) (vtype : Nat) :
    readValue levels vtype window pos ≠ .error .recursion := by
  induction levels generalizing vtype pos with
  | zero => exact absurd inside (by omega)
  | succ levels ih =>
    refine readScalar_ne_recursion ?_ vtype
    refine bind_ne_error (never_u32 window pos) fun elemType first isFirst =>
      bind_ne_error (never_u64 window first) fun length second isSecond => ?_
    obtain ⟨passes, stays⟩ := moves_u32 isFirst
    obtain ⟨passesOn, staysOn⟩ := moves_u64 isSecond
    refine bind_ne_error (times_ne_error (moves_readValue levels elemType)
      (fun later isLater isInside => ih isInside (by omega) elemType)
      (staysOn (stays inside)) length) fun _ after _ =>
        Never.pure _ window after

theorem decodePair_ne_recursion (inside : pos ≤ window.length)
    (enough : window.length < levels) :
    decodePair levels window pos ≠ .error .recursion := by
  refine bind_ne_error (never_ggufString window pos) fun key first isFirst =>
    bind_ne_error (never_u32 window first) fun vtype second isSecond => ?_
  have stays := (moves_u32 isSecond).2 ((moves_ggufString isFirst).2 inside)
  exact bind_ne_error (readValue_ne_recursion stays (by omega) vtype)
    fun _ after _ => Never.pure _ window after

theorem decodePairs_ne_recursion (inside : pos ≤ window.length)
    (enough : window.length < levels) (count : Nat) :
    (decodePairs levels window count pos).2 ≠ .error .recursion := by
  induction count generalizing pos with
  | zero => exact fun same => nomatch same
  | succ count ih =>
    have never := decodePair_ne_recursion inside enough
    rw [decodePairs]
    cases first : decodePair levels window pos with
    | error failure =>
      rw [first] at never
      simpa using never
    | ok pair => exact ih ((moves_decodePair levels first).2 inside)

/-! ## The parse of a window -/

theorem preamble_of_long (long : 24 ≤ window.length) :
    ∃ header, preamble window 0 = .ok (header, 24) := by
  have first : ¬ window.length < 0 + 4 := by omega
  have second : ¬ window.length < 4 + 4 := by omega
  have third : ¬ window.length < 8 + 8 := by omega
  have fourth : ¬ window.length < 16 + 8 := by omega
  exact ⟨_, by simp [preamble, u32, u64, map, Cursors.bind, Cursors.pure,
    take, first, second, third, fourth]; rfl⟩

/-- The pairs of a window which decode, and how they end. -/
def pairsOf (levels : Nat) (window : Bytes) :
    List (String × Value) × Except Failure Nat :=
  match preamble window 0 with
  | .ok (header, start) => decodePairs levels window header.kvCount start
  | .error failure => ([], .error failure)

/-- What a parse ends with, once the pairs are decoded. -/
def Preamble.answer (header : Preamble) (window : Bytes)
    (requireComplete : Bool) (pairs : List (String × Value)) :
    Except Failure Nat → Except Failure (Option (Table Value))
  | .ok stop => .ok (some (header.result window pairs (some stop)))
  | .error .malformed =>
    if requireComplete then .ok none
    else .ok (some (header.result window pairs none))
  | .error .recursion => .error .recursion

variable {header : Preamble}

theorem readHeaderBytes_eq (long : 24 ≤ window.length)
    (begins : preamble window 0 = .ok (header, 24)) (requireComplete : Bool) :
    readHeaderBytes levels window requireComplete =
      if header.magic = ggufMagic then
        header.answer window requireComplete (pairsOf levels window).1
          (pairsOf levels window).2
      else .ok none := by
  rw [readHeaderBytes, if_neg (Nat.not_lt.mpr long), parseHeader, pairsOf,
    begins]
  dsimp only
  by_cases isGguf : header.magic = ggufMagic
  · rw [if_neg (not_not.mpr isGguf), if_pos isGguf, Scan.pairs_eq]
    generalize decodePairs levels window header.kvCount 24 = decoded
    obtain ⟨pairs, ending⟩ := decoded
    cases ending with
    | ok stop => simp [scanEnd, Preamble.answer, Preamble.result]
    | error failure =>
      cases failure <;> simp [scanEnd, Preamble.answer, Preamble.result]
  · rw [if_pos isGguf, if_neg isGguf]

/-- Every window ends with a result. -/
theorem readHeaderBytes_ends (enough : window.length < levels)
    (requireComplete : Bool) :
    ∃ result, readHeaderBytes levels window requireComplete = .ok result := by
  by_cases long : 24 ≤ window.length
  · obtain ⟨header, begins⟩ := preamble_of_long long
    rw [readHeaderBytes_eq long begins]
    split
    · have never : (decodePairs levels window header.kvCount 24).2 ≠
          .error .recursion :=
        decodePairs_ne_recursion long enough header.kvCount
      rw [pairsOf, begins]
      dsimp only
      cases ending : (decodePairs levels window header.kvCount 24).2 with
      | ok stop => exact ⟨_, rfl⟩
      | error failure =>
        cases failure with
        | malformed =>
          rw [Preamble.answer]
          split <;> exact ⟨_, rfl⟩
        | recursion => exact absurd ending never
    · exact ⟨none, rfl⟩
  · exact ⟨none, by rw [readHeaderBytes, if_pos (Nat.lt_of_not_le long)]⟩

/-! ## A part against the whole -/

section Parts

variable {pairs rest : List (String × Value)} {header : Preamble}
  {window window' : Bytes} {complete complete' : Option Nat} {key : String}

theorem collectedFrom_append (arch : Option String)
    (pairs rest : List (String × Value)) :
    collectedFrom arch (pairs ++ rest) =
      collectedFrom arch pairs ++ collectedFrom (archFrom arch pairs) rest := by
  induction pairs generalizing arch with
  | nil => rfl
  | cons pair later ih =>
    rw [List.cons_append, collectedFrom, collectedFrom, archFrom_cons]
    cases isCollected : collects pair.1 arch with
    | true => exact congrArg (pair :: ·) (ih _)
    | false =>
      rw [archAfter_of_passed isCollected]
      exact ih arch

theorem get_result_append (notOwn : key ∉ ownKeys) {value : Value}
    (found : (header.result window pairs complete).get key = some value)
    (notAgain : ∀ other, (key, other) ∉ rest) :
    (header.result window' (pairs ++ rest) complete').get key =
      some value := by
  rw [get_result_eq_some notOwn] at found ⊢
  rw [collectedFrom_append]
  refine IsLatest.append found fun other mem same => ?_
  refine notAgain other.2 (same ▸ ?_)
  exact (collectedFrom_sublist _ rest).mem mem

theorem isSome_result_append (notOwn : key ∉ ownKeys)
    (found : ((header.result window pairs complete).get key).isSome) :
    ((header.result window' (pairs ++ rest) complete').get key).isSome := by
  obtain ⟨value, isValue⟩ := Option.isSome_iff_exists.mp found
  rw [get_result_eq_some notOwn] at isValue
  rcases Latest.exists_isLatest (fun pair : String × Value => pair.1 = key)
      (collectedFrom none (pairs ++ rest)) with none | ⟨last, latest⟩
  · refine absurd rfl (none (key, value) ?_)
    rw [collectedFrom_append]
    exact List.mem_append_left _ isValue.mem
  · obtain ⟨name, last⟩ := last
    have isKey : name = key := latest.holds
    subst isKey
    rw [(get_result_eq_some notOwn).mpr latest]
    rfl

theorem get_result_own (isOwn : key = "version" ∨ key = "tensor_count") :
    (header.result window pairs complete).get key =
      header.scan.out.get key := by
  have own : key ∈ ownKeys ∧ key ∉ aliases.map Prod.snd ∧
      key ≠ "tensor_names_prefix" := by
    rcases isOwn with rfl | rfl <;> decide
  rw [Preamble.result, get_promote_of_ne own.2.1,
    get_withTensors_of_ne own.2.2, get_scanned_of_own own.1]

theorem readTensorNames_of_part (part : window <+: window') {pos count : Nat}
    {names : List String}
    (isRead : readTensorNames window pos count = some names) :
    readTensorNames window' pos count = some names := by
  rw [readTensorNames] at isRead ⊢
  cases first : times tensorName count window pos with
  | error failure =>
    rw [first] at isRead
    cases isRead
  | ok result =>
    rw [first] at isRead
    rw [local_tensorName.times count part first]
    exact isRead

theorem get_result_names (part : window <+: window')
    (whole : ∀ stop, complete = some stop →
      rest = [] ∧ complete' = some stop) {value : Value}
    (found : (header.result window pairs complete).get
      "tensor_names_prefix" = some value) :
    (header.result window' (pairs ++ rest) complete').get
      "tensor_names_prefix" = some value := by
  rw [Preamble.result, get_promote_of_ne (by decide)] at found ⊢
  cases complete with
  | none =>
    rw [Preamble.withTensors, get_tensorNames_before] at found
    cases found
  | some stop =>
    obtain ⟨rfl, rfl⟩ := whole stop rfl
    rw [List.append_nil]
    simp only [Preamble.withTensors] at found ⊢
    split at found
    · rw [get_tensorNames_before] at found
      cases found
    · next someTensors =>
        rw [if_neg someTensors]
        cases names : readTensorNames window stop
            (min header.tensorCount tensorNamePrefixCount) with
        | none =>
          rw [names] at found
          rw [get_tensorNames_before] at found
          cases found
        | some isRead =>
          rw [names] at found
          rw [readTensorNames_of_part part names]
          simpa using found

theorem archFrom_of_isLatest {arch : String} (before : Option String)
    (latest : IsLatest (fun pair => pair.1 = "general.architecture") pairs
      ("general.architecture", Value.str arch)) :
    archFrom before pairs = some arch := by
  induction pairs generalizing before with
  | nil => exact absurd latest.mem List.not_mem_nil
  | cons pair later ih =>
    rw [archFrom_cons]
    rcases isLatest_cons.mp latest with latest | ⟨isFirst, _, none⟩
    · exact ih _ latest
    · refine archFrom_of_only (fun text mem => ?_) (Or.inl ?_)
      · exact absurd rfl (none _ mem)
      · rw [← isFirst]
        simp [archAfter]

theorem archFrom_append (before : Option String)
    (pairs rest : List (String × Value)) :
    archFrom before (pairs ++ rest) = archFrom (archFrom before pairs) rest :=
  List.foldl_append ..

theorem get_alias_append {arch : String} {entry : String × String}
    {value : Value} (nonempty : arch ≠ "")
    (names : (header.result window pairs complete).get
      "general.architecture" = some (.str arch))
    (notRenamed : ∀ other, ("general.architecture", other) ∉ rest)
    (isAlias : entry ∈ aliases)
    (found : (header.result window pairs complete).get entry.2 = some value)
    (notAgain : ∀ other, (archKey arch entry.1, other) ∉ rest) :
    (header.result window' (pairs ++ rest) complete').get entry.2 =
      some value := by
  have isStatic : "general.architecture" ∈ interestingKeysStatic := by decide
  rw [get_result_eq_some (not_own_of_static isStatic),
    isLatest_collectedFrom (collects_of_static isStatic)] at names
  have isArch := archFrom_of_isLatest none names
  have stays : archFrom none (pairs ++ rest) = some arch := by
    rw [archFrom_append, isArch]
    exact archFrom_of_only (fun text mem => absurd mem (notRenamed _))
      (Or.inl rfl)
  rw [get_result_alias isArch nonempty isAlias] at found
  rw [get_result_alias stays nonempty isAlias]
  exact get_result_append (not_own_archKey arch entry.1) found notAgain

theorem get_result_same (differs : key ≠ "tensor_names_prefix") :
    (header.result window pairs complete).get key =
      (header.result window' pairs complete').get key := by
  by_cases isAlias : key ∈ aliases.map Prod.snd
  · obtain ⟨entry, mem, rfl⟩ := List.mem_map.mp isAlias
    by_cases unnamed : ∀ arch, archFrom none pairs = some arch → arch = ""
    · rw [get_result_alias_of_unnamed unnamed mem,
        get_result_alias_of_unnamed unnamed mem]
    · simp only [not_forall] at unnamed
      obtain ⟨arch, isArch, nonempty⟩ := unnamed
      rw [get_result_alias isArch nonempty mem,
        get_result_alias isArch nonempty mem,
        get_result_of_not_own (not_own_archKey arch entry.1),
        get_result_of_not_own (not_own_archKey arch entry.1)]
  · rw [Preamble.result, Preamble.result, get_promote_of_ne isAlias,
      get_promote_of_ne isAlias, get_withTensors_of_ne differs,
      get_withTensors_of_ne differs]

end Parts

/--
What the dictionary of a whole file has of what is reported for a part of it,
when `rest` are the pairs past the cut.
-/
structure Keeps (rest : List (String × Value)) (out whole : Table Value) :
    Prop where
  reported : ∀ key, key ∉ aliases.map Prod.snd → (out.get key).isSome →
    (whole.get key).isSome
  own : ∀ key value,
    key ∈ ["version", "tensor_count", "tensor_names_prefix"] →
      out.get key = some value → whole.get key = some value
  values : ∀ key value, key ∉ aliases.map Prod.snd →
    out.get key = some value → (∀ other, (key, other) ∉ rest) →
      whole.get key = some value
  promoted : ∀ arch ≠ "",
    out.get "general.architecture" = some (.str arch) →
    (∀ other, ("general.architecture", other) ∉ rest) →
    ∀ entry ∈ aliases, ∀ value, out.get entry.2 = some value →
      (∀ other, (archKey arch entry.1, other) ∉ rest) →
        whole.get entry.2 = some value

theorem keeps_result {window' : Bytes} {pairs rest : List (String × Value)}
    {complete complete' : Option Nat} (part : window <+: window')
    (whole : ∀ stop, complete = some stop →
      rest = [] ∧ complete' = some stop) :
    Keeps rest (header.result window pairs complete)
      (header.result window' (pairs ++ rest) complete') := by
  have own : ∀ key value,
      key ∈ ["version", "tensor_count", "tensor_names_prefix"] →
      (header.result window pairs complete).get key = some value →
      (header.result window' (pairs ++ rest) complete').get key =
        some value := by
    intro key value isOwn found
    simp only [List.mem_cons, List.not_mem_nil, or_false] at isOwn
    rcases isOwn with isVersion | isCount | rfl
    · rw [get_result_own (Or.inl isVersion)] at found ⊢
      exact found
    · rw [get_result_own (Or.inr isCount)] at found ⊢
      exact found
    · exact get_result_names part whole found
  have split : ∀ key, key ∉ aliases.map Prod.snd →
      key ∈ ["version", "tensor_count", "tensor_names_prefix"] ∨
        key ∉ ownKeys := by
    intro key notAlias
    by_cases isOwn : key ∈ ownKeys
    · exact Or.inl ((List.mem_append.mp isOwn).resolve_right notAlias)
    · exact Or.inr isOwn
  refine ⟨fun key notAlias found => ?_, own,
    fun key value notAlias found notAgain => ?_,
    fun arch nonempty names notRenamed entry isAlias value found notAgain =>
      get_alias_append nonempty names notRenamed isAlias found notAgain⟩
  · rcases split key notAlias with isOwn | notOwn
    · obtain ⟨value, isValue⟩ := Option.isSome_iff_exists.mp found
      rw [own key value isOwn isValue]
      rfl
    · exact isSome_result_append notOwn found
  · rcases split key notAlias with isOwn | notOwn
    · exact own key value isOwn found
    · exact get_result_append notOwn found notAgain

theorem pairsOf_of_part (levels : Nat) {cut whole : Bytes}
    (part : cut <+: whole) (begins : preamble cut 0 = .ok (header, 24)) :
    ∃ rest, (pairsOf levels whole).1 = (pairsOf levels cut).1 ++ rest ∧
      ∀ stop, (pairsOf levels cut).2 = .ok stop →
        rest = [] ∧ (pairsOf levels whole).2 = .ok stop := by
  rw [pairsOf, pairsOf, begins, local_preamble part begins]
  exact decodePairs_of_part part header.kvCount 24

/-- When the read answers. -/
theorem answer_eq_some {requireComplete : Bool} {pairs : List (String × Value)}
    {ending : Except Failure Nat} {out : Table Value}
    (isOut : header.answer window requireComplete pairs ending =
      .ok (some out)) :
    ∃ complete, out = header.result window pairs complete ∧
      (∀ stop, complete = some stop → ending = .ok stop) ∧
      (requireComplete = true → complete.isSome) := by
  cases ending with
  | ok stop =>
    cases isOut
    refine ⟨some stop, rfl, fun after isEnd => ?_, fun _ => rfl⟩
    rw [Option.some.inj isEnd]
  | error failure =>
    cases failure with
    | malformed =>
      cases requireComplete with
      | true => cases isOut
      | false =>
        cases isOut
        exact ⟨none, rfl, nofun, nofun⟩
    | recursion => cases isOut

/--
What a part of a file reports, the whole of it reports too, and what a
complete part reports is what the whole reports; and each parse ends.
-/
theorem part_reports_whole :
    (∀ levels cut whole, cut <+: whole → 24 ≤ cut.length →
      ∃ rest, (pairsOf levels whole).1 = (pairsOf levels cut).1 ++ rest ∧
        (∀ out, readHeaderBytes levels cut false = .ok (some out) →
          readHeaderBytes levels whole false = .error .recursion ∨
            ∃ out', readHeaderBytes levels whole false = .ok (some out') ∧
              Keeps rest out out') ∧
        ∀ out, readHeaderBytes levels cut true = .ok (some out) →
          ∀ requireComplete, ∃ out',
            readHeaderBytes levels whole requireComplete =
              .ok (some out') ∧
            (∀ key ≠ "tensor_names_prefix", out.get key = out'.get key) ∧
            ∀ names, out.get "tensor_names_prefix" = some names →
              out'.get "tensor_names_prefix" = some names) ∧
    ∀ levels window requireComplete, window.length < levels →
      ∃ result, readHeaderBytes levels window requireComplete =
        .ok result := by
  refine ⟨?_, fun levels window requireComplete enough =>
    readHeaderBytes_ends enough requireComplete⟩
  intro levels cut whole part long
  obtain ⟨header, begins⟩ := preamble_of_long long
  have longWhole := long.trans part.length_le
  have beginsWhole := local_preamble part begins
  obtain ⟨rest, isRest, complete⟩ :=
    pairsOf_of_part levels part begins
  refine ⟨rest, isRest, fun out isOut => ?_,
    fun out isOut requireComplete => ?_⟩
  · rw [readHeaderBytes_eq long begins] at isOut
    rw [readHeaderBytes_eq longWhole beginsWhole, isRest]
    split at isOut
    · next isGguf =>
        rw [if_pos isGguf]
        obtain ⟨ended, rfl, stops, _⟩ := answer_eq_some isOut
        cases ending : (pairsOf levels whole).2 with
        | ok stop =>
          refine Or.inr ⟨_, rfl, keeps_result part fun after isEnd => ?_⟩
          obtain ⟨isAll, isSame⟩ := complete after (stops after isEnd)
          rw [ending] at isSame
          exact ⟨isAll, congrArg some (Except.ok.inj isSame)⟩
        | error failure =>
          cases failure with
          | malformed =>
            refine Or.inr ⟨_, rfl,
              keeps_result part fun after isEnd => ?_⟩
            obtain ⟨_, isSame⟩ := complete after (stops after isEnd)
            rw [ending] at isSame
            cases isSame
          | recursion => exact Or.inl rfl
    · cases isOut
  · rw [readHeaderBytes_eq long begins] at isOut
    rw [readHeaderBytes_eq longWhole beginsWhole, isRest]
    split at isOut
    · next isGguf =>
        rw [if_pos isGguf]
        obtain ⟨ended, rfl, stops, isComplete⟩ := answer_eq_some isOut
        obtain ⟨stop, rfl⟩ := Option.isSome_iff_exists.mp (isComplete rfl)
        obtain ⟨rfl, ending⟩ := complete stop (stops stop rfl)
        rw [ending, List.append_nil]
        refine ⟨_, rfl, fun key differs => get_result_same differs,
          fun names found => ?_⟩
        have kept : (header.result whole ((pairsOf levels cut).1 ++ [])
            (some stop)).get "tensor_names_prefix" = some names :=
          get_result_names part (fun _ isEnd => ⟨rfl, isEnd⟩) found
        rwa [List.append_nil] at kept
    · cases isOut

/-- A context length before the architecture, which has another one. -/
def guessing : Bytes :=
  headerBytes [bytePair "a.context_length" 1,
    textPair "general.architecture" "b", bytePair "b.context_length" 2]

/-- A header without an architecture. -/
theorem part_reports_whole_guessing :
    ∃ rest out out',
      readHeaderBytes 1 (guessing.take 53) false = .ok (some out) ∧
      readHeaderBytes 1 guessing false = .ok (some out') ∧
      Keeps rest out out' := by
  have isShort : ((readHeaderBytes 1 (guessing.take 53) false).toOption.any
      Option.isSome) = true := by decide +kernel
  have isWhole : (readHeaderBytes 1 guessing false).isOk = true := by
    decide +kernel
  obtain ⟨rest, _, keeps, _⟩ := part_reports_whole.1 1 (guessing.take 53)
    guessing (List.take_prefix 53 guessing) (by decide)
  cases cut : readHeaderBytes 1 (guessing.take 53) false with
  | error failure =>
    rw [cut] at isShort
    cases isShort
  | ok result =>
    cases result with
    | none =>
      rw [cut] at isShort
      cases isShort
    | some out =>
      rcases keeps out cut with failed | ⟨out', whole, kept⟩
      · rw [failed] at isWhole
        cases isWhole
      · exact ⟨rest, out, out', rfl, whole, kept⟩

/-- A window cut before the architecture promotes what the file does not. -/
theorem guessing_cut_differs :
    guessing.take 53 <+: guessing ∧ 24 ≤ (guessing.take 53).length ∧
      readKey 1 (guessing.take 53) "context_length" = some (.int 1) ∧
      readKey 1 guessing "context_length" = some (.int 2) :=
  ⟨List.take_prefix 53 guessing, by decide, by decide +kernel,
    by decide +kernel⟩

end Hal0.Registry.Gguf
