import Hal0.Ports.HarvestLaws

/-!
# The files for which the harvester answers right

The claims of the slot files are those of the loader when each file is read as
it would be hoisted.  A file which is not so read is told by some question: one
for its port alone, one with a port reserved, or one with another slot running.
-/

namespace Hal0.Ports.Harvest

open List
open Hal0.Uniq

variable {claims others : List PortClaim} {port : Int} {owner : String}

/-! ## The claims of the slot files -/

variable {reader : Reader} {files : List SlotFile} {question : Question}

/-- Claims of no file have one group. -/
theorem grouped_other (question : Question) :
    Grouped (otherClaims question) := by
  intro claim isIn hasGroup
  unfold otherClaims at isIn
  rw [mem_append, mem_append] at isIn
  rcases isIn with (isRuntime | isReserved) | isListener
  · obtain ⟨snapshot, -, made⟩ := mem_filterMap.mp isRuntime
    obtain ⟨port, -, made⟩ := Option.bind_eq_some_iff.mp made
    split at made
    · cases made
      exact Or.inr rfl
    · exact absurd made (by simp)
  · obtain ⟨item, -, rfl⟩ := mem_map.mp isReserved
    exact absurd hasGroup (by simp)
  · split at isListener
    · obtain ⟨socket, -, rfl⟩ := mem_map.mp isListener
      exact absurd hasGroup (by simp)
    · exact absurd isListener not_mem_nil

theorem grouped_table (stem : String) (table : Table) :
    Grouped (tableClaims reader stem table) := by
  intro claim isIn hasGroup
  obtain ⟨port, -, rfl⟩ := mem_map.mp isIn
  exact Or.inl rfl

theorem Grouped.append (grouped : Grouped claims) (rest : Grouped others) :
    Grouped (claims ++ others) := by
  intro claim isIn
  rcases mem_append.mp isIn with isFirst | isLater
  · exact grouped claim isFirst
  · exact rest claim isLater

variable {config : List PortClaim}

section

variable (collected : configClaims reader files = some config)
include collected

/-- So have those of the files. -/
theorem grouped_config :
    Grouped config := by
  induction files generalizing config with
  | nil =>
    cases collected
    exact fun _ isIn => absurd isIn not_mem_nil
  | cons file rest ih =>
    unfold configClaims at collected
    cases content : file.content with
    | notUtf8 => simp [content] at collected
    | unreadable =>
      simp only [content] at collected
      exact ih collected
    | table table =>
      simp only [content, Option.map_eq_some_iff] at collected
      obtain ⟨later, isLater, rfl⟩ := collected
      exact (grouped_table file.stem table).append
        (ih isLater)

/-- The law, by the claims of the two readers. -/
theorem harvestLaw_iff :
    HarvestLaw reader files question ↔
      (Lowest (hoistedClaims reader files ++ otherClaims question)
        question.start question.stop
        (nextFree (arranged (config ++ otherClaims question))
          question.start question.stop) ∧
      ∀ port, Contested (config ++ otherClaims question) port ↔
        Contested (hoistedClaims reader files ++ otherClaims question) port) := by
  have ordered := ordered_arranged (config ++ otherClaims question)
  have grouped := ((grouped_config collected).append
    (grouped_other question)).arranged
  have alike := alike_arranged (config ++ otherClaims question)
  unfold HarvestLaw collectClaims
  rw [collected, Option.map_some]
  constructor
  · rintro ⟨claims, same, free, conflicts⟩
    cases same
    refine ⟨free, fun port => ?_⟩
    rw [← conflicts, mem_conflicts ordered grouped, alike.contested_iff]
  · rintro ⟨free, contested⟩
    refine ⟨_, rfl, free, fun port => ?_⟩
    rw [mem_conflicts ordered grouped, alike.contested_iff, contested]

theorem law_of_alike (alike : Alike config (hoistedClaims reader files)) :
    HarvestLaw reader files question := by
  have all : Alike (config ++ otherClaims question)
      (hoistedClaims reader files ++ otherClaims question) :=
    alike.append fun _ => rfl
  rw [harvestLaw_iff collected]
  refine ⟨?_, fun port => all.contested_iff⟩
  exact ((alike_arranged _).trans all).lowest (lowest_nextFree _ _ _)

end

/-! ## Flat files -/

variable {stem : String} {table : Table}

theorem mem_tableClaims {claim : PortClaim} :
    claim ∈ tableClaims reader stem table ↔ ∃ port ∈ slotPorts table,
      claim = ⟨port, slotOwner (slotName reader stem table), .slotConfig,
        npuGroup table⟩ := by
  simp only [tableClaims, mem_map, eq_comm]

theorem tableClaims_eq_of_key {first second : PortClaim}
    (firstIn : first ∈ tableClaims reader stem table)
    (secondIn : second ∈ tableClaims reader stem table)
    (same : first.key = second.key) : first = second := by
  obtain ⟨firstPort, -, rfl⟩ := mem_tableClaims.mp firstIn
  obtain ⟨secondPort, -, rfl⟩ := mem_tableClaims.mp secondIn
  unfold PortClaim.key at same
  simp only [Prod.mk.injEq] at same
  rw [same.1]

theorem ReadsFlat.mem_iff (flat : ReadsFlat reader stem table)
    (claim : PortClaim) :
    claim ∈ tableClaims reader stem table ↔
      claim ∈ tableClaims reader stem (flattenSlotToml reader table stem) := by
  rw [mem_tableClaims, mem_tableClaims]
  by_cases none : slotPorts table = []
  · have noneHoisted : slotPorts (flattenSlotToml reader table stem) = [] := by
      rw [eq_nil_iff_forall_not_mem]
      intro port
      rw [← flat.ports, none]
      exact not_mem_nil
    rw [none, noneHoisted]
    simp
  · rw [flat.name none, flat.group none]
    simp only [flat.ports]

/-- A flat read gives the same claims. -/
theorem ReadsFlat.alike (flat : ReadsFlat reader stem table) :
    Alike (tableClaims reader stem table)
      (tableClaims reader stem (flattenSlotToml reader table stem)) := by
  intro key
  cases found : (tableClaims reader stem table).find? fun claim =>
      claim.key = key with
  | none =>
    symm
    rw [find?_eq_none] at found ⊢
    intro claim isIn
    exact found claim ((flat.mem_iff claim).mpr isIn)
  | some claim =>
    have isIn := (flat.mem_iff claim).mp (mem_of_find?_eq_some found)
    have isKey : claim.key = key := by simpa using find?_some found
    cases foundHoisted : (tableClaims reader stem
        (flattenSlotToml reader table stem)).find? fun claim =>
          claim.key = key with
    | none =>
      have missing := find?_eq_none.mp foundHoisted claim isIn
      simp [isKey] at missing
    | some other =>
      have otherKey : other.key = key := by
        simpa using find?_some foundHoisted
      rw [tableClaims_eq_of_key isIn
        (mem_of_find?_eq_some foundHoisted)
        (isKey.trans otherKey.symm)]

/-- So do flat files together. -/
theorem config_of_flat (flat : ∀ file ∈ files, file.Flat reader) :
    ∃ config, configClaims reader files = some config ∧
      Alike config (hoistedClaims reader files) := by
  induction files with
  | nil => exact ⟨[], rfl, fun _ => rfl⟩
  | cons file rest ih =>
    obtain ⟨later, collected, alike⟩ := ih
      fun other isIn => flat other (mem_cons_of_mem _ isIn)
    have isFlat := flat file mem_cons_self
    unfold SlotFile.Flat at isFlat
    unfold configClaims hoistedClaims
    rw [flatMap_cons]
    cases content : file.content with
    | notUtf8 =>
      rw [content] at isFlat
      exact isFlat.elim
    | unreadable => exact ⟨later, collected, alike⟩
    | table table =>
      rw [content] at isFlat
      dsimp only
      rw [collected]
      exact ⟨_, rfl, isFlat.alike.append alike⟩

/-! ## What tells the other files -/

theorem Lowest.used_iff {answer : Option Int}
    (lowest : Lowest claims port port answer)
    (other : Lowest others port port answer) :
    Used claims port ↔ Used others port := by
  cases answer with
  | none =>
    exact ⟨fun _ => other port le_rfl le_rfl,
      fun _ => lowest port le_rfl le_rfl⟩
  | some free =>
    obtain ⟨fromPort, toPort, unused, -⟩ := lowest
    have same : free = port := le_antisymm toPort fromPort
    subst same
    exact ⟨fun used => absurd used unused,
      fun used => absurd used other.2.2.1⟩

/-- The question about one port. -/
def askReserved (port : Int) (reserved : List (Int × String)) : Question :=
  ⟨port, port, [], reserved, [], false⟩

/-- The question which has nothing but one running slot of the trio. -/
def askTrio (port : Int) (name : String) : Question :=
  ⟨port, port, [⟨name, .integer port, "npu-flm-trio"⟩], [], [], false⟩

theorem config_single {file : SlotFile}
    (content : file.content = .table table) :
    configClaims reader [file] = some (tableClaims reader file.stem table) := by
  unfold configClaims
  rw [content]
  simp [configClaims]

theorem hoisted_single {file : SlotFile}
    (content : file.content = .table table) :
    hoistedClaims reader [file] = tableClaims reader file.stem
      (flattenSlotToml reader table file.stem) := by
  simp [hoistedClaims, content]

theorem used_table :
    Used (tableClaims reader stem table) port ↔ port ∈ slotPorts table := by
  constructor
  · rintro ⟨claim, isIn, rfl⟩
    obtain ⟨port, isPort, rfl⟩ := mem_tableClaims.mp isIn
    exact isPort
  · intro isPort
    exact ⟨_, mem_tableClaims.mpr ⟨port, isPort, rfl⟩, rfl⟩

theorem slotOwner_injective {first second : String}
    (same : slotOwner first = slotOwner second) : first = second := by
  unfold slotOwner at same
  have characters := congrArg String.toList same
  rw [String.toList_append, String.toList_append] at characters
  exact String.toList_inj.mp (append_cancel_left characters)

theorem pos_of_mem_slotPorts (isPort : port ∈ slotPorts table) : 0 < port := by
  have positive : ∀ value, asPort value = some port → 0 < port := by
    intro value isValue
    unfold asPort at isValue
    split at isValue
    · split at isValue
      · next above =>
          cases isValue
          exact above
      · exact absurd isValue (by simp)
    · cases isValue
      exact Int.one_pos
    · exact absurd isValue (by simp)
  unfold slotPorts at isPort
  simp only [mem_append, Option.mem_toList, Option.bind_eq_some_iff]
    at isPort
  rcases isPort with ⟨value, -, isValue⟩ | ⟨server, -, value, -, isValue⟩
  · exact positive value isValue
  · exact positive value isValue

/-! ## One file and one claim more -/

section OneMore

variable {stem : String} {table : Table} {extra : PortClaim}

/-- The file owns its port beside one more claim. -/
theorem owns_with (isPort : port ∈ slotPorts table)
    (onPort : extra.port = port) (named : extra.source ≠ .listener) :
    Owns (tableClaims reader stem table ++ [extra]) port owner ↔
      owner = slotOwner (slotName reader stem table) ∨
        owner = extra.owner := by
  constructor
  · intro owns
    have isOwned : ∃ claim ∈ tableClaims reader stem table ++ [extra],
        claim.owner = owner := by
      rcases owns with ⟨claim, isIn, -, isOwner, -⟩ |
        ⟨-, claim, isIn, -, isOwner⟩
      · exact ⟨claim, isIn, isOwner⟩
      · exact ⟨claim, isIn, isOwner⟩
    obtain ⟨claim, isIn, rfl⟩ := isOwned
    rcases mem_append.mp isIn with ofFile | isExtra
    · obtain ⟨-, -, rfl⟩ := mem_tableClaims.mp ofFile
      exact Or.inl rfl
    · rw [mem_singleton.mp isExtra]
      exact Or.inr rfl
  · rintro (rfl | rfl)
    · exact Or.inl ⟨_, mem_append_left _
        (mem_tableClaims.mpr ⟨port, isPort, rfl⟩), rfl, rfl, by simp⟩
    · exact Or.inl ⟨extra, by simp, onPort, rfl, named⟩

theorem not_contested_with (isPort : port ∈ slotPorts table)
    (onPort : extra.port = port) (named : extra.source ≠ .listener)
    (same : extra.owner = slotOwner (slotName reader stem table)) :
    ¬ Contested (tableClaims reader stem table ++ [extra]) port := by
  rintro ⟨first, second, isFirst, isSecond, differ, -⟩
  rw [owns_with isPort onPort named, same, or_self] at isFirst isSecond
  exact differ (isFirst.trans isSecond.symm)

theorem firstGroup_append (key : Int × String × Source) :
    firstGroup (tableClaims reader stem table ++ [extra]) key =
      (((tableClaims reader stem table).find? fun claim =>
        claim.key = key).or
          (if extra.key = key then some extra else none)).bind
            PortClaim.group := by
  unfold firstGroup
  rw [find?_append, find?_singleton]
  simp

/-- The group of the file at its port. -/
theorem coresident_file (isPort : port ∈ slotPorts table)
    (differ : extra.owner ≠ slotOwner (slotName reader stem table)) :
    coresident (tableClaims reader stem table ++ [extra]) port
      (slotOwner (slotName reader stem table)) = npuGroup table := by
  have notExtra : ∀ source, extra.key ≠
      (port, slotOwner (slotName reader stem table), source) :=
    fun source same => differ (congrArg (·.2.1) same)
  have notRunning : (tableClaims reader stem table).find? (fun claim =>
      claim.key = (port, slotOwner (slotName reader stem table),
        .slotRuntime)) = none := by
    rw [find?_eq_none]
    intro claim isIn
    obtain ⟨other, -, rfl⟩ := mem_tableClaims.mp isIn
    simp [PortClaim.key]
  unfold coresident
  rw [firstGroup_append, firstGroup_append, notRunning,
    if_neg (notExtra _), if_neg (notExtra _)]
  cases found : (tableClaims reader stem table).find? fun claim =>
      claim.key = (port, slotOwner (slotName reader stem table),
        .slotConfig) with
  | none =>
    have missing := find?_eq_none.mp found _
      (mem_tableClaims.mpr ⟨port, isPort, rfl⟩)
    simp [PortClaim.key] at missing
  | some claim =>
    obtain ⟨other, -, rfl⟩ := mem_tableClaims.mp
      (mem_of_find?_eq_some found)
    rfl

/-- The group of the other claim. -/
theorem coresident_extra (onPort : extra.port = port)
    (ofNoFile : extra.source ≠ .slotConfig) (grouped : Grouped [extra])
    (differ : extra.owner ≠ slotOwner (slotName reader stem table)) :
    coresident (tableClaims reader stem table ++ [extra]) port extra.owner =
      extra.group := by
  have notFile : ∀ source, (tableClaims reader stem table).find?
      (fun claim => claim.key = (port, extra.owner, source)) = none := by
    intro source
    rw [find?_eq_none]
    intro claim isIn
    obtain ⟨other, -, rfl⟩ := mem_tableClaims.mp isIn
    simp [PortClaim.key, Ne.symm differ]
  have notConfig : extra.key ≠ (port, extra.owner, .slotConfig) :=
    fun same => ofNoFile (congrArg (·.2.2) same)
  unfold coresident
  rw [firstGroup_append, firstGroup_append, notFile, notFile, if_neg notConfig]
  by_cases isRuntime : extra.source = .slotRuntime
  · rw [if_pos (by rw [PortClaim.key, onPort, isRuntime])]
    simp
  · rw [if_neg fun same => isRuntime (congrArg (·.2.2) same)]
    cases hasGroup : extra.group with
    | none => rfl
    | some group =>
      rcases grouped extra (by simp) (by simp [hasGroup]) with isFile | runs
      · exact absurd isFile ofNoFile
      · exact absurd runs isRuntime

/-- The port is contested unless both share a group. -/
theorem contested_with (isPort : port ∈ slotPorts table)
    (onPort : extra.port = port) (named : extra.source ≠ .listener)
    (ofNoFile : extra.source ≠ .slotConfig) (grouped : Grouped [extra])
    (differ : extra.owner ≠ slotOwner (slotName reader stem table)) :
    Contested (tableClaims reader stem table ++ [extra]) port ↔
      ¬ ∃ group, npuGroup table = some group ∧ extra.group = some group := by
  have ofFile : coresident (tableClaims reader stem table ++ [extra]) port
      (slotOwner (slotName reader stem table)) = npuGroup table :=
    coresident_file isPort differ
  have ofExtra := coresident_extra onPort ofNoFile grouped differ
  constructor
  · rintro ⟨first, second, isFirst, isSecond, apart, notCommon⟩
      ⟨group, fileGroup, extraGroup⟩
    apply notCommon
    have all : ∀ owner, Owns (tableClaims reader stem table ++ [extra]) port
        owner → coresident (tableClaims reader stem table ++ [extra]) port
          owner = some group := by
      intro owner owns
      rw [owns_with isPort onPort named] at owns
      rcases owns with rfl | rfl
      · rw [ofFile, fileGroup]
      · rw [ofExtra, extraGroup]
    exact ⟨group, all first isFirst, all second isSecond⟩
  · intro notCommon
    refine ⟨_, _, (owns_with isPort onPort named).mpr (Or.inl rfl),
      (owns_with isPort onPort named).mpr (Or.inr rfl), Ne.symm differ, ?_⟩
    rwa [ofFile, ofExtra]

end OneMore

/-! ## When the answers are right -/

theorem other_askReserved (port : Int) (reserved : List (Int × String)) :
    otherClaims (askReserved port reserved) =
      reserved.map fun item => ⟨item.1, item.2, .reserved, none⟩ := by
  simp [otherClaims, askReserved, runtimeClaims]

theorem other_askTrio (above : 0 < port) {name : String} (named : name ≠ "") :
    otherClaims (askTrio port name) =
      [⟨port, slotOwner name, .slotRuntime, some "npu-flm-trio"⟩] := by
  simp [otherClaims, askTrio, runtimeClaims, asPort, above, named]

theorem npuGroup_cases (table : Table) :
    npuGroup table = none ∨ npuGroup table = some "npu-flm-trio" := by
  unfold npuGroup
  split
  · split
    · exact Or.inr rfl
    · exact Or.inl rfl
  · exact Or.inl rfl

section OneFile

variable {file : SlotFile} {table : Table}

theorem ports_of_laws (content : file.content = .table table)
    (laws : ∀ question, HarvestLaw reader [file] question) (port : Int) :
    port ∈ slotPorts table ↔
      port ∈ slotPorts (flattenSlotToml reader table file.stem) := by
  have lowest := ((harvestLaw_iff (config_single content)).mp
    (laws (askReserved port []))).1
  rw [hoisted_single content, other_askReserved, map_nil,
    append_nil, append_nil] at lowest
  have found := (alike_arranged (tableClaims reader file.stem table)).lowest
    (lowest_nextFree _ port port)
  rw [← used_table, ← used_table]
  exact found.used_iff lowest

/-- The law fixes the name of the slot. -/
theorem name_of_laws (content : file.content = .table table)
    (laws : ∀ question, HarvestLaw reader [file] question)
    (isPort : port ∈ slotPorts table) :
    slotName reader file.stem table =
      slotName reader file.stem (flattenSlotToml reader table file.stem) := by
  have isHoisted := (ports_of_laws content laws port).mp isPort
  by_contra differ
  have contested := ((harvestLaw_iff (config_single content)).mp (laws
    (askReserved port [(port, slotOwner (slotName reader file.stem
      (flattenSlotToml reader table file.stem)))]))).2 port
  rw [hoisted_single content, other_askReserved, map_singleton]
    at contested
  refine not_contested_with isHoisted rfl (by simp) rfl (contested.mp ?_)
  rw [contested_with isPort rfl (by simp) (by simp) ?_ ?_]
  · rintro ⟨group, -, none⟩
    exact absurd none (by simp)
  · intro claim isIn hasGroup
    rw [mem_singleton.mp isIn] at hasGroup
    exact absurd hasGroup (by simp)
  · exact fun same => differ (slotOwner_injective same.symm)

/-- It fixes the group. -/
theorem group_of_laws (content : file.content = .table table)
    (laws : ∀ question, HarvestLaw reader [file] question)
    (isPort : port ∈ slotPorts table) :
    npuGroup table =
      npuGroup (flattenSlotToml reader table file.stem) := by
  have isHoisted := (ports_of_laws content laws port).mp isPort
  have sameName := name_of_laws content laws isPort
  have named : slotName reader file.stem table ++ "+" ≠ "" := by
    intro isEmpty
    simpa using congrArg String.length isEmpty
  have differ : slotOwner (slotName reader file.stem table ++ "+") ≠
      slotOwner (slotName reader file.stem table) := by
    intro same
    have lengths := congrArg String.length (slotOwner_injective same)
    simp at lengths
  have grouped : Grouped [(⟨port, slotOwner
      (slotName reader file.stem table ++ "+"), .slotRuntime,
      some "npu-flm-trio"⟩ : PortClaim)] := by
    intro claim isIn _
    rw [mem_singleton.mp isIn]
    exact Or.inr rfl
  have contested := ((harvestLaw_iff (config_single content)).mp (laws
    (askTrio port (slotName reader file.stem table ++ "+")))).2 port
  rw [hoisted_single content,
    other_askTrio (pos_of_mem_slotPorts isPort) named,
    contested_with isPort rfl (by simp) (by simp) grouped differ,
    contested_with isHoisted rfl (by simp) (by simp) grouped
      (sameName ▸ differ)] at contested
  rcases npuGroup_cases table with isRaw | isRaw <;>
    rcases npuGroup_cases (flattenSlotToml reader table file.stem)
      with isFlat | isFlat <;>
    simp [isRaw, isFlat] at contested ⊢

/-- The law holds of flat files only. -/
theorem flat_of_laws (laws : ∀ question, HarvestLaw reader [file] question) :
    file.Flat reader := by
  unfold SlotFile.Flat
  cases content : file.content with
  | notUtf8 =>
    obtain ⟨claims, collected, -⟩ := laws (askReserved 0 [])
    simp [collectClaims, configClaims, content] at collected
  | unreadable => trivial
  | table table =>
    refine ⟨ports_of_laws content laws, ?_, ?_⟩
    · intro some
      obtain ⟨port, isPort⟩ := exists_mem_of_ne_nil _ some
      exact name_of_laws content laws isPort
    · intro some
      obtain ⟨port, isPort⟩ := exists_mem_of_ne_nil _ some
      exact group_of_laws content laws isPort

end OneFile

/--
The harvester answers each question right, whichever of the files a directory
keeps, just when each file is in UTF-8 and is read as it would be hoisted.
-/
theorem harvest_iff (reader : Reader) (files : List SlotFile) :
    (∀ kept, kept.Sublist files → ∀ question,
        HarvestLaw reader kept question) ↔
      ∀ file ∈ files, file.Flat reader := by
  constructor
  · intro laws file isIn
    exact flat_of_laws (laws [file] (singleton_sublist.mpr isIn))
  · intro flat kept isKept question
    obtain ⟨config, collected, alike⟩ := config_of_flat
      fun file isIn => flat file (isKept.subset isIn)
    exact law_of_alike collected alike

example : SlotFile.Flat ⟨fun _ => "primary", fun _ _ => none⟩
    ⟨"primary", .table [("name", .text "primary"),
      ("port", .integer 8081)]⟩ :=
  ⟨fun _ => Iff.rfl, fun _ => rfl, fun _ => rfl⟩

/-- A nested file: its port is under `[slot]`. -/
def nestedFile : SlotFile :=
  ⟨"primary", .table [("slot", .table
    [("name", .text "primary"), ("port", .integer 8081)])]⟩

/-- The port of a nested file is free for the harvester. -/
theorem harvest_fails : ¬ HarvestLaw ⟨fun _ => "primary", fun _ _ => none⟩
    [nestedFile] ⟨8081, 8081, [], [], [], false⟩ := by
  rintro ⟨claims, collected, free, -⟩
  have isEmpty : claims = [] := by
    have asked : some (arranged []) = some claims := collected
    simpa [arranged, uniqueFrom] using asked.symm
  have answer : nextFree [] 8081 8081 = some 8081 := by decide
  rw [isEmpty, answer] at free
  apply free.2.2.1
  exact ⟨⟨8081, "slot:primary", .slotConfig, none⟩, List.Mem.head [], rfl⟩

end Hal0.Ports.Harvest
