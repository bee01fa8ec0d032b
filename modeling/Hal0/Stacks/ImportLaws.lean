import Hal0.Stacks.Import

/-!
# What a refused import leaves

Each of the two files is replaced as a whole, and what existed in it is still
there.  An import is as good as that only when nothing is refused behind the
first write.
-/

namespace Hal0.Stacks.Portable

open Hal0.Json

variable {Real : Type}

/-! ## Profiles -/

section Steps

variable {machine : Machine Real} {stack : StackConfig} {slug : String}
  {file : File Real}

variable {config : ProfilesConfig Real}

theorem get_profile_incoming {name : String} {profile : ProfileConfig}
    (isThere : config.profile.get name = some profile) :
    (config.profile.putAll (incoming stack config)).get name =
      some profile := by
  have distinct : ((incoming stack config).map Prod.fst).Nodup :=
    stack.profiles.distinct.sublist (List.filter_sublist.map Prod.fst)
  have absent : (incoming stack config).lookup name = none := by
    refine lookup_eq_none fun isIn => ?_
    obtain ⟨entry, isEntry, rfl⟩ := List.mem_map.mp isIn
    have isNew := (List.mem_filter.mp isEntry).2
    rw [Table.has, isThere] at isNew
    simp at isNew
  rw [Table.get_putAll _ distinct, absent, isThere]
  rfl

theorem keepsProfiles_refl (file : File Real) :
    KeepsProfiles machine file file :=
  fun config loaded => ⟨config, loaded, fun _ _ isThere => isThere⟩

/-- The file which is written has the profiles which existed, and each new
one. -/
theorem load_incoming (stack : StackConfig)
    (loaded : loadProfilesConfig machine.pydantic machine.seedProfiles file =
      .ok config) :
    ∃ now, loadProfilesConfig machine.pydantic machine.seedProfiles
        (withIncoming machine stack config) = .ok now ∧
        ∀ name profile,
          (config.profile.putAll (incoming stack config)).get name =
              some profile →
            now.profile.get name = some profile := by
  have reloaded : ∃ unknown, loadProfilesConfig machine.pydantic
      machine.seedProfiles (withIncoming machine stack config) =
        .ok (configOf machine.pydantic machine.seedProfiles (savedProfiles
          machine.seedProfiles { config with
            profile := config.profile.putAll (incoming stack config) }).entries
          unknown) :=
    load_save _
  obtain ⟨unknown, isNow⟩ := reloaded
  refine ⟨_, isNow, fun name profile isThere => ?_⟩
  refine get_profile_saved unknown isThere fun seed isSeed => ?_
  have old : (config.profile.putAll (incoming stack config)).get name =
      some seed :=
    get_profile_incoming (get_seed_of_loaded loaded isSeed)
  rw [old, Option.some.injEq] at isThere
  exact isThere

theorem get_incoming_new {entry : String × ProfileConfig}
    (isIn : entry ∈ incoming stack config) :
    config.profile.get entry.1 = none ∧
      (config.profile.putAll (incoming stack config)).get entry.1 =
        some entry.2 := by
  have distinct : ((incoming stack config).map Prod.fst).Nodup :=
    stack.profiles.distinct.sublist (List.filter_sublist.map Prod.fst)
  have isNew := (List.mem_filter.mp isIn).2
  refine ⟨Table.get_eq_none_of_not_has (by simpa using isNew), ?_⟩
  rw [Table.get_putAll _ distinct, lookup_of_mem distinct isIn]
  rfl

/-- Passing profiles are stored. -/
theorem reconcile_of_passes
    (passes : PassesProfiles machine stack file) :
    ∃ after, reconcileProfiles machine stack file = .ok after ∧
      KeepsProfiles machine file after ∧
        (after = file ↔ ¬ AddsProfile machine stack file) := by
  by_cases bare : stack.profiles.entries = []
  · refine ⟨file, by rw [reconcileProfiles, if_pos bare],
      keepsProfiles_refl file, ?_⟩
    refine iff_of_true rfl ?_
    rintro ⟨config, -, isNew⟩
    apply isNew
    rw [incoming, bare]
    rfl
  · obtain ⟨config, loaded, screened, written⟩ := passes bare
    by_cases none : incoming stack config = []
    · refine ⟨file, ?_, keepsProfiles_refl file, ?_⟩
      · rw [reconcileProfiles, if_neg bare, loaded]
        simp only [screened]
        rw [if_pos none]
      · refine iff_of_true rfl ?_
        rintro ⟨other, isLoaded, isNew⟩
        rw [loaded, Except.ok.injEq] at isLoaded
        subst isLoaded
        exact isNew none
    · obtain ⟨now, isNow, kept⟩ := load_incoming stack loaded
      refine ⟨withIncoming machine stack config, ?_, ?_, ?_⟩
      · rw [reconcileProfiles, if_neg bare, loaded]
        simp only [screened]
        rw [if_neg none, if_pos (written none)]
      · intro other isLoaded
        rw [loaded, Except.ok.injEq] at isLoaded
        subst isLoaded
        exact ⟨now, isNow, fun name profile isThere =>
          kept name profile (get_profile_incoming isThere)⟩
      · refine iff_of_false ?_ (not_not.mpr ⟨config, loaded, none⟩)
        intro same
        rw [same, loaded, Except.ok.injEq] at isNow
        subst isNow
        obtain ⟨entry, isIn⟩ := List.exists_mem_of_ne_nil _ none
        obtain ⟨absent, isPut⟩ := get_incoming_new isIn
        have isThere := kept entry.1 entry.2 isPut
        rw [absent] at isThere
        cases isThere

/-- Any other stops the import. -/
theorem reconcile_of_not_passes
    (fails : ¬ PassesProfiles machine stack file) :
    ∃ raised, reconcileProfiles machine stack file = .error raised := by
  unfold PassesProfiles at fails
  push Not at fails
  obtain ⟨notBare, refused⟩ := fails
  rw [reconcileProfiles, if_neg notBare]
  cases loaded : loadProfilesConfig machine.pydantic machine.seedProfiles file
    with
  | error error => exact ⟨_, rfl⟩
  | ok config =>
    cases screened : screenProfiles machine (incoming stack config) with
    | error error => exact ⟨.typed error, by simp [screened]⟩
    | ok passed =>
      obtain ⟨isNew, unwritable⟩ := refused config loaded screened
      refine ⟨.unwritable, ?_⟩
      simp [screened, isNew, unwritable]

/-! ## The stack -/

/-- A stack which is created is in the catalog, and the others are as they
were. -/
theorem create_of_accepts (stack : StackConfig)
    (accepts : Accepts machine slug file) :
    ∃ catalog now after resolved,
      loadStacksConfig machine.pydantic machine.seedStacks file =
          .ok catalog ∧
        create machine slug stack file = .ok (after, resolved) ∧
          loadStacksConfig machine.pydantic machine.seedStacks after =
              .ok now ∧
            catalog.get slug = none ∧
              ∀ other, now.get other =
                if other = slug then some stack else catalog.get other := by
  obtain ⟨isName, writable, catalog, loaded, isNew⟩ := accepts
  have absent := Table.get_eq_none_of_not_has isNew
  refine ⟨catalog, _, _, ⟨slug, stack, machine.seedStacks.has slug⟩, loaded,
    ?_, load_saveStacks (catalog.put slug stack), absent, ?_⟩
  · rw [create, if_pos isName, loaded]
    simp only [isNew]
    rw [if_neg Bool.false_ne_true, if_pos writable]
  · intro other
    rw [get_stack_saved, Table.get_put]
    intro seed isSeed
    have old := get_seed_of_stacks loaded isSeed
    rw [Table.get_put_of_ne _ _ stack]
    · exact old
    · rintro rfl
      rw [absent] at old
      cases old

/-- What is not accepted is raised. -/
theorem create_of_not_accepts (stack : StackConfig)
    (refuses : ¬ Accepts machine slug file) :
    ∃ raised, create machine slug stack file = .error raised := by
  unfold create
  cases isName : isStackName slug with
  | false => exact ⟨_, rfl⟩
  | true =>
    cases loaded : loadStacksConfig machine.pydantic machine.seedStacks file
      with
    | error error => exact ⟨.file error, rfl⟩
    | ok catalog =>
      cases isThere : catalog.has slug with
      | true =>
        exact ⟨.typed (alreadyExists machine slug), by simp [isThere]⟩
      | false =>
        cases writable : machine.stacksWritable with
        | true =>
          exact absurd ⟨isName, writable, catalog, loaded, isThere⟩
            refuses
        | false => exact ⟨.unwritable, by simp [isThere]⟩

theorem resolveEach_isSome {mids : List String} :
    (resolveEach machine stack mids).isSome = true ↔
      ∀ mid ∈ mids, (machine.has mid).isSome = true := by
  induction mids with
  | nil => simp [resolveEach]
  | cons mid rest ih =>
    rw [List.forall_mem_cons, ← ih, resolveEach]
    cases machine.has mid with
    | none => simp
    | some present =>
      cases resolveEach machine stack rest with
      | none => simp
      | some later => simp

theorem resolveModels_isSome :
    (resolveModels machine stack).isSome = true ↔ Answers machine stack := by
  rw [resolveModels, resolveEach_isSome]
  simp only [mem_inOrder]
  rfl

/-! ## Whole imports -/

variable {data : Value Real} {disk : Disk Real}

section

variable (isAdmitted : admitted machine data = .ok stack)
include isAdmitted

theorem importStack_of_not_passes
    (fails : ¬ PassesProfiles machine stack disk.profilesToml) :
    ∃ raised, importStack machine data slug disk = (disk, .error raised) := by
  obtain ⟨raised, refused⟩ := reconcile_of_not_passes fails
  refine ⟨raised, ?_⟩
  rw [importStack, isAdmitted]
  simp only [refused]

theorem importStack_of_not_accepts
    (passes : PassesProfiles machine stack disk.profilesToml)
    (refuses : ¬ Accepts machine slug disk.stacksToml) :
    ∃ after raised, importStack machine data slug disk =
        (⟨after, disk.stacksToml⟩, .error raised) ∧
      (after = disk.profilesToml ↔
        ¬ AddsProfile machine stack disk.profilesToml) := by
  obtain ⟨after, reconciled, -, same⟩ := reconcile_of_passes passes
  obtain ⟨raised, refused⟩ := create_of_not_accepts stack refuses
  refine ⟨after, raised, ?_, same⟩
  rw [importStack, isAdmitted]
  simp only [reconciled, refused]

/-- When the catalog accepts, the stack is stored before the registry is
asked. -/
theorem importStack_of_accepts
    (passes : PassesProfiles machine stack disk.profilesToml)
    (accepts : Accepts machine slug disk.stacksToml) :
    ∃ profiles stored outcome, importStack machine data slug disk =
        (⟨profiles, stored⟩, outcome) ∧
      KeepsProfiles machine disk.profilesToml profiles ∧
        stored ≠ disk.stacksToml ∧
          ((∃ returned, outcome = .ok returned) ↔ Answers machine stack) := by
  obtain ⟨profiles, reconciled, keeps, -⟩ := reconcile_of_passes passes
  obtain ⟨catalog, now, stored, resolved, loaded, created, isNow, absent,
    found⟩ := create_of_accepts stack accepts
  have changed : stored ≠ disk.stacksToml := by
    rintro rfl
    rw [loaded, Except.ok.injEq] at isNow
    have isThere := found slug
    rw [if_pos rfl, ← isNow, absent] at isThere
    cases isThere
  cases answered : resolveModels machine stack with
  | none =>
    refine ⟨profiles, stored, .error .registry, ?_, keeps, changed, ?_⟩
    · rw [importStack, isAdmitted]
      simp only [reconciled, created, answered]
    · rw [← resolveModels_isSome, answered]
      simp
  | some report =>
    refine ⟨profiles, stored, .ok (resolved, report), ?_, keeps, changed, ?_⟩
    · rw [importStack, isAdmitted]
      simp only [reconciled, created, answered]
    · rw [← resolveModels_isSome, answered]
      simp

end

/-- An import is whole unless the catalog or the registry refuses behind a
file which was already written. -/
theorem whole_iff :
    Whole machine disk (importStack machine data slug disk) ↔
      Settled machine data slug disk := by
  unfold Settled
  cases isAdmitted : admitted machine data with
  | error error =>
    rw [importStack, isAdmitted]
    simp [Whole]
  | ok stack =>
    constructor
    · intro whole other isOther passes
      cases isOther
      by_cases accepts : Accepts machine slug disk.stacksToml
      · obtain ⟨profiles, stored, outcome, imported, -, changed, answers⟩ :=
          importStack_of_accepts isAdmitted passes accepts
        rw [imported] at whole
        refine .inl ⟨accepts, answers.mp ?_⟩
        cases outcome with
        | error raised =>
          have same : (⟨profiles, stored⟩ : Disk Real) = disk := whole
          rw [← same] at changed
          exact absurd rfl changed
        | ok returned => exact ⟨returned, rfl⟩
      · obtain ⟨after, raised, imported, same⟩ :=
          importStack_of_not_accepts isAdmitted passes accepts
        rw [imported] at whole
        have unchanged : (⟨after, disk.stacksToml⟩ : Disk Real) = disk :=
          whole
        exact .inr ⟨accepts, same.mp (congrArg Disk.profilesToml unchanged)⟩
    · intro settled
      by_cases passes : PassesProfiles machine stack disk.profilesToml
      · rcases settled stack rfl passes with
          ⟨accepts, answers⟩ | ⟨refuses, addsNone⟩
        · obtain ⟨profiles, stored, outcome, imported, keeps, -, isOk⟩ :=
            importStack_of_accepts isAdmitted passes accepts
          obtain ⟨returned, rfl⟩ := isOk.mpr answers
          rw [imported]
          exact keeps
        · obtain ⟨after, raised, imported, same⟩ :=
            importStack_of_not_accepts isAdmitted passes refuses
          rw [imported, same.mpr addsNone]
          rfl
      · obtain ⟨raised, imported⟩ :=
          importStack_of_not_passes isAdmitted passes
        rw [imported]
        rfl

end Steps

/-! ## An import under a slug which is taken -/

/-- A machine without seeds, where nothing is screened and the registry is
empty. -/
def plainMachine : Machine Empty where
  pydantic := uncoerced
  seedProfiles := Table.empty
  seedStacks := Table.empty
  runtimeFamilyOf _ _ := "llama-server"
  screenProfileFlags _ _ := .ok ()
  nativeCtxProblem _ _ := none
  repr text := "'" ++ text ++ "'"
  profilesWritable := true
  stacksWritable := true
  has _ := some false

/-- No profile, and a stack `chat`. -/
def takenDisk : Disk Empty where
  profilesToml := .missing
  stacksToml := .table [("stack", .dict [("chat", .dict [])])]

/-- An envelope of a stack with one profile. -/
def tunedEnvelope : Value Empty :=
  .dict [("kind", .str "hal0.stack"), ("schema_version", .int 3),
    ("stack", .dict [("name", .str "Chat"),
      ("profiles", .dict [("tuned", .dict [("flags", .str "--no-mmap")])])])]

/-- The import raises `stacks.exists`, and the profile stays. -/
theorem taken_not_whole :
    ¬ Whole plainMachine takenDisk
      (importStack plainMachine tunedEnvelope "chat" takenDisk) := by
  intro whole
  have imported : importStack plainMachine tunedEnvelope "chat" takenDisk =
      (⟨.table [("profile", .dict [("tuned", .dict [("flags",
          .str "--no-mmap"), ("vision", .str "auto"),
          ("speculation", .str "auto"), ("intent", .str "")])])],
        takenDisk.stacksToml⟩,
        .error (.typed (alreadyExists plainMachine "chat"))) := by
    rfl
  rw [imported] at whole
  cases congrArg Disk.profilesToml whole

end Hal0.Stacks.Portable
