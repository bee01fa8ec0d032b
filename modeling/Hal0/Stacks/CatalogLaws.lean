import Hal0.Stacks.Catalogs

/-!
# What is loaded after a save

A catalog which is saved and loaded again has the same valid entries.  What was
put aside is still there unless its name has become valid.
-/

namespace Hal0.Stacks.Portable

open List
open Hal0.Json

variable {Real : Type} {pydantic : Pydantic Real}

/-! ## Profiles -/

section Profiles

variable {seeds : Table ProfileConfig}

/-- The profiles of the file, where they are valid. -/
theorem get_profile_entries {entries : List (String × Value Real)}
    (distinct : (entries.map Prod.fst).Nodup) (config : ProfilesConfig Real)
    (name : String) :
    (entries.foldl (loadEntry pydantic) config).profile.get name =
      ((entries.lookup name).bind (validateProfile pydantic)).or
        (config.profile.get name) := by
  induction entries generalizing config with
  | nil => rfl
  | cons entry rest ih =>
    obtain ⟨key, value⟩ := entry
    rw [map_cons, nodup_cons] at distinct
    rw [foldl_cons, ih distinct.2, lookup_cons]
    by_cases same : name = key
    · subst same
      rw [lookup_eq_none distinct.1, beq_self_eq_true, loadEntry]
      cases validated : validateProfile pydantic value with
      | none => simp [validated]
      | some profile => simp [validated]
    · have other : (name == key) = false := by simpa using same
      rw [other, loadEntry]
      cases validateProfile pydantic value with
      | none => rfl
      | some profile => simp [Table.get_put_of_ne _ same]

theorem profile_overlay (entries : List (String × ProfileConfig))
    (config : ProfilesConfig Real) :
    (entries.foldl overlaySeed config).profile =
      config.profile.putAll entries := by
  unfold Table.putAll
  induction entries generalizing config with
  | nil => rfl
  | cons entry rest ih => exact ih _

theorem get_seed_of_config (entries unknown : List (String × Value Real))
    {name : String} {seed : ProfileConfig} (isSeed : seeds.get name = some seed) :
    (configOf pydantic seeds entries unknown).profile.get name = some seed := by
  rw [configOf, profile_overlay, Table.get_putAll _ seeds.distinct]
  change Option.or (seeds.get name) _ = _
  rw [isSeed]
  rfl

theorem get_profile_config {entries : List (String × Value Real)}
    (distinct : (entries.map Prod.fst).Nodup)
    (unknown : List (String × Value Real)) (name : String) :
    (configOf pydantic seeds entries unknown).profile.get name =
      (seeds.get name).or ((entries.lookup name).bind
        (validateProfile pydantic)) := by
  rw [configOf, profile_overlay, Table.get_putAll _ seeds.distinct]
  change Option.or (seeds.get name) ((entries.foldl (loadEntry pydantic)
    ⟨Table.empty, Table.empty, []⟩).profile.get name) = _
  rw [get_profile_entries distinct, Table.get_empty, Option.or_none]

theorem get_seed_of_loaded {file : File Real} {config : ProfilesConfig Real}
    (loaded : loadProfilesConfig pydantic seeds file = .ok config)
    {name : String} {seed : ProfileConfig} (isSeed : seeds.get name = some seed) :
    config.profile.get name = some seed := by
  unfold loadProfilesConfig at loaded
  split at loaded
  · cases loaded
    exact isSeed
  · cases loaded
  · split at loaded
    · cases loaded
      exact get_seed_of_config _ _ isSeed
    · cases loaded
      exact get_seed_of_config _ _ isSeed
    · cases loaded

/-- What is quarantined is written back. -/
theorem get_keepQuarantined (entries : List (String × Value Real))
    (data : Table (Value Real)) (name : String) :
    (entries.foldl (keepQuarantined seeds) data).get name =
      (data.get name).or
        (if seeds.has name then none else entries.lookup name) := by
  induction entries generalizing data with
  | nil => simp
  | cons entry rest ih =>
    obtain ⟨key, value⟩ := entry
    rw [foldl_cons, ih, lookup_cons, keepQuarantined]
    by_cases same : name = key
    · subst same
      rw [beq_self_eq_true]
      cases isSeed : seeds.has name with
      | true => simp
      | false =>
        cases found : data.get name with
        | none => simp [Table.has, found]
        | some value => simp [Table.has, found]
    · have other : (name == key) = false := by simpa using same
      rw [other]
      split
      · rfl
      · rw [Table.get_put_of_ne _ same]

theorem get_savedProfiles (config : ProfilesConfig Real) (name : String) :
    (savedProfiles seeds config).get name =
      if seeds.has name then none
      else ((config.profile.get name).map profileSparseDump).or
        (config.quarantined.get name) := by
  rw [savedProfiles, get_keepQuarantined, Table.get_map, Table.get_filter]
  cases seeds.has name with
  | true => rfl
  | false => rfl

/-- A default fills in what is missing. -/
theorem lookup_setDefault (entries data : List (String × Value Real))
    (key : String) :
    (entries.foldl setDefault data).lookup key =
      (data.lookup key).or (entries.lookup key) := by
  induction entries generalizing data with
  | nil => simp
  | cons entry rest ih =>
    obtain ⟨first, value⟩ := entry
    rw [foldl_cons, ih, lookup_cons, setDefault]
    by_cases same : key = first
    · subst same
      rw [beq_self_eq_true]
      cases found : data.lookup key with
      | none => simp [lookup_append, found]
      | some value => simp [found]
    · have other : (key == first) = false := by simpa using same
      rw [other]
      split
      · rfl
      · simp [lookup_append, lookup_cons, other]

theorem load_save (config : ProfilesConfig Real) :
    ∃ unknown, loadProfilesConfig pydantic seeds
        (.table (saveProfilesConfig seeds config)) =
      .ok (configOf pydantic seeds (savedProfiles seeds config).entries
        unknown) := by
  have stored : (saveProfilesConfig seeds config).lookup "profile" =
      some (.dict (savedProfiles seeds config).entries) := by
    rw [saveProfilesConfig, lookup_setDefault]
    rfl
  rw [loadProfilesConfig, stored]
  exact ⟨_, rfl⟩

/-- A saved profile is loaded again. -/
theorem get_profile_saved {config : ProfilesConfig Real} {name : String}
    {profile : ProfileConfig} (unknown : List (String × Value Real))
    (isThere : config.profile.get name = some profile)
    (ofSeeds : ∀ seed, seeds.get name = some seed → seed = profile) :
    (configOf pydantic seeds (savedProfiles seeds config).entries
      unknown).profile.get name = some profile := by
  rw [get_profile_config (savedProfiles seeds config).distinct]
  cases isSeed : seeds.get name with
  | some seed =>
    rw [ofSeeds seed isSeed]
    rfl
  | none =>
    have stored : (savedProfiles seeds config).entries.lookup name =
        some (profileSparseDump profile) := by
      have found : (savedProfiles seeds config).get name = _ :=
        get_savedProfiles config name
      rw [Table.has, isSeed, isThere] at found
      exact found
    rw [stored, Option.none_or, Option.bind_some, validateProfile_dump]

end Profiles

/-! ## Stacks -/

section Stacks

variable {seeds : Table StackConfig}

theorem get_withSeedStacks (operator : Table StackConfig) (slug : String) :
    (withSeedStacks seeds operator).get slug =
      (operator.get slug).or (seeds.get slug) :=
  Table.get_putAll seeds operator.distinct slug

theorem operatorEntries_of_filter (config : Table StackConfig) :
    operatorEntries seeds ((config.filter fun slug => !seeds.has slug).map
        storedStackBody).entries =
      (((config.filter fun slug => !seeds.has slug).map
        storedStackBody).entries : List (String × Value Real)) := by
  rw [operatorEntries, filter_eq_self]
  intro entry isIn
  obtain ⟨stored, isStored, rfl⟩ := mem_map.mp isIn
  exact (mem_filter.mp isStored).2

/-- Saved stacks are loaded again. -/
theorem load_saveStacks (config : Table StackConfig) :
    loadStacksConfig pydantic seeds (.table (saveStacksConfig seeds config)) =
      .ok (withSeedStacks seeds
        (config.filter fun slug => !seeds.has slug)) := by
  have validated : validateStacks pydantic seeds
      (saveStacksConfig seeds config) =
        some (config.filter fun slug => !seeds.has slug) := by
    have entries : (saveStacksConfig seeds config).lookup "stack" =
        some (.dict ((config.filter fun slug => !seeds.has slug).map
          storedStackBody).entries : Value Real) := rfl
    have isKnown : known ["stack"]
        (saveStacksConfig seeds config : List (String × Value Real)) = true :=
      rfl
    rw [validateStacks, isKnown, if_pos rfl, entries]
    dsimp only
    rw [operatorEntries_of_filter]
    exact readTable_map (validateStack_stored pydantic) _
  rw [loadStacksConfig, validated]

theorem get_stack_saved (config : Table StackConfig) (slug : String)
    (ofSeeds : ∀ seed, seeds.get slug = some seed →
      config.get slug = some seed) :
    (withSeedStacks seeds (config.filter fun slug => !seeds.has slug)).get
      slug = config.get slug := by
  rw [get_withSeedStacks, Table.get_filter]
  cases isSeed : seeds.get slug with
  | none => simp [Table.has, isSeed]
  | some seed => simp [Table.has, isSeed, ofSeeds seed isSeed]

/-- No seed is among the operator's stacks. -/
theorem get_seed_of_operator {raw : List (String × Value Real)}
    {operator : Table StackConfig}
    (validated : validateStacks pydantic seeds raw = some operator)
    {slug : String} (isSeed : seeds.has slug = true) :
    operator.get slug = none := by
  unfold validateStacks at validated
  split at validated
  · split at validated
    · cases validated
      rfl
    · next entries found =>
        refine lookup_eq_none ?_
        rw [keys_readTable validated]
        intro isIn
        obtain ⟨entry, isEntry, rfl⟩ := mem_map.mp isIn
        have notSeed := (mem_filter.mp isEntry).2
        rw [isSeed] at notSeed
        exact absurd notSeed (by decide)
    · cases validated
  · cases validated

/-- Every seed is loaded. -/
theorem get_seed_of_stacks {file : File Real} {config : Table StackConfig}
    (loaded : loadStacksConfig pydantic seeds file = .ok config)
    {slug : String} {seed : StackConfig} (isSeed : seeds.get slug = some seed) :
    config.get slug = some seed := by
  unfold loadStacksConfig at loaded
  split at loaded
  · cases loaded
    rw [get_withSeedStacks, isSeed]
    rfl
  · cases loaded
  · split at loaded
    · next operator validated =>
        cases loaded
        have absent := get_seed_of_operator validated
          (Table.has_iff.mpr ⟨seed, isSeed⟩)
        rw [get_withSeedStacks, absent, isSeed]
        rfl
    · cases loaded

end Stacks

end Hal0.Stacks.Portable
