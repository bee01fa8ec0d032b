import Hal0.Registry.Download

/-!
# A resumed download does not mix two versions

The sidecar which a failing attempt writes has the etag of the answer, so that
`If-Range` guards the next resume.  An attempt which is interrupted before its
headers has no etag to write.  When it was itself a resume, the part is kept
without the condition which guarded it, and the next attempt may append the
tail of another version.  In the runs in which this does not happen every
installed file is one version.
-/

namespace Hal0.Registry.Download

open List Option
open Hal0.Transition

/-! ## What is staged -/

/-- The part is the beginning of a version which was served at `url`. -/
def Begins (served : List (Url × Version)) (url : Url) (etag : String)
    (part : Bytes) : Prop :=
  ∃ version, (url, version) ∈ served ∧ version.etag = etag ∧
    part <+: version.bytes

/-- What the sidecar promises when no attempt runs. -/
def Vouched (served : List (Url × Version)) (staging : Staging) : Prop :=
  ∀ url noted part, staging.readResumeSidecar url = some noted →
    staging.part = some part →
      ∃ etag, noted.etag = some etag ∧ Begins served url etag part

/-- What a suspended attempt relies on. -/
def Relies (served : List (Url × Version)) (staging : Staging) : Pc → Prop
  | .requesting attempt =>
    (attempt.resumeFrom = 0 ∧ staging.part = none) ∨
      ∃ part etag, staging.part = some part ∧
        part.length = attempt.resumeFrom ∧
        attempt.ifRange = some etag ∧ Begins served attempt.url etag part
  | .rehashing attempt version =>
    (attempt.url, version) ∈ served ∧
      ∃ part, staging.part = some part ∧
        part.length = attempt.resumeFrom ∧ part <+: version.bytes
  | .streaming attempt version hashed rest =>
    (attempt.url, version) ∈ served ∧ staging.part = some hashed ∧
      hashed ++ rest = version.bytes

/-- An installed file is one version, whose advertised hash it has. -/
def Install.Whole (sha256 : Bytes → String) (served : List (Url × Version))
    (installed : Install) : Prop :=
  ∃ version, (installed.url, version) ∈ served ∧
    installed.bytes = version.bytes ∧
    installed.digest = sha256 installed.bytes ∧
    (∀ hash, installed.preset = some hash → hash ≠ "" →
      installed.digest = hash) ∧
    (installed.preset = none → ∀ hash, version.advertised = some hash →
      hash ≠ "" → installed.digest = hash)

/-- An etag names one version of its url. -/
def Distinguished (served : List (Url × Version)) : Prop :=
  ∀ url first second, (url, first) ∈ served → (url, second) ∈ served →
    first.etag = second.etag → first = second

/-- What holds of the staging in every run. -/
structure Sound (sha256 : Bytes → String) (state : State) : Prop where
  distinguished : Distinguished state.served
  named : ∀ url version, (url, version) ∈ state.served → version.etag ≠ ""
  vouched : state.attempt = none → Vouched state.served state.staging
  relies : ∀ pc, state.attempt = some pc →
    Relies state.served state.staging pc
  whole : ∀ installed ∈ state.installs, installed.Whole sha256 state.served

/-! ## Staging -/

variable {staging : Staging} {url : Url}

theorem readResumeSidecar_eq_some {noted : Meta}
    (read : staging.readResumeSidecar url = some noted) :
    ∃ part, staging.part = some part ∧ staging.sidecar = some noted ∧
      0 < noted.bytes ∧ noted.url = url ∧ part.length = noted.bytes := by
  unfold Staging.readResumeSidecar at read
  split at read
  · next part kept isPart isKept =>
      split at read
      · next trusted =>
          cases read
          exact ⟨part, isPart, isKept, trusted⟩
      · cases read
  · cases read

theorem vouched_discardPartial (served : List (Url × Version)) :
    Vouched served Staging.discardPartial := by
  intro url noted part read
  cases read

variable {served : List (Url × Version)}

theorem vouched_of_no_sidecar (dropped : staging.sidecar = none) :
    Vouched served staging := by
  intro url noted part read
  obtain ⟨_, _, kept, _⟩ := readResumeSidecar_eq_some read
  simp [dropped] at kept

theorem vouched_writeResumeSidecar {etag : Option String}
    (begins : ∀ part, staging.part = some part → part ≠ [] →
      ∃ known, etag = some known ∧ Begins served url known part) :
    Vouched served (staging.writeResumeSidecar url etag) := by
  unfold Staging.writeResumeSidecar
  split
  · exact vouched_discardPartial served
  · next part isPart =>
      split
      · exact vouched_discardPartial served
      · next nonempty =>
          intro other noted staged read isStaged
          obtain ⟨same, isSame, kept, -, sameUrl, -⟩ :=
            readResumeSidecar_eq_some read
          cases isStaged
          cases kept
          cases sameUrl
          exact begins part isPart (by simpa using nonempty)

/-! ## The server -/

theorem mem_of_current {version : Version}
    (isCurrent : current served url = some version) :
    (url, version) ∈ served := by
  unfold current at isCurrent
  obtain ⟨⟨other, same⟩, found, rfl⟩ := map_eq_some_iff.mp isCurrent
  have listed := mem_of_find?_eq_some found
  have sameUrl : other = url := by simpa using find?_some found
  exact sameUrl ▸ listed

theorem Begins.publish {etag : String} {part : Bytes}
    (begins : Begins served url etag part)
    (new : Url × Version) : Begins (new :: served) url etag part := by
  obtain ⟨version, listed, isEtag, isBeginning⟩ := begins
  exact ⟨version, mem_cons_of_mem _ listed, isEtag, isBeginning⟩

theorem Relies.publish {pc : Pc} (relies : Relies served staging pc)
    (new : Url × Version) :
    Relies (new :: served) staging pc := by
  cases pc with
  | requesting attempt =>
    rcases relies with nothing | ⟨part, etag, isPart, long, guarded, begins⟩
    · exact .inl nothing
    · exact .inr ⟨part, etag, isPart, long, guarded, begins.publish new⟩
  | rehashing attempt version =>
    exact ⟨mem_cons_of_mem _ relies.1, relies.2⟩
  | streaming attempt version hashed rest =>
    exact ⟨mem_cons_of_mem _ relies.1, relies.2⟩

variable {sha256 : Bytes → String}

theorem Install.Whole.publish {installed : Install}
    (whole : installed.Whole sha256 served) (new : Url × Version) :
    installed.Whole sha256 (new :: served) := by
  obtain ⟨version, listed, facts⟩ := whole
  exact ⟨version, mem_cons_of_mem _ listed, facts⟩

theorem Distinguished.publish {version : Version}
    (distinguished : Distinguished served)
    (own : ∀ old ∈ served, old.1 = url → old.2.etag = version.etag →
      old.2 = version) :
    Distinguished ((url, version) :: served) := by
  intro place first second firstListed secondListed same
  rcases mem_cons.mp firstListed with isNew | firstOld
  · cases isNew
    rcases mem_cons.mp secondListed with isNew | secondOld
    · cases isNew
      rfl
    · exact (own _ secondOld rfl same.symm).symm
  · rcases mem_cons.mp secondListed with isNew | secondOld
    · cases isNew
      exact own _ firstOld rfl same
    · exact distinguished place first second firstOld secondOld same

/-! ## One step -/

namespace Sound

variable {sha256 : Bytes → String} {state : State}

theorem ends (sound : Sound sha256 state) {staging : Staging}
    (vouched : Vouched state.served staging) :
    Sound sha256 (state.ends staging) where
  distinguished := sound.distinguished
  named := sound.named
  vouched := fun _ => vouched
  relies := nofun
  whole := sound.whole

theorem at_ (sound : Sound sha256 state) {staging : Staging} {pc : Pc}
    (relies : Relies state.served staging pc) :
    Sound sha256 (state.at staging pc) where
  distinguished := sound.distinguished
  named := sound.named
  vouched := nofun
  relies := fun other suspended => by
    cases suspended
    exact relies
  whole := sound.whole

theorem discards (sound : Sound sha256 state) :
    Sound sha256 (state.ends .discardPartial) :=
  sound.ends (vouched_discardPartial _)

variable {version : Version}

/-- Publishing a new object keeps it. -/
theorem publish (sound : Sound sha256 state) {url : Url}
    (named : version.etag ≠ "")
    (own : ∀ old ∈ state.served, old.1 = url → old.2.etag = version.etag →
      old.2 = version) :
    Sound sha256
      { state with served := (url, version) :: state.served } where
  distinguished := sound.distinguished.publish own
  named := by
    intro place other listed
    rcases mem_cons.mp listed with isNew | old
    · cases isNew
      exact named
    · exact sound.named place other old
  vouched := by
    intro idle place noted part read isPart
    obtain ⟨etag, isEtag, begins⟩ :=
      sound.vouched idle place noted part read isPart
    exact ⟨etag, isEtag, begins.publish _⟩
  relies := fun pc suspended => (sound.relies pc suspended).publish _
  whole := fun installed listed => (sound.whole installed listed).publish _

theorem begin (sound : Sound sha256 state) (idle : state.attempt = none)
    (url : Url) (preset : Option String) :
    Sound sha256 (begin state url preset) := by
  unfold Download.begin
  split
  · next noted read =>
      apply sound.at_
      obtain ⟨part, isPart, -, -, -, long⟩ := readResumeSidecar_eq_some read
      obtain ⟨etag, isEtag, begins⟩ :=
        sound.vouched idle url noted part read isPart
      have nonempty : etag ≠ "" := by
        obtain ⟨version, listed, rfl, -⟩ := begins
        exact sound.named url version listed
      refine .inr ⟨part, etag, isPart, long, ?_, begins⟩
      simp [isEtag, nonempty]
  · apply sound.at_
    exact .inl ⟨rfl, rfl⟩

variable {attempt : Attempt}

section

variable (sound : Sound sha256 state)
include sound

/-- A response begins or goes on with a version. -/
theorem respond {response : Response} {after : State}
    (suspended : state.attempt = some (.requesting attempt))
    (isCurrent : current state.served attempt.url = some version)
    (responded : respond state attempt version response = some after) :
    Sound sha256 after := by
  have listed := mem_of_current isCurrent
  cases response with
  | rangeNotSatisfiable =>
    simp only [Download.respond] at responded
    split at responded
    · cases responded
      apply sound.at_
      exact .inl ⟨rfl, rfl⟩
    · cases responded
      exact sound.discards
  | refused =>
    cases responded
    exact sound.discards
  | full =>
    cases responded
    apply sound.at_
    exact ⟨listed, rfl, rfl⟩
  | partialContent range =>
    simp only [Download.respond] at responded
    split at responded
    · next honoured =>
        split at responded
        · cases responded
          exact sound.discards
        · cases responded
          apply sound.at_
          rcases sound.relies _ suspended with
            nothing | ⟨part, etag, isPart, long, guarded, begins⟩
          · omega
          · obtain ⟨old, oldListed, isEtag, isBeginning⟩ := begins
            have sameEtag : old.etag = version.etag := by
              rcases honoured.2 with unguarded | matching
              · simp [guarded] at unguarded
              · rw [isEtag]
                exact some.inj (guarded.symm.trans matching)
            have same := sound.distinguished _ old version oldListed listed
              sameEtag
            subst same
            exact ⟨listed, part, isPart, long, isBeginning⟩
    · cases responded

theorem rehashed {part : Bytes}
    (suspended : state.attempt = some (.rehashing attempt version))
    (isPart : state.staging.part = some part) :
    Sound sha256 (state.at state.staging (.streaming attempt version part
      (version.bytes.drop attempt.resumeFrom))) := by
  obtain ⟨listed, staged, isStaged, long, isBeginning⟩ :=
    sound.relies _ suspended
  cases some.inj (isPart.symm.trans isStaged)
  apply sound.at_
  refine ⟨listed, isPart, ?_⟩
  rw [← long]
  exact prefix_iff_eq_append.mp isBeginning

theorem chunk {hashed rest part : Bytes} (length : Nat)
    (suspended : state.attempt =
      some (.streaming attempt version hashed rest))
    (isPart : state.staging.part = some part) :
    Sound sha256 (state.at
      { state.staging with part := some (part ++ rest.take length) }
      (.streaming attempt version (hashed ++ rest.take length)
        (rest.drop length))) := by
  obtain ⟨listed, isHashed, complete⟩ := sound.relies _ suspended
  cases some.inj (isPart.symm.trans isHashed)
  apply sound.at_
  refine ⟨listed, rfl, ?_⟩
  rw [append_assoc, take_append_drop, complete]

/-- What is installed is one version. -/
theorem install {hashed part : Bytes}
    (suspended : state.attempt = some (.streaming attempt version hashed []))
    (isPart : state.staging.part = some part) :
    Sound sha256 (install sha256 state attempt version hashed part) := by
  obtain ⟨listed, isHashed, complete⟩ := sound.relies _ suspended
  cases some.inj (isPart.symm.trans isHashed)
  rw [append_nil] at complete
  unfold Download.install
  dsimp only
  split
  · exact sound.ends (vouched_of_no_sidecar rfl)
  · next matching =>
      refine ⟨sound.distinguished, sound.named,
        fun _ => vouched_discardPartial _,
        fun pc running => (by cases running), ?_⟩
      intro installed isInstalled
      rcases mem_append.mp isInstalled with before | new
      · exact sound.whole installed before
      · cases mem_singleton.mp new
        refine ⟨version, listed, complete, rfl, ?_, ?_⟩
        · intro hash given nonempty
          dsimp only at given ⊢
          simpa [Attempt.mismatches, Attempt.expected, given, nonempty]
            using matching
        · intro ungiven hash advertised nonempty
          dsimp only at ungiven ⊢
          simpa [Attempt.mismatches, Attempt.expected, ungiven, advertised,
            nonempty] using matching

end

end Sound

/-! ## Runs -/

/-- No attempt which resumes a part is interrupted before its headers. -/
def Guarded (state : State) : Action → Prop
  | .interrupt .transport | .interrupt .taskCancelled =>
    ∀ attempt, state.attempt = some (.requesting attempt) →
      attempt.resumeFrom = 0
  | _ => True

instance (state : State) (action : Action) :
    Decidable (Guarded state action) :=
  match action with
  | .interrupt .transport | .interrupt .taskCancelled =>
    match suspended : state.attempt with
    | some (.requesting attempt) =>
      decidable_of_iff (attempt.resumeFrom = 0)
        ⟨fun fresh _ same => by
          cases some.inj (suspended.symm.trans same)
          exact fresh, fun guarded => guarded attempt suspended⟩
    | some (.rehashing _ _) | some (.streaming _ _ _ _) | none =>
      .isTrue fun _ same => by simp [suspended] at same
  | .interrupt .userCancelled | .interrupt .failed | .publish _ _
  | .start _ _ | .respond _ | .rehashed | .chunk _ | .finish =>
    .isTrue trivial

theorem Sound.interrupted {state : State} {pc : Pc}
    (sound : Sound sha256 state) (suspended : state.attempt = some pc)
    (guarded : ∀ attempt, state.attempt = some (.requesting attempt) →
      attempt.resumeFrom = 0) :
    Vouched state.served
      (state.staging.writeResumeSidecar pc.url pc.capturedEtag) := by
  apply vouched_writeResumeSidecar
  intro part isPart nonempty
  have relies := sound.relies pc suspended
  cases pc with
  | requesting attempt =>
    have fresh := guarded attempt suspended
    rcases relies with nothing | ⟨staged, etag, isStaged, long, -⟩
    · simp [nothing.2] at isPart
    · cases some.inj (isPart.symm.trans isStaged)
      rw [fresh, length_eq_zero_iff] at long
      exact absurd long nonempty
  | rehashing attempt version =>
    obtain ⟨listed, staged, isStaged, -, isBeginning⟩ := relies
    cases some.inj (isPart.symm.trans isStaged)
    exact ⟨version.etag, rfl, version, listed, rfl, isBeginning⟩
  | streaming attempt version hashed rest =>
    obtain ⟨listed, isHashed, complete⟩ := relies
    cases some.inj (isPart.symm.trans isHashed)
    exact ⟨version.etag, rfl, version, listed, rfl, rest, complete⟩

/-- What is staged stays of one version. -/
theorem Sound.interrupt {state after : State} {pc : Pc}
    {interruption : Interruption} (sound : Sound sha256 state)
    (suspended : state.attempt = some pc)
    (guarded : Guarded state (.interrupt interruption))
    (stopped : interrupt state pc interruption = some after) :
    Sound sha256 after := by
  cases interruption with
  | transport =>
    cases stopped
    exact sound.ends (sound.interrupted suspended guarded)
  | taskCancelled =>
    cases stopped
    exact sound.ends (sound.interrupted suspended guarded)
  | userCancelled =>
    simp only [Download.interrupt] at stopped
    split at stopped
    · cases stopped
      exact sound.discards
    · cases stopped
  | failed =>
    cases stopped
    exact sound.discards

/-- Every guarded step keeps it. -/
theorem Sound.step {state next : State} {action : Action}
    (sound : Sound sha256 state) (guarded : Guarded state action)
    (moved : step sha256 state action = some next) : Sound sha256 next := by
  cases action with
  | publish url version =>
    simp only [Download.step] at moved
    split at moved
    · next fresh =>
        cases moved
        exact sound.publish fresh.1 fresh.2
    · cases moved
  | start url preset =>
    simp only [Download.step] at moved
    split at moved
    · next idle =>
        cases moved
        exact sound.begin (isNone_iff_eq_none.mp idle) url preset
    · cases moved
  | respond response =>
    simp only [Download.step] at moved
    split at moved
    · next attempt suspended =>
        split at moved
        · next version isCurrent =>
            exact sound.respond suspended isCurrent moved
        · cases moved
          exact sound.discards
    · cases moved
  | rehashed =>
    simp only [Download.step] at moved
    split at moved
    · next attempt version part suspended isPart =>
        split at moved
        · cases moved
          exact sound.rehashed suspended isPart
        · cases moved
          exact sound.discards
    · cases moved
  | chunk length =>
    simp only [Download.step] at moved
    split at moved
    · next attempt version hashed rest part suspended isPart =>
        cases moved
        exact sound.chunk length suspended isPart
    · cases moved
  | finish =>
    simp only [Download.step] at moved
    split at moved
    · next attempt version hashed part suspended isPart =>
        cases moved
        exact sound.install suspended isPart
    · cases moved
  | interrupt interruption =>
    simp only [Download.step] at moved
    split at moved
    · next pc suspended => exact sound.interrupt suspended guarded moved
    · cases moved

theorem Sound.empty (sha256 : Bytes → String) : Sound sha256 empty where
  distinguished := by
    intro url first second listed
    cases listed
  named := by
    intro url version listed
    cases listed
  vouched := fun _ => vouched_discardPartial _
  relies := nofun
  whole := nofun

/-- Whatever is installed is one version which the server served. -/
theorem installs_are_whole (sha256 : Bytes → String) {actions : List Action}
    {state : State}
    (run : Run (step sha256) Guarded empty actions state) :
    ∀ installed ∈ state.installs, installed.Whole sha256 state.served := by
  have sound := run.invariant (Sound sha256) (Sound.empty sha256)
    fun _ _ _ kept guarded moved => kept.step guarded moved
  exact sound.whole

/-! ## Two versions of one file -/

def spelled (bytes : Bytes) : String :=
  String.ofList (bytes.map fun byte => Char.ofNat byte.toNat)

def oldVersion : Version := ⟨"e1", [1, 2, 3, 4], []⟩

def newVersion : Version := ⟨"e2", [5, 6, 7, 8], []⟩

/-- Half of the old object is staged. -/
def halfOfOld : List Action :=
  [.publish "u" oldVersion, .start "u" none, .respond .full, .chunk 2,
    .interrupt .transport]

/-- The object has changed before the resume. -/
def restarts : List Action :=
  halfOfOld ++ [.publish "u" newVersion, .start "u" none, .respond .full,
    .chunk 4, .finish]

/-- The next attempt is cancelled before its headers; one more follows. -/
def resumesTwice : List Action :=
  halfOfOld ++ [.start "u" none, .interrupt .taskCancelled,
    .publish "u" newVersion, .start "u" none,
    .respond (.partialContent (some (2, 3, 4))), .rehashed, .chunk 2, .finish]

/-- The old half is thrown away. -/
theorem changed_object_restarts :
    ∃ state, Run (step spelled) Guarded empty restarts state ∧
      state.installs.map Install.bytes = [[5, 6, 7, 8]] ∧
      ∀ installed ∈ state.installs,
        installed.Whole spelled state.served := by
  obtain ⟨state, run, isNew⟩ := Run.exists_of_exec (step spelled) Guarded
    empty restarts
    (fun state => state.installs.map Install.bytes = [[5, 6, 7, 8]])
    (by decide)
  exact ⟨state, run, by simpa using isNew, installs_are_whole spelled run⟩

/--
The tail of the new version is appended to the beginning of the old one, and
the mixture is installed.
-/
theorem interrupted_resume_mixes_versions :
    ∃ state, Run (step spelled) Anything empty resumesTwice state ∧
      state.installs.map Install.bytes = [[1, 2, 7, 8]] ∧
      ¬ ∀ installed ∈ state.installs,
        installed.Whole spelled state.served := by
  obtain ⟨state, run, mixed⟩ := Run.exists_of_exec (step spelled) Anything
    empty resumesTwice
    (fun state =>
      state.installs = [⟨"u", none, [1, 2, 7, 8], spelled [1, 2, 7, 8]⟩] ∧
        state.served = [("u", newVersion), ("u", oldVersion)])
    (by decide)
  obtain ⟨installs, served⟩ : _ ∧ _ := of_decide_eq_true mixed
  refine ⟨state, run, by rw [installs]; rfl, ?_⟩
  intro whole
  obtain ⟨version, listed, same, -⟩ :=
    whole _ (by rw [installs]; exact mem_singleton.mpr rfl)
  rw [served] at listed
  simp only [mem_cons, Prod.mk.injEq, true_and, not_mem_nil,
    or_false] at listed
  rcases listed with rfl | rfl
  · exact absurd same (by decide)
  · exact absurd same (by decide)

end Hal0.Registry.Download
