import Hal0.Slots.ArbiterProgram
import Mathlib.Data.List.Nodup

/-!
# Crash recovery of the GPU switch

The target of a switch is written before the first unload and cleared after
the last reload.  So whatever the arbiter took off the GPU, and did not try to
load again, is in the saved set on disk, and the mode on disk is image mode:
a process which starts at that point knows what to bring back.
-/

namespace Hal0.Slots.Arbiter

open Function List
open Hal0.Transition Hal0.Monitor

/-! ## The slots a switch unloads -/

theorem map_fst_dictSet {Value : Type} (entries : List (String × Value))
    (key : String) (value : Value) :
    (dictSet entries key value).map Prod.fst =
      if key ∈ entries.map Prod.fst then entries.map Prod.fst
      else entries.map Prod.fst ++ [key] := by
  have known : (entries.any fun entry => entry.1 = key) = true ↔
      key ∈ entries.map Prod.fst := by
    simp only [any_eq_true, decide_eq_true_eq, mem_map]
  unfold dictSet
  by_cases present : key ∈ entries.map Prod.fst
  · rw [if_pos (known.mpr present), if_pos present, map_map]
    apply map_congr_left
    intro entry _
    by_cases same : entry.1 = key
    · simp [same]
    · simp [same]
  · rw [if_neg (fun found => present (known.mp found)), if_neg present,
      map_append]
    rfl

theorem nodup_dictSet {Value : Type} {entries : List (String × Value)}
    (once : (entries.map Prod.fst).Nodup) (key : String) (value : Value) :
    ((dictSet entries key value).map Prod.fst).Nodup := by
  rw [map_fst_dictSet]
  split_ifs with present
  · exact once
  · exact once.append (nodup_singleton key)
      (disjoint_singleton.mpr present)

theorem nodup_refreshGroupCache (arbiter : GpuArbiter)
    (configs : List SlotConfig) :
    ((arbiter.refreshGroupCache configs).groupCache.map Prod.fst).Nodup := by
  have kept : ∀ cache : List (String × Option Group),
      (cache.map Prod.fst).Nodup →
      ((configs.foldl (fun cache config =>
        dictSet cache config.name (gpuExclusiveGroup config))
          cache).map Prod.fst).Nodup := by
    induction configs with
    | nil => exact fun _ once => once
    | cons config rest reached =>
      intro cache once
      exact reached _ (nodup_dictSet once config.name _)
  exact kept [] nodup_nil

theorem nodup_llmSlotsToUnload {arbiter : GpuArbiter}
    (once : (arbiter.groupCache.map Prod.fst).Nodup) :
    arbiter.llmSlotsToUnload.Nodup :=
  (filter_sublist.map Prod.fst).nodup once

/-! ## The invariant -/

/--
What is off the GPU by the arbiter's doing is recorded in memory and on disk,
and it stays off.
-/
structure Recoverable (arbiter : GpuArbiter) : Prop where
  written : loadState arbiter.file = arbiter.state
  saved : ∀ slot ∈ arbiter.unloaded, slot ∈ arbiter.state.savedLlmSlots
  image : ∀ slot ∈ arbiter.unloaded, arbiter.state.mode = .img
  empty : arbiter.state.mode = .llm → arbiter.state.savedLlmSlots = []
  gone : ∀ slot ∈ arbiter.unloaded, arbiter.onGpu slot = false
  once : arbiter.state.savedLlmSlots.Nodup

/-- The slots a switch is about to unload: saved, and not yet taken down. -/
structure Pending (arbiter : GpuArbiter) (slots saved : List String) :
    Prop where
  recorded : arbiter.state.savedLlmSlots = saved
  among : slots ⊆ saved
  once : slots.Nodup
  loaded : ∀ slot ∈ slots, slot ∉ arbiter.unloaded

/-- What the owner of the lock carries from one await to the next. -/
def Promised (arbiter : GpuArbiter) : Pc → Prop
  | .drain _ saved _ _ => Pending arbiter saved saved
  | .awaitLoads _ _ slots saved _ _ => Pending arbiter slots saved
  | .unload _ _ slot rest saved _ => Pending arbiter (slot :: rest) saved
  | .finishConfigs _ loaded saved => Pending arbiter loaded saved
  | .loadImg _ img saved | .imgReady _ img saved _ =>
    arbiter.state.savedLlmSlots = saved ∧ img ∉ arbiter.unloaded
  | .rollbackUnload _ img slots =>
    arbiter.unloaded ⊆ slots ∧ img ∉ arbiter.unloaded
  | .rollbackLoad _ slot rest | .restoreLoad _ slot rest =>
    arbiter.unloaded ⊆ rest ∧ slot ∉ arbiter.unloaded
  | .restoreFree _ saved => arbiter.unloaded ⊆ saved
  | _ => True

/-- A step which keeps the invariant and the promise of its task. -/
structure Recovers (turn : Turn) : Prop where
  state : Recoverable turn.1
  promised : ∀ pc, turn.2 = some pc → Promised turn.1 pc

namespace Recovers

variable {arbiter : GpuArbiter} {pc : Pc}

theorem ends (state : Recoverable arbiter) : Recovers (arbiter, none) :=
  ⟨state, nofun⟩

theorem awaits (state : Recoverable arbiter)
    (promised : Promised arbiter pc) : Recovers (arbiter, some pc) := by
  refine ⟨state, ?_⟩
  intro next awaited
  cases awaited
  exact promised

end Recovers

namespace Recoverable

variable {arbiter after : GpuArbiter}

theorem of_unswitched (state : Recoverable arbiter)
    (kept : GpuArbiter.Unswitched arbiter after) : Recoverable after where
  written := by
    rw [kept.file, kept.state]
    exact state.written
  saved := by
    rw [kept.unloaded, kept.state]
    exact state.saved
  image := by
    rw [kept.unloaded, kept.state]
    exact state.image
  empty := by
    rw [kept.state]
    exact state.empty
  gone := by
    rw [kept.unloaded]
    intro slot taken
    rw [GpuArbiter.onGpu, kept.slots]
    exact state.gone slot taken
  once := by
    rw [kept.state]
    exact state.once

theorem setSlot (state : Recoverable arbiter) {slot : String}
    {status : SlotStatus}
    (harmless : slot ∈ arbiter.unloaded → status.onGpu = false) :
    Recoverable (arbiter.setSlot slot status) where
  written := state.written
  saved := state.saved
  image := state.image
  empty := state.empty
  gone := by
    intro other taken
    show (update arbiter.slots slot status other).onGpu = false
    by_cases same : other = slot
    · subst same
      rw [update_self]
      exact harmless taken
    · rw [update_of_ne same]
      exact state.gone other taken
  once := state.once

theorem attemptLoad (state : Recoverable arbiter) (slot : String) :
    Recoverable (arbiter.attemptLoad slot) where
  written := state.written
  saved := fun other taken =>
    state.saved other (mem_of_mem_filter taken)
  image := fun other taken =>
    state.image other (mem_of_mem_filter taken)
  empty := state.empty
  gone := fun other taken => state.gone other (mem_of_mem_filter taken)
  once := state.once

theorem persist_llm (none : arbiter.unloaded = []) :
    Recoverable (arbiter.persist ⟨.llm, false, []⟩ true) where
  written := loadState_toFile _
  saved := by
    intro slot taken
    change slot ∈ arbiter.unloaded at taken
    rw [none] at taken
    cases taken
  image := by
    intro slot taken
    change slot ∈ arbiter.unloaded at taken
    rw [none] at taken
    cases taken
  empty := fun _ => rfl
  gone := by
    intro slot taken
    change slot ∈ arbiter.unloaded at taken
    rw [none] at taken
    cases taken
  once := nodup_nil

section

variable (state : Recoverable arbiter)
include state

theorem persist_pinned (pinned : Bool) :
    Recoverable
      (arbiter.persist { arbiter.state with pinned := pinned } true) where
  written := loadState_toFile _
  saved := state.saved
  image := state.image
  empty := state.empty
  gone := state.gone
  once := state.once

theorem unloaded_eq_nil
    (mode : arbiter.state.mode = .llm) : arbiter.unloaded = [] := by
  rw [eq_nil_iff_forall_not_mem]
  intro slot taken
  have image := state.image slot taken
  rw [mode] at image
  cases image

theorem persist_img (mode : arbiter.state.mode = .llm) (pinned : Bool)
    {slots : List String} (once : slots.Nodup) :
    Recoverable (arbiter.persist ⟨.img, pinned, slots⟩ true) where
  written := loadState_toFile _
  saved := by
    intro slot taken
    change slot ∈ arbiter.unloaded at taken
    rw [state.unloaded_eq_nil mode] at taken
    cases taken
  image := fun _ _ => rfl
  empty := nofun
  gone := state.gone
  once := once

theorem unload (mode : arbiter.state.mode = .img) {slot : String}
    (recorded : slot ∈ arbiter.state.savedLlmSlots) {status : SlotStatus}
    (off : status.onGpu = false) :
    Recoverable
      { arbiter.setSlot slot status with
        unloaded := slot :: arbiter.unloaded } where
  written := state.written
  saved := by
    intro other taken
    rcases mem_cons.mp taken with rfl | earlier
    · exact recorded
    · exact state.saved other earlier
  image := fun _ _ => mode
  empty := state.empty
  gone := by
    intro other taken
    show (update arbiter.slots slot status other).onGpu = false
    by_cases same : other = slot
    · subst same
      rw [update_self]
      exact off
    · rw [update_of_ne same]
      rcases mem_cons.mp taken with now | earlier
      · exact absurd now same
      · exact state.gone other earlier
  once := state.once

theorem subset_reloadAfterAbort {skip : List String}
    (skipped : ∀ slot ∈ skip, slot ∉ arbiter.unloaded) :
    arbiter.unloaded ⊆
      arbiter.reloadAfterAbort arbiter.state.savedLlmSlots skip := by
  intro slot taken
  simp only [GpuArbiter.reloadAfterAbort, mem_filter, Bool.and_eq_true,
    Bool.not_eq_true', contains_eq_mem, decide_eq_false_iff_not]
  exact ⟨state.saved slot taken, fun skips => skipped slot skips taken,
    state.gone slot taken⟩

end

end Recoverable

/-! ## Steps of `ensure_img` -/

namespace Recoverable

variable {arbiter : GpuArbiter}

theorem endEnsure (state : Recoverable arbiter) (call : EnsureCall)
    (result : EnsureResult) : Recovers (arbiter.endEnsure call result) := by
  have left : Recoverable arbiter.leaveSwitch :=
    state.of_unswitched ⟨rfl, rfl, rfl, rfl⟩
  obtain ⟨pin, job⟩ := call
  cases job with
  | none => exact .ends left
  | some job =>
    cases result with
    | returned => exact .awaits left trivial
    | imgSlotMissing => exact .awaits left trivial
    | raised => exact .ends (left.of_unswitched ⟨rfl, rfl, rfl, rfl⟩)

theorem covered_attemptLoad {slot : String} {rest : List String}
    (covered : arbiter.unloaded ⊆ slot :: rest) :
    (arbiter.attemptLoad slot).unloaded ⊆ rest ∧
      slot ∉ (arbiter.attemptLoad slot).unloaded := by
  constructor
  · intro other taken
    simp only [GpuArbiter.attemptLoad, mem_filter, decide_eq_true_eq] at taken
    exact mem_of_ne_of_mem taken.2 (covered taken.1)
  · intro taken
    simp [GpuArbiter.attemptLoad] at taken

variable {reply : Reply} {slots : List String}

section

variable (state : Recoverable arbiter)
include state

theorem rollbackLoads (call : EnsureCall) (written : reply.written = true)
    (covered : arbiter.unloaded ⊆ slots) :
    Recovers (arbiter.rollbackLoads call reply slots) := by
  cases slots with
  | cons slot rest =>
    exact .awaits (state.attemptLoad slot) (covered_attemptLoad covered)
  | nil =>
    have none := subset_nil.mp covered
    simp only [GpuArbiter.rollbackLoads, written]
    exact (persist_llm none).endEnsure call .raised

theorem rollbackToLlm (call : EnsureCall) (written : reply.written = true)
    {img : String} {unloadImg : Bool} (covered : arbiter.unloaded ⊆ slots)
    (apart : unloadImg = true → img ∉ arbiter.unloaded) :
    Recovers (arbiter.rollbackToLlm call slots img unloadImg reply) := by
  unfold GpuArbiter.rollbackToLlm
  split_ifs with unloads
  · exact .awaits state ⟨covered, apart unloads⟩
  · exact state.rollbackLoads call written covered

theorem coldStartImg (call : EnsureCall) (img : String) :
    Recovers (arbiter.coldStartImg call img
      arbiter.state.savedLlmSlots) := by
  refine .awaits (state.attemptLoad img) ⟨rfl, ?_⟩
  simp [GpuArbiter.attemptLoad]

theorem pollImg (call : EnsureCall) (written : reply.written = true)
    {img : String} (apart : img ∉ arbiter.unloaded) (deadline : Nat) :
    Recovers (arbiter.pollImg call img arbiter.state.savedLlmSlots deadline
      reply) := by
  unfold GpuArbiter.pollImg
  dsimp only
  split_ifs
  · exact state.endEnsure call .returned
  · exact state.rollbackToLlm call written state.saved fun _ => apart
  · exact state.rollbackToLlm call written state.saved fun _ => apart
  · exact .awaits state ⟨rfl, apart⟩

theorem loadImgReturned (call : EnsureCall) (written : reply.written = true)
    {img : String} (apart : img ∉ arbiter.unloaded) :
    Recovers (arbiter.loadImgReturned call img arbiter.state.savedLlmSlots
      reply) := by
  have left : Recoverable (arbiter.setSlot img reply.status) :=
    state.setSlot fun taken => absurd taken apart
  unfold GpuArbiter.loadImgReturned
  dsimp only
  split_ifs
  · apply left.rollbackToLlm call written left.saved
    intro impossible
    cases impossible
  · exact left.pollImg call written apart _

theorem afterUnloads (call : EnsureCall) (branch : Branch) (img : String) :
    Recovers (arbiter.afterUnloads call branch arbiter.state.savedLlmSlots
      img) := by
  cases branch with
  | flip =>
    simp only [GpuArbiter.afterUnloads]
    split_ifs
    · exact state.endEnsure call .returned
    · exact state.coldStartImg call img
  | already => exact .awaits state trivial

end

variable {saved : List String}

section

variable (state : Recoverable arbiter)
include state

theorem unloadForImg (call : EnsureCall) (branch : Branch) (img : String)
    (pending : Pending arbiter slots saved) :
    Recovers (arbiter.unloadForImg call branch slots saved img) := by
  cases slots with
  | cons slot rest => exact .awaits state pending
  | nil =>
    obtain rfl := pending.recorded
    exact state.afterUnloads call branch img

theorem unloadReturned (call : EnsureCall) (written : reply.written = true)
    (branch : Branch) {slot : String} {rest : List String} (img : String)
    (mode : arbiter.state.mode = .img)
    (pending : Pending arbiter (slot :: rest) saved) :
    Recovers
      (arbiter.unloadReturned call branch slot rest saved img reply) := by
  have loaded := pending.loaded slot mem_cons_self
  obtain ⟨later, once⟩ := nodup_cons.mp pending.once
  obtain rfl := pending.recorded
  unfold GpuArbiter.unloadReturned
  split_ifs
  · have left : Recoverable (arbiter.setSlot slot reply.status) :=
      state.setSlot fun taken => absurd taken loaded
    apply left.rollbackToLlm call written
    · apply left.subset_reloadAfterAbort
      intro skipped member
      rw [mem_singleton.mp member]
      exact loaded
    · intro impossible
      cases impossible
  · have recorded := pending.among mem_cons_self
    have off : SlotStatus.onGpu { reply.status with state := .offline } =
        false := rfl
    refine (state.unload mode recorded off).unloadForImg call branch img
      ⟨rfl, ?_, once, ?_⟩
    · intro other member
      exact pending.among (mem_cons_of_mem slot member)
    · intro other member taken
      rcases mem_cons.mp taken with rfl | earlier
      · exact later member
      · exact pending.loaded other (mem_cons_of_mem slot member) earlier

theorem awaitLoads (call : EnsureCall) (written : reply.written = true)
    (branch : Branch) (img : String) (deadline : Nat)
    (pending : Pending arbiter slots saved) :
    Recovers
      (arbiter.awaitLoads call branch slots saved img deadline reply) := by
  unfold GpuArbiter.awaitLoads
  dsimp only
  split_ifs
  · exact state.unloadForImg call branch img pending
  · obtain rfl := pending.recorded
    apply state.rollbackToLlm call written
    · apply state.subset_reloadAfterAbort
      intro slot loading
      exact pending.loaded slot (mem_of_mem_filter loading)
    · intro impossible
      cases impossible
  · exact .awaits state pending

theorem drain (call : EnsureCall) (written : reply.written = true)
    (img : String) (deadline : Nat) (pending : Pending arbiter saved saved) :
    Recovers (arbiter.drain call saved img deadline reply) := by
  unfold GpuArbiter.drain
  split_ifs
  · exact .awaits state pending
  · exact state.awaitLoads call written .flip img _ pending

theorem switchToImg (call : EnsureCall) (written : reply.written = true)
    (mode : arbiter.state.mode = .llm) :
    Recovers (arbiter.switchToImg call reply) := by
  unfold GpuArbiter.switchToImg
  split
  · exact state.endEnsure call .raised
  · rename_i configs _
    have refreshed : Recoverable (arbiter.refreshGroupCache configs) :=
      state.of_unswitched ⟨rfl, rfl, rfl, rfl⟩
    have once := nodup_llmSlotsToUnload
      (nodup_refreshGroupCache arbiter configs)
    dsimp only
    split
    · exact refreshed.endEnsure call .imgSlotMissing
    · rw [if_pos written, written]
      split_ifs
      · exact refreshed.endEnsure call .raised
      · apply (refreshed.persist_img mode call.pin once).drain call written
        refine ⟨rfl, List.Subset.refl _, once, ?_⟩
        intro slot _ taken
        change slot ∈ arbiter.unloaded at taken
        rw [state.unloaded_eq_nil mode] at taken
        cases taken

theorem letServedRequestsDispatch (call : EnsureCall) (deadline : Nat) :
    Recovers (arbiter.letServedRequestsDispatch call deadline) := by
  have pruned : Recoverable arbiter.pruneDemandLeases :=
    state.of_unswitched ⟨rfl, rfl, rfl, rfl⟩
  unfold GpuArbiter.letServedRequestsDispatch
  dsimp only
  split_ifs
  · exact .awaits pruned trivial
  · exact .awaits pruned trivial
  · exact .awaits pruned trivial

theorem finishUnloads (call : EnsureCall) :
    Recovers (arbiter.finishUnloads call) := by
  have pending : Pending arbiter
      (arbiter.state.savedLlmSlots.filter arbiter.onGpu)
      arbiter.state.savedLlmSlots := by
    refine ⟨rfl, filter_sublist.subset,
      filter_sublist.nodup state.once, ?_⟩
    intro slot member taken
    have loaded := (mem_filter.mp member).2
    rw [state.gone slot taken] at loaded
    cases loaded
  unfold GpuArbiter.finishUnloads
  dsimp only
  split
  · exact .awaits state trivial
  · rename_i slot rest found
    rw [found] at pending
    exact .awaits state pending

theorem finishUnloadsFrom (call : EnsureCall) (written : reply.written = true)
    {loaded : List String} (pending : Pending arbiter loaded saved) :
    Recovers (arbiter.finishUnloadsFrom call loaded saved reply) := by
  unfold GpuArbiter.finishUnloadsFrom
  split
  · exact state.endEnsure call .raised
  · exact state.awaitLoads call written .already _ _ pending

theorem reviveImg (call : EnsureCall)
    (reply : Reply) : Recovers (arbiter.reviveImg call reply) := by
  unfold GpuArbiter.reviveImg
  split
  · exact state.endEnsure call .raised
  · rename_i configs _
    have refreshed : Recoverable (arbiter.refreshGroupCache configs) :=
      state.of_unswitched ⟨rfl, rfl, rfl, rfl⟩
    dsimp only
    split
    · exact refreshed.endEnsure call .returned
    · split_ifs
      · exact refreshed.endEnsure call .returned
      · exact refreshed.coldStartImg call _

theorem ensureImgLocked (call : EnsureCall) (written : reply.written = true) :
    Recovers (arbiter.ensureImgLocked call reply) := by
  have entering : Recoverable { arbiter with enteringImg := true } :=
    state.of_unswitched ⟨rfl, rfl, rfl, rfl⟩
  unfold GpuArbiter.ensureImgLocked
  dsimp only
  rw [if_pos written, written]
  split_ifs
  · exact (entering.persist_pinned true).finishUnloads call
  · exact entering.finishUnloads call
  · exact entering.letServedRequestsDispatch call _

end

/-! ## Steps of a restore -/

section

variable (state : Recoverable arbiter)
include state

theorem of_aside {turn : Turn}
    (aside : GpuArbiter.Aside arbiter turn) : Recovers turn := by
  refine ⟨state.of_unswitched aside.kept, ?_⟩
  intro pc awaited
  have outside := (aside.outside pc awaited).1
  cases pc <;> trivial

theorem freeComfyui (call : RestoreCall)
    (reply : Reply) : Recovers (arbiter.freeComfyui call reply) := by
  unfold GpuArbiter.freeComfyui
  split
  · exact state.of_aside (GpuArbiter.endRestore_aside arbiter call)
  · rename_i configs _
    have refreshed : Recoverable (arbiter.refreshGroupCache configs) :=
      state.of_unswitched ⟨rfl, rfl, rfl, rfl⟩
    exact .awaits refreshed state.saved

theorem restoreLoads (call : RestoreCall) (written : reply.written = true)
    (covered : arbiter.unloaded ⊆ slots) :
    Recovers (arbiter.restoreLoads call reply slots) := by
  cases slots with
  | cons slot rest =>
    exact .awaits (state.attemptLoad slot) (covered_attemptLoad covered)
  | nil =>
    have none := subset_nil.mp covered
    have cleared : Recoverable
        (arbiter.persist ⟨.llm, false, []⟩ true).clearClocks :=
      (persist_llm none).of_unswitched ⟨rfl, rfl, rfl, rfl⟩
    simp only [GpuArbiter.restoreLoads, written, if_true]
    exact cleared.of_aside (GpuArbiter.endRestore_aside _ call)

theorem of_restoreTurn {turn : Turn}
    (taken : GpuArbiter.RestoreTurn arbiter none turn) : Recovers turn := by
  refine ⟨?_, ?_⟩
  · rcases taken.kept with kept | inside
    · exact state.of_unswitched kept
    · cases inside
  · intro pc awaited
    have owes := taken.outsideSwitch pc awaited
    have enters := taken.enters pc
    cases pc with
    | restoreFree call saved =>
      rcases enters call awaited rfl with inside | ⟨head, -⟩
      · cases inside
      · cases head
    | restoreLoad call slot rest =>
      rcases enters call awaited rfl with inside | ⟨head, -⟩
      · cases inside
      · cases head
    | _ => first | trivial | cases owes rfl

end

end Recoverable

/-! ## Runs -/

/-- Every step leaves what recovery needs. -/
theorem recovers_of_resume {arbiter : GpuArbiter} {pc : Pc} {reply : Reply}
    {turn : Turn} (state : Recoverable arbiter)
    (written : reply.written = true)
    (expected : pc.holds = true → arbiter.Expected pc)
    (promised : pc.holds = true → Promised arbiter pc)
    (resumed : arbiter.resume pc reply = some turn) : Recovers turn := by
  have progress := GpuArbiter.progress_of_resume resumed expected
  cases pc with
  | ensureLock call =>
    cases resumed
    exact state.ensureImgLocked call written
  | letServed call deadline =>
    cases resumed
    exact state.letServedRequestsDispatch call deadline
  | switchConfigs call timedOut =>
    cases resumed
    exact state.switchToImg call written (expected rfl _ rfl)
  | drain call saved img deadline =>
    cases resumed
    exact state.drain call written img deadline (promised rfl)
  | awaitLoads call branch slots saved img deadline =>
    cases resumed
    exact state.awaitLoads call written branch img deadline (promised rfl)
  | unload call branch slot rest saved img =>
    cases resumed
    exact state.unloadReturned call written branch img (expected rfl _ rfl)
      (promised rfl)
  | finishConfigs call loaded saved =>
    cases resumed
    exact state.finishUnloadsFrom call written (promised rfl)
  | reviveConfigs call =>
    cases resumed
    exact state.reviveImg call reply
  | loadImg call img saved =>
    cases resumed
    obtain ⟨rfl, apart⟩ := promised rfl
    exact state.loadImgReturned call written apart
  | imgReady call img saved deadline =>
    cases resumed
    obtain ⟨rfl, apart⟩ := promised rfl
    exact state.pollImg call written apart deadline
  | rollbackUnload call img slots =>
    cases resumed
    obtain ⟨covered, apart⟩ := promised rfl
    exact (state.setSlot fun taken => absurd taken apart).rollbackLoads call
      written covered
  | rollbackLoad call slot rest =>
    cases resumed
    obtain ⟨covered, apart⟩ := promised rfl
    exact (state.setSlot fun taken => absurd taken apart).rollbackLoads call
      written covered
  | restoreConfigs call =>
    cases resumed
    exact state.freeComfyui call reply
  | restoreFree call saved =>
    cases resumed
    exact state.restoreLoads call written (promised rfl)
  | restoreLoad call slot rest =>
    cases resumed
    obtain ⟨covered, apart⟩ := promised rfl
    exact (state.setSlot fun taken => absurd taken apart).restoreLoads call
      written covered
  | _ =>
    cases progress with
    | ensure inside outsideBody held taken => cases inside
    | restore outside jobless taken => exact state.of_restoreTurn taken
    | rendered rendering closed =>
      cases closed
      exact .ends (state.of_unswitched ⟨rfl, rfl, rfl, rfl⟩)
    | woken waited left =>
      cases left
      exact .ends (state.of_unswitched
        (GpuArbiter.wakeWaiter_unswitched arbiter _ _))

theorem Promised.congr {before after : GpuArbiter} {pc : Pc}
    (saved : after.state.savedLlmSlots = before.state.savedLlmSlots)
    (unloaded : after.unloaded = before.unloaded)
    (promised : Promised before pc) : Promised after pc := by
  have pending {slots recorded : List String}
      (before : Pending before slots recorded) :
      Pending after slots recorded :=
    ⟨saved.trans before.recorded, before.among, before.once,
      unloaded ▸ before.loaded⟩
  cases pc with
  | drain call recorded img deadline => exact pending promised
  | awaitLoads call branch slots recorded img deadline =>
    exact pending promised
  | unload call branch slot rest recorded img => exact pending promised
  | finishConfigs call loaded recorded => exact pending promised
  | loadImg call img recorded =>
    exact ⟨saved.trans promised.1, unloaded ▸ promised.2⟩
  | imgReady call img recorded deadline =>
    exact ⟨saved.trans promised.1, unloaded ▸ promised.2⟩
  | rollbackUnload call img slots =>
    exact ⟨unloaded ▸ promised.1, unloaded ▸ promised.2⟩
  | rollbackLoad call slot rest =>
    exact ⟨unloaded ▸ promised.1, unloaded ▸ promised.2⟩
  | restoreLoad call slot rest =>
    exact ⟨unloaded ▸ promised.1, unloaded ▸ promised.2⟩
  | restoreFree call recorded =>
    show after.unloaded ⊆ recorded
    rw [unloaded]
    exact promised
  | _ => trivial

/--
Every state write succeeds, and nobody else loads a slot the arbiter took
down.
-/
def undisturbed (world : ArbiterWorld) : ArbiterAction → Bool
  | .resume _ reply => reply.written
  | .occur (.setPin _ written) => written
  | .occur (.slotChanges slot status) =>
    !(world.shared.unloaded.contains slot && status.onGpu)
  | _ => true

/-- The step interferes with no recovery. -/
def Undisturbed (world : ArbiterWorld) (action : ArbiterAction) : Prop :=
  undisturbed world action = true

instance (world : ArbiterWorld) (action : ArbiterAction) :
    Decidable (Undisturbed world action) :=
  inferInstanceAs (Decidable (undisturbed world action = true))

/-- So does every event. -/
theorem Recoverable.occur {world : ArbiterWorld} {event : Event}
    (state : Recoverable world.shared)
    (calm : Undisturbed world (.occur event)) :
    Recoverable (world.shared.occur event) := by
  cases event with
  | elapse duration => exact state.of_unswitched ⟨rfl, rfl, rfl, rfl⟩
  | slotChanges slot status =>
    apply state.setSlot
    intro taken
    simp only [Undisturbed, undisturbed, Bool.not_eq_true',
      Bool.and_eq_false_iff, contains_eq_mem,
      decide_eq_false_iff_not] at calm
    rcases calm with untouched | off
    · exact absurd taken untouched
    · exact off
  | setPin pinned written =>
    obtain rfl : written = true := calm
    have pinnedState := state.persist_pinned pinned
    simp only [GpuArbiter.occur, GpuArbiter.setPin]
    split_ifs
    · exact pinnedState.of_unswitched ⟨rfl, rfl, rfl, rfl⟩
    · exact pinnedState
  | dispatch request slot toml =>
    have guarded := state.of_unswitched
      (GpuArbiter.guardDispatch_aside world.shared slot toml).kept
    have released := guarded.of_unswitched
      (GpuArbiter.releaseDemandLease_aside _ request).kept
    simp only [GpuArbiter.occur, GpuArbiter.dispatch]
    split
    · exact released
    · apply released.setSlot
      intro taken
      exact released.gone slot taken
  | releaseDemandLease request =>
    exact state.of_unswitched
      (GpuArbiter.releaseDemandLease_aside world.shared request).kept

/-- What was unloaded can be loaded again. -/
theorem recoverable_protects (suspends : Bool) :
    Protects (program suspends)
      (fun world action => Undisturbed world action ∧
        ModeKnown suspends world)
      Recoverable Promised where
  start := by
    intro world task pc shared state _ begun
    have kept := (GpuArbiter.started_of_start begun).kept
    refine ⟨state.of_unswitched kept, ?_⟩
    intro other _ _ promised
    exact promised.congr (by rw [kept.state]) kept.unloaded
  resume := by
    intro world task pc reply shared next state ⟨written, known⟩ suspended
      promised resumed
    have recovers := recovers_of_resume state written
      (known.owner task pc suspended) promised resumed
    refine ⟨recovers.state, fun counter awaited _ =>
      recovers.promised counter awaited, ?_⟩
    intro outside unlocked other _ _ otherPromised
    have kept := (GpuArbiter.resume_unswitched resumed outside unlocked).1
    exact otherPromised.congr
      (show shared.state.savedLlmSlots = _ by
        rw [show shared.state = _ from kept.state]) kept.unloaded
  cancel := by
    intro world task pc shared state _ suspended _ abandoned
    have kept := (GpuArbiter.abandoned_of_abandon abandoned).kept
    refine ⟨state.of_unswitched kept, ?_⟩
    intro _ other _ _ promised
    exact promised.congr (by rw [kept.state]) kept.unloaded
  occur := by
    intro world event shared state ⟨calm, _⟩ occurred
    cases occurred
    have kept := GpuArbiter.occur_occurred world.shared event
    refine ⟨state.occur calm, ?_⟩
    intro other _ _ promised
    exact promised.congr kept.saved kept.unloaded
  restart := by
    intro world state _
    exact state.of_unswitched ⟨state.written, rfl, rfl, rfl⟩

/--
Start with an empty saved set, and cut the run anywhere.  The state read back
from disk lists every LLM slot the arbiter has unloaded and not tried to load
again, under image mode; and in LLM mode its saved set is empty.
-/
theorem saved_set_survives_crash (suspends : Bool) (restoreGrace : Nat)
    (file : StateFile) (slots : String → SlotStatus)
    (empty : (loadState file).savedLlmSlots = [])
    {actions : List ArbiterAction} {world : ArbiterWorld}
    (run : Run (program suspends).step Undisturbed
      (.quiet (.boot restoreGrace file slots)) actions world) :
    (∀ slot ∈ world.shared.unloaded,
      slot ∈ world.shared.restart.state.savedLlmSlots ∧
        world.shared.restart.state.mode = .img) ∧
    (world.shared.restart.state.mode = .llm →
      world.shared.restart.state.savedLlmSlots = []) := by
  have start : Recoverable (.boot restoreGrace file slots) :=
    { written := rfl
      saved := nofun
      image := nofun
      empty := fun _ => empty
      gone := nofun
      once := by
        show (loadState file).savedLlmSlots.Nodup
        rw [empty]
        exact nodup_nil }
  have initial : Safe (program suspends) Recoverable Promised
      (.quiet (.boot restoreGrace file slots)) := .quiet start
  have state := (initial.run (recoverable_protects suspends)
    (modeKnown_along (ModeKnown.quiet suspends _) run)).state
  have reloaded : world.shared.restart.state = world.shared.state :=
    state.written
  rw [reloaded]
  refine ⟨?_, state.empty⟩
  intro slot taken
  exact ⟨state.saved slot taken, state.image slot taken⟩

/-- A crash right after the chat slot was unloaded for a render. -/
theorem saved_set_survives_crash_after_unload :
    ∃ world : ArbiterWorld, "chat" ∈ world.shared.unloaded ∧
      "chat" ∈ world.shared.restart.state.savedLlmSlots ∧
      world.shared.restart.state.mode = .img := by
  obtain ⟨world, run, tested⟩ := Run.exists_of_exec
    (program true).step Undisturbed readyMachine
    (switchingActions ++ [.resume 0 {}])
    (fun world => world.shared.unloaded.contains "chat")
    (by decide +kernel)
  have taken := contains_iff_mem.mp tested
  exact ⟨world, taken, (saved_set_survives_crash true 10000 .missing _ rfl
    run).1 "chat" taken⟩

end Hal0.Slots.Arbiter
