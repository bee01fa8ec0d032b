import Hal0.Slots.Reservations

/-!
# Reservations are exact and never overcommit

In every run in which no block is cancelled while it waits for the lock at its
exit, each admission had room for its load next to the reservations of the
others, the table holds the reservations of the open blocks and nothing else,
and what the open loads may still take, with the headroom, stays below the
free memory of the host.
-/

namespace Hal0.Slots.Reservations

open Function List
open Hal0.Transition
open Hal0.Tasks
open Hal0.Slots.PreloadEvict

/-! ## What the table says -/

namespace Host

/-- The table as the source has it. -/
def needs (host : Host) : List (String × Rat) :=
  host.reserved.map fun reservation =>
    (reservation.slot, reservation.neededMb)

/-- What the open loads may still take. -/
def outstanding (host : Host) : Rat :=
  (host.reserved.map fun reservation =>
    reservation.neededMb - reservation.residentMb).sum

theorem reservedByOthers_eq (host : Host) (slot : String) :
    host.reservedByOthers slot =
      ((host.needs.filter (·.1 ≠ slot)).map Prod.snd).sum := by
  simp [reservedByOthers, others, needs, filter_map, Function.comp_def]

variable {slot : String}

theorem reservedByOthers_congr {first second : Host}
    (same : first.needs = second.needs) :
    first.reservedByOthers slot = second.reservedByOthers slot := by
  rw [reservedByOthers_eq, reservedByOthers_eq, same]

theorem mem_others {host : Host} {reservation : Reservation} :
    reservation ∈ host.others slot ↔
      reservation ∈ host.reserved ∧ reservation.slot ≠ slot := by
  simp [others]

theorem mem_needs {host : Host} {needed : Rat} :
    (slot, needed) ∈ host.needs ↔
      ∃ reservation ∈ host.reserved,
        reservation.slot = slot ∧ reservation.neededMb = needed := by
  simp [needs]

theorem mem_needs_others {host after : Host} {other : String} {needed : Rat}
    (table : after.reserved = host.others slot) (apart : other ≠ slot) :
    (other, needed) ∈ after.needs ↔ (other, needed) ∈ host.needs := by
  simp only [mem_needs, table, mem_others]
  constructor
  · rintro ⟨reservation, ⟨listed, -⟩, isOther, same⟩
    exact ⟨reservation, listed, isOther, same⟩
  · rintro ⟨reservation, listed, isOther, same⟩
    exact ⟨reservation, ⟨listed, isOther ▸ apart⟩, isOther, same⟩

end Host

/-! ## What a turn of a block does -/

/-- What a block still asks for. -/
def Pc.asks : Pc → Option Rat
  | .entering _ neededMb | .gathering _ neededMb _ _
  | .unloading _ neededMb _ _ _ => some neededMb
  | _ => none

/-- What the host says about a block which is suspended at `pc`. -/
structure Relies (host : Host) (task : TaskId) (pc : Pc) : Prop where
  loading : host.loading pc.slot = some task
  holds : ∀ others, pc.hasRead = some others →
    host.lock = some task ∧ others = host.reservedByOthers pc.slot
  reserved : ∀ needed, pc.reservation = some needed →
    (pc.slot, needed) ∈ host.needs
  unreserved : pc.reservation = none → ∀ needed,
    (pc.slot, needed) ∉ host.needs
  positive : ∀ needed, pc.asks = some needed → 0 < needed

/-- All that a block does between two suspensions. -/
inductive Turn (settings : Settings) (host : Host) (task : TaskId)
    (pc : Pc) : Host → Option Pc → Prop where
  | stays {next : Pc} (slot : next.slot = pc.slot)
      (reservation : next.reservation = pc.reservation)
      (hasRead : next.hasRead = pc.hasRead)
      (positive : ∀ needed, next.asks = some needed → 0 < needed) :
      Turn settings host task pc host (some next)
  | locks {needed free : Rat} (isFree : host.lock = none)
      (plain : pc.reservation = none) (positive : 0 < needed) :
      Turn settings host task pc (host.locked task)
        (some (.gathering pc.slot needed (host.reservedByOthers pc.slot)
          free))
  | reserves {needed : Rat} {works : Bool}
      (available : host.lock = none ∨ host.lock = some task)
      (plain : pc.reservation = none) (positive : 0 < needed)
      (fits : Admission.Fits settings.headroomMb
        ⟨pc.slot, needed, host.probe works,
          host.reservedByOthers pc.slot⟩) :
      Turn settings host task pc
        (host.reserve pc.slot needed (host.probe works))
        (some (.inside pc.slot needed))
  | givesUp (holds : host.lock = some task) (plain : pc.reservation = none) :
      Turn settings host task pc (host.unlocked.done pc.slot) none
  | ends (plain : pc.reservation = none) :
      Turn settings host task pc (host.done pc.slot) none
  | pops (isFree : host.lock = none) :
      Turn settings host task pc ((host.pop pc.slot).done pc.slot) none

section Turns

variable {settings : Settings} {host after : Host} {task : TaskId} {pc : Pc}
  {next : Option Pc}

theorem turn_of_decideFit {slot : String} {needed others : Rat}
    {works : Bool} {short : Rat → Host × Option Pc}
    (isSlot : pc.slot = slot) (read : others = host.reservedByOthers slot)
    (available : host.lock = none ∨ host.lock = some task)
    (plain : pc.reservation = none) (positive : 0 < needed)
    (goesOn : ∀ free, Turn settings host task pc (short free).1
      (short free).2) :
    Turn settings host task pc
      (decideFit settings host slot needed others (host.probe works)
        short).1
      (decideFit settings host slot needed others (host.probe works)
        short).2 := by
  subst isSlot
  subst read
  unfold decideFit
  split
  · next blind =>
      have fits : Admission.Fits settings.headroomMb
          ⟨pc.slot, needed, host.probe works,
            host.reservedByOthers pc.slot⟩ := by
        intro free isFree
        simp [blind] at isFree
      simpa only [blind] using Turn.reserves available plain positive fits
  · next free seen =>
      split
      · next room =>
          have fits : Admission.Fits settings.headroomMb
              ⟨pc.slot, needed, host.probe works,
                host.reservedByOthers pc.slot⟩ := by
            intro other isFree
            simp only [seen, Option.some.injEq] at isFree
            exact isFree ▸ room
          simpa only [seen] using Turn.reserves available plain positive fits
      · exact goesOn _

theorem turn_of_attempt {slot : String} {needed others : Rat}
    {candidates : List CandidateSlot} (isSlot : pc.slot = slot)
    (read : pc.hasRead = some others) (holds : host.lock = some task)
    (plain : pc.reservation = none) (positive : 0 < needed) :
    Turn settings host task pc
      (attempt host slot needed others candidates).1
      (attempt host slot needed others candidates).2 := by
  subst isSlot
  cases candidates with
  | nil => exact .givesUp holds plain
  | cons candidate rest =>
    refine .stays rfl (by rw [plain]; rfl) (by rw [read]; rfl) ?_
    intro asked isAsked
    cases isAsked
    exact positive

theorem Turn.of_eq {result : Host × Option Pc}
    (turn : Turn settings host task pc result.1 result.2)
    (resumed : some result = some (after, next)) :
    Turn settings host task pc after next := by
  have same := Option.some.inj resumed
  subst same
  exact turn

theorem turn_of_resume {reply : Reply} (relies : Relies host task pc)
    (resumed : resume settings host task pc reply = some (after, next)) :
    Turn settings host task pc after next := by
  unfold resume at resumed
  split at resumed
  · next slot mb =>
      cases resumed
      split
      · exact .stays rfl rfl rfl (by simp [Pc.asks])
      · next known =>
          refine .stays rfl rfl rfl ?_
          intro needed isNeeded
          cases isNeeded
          exact lt_of_not_ge known
  · cases resumed
    exact .ends rfl
  · next slot needed works =>
      split at resumed
      · next isFree =>
          have positive := relies.positive needed rfl
          refine Turn.of_eq ?_ resumed
          exact turn_of_decideFit rfl rfl (.inl isFree) rfl positive
            (fun _ => .locks isFree rfl positive)
      · cases resumed
  · next slot needed others free sweep =>
      have holds := (relies.holds others rfl).1
      refine Turn.of_eq ?_ resumed
      exact turn_of_attempt rfl rfl holds rfl (relies.positive needed rfl)
  · next slot needed others free =>
      cases resumed
      exact .givesUp (relies.holds others rfl).1 rfl
  · next slot needed others candidate rest works =>
      obtain ⟨holds, read⟩ := relies.holds others rfl
      have positive := relies.positive needed rfl
      refine Turn.of_eq ?_ resumed
      exact turn_of_decideFit rfl read (.inr holds) rfl positive
        (fun _ => turn_of_attempt rfl rfl holds rfl positive)
  · next slot needed others candidate rest =>
      have holds := (relies.holds others rfl).1
      refine Turn.of_eq ?_ resumed
      exact turn_of_attempt rfl rfl holds rfl (relies.positive needed rfl)
  · next slot needed queued =>
      split at resumed
      · cases resumed
        exact .stays rfl rfl rfl (by simp [Pc.asks])
      · next ready =>
          cases resumed
          exact .pops (by simp_all)
  · split at resumed
    · next isFree =>
        cases resumed
        exact .pops isFree
    · cases resumed
  · cases resumed
    exact .ends rfl
  · cases resumed

theorem turn_of_cancel (relies : Relies host task pc)
    (stays : ∀ slot needed, pc ≠ .leaving slot needed)
    (cancelled : cancel host pc = some after) :
    Turn settings host task pc after none := by
  cases pc with
  | estimating slot => cases cancelled; exact .ends rfl
  | entering slot needed => cases cancelled; exact .ends rfl
  | gathering slot needed others free =>
    cases cancelled
    exact .givesUp (relies.holds others rfl).1 rfl
  | unloading slot needed others candidate rest =>
    cases cancelled
    exact .givesUp (relies.holds others rfl).1 rfl
  | inside slot needed => cases cancelled
  | leaving slot needed => exact absurd rfl (stays slot needed)
  | unreserved slot => cases cancelled; exact .ends rfl

end Turns

/-! ## The table is exact -/

/-- What holds of the host between two turns. -/
structure Exact (settings : Settings) (host : Host) : Prop where
  fits : ∀ admission ∈ host.admissions, admission.Fits settings.headroomMb
  bounded : ∀ reservation ∈ host.reserved, 0 ≤ reservation.residentMb ∧
    reservation.residentMb ≤ reservation.neededMb
  distinct : (host.reserved.map Reservation.slot).Nodup
  owned : ∀ reservation ∈ host.reserved,
    ∃ task, host.loading reservation.slot = some task
  roomy : (∀ admission ∈ host.admissions, admission.probedMb.isSome) →
    host.reserved ≠ [] →
      host.outstanding + settings.headroomMb ≤ host.free

theorem sum_filter_le {Item : Type} {amount : Item → Rat}
    {keep : Item → Bool} {items : List Item}
    (nonneg : ∀ item ∈ items, 0 ≤ amount item) :
    ((items.filter keep).map amount).sum ≤ (items.map amount).sum := by
  induction items with
  | nil => simp
  | cons item rest below =>
    have first := nonneg item mem_cons_self
    have later := below fun other listed =>
      nonneg other (mem_cons_of_mem _ listed)
    rw [filter_cons]
    split
    · simpa using later
    · simp only [map_cons, sum_cons]
      linarith

namespace Exact

variable {settings : Settings} {host : Host}

section

variable (exactly : Exact settings host)
include exactly

theorem outstanding_pop (slot : String) :
    (host.pop slot).outstanding ≤ host.outstanding := by
  apply sum_filter_le
  intro reservation listed
  linarith [(exactly.bounded reservation listed).2]

theorem pop (slot : String) :
    Exact settings ((host.pop slot).done slot) where
  fits := exactly.fits
  bounded := fun reservation listed =>
    exactly.bounded reservation (Host.mem_others.mp listed).1
  distinct := exactly.distinct.sublist (filter_sublist.map _)
  owned := by
    intro reservation listed
    obtain ⟨known, apart⟩ := Host.mem_others.mp listed
    obtain ⟨task, loading⟩ := exactly.owned reservation known
    exact ⟨task, by simpa [Host.done, Host.pop, apart] using loading⟩
  roomy := by
    intro sighted present
    have before : host.reserved ≠ [] := by
      intro empty
      exact present (by simp [Host.done, Host.pop, Host.others, empty])
    have room := exactly.roomy sighted before
    have less := exactly.outstanding_pop slot
    have same : ((host.pop slot).done slot).outstanding =
        (host.pop slot).outstanding := rfl
    rw [same]
    exact (add_le_add_left less _).trans room

theorem done {slot : String} (plain : ∀ needed, (slot, needed) ∉ host.needs) :
    Exact settings (host.done slot) where
  fits := exactly.fits
  bounded := exactly.bounded
  distinct := exactly.distinct
  owned := by
    intro reservation listed
    have apart : reservation.slot ≠ slot := by
      intro same
      exact plain reservation.neededMb
        (Host.mem_needs.mpr ⟨reservation, listed, same, rfl⟩)
    obtain ⟨task, loading⟩ := exactly.owned reservation listed
    exact ⟨task, by simpa [Host.done, apart] using loading⟩
  roomy := exactly.roomy

theorem withLock (lock : Option TaskId) :
    Exact settings { host with lock := lock } :=
  ⟨exactly.fits, exactly.bounded, exactly.distinct, exactly.owned,
    exactly.roomy⟩

theorem outstanding_others_le (slot : String) :
    (host.pop slot).outstanding ≤ host.reservedByOthers slot := by
  apply sum_le_sum
  intro reservation listed
  have bounds := exactly.bounded reservation (Host.mem_others.mp listed).1
  linarith [bounds.1]

theorem reserve {slot : String} {needed : Rat} {works : Bool} {task : TaskId}
    (positive : 0 < needed) (loading : host.loading slot = some task)
    (fits : Admission.Fits settings.headroomMb
      ⟨slot, needed, host.probe works, host.reservedByOthers slot⟩) :
    Exact settings (host.reserve slot needed (host.probe works)) where
  fits := by
    intro admission listed
    rcases mem_append.mp listed with before | new
    · exact exactly.fits admission before
    · cases mem_singleton.mp new
      exact fits
  bounded := by
    intro reservation listed
    rcases mem_cons.mp listed with rfl | before
    · exact ⟨le_refl _, positive.le⟩
    · exact exactly.bounded reservation (Host.mem_others.mp before).1
  distinct := by
    simp only [Host.reserve, map_cons, nodup_cons, mem_map,
      not_exists, not_and]
    refine ⟨?_, exactly.distinct.sublist (filter_sublist.map _)⟩
    intro reservation listed
    exact (Host.mem_others.mp listed).2
  owned := by
    intro reservation listed
    rcases mem_cons.mp listed with rfl | before
    · exact ⟨task, loading⟩
    · exact exactly.owned reservation (Host.mem_others.mp before).1
  roomy := by
    intro sighted _
    have seen : (host.probe works).isSome := by
      refine sighted ⟨slot, needed, host.probe works,
        host.reservedByOthers slot⟩ ?_
      simp [Host.reserve]
    have reads : host.probe works = some host.free := by
      unfold Host.probe at seen ⊢
      split at seen
      · next works => simp [works]
      · simp at seen
    have room := fits host.free reads
    have less := exactly.outstanding_others_le slot
    have total : (host.reserve slot needed (host.probe works)).outstanding =
        needed - 0 + (host.pop slot).outstanding := rfl
    rw [total]
    show needed - 0 + (host.pop slot).outstanding + settings.headroomMb ≤
      host.free
    dsimp only at room
    linarith

end

end Exact

/-! ## Loads which become resident -/

theorem map_slot_becomeResident (slot : String) (mb : Rat)
    (reserved : List Reservation) :
    (reserved.map (becomeResident slot mb)).map Reservation.slot =
      reserved.map Reservation.slot := by
  rw [map_map]
  apply map_congr_left
  intro reservation _
  simp only [Function.comp_apply, becomeResident]
  split <;> rfl

theorem needs_becomeResident (host : Host) (slot : String) (mb free : Rat) :
    Host.needs { host with
      free := free
      reserved := host.reserved.map (becomeResident slot mb) } =
      host.needs := by
  simp only [Host.needs, map_map]
  apply map_congr_left
  intro reservation _
  simp only [Function.comp_apply, becomeResident]
  split <;> rfl

variable {slot : String}

theorem outstanding_becomeResident (mb : Rat) {reservation : Reservation} :
    ∀ {reserved : List Reservation},
      (reserved.map Reservation.slot).Nodup →
        reserved.find? (·.slot = slot) = some reservation →
          ((reserved.map (becomeResident slot mb)).map fun entry =>
            entry.neededMb - entry.residentMb).sum =
          (reserved.map fun entry =>
            entry.neededMb - entry.residentMb).sum - mb
  | [], _, found => by simp at found
  | first :: rest, distinct, found => by
      simp only [map_cons, nodup_cons] at distinct
      by_cases isSlot : first.slot = slot
      · have others : rest.map (becomeResident slot mb) = rest := by
          conv_rhs => rw [← map_id rest]
          apply map_congr_left
          intro entry listed
          have apart : entry.slot ≠ slot := by
            intro same
            exact distinct.1 (mem_map.mpr
              ⟨entry, listed, same.trans isSlot.symm⟩)
          simp [becomeResident, apart]
        simp only [map_cons, sum_cons, others, becomeResident, isSlot, if_true]
        ring
      · have later := outstanding_becomeResident mb distinct.2
          (by simpa [isSlot] using found)
        simp only [map_cons, sum_cons, becomeResident, isSlot,
          if_false] at later ⊢
        rw [later]
        ring

namespace Exact

variable {settings : Settings} {host after : Host}

theorem becomeResident (exactly : Exact settings host) {slot : String}
    {mb : Rat} {reservation : Reservation} (nonneg : 0 ≤ mb)
    (found : host.reserved.find? (·.slot = slot) = some reservation)
    (within : reservation.residentMb + mb ≤ reservation.neededMb) :
    Exact settings { host with
      free := host.free - mb
      reserved := host.reserved.map (becomeResident slot mb) } where
  fits := exactly.fits
  bounded := by
    intro entry listed
    obtain ⟨before, known, rfl⟩ := mem_map.mp listed
    have bounds := exactly.bounded before known
    by_cases isSlot : before.slot = slot
    · have foundSlot : reservation.slot = slot := by
        simpa using find?_some found
      have same : before = reservation :=
        inj_on_of_nodup_map exactly.distinct known
          (mem_of_find?_eq_some found)
          (isSlot.trans foundSlot.symm)
      subst same
      simp only [Reservations.becomeResident, isSlot, if_true]
      exact ⟨add_nonneg bounds.1 nonneg, within⟩
    · simpa [Reservations.becomeResident, isSlot] using bounds
  distinct := by
    show ((host.reserved.map (Reservations.becomeResident slot mb)).map
      Reservation.slot).Nodup
    rw [map_slot_becomeResident]
    exact exactly.distinct
  owned := by
    intro entry listed
    obtain ⟨before, known, rfl⟩ := mem_map.mp listed
    obtain ⟨task, loading⟩ := exactly.owned before known
    refine ⟨task, ?_⟩
    simp only [Reservations.becomeResident]
    split <;> exact loading
  roomy := by
    intro sighted present
    have before : host.reserved ≠ [] := by
      intro empty
      exact present (by simp [empty])
    have room := exactly.roomy sighted before
    have taken := outstanding_becomeResident mb exactly.distinct found
    simp only [Host.outstanding] at room ⊢
    rw [taken]
    linarith

theorem occur (exactly : Exact settings host) {event : Event}
    (occurred : Reservations.occur host event = some after) :
    Exact settings after ∧ after.needs = host.needs ∧
      after.lock = host.lock ∧ after.loading = host.loading := by
  cases event with
  | freed mb =>
    simp only [Reservations.occur] at occurred
    split at occurred
    · next nonneg =>
        cases occurred
        refine ⟨⟨exactly.fits, exactly.bounded, exactly.distinct,
          exactly.owned, ?_⟩, rfl, rfl, rfl⟩
        intro sighted present
        have room := exactly.roomy sighted present
        show host.outstanding + settings.headroomMb ≤ host.free + mb
        linarith
    · cases occurred
  | becameResident slot mb =>
    simp only [Reservations.occur] at occurred
    split at occurred
    · cases occurred
    · next reservation found =>
        split at occurred
        · next fair =>
            cases occurred
            exact ⟨exactly.becomeResident fair.1 found fair.2,
              needs_becomeResident host slot mb _, rfl, rfl⟩
        · cases occurred

end Exact

/-! ## A turn and the other blocks -/

/-- What another block may rely on across a turn of `task` for `slot`. -/
structure Apart (before after : Host) (task : TaskId) (slot : String) :
    Prop where
  loading : ∀ other, other ≠ slot → after.loading other =
    before.loading other
  needs : ∀ other, other ≠ slot → ∀ needed,
    ((other, needed) ∈ after.needs ↔ (other, needed) ∈ before.needs)
  lock : ∀ other, other ≠ task → before.lock = some other →
    after.lock = some other ∧ after.needs = before.needs

variable {after : Host} {task : TaskId}

theorem Relies.apart {before : Host} {other : TaskId} {pc : Pc}
    (relies : Relies before other pc) (apart : Apart before after task slot)
    (distinct : other ≠ task)
    (elsewhere : pc.slot ≠ slot) : Relies after other pc where
  loading := (apart.loading _ elsewhere).trans relies.loading
  holds := by
    intro others read
    obtain ⟨holds, same⟩ := relies.holds others read
    obtain ⟨still, table⟩ := apart.lock other distinct holds
    exact ⟨still, same.trans (Host.reservedByOthers_congr table).symm⟩
  reserved := fun needed isReserved =>
    (apart.needs _ elsewhere needed).mpr (relies.reserved needed isReserved)
  unreserved := fun plain needed listed =>
    relies.unreserved plain needed ((apart.needs _ elsewhere needed).mp listed)
  positive := relies.positive

namespace Turn

variable {settings : Settings} {host after : Host} {task : TaskId} {pc : Pc}
  {next : Option Pc}

theorem apart (turn : Turn settings host task pc after next) :
    Apart host after task pc.slot := by
  cases turn with
  | stays slot reservation hasRead positive =>
    exact ⟨fun _ _ => rfl, fun _ _ _ => Iff.rfl,
      fun _ _ holds => ⟨holds, rfl⟩⟩
  | locks isFree plain positive =>
    refine ⟨fun _ _ => rfl, fun _ _ _ => Iff.rfl, ?_⟩
    intro other distinct holds
    simp [isFree] at holds
  | @reserves needed works available plain positive fits =>
    refine ⟨fun _ _ => rfl, ?_, ?_⟩
    · intro other elsewhere asked
      have kept : (other, asked) ∈ (host.pop pc.slot).needs ↔
          (other, asked) ∈ host.needs :=
        Host.mem_needs_others rfl elsewhere
      rw [← kept]
      simp [Host.needs, Host.reserve, Host.pop, elsewhere]
    · intro other distinct holds
      rcases available with isFree | mine
      · simp [isFree] at holds
      · exact absurd (Option.some.inj (holds.symm.trans mine)) distinct
  | givesUp mine plain =>
    refine ⟨?_, fun _ _ _ => Iff.rfl, ?_⟩
    · intro other elsewhere
      simp [Host.done, Host.unlocked, elsewhere]
    · intro other distinct holds
      exact absurd (Option.some.inj (holds.symm.trans mine)) distinct
  | ends plain =>
    refine ⟨?_, fun _ _ _ => Iff.rfl, fun _ _ holds => ⟨holds, rfl⟩⟩
    intro other elsewhere
    simp [Host.done, elsewhere]
  | pops isFree =>
    refine ⟨?_, ?_, ?_⟩
    · intro other elsewhere
      simp [Host.done, Host.pop, elsewhere]
    · intro other elsewhere asked
      exact Host.mem_needs_others rfl elsewhere
    · intro other distinct holds
      simp [isFree] at holds

theorem exactly (turn : Turn settings host task pc after next)
    (before : Exact settings host) (relies : Relies host task pc) :
    Exact settings after := by
  cases turn with
  | stays slot reservation hasRead positive => exact before
  | locks isFree plain positive => exact before.withLock (some task)
  | reserves available plain positive fits =>
    exact before.reserve positive relies.loading fits
  | givesUp mine plain =>
    exact (before.withLock none).done (relies.unreserved plain)
  | ends plain => exact before.done (relies.unreserved plain)
  | pops isFree => exact before.pop pc.slot

theorem relies {counter : Pc}
    (turn : Turn settings host task pc after (some counter))
    (before : Relies host task pc) : Relies after task counter := by
  cases turn with
  | stays slot reservation hasRead positive =>
    exact {
      loading := slot ▸ before.loading
      holds := fun others read => by
        rw [slot]
        exact before.holds others (hasRead ▸ read)
      reserved := fun needed isReserved => by
        rw [slot]
        exact before.reserved needed (reservation ▸ isReserved)
      unreserved := fun plain => by
        rw [slot]
        exact before.unreserved (reservation ▸ plain)
      positive := positive }
  | locks isFree plain positive =>
    exact {
      loading := before.loading
      holds := fun others read => by
        cases read
        exact ⟨rfl, rfl⟩
      reserved := nofun
      unreserved := fun _ => before.unreserved plain
      positive := fun needed isAsked => by
        cases isAsked
        exact positive }
  | reserves available plain positive fits =>
    exact {
      loading := before.loading
      holds := nofun
      reserved := fun needed isReserved => by
        cases isReserved
        exact Host.mem_needs.mpr ⟨_, mem_cons_self, rfl, rfl⟩
      unreserved := nofun
      positive := fun needed isAsked => by cases isAsked }

theorem loading (turn : Turn settings host task pc after next) :
    (∃ counter, next = some counter ∧ counter.slot = pc.slot ∧
      after.loading = host.loading) ∨
    next = none ∧
      after.loading = update host.loading pc.slot none := by
  cases turn with
  | stays slot reservation hasRead positive => exact .inl ⟨_, rfl, slot, rfl⟩
  | locks isFree plain positive => exact .inl ⟨_, rfl, rfl, rfl⟩
  | reserves available plain positive fits => exact .inl ⟨_, rfl, rfl, rfl⟩
  | givesUp mine plain => exact .inr ⟨rfl, rfl⟩
  | ends plain => exact .inr ⟨rfl, rfl⟩
  | pops isFree => exact .inr ⟨rfl, rfl⟩

end Turn

/-! ## Runs -/

/-- No block is cancelled while it waits for the lock at its exit. -/
def Patient (world : LoadWorld) : LoadAction → Prop
  | .cancel task => ∀ slot needed,
      world.tasks task ≠ some (.leaving slot needed)
  | _ => True

instance (world : LoadWorld) (action : LoadAction) :
    Decidable (Patient world action) :=
  match action with
  | .cancel task =>
    match suspended : world.tasks task with
    | some (.leaving slot needed) =>
      .isFalse fun patient => patient slot needed suspended
    | none => .isTrue fun slot needed leaving => by
        simp [suspended] at leaving
    | some (.estimating _) | some (.entering _ _)
    | some (.gathering _ _ _ _) | some (.unloading _ _ _ _ _)
    | some (.inside _ _) | some (.unreserved _) =>
      .isTrue fun slot needed leaving => by simp [suspended] at leaving
  | .start _ _ | .resume _ _ | .occur _ => .isTrue trivial

variable {settings : Settings} {world : LoadWorld}

theorem Turn.undisturbed {pc : Pc} {next : Option Pc}
    (turn : Turn settings world.shared task pc after next)
    (relies : Relies world.shared task pc) :
    Undisturbed Relies world task after := by
  intro other counter distinct _ others
  refine others.apart turn.apart distinct ?_
  intro same
  have loading := relies.loading
  rw [← same, others.loading] at loading
  exact distinct (Option.some.inj loading)

theorem start_eq_some {host : Host} {pc : Pc}
    (started : start settings host task pc = some after) :
    pc.reservation = none ∧ pc.hasRead = none ∧ pc.asks = none ∧
      host.loading pc.slot = none ∧
      after = { host with
        loading := update host.loading pc.slot (some task) } := by
  unfold start at started
  dsimp only at started
  rw [Option.ite_none_right_eq_some] at started
  obtain ⟨⟨isFirst, isFree⟩, begun⟩ := started
  cases begun
  have plain : pc.reservation = none ∧ pc.hasRead = none ∧ pc.asks = none := by
    rw [isFirst]
    split <;> exact ⟨rfl, rfl, rfl⟩
  exact ⟨plain.1, plain.2.1, plain.2.2, isFree, rfl⟩

theorem Exact.start {host : Host} (exactly : Exact settings host)
    (isFree : host.loading slot = none) :
    Exact settings { host with
      loading := update host.loading slot (some task) } := by
  refine ⟨exactly.fits, exactly.bounded, exactly.distinct, ?_, exactly.roomy⟩
  intro reservation listed
  obtain ⟨holder, loading⟩ := exactly.owned reservation listed
  have apart : reservation.slot ≠ slot := by
    intro same
    simp [same, isFree] at loading
  exact ⟨holder, by simpa [apart] using loading⟩

theorem Exact.not_mem_needs {host : Host} (exactly : Exact settings host)
    (isFree : host.loading slot = none) (needed : Rat) :
    (slot, needed) ∉ host.needs := by
  intro listed
  obtain ⟨reservation, known, isSlot, -⟩ := Host.mem_needs.mp listed
  obtain ⟨holder, loading⟩ := exactly.owned reservation known
  simp [isSlot, isFree] at loading

theorem keeps_exact (settings : Settings) :
    Keeps (loads settings) Patient (Exact settings) Relies where
  start := by
    intro world task pc shared exactly permitted unused started
    obtain ⟨plain, unread, asksNothing, isFree, rfl⟩ :=
      start_eq_some started
    refine ⟨exactly.start isFree, ⟨by simp, by simp [unread],
      by simp [plain], fun _ => exactly.not_mem_needs isFree,
      by simp [asksNothing]⟩, ?_⟩
    intro other counter distinct suspended others
    have apart : counter.slot ≠ pc.slot := by
      intro same
      have loading := others.loading
      simp [same, isFree] at loading
    exact ⟨by simpa [apart] using others.loading, others.holds,
      others.reserved, others.unreserved, others.positive⟩
  resume := by
    intro world task pc reply shared next exactly permitted suspended relies
      resumed
    have turn := turn_of_resume relies resumed
    refine ⟨turn.exactly exactly relies, ?_, turn.undisturbed relies⟩
    rintro counter rfl
    exact turn.relies relies
  cancel := by
    intro world task pc shared exactly permitted suspended relies cancelled
    have patient : ∀ slot needed, pc ≠ .leaving slot needed := by
      rintro slot needed rfl
      exact permitted slot needed suspended
    have turn : Turn settings world.shared task pc shared none :=
      turn_of_cancel relies patient cancelled
    exact ⟨turn.exactly exactly relies, turn.undisturbed relies⟩
  occur := by
    intro world event shared exactly permitted occurred
    obtain ⟨kept, needs, lock, loading⟩ := exactly.occur occurred
    refine ⟨kept, ?_⟩
    intro other pc suspended relies
    exact ⟨loading ▸ relies.loading,
      fun others read => ⟨lock ▸ (relies.holds others read).1,
        (relies.holds others read).2.trans
          (Host.reservedByOthers_congr needs).symm⟩,
      fun needed reserved => needs ▸ relies.reserved needed reserved,
      fun plain needed => needs ▸ relies.unreserved plain needed,
      relies.positive⟩

/-- Who holds the lock of a slot is suspended in its block. -/
def Present (world : LoadWorld) : Prop :=
  ∀ slot task, world.shared.loading slot = some task →
    ∃ pc, world.tasks task = some pc ∧ pc.slot = slot

theorem Present.put (present : Present world) {pc : Pc} {next : Option Pc}
    (suspended : world.tasks task = some pc)
    (loading : (∃ counter, next = some counter ∧ counter.slot = pc.slot ∧
      after.loading = world.shared.loading) ∨
      next = none ∧ after.loading =
        update world.shared.loading pc.slot none) :
    Present (world.put task after next) := by
  intro slot holder holds
  rw [World.put_tasks]
  simp only [World.put_shared] at holds
  rcases loading with ⟨counter, rfl, sameSlot, same⟩ | ⟨rfl, same⟩
  · rw [same] at holds
    obtain ⟨found, isFound, isSlot⟩ := present slot holder holds
    split
    · next isTask =>
        subst isTask
        cases Option.some.inj (isFound.symm.trans suspended)
        exact ⟨counter, rfl, sameSlot.trans isSlot⟩
    · exact ⟨found, isFound, isSlot⟩
  · rw [same, update_apply] at holds
    split at holds
    · cases holds
    · next elsewhere =>
        obtain ⟨found, isFound, isSlot⟩ := present slot holder holds
        split
        · next isTask =>
            subst isTask
            cases Option.some.inj (isFound.symm.trans suspended)
            exact absurd isSlot.symm elsewhere
        · exact ⟨found, isFound, isSlot⟩

theorem Present.moves {next : LoadWorld} {action : LoadAction}
    (present : Present world) (safe : Safe (Exact settings) Relies world)
    (permitted : Patient world action)
    (moved : (loads settings).Moves world action next) : Present next := by
  cases moved with
  | @start task pc shared unused started =>
    obtain ⟨-, -, -, -, rfl⟩ := start_eq_some started
    intro slot holder holds
    rw [World.put_tasks]
    simp only [World.put_shared, update_apply] at holds
    split at holds
    · next isSlot =>
        cases holds
        exact ⟨pc, by simp, isSlot.symm⟩
    · obtain ⟨found, isFound, isSlot⟩ := present slot holder holds
      have distinct : holder ≠ task := by
        rintro rfl
        simp [unused] at isFound
      exact ⟨found, by simpa [distinct] using isFound, isSlot⟩
  | @resume task pc reply shared after suspended resumed =>
    exact present.put suspended
      (turn_of_resume (safe.task task pc suspended) resumed).loading
  | @cancel task pc shared suspended cancelled =>
    have patient : ∀ slot needed, pc ≠ .leaving slot needed := by
      rintro slot needed rfl
      exact permitted slot needed suspended
    have turn : Turn settings world.shared task pc shared none :=
      turn_of_cancel (safe.task task pc suspended) patient cancelled
    exact present.put suspended turn.loading
  | @occur event shared occurred =>
    obtain ⟨-, -, -, loading⟩ := safe.state.occur occurred
    intro slot holder holds
    exact present slot holder (loading ▸ holds)

/--
Every admission had room; the table holds what the open blocks have reserved
and nothing else, so that it is empty when no block is open; and as long as
every probe worked, the loads cannot take more than there is.
-/
structure NeverOvercommits (settings : Settings) (world : LoadWorld) :
    Prop where
  fits : ∀ admission ∈ world.shared.admissions,
    admission.Fits settings.headroomMb
  table : ∀ slot needed, (slot, needed) ∈ world.shared.needs ↔
    ∃ task pc, world.tasks task = some pc ∧ pc.slot = slot ∧
      pc.reservation = some needed
  empty : (∀ task, world.tasks task = none) → world.shared.needs = []
  roomy : (∀ admission ∈ world.shared.admissions,
      admission.probedMb.isSome) → world.shared.reserved ≠ [] →
    world.shared.outstanding + settings.headroomMb ≤ world.shared.free

theorem Safe.neverOvercommits (safe : Safe (Exact settings) Relies world)
    (present : Present world) :
    NeverOvercommits settings world := by
  have listed : ∀ slot needed, (slot, needed) ∈ world.shared.needs →
      ∃ task pc, world.tasks task = some pc ∧ pc.slot = slot ∧
        pc.reservation = some needed := by
    intro slot needed isListed
    obtain ⟨reservation, known, rfl, rfl⟩ := Host.mem_needs.mp isListed
    obtain ⟨task, loading⟩ := safe.state.owned reservation known
    obtain ⟨pc, suspended, isSlot⟩ := present _ _ loading
    refine ⟨task, pc, suspended, isSlot, ?_⟩
    have relies := safe.task task pc suspended
    cases isReserved : pc.reservation with
    | none =>
      exact absurd isListed
        (isSlot ▸ relies.unreserved isReserved reservation.neededMb)
    | some amount =>
      obtain ⟨other, alsoKnown, sameSlot, rfl⟩ :=
        Host.mem_needs.mp (relies.reserved amount isReserved)
      have same := inj_on_of_nodup_map safe.state.distinct alsoKnown
        known (sameSlot.trans isSlot)
      rw [same]
  refine ⟨safe.state.fits, ?_, ?_, safe.state.roomy⟩
  · intro slot needed
    refine ⟨listed slot needed, ?_⟩
    rintro ⟨task, pc, suspended, rfl, isReserved⟩
    exact (safe.task task pc suspended).reserved needed isReserved
  · intro closed
    apply eq_nil_iff_forall_not_mem.mpr
    rintro ⟨slot, needed⟩ isListed
    obtain ⟨task, pc, suspended, -⟩ := listed slot needed isListed
    simp [closed task] at suspended

/-- A host with `free` MiB of memory and nothing reserved. -/
def idle (free : Rat) : Host := ⟨free, [], none, fun _ => none, []⟩

/-- Patient runs never overcommit, and leave no reservation behind. -/
theorem never_overcommits (settings : Settings) (free : Rat)
    {actions : List LoadAction} {world : LoadWorld}
    (run : Run (loads settings).step Patient (World.quiet (idle free))
      actions world) :
    NeverOvercommits settings world := by
  have start : Safe (Exact settings) Relies
      (World.quiet (idle free) : LoadWorld) :=
    Safe.quiet ⟨by simp [idle], by simp [idle], by simp [idle],
      by simp [idle], by simp [idle]⟩
  have kept : Safe (Exact settings) Relies world ∧ Present world := by
    refine run.invariant
      (fun world => Safe (Exact settings) Relies world ∧ Present world)
      ⟨start, ?_⟩ ?_
    · intro slot task holds
      simp [World.quiet, idle] at holds
    · intro before action after holds permitted moved
      have moves := Program.moves_of_step moved
      exact ⟨holds.1.moves (keeps_exact settings) permitted moves,
        holds.2.moves holds.1 permitted moves⟩
  exact Safe.neverOvercommits kept.1 kept.2

/-! ## Two loads -/

/-- A host with a margin of ten. -/
def small : Settings := ⟨true, 10⟩

/-- One load is admitted. -/
def admitsFirst : List LoadAction :=
  [.start 1 (.estimating "chat"), .resume 1 (.footprint 40),
    .resume 1 (.probed true)]

/-- Another load, of 200 MiB, looks for slots to evict. -/
def secondGathers : List LoadAction :=
  [.start 2 (.estimating "brain"), .resume 2 (.footprint 200),
    .resume 2 (.probed true)]

/-- The first load exits while the second one holds the lock. -/
theorem queued_exit_never_overcommits :
    ∃ world : LoadWorld,
      Run (loads small).step Patient (World.quiet (idle 100))
        (admitsFirst ++ secondGathers ++ [.resume 1 (.exits false),
          .cancel 2, .resume 1 (.exits false)]) world ∧
      world.shared.needs = [] ∧ NeverOvercommits small world := by
  obtain ⟨world, run, empty⟩ := Run.exists_of_exec (loads small).step
    Patient (World.quiet (idle 100))
    (admitsFirst ++ secondGathers ++ [.resume 1 (.exits false),
      .cancel 2, .resume 1 (.exits false)])
    (fun world => world.shared.needs = [])
    (by decide +kernel)
  exact ⟨world, run, by simpa using empty, never_overcommits small 100 run⟩

/--
The first load is cancelled while it waits for the lock at its exit, and its
reservation stays when no block is open.
-/
theorem cancelled_exit_leaks :
    ∃ world : LoadWorld,
      Run (loads small).step Anything (World.quiet (idle 100))
        (admitsFirst ++ secondGathers ++ [.resume 1 (.exits false),
          .cancel 1, .cancel 2]) world ∧
      world.shared.needs = [("chat", 40)] ∧
      (∀ task, world.tasks task = none) ∧
      ¬ NeverOvercommits small world := by
  obtain ⟨world, run, leaked⟩ := Run.exists_of_exec (loads small).step
    Anything (World.quiet (idle 100))
    (admitsFirst ++ secondGathers ++ [.resume 1 (.exits false),
      .cancel 1, .cancel 2])
    (fun world => world.shared.needs = [("chat", 40)] ∧
      world.tasks 1 = none ∧ world.tasks 2 = none)
    (by decide +kernel)
  have facts : world.shared.needs = [("chat", 40)] ∧
      world.tasks 1 = none ∧ world.tasks 2 = none := by simpa using leaked
  have closed : ∀ task, world.tasks task = none := by
    intro task
    by_cases first : task = 1
    · exact first ▸ facts.2.1
    · by_cases second : task = 2
      · exact second ▸ facts.2.2
      · rw [Program.tasks_eq_of_run run]
        · rfl
        · simp [admitsFirst, secondGathers, Action.task, Ne.symm first,
            Ne.symm second]
  refine ⟨world, run, facts.1, closed, ?_⟩
  intro sound
  have empty := sound.empty closed
  simp [facts.1] at empty

end Hal0.Slots.Reservations
