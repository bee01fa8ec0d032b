import Hal0.Ports.Authority

/-!
# One owner for a port, one port for a slot

The index keeps the live ports distinct whatever the callers do.  That a slot
holds one claim, and that a port of the `reserved` map is not handed out,
depends on the callers: nothing looks at what the slot holds before a claim is
inserted, and nothing reads the map.
-/

namespace Hal0.Ports

open List
open Hal0.Transition
open Hal0.Tasks

/-! ## What the statements do to the live rows -/

namespace Claims

variable {claims after : Claims} {claim : Claim} {port : Port}

theorem live_freeWhere (picks : Claim → Bool) :
    (claims.freeWhere picks).live =
      claims.live.filter fun claim => !picks claim := by
  unfold freeWhere live
  induction claims with
  | nil => rfl
  | cons claim rest rows =>
    cases isLive : claim.live with
    | false => simpa [isLive] using rows
    | true =>
      cases picked : picks claim with
      | false => simpa [isLive, picked] using rows
      | true => simpa [isLive, picked, Claim.freed] using rows

theorem live_orphan (slot : SlotId) :
    (claims.orphan slot).live = claims.live.orphan slot := by
  unfold orphan live
  rw [filter_map]
  congr 2
  funext claim
  simp only [Function.comp_apply]
  split <;> rfl

section

variable (inserted : claims.insert claim = some after)
include inserted

theorem live_insert
    (isLive : claim.live = true) : after.live = claims.live ++ [claim] := by
  unfold insert at inserted
  split_ifs at inserted
  obtain rfl := Option.some.inj inserted
  simp [live, isLive]

theorem not_mem_livePorts_of_insert :
    claim.port ∉ claims.livePorts := by
  unfold insert at inserted
  split_ifs at inserted with taken
  exact taken

theorem livePorts_insert (isLive : claim.live = true) :
    after.livePorts = claims.livePorts ++ [claim.port] := by
  simp [livePorts, live_insert inserted isLive]

end

theorem heldBy_insert (slot : SlotId)
    (inserted : claims.insert claim = some after)
    (isLive : claim.live = true) :
    after.heldBy slot =
      claims.heldBy slot ++ if claim.slot = some slot then [claim] else [] := by
  unfold heldBy
  rw [live_insert inserted isLive, filter_append]
  by_cases owned : claim.slot = some slot
  · simp [owned]
  · simp [owned]

theorem reserve_cases {label : String}
    (reserved : claims.reserve port label = some after) :
    after = claims ∨
      claims.insert ⟨port, none, .reserved, label, none, true⟩ =
        some after := by
  unfold reserve at reserved
  split at reserved
  · split_ifs at reserved
    exact .inl (Option.some.inj reserved).symm
  · exact .inr reserved

end Claims

/-! ## What is kept -/

/-- The live ports are distinct, and no slot holds two of them. -/
structure OneEach (claims : Claims) : Prop where
  ports : claims.livePorts.Nodup
  slots : ∀ slot, (claims.heldBy slot).length ≤ 1

namespace OneEach

variable {claims after : Claims} {claim : Claim}

theorem empty : OneEach [] where
  ports := nodup_nil
  slots := fun _ => Nat.zero_le 1

theorem freeWhere (one : OneEach claims) (picks : Claim → Bool) :
    OneEach (claims.freeWhere picks) where
  ports := by
    unfold Claims.livePorts
    rw [Claims.live_freeWhere]
    exact one.ports.sublist (filter_sublist.map _)
  slots := by
    intro slot
    unfold Claims.heldBy
    rw [Claims.live_freeWhere]
    exact Nat.le_trans (filter_sublist.filter _).length_le
      (one.slots slot)

theorem orphan (one : OneEach claims) (slot : SlotId) :
    OneEach (claims.orphan slot) where
  ports := by
    have same : (claims.orphan slot).livePorts = claims.livePorts := by
      unfold Claims.livePorts
      rw [Claims.live_orphan, Claims.orphan, map_map]
      congr 1
      funext claim
      simp only [Function.comp_apply]
      split <;> rfl
    rw [same]
    exact one.ports
  slots := by
    intro other
    refine Nat.le_trans ?_ (one.slots other)
    unfold Claims.heldBy
    rw [Claims.live_orphan, Claims.orphan, filter_map, length_map]
    apply List.Sublist.length_le
    apply monotone_filter_right
    intro claim kept
    simp only [Function.comp_apply, decide_eq_true_eq] at kept
    split at kept
    · cases kept
    · simpa using kept

/-- A claim for a slot which has none. -/
theorem insert (one : OneEach claims)
    (inserted : claims.insert claim = some after)
    (isLive : claim.live = true)
    (holdsNone : ∀ slot, claim.slot = some slot →
      claims.heldBy slot = []) : OneEach after where
  ports := by
    rw [Claims.livePorts_insert inserted isLive]
    have fresh := Claims.not_mem_livePorts_of_insert inserted
    exact nodup_append.mpr ⟨one.ports, by simp, by
      intro port present other same clash
      obtain rfl := mem_singleton.mp same
      exact fresh (clash ▸ present)⟩
  slots := by
    intro slot
    rw [Claims.heldBy_insert slot inserted isLive]
    split_ifs with owned
    · simp [holdsNone slot owned]
    · simpa using one.slots slot

theorem reserve (one : OneEach claims) {port : Port} {label : String}
    (reserved : claims.reserve port label = some after) :
    OneEach after := by
  rcases Claims.reserve_cases reserved with rfl | inserted
  · exact one
  · exact one.insert inserted rfl (by simp)

end OneEach

/-! ## Answers -/

/-- The scan rules out every port which must not be handed out. -/
structure Scan.Clears (authority : Authority) (scan : Scan) (port : Port) :
    Prop where
  unreserved : port ∉ authority.reserved.map Prod.fst
  unclaimed : port ∉ scan.live
  silent : scan.includeListeners = true → port ∉ scan.listening

/-- A port which was found or granted was free to be. -/
def Answer.Fits (authority : Authority) : Answer → Prop
  | .found scan port => scan.Clears authority port
  | .granted request scan live port =>
    scan.Clears authority port ∧
      scan.includeListeners = request.includeListeners ∧ port ∉ live

/-- The ports of the `reserved` map which the pool has. -/
def Authority.Covers (authority : Authority) (live : List Port) : Prop :=
  ∀ port ∈ authority.reserved.map Prod.fst, authority.start ≤ port →
    port ≤ authority.stop → port ∈ live

instance (authority : Authority) (live : List Port) :
    Decidable (authority.Covers live) :=
  inferInstanceAs (Decidable (∀ port ∈ authority.reserved.map Prod.fst, _))

variable {authority : Authority}

theorem Authority.mem_pool {port : Nat} :
    port ∈ authority.pool ↔
      authority.start ≤ port ∧ port ≤ authority.stop := by
  unfold Authority.pool
  simp only [mem_map, mem_range]
  constructor
  · rintro ⟨offset, inside, rfl⟩
    omega
  · rintro ⟨above, below⟩
    exact ⟨port - authority.start, by omega, by omega⟩

variable {preferred : Option Port}

/-- What `next_free` answers is a port of the pool which is not in use. -/
theorem Authority.nextFree_spec {used : List Port} {port : Port}
    (answered : authority.nextFree preferred used = some port) :
    authority.start ≤ port ∧ port ≤ authority.stop ∧ port ∉ used := by
  unfold Authority.nextFree at answered
  split at answered
  · rename_i asked honoured
    obtain rfl := Option.some.inj answered
    have fits := (Option.filter_eq_some_iff.mp honoured).2
    simpa [and_assoc] using fits
  · have inPool := Authority.mem_pool.mp (mem_of_find?_eq_some answered)
    have unused := find?_some answered
    exact ⟨inPool.1, inPool.2, by simpa using unused⟩

theorem Scan.clears_of_nextFree {scan : Scan} {port : Port}
    (covers : authority.Covers scan.live)
    (answered : authority.nextFree preferred scan.used = some port) :
    scan.Clears authority port := by
  obtain ⟨above, below, unused⟩ := Authority.nextFree_spec answered
  have unclaimed : port ∉ scan.live := by
    intro claimed
    apply unused
    unfold Scan.used
    split_ifs
    · exact mem_append_left _ claimed
    · exact claimed
  refine ⟨fun reserved => unclaimed (covers port reserved above below),
    unclaimed, ?_⟩
  intro includes listened
  apply unused
  rw [Scan.used, if_pos includes]
  exact mem_append_right _ listened

/-! ## Runs -/

/--
The callers see to it that the ports of the `reserved` map are claimed when a
call looks for a free port, and that a slot holds no claim when one is
inserted for it.
-/
def Careful (authority : Authority) (world : PortWorld) : PortAction → Prop
  | .resume task _ =>
    match world.tasks task with
    | some (.scanning _) => authority.Covers world.shared.claims.livePorts
    | some (.inserting request _ _ _) =>
      world.shared.claims.heldBy request.slot = []
    | _ => True
  | _ => True

instance (authority : Authority) (world : PortWorld) (action : PortAction) :
    Decidable (Careful authority world action) := by
  unfold Careful
  split
  · split <;> infer_instance
  · infer_instance

/-- What the authority promises of a state. -/
structure Owned (authority : Authority) (shared : Shared) : Prop where
  claims : OneEach shared.claims
  answers : ∀ answer ∈ shared.log, answer.Fits authority

/-- What a suspended call has read. -/
def Pc.Rests (authority : Authority) : Pc → Prop
  | .listing asker live =>
    authority.Covers live ∧ asker.includeListeners = true
  | .inserting request _ scan port =>
    scan.Clears authority port ∧
      scan.includeListeners = request.includeListeners
  | _ => True

namespace Owned

variable {authority : Authority} {shared : Shared}

section

variable (owned : Owned authority shared)
include owned

theorem answer {answer : Answer} (fits : answer.Fits authority) :
    Owned authority { shared with log := shared.log ++ [answer] } where
  claims := owned.claims
  answers := by
    intro other listed
    rcases mem_append.mp listed with before | new
    · exact owned.answers other before
    · obtain rfl := mem_singleton.mp new
      exact fits

theorem withClaims {claims : Claims} (one : OneEach claims) :
    Owned authority { shared with claims := claims } :=
  ⟨one, owned.answers⟩

/-- The port that is picked is free. -/
theorem pick {asker : Asker} {scan : Scan}
    (covers : authority.Covers scan.live)
    (asked : scan.includeListeners = asker.includeListeners) :
    Owned authority (pick authority shared asker scan).1 ∧
      ∀ pc, (Ports.pick authority shared asker scan).2 = some pc →
        pc.Rests authority := by
  unfold Ports.pick
  cases answered : authority.nextFree asker.preferred scan.used with
  | none => exact ⟨owned, by simp⟩
  | some port =>
    have clears := Scan.clears_of_nextFree covers answered
    refine ⟨owned.answer clears, ?_⟩
    intro pc reached
    cases asker with
    | next preferred includeListeners => cases reached
    | grant request preferred attempts =>
      cases reached
      exact ⟨clears, asked⟩

/-- Every event keeps the owners apart. -/
theorem occur {event : Event} {after : Shared}
    (occurred : Ports.occur shared event = some after) :
    Owned authority after := by
  cases event with
  | release slot =>
    cases occurred
    exact owned.withClaims (owned.claims.freeWhere _)
  | releasePort port =>
    cases occurred
    exact owned.withClaims (owned.claims.freeWhere _)
  | reserve port label =>
    simp only [Ports.occur, Option.map_eq_some_iff] at occurred
    obtain ⟨claims, reserved, rfl⟩ := occurred
    exact owned.withClaims (owned.claims.reserve reserved)
  | reconcile =>
    cases occurred
    exact owned.withClaims (owned.claims.freeWhere _)
  | orphan slot =>
    cases occurred
    exact owned.withClaims (owned.claims.orphan slot)
  | sockets listening =>
    cases occurred
    exact ⟨owned.claims, owned.answers⟩

end

end Owned

theorem retry_rests {request : Request} {attempts : Nat} {pc : Pc}
    (again : retry request preferred attempts = some pc) :
    pc.Rests authority := by
  cases attempts with
  | zero => cases again
  | succ left =>
    cases again
    trivial

/-- Every step of a task does. -/
theorem resume_owned {shared : Shared} {pc : Pc} {reply : Reply}
    (owned : Owned authority shared) (rests : pc.Rests authority)
    (scans : ∀ asker, pc = .scanning asker →
      authority.Covers shared.claims.livePorts)
    (inserts : ∀ request attempts scan port,
      pc = .inserting request attempts scan port →
        shared.claims.heldBy request.slot = []) :
    Owned authority (resume authority shared pc reply).1 ∧
      ∀ next, (resume authority shared pc reply).2 = some next →
        next.Rests authority := by
  cases pc with
  | releasing request =>
    refine ⟨owned.withClaims (owned.claims.freeWhere _), ?_⟩
    intro next reached
    cases reached
    trivial
  | sharing request =>
    simp only [resume]
    split
    · exact ⟨owned, by simp⟩
    · refine ⟨owned, ?_⟩
      intro next reached
      simp only [scanLoop] at reached
      exact retry_rests reached
  | scanning asker =>
    have covers := scans asker rfl
    simp only [resume]
    split_ifs with includes
    · refine ⟨owned, ?_⟩
      intro next reached
      cases reached
      exact ⟨covers, includes⟩
    · exact owned.pick covers (by simpa using includes)
  | listing asker live =>
    exact owned.pick rests.1 rests.2.symm
  | inserting request attempts scan port =>
    cases reply with
    | missing => exact ⟨owned, fun next reached => retry_rests reached⟩
    | done =>
      simp only [resume]
      split
      · exact ⟨owned, fun next reached => retry_rests reached⟩
      · rename_i claims inserted
        have one := owned.claims.insert inserted rfl (by
          intro slot same
          obtain rfl := Option.some.inj same
          exact inserts request attempts scan port rfl)
        have fresh := Claims.not_mem_livePorts_of_insert inserted
        exact ⟨(owned.withClaims one).answer ⟨rests.1, rests.2, fresh⟩,
          by simp⟩

/-- Every careful step does. -/
theorem keeps_owned (authority : Authority) :
    Keeps (calls authority) (Careful authority) (Owned authority)
      (fun _ _ pc => pc.Rests authority) where
  start := by
    intro world task pc shared owned permitted unused started
    have begun : start world.shared pc = some shared := started
    cases pc with
    | releasing request =>
      cases begun
      exact ⟨owned, trivial, fun _ _ _ _ rests => rests⟩
    | sharing request =>
      cases begun
      exact ⟨owned, trivial, fun _ _ _ _ rests => rests⟩
    | scanning asker =>
      cases asker with
      | next preferred includeListeners =>
        cases begun
        exact ⟨owned, trivial, fun _ _ _ _ rests => rests⟩
      | grant request preferred attempts => cases begun
    | listing asker live => cases begun
    | inserting request attempts scan port => cases begun
  resume := by
    intro world task pc reply shared next owned permitted suspended rests
      resumed
    simp only [Careful, suspended] at permitted
    have kept : Owned authority (resume authority world.shared pc reply).1 ∧ _ :=
      resume_owned owned rests
        (by rintro asker rfl; exact permitted)
        (by rintro request attempts scan port rfl; exact permitted)
    obtain ⟨rfl, rfl⟩ := Prod.mk.inj (Option.some.inj resumed)
    exact ⟨kept.1, kept.2, fun _ _ _ _ rests => rests⟩
  cancel := by
    intro world task pc shared owned permitted suspended rests cancelled
    cases cancelled
    exact ⟨owned, fun _ _ _ _ rests => rests⟩
  occur := by
    intro world event shared owned permitted occurred
    exact ⟨owned.occur occurred, fun _ _ _ rests => rests⟩

/-- No claims and no sockets. -/
def fresh : Shared := ⟨[], [], []⟩

/-- Careful callers never see a port or a slot with two owners, nor a port
which was not free to be granted. -/
theorem ports_owned (authority : Authority) {actions : List PortAction}
    {world : PortWorld}
    (run : Run (calls authority).step (Careful authority)
      (World.quiet fresh) actions world) :
    Owned authority world.shared :=
  (Safe.run (Safe.quiet ⟨OneEach.empty, by simp [fresh]⟩)
    (keeps_owned authority) run).state

/-! ## Runs on a small pool -/

/-- Three ports, one of them reserved. -/
def smallPool : Authority := ⟨8080, 8082, [(8080, "api")]⟩

/-- A slot asks for a port, and gets the first free one. -/
def acquires (task : TaskId) (slot : SlotId) : List PortAction :=
  [.start task (.sharing ⟨slot, none, none, "slot", true⟩),
    .resume task .done, .resume task .done, .resume task .done,
    .resume task .done]

/-- With the port of the API reserved first, two slots get the others. -/
theorem reserved_pool_owned :
    ∃ world : PortWorld,
      Run (calls smallPool).step (Careful smallPool) (World.quiet fresh)
        ([.occur (.reserve 8080 "api")] ++ acquires 1 1 ++ acquires 2 2)
        world ∧
      world.shared.claims.livePorts = [8080, 8081, 8082] ∧
      Owned smallPool world.shared := by
  obtain ⟨world, run, ports⟩ := Run.exists_of_exec (calls smallPool).step
    (Careful smallPool) (World.quiet fresh)
    ([.occur (.reserve 8080 "api")] ++ acquires 1 1 ++ acquires 2 2)
    (fun world => world.shared.claims.livePorts = [8080, 8081, 8082])
    (by decide)
  exact ⟨world, run, by simpa using ports, ports_owned smallPool run⟩

/-- A slot which acquires twice holds two ports, and the first of them is the
one which the `reserved` map keeps for the API. -/
theorem slot_holds_reserved_and_second :
    ∃ world : PortWorld,
      Run (calls smallPool).step Anything (World.quiet fresh)
        (acquires 1 1 ++ acquires 1 1) world ∧
      (world.shared.claims.heldBy 1).map Claim.port = [8080, 8081] ∧
      ¬ Owned smallPool world.shared := by
  obtain ⟨world, run, held⟩ := Run.exists_of_exec (calls smallPool).step
    Anything (World.quiet fresh) (acquires 1 1 ++ acquires 1 1)
    (fun world => (world.shared.claims.heldBy 1).map Claim.port =
      [8080, 8081])
    (by decide)
  have ports : (world.shared.claims.heldBy 1).map Claim.port =
      [8080, 8081] := by simpa using held
  refine ⟨world, run, ports, ?_⟩
  intro owned
  have two : (world.shared.claims.heldBy 1).length = 2 := by
    simpa using congrArg List.length ports
  have one := owned.claims.slots 1
  omega

end Hal0.Ports
