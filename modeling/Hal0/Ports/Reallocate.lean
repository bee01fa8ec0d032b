import Hal0.Ports.Ownership

/-!
# Moving a slot to another port

`reallocate` releases what the slot holds and acquires a port for it.  On a
connection of its own these are transactions of their own: when nothing can be
acquired the slot has lost its port.  On the connection of a caller the whole
move is rolled back with the transaction which the error leaves.

Other calls for other slots come between the statements; the claims which they
insert are rivals.
-/

namespace Hal0.Ports

open List

/-! ## The statements of one call -/

/-- Claims that other owners insert. -/
abbrev Rivals (slot : SlotId) :=
  List { claim : Claim // claim.live = true ∧ claim.slot ≠ some slot }

/-- The rivals insert their claims, as far as the index lets them. -/
def Claims.joined {slot : SlotId} (claims : Claims) (rivals : Rivals slot) :
    Claims :=
  rivals.foldl (fun claims rival => (claims.insert rival.1).getD claims) claims

/-- What happens in one attempt of `acquire`: before its scan, and after. -/
structure Interlude (slot : SlotId) where
  early : Rivals slot
  listening : List Port
  late : Rivals slot

/-- The claims which the scan of an attempt reads. -/
def Interlude.scanned {slot : SlotId} (interlude : Interlude slot)
    (claims : Claims) : Claims :=
  claims.joined interlude.early

/-- The claims which the insert of an attempt meets. -/
def Interlude.raced {slot : SlotId} (interlude : Interlude slot)
    (claims : Claims) : Claims :=
  (interlude.scanned claims).joined interlude.late

/-- What happens before each attempt. -/
abbrev Interludes (slot : SlotId) := Nat → Interlude slot

/-- From the second attempt on. -/
def Interludes.later {slot : SlotId} (interludes : Interludes slot) :
    Interludes slot :=
  fun attempt => interludes (attempt + 1)

/-- The ways in which it fails. -/
inductive Failure where
  /-- `PortPoolExhausted` -/
  | exhausted
  /-- `sqlite3.IntegrityError` -/
  | integrity
deriving DecidableEq

/-- The row which `acquire` inserts. -/
def Request.row (request : Request) (port : Port) : Claim :=
  ⟨port, some request.slot, .slot, request.label, request.group, true⟩

/-- `next_free`, as an attempt asks it. -/
def scanFor (authority : Authority) (request : Request)
    (preferred : Option Port) (listening : List Port) (claims : Claims) :
    Option Port :=
  authority.nextFree preferred
    (Scan.used ⟨request.includeListeners, claims.livePorts, listening⟩)

/-- The insert, which the foreign key refuses for a slot without a row. -/
def insertFor (known : Bool) (request : Request) (port : Port)
    (claims : Claims) : Option Claims :=
  if known then claims.insert (request.row port) else none

/-- The peer's port in a group which is named. -/
def sharedPort (request : Request) (claims : Claims) : Option Port :=
  (request.group.filter fun group => group ≠ "").bind claims.groupPort

/-- A port or a failure, and the claims. -/
abbrev Result := Except Failure Port × Claims

/-- The attempts of `acquire` on connections of its own. -/
def attempts (authority : Authority) (request : Request) (known : Bool) :
    Nat → Interludes request.slot → Option Port → Claims → Result
  | 0, _, _, claims => (.error .exhausted, claims)
  | left + 1, interludes, preferred, claims =>
    match scanFor authority request preferred (interludes 0).listening
        ((interludes 0).scanned claims) with
    | none => (.error .exhausted, (interludes 0).scanned claims)
    | some port =>
      match insertFor known request port ((interludes 0).raced claims) with
      | some claims => (.ok port, claims)
      | none =>
        attempts authority request known left interludes.later none
          ((interludes 0).raced claims)

/-- How often `acquire` tries: once for each port of the pool, and once more. -/
def Authority.tries (authority : Authority) : Nat :=
  authority.stop + 1 - authority.start + 1

/-- `acquire` on connections of its own. -/
def acquire (authority : Authority) (request : Request) (known : Bool)
    (interludes : Interludes request.slot) (claims : Claims) : Result :=
  match sharedPort request claims with
  | some port => (.ok port, claims)
  | none =>
    attempts authority request known authority.tries interludes
      request.preferred claims

/-- `acquire` in the transaction of its caller, which keeps others out. -/
def acquireWithin (authority : Authority) (request : Request) (known : Bool)
    (listening : List Port) (claims : Claims) : Result :=
  match sharedPort request claims with
  | some port => (.ok port, claims)
  | none =>
    match scanFor authority request request.preferred listening claims with
    | none => (.error .exhausted, claims)
    | some port =>
      match insertFor known request port claims with
      | some claims => (.ok port, claims)
      | none => (.error .integrity, claims)

/-- `reallocate` -/
def reallocate (authority : Authority) (request : Request) (known : Bool)
    (meanwhile : Rivals request.slot) (interludes : Interludes request.slot)
    (claims : Claims) : Result :=
  acquire authority request known interludes
    ((claims.release request.slot).joined meanwhile)

/-- `with tx(conn): reallocate(…, conn=conn)` -/
def reallocateWithin (authority : Authority) (request : Request)
    (known : Bool) (listening : List Port) (claims : Claims) : Result :=
  let result := acquireWithin authority request known listening
    (claims.release request.slot)
  match result.1 with
  | .ok _ => result
  | .error _ => (result.1, claims)

/-! ## What is expected of a move -/

/-- The port is the only one of the slot, or the one which its group has. -/
def Moved (request : Request) (port : Port) (after : Claims) : Prop :=
  (∃ claim, after.heldBy request.slot = [claim] ∧ claim.port = port) ∨
    (after.heldBy request.slot = [] ∧
      sharedPort request after = some port)

/-- What rivals insert while a call is under way. -/
def Arrived {slot : SlotId} (meanwhile : Rivals slot)
    (interludes : Interludes slot) (claim : Claim) : Prop :=
  claim ∈ meanwhile.map Subtype.val ∨ ∃ attempt,
    claim ∈ (interludes attempt).early.map Subtype.val ∨
      claim ∈ (interludes attempt).late.map Subtype.val

/-- The claims of a slot are as they were, but for those which arrived. -/
def Kept (arrived : Claim → Prop) (other : SlotId)
    (before after : Claims) : Prop :=
  ∃ joined, after.heldBy other = before.heldBy other ++ joined ∧
    ∀ claim ∈ joined, arrived claim

/-- A move which fails keeps the old port; one which returns has the new. -/
structure MoveLaw (request : Request) (arrived : Claim → Prop)
    (before : Claims) (result : Result) : Prop where
  failed : ∀ failure, result.1 = .error failure →
    result.2.heldBy request.slot = before.heldBy request.slot
  returned : ∀ port, result.1 = .ok port → Moved request port result.2
  others : ∀ port, result.1 = .ok port → ∀ other, other ≠ request.slot →
    Kept arrived other before result.2

/-! ## When it is met -/

/--
The attempt with this number finds a port which no rival inserts before it,
and each attempt before has found one.
-/
def Wins (authority : Authority) (request : Request) :
    Nat → Interludes request.slot → Option Port → Claims → Prop
  | 0, interludes, preferred, claims =>
    ∃ port, scanFor authority request preferred (interludes 0).listening
        ((interludes 0).scanned claims) = some port ∧
      port ∉ ((interludes 0).raced claims).livePorts
  | attempt + 1, interludes, preferred, claims =>
    (scanFor authority request preferred (interludes 0).listening
        ((interludes 0).scanned claims)).isSome ∧
      Wins authority request attempt interludes.later none
        ((interludes 0).raced claims)

/-- A peer of the group has a port, or an attempt for a known slot wins. -/
def Provided (authority : Authority) (request : Request) (known : Bool)
    (interludes : Interludes request.slot) (claims : Claims) : Prop :=
  (sharedPort request claims).isSome ∨
    (known = true ∧ ∃ attempt < authority.tries,
      Wins authority request attempt interludes request.preferred claims)

/-! ## The statements and the claims of a slot -/

section
variable {slot other : SlotId} {claims before middle after : Claims}
  {arrived : Claim → Prop}

theorem heldBy_release (claims : Claims) (slot : SlotId) :
    (claims.release slot).heldBy slot = [] := by
  unfold Claims.heldBy Claims.release
  rw [Claims.live_freeWhere, filter_filter]
  apply filter_eq_nil_iff.mpr
  intro claim _
  simp

theorem heldBy_release_of_ne (claims : Claims) (differs : other ≠ slot) :
    (claims.release slot).heldBy other = claims.heldBy other := by
  unfold Claims.heldBy Claims.release
  rw [Claims.live_freeWhere, filter_filter]
  apply filter_congr
  intro claim _
  by_cases isOther : claim.slot = some other
  · have notSlot : claim.slot ≠ some slot := by
      rw [isOther]
      exact fun same => differs (Option.some.inj same)
    simp [isOther, differs]
  · simp [isOther]

theorem heldBy_joinedOne (claims : Claims) (claim : Claim)
    (isLive : claim.live = true) (other : SlotId) :
    ∃ joined, ((claims.insert claim).getD claims).heldBy other =
        claims.heldBy other ++ joined ∧
      ∀ row ∈ joined, row = claim ∧ claim.slot = some other := by
  cases inserted : claims.insert claim with
  | none => exact ⟨[], (append_nil _).symm, nofun⟩
  | some after =>
    refine ⟨_, Claims.heldBy_insert other inserted isLive, ?_⟩
    intro row isIn
    split at isIn
    · next owned => exact ⟨mem_singleton.mp isIn, owned⟩
    · cases isIn

theorem Kept.refl : Kept arrived other claims claims :=
  ⟨[], (append_nil _).symm, nofun⟩

theorem Kept.trans (first : Kept arrived other before middle)
    (second : Kept arrived other middle after) :
    Kept arrived other before after := by
  obtain ⟨joined, same, arrives⟩ := first
  obtain ⟨later, sameLater, arrivesLater⟩ := second
  refine ⟨joined ++ later, ?_, ?_⟩
  · rw [sameLater, same, append_assoc]
  · intro claim isIn
    rcases mem_append.mp isIn with isFirst | isSecond
    · exact arrives claim isFirst
    · exact arrivesLater claim isSecond

theorem Kept.of_eq (same : after.heldBy other = before.heldBy other) :
    Kept arrived other before after :=
  ⟨[], by rw [same, append_nil], nofun⟩

theorem kept_joined {rivals : Rivals slot}
    (arrives : ∀ claim ∈ rivals.map Subtype.val, arrived claim)
    (claims : Claims) (other : SlotId) :
    Kept arrived other claims (claims.joined rivals) := by
  induction rivals generalizing claims with
  | nil => exact .refl
  | cons rival rivals ih =>
    have later := ih
      (fun claim isIn => arrives claim (mem_cons_of_mem _ isIn))
      ((claims.insert rival.1).getD claims)
    obtain ⟨joined, same, isRival⟩ :=
      heldBy_joinedOne claims rival.1 rival.2.1 other
    have first : Kept arrived other claims
        ((claims.insert rival.1).getD claims) := by
      refine ⟨joined, same, fun claim isIn => ?_⟩
      rw [(isRival claim isIn).1]
      exact arrives _ mem_cons_self
    exact first.trans later

theorem heldBy_joined (claims : Claims) (rivals : Rivals slot) :
    (claims.joined rivals).heldBy slot = claims.heldBy slot := by
  induction rivals generalizing claims with
  | nil => rfl
  | cons rival rivals ih =>
    obtain ⟨joined, same, isRival⟩ :=
      heldBy_joinedOne claims rival.1 rival.2.1 slot
    have isNil : joined = [] := by
      apply eq_nil_iff_forall_not_mem.mpr
      intro claim isIn
      exact rival.2.2 (isRival claim isIn).2
    rw [isNil, append_nil] at same
    exact (ih _).trans same

end

/-! ## One call -/

section
variable {authority : Authority} {request : Request} {known : Bool}
  {claims : Claims} {arrived : Claim → Prop}

/-- What `acquire` does to the claims, and when it returns. -/
structure AcquireSpec (request : Request) (arrived : Claim → Prop)
    (before : Claims) (result : Result) (provided : Prop) : Prop where
  failed : ∀ failure, result.1 = .error failure →
    result.2.heldBy request.slot = before.heldBy request.slot ∧ ¬ provided
  returned : ∀ port, result.1 = .ok port → provided ∧
    ((∃ claim, result.2.heldBy request.slot =
        before.heldBy request.slot ++ [claim] ∧ claim.port = port) ∨
      (result.2.heldBy request.slot = before.heldBy request.slot ∧
        sharedPort request result.2 = some port))
  others : ∀ other, other ≠ request.slot →
    Kept arrived other before result.2

theorem heldBy_insertFor {port : Port} {after : Claims}
    (inserted : insertFor known request port claims = some after) :
    after.heldBy request.slot =
        claims.heldBy request.slot ++ [request.row port] ∧
      ∀ other, other ≠ request.slot →
        after.heldBy other = claims.heldBy other := by
  rw [insertFor] at inserted
  split at inserted
  · constructor
    · have owned : (request.row port).slot = some request.slot := rfl
      rw [Claims.heldBy_insert request.slot inserted rfl, if_pos owned]
    · intro other differs
      rw [Claims.heldBy_insert other inserted rfl, if_neg, append_nil]
      exact fun same => differs (Option.some.inj same).symm
  · cases inserted

theorem insertFor_isSome {port : Port} :
    (insertFor known request port claims).isSome ↔
      known = true ∧ port ∉ claims.livePorts := by
  rw [insertFor, Claims.insert]
  have isPort : (request.row port).port = port := rfl
  rw [isPort]
  split
  · next isKnown =>
      split
      · next taken => simp [taken]
      · next free => simp [free, isKnown]
  · next unknown => simp [unknown]

/-- Attempts end with a port or a failure. -/
theorem attempts_spec (left : Nat) (interludes : Interludes request.slot)
    (preferred : Option Port)
    (arrives : ∀ attempt, ∀ claim,
      claim ∈ (interludes attempt).early.map Subtype.val ∨
        claim ∈ (interludes attempt).late.map Subtype.val → arrived claim) :
    AcquireSpec request arrived claims
      (attempts authority request known left interludes preferred claims)
      (known = true ∧ ∃ attempt < left,
        Wins authority request attempt interludes preferred claims) := by
  induction left generalizing interludes preferred claims with
  | zero =>
    refine ⟨fun _ _ => ⟨rfl, ?_⟩, nofun, fun _ _ => .refl⟩
    rintro ⟨_, attempt, tooMany, _⟩
    exact Nat.not_lt_zero attempt tooMany
  | succ left ih =>
    have early : ((interludes 0).scanned claims).heldBy request.slot =
        claims.heldBy request.slot := heldBy_joined _ _
    have late : ((interludes 0).raced claims).heldBy request.slot =
        claims.heldBy request.slot := (heldBy_joined _ _).trans early
    have keptEarly : ∀ other, Kept arrived other claims
        ((interludes 0).scanned claims) := fun other =>
      kept_joined (fun claim isIn => arrives 0 claim (Or.inl isIn)) _ _
    have keptLate : ∀ other, Kept arrived other claims
        ((interludes 0).raced claims) := fun other =>
      (keptEarly other).trans (kept_joined
        (fun claim isIn => arrives 0 claim (Or.inr isIn)) _ _)
    rw [attempts]
    cases scanned : scanFor authority request preferred
        (interludes 0).listening ((interludes 0).scanned claims) with
    | none =>
      refine ⟨fun _ _ => ⟨early, ?_⟩, nofun, fun other _ =>
        keptEarly other⟩
      rintro ⟨_, attempt, _, wins⟩
      cases attempt with
      | zero =>
        obtain ⟨port, found, _⟩ := wins
        rw [scanned] at found
        cases found
      | succ attempt =>
        have found := wins.1
        rw [scanned] at found
        cases found
    | some port =>
      dsimp only
      have wonFirst : Wins authority request 0 interludes preferred
          claims ↔ port ∉ ((interludes 0).raced claims).livePorts := by
        constructor
        · rintro ⟨other, found, free⟩
          rw [scanned] at found
          cases found
          exact free
        · intro free
          exact ⟨port, scanned, free⟩
      cases inserted : insertFor known request port
          ((interludes 0).raced claims) with
      | some after =>
        have isSome := insertFor_isSome.mp (Option.isSome_of_eq_some
          inserted)
        obtain ⟨own, others⟩ := heldBy_insertFor inserted
        refine ⟨nofun, ?_, fun other differs =>
          (keptLate other).trans (.of_eq (others other differs))⟩
        intro returned isPort
        cases isPort
        refine ⟨⟨isSome.1, 0, Nat.zero_lt_succ left,
          wonFirst.mpr isSome.2⟩, Or.inl ⟨request.row port, ?_, rfl⟩⟩
        rw [own, late]
      | none =>
        have later := @ih ((interludes 0).raced claims)
          interludes.later none fun attempt => arrives (attempt + 1)
        have lost : ∀ isKnown : known = true,
            ¬ Wins authority request 0 interludes preferred claims := by
          intro isKnown wins
          have isSome : (insertFor known request port
              ((interludes 0).raced claims)).isSome :=
            insertFor_isSome.mpr ⟨isKnown, wonFirst.mp wins⟩
          rw [inserted] at isSome
          cases isSome
        have provided : (known = true ∧ ∃ attempt < left + 1,
            Wins authority request attempt interludes preferred
              claims) ↔ (known = true ∧ ∃ attempt < left,
            Wins authority request attempt interludes.later none
              ((interludes 0).raced claims)) := by
          constructor
          · rintro ⟨isKnown, attempt, inTime, wins⟩
            cases attempt with
            | zero => exact absurd wins (lost isKnown)
            | succ attempt =>
              exact ⟨isKnown, attempt, Nat.lt_of_succ_lt_succ inTime,
                wins.2⟩
          · rintro ⟨isKnown, attempt, inTime, wins⟩
            exact ⟨isKnown, attempt + 1, Nat.succ_lt_succ inTime,
              by rw [scanned]; rfl, wins⟩
        rw [provided]
        refine ⟨?_, ?_, fun other differs =>
          (keptLate other).trans (later.others other differs)⟩
        · intro failure isError
          have spec := later.failed failure isError
          rw [late] at spec
          exact spec
        · intro port isPort
          have spec := later.returned port isPort
          rw [late] at spec
          exact spec

/-- The claims after an acquisition. -/
theorem acquire_spec (interludes : Interludes request.slot)
    (arrives : ∀ attempt, ∀ claim,
      claim ∈ (interludes attempt).early.map Subtype.val ∨
        claim ∈ (interludes attempt).late.map Subtype.val → arrived claim) :
    AcquireSpec request arrived claims
      (acquire authority request known interludes claims)
      (Provided authority request known interludes claims) := by
  rw [acquire, Provided]
  cases isShared : sharedPort request claims with
  | some port =>
    refine ⟨nofun, ?_, fun _ _ => .refl⟩
    intro other isPort
    cases isPort
    exact ⟨Or.inl rfl, Or.inr ⟨rfl, isShared⟩⟩
  | none =>
    have spec := @attempts_spec authority request known claims arrived
      authority.tries interludes request.preferred arrives
    refine ⟨?_, ?_, spec.others⟩
    · intro failure isError
      obtain ⟨same, notProvided⟩ := spec.failed failure isError
      exact ⟨same, fun provided => notProvided
        (provided.resolve_left (by simp))⟩
    · intro port isPort
      obtain ⟨provided, held⟩ := spec.returned port isPort
      exact ⟨Or.inr provided, held⟩

/-- The same inside a transaction. -/
theorem acquireWithin_spec (listening : List Port) :
    AcquireSpec request arrived claims
      (acquireWithin authority request known listening claims)
      (∃ port, (acquireWithin authority request known listening claims).1 =
        .ok port) := by
  rw [acquireWithin]
  cases isShared : sharedPort request claims with
  | some port =>
    refine ⟨nofun, ?_, fun _ _ => .refl⟩
    intro other isPort
    cases isPort
    exact ⟨⟨port, rfl⟩, Or.inr ⟨rfl, isShared⟩⟩
  | none =>
    dsimp only
    cases scanFor authority request request.preferred listening claims with
    | none => exact ⟨fun _ _ => ⟨rfl, nofun⟩, nofun, fun _ _ => .refl⟩
    | some port =>
      dsimp only
      cases inserted : insertFor known request port claims with
      | none => exact ⟨fun _ _ => ⟨rfl, nofun⟩, nofun, fun _ _ => .refl⟩
      | some after =>
        obtain ⟨own, others⟩ := heldBy_insertFor inserted
        refine ⟨nofun, ?_, fun other differs =>
          .of_eq (others other differs)⟩
        intro returned isPort
        cases isPort
        exact ⟨⟨port, rfl⟩, Or.inl ⟨request.row port, own, rfl⟩⟩

theorem moved_of_spec {result : Result} {provided : Prop}
    (holdsNone : claims.heldBy request.slot = [])
    (spec : AcquireSpec request arrived claims result provided) {port : Port}
    (isPort : result.1 = .ok port) : Moved request port result.2 := by
  rcases (spec.returned port isPort).2 with ⟨claim, held, same⟩ | shared
  · rw [holdsNone] at held
    exact Or.inl ⟨claim, held, same⟩
  · rw [holdsNone] at shared
    exact Or.inr shared

end

/-! ## Moves -/

/-- A move, or nothing at all. -/
theorem reallocateWithin_moves (authority : Authority) (request : Request)
    (known : Bool) (listening : List Port) (claims : Claims) :
    MoveLaw request (fun _ => False) claims
      (reallocateWithin authority request known listening claims) := by
  have spec := @acquireWithin_spec authority request known
    (claims.release request.slot) (fun _ => False) listening
  rw [reallocateWithin]
  split
  · next port isPort =>
      refine ⟨?_, ?_, ?_⟩
      · intro failure isError
        rw [isPort] at isError
        cases isError
      · intro other isOther
        exact moved_of_spec (heldBy_release claims request.slot) spec isOther
      · intro other _ slot differs
        exact Kept.trans (.of_eq (heldBy_release_of_ne claims differs))
          (spec.others slot differs)
  · next failure isError =>
      refine ⟨fun _ _ => rfl, ?_, ?_⟩
      · intro port isPort
        rw [isError] at isPort
        cases isPort
      · intro port isPort
        rw [isError] at isPort
        cases isPort

/--
In the transaction of its caller a move keeps its law.  On connections of its
own it does just where the slot has nothing to lose or is provided with a port.
-/
theorem reallocate_iff (authority : Authority) (request : Request)
    (known : Bool) (meanwhile : Rivals request.slot)
    (interludes : Interludes request.slot) (listening : List Port)
    (claims : Claims) :
    MoveLaw request (fun _ => False) claims
        (reallocateWithin authority request known listening claims) ∧
      (MoveLaw request (Arrived meanwhile interludes) claims
          (reallocate authority request known meanwhile interludes claims) ↔
        claims.heldBy request.slot = [] ∨
          Provided authority request known interludes
            ((claims.release request.slot).joined meanwhile)) := by
  refine ⟨reallocateWithin_moves authority request known listening claims, ?_⟩
  have holdsNone : ((claims.release request.slot).joined meanwhile).heldBy
      request.slot = [] :=
    (heldBy_joined _ _).trans (heldBy_release claims request.slot)
  have spec := @acquire_spec authority request known
    ((claims.release request.slot).joined meanwhile)
    (Arrived meanwhile interludes) interludes
    fun attempt _ isIn => Or.inr ⟨attempt, isIn⟩
  rw [reallocate]
  constructor
  · intro law
    cases isResult : (acquire authority request known interludes
        ((claims.release request.slot).joined meanwhile)).1 with
    | ok port => exact Or.inr (spec.returned port isResult).1
    | error failure =>
      left
      rw [← law.failed failure isResult, (spec.failed failure isResult).1]
      exact holdsNone
  · intro met
    refine ⟨?_, fun port isPort => moved_of_spec holdsNone spec isPort, ?_⟩
    · intro failure isError
      obtain ⟨same, notProvided⟩ := spec.failed failure isError
      rw [same, holdsNone]
      exact (met.resolve_right notProvided).symm
    · intro port _ other differs
      have released : Kept (Arrived meanwhile interludes) other claims
          (claims.release request.slot) :=
        .of_eq (heldBy_release_of_ne claims differs)
      exact (released.trans (kept_joined
        (fun claim isIn => Or.inl isIn) _ other)).trans
          (spec.others other differs)

/-- A pool of one port, on which the server of the slot is still listening. -/
theorem reallocate_loses_port :
    ∃ (authority : Authority) (request : Request) (claims : Claims)
      (interludes : Interludes request.slot),
      (reallocate authority request true [] interludes claims).1 =
          .error .exhausted ∧
        ¬ MoveLaw request (Arrived [] interludes) claims
          (reallocate authority request true [] interludes claims) := by
  refine ⟨⟨8081, 8081, []⟩, ⟨1, none, none, "slot:1", true⟩,
    [⟨8081, some 1, .slot, "slot:1", none, true⟩],
    fun _ => ⟨[], [8081], []⟩, by decide, ?_⟩
  intro law
  have same := law.failed .exhausted (by decide)
  revert same
  decide

end Hal0.Ports
