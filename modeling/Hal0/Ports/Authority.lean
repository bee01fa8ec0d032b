import Hal0.Core.Tasks

/-!
# The port authority

`PortAuthority` keeps one row for each claim on a port and hands out free
ports of its pool.  A row is live until it is released, and an index refuses
a second live row of one port.  Every statement on the table is a transaction
of its own, so the calls of several callers interleave between them: a grant
reads the live ports, reads the sockets, and then inserts, and starts over
when another caller was faster.

`listening` is what a scan of the sockets would show now.  `log` is not in
the source: it records what the calls found and granted, with what they read.
-/

namespace Hal0.Ports

open Hal0.Transition
open Hal0.Tasks

abbrev Port := Nat

abbrev SlotId := Nat

/-! ## The table -/

/-- Who a claim is for. -/
inductive OwnerKind where
  | slot
  | reserved
deriving DecidableEq

/-- A row of `port_claim`; the rows are in the order of their ids. -/
structure Claim where
  port : Port
  slot : Option SlotId
  kind : OwnerKind
  label : String
  group : Option String
  live : Bool
deriving DecidableEq

/-- The claim is given back. -/
def Claim.freed (claim : Claim) : Claim := { claim with live := false }

/-- `PortAuthority.__init__` -/
structure Authority where
  start : Nat
  stop : Nat
  reserved : List (Port × String)

abbrev Claims := List Claim

namespace Claims

/-- The rows on which `released_at` is not set. -/
def live (claims : Claims) : Claims := List.filter Claim.live claims

/-- `_live_ports` -/
def livePorts (claims : Claims) : List Port := claims.live.map Claim.port

/-- An insert, which `uq_port_claim_live` may refuse. -/
def insert (claims : Claims) (claim : Claim) : Option Claims :=
  if claim.port ∈ claims.livePorts then none else some (claims ++ [claim])

/-- Set `released_at` on the live rows which match. -/
def freeWhere (claims : Claims) (picks : Claim → Bool) : Claims :=
  claims.map fun claim =>
    if claim.live && picks claim then claim.freed else claim

/-- `release` -/
def release (claims : Claims) (slot : SlotId) : Claims :=
  claims.freeWhere fun claim => claim.slot = some slot

/-- `release_port` -/
def releasePort (claims : Claims) (port : Port) : Claims :=
  claims.freeWhere fun claim => claim.port = port

/-- `reconcile` -/
def reconcile (claims : Claims) : Claims :=
  claims.freeWhere fun claim => claim.kind = .slot && claim.slot.isNone

/-- `reserve`; `none` is the error it raises. -/
def reserve (claims : Claims) (port : Port) (label : String) :
    Option Claims :=
  match claims.live.find? fun claim => claim.port = port with
  | some existing => if existing.label = label then some claims else none
  | none => claims.insert ⟨port, none, .reserved, label, none, true⟩

/-- `ON DELETE SET NULL`, when the row of a slot is deleted. -/
def orphan (claims : Claims) (slot : SlotId) : Claims :=
  claims.map fun claim =>
    if claim.slot = some slot then { claim with slot := none } else claim

/-- The port of a group which holds one. -/
def groupPort (claims : Claims) (group : String) : Option Port :=
  (claims.live.find? fun claim => claim.group = some group).map Claim.port

/-- The live claims of a slot. -/
def heldBy (claims : Claims) (slot : SlotId) : Claims :=
  claims.live.filter fun claim => claim.slot = some slot

end Claims

namespace Authority

/-- `range(start, end + 1)` -/
def pool (authority : Authority) : List Nat :=
  (List.range (authority.stop + 1 - authority.start)).map
    (authority.start + ·)

/-- `next_free`, with the ports which it found in use. -/
def nextFree (authority : Authority) (preferred : Option Port)
    (used : List Port) : Option Port :=
  match preferred.filter fun port =>
      authority.start ≤ port && port ≤ authority.stop &&
        !used.contains port with
  | some port => some port
  | none => authority.pool.find? fun port => !used.contains port

end Authority

/-! ## Calls -/

/-- The arguments of `acquire` and `reallocate`. -/
structure Request where
  slot : SlotId
  preferred : Option Port
  group : Option String
  label : String
  includeListeners : Bool
deriving DecidableEq

/-- What `next_free` read before it answered. -/
structure Scan where
  includeListeners : Bool
  live : List Port
  listening : List Port
deriving DecidableEq

/-- The ports that are not free. -/
def Scan.used (scan : Scan) : List Port :=
  if scan.includeListeners then scan.live ++ scan.listening else scan.live

/-- What was found, and what was granted. -/
inductive Answer where
  /-- `next_free` answered with a port. -/
  | found (scan : Scan) (port : Port)
  /-- A claim was inserted while these ports were live. -/
  | granted (request : Request) (scan : Scan) (live : List Port)
      (port : Port)
deriving DecidableEq

/-- The claims, the sockets and what was answered. -/
structure Shared where
  claims : Claims
  listening : List Port
  log : List Answer

/-- Who asks `next_free`. -/
inductive Asker where
  | next (preferred : Option Port) (includeListeners : Bool)
  | grant (request : Request) (preferred : Option Port) (attempts : Nat)
deriving DecidableEq

namespace Asker

/-- The port that is asked for. -/
def preferred : Asker → Option Port
  | next preferred _ => preferred
  | grant _ preferred _ => preferred

/-- Bound sockets are kept off too. -/
def includeListeners : Asker → Bool
  | next _ includeListeners => includeListeners
  | grant request _ _ => request.includeListeners

end Asker

/-- Where a call is suspended. -/
inductive Pc where
  /-- `reallocate`, before it releases. -/
  | releasing (request : Request)
  /-- `acquire`, before it looks for the port of its group. -/
  | sharing (request : Request)
  /-- Before the live ports are read. -/
  | scanning (asker : Asker)
  /-- Before the sockets are read. -/
  | listing (asker : Asker) (live : List Port)
  /-- Before the insert. -/
  | inserting (request : Request) (attempts : Nat) (scan : Scan)
      (port : Port)
deriving DecidableEq

/-- How a statement ends. -/
inductive Reply where
  | done
  /-- The insert is refused because the row of the slot is not there. -/
  | missing
deriving DecidableEq

/-- The calls which are one transaction, and the world outside. -/
inductive Event where
  | release (slot : SlotId)
  | releasePort (port : Port)
  | reserve (port : Port) (label : String)
  | reconcile
  | orphan (slot : SlotId)
  | sockets (listening : List Port)

/-- The state, and where the task waits. -/
abbrev Turn := Shared × Option Pc

/-- One more attempt of the loop of `acquire`, or its end. -/
def retry (request : Request) (preferred : Option Port) :
    Nat → Option Pc
  | 0 => none
  | attempts + 1 => some (.scanning (.grant request preferred attempts))

/-- The loop of `acquire` from its start. -/
def scanLoop (authority : Authority) (request : Request) : Option Pc :=
  retry request request.preferred
    (authority.stop + 1 - authority.start + 1)

/-- `next_free` has read what it needs. -/
def pick (authority : Authority) (shared : Shared) (asker : Asker)
    (scan : Scan) : Turn :=
  match authority.nextFree asker.preferred scan.used with
  | none => (shared, none)
  | some port =>
    ({ shared with log := shared.log ++ [.found scan port] },
      match asker with
      | .next _ _ => none
      | .grant request _ attempts =>
        some (.inserting request attempts scan port))

/-- One turn of a call. -/
def resume (authority : Authority) (shared : Shared) :
    Pc → Reply → Turn
  | .releasing request, _ =>
    ({ shared with claims := shared.claims.release request.slot },
      some (.sharing request))
  | .sharing request, _ =>
    match request.group.bind shared.claims.groupPort with
    | some _ => (shared, none)
    | none => (shared, scanLoop authority request)
  | .scanning asker, _ =>
    if asker.includeListeners then
      (shared, some (.listing asker shared.claims.livePorts))
    else
      pick authority shared asker ⟨false, shared.claims.livePorts, []⟩
  | .listing asker live, _ =>
    pick authority shared asker ⟨true, live, shared.listening⟩
  | .inserting request attempts _ _, .missing =>
    (shared, retry request none attempts)
  | .inserting request attempts scan port, .done =>
    match shared.claims.insert ⟨port, some request.slot, .slot,
        request.label, request.group, true⟩ with
    | none => (shared, retry request none attempts)
    | some claims =>
      ({ shared with
          claims := claims
          log := shared.log ++
            [.granted request scan shared.claims.livePorts port] },
        none)

/-- Where the calls begin. -/
def start (shared : Shared) : Pc → Option Shared
  | .releasing _ | .sharing _ | .scanning (.next _ _) => some shared
  | _ => none

/-- What is done beside the tasks. -/
def occur (shared : Shared) : Event → Option Shared
  | .release slot =>
    some { shared with claims := shared.claims.release slot }
  | .releasePort port =>
    some { shared with claims := shared.claims.releasePort port }
  | .reserve port label =>
    (shared.claims.reserve port label).map fun claims =>
      { shared with claims := claims }
  | .reconcile => some { shared with claims := shared.claims.reconcile }
  | .orphan slot =>
    some { shared with claims := shared.claims.orphan slot }
  | .sockets listening => some { shared with listening := listening }

/-- Any number of callers; a call may be given up between two statements. -/
def calls (authority : Authority) : Program Shared Pc Reply Event where
  start shared _ pc := start shared pc
  resume shared _ pc reply := some (resume authority shared pc reply)
  cancel shared _ _ := some shared
  occur := occur

abbrev PortWorld := World Shared Pc

abbrev PortAction := Action Pc Reply Event

end Hal0.Ports
