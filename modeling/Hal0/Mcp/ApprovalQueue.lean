import Hal0.Core.Tasks
import Hal0.Mcp.ApprovalTarget
import Mathlib.Data.Prod.Lex

/-!
# The approval queue of gated tool calls

A gated tool call waits in an inbox until the owner approves or denies it, or
until it is withdrawn.  The entries are objects: a call keeps working on its
entry after the inbox has dropped it, so the model has a heap of entries
beside the dict which lists them.

The critical sections under the queue's lock contain no await, so each of
them is one turn.  Every await outside them is a suspension: the wait for the
lock, the fan-out of an event to the subscribers, the executor and the denial
hook.  Executors and hooks which call the queue again are further tasks.
-/

namespace Hal0.Mcp

open Function
open Hal0.Transition Hal0.Tasks

/-- The states of an entry. -/
inductive ApprovalState where
  | pending | approved | denied | executed | failed
  deriving DecidableEq, Repr

/-- `MAX_RESOLVED_ENTRIES` -/
def maxResolvedEntries : Nat := 200

/-- `_RESOLVED_STATES` -/
def ApprovalState.isResolved : ApprovalState → Bool
  | .denied | .executed | .failed => true
  | .pending | .approved => false

/-- The number of the drawn `uuid4`; draws do not repeat. -/
abbrev ApprovalId := Nat

/-- An executor or a callback, by its number. -/
abbrev Callable := Nat

abbrev Time := Nat

/-- A row of the queue. -/
structure ApprovalEntry where
  id : ApprovalId
  tool : String
  args : Args
  clientId : String
  enqueuedAt : Time
  state : ApprovalState := .pending
  hitCount : Nat := 1
  targetArgs : List String := []
  decidedAt : Option Time := none
  result : Option Json := none
  error : Option String := none
  executor : Option Callable := none
  onDeny : Option Callable := none

namespace ApprovalEntry

/-- The row lets go of its callables. -/
def release (entry : ApprovalEntry) : ApprovalEntry :=
  { entry with executor := none, onDeny := none }

/-- The row was asked for again. -/
def hit (entry : ApprovalEntry) : ApprovalEntry :=
  { entry with hitCount := entry.hitCount + 1 }

/-- What two calls share a row by. -/
def dedupKey (python : Python) (entry : ApprovalEntry) : String × String :=
  (entry.tool, primaryTarget python entry.tool entry.args)

/-- The order in which settled rows are pruned. -/
def age (entry : ApprovalEntry) : Time ×ₗ Time :=
  toLex (entry.decidedAt.getD 0, entry.enqueuedAt)

end ApprovalEntry

/--
The queue.  `objects` are all entries ever created, `entries` the ids which
the dict lists, in insertion order, and `minted` the ids drawn so far.
-/
structure ApprovalQueue where
  objects : ApprovalId → Option ApprovalEntry
  entries : List ApprovalId
  dedup : String × String → Option ApprovalId
  minted : Nat

/-- The arguments of `enqueue`. -/
structure Request where
  tool : String
  args : Args
  clientId : String
  executor : Callable
  targetArgs : List String := []
  onDeny : Option Callable := none

/-- Why `approve` or `deny` raised. -/
inductive Refusal where
  | keyError (id : ApprovalId)
  | valueError (id : ApprovalId) (state : ApprovalState)
  deriving DecidableEq

namespace ApprovalQueue

/-- No rows. -/
def empty : ApprovalQueue := ⟨fun _ => none, [], fun _ => none, 0⟩

/-- `self._entries.get(approval_id)` -/
def get (queue : ApprovalQueue) (id : ApprovalId) : Option ApprovalEntry :=
  if id ∈ queue.entries then queue.objects id else none

/-- Change the entry object of `id`. -/
def write (queue : ApprovalQueue) (id : ApprovalId)
    (change : ApprovalEntry → ApprovalEntry) : ApprovalQueue :=
  { queue with
    objects :=
      update queue.objects id ((queue.objects id).map change) }

/-- `self._dedup.pop(key, None)` -/
def popDedup (queue : ApprovalQueue) (key : String × String) :
    ApprovalQueue :=
  { queue with dedup := update queue.dedup key none }

/-- A fresh pending entry for `request`. -/
def create (python : Python) (queue : ApprovalQueue) (request : Request)
    (now : Time) : ApprovalQueue × ApprovalId × Bool :=
  let id := queue.minted
  let entry : ApprovalEntry :=
    { id := id
      tool := request.tool
      args := request.args
      clientId := request.clientId
      enqueuedAt := now
      targetArgs :=
        Mcp.targetArgs request.tool request.args request.targetArgs
      executor := some request.executor
      onDeny := request.onDeny }
  let key := (request.tool, primaryTarget python request.tool request.args)
  ({ objects := update queue.objects id (some entry)
     entries := queue.entries ++ [id]
     dedup := update queue.dedup key (some id)
     minted := id + 1 }, id, true)

/--
The critical section of `enqueue`: the returned id, and whether its entry is
a fresh one.
-/
def enqueue (python : Python) (queue : ApprovalQueue) (request : Request)
    (now : Time) : ApprovalQueue × ApprovalId × Bool :=
  let key := (request.tool, primaryTarget python request.tool request.args)
  match queue.dedup key with
  | none => queue.create python request now
  | some existing =>
    match queue.get existing with
    | none => (queue.popDedup key).create python request now
    | some entry =>
      if entry.state = .pending then
        (queue.write existing ApprovalEntry.hit, existing, false)
      else (queue.popDedup key).create python request now

/-- The pending entry of `id`, or the reason why there is none to decide. -/
def undecided (queue : ApprovalQueue) (id : ApprovalId) :
    Except Refusal ApprovalEntry :=
  match queue.get id with
  | none => .error (.keyError id)
  | some entry =>
    if entry.state = .pending then .ok entry
    else .error (.valueError id entry.state)

/-- The critical section of `approve`, with the executor it takes. -/
def approve (python : Python) (queue : ApprovalQueue) (id : ApprovalId)
    (now : Time) : Except Refusal (ApprovalQueue × Option Callable) :=
  (queue.undecided id).map fun entry =>
    ((queue.write id fun entry =>
        { entry with state := .approved, decidedAt := some now }).popDedup
          (entry.dedupKey python), entry.executor)

/-- The critical section of `deny`, with the hook it takes. -/
def deny (python : Python) (queue : ApprovalQueue) (id : ApprovalId)
    (now : Time) : Except Refusal (ApprovalQueue × Option Callable) :=
  (queue.undecided id).map fun entry =>
    ((queue.write id fun entry =>
        ApprovalEntry.release
          { entry with state := .denied, decidedAt := some now }).popDedup
            (entry.dedupKey python), entry.onDeny)

/-- The critical section of `withdraw`. -/
def withdraw (python : Python) (queue : ApprovalQueue) (id : ApprovalId)
    (reason : String) (now : Time) : Option ApprovalQueue :=
  (queue.undecided id).toOption.map fun entry =>
    (queue.write id fun entry =>
      ApprovalEntry.release
        { entry with
          state := .failed
          error := some reason
          decidedAt := some now }).popDedup (entry.dedupKey python)

/-- Whether the entry of `id` is resolved. -/
def resolved (queue : ApprovalQueue) (id : ApprovalId) : Bool :=
  (queue.objects id).any fun entry => entry.state.isResolved

/-- The sort key of the entry of `id`. -/
def age (queue : ApprovalQueue) (id : ApprovalId) : Time ×ₗ Time :=
  ((queue.objects id).map ApprovalEntry.age).getD (toLex (0, 0))

/-- The resolved ids, the oldest decision first. -/
def oldestFirst (queue : ApprovalQueue) : List ApprovalId :=
  (queue.entries.filter queue.resolved).insertionSort fun left right =>
    queue.age left ≤ queue.age right

/-- The resolved ids beyond the newest `maxResolvedEntries`. -/
def excess (queue : ApprovalQueue) : List ApprovalId :=
  queue.oldestFirst.take (queue.oldestFirst.length - maxResolvedEntries)

/-- `_prune_resolved` -/
def pruneResolved (queue : ApprovalQueue) : ApprovalQueue :=
  { queue with
    entries := queue.entries.filter fun id => id ∉ queue.excess }

end ApprovalQueue

/-! ## The calls as tasks -/

/-- What can be decided of a row. -/
inductive Decision where
  | approve | deny | withdraw
  deriving DecidableEq, Repr

/-- What the calls did, in order. -/
inductive Event where
  | queued (task : TaskId) (id : ApprovalId) (request : Request)
  | decided (task : TaskId) (id : ApprovalId) (decision : Decision)
  | raised (task : TaskId) (refusal : Refusal)
  | returnedNone (task : TaskId) (id : ApprovalId)
  | executed (task : TaskId) (id : ApprovalId) (executor : Callable)
      (args : Args)
  | denialHeard (task : TaskId) (id : ApprovalId) (hook : Callable)
      (args : Args)

/-- The queue, and what has happened to it. -/
structure Inbox where
  queue : ApprovalQueue
  log : List Event

def Inbox.empty : Inbox := ⟨.empty, []⟩

/-- Where a call is suspended. -/
inductive Pc where
  | enqueueEntering (request : Request)
  | enqueueEmitting (id : ApprovalId)
  | approveEntering (id : ApprovalId)
  | approveEmitting (id : ApprovalId) (executor : Option Callable)
  | executing (id : ApprovalId)
  | denyEntering (id : ApprovalId)
  | denyEmitting (id : ApprovalId) (hook : Option Callable)
  | denying (id : ApprovalId)
  | withdrawEntering (id : ApprovalId) (reason : String)
  | resolvedEmitting (id : ApprovalId)

/-- A call begins by waiting for the lock. -/
def Pc.isEntry : Pc → Bool
  | .enqueueEntering _ | .approveEntering _ | .denyEntering _
  | .withdrawEntering _ _ => true
  | _ => false

/-- What a waiting task is answered. -/
inductive Reply where
  | turn (now : Time)
  | returned (value : Json)
  | raised (error : String)

/-- A call runs from one await to the next. -/
def resume (python : Python) (inbox : Inbox) (task : TaskId) :
    Pc → Reply → Option (Inbox × Option Pc)
  | .enqueueEntering request, .turn now =>
    let (queue, id, fresh) := inbox.queue.enqueue python request now
    some (⟨queue, inbox.log ++ [.queued task id request]⟩,
      if fresh then some (.enqueueEmitting id) else none)
  | .enqueueEmitting _, .turn _ => some (inbox, none)
  | .approveEntering id, .turn now =>
    match inbox.queue.approve python id now with
    | .error refusal =>
      some ({ inbox with log := inbox.log ++ [.raised task refusal] },
        none)
    | .ok (queue, executor) =>
      some (⟨queue, inbox.log ++ [.decided task id .approve]⟩,
        some (.approveEmitting id executor))
  | .approveEmitting id none, .turn _ =>
    some ({ inbox with
        queue := (inbox.queue.write id ApprovalEntry.release).write id
          fun entry =>
            { entry with
              state := .failed
              error := some "no executor bound to approval" } },
      some (.resolvedEmitting id))
  | .approveEmitting id (some executor), .turn _ =>
    (inbox.queue.objects id).map fun entry =>
      (⟨inbox.queue.write id ApprovalEntry.release,
          inbox.log ++ [.executed task id executor entry.args]⟩,
        some (.executing id))
  | .executing id, .returned value =>
    some ({ inbox with
        queue := inbox.queue.write id fun entry =>
          { entry with state := .executed, result := some value } },
      some (.resolvedEmitting id))
  | .executing id, .raised error =>
    some ({ inbox with
        queue := inbox.queue.write id fun entry =>
          { entry with state := .failed, error := some error } },
      some (.resolvedEmitting id))
  | .denyEntering id, .turn now =>
    match inbox.queue.deny python id now with
    | .error refusal =>
      some ({ inbox with log := inbox.log ++ [.raised task refusal] },
        none)
    | .ok (queue, hook) =>
      some (⟨queue, inbox.log ++ [.decided task id .deny]⟩,
        some (.denyEmitting id hook))
  | .denyEmitting _ none, .turn _ =>
    some ({ inbox with queue := inbox.queue.pruneResolved }, none)
  | .denyEmitting id (some hook), .turn _ =>
    (inbox.queue.objects id).map fun entry =>
      ({ inbox with
          log := inbox.log ++ [.denialHeard task id hook entry.args] },
        some (.denying id))
  | .denying id, .returned value =>
    some ({ inbox with
        queue := (inbox.queue.write id fun entry =>
          { entry with result := some value }).pruneResolved }, none)
  | .denying id, .raised error =>
    some ({ inbox with
        queue := (inbox.queue.write id fun entry =>
          { entry with error := some error }).pruneResolved }, none)
  | .withdrawEntering id reason, .turn now =>
    match inbox.queue.withdraw python id reason now with
    | none =>
      some ({ inbox with log := inbox.log ++ [.returnedNone task id] },
        none)
    | some queue =>
      some (⟨queue, inbox.log ++ [.decided task id .withdraw]⟩,
        some (.resolvedEmitting id))
  | .resolvedEmitting _, .turn _ =>
    some ({ inbox with queue := inbox.queue.pruneResolved }, none)
  | _, _ => none

/--
The calls.  A call may be cancelled at any await; it then changes nothing
more.
-/
def calls (python : Python) : Program Inbox Pc Reply Empty where
  start := fun inbox _ pc => if pc.isEntry then some inbox else none
  resume := resume python
  cancel := fun inbox _ _ => some inbox
  occur := fun _ event => event.elim

abbrev InboxWorld := World Inbox Pc

abbrev InboxAction := Action Pc Reply Empty

end Hal0.Mcp
