import Hal0.Mcp.ApprovalQueue
import Mathlib.Algebra.Ring.Int.Defs

/-!
# Skill changes behind the approval inbox

A client's push or delete of a drop-in skill is a row of the approval queue,
and its executor changes the directory when the operator approves the row.
A gate is held from the reading of the pending rows to the enqueue, across
the awaits of every withdrawal.  The operator and the other tools use the
same queue without the gate.

An executor works in a thread.  The thread goes on when the approval which
waits for it is cancelled.
-/

namespace Hal0.SkillChanges

open Function
open Hal0.Tasks Hal0.Mcp

/-! ## Pushes and their cards -/

/-- The texts of a directory by their file names. -/
abbrev Folder := List (String × String)

/-- Taken from `hashlib`: the short hash of a push, and that of a file. -/
structure Hashes where
  push : List Char → String
  file : String → String

def nul : Char := Char.ofNat 0

/--
A push which `_check_reviewable` and `validate` let through, with the items
of its files sorted.
-/
structure Push where
  name : String
  skillMd : String
  files : Folder
  sorted : files.Pairwise fun left right => left.1 < right.1
  apart : ∀ file ∈ files, file.1 ≠ "SKILL.md"
  readable : nul ∉ skillMd.toList ∧
    ∀ file ∈ files, nul ∉ file.1.toList ∧ nul ∉ file.2.toList

namespace Push

/-- The hashed parts, each of which is followed by two NULs. -/
def parts (push : Push) : List (List Char) :=
  push.skillMd.toList ::
    push.files.map fun file => file.1.toList ++ nul :: file.2.toList

/-- `_skill_digest` -/
def digest (hashes : Hashes) (push : Push) : String :=
  hashes.push (push.parts.flatMap fun part => part ++ [nul, nul])

/-- What `put` leaves in the directory of the skill. -/
def folder (push : Push) : Folder :=
  ("SKILL.md", push.skillMd) :: push.files

/-- The card of the push. -/
def card (hashes : Hashes) (push : Push) (client : String) : Args :=
  [("name", .str push.name),
    ("client", .str client),
    ("bytes", .int (push.folder.map fun file => file.2.utf8ByteSize).sum),
    ("sha256", .str (push.digest hashes)),
    ("preview", .str push.skillMd),
    ("preview_truncated", .bool false),
    ("files", .obj (push.files.map fun file =>
      (file.1, .obj
        [("size", .int file.2.utf8ByteSize),
          ("sha256", .str (hashes.file file.2)),
          ("content", .str file.2)])))]

end Push

/-! ## Changes and the calls which ask for them -/

/-- A change of a skill that needs an approval. -/
inductive Change where
  | put (push : Push)
  | delete (name : String)

/-- `_SKILL_TOOLS` -/
def skillTools : List String := ["agent_skill_put", "agent_skill_delete"]

/-- `MAX_PENDING_SKILL_CHANGES` -/
def maxPendingSkillChanges : Nat := 8

/-- `_SUPERSEDED` -/
def superseded : String := "superseded by a newer push of this skill"

/-- `client_id` -/
def clientId (client : String) : String := "bridge:" ++ client

namespace Change

variable (hashes : Hashes)

/-- The tool that the change is queued under. -/
def tool : Change → String
  | .put _ => "agent_skill_put"
  | .delete _ => "agent_skill_delete"

/-- The skill that the change is about. -/
def name : Change → String
  | .put push => push.name
  | .delete name => name

/-- The arguments that the operator is shown. -/
def args (client : String) : Change → Args
  | .put push => push.card hashes client
  | .delete name => [("name", .str name), ("client", .str client)]

/-- What the executor does to the drop-in directories. -/
def write (dropin : String → Option Folder) :
    Change → String → Option Folder
  | .put push => update dropin push.name (some push.folder)
  | .delete name => update dropin name none

end Change

/-- The JSON value is this text. -/
def reads (text : String) : Json → Bool
  | .str other => other == text
  | _ => false

/-- The rows of `list_pending`. -/
def pendingRows (queue : ApprovalQueue) : List (ApprovalId × ApprovalEntry) :=
  (queue.entries.filterMap fun id => (queue.objects id).map (id, ·)).filter
    fun row => row.2.state = .pending

/-- A call of a client; what its executor does is fixed by `body`. -/
structure Call (body : Callable → Option Change) where
  client : String
  change : Change
  executor : Callable
  bound : body executor = some change

namespace Call

variable {body : Callable → Option Change} (hashes : Hashes)
  (call : Call body)

/-- The row is a put of the same skill with another content. -/
def isStale (entry : ApprovalEntry) : Bool :=
  match call.change with
  | .put push =>
    entry.tool = "agent_skill_put" && reads push.name (entry.args.get "name") &&
      !reads (push.digest hashes) (entry.args.get "sha256")
  | .delete _ => false

/-- `_check_pending_cap` counts the row. -/
def counts (entry : ApprovalEntry) : Bool :=
  entry.tool ∈ skillTools && entry.clientId = clientId call.client &&
    !(entry.tool = call.change.tool &&
      reads call.change.name (entry.args.get "name"))

/-- The pending rows that the call replaces. -/
def stale (queue : ApprovalQueue) : List (ApprovalId × ApprovalEntry) :=
  (pendingRows queue).filter fun row => call.isStale hashes row.2

/-- The code of the error with which the call ends at the gate. -/
def refusal (queue : ApprovalQueue) : Option String :=
  if (call.stale hashes queue).any
      fun row => row.2.clientId ≠ clientId call.client then
    some "bridge.skill_pending_elsewhere"
  else if maxPendingSkillChanges ≤
      ((pendingRows queue).filter fun row => call.counts row.2).length then
    some "bridge.too_many_pending"
  else none

/-- The request that the call enqueues. -/
def request : Request where
  tool := call.change.tool
  args := call.change.args hashes call.client
  clientId := clientId call.client
  executor := call.executor
  targetArgs := ["name"]

end Call

/-! ## The tasks -/

/--
The queue, the holder of `_skill_gate`, the drop-in directories, and the
threads whose approval was cancelled.
-/
structure Changes where
  inbox : Inbox
  gate : Option TaskId
  dropin : String → Option Folder
  threads : List (ApprovalId × Callable)

/-- Where a task is suspended. -/
inductive Pc (body : Callable → Option Change) where
  | gating (call : Call body)
  | replacing (call : Call body) (later : List ApprovalId) (inner : Mcp.Pc)
  | queueing (call : Call body) (inner : Mcp.Pc)
  | writing (id : ApprovalId) (executor : Callable)
  | other (inner : Mcp.Pc)

section

variable {body : Callable → Option Change} (python : Python) (hashes : Hashes)

/-- Withdraw the next stale row, or enqueue. -/
def Call.proceed (call : Call body) : List ApprovalId → Pc body
  | id :: later => .replacing call later (.withdrawEntering id superseded)
  | [] => .queueing call (.enqueueEntering (call.request hashes))

/-- Where a task outside the gate goes on; an executor starts its thread. -/
def Pc.after : Mcp.Pc → Mcp.Pc → Pc body
  | .approveEmitting id (some executor), _ => .writing id executor
  | _, inner => .other inner

/-- A task goes on from where it waits. -/
def resume (state : Changes) (task : TaskId) :
    Pc body → Reply → Option (Changes × Option (Pc body))
  | .gating call, .turn _ =>
    match state.gate, call.refusal hashes state.inbox.queue with
    | some _, _ => none
    | none, some _ => some (state, none)
    | none, none =>
      some ({ state with gate := some task },
        some (call.proceed hashes
          ((call.stale hashes state.inbox.queue).map Prod.fst)))
  | .replacing call later inner, reply =>
    (Mcp.resume python state.inbox task inner reply).map fun turn =>
      ({ state with inbox := turn.1 },
        some (turn.2.elim (call.proceed hashes later)
          (.replacing call later)))
  | .queueing call inner, reply =>
    (Mcp.resume python state.inbox task inner reply).map fun turn =>
      ({ state with
          inbox := turn.1
          gate := if turn.2.isSome then state.gate else none },
        turn.2.map (.queueing call))
  | .writing id executor, .turn _ =>
    some ({ state with
        dropin := (body executor).elim state.dropin
          (Change.write state.dropin) },
      some (.other (.executing id)))
  | .writing id _, .raised error =>
    (Mcp.resume python state.inbox task (.executing id)
      (.raised error)).map fun turn =>
        ({ state with inbox := turn.1 }, turn.2.map .other)
  | .other inner, reply =>
    (Mcp.resume python state.inbox task inner reply).map fun turn =>
      ({ state with inbox := turn.1 }, turn.2.map (Pc.after inner))
  | _, _ => none

/-- Calls of other tools begin outside the gate. -/
def Pc.begins : Pc body → Bool
  | .gating _ => true
  | .other (.enqueueEntering request) => request.tool ∉ skillTools
  | .other inner => inner.isEntry
  | _ => false

/-- A cancelled task lets go of the gate; a thread goes on. -/
def cancel (state : Changes) : Pc body → Changes
  | .replacing _ _ _ | .queueing _ _ => { state with gate := none }
  | .writing id executor =>
    { state with threads := (id, executor) :: state.threads }
  | _ => state

/-- The calls of every client, the operator's and the threads left alone. -/
def program : Program Changes (Pc body) Reply (ApprovalId × Callable) where
  start := fun state _ pc => if pc.begins then some state else none
  resume := resume python hashes
  cancel := fun state _ pc => some (cancel state pc)
  occur := fun state thread =>
    if thread ∈ state.threads then
      some { state with
        dropin := (body thread.2).elim state.dropin
          (Change.write state.dropin)
        threads := state.threads.erase thread }
    else none

end

end Hal0.SkillChanges
