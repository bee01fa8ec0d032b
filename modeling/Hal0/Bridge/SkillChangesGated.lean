import Hal0.Bridge.SkillChanges
import Hal0.Mcp.ApprovalDecisions

/-!
# One content of a skill is up for approval

Whatever is done to the queue without the gate only takes pending skill rows
away.  So what the holder of the gate has read of them stays true until it
enqueues: no row with another content is left, and the cap is not reached.
The dedup key then makes the new row the only one of its client.
-/

namespace Hal0.SkillChanges

open Function List
open Hal0.Transition Hal0.Tasks Hal0.Mcp

/-! ## The digest of a push tells its content -/

theorem front_of_append {front rest : List Char} (free : nul ∉ front) :
    (front ++ nul :: rest).takeWhile (· != nul) = front := by
  rw [takeWhile_append_of_pos]
  · simp
  · intro char isIn
    simpa using ne_of_mem_of_not_mem isIn free

theorem front_inj {left right leftRest rightRest : List Char}
    (leftFree : nul ∉ left) (rightFree : nul ∉ right)
    (same : left ++ nul :: leftRest = right ++ nul :: rightRest) :
    left = right ∧ leftRest = rightRest := by
  have fronts := congrArg (takeWhile (· != nul)) same
  rw [front_of_append leftFree, front_of_append rightFree] at fronts
  subst fronts
  exact ⟨rfl, (cons.inj (append_cancel_left same)).2⟩

/-- The hashed text of the files tells their names and texts. -/
theorem files_inj {left right : Folder}
    (leftFree : ∀ file ∈ left, nul ∉ file.1.toList ∧ nul ∉ file.2.toList)
    (rightFree : ∀ file ∈ right, nul ∉ file.1.toList ∧ nul ∉ file.2.toList)
    (same : (left.flatMap fun file =>
        file.1.toList ++ nul :: (file.2.toList ++ nul :: [nul])) =
      right.flatMap fun file =>
        file.1.toList ++ nul :: (file.2.toList ++ nul :: [nul])) :
    left = right := by
  induction left generalizing right with
  | nil => cases right with
    | nil => rfl
    | cons file right => simp at same
  | cons file left ih => cases right with
    | nil => simp at same
    | cons other right =>
      simp only [flatMap_cons, append_assoc, cons_append] at same
      obtain ⟨names, same⟩ := front_inj (leftFree file mem_cons_self).1
        (rightFree other mem_cons_self).1 same
      obtain ⟨texts, same⟩ := front_inj (leftFree file mem_cons_self).2
        (rightFree other mem_cons_self).2 same
      rw [Prod.ext (String.toList_injective names)
        (String.toList_injective texts)]
      congr 1
      exact ih (fun file isIn => leftFree file (mem_cons_of_mem _ isIn))
        (fun file isIn => rightFree file (mem_cons_of_mem _ isIn))
        (cons.inj same).2

theorem push_eq {hashes : Hashes} (injective : Injective hashes.push)
    {left right : Push} (names : left.name = right.name)
    (same : left.digest hashes = right.digest hashes) : left = right := by
  have texts := injective same
  simp only [Push.parts, flatMap_cons, append_assoc, cons_append, nil_append,
    flatMap_map] at texts
  obtain ⟨front, texts⟩ :=
    front_inj left.readable.1 right.readable.1 texts
  have files := files_inj left.readable.2 right.readable.2 (cons.inj texts).2
  have front := String.toList_injective front
  cases left
  cases right
  simp_all

/-! ## What a turn leaves of the entries -/

/-- The later object shows the same call, and no decision is undone. -/
structure Kept (entry later : ApprovalEntry) : Prop where
  tool : later.tool = entry.tool
  args : later.args = entry.args
  clientId : later.clientId = entry.clientId
  executor : ∀ executor, later.executor = some executor →
    entry.executor = some executor
  pending : later.state = .pending → entry.state = .pending

theorem Kept.refl (entry : ApprovalEntry) : Kept entry entry :=
  ⟨rfl, rfl, rfl, fun _ same => same, fun same => same⟩

/-- Every entry is kept, and a fresh one is no row of a skill. -/
structure Follows (before after : ApprovalId → Option ApprovalEntry) :
    Prop where
  kept : ∀ id entry, before id = some entry →
    ∃ later, after id = some later ∧ Kept entry later
  fresh : ∀ id later, before id = none → after id = some later →
    later.tool ∉ skillTools

/-- A pending entry. -/
def Row (objects : ApprovalId → Option ApprovalEntry) (id : ApprovalId)
    (entry : ApprovalEntry) : Prop :=
  objects id = some entry ∧ entry.state = .pending

namespace Follows

variable {before after : ApprovalId → Option ApprovalEntry}

theorem refl (objects : ApprovalId → Option ApprovalEntry) :
    Follows objects objects where
  kept := fun _ entry found => ⟨entry, found, .refl entry⟩
  fresh := by
    intro id later missing found
    rw [missing] at found
    cases found

theorem write {queue : ApprovalQueue} (id : ApprovalId)
    {change : ApprovalEntry → ApprovalEntry}
    (kept : ∀ entry, Kept entry (change entry)) :
    Follows queue.objects (queue.write id change).objects where
  kept := by
    intro other entry found
    rw [ApprovalQueue.write_objects, found]
    split_ifs
    · exact ⟨_, rfl, kept entry⟩
    · exact ⟨entry, rfl, .refl entry⟩
  fresh := by
    intro other later missing found
    rw [ApprovalQueue.write_objects, missing] at found
    split_ifs at found
    cases found

/-- A pending row of a skill was one before. -/
theorem row (follows : Follows before after) {id : ApprovalId}
    {later : ApprovalEntry} (waits : Row after id later)
    (skill : later.tool ∈ skillTools) :
    ∃ entry, Row before id entry ∧ Kept entry later := by
  obtain ⟨found, pending⟩ := waits
  cases present : before id with
  | none => exact absurd skill (follows.fresh id later present found)
  | some entry =>
    obtain ⟨same, known, kept⟩ := follows.kept id entry present
    obtain rfl := Option.some.inj (known.symm.trans found)
    exact ⟨entry, ⟨present, kept.pending pending⟩, kept⟩

end Follows

section

variable {python : Python} {inbox after : Inbox} {task : TaskId}
  {inner : Mcp.Pc} {next : Option Mcp.Pc} {reply : Reply}

theorem create_objects {queue : ApprovalQueue} {id : ApprovalId}
    {entry : ApprovalEntry} (sound : queue.Sound python) (request : Request)
    (now : Time) (found : queue.objects id = some entry) :
    (queue.create python request now).1.objects id = some entry := by
  rw [← found]
  apply update_of_ne
  rintro rfl
  rw [sound.unminted] at found
  cases found

/-- Without the gate no skill row is added. -/
theorem follows_of_resume (sound : inbox.queue.Sound python)
    (foreign : ∀ request, inner = .enqueueEntering request →
      request.tool ∉ skillTools)
    (resumed : Mcp.resume python inbox task inner reply =
      some (after, next)) :
    Follows inbox.queue.objects after.queue.objects := by
  cases inner with
  | enqueueEntering request =>
    cases reply with
    | turn now =>
      obtain ⟨rfl, -⟩ := Prod.mk.inj (Option.some.inj resumed)
      change Follows _ (inbox.queue.enqueue python request now).1.objects
      rcases enqueue_eq sound request now with
        ⟨id, entry, found, pending, keyed, joins⟩ | ⟨free, creates⟩
      · rw [joins]
        exact .write id fun _ => by constructor <;> simp [ApprovalEntry.hit]
      · rw [creates]
        refine ⟨fun id entry found =>
          ⟨entry, create_objects sound _ _ found, .refl _⟩, ?_⟩
        intro id later missing present
        simp only [ApprovalQueue.create, update_apply, missing] at present
        split_ifs at present with fresh
        cases present
        exact foreign request rfl
    | _ => cases resumed
  | approveEntering id | denyEntering id | withdrawEntering id _ =>
    cases reply with
    | turn now =>
      simp only [Mcp.resume, ApprovalQueue.approve, ApprovalQueue.deny,
        ApprovalQueue.withdraw] at resumed
      cases asked : inbox.queue.undecided id <;>
        simp only [asked, Except.map, Except.toOption, Option.map_none,
          Option.map_some] at resumed <;> cases resumed
      · exact .refl _
      · exact .write id fun _ => by
          constructor <;> simp [ApprovalEntry.release]
    | _ => cases resumed
  | approveEmitting id executor =>
    cases executor with
    | none =>
      cases reply <;> cases resumed
      rw [ApprovalQueue.write_write]
      exact .write id fun _ => by constructor <;> simp [ApprovalEntry.release]
    | some executor =>
      cases reply <;> try cases resumed
      obtain ⟨entry, found, same⟩ := Option.map_eq_some_iff.1 resumed
      cases same
      exact .write id fun _ => by constructor <;> simp [ApprovalEntry.release]
  | denyEmitting id hook =>
    cases hook with
    | none =>
      cases reply <;> cases resumed
      exact .refl _
    | some hook =>
      cases reply <;> try cases resumed
      obtain ⟨entry, found, same⟩ := Option.map_eq_some_iff.1 resumed
      cases same
      exact .refl _
  | executing id | denying id =>
    cases reply <;> cases resumed <;>
      exact .write id fun _ => by constructor <;> simp
  | enqueueEmitting id | resolvedEmitting id =>
    cases reply <;> cases resumed
    exact .refl _

/-- A withdrawn row waits no longer, and the others are left alone. -/
theorem withdrawn {id : ApprovalId} {reason : String}
    (sound : inbox.queue.Sound python)
    (resumed : Mcp.resume python inbox task (.withdrawEntering id reason)
      reply = some (after, next)) :
    (∀ entry, ¬ Row after.queue.objects id entry) ∧
      (∀ other, other ≠ id →
        after.queue.objects other = inbox.queue.objects other) ∧
      ∀ pc, next = some pc → pc = .resolvedEmitting id := by
  cases turn_of_resume sound resumed with
  | refused decision deciding nothing =>
    cases deciding
    refine ⟨?_, fun _ _ => rfl, nofun⟩
    rintro entry ⟨found, pending⟩
    simp [ApprovalQueue.undecided, sound.get_of_pending found pending,
      pending] at nothing
  | settled decision deciding found pending amends outcome =>
    cases deciding
    refine ⟨?_, fun other distinct => update_of_ne distinct _ _,
      fun pc same => (Option.some.inj same).symm⟩
    rintro entry ⟨present, waits⟩
    simp only [ApprovalQueue.popDedup, ApprovalQueue.write_objects,
      ApprovalQueue.objects_of_get found, Option.map_some] at present
    cases present
    rw [outcome] at waits
    cases waits
  | concluded concluding => cases concluding
  | pruned passive => cases passive

/-- Where a call of the queue goes on. -/
theorem next_of_turn {counter : Mcp.Pc}
    (turn : Turn python inbox task inner after (some counter)) :
    counter.isEntry = false ∧
      ∀ id executor, counter = .approveEmitting id (some executor) →
        ∃ entry, inbox.queue.objects id = some entry ∧
          entry.executor = some executor := by
  cases turn with
  | settled decision deciding found pending amends outcome =>
    cases decision with
    | approve =>
      refine ⟨rfl, ?_⟩
      intro id executor same
      obtain ⟨rfl, bound⟩ := Mcp.Pc.approveEmitting.inj same
      exact ⟨_, ApprovalQueue.objects_of_get found, bound⟩
    | deny => exact ⟨rfl, nofun⟩
    | withdraw => exact ⟨rfl, nofun⟩
  | _ => exact ⟨rfl, nofun⟩

end

/-! ## What the holder of the gate relies on -/

/-- No more than `bound` ids are so. -/
def AtMost (bound : Nat) (holds : ApprovalId → Prop) : Prop :=
  ∀ ids : List ApprovalId, ids.Nodup → (∀ id ∈ ids, holds id) →
    ids.length ≤ bound

theorem AtMost.succ {bound : Nat} {holds other : ApprovalId → Prop}
    (most : AtMost bound holds) (fresh : ApprovalId)
    (implies : ∀ id, id ≠ fresh → other id → holds id) :
    AtMost (bound + 1) other := by
  intro ids nodup all
  have rest := most (ids.erase fresh) (nodup.erase fresh) fun id isIn => by
    obtain ⟨distinct, isIn⟩ := nodup.mem_erase_iff.1 isIn
    exact implies id distinct (all id isIn)
  rw [length_erase] at rest
  split_ifs at rest <;> omega

variable {body : Callable → Option Change} {python : Python}
  {hashes : Hashes} {call : Call body}
  {objects : ApprovalId → Option ApprovalEntry}
  {before after : ApprovalId → Option ApprovalEntry} {id : ApprovalId}
  {entry later : ApprovalEntry} {change other : Change} {client : String}
  {ids : List ApprovalId}

/-- What the holder of the gate has read, with the rows it is to withdraw. -/
structure Clear (hashes : Hashes) (call : Call body)
    (objects : ApprovalId → Option ApprovalEntry) (ids : List ApprovalId) :
    Prop where
  stale : ∀ id entry, Row objects id entry →
    call.isStale hashes entry = true → id ∈ ids
  own : ∀ id ∈ ids, ∃ entry, objects id = some entry ∧
    entry.clientId = clientId call.client
  held : AtMost 7 fun id => ∃ entry, Row objects id entry ∧
    call.counts entry = true

theorem skill_of_isStale (stale : call.isStale hashes entry = true) :
    entry.tool ∈ skillTools := by
  unfold Call.isStale at stale
  split at stale <;> simp_all [skillTools]

theorem Kept.isStale (kept : Kept entry later) :
    call.isStale hashes later = call.isStale hashes entry := by
  rw [Call.isStale, kept.tool, kept.args, Call.isStale]

theorem Kept.counts (kept : Kept entry later) :
    call.counts later = call.counts entry := by
  rw [Call.counts, kept.tool, kept.args, kept.clientId, Call.counts]

/-- Later requests leave a cleared queue clear. -/
theorem Clear.follows (clear : Clear hashes call before ids)
    (follows : Follows before after) : Clear hashes call after ids where
  stale := by
    intro id later waits stale
    obtain ⟨entry, was, kept⟩ := follows.row waits (skill_of_isStale stale)
    exact clear.stale id entry was (kept.isStale ▸ stale)
  own := by
    intro id isIn
    obtain ⟨entry, found, client⟩ := clear.own id isIn
    obtain ⟨later, present, kept⟩ := follows.kept id entry found
    exact ⟨later, present, kept.clientId.trans client⟩
  held := by
    intro ids nodup all
    apply clear.held ids nodup
    intro id isIn
    obtain ⟨later, waits, counted⟩ := all id isIn
    obtain ⟨entry, was, kept⟩ := follows.row waits
      (by simp_all [Call.counts])
    exact ⟨entry, was, kept.counts ▸ counted⟩

theorem mem_pendingRows {queue : ApprovalQueue}
    (sound : queue.Sound python) :
    (id, entry) ∈ pendingRows queue ↔ Row queue.objects id entry := by
  simp only [pendingRows, mem_filter, mem_filterMap, Option.map_eq_some_iff,
    Prod.mk.injEq, decide_eq_true_eq]
  constructor
  · rintro ⟨⟨_, listed, _, found, rfl, rfl⟩, pending⟩
    exact ⟨found, pending⟩
  · rintro ⟨found, pending⟩
    exact ⟨⟨id, sound.listed id entry found (by rw [pending]; rfl), entry,
      found, rfl, rfl⟩, pending⟩

/-- What the gate lets through is clear but for the stale rows. -/
theorem clear_of_refusal {queue : ApprovalQueue} (sound : queue.Sound python)
    (passed : call.refusal hashes queue = none) :
    Clear hashes call queue.objects
      ((call.stale hashes queue).map Prod.fst) := by
  unfold Call.refusal at passed
  split_ifs at passed with foreign full
  constructor
  · intro id entry waits stale
    exact mem_map.2 ⟨(id, entry),
      mem_filter.2 ⟨(mem_pendingRows sound).2 waits, stale⟩, rfl⟩
  · intro id isIn
    obtain ⟨⟨_, entry⟩, isStale, rfl⟩ := mem_map.1 isIn
    refine ⟨entry, ((mem_pendingRows sound).1 (mem_filter.1 isStale).1).1, ?_⟩
    simpa using fun differs => foreign (any_eq_true.2 ⟨_, isStale, differs⟩)
  · intro ids nodup all
    have inside : ids ⊆
        ((pendingRows queue).filter fun row => call.counts row.2).map
          Prod.fst := by
      intro id isIn
      obtain ⟨entry, waits, counted⟩ := all id isIn
      exact mem_map.2 ⟨(id, entry),
        mem_filter.2 ⟨(mem_pendingRows sound).2 waits, counted⟩, rfl⟩
    have := nodup.length_le_of_subset inside
    rw [length_map] at this
    simp only [maxPendingSkillChanges] at full
    omega

/-! ## The rows of the queue -/

/-- The change whose row this is, and what its executor does. -/
structure Asks (body : Callable → Option Change) (hashes : Hashes)
    (entry : ApprovalEntry) (change : Change) (client : String) : Prop where
  tool : entry.tool = change.tool
  args : entry.args = change.args hashes client
  clientId : entry.clientId = SkillChanges.clientId client
  executor : ∀ executor, entry.executor = some executor →
    body executor = some change

/-- The skill rows of the queue. -/
structure Gated (python : Python) (hashes : Hashes)
    (body : Callable → Option Change) (inbox : Inbox) : Prop where
  valid : Valid python inbox
  asked : ∀ id entry, inbox.queue.objects id = some entry →
    entry.tool ∈ skillTools → ∃ change client,
      Asks body hashes entry change client
  same : ∀ id entry other later, Row inbox.queue.objects id entry →
    Row inbox.queue.objects other later →
    entry.tool = "agent_skill_put" → later.tool = "agent_skill_put" →
    entry.args.get "name" = later.args.get "name" →
    entry.args.get "sha256" = later.args.get "sha256"
  capped : ∀ client, AtMost maxPendingSkillChanges fun id =>
    ∃ entry, Row inbox.queue.objects id entry ∧ entry.tool ∈ skillTools ∧
      entry.clientId = client

/-- Steps that keep the rows keep the gate. -/
theorem Gated.follows {inbox next : Inbox}
    (gated : Gated python hashes body inbox) (valid : Valid python next)
    (follows : Follows inbox.queue.objects next.queue.objects) :
    Gated python hashes body next where
  valid := valid
  asked := by
    intro id later found skill
    cases was : inbox.queue.objects id with
    | none => exact absurd skill (follows.fresh id later was found)
    | some entry =>
      obtain ⟨_, present, kept⟩ := follows.kept id entry was
      obtain rfl := Option.some.inj (found.symm.trans present)
      obtain ⟨change, client, asks⟩ :=
        gated.asked id entry was (kept.tool ▸ skill)
      exact ⟨change, client, kept.tool.trans asks.tool,
        kept.args.trans asks.args, kept.clientId.trans asks.clientId,
        fun executor bound => asks.executor _ (kept.executor _ bound)⟩
  same := by
    intro id entry other later waits laterWaits tool laterTool names
    obtain ⟨_, was, kept⟩ := follows.row waits (by simp [tool, skillTools])
    obtain ⟨_, laterWas, laterKept⟩ :=
      follows.row laterWaits (by simp [laterTool, skillTools])
    rw [kept.args, laterKept.args] at names ⊢
    exact gated.same _ _ _ _ was laterWas (kept.tool ▸ tool)
      (laterKept.tool ▸ laterTool) names
  capped := by
    intro client ids nodup all
    apply gated.capped client ids nodup
    intro id isIn
    obtain ⟨later, waits, skill, own⟩ := all id isIn
    obtain ⟨entry, was, kept⟩ := follows.row waits skill
    exact ⟨entry, was, kept.tool ▸ skill, kept.clientId ▸ own⟩

theorem args_name (hashes : Hashes) (change : Change) (client : String) :
    (change.args hashes client).get "name" = .str change.name := by
  cases change <;> rfl

theorem args_sha256 (hashes : Hashes) (change : Change)
    (client other : String) :
    (change.args hashes client).get "sha256" =
      (change.args hashes other).get "sha256" := by
  cases change <;> rfl

/-- Where no row is stale, a row of the same tool and skill is a repeat. -/
theorem Clear.change_eq (injective : Injective hashes.push)
    (clear : Clear hashes call objects []) (waits : Row objects id entry)
    (asks : Asks body hashes entry change client)
    (tool : change.tool = call.change.tool)
    (names : change.name = call.change.name) : change = call.change := by
  cases isPut : call.change with
  | put push =>
    rw [isPut] at tool names
    cases change with
    | put other =>
      by_contra differ
      have shas : other.digest hashes ≠ push.digest hashes :=
        fun same => differ (congrArg _ (push_eq injective names same))
      have name : entry.args.get "name" = .str push.name := by
        rw [asks.args, args_name, names]
        rfl
      have sha : entry.args.get "sha256" = .str (other.digest hashes) := by
        rw [asks.args]
        rfl
      have stale : call.isStale hashes entry = true := by
        simp [Call.isStale, isPut, asks.tool, Change.tool, name, sha, reads,
          shas]
      cases clear.stale id entry waits stale
    | delete name => simp [Change.tool] at tool
  | delete name =>
    rw [isPut] at tool names
    cases change with
    | put other => simp [Change.tool] at tool
    | delete other => exact congrArg _ names

section

variable {inbox : Inbox} (now : Time)

theorem create_cases
    (found : (inbox.queue.create python (call.request hashes) now).1.objects
      id = some entry) :
    inbox.queue.objects id = some entry ∨
      id = inbox.queue.minted ∧
        Asks body hashes entry call.change call.client := by
  simp only [ApprovalQueue.create, update_apply] at found
  split_ifs at found with fresh
  · cases found
    refine .inr ⟨fresh, rfl, rfl, rfl, ?_⟩
    intro executor bound
    cases bound
    exact call.bound
  · exact .inl found

/-- The holder of the gate adds its row. -/
theorem Gated.create (injective : Injective hashes.push)
    (gated : Gated python hashes body inbox)
    (clear : Clear hashes call inbox.queue.objects [])
    (free : inbox.queue.dedup ((call.request hashes).dedupKey python) = none)
    {log : List Event}
    (valid : Valid python
      ⟨(inbox.queue.create python (call.request hashes) now).1, log⟩) :
    Gated python hashes body
      ⟨(inbox.queue.create python (call.request hashes) now).1, log⟩ := by
  have repeats : ∀ id entry, Row inbox.queue.objects id entry →
      entry.tool = call.change.tool →
      entry.args.get "name" = .str call.change.name →
      ∃ client, Asks body hashes entry call.change client := by
    intro id entry waits tool name
    obtain ⟨change, client, asks⟩ := gated.asked id entry waits.1
      (by rw [tool]; cases call.change <;> simp [Change.tool, skillTools])
    rw [asks.args, args_name] at name
    rw [← clear.change_eq injective waits asks (asks.tool.symm.trans tool)
      (Json.str.inj name)]
    exact ⟨client, asks⟩
  have fresh : ∀ id entry later, Row inbox.queue.objects id entry →
      Asks body hashes later call.change call.client →
      entry.tool = later.tool →
      entry.args.get "name" = later.args.get "name" →
      entry.args.get "sha256" = later.args.get "sha256" := by
    intro id entry later waits asks tool names
    rw [asks.args, args_name] at names
    obtain ⟨client, repeated⟩ :=
      repeats id entry waits (tool.trans asks.tool) names
    rw [repeated.args, asks.args, args_sha256]
  refine ⟨valid, ?_, ?_, ?_⟩
  · intro id entry found skill
    rcases create_cases now found with was | ⟨-, asks⟩
    · exact gated.asked id entry was skill
    · exact ⟨_, _, asks⟩
  · rintro id entry other later ⟨found, pending⟩ ⟨laterFound, laterPending⟩
      tool laterTool names
    rcases create_cases now found with was | ⟨-, asks⟩ <;>
      rcases create_cases now laterFound with laterWas | ⟨-, laterAsks⟩
    · exact gated.same id entry other later ⟨was, pending⟩
        ⟨laterWas, laterPending⟩ tool laterTool names
    · exact fresh id entry later ⟨was, pending⟩ laterAsks
        (tool.trans laterTool.symm) names
    · exact (fresh other later entry ⟨laterWas, laterPending⟩ asks
        (laterTool.trans tool.symm) names.symm).symm
    · rw [asks.args, laterAsks.args]
  · intro client
    by_cases own : client = clientId call.client
    · subst own
      apply clear.held.succ inbox.queue.minted
      rintro id older ⟨entry, ⟨found, pending⟩, skill, own⟩
      rcases create_cases now found with was | ⟨isFresh, -⟩
      · refine ⟨entry, ⟨was, pending⟩, ?_⟩
        by_contra same
        have : entry.tool = call.change.tool ∧
            reads call.change.name (entry.args.get "name") = true := by
          simpa [Call.counts, skill, own] using same
        obtain ⟨change, client, asks⟩ := gated.asked id entry was skill
        have name := this.2
        rw [asks.args, args_name] at name
        obtain ⟨client, asks⟩ := repeats id entry ⟨was, pending⟩ this.1
          (by rw [asks.args, args_name, eq_of_beq name])
        have clients : client = call.client :=
          String.append_right_inj _ |>.1 (asks.clientId.symm.trans own)
        subst clients
        have keyed := (gated.valid.sound.index _ id).2
          ⟨entry, was, pending, rfl⟩
        rw [ApprovalEntry.dedupKey, asks.tool, asks.args] at keyed
        rw [Request.dedupKey] at free
        exact absurd (keyed.symm.trans free) (Option.some_ne_none _)
      · exact absurd isFresh older
    · intro ids nodup all
      apply gated.capped client ids nodup
      intro id isIn
      obtain ⟨entry, ⟨found, pending⟩, skill, isClient⟩ := all id isIn
      rcases create_cases now found with was | ⟨-, asks⟩
      · exact ⟨entry, ⟨was, pending⟩, skill, isClient⟩
      · exact absurd (isClient.symm.trans asks.clientId) own

end

end Hal0.SkillChanges
