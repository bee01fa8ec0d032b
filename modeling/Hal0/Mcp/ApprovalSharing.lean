import Hal0.Mcp.ApprovalDecisions

/-!
# Which calls share one approval

An enqueue which finds a pending entry of its dedup key is told the id of
that entry, and an approval then runs the executor on the arguments of the
call which came first.  This is what the second caller asked for exactly when
the two calls are aimed at the same target.  The dedup key is a text, and
different identifying arguments can have the same text: `Collides` says that
an enqueue meets such an entry.
-/

namespace Hal0.Mcp

open Option
open Hal0.Transition Hal0.Tasks

/-! ## What the queue keeps showing -/

variable {queue : ApprovalQueue} {id : ApprovalId} {python : Python}

/-- What every turn keeps holds in the end. -/
theorem kept_of_run {world final : InboxWorld} {actions : List InboxAction}
    (holds : ApprovalQueue → Prop)
    (turns : ∀ {inbox after : Inbox} {task : TaskId} {pc : Pc}
      {next : Option Pc}, Turn python inbox task pc after next →
      Valid python inbox → Entitled inbox task pc → holds inbox.queue →
        holds after.queue) (safe : Safe (Valid python) Entitled world)
    (start : holds world.shared.queue)
    (run : Run (calls python).step Anything world actions final) :
    holds final.shared.queue := by
  have both := run.invariant
    (fun world => Safe (Valid python) Entitled world ∧
      holds world.shared.queue) ⟨safe, start⟩ ?_
  · exact both.2
  intro state action next kept permitted moved
  obtain ⟨safe, holding⟩ := kept
  refine ⟨safe.moves (calls_keep python Anything) permitted
    (Program.moves_of_step moved), ?_⟩
  cases Program.moves_of_step moved with
  | start unused started =>
    obtain ⟨-, same⟩ := ite_none_right_eq_some.1 started
    obtain rfl := some.inj same
    exact holding
  | cancel suspended cancelled =>
    obtain rfl := some.inj cancelled
    exact holding
  | resume suspended resumed =>
    exact turns (turn_of_resume safe.state.sound resumed) safe.state
      (safe.task _ _ suspended) holding
  | occur => rename_i event _ _; exact event.elim

/-- The object `id` shows a call of `tool` with `args`. -/
def ShowsCall (queue : ApprovalQueue) (id : ApprovalId) (tool : String)
    (args : Args) : Prop :=
  ∃ entry, queue.objects id = some entry ∧ entry.tool = tool ∧
    entry.args = args

theorem Turn.showsCall {inbox after : Inbox} {task : TaskId} {pc : Pc}
    {next : Option Pc} {tool : String} {args : Args}
    (turn : Turn python inbox task pc after next) (valid : Valid python inbox)
    (_ : Entitled inbox task pc) (shown : ShowsCall inbox.queue id tool args) :
    ShowsCall after.queue id tool args := by
  obtain ⟨entry, found, sameTool, sameArgs⟩ := shown
  obtain ⟨later, present, within⟩ :=
    turn.shows_ valid.sound id entry found
  exact ⟨later, present, within.tool.trans sameTool,
    within.args.trans sameArgs⟩

/-! ## Calls which share an entry -/

/--
An entry of the same tool is pending whose identifying argument is another
value with the same text.
-/
def Collides (python : Python) (queue : ApprovalQueue) (request : Request) :
    Prop :=
  ∃ id entry key, queue.Pending id entry ∧ entry.tool = request.tool ∧
    primaryTargetArg.lookup request.tool = some key ∧
    targetText python (entry.args.get key) =
      targetText python (request.args.get key) ∧
    ¬ SameTarget request.tool request.args entry.args

/-- The digest tells the call from the pending calls. -/
def DigestSeparates (python : Python) (queue : ApprovalQueue)
    (request : Request) : Prop :=
  ∀ id entry, queue.Pending id entry →
    hashArgs python entry.args = hashArgs python request.args →
    Json.canonical (.obj entry.args) = Json.canonical (.obj request.args)

variable {request : Request}

/-- One key means one target, without collisions. -/
theorem sameTarget_of_dedupKey {entry : ApprovalEntry}
    (separates : DigestSeparates python queue request)
    (clear : ¬ Collides python queue request) (found : queue.Pending id entry)
    (keyed : entry.dedupKey python = request.dedupKey python) :
    entry.tool = request.tool ∧
      SameTarget request.tool request.args entry.args := by
  obtain ⟨sameTool, sameText⟩ := Prod.mk.inj keyed
  refine ⟨sameTool, ?_⟩
  rw [sameTool] at sameText
  cases registered : primaryTargetArg.lookup request.tool with
  | none =>
    simp only [primaryTarget, registered] at sameText
    simp only [SameTarget, registered]
    exact (separates id entry found sameText).symm
  | some key =>
    simp only [primaryTarget, registered] at sameText
    by_contra differs
    exact clear ⟨id, entry, key, found, sameTool, registered, sameText,
      differs⟩

/-- What a successful approval of `id` did is what `request` asked for. -/
def ActsOnTarget (inbox : Inbox) (id : ApprovalId) (request : Request) :
    Prop :=
  ∀ run ∈ executions inbox.log id,
    (∃ entry, inbox.queue.objects id = some entry ∧
      entry.tool = request.tool) ∧
    SameTarget request.tool request.args run.2.2

theorem enqueue_shows (now : Time) (sound : queue.Sound python)
    (separates : DigestSeparates python queue request)
    (clear : ¬ Collides python queue request) :
    ∃ args, ShowsCall (queue.enqueue python request now).1
        (queue.enqueue python request now).2.1 request.tool args ∧
      SameTarget request.tool request.args args := by
  rcases enqueue_eq sound request now with
    ⟨id, entry, found, pending, keyed, joins⟩ | ⟨free, creates⟩
  · obtain ⟨sameTool, aimed⟩ := sameTarget_of_dedupKey separates clear
      ⟨sound.get_of_pending found pending, pending⟩ keyed
    rw [joins]
    refine ⟨entry.args, ⟨entry.hit, ?_, sameTool, rfl⟩, aimed⟩
    rw [ApprovalQueue.write_objects, if_pos rfl, found, map_some]
  · rw [creates]
    exact ⟨request.args, ⟨_, Function.update_self .., rfl, rfl⟩, .refl _ _⟩

/-- A colliding call joins the other row. -/
theorem enqueue_collides (now : Time) (sound : queue.Sound python)
    (collides : Collides python queue request) :
    (queue.enqueue python request now).2.2 = false ∧ ∃ entry,
      queue.objects (queue.enqueue python request now).2.1 = some entry ∧
      (queue.enqueue python request now).1.Pending
        (queue.enqueue python request now).2.1 entry.hit ∧
      ¬ SameTarget request.tool request.args entry.args := by
  obtain ⟨id, entry, key, ⟨found, pending⟩, sameTool, registered, sameText,
    differs⟩ := collides
  have present := ApprovalQueue.objects_of_get found
  have keyed : entry.dedupKey python = request.dedupKey python := by
    simp [ApprovalEntry.dedupKey, Request.dedupKey, primaryTarget, sameTool,
      registered, sameText]
  have pointed := (sound.index _ id).2 ⟨entry, present, pending, keyed⟩
  rcases enqueue_eq sound request now with
    ⟨other, twin, there, waits, same, joins⟩ | ⟨free, -⟩
  · have pointedToo := (sound.index _ other).2 ⟨twin, there, waits, same⟩
    rw [pointed] at pointedToo
    obtain rfl := some.inj pointedToo
    rw [joins]
    refine ⟨rfl, entry, present, ⟨?_, pending⟩, differs⟩
    have listed := ApprovalQueue.mem_of_get found
    apply ApprovalQueue.get_eq_some_iff.2
    refine ⟨listed, ?_⟩
    rw [ApprovalQueue.write_objects, if_pos rfl, present, map_some]
  · rw [pointed] at free
    cases free

/-- A pending row can be approved and run. -/
theorem executes_of_pending (python : Python) {world : InboxWorld}
    {task : TaskId} {entry : ApprovalEntry} {executor : Callable}
    (idle : world.tasks task = none)
    (found : world.shared.queue.Pending id entry)
    (binds : entry.executor = some executor) :
    ∃ actions final,
      Run (calls python).step Anything world actions final ∧
      (task, executor, entry.args) ∈ executions final.shared.log id := by
  obtain ⟨present, pending⟩ := found
  let asked := world.put task world.shared (some (.approveEntering id))
  let queue := (world.shared.queue.write id fun entry =>
    { entry with state := .approved, decidedAt := some 0 }).popDedup
      (entry.dedupKey python)
  let decided := asked.put task
    ⟨queue, world.shared.log ++ [.decided task id .approve]⟩
    (some (.approveEmitting id (some executor)))
  let ran := decided.put task
    ⟨queue.write id ApprovalEntry.release,
      (world.shared.log ++ [.decided task id .approve]) ++
        [.executed task id executor entry.args]⟩ (some (.executing id))
  have first : (calls python).step world
      (.start task (.approveEntering id)) = some asked := by
    simp [Program.step, idle, calls, Pc.isEntry, asked]
  have second : (calls python).step asked (.resume task (.turn 0)) =
      some decided := by
    simp [Program.step, asked, World.put_tasks, calls, resume,
      ApprovalQueue.approve, ApprovalQueue.undecided, present, pending,
      Except.map, decided, queue, binds]
  have third : (calls python).step decided (.resume task (.turn 0)) =
      some ran := by
    have object : queue.objects id =
        some { entry with state := .approved, decidedAt := some 0 } := by
      simp only [queue, ApprovalQueue.popDedup, ApprovalQueue.write_objects,
        if_pos, ApprovalQueue.objects_of_get present, map_some]
    simp [Program.step, decided, World.put_tasks, calls, resume, object, ran]
  refine ⟨_, ran, .cons trivial first (.cons trivial second
    (.cons trivial third (.nil ran))), ?_⟩
  simp only [ran, World.put_shared, executions_executed, if_pos]
  exact List.mem_append_right _ (List.mem_singleton.2 rfl)

/--
For an enqueue in any reachable state: a successful approval of the returned
id acts on the target which was asked for, however the run goes on, if and
only if the enqueue does not collide with a pending entry.
-/
theorem approval_acts_on_target_iff (python : Python)
    {actions : List InboxAction} {world next : InboxWorld} {task : TaskId}
    {request : Request} {now : Time}
    (run : Run (calls python).step Anything (World.quiet Inbox.empty) actions
      world)
    (suspended : world.tasks task = some (.enqueueEntering request))
    (moved : (calls python).step world (.resume task (.turn now)) =
      some next)
    (separates : DigestSeparates python world.shared.queue request) :
    (∀ later final, Run (calls python).step Anything next later final →
      ActsOnTarget final.shared
        (world.shared.queue.enqueue python request now).2.1 request) ↔
    ¬ Collides python world.shared.queue request := by
  have safe := valid_of_run python run
  have safeNext := safe.moves (calls_keep python Anything) trivial
    (Program.moves_of_step moved)
  have moves : next = world.put task
      ⟨(world.shared.queue.enqueue python request now).1,
        world.shared.log ++ [.queued task
          (world.shared.queue.enqueue python request now).2.1 request]⟩
      (if (world.shared.queue.enqueue python request now).2.2
        then some (.enqueueEmitting
          (world.shared.queue.enqueue python request now).2.1)
        else none) := by
    simp only [Program.step, suspended, calls, resume, map_some,
      some.injEq] at moved
    exact moved.symm
  constructor
  · intro acts collides
    obtain ⟨ended, entry, found, pending, differs⟩ :=
      enqueue_collides now safe.state.sound collides
    obtain ⟨executor, binds⟩ := safe.state.ready _ entry found pending.2
    have idle : next.tasks task = none := by
      rw [moves, World.put_tasks, if_pos rfl, ended]
      rfl
    have there : next.shared.queue.Pending
        (world.shared.queue.enqueue python request now).2.1 entry.hit := by
      rw [moves]
      exact pending
    obtain ⟨later, final, continued, executed⟩ :=
      executes_of_pending python idle there binds
    exact differs (acts later final continued _ executed).2
  · intro clear later final continued ran executed
    obtain ⟨args, shown, aimed⟩ :=
      enqueue_shows now safe.state.sound separates clear
    have shownNext : ShowsCall next.shared.queue
        (world.shared.queue.enqueue python request now).2.1 request.tool
        args := by
      rw [moves]
      exact shown
    obtain ⟨entry, found, sameTool, sameArgs⟩ :=
      kept_of_run (fun queue => ShowsCall queue _ request.tool args)
        Turn.showsCall safeNext shownNext continued
    have safeFinal := Safe.run safeNext (calls_keep python Anything)
      continued
    obtain ⟨-, -, other, present, same⟩ :=
      safeFinal.state.recorded.executed _ ran executed
    refine ⟨⟨entry, found, sameTool⟩, ?_⟩
    rw [found] at present
    obtain rfl := some.inj present
    rw [← same, sameArgs]
    exact aimed

/-! ## Deletions of memories -/

/-- Delete the one memory whose id is `a,b`. -/
def deleteJoined : Request :=
  { tool := "memory_delete"
    args := [("ids", .arr [.str "a,b"])]
    clientId := "agent"
    executor := 7 }

/-- Delete the two memories `a` and `b`. -/
def deleteBoth : Request :=
  { tool := "memory_delete"
    args := [("ids", .arr [.str "a", .str "b"])]
    clientId := "agent"
    executor := 8 }

/-- Delete the one memory whose id is `c`. -/
def deleteThird : Request :=
  { tool := "memory_delete"
    args := [("ids", .arr [.str "c"])]
    clientId := "agent"
    executor := 9 }

/-- The inbox with the deletion of `c` pending. -/
def thirdQueued : Inbox :=
  ⟨(ApprovalQueue.empty.create plainPython deleteThird 1).1,
    [.queued 0 0 deleteThird]⟩

/-- One deletion is queued and one comes. -/
def deletionAsked : InboxWorld :=
  (((World.quiet Inbox.empty).put 0 Inbox.empty
    (some (.enqueueEntering deleteThird))).put 0 thirdQueued
      (some (.enqueueEmitting 0))).put 1 thirdQueued
        (some (.enqueueEntering deleteBoth))

theorem thirdQueued_pending {id : ApprovalId} {entry : ApprovalEntry}
    (found : thirdQueued.queue.Pending id entry) :
    id = 0 ∧ entry.tool = deleteThird.tool ∧
      entry.args = deleteThird.args := by
  have listed : id ∈ [0] := ApprovalQueue.mem_of_get found.1
  obtain rfl := List.mem_singleton.1 listed
  have present := ApprovalQueue.objects_of_get found.1
  obtain rfl := some.inj present
  exact ⟨rfl, rfl, rfl⟩

/-- A deletion asked for while another one is pending. -/
theorem first_deletion_acts_on_target :
    (∃ entry, deletionAsked.shared.queue.Pending 0 entry) ∧
    ∃ next, (calls plainPython).step deletionAsked (.resume 1 (.turn 2)) =
      some next ∧ ∀ later final,
        Run (calls plainPython).step Anything next later final →
        ActsOnTarget final.shared
          (deletionAsked.shared.queue.enqueue plainPython deleteBoth 2).2.1
          deleteBoth := by
  have run : Run (calls plainPython).step Anything (World.quiet Inbox.empty)
      [.start 0 (.enqueueEntering deleteThird), .resume 0 (.turn 1),
        .start 1 (.enqueueEntering deleteBoth)] deletionAsked :=
    .cons trivial rfl (.cons trivial rfl (.cons trivial rfl (.nil _)))
  have suspended : deletionAsked.tasks 1 =
      some (.enqueueEntering deleteBoth) := rfl
  obtain ⟨next, moved⟩ : ∃ next,
      (calls plainPython).step deletionAsked (.resume 1 (.turn 2)) =
        some next := ⟨_, rfl⟩
  refine ⟨⟨_, rfl, rfl⟩, next, moved,
    (approval_acts_on_target_iff plainPython run suspended moved ?_).2 ?_⟩
  · intro id entry found sameDigest
    rw [(thirdQueued_pending found).2.2] at sameDigest
    exact absurd sameDigest (by decide +kernel)
  · rintro ⟨id, entry, key, found, -, registered, sameText, -⟩
    rw [(thirdQueued_pending found).2.2] at sameText
    obtain rfl : "ids" = key := some.inj registered
    exact absurd sameText (by decide +kernel)

/-- Two deletions with one text. -/
def sharedDeletion : List InboxAction :=
  [.start 0 (.enqueueEntering deleteJoined), .resume 0 (.turn 1),
    .resume 0 (.turn 1),
    .start 1 (.enqueueEntering deleteBoth), .resume 1 (.turn 2),
    .start 2 (.approveEntering 0), .resume 2 (.turn 3),
    .resume 2 (.turn 3)]

/-- The length of a list. -/
def Json.count : Json → Nat
  | .arr items => items.length
  | _ => 0

theorem canonicalItems_length (items : List Json) :
    (Json.canonicalItems items).length = items.length := by
  induction items with
  | nil => rfl
  | cons item rest same =>
    simp only [Json.canonicalItems, List.length_cons, same]

theorem canonical_count (value : Json) :
    value.canonical.count = value.count := by
  cases value with
  | arr items => exact canonicalItems_length items
  | _ => rfl

theorem Json.SameTarget.count {left right : Json}
    (same : left.SameTarget right) : left.count = right.count := by
  cases same with
  | list permuted => exact permuted.length_eq
  | same => rfl

theorem count_of_sameTarget {left right : Args}
    (same : SameTarget "memory_delete" left right) :
    (left.get "ids").count = (right.get "ids").count := by
  have registered :
      primaryTargetArg.lookup "memory_delete" = some "ids" := by
    decide
  simp only [SameTarget, registered] at same
  rw [← canonical_count, ← canonical_count (right.get "ids")]
  exact same.count

/-- The second call, of two ids, is told the first approval. -/
def asksForTwo : Event → Bool
  | .queued task id request =>
    task == 1 && id == 0 && request.tool == "memory_delete" &&
      (request.args.get "ids").count == 2
  | _ => false

theorem queued_of_asksForTwo {event : Event} (asks : asksForTwo event) :
    ∃ request, event = .queued 1 0 request ∧
      request.tool = "memory_delete" ∧
      (request.args.get "ids").count = 2 := by
  cases event with
  | queued task id request =>
    simp only [asksForTwo, Bool.and_eq_true, beq_iff_eq] at asks
    obtain ⟨⟨⟨rfl, rfl⟩, deletes⟩, two⟩ := asks
    exact ⟨request, rfl, deletes, two⟩
  | _ => cases asks

/-- The second deletion is told the id of the first, which then runs. -/
theorem shared_deletion_acts_elsewhere :
    ∃ world : InboxWorld,
      Run (calls plainPython).step Anything (World.quiet Inbox.empty)
        sharedDeletion world ∧
      (∃ request, Event.queued 1 0 request ∈ world.shared.log ∧
        ¬ ActsOnTarget world.shared 0 request) := by
  obtain ⟨world, run, passed⟩ :=
    Run.exists_of_exec (calls plainPython).step Anything
      (World.quiet Inbox.empty) sharedDeletion
      (fun world : InboxWorld =>
        world.shared.log.any asksForTwo &&
        (executions world.shared.log 0).any fun run =>
          (run.2.2.get "ids").count == 1)
      (by decide +kernel)
  rw [Bool.and_eq_true, List.any_eq_true, List.any_eq_true] at passed
  obtain ⟨⟨event, logged, asked⟩, ran, executed, one⟩ := passed
  obtain ⟨request, rfl, deletes, two⟩ := queued_of_asksForTwo asked
  refine ⟨world, run, request, logged, ?_⟩
  intro acts
  have same := (acts ran executed).2
  rw [deletes] at same
  have counted := count_of_sameTarget same
  rw [two, eq_of_beq one] at counted
  cases counted

end Hal0.Mcp
