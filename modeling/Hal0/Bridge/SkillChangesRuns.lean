import Hal0.Bridge.SkillChangesGated

/-!
# Runs of skill changes

`Relies` is what a suspended task counts on: the holder of the gate on what it
has read of the rows, and a thread on the row which it carries out.
-/

namespace Hal0.SkillChanges

open Function List
open Hal0.Transition Hal0.Tasks Hal0.Mcp

variable {body : Callable → Option Change} {python : Python}
  {hashes : Hashes} {call : Call body} {state after : Changes}
  {task other : TaskId} {pc : Pc body} {ids : List ApprovalId}

/-! ## What a task relies on -/

/-- The executor does what the row of the entry asks for. -/
def Bound (hashes : Hashes) (body : Callable → Option Change)
    (objects : ApprovalId → Option ApprovalEntry)
    (thread : ApprovalId × Callable) : Prop :=
  ∃ entry, objects thread.1 = some entry ∧
    (entry.tool ∈ skillTools → ∃ change client,
      Asks body hashes entry change client ∧ body thread.2 = some change)

/-- The queue's own stage of the task. -/
def Pc.inner : Pc body → Option Mcp.Pc
  | .gating _ => none
  | .replacing _ _ inner | .queueing _ inner | .other inner => some inner
  | .writing id _ => some (.executing id)

/-- The call of a client which the task runs. -/
def Pc.caller : Pc body → Option (Call body)
  | .gating call | .replacing call _ _ | .queueing call _ => some call
  | _ => none

/-- The call of the holder of the gate, and the rows to withdraw. -/
def Pc.held : Pc body → Option (Call body × Option (List ApprovalId))
  | .replacing call later (.withdrawEntering id _) =>
    some (call, some (id :: later))
  | .replacing call later _ => some (call, some later)
  | .queueing call (.enqueueEntering _) => some (call, some [])
  | .queueing call _ => some (call, none)
  | _ => none

/-- The executor which is at work or begins next. -/
def Pc.runs : Pc body → Option (ApprovalId × Callable)
  | .writing id executor
  | .other (.approveEmitting id (some executor)) => some (id, executor)
  | _ => none

/-- The withdrawals of the call are for being superseded. -/
inductive Formed (hashes : Hashes) : Pc body → Prop where
  | gating (call : Call body) : Formed hashes (.gating call)
  | withdrawing (call : Call body) (later : List ApprovalId)
      (id : ApprovalId) :
      Formed hashes (.replacing call later (.withdrawEntering id superseded))
  | withdrawn (call : Call body) (later : List ApprovalId)
      (id : ApprovalId) :
      Formed hashes (.replacing call later (.resolvedEmitting id))
  | enqueueing (call : Call body) :
      Formed hashes (.queueing call (.enqueueEntering (call.request hashes)))
  | enqueued (call : Call body) (id : ApprovalId) :
      Formed hashes (.queueing call (.enqueueEmitting id))
  | writing (id : ApprovalId) (executor : Callable) :
      Formed hashes (.writing id executor)
  | other {inner : Mcp.Pc}
      (foreign : ∀ request, inner = .enqueueEntering request →
        request.tool ∉ skillTools) : Formed hashes (.other inner)

/-- What a task relies on where it waits. -/
structure Relies (hashes : Hashes) (state : Changes) (task : TaskId)
    (pc : Pc body) : Prop where
  formed : Formed hashes pc
  entitled : ∀ inner, pc.inner = some inner →
    Entitled state.inbox task inner
  holds : ∀ call ids, pc.held = some (call, ids) →
    state.gate = some task ∧ ∀ rest, ids = some rest →
      Clear hashes call state.inbox.queue.objects rest
  bound : ∀ thread, pc.runs = some thread →
    Bound hashes body state.inbox.queue.objects thread

/-- The queue is gated and every thread bound. -/
structure Good (python : Python) (hashes : Hashes)
    (body : Callable → Option Change) (state : Changes) : Prop where
  gated : Gated python hashes body state.inbox
  threads : ∀ thread ∈ state.threads,
    Bound hashes body state.inbox.queue.objects thread

/-- The entries are kept. -/
def Keeping (state after : Changes) : Prop :=
  ∀ id entry, state.inbox.queue.objects id = some entry →
    ∃ later, after.inbox.queue.objects id = some later ∧ Kept entry later

theorem Bound.kept {thread : ApprovalId × Callable}
    (bound : Bound hashes body state.inbox.queue.objects thread)
    (keeping : Keeping state after) :
    Bound hashes body after.inbox.queue.objects thread := by
  obtain ⟨entry, found, asked⟩ := bound
  obtain ⟨later, present, kept⟩ := keeping _ entry found
  refine ⟨later, present, fun skill => ?_⟩
  obtain ⟨change, client, asks, does⟩ := asked (kept.tool ▸ skill)
  exact ⟨change, client, ⟨kept.tool.trans asks.tool,
    kept.args.trans asks.args, kept.clientId.trans asks.clientId,
    fun _ is => asks.executor _ (kept.executor _ is)⟩, does⟩

/-- The task does not move, and its gate is not touched. -/
theorem Relies.unmoved (relies : Relies hashes state other pc)
    (entitled : ∀ inner, Entitled state.inbox other inner →
      Entitled after.inbox other inner)
    (keeping : Keeping state after)
    (gate : state.gate = some other → after.gate = some other ∧
      Follows state.inbox.queue.objects after.inbox.queue.objects) :
    Relies hashes after other pc where
  formed := relies.formed
  entitled := fun inner is => entitled inner (relies.entitled inner is)
  holds := by
    intro call ids held
    obtain ⟨mine, clear⟩ := relies.holds call ids held
    exact ⟨(gate mine).1, fun rest is => (clear rest is).follows (gate mine).2⟩
  bound := fun thread runs => (relies.bound thread runs).kept keeping

/-- A call goes on once the stale rows are gone. -/
theorem relies_proceed (gate : state.gate = some task)
    (clear : Clear hashes call state.inbox.queue.objects ids) :
    Relies hashes state task (call.proceed hashes ids) := by
  cases ids with
  | nil =>
    refine ⟨.enqueueing call, ?_, ?_, nofun⟩
    · rintro inner ⟨⟩
      trivial
    · rintro _ _ ⟨⟩
      exact ⟨gate, fun _ is => Option.some.inj is ▸ clear⟩
  | cons id later =>
    refine ⟨.withdrawing call later id, ?_, ?_, nofun⟩
    · rintro inner ⟨⟩
      trivial
    · rintro _ _ ⟨⟩
      exact ⟨gate, fun _ is => Option.some.inj is ▸ clear⟩

/-! ## What a turn keeps -/

/-- What a turn of the queue does to all that is relied on. -/
theorem queue_turn (good : Good python hashes body state)
    (relies : Relies hashes state task pc) {inner : Mcp.Pc} {reply : Reply}
    {inbox : Inbox} {next : Option Mcp.Pc} (isInner : pc.inner = some inner)
    (resumed : Mcp.resume python state.inbox task inner reply =
      some (inbox, next)) :
    Valid python inbox ∧
      (∀ counter, next = some counter → Entitled inbox task counter) ∧
      ∀ other pc, other ≠ task → Entitled state.inbox other pc →
        Entitled inbox other pc := by
  have valid := good.gated.valid
  have entitled := relies.entitled inner isInner
  have turn := turn_of_resume valid.sound resumed
  exact ⟨turn.valid valid entitled, fun _ => turn.entitled valid entitled,
    fun _ _ distinct => turn.undisturbed valid entitled distinct⟩

/-- A turn which adds no skill row keeps the rest. -/
theorem good_of_follows (good : Good python hashes body state)
    (valid : Valid python after.inbox) (same : after.threads = state.threads)
    (follows : Follows state.inbox.queue.objects after.inbox.queue.objects) :
    Good python hashes body after where
  gated := good.gated.follows valid follows
  threads := fun thread isIn =>
    (good.threads thread (same ▸ isIn)).kept follows.kept

/-- A turn keeps the rows, and what its task and the others rely on. -/
def Turns (python : Python) (hashes : Hashes) (state after : Changes)
    (task : TaskId) (next : Option (Pc body)) : Prop :=
  Good python hashes body after ∧
    (∀ counter, next = some counter → Relies hashes after task counter) ∧
      ∀ other (pc : Pc body), other ≠ task →
        Relies hashes state other pc → Relies hashes after other pc

/-- While a task holds the gate the others rely on entries only. -/
theorem unmoved_of_gate (gate : state.gate = some task)
    (keeping : Keeping state after)
    (others : ∀ other pc, other ≠ task → Entitled state.inbox other pc →
      Entitled after.inbox other pc) (other : TaskId) (pc : Pc body)
    (distinct : other ≠ task) (theirs : Relies hashes state other pc) :
    Relies hashes after other pc :=
  theirs.unmoved (fun _ => others other _ distinct) keeping
    fun held => absurd (Option.some.inj (held.symm.trans gate)) distinct

section

variable {reply : Reply} {next : Option (Pc body)}
  (good : Good python hashes body state)
include good

/-- A stale row is withdrawn. -/
theorem turns_withdrawing {later : List ApprovalId} {id : ApprovalId}
    (relies : Relies hashes state task
      (.replacing call later (.withdrawEntering id superseded)))
    (resumed : resume python hashes state task
      (.replacing call later (.withdrawEntering id superseded)) reply =
        some (after, next)) :
    Turns python hashes state after task next := by
  obtain ⟨⟨inbox, counter⟩, turned, same⟩ := Option.map_eq_some_iff.1 resumed
  cases same
  have sound := good.gated.valid.sound
  have follows := follows_of_resume sound (fun _ is => by cases is) turned
  obtain ⟨gone, -, goes⟩ := withdrawn sound turned
  obtain ⟨valid, -, others⟩ := queue_turn good relies rfl turned
  obtain ⟨gate, clear⟩ := relies.holds _ _ rfl
  have clear := (clear _ rfl).follows follows
  have rest : Clear hashes call inbox.queue.objects later := by
    refine ⟨fun other entry waits stale => ?_, fun other isIn =>
      clear.own other (mem_cons_of_mem _ isIn), clear.held⟩
    rcases mem_cons.1 (clear.stale other entry waits stale) with rfl | isIn
    · exact absurd waits (gone entry)
    · exact isIn
  refine ⟨good_of_follows good valid rfl follows, ?_,
    unmoved_of_gate gate follows.kept others⟩
  rintro _ ⟨⟩
  cases counter with
  | none => exact relies_proceed gate rest
  | some counter =>
    obtain rfl := goes counter rfl
    refine ⟨.withdrawn call later id, ?_, ?_, nofun⟩
    · rintro inner ⟨⟩
      trivial
    · rintro _ _ ⟨⟩
      exact ⟨gate, fun _ is => Option.some.inj is ▸ rest⟩

theorem turns_withdrawn {later : List ApprovalId} {id : ApprovalId}
    (relies : Relies hashes state task
      (.replacing call later (.resolvedEmitting id)))
    (resumed : resume python hashes state task
      (.replacing call later (.resolvedEmitting id)) reply =
        some (after, next)) :
    Turns python hashes state after task next := by
  obtain ⟨⟨inbox, counter⟩, turned, same⟩ := Option.map_eq_some_iff.1 resumed
  cases same
  have follows := follows_of_resume good.gated.valid.sound
    (fun _ is => by cases is) turned
  obtain ⟨valid, -, others⟩ := queue_turn good relies rfl turned
  obtain ⟨gate, clear⟩ := relies.holds _ _ rfl
  refine ⟨good_of_follows good valid rfl follows, ?_,
    unmoved_of_gate gate follows.kept others⟩
  rintro _ ⟨⟩
  cases reply <;> cases turned
  exact relies_proceed gate (clear _ rfl)

omit good in
theorem resume_enqueue (inbox : Inbox) (request : Request) (now : Time) :
    Mcp.resume python inbox task (.enqueueEntering request) (.turn now) =
      some (⟨(inbox.queue.enqueue python request now).1, inbox.log ++
          [.queued task (inbox.queue.enqueue python request now).2.1
            request]⟩,
        if (inbox.queue.enqueue python request now).2.2 then
          some (.enqueueEmitting (inbox.queue.enqueue python request now).2.1)
        else none) := rfl

/-- The call enqueues its own request. -/
theorem turns_enqueueing (injective : Injective hashes.push)
    (relies : Relies hashes state task
      (.queueing call (.enqueueEntering (call.request hashes))))
    (resumed : resume python hashes state task
      (.queueing call (.enqueueEntering (call.request hashes))) reply =
        some (after, next)) :
    Turns python hashes state after task next := by
  obtain ⟨⟨inbox, counter⟩, turned, same⟩ := Option.map_eq_some_iff.1 resumed
  cases same
  have sound := good.gated.valid.sound
  obtain ⟨valid, -, others⟩ := queue_turn good relies rfl turned
  obtain ⟨gate, clear⟩ := relies.holds _ _ rfl
  have rest : Keeping state { state with inbox := inbox } ∧
      Gated python hashes body inbox ∧
        ∀ pc, counter = some pc → ∃ id, pc = .enqueueEmitting id := by
    cases reply with
    | turn now =>
      rw [resume_enqueue] at turned
      cases turned
      rcases enqueue_eq sound (call.request hashes) now with
        ⟨id, entry, found, pending, keyed, joins⟩ | ⟨free, creates⟩
      · rw [joins] at valid ⊢
        have follows := @Follows.write state.inbox.queue id
          ApprovalEntry.hit fun _ => by
            constructor <;> simp [ApprovalEntry.hit]
        exact ⟨follows.kept, good.gated.follows valid follows,
          fun _ is => by cases is⟩
      · rw [creates] at valid ⊢
        exact ⟨fun id entry found =>
            ⟨entry, create_objects sound _ _ found, .refl _⟩,
          good.gated.create now injective (clear _ rfl) free valid,
          fun pc is => ⟨_, (Option.some.inj is).symm⟩⟩
    | _ => cases turned
  obtain ⟨keeping, gated, goes⟩ := rest
  refine ⟨⟨gated, fun thread isIn => (good.threads thread isIn).kept keeping⟩,
    ?_, fun other pc distinct theirs => ?_⟩
  · intro pc is
    obtain ⟨counter, rfl, rfl⟩ := Option.map_eq_some_iff.1 is
    obtain ⟨id, rfl⟩ := goes counter rfl
    refine ⟨.enqueued call id, ?_, ?_, fun _ runs => by cases runs⟩
    · rintro inner ⟨⟩
      trivial
    · rintro _ _ ⟨⟩
      exact ⟨gate, fun _ is => by cases is⟩
  · refine unmoved_of_gate gate ?_ others other pc distinct theirs
    exact keeping

/-- A turn outside the gate. -/
theorem turns_outside {inner : Mcp.Pc} {inbox : Inbox}
    {counter : Option Mcp.Pc} (relies : Relies hashes state task pc)
    (isInner : pc.inner = some inner)
    (foreign : ∀ request, inner = .enqueueEntering request →
      request.tool ∉ skillTools)
    (resumed : Mcp.resume python state.inbox task inner reply =
      some (inbox, counter))
    (starts : ∀ id executor, inner = .approveEmitting id (some executor) →
      Bound hashes body state.inbox.queue.objects (id, executor)) :
    Turns python hashes state { state with inbox := inbox } task
      (counter.map (@Pc.after body inner)) := by
  have sound := good.gated.valid.sound
  have follows := follows_of_resume sound foreign resumed
  obtain ⟨valid, entitled, others⟩ := queue_turn good relies isInner resumed
  refine ⟨good_of_follows good valid rfl follows, ?_, ?_⟩
  · intro next is
    obtain ⟨later, rfl, rfl⟩ := Option.map_eq_some_iff.1 is
    have turn := turn_of_resume sound resumed
    obtain ⟨notEntry, approves⟩ := next_of_turn turn
    by_cases begins : ∃ id executor,
        inner = .approveEmitting id (some executor)
    · obtain ⟨id, executor, rfl⟩ := begins
      refine ⟨.writing id executor, ?_, nofun, ?_⟩
      · rintro _ ⟨⟩
        cases reply <;> try cases resumed
        obtain ⟨entry, -, same⟩ := Option.map_eq_some_iff.1 resumed
        cases same
        exact entitled _ rfl
      · rintro _ ⟨⟩
        exact (starts id executor rfl).kept follows.kept
    · have goes : @Pc.after body inner later = .other later := by
        unfold Pc.after
        split
        · exact absurd ⟨_, _, rfl⟩ begins
        · rfl
      rw [goes]
      refine ⟨.other fun request is => ?_, ?_, nofun, ?_⟩
      · rw [is] at notEntry
        cases notEntry
      · rintro _ ⟨⟩
        exact entitled later rfl
      · intro thread runs
        cases later with
        | approveEmitting id executor =>
          cases executor with
          | none => cases runs
          | some executor =>
            cases runs
            obtain ⟨entry, found, bound⟩ := approves id executor rfl
            refine Bound.kept ⟨entry, found, fun skill => ?_⟩ follows.kept
            obtain ⟨change, client, asks⟩ :=
              good.gated.asked id entry found skill
            exact ⟨change, client, asks, asks.executor executor bound⟩
        | _ => cases runs
  · intro other pc distinct theirs
    exact theirs.unmoved (fun _ => others other _ distinct) follows.kept
      fun mine => ⟨mine, follows⟩

/-- Every step of a call is of these kinds. -/
theorem turns_of_resume (injective : Injective hashes.push)
    (relies : Relies hashes state task pc)
    (resumed : resume python hashes state task pc reply =
      some (after, next)) :
    Turns python hashes state after task next := by
  cases relies.formed with
  | gating call =>
    cases reply with
    | turn now =>
      simp only [resume] at resumed
      split at resumed
      · cases resumed
      · cases resumed
        exact ⟨good, nofun, fun _ _ _ theirs => theirs⟩
      · next free passed =>
        cases resumed
        refine ⟨⟨good.gated, good.threads⟩, ?_, fun other pc _ theirs => ?_⟩
        · rintro _ ⟨⟩
          exact relies_proceed rfl
            (clear_of_refusal good.gated.valid.sound passed)
        · refine theirs.unmoved (fun _ theirs => theirs)
            (Follows.refl _).kept fun mine => ?_
          rw [free] at mine
          cases mine
    | _ => cases resumed
  | withdrawing call later id => exact turns_withdrawing good relies resumed
  | withdrawn call later id => exact turns_withdrawn good relies resumed
  | enqueueing call => exact turns_enqueueing good injective relies resumed
  | enqueued call id =>
    cases reply <;> cases resumed
    exact ⟨⟨good.gated, good.threads⟩, nofun,
      unmoved_of_gate (relies.holds _ _ rfl).1 (Follows.refl _).kept
        fun _ _ _ theirs => theirs⟩
  | writing id executor =>
    cases reply with
    | turn now =>
      cases resumed
      refine ⟨⟨good.gated, good.threads⟩, ?_, fun other pc _ theirs =>
        theirs.unmoved (fun _ theirs => theirs) (Follows.refl _).kept
          fun mine => ⟨mine, .refl _⟩⟩
      rintro _ ⟨⟩
      exact ⟨.other (fun _ is => by cases is), relies.entitled, nofun, nofun⟩
    | returned value => cases resumed
    | raised error =>
      have turned : Mcp.resume python state.inbox task (.executing id)
        (.raised error) = some (_, _) := rfl
      cases resumed
      exact turns_outside good relies rfl (fun _ is => by cases is) turned
        fun _ _ is => by cases is
  | other foreign =>
    obtain ⟨⟨inbox, counter⟩, turned, same⟩ :=
      Option.map_eq_some_iff.1 resumed
    cases same
    exact turns_outside good relies rfl foreign turned
      fun id executor is => relies.bound _ (by subst is; rfl)

/-- A row which a client's call ends is the client's own. -/
theorem own_row {id : ApprovalId} {entry : ApprovalEntry}
    (relies : Relies hashes state task pc) (isCall : pc.caller = some call)
    (resumed : resume python hashes state task pc reply = some (after, next))
    (waits : Row state.inbox.queue.objects id entry)
    (gone : ∀ later, ¬ Row after.inbox.queue.objects id later) :
    entry.clientId = clientId call.client := by
  cases relies.formed with
  | gating =>
    cases reply with
    | turn now =>
      simp only [resume] at resumed
      split at resumed <;> cases resumed <;> exact absurd waits (gone entry)
    | _ => cases resumed
  | withdrawing ours later own =>
    cases isCall
    obtain ⟨⟨inbox, counter⟩, turned, same⟩ :=
      Option.map_eq_some_iff.1 resumed
    cases same
    obtain ⟨-, others, -⟩ := withdrawn good.gated.valid.sound turned
    by_cases same : id = own
    · subst same
      obtain ⟨other, found, client⟩ :=
        ((relies.holds _ _ rfl).2 _ rfl).own _ mem_cons_self
      rw [waits.1] at found
      cases found
      exact client
    · exact absurd ⟨(others id same).trans waits.1, waits.2⟩ (gone entry)
  | enqueueing ours =>
    obtain ⟨⟨inbox, counter⟩, turned, same⟩ :=
      Option.map_eq_some_iff.1 resumed
    cases same
    cases reply with
    | turn now =>
      rw [resume_enqueue] at turned
      cases turned
      have sound := good.gated.valid.sound
      rcases enqueue_eq sound (ours.request hashes) now with
        ⟨joined, found, _, _, _, joins⟩ | ⟨free, creates⟩
      · rw [joins] at gone
        refine absurd ?_ (gone (if id = joined then entry.hit else entry))
        rw [Row, ApprovalQueue.write_objects, waits.1]
        split_ifs <;> exact ⟨rfl, waits.2⟩
      · rw [creates] at gone
        exact absurd ⟨create_objects sound _ _ waits.1, waits.2⟩ (gone entry)
    | _ => cases turned
  | withdrawn | enqueued =>
    cases reply <;> cases resumed
    exact absurd waits (gone entry)
  | writing | other => cases isCall

end

/-! ## Every run -/

/-- A new task relies on nothing. -/
theorem relies_of_begins (begins : pc.begins = true) :
    Relies hashes state task pc := by
  cases pc with
  | gating call => exact ⟨.gating call, nofun, nofun, nofun⟩
  | other inner =>
    cases inner with
    | enqueueEntering request =>
      refine ⟨.other ?_, ?_, nofun, nofun⟩
      · rintro _ ⟨⟩
        exact of_decide_eq_true begins
      · rintro _ ⟨⟩
        trivial
    | approveEntering | denyEntering | withdrawEntering =>
      refine ⟨.other fun _ is => (by cases is), ?_, nofun, nofun⟩
      rintro _ ⟨⟩
      trivial
    | _ => cases begins
  | _ => cases begins

/-- Every step keeps the gate and its tasks. -/
theorem keeps (injective : Injective hashes.push) :
    Keeps (@program body python hashes) Anything
      (Good python hashes body) (@Relies body hashes) where
  start := by
    intro world task pc shared good _ _ started
    obtain ⟨begins, same⟩ := Option.ite_none_right_eq_some.1 started
    obtain rfl := Option.some.inj same
    exact ⟨good, relies_of_begins begins, fun _ _ _ _ theirs => theirs⟩
  resume := by
    intro world task pc reply shared next good _ _ relies resumed
    obtain ⟨after, own, others⟩ :=
      turns_of_resume good injective relies resumed
    exact ⟨after, own, fun other pc distinct _ => others other pc distinct⟩
  cancel := by
    intro world task pc shared good _ _ relies cancelled
    obtain rfl := Option.some.inj cancelled
    cases pc with
    | replacing | queueing =>
      refine ⟨⟨good.gated, good.threads⟩, fun other pc distinct _ theirs => ?_⟩
      have gate : world.shared.gate = some task := by
        cases relies.formed <;> exact (relies.holds _ _ rfl).1
      refine unmoved_of_gate gate ?_ ?_ other pc distinct theirs
      · exact (Follows.refl _).kept
      · exact fun _ _ _ theirs => theirs
    | writing id executor =>
      refine ⟨⟨good.gated, ?_⟩, fun other pc _ _ theirs =>
        theirs.unmoved (fun _ theirs => theirs) (Follows.refl _).kept
          fun mine => ⟨mine, .refl _⟩⟩
      exact forall_mem_cons.2 ⟨relies.bound _ rfl, good.threads⟩
    | _ => exact ⟨good, fun _ _ _ _ theirs => theirs⟩
  occur := by
    intro world thread shared good _ occurred
    obtain ⟨_, same⟩ := Option.ite_none_right_eq_some.1 occurred
    obtain rfl := Option.some.inj same
    exact ⟨⟨good.gated, fun other isIn =>
        good.threads other (mem_of_mem_erase isIn)⟩,
      fun other pc _ theirs =>
        theirs.unmoved (fun _ theirs => theirs) (Follows.refl _).kept
          fun mine => ⟨mine, .refl _⟩⟩

/-- The pending rows of skills. -/
structure OneContent (objects : ApprovalId → Option ApprovalEntry) :
    Prop where
  same : ∀ id entry other later, Row objects id entry →
    Row objects other later → entry.tool = "agent_skill_put" →
    later.tool = "agent_skill_put" →
    entry.args.get "name" = later.args.get "name" →
    entry.args.get "sha256" = later.args.get "sha256"
  once : ∀ id entry other later, Row objects id entry →
    Row objects other later → entry.tool = "agent_skill_put" →
    later.tool = "agent_skill_put" →
    entry.args.get "name" = later.args.get "name" →
    entry.clientId = later.clientId → id = other
  capped : ∀ client, AtMost maxPendingSkillChanges fun id =>
    ∃ entry, Row objects id entry ∧ entry.tool ∈ skillTools ∧
      entry.clientId = client

/--
A client's call ends no row but the client's, and what is written for the row
of a put is what its card shows.
-/
structure Orderly (hashes : Hashes) (world next : World Changes (Pc body))
    (action : Action (Pc body) Reply (ApprovalId × Callable)) : Prop where
  own : ∀ task pc call, action.task = some task →
    world.tasks task = some pc → pc.caller = some call →
    ∀ id entry, Row world.shared.inbox.queue.objects id entry →
      (∀ later, ¬ Row next.shared.inbox.queue.objects id later) →
      entry.clientId = clientId call.client
  shown : ∀ id executor,
    ((∃ task now, world.tasks task = some (.writing id executor) ∧
      action = .resume task (.turn now)) ∨ action = .occur (id, executor)) →
    ∀ entry, world.shared.inbox.queue.objects id = some entry →
      entry.tool = "agent_skill_put" → ∃ (push : Push) (client : String),
        entry.args = push.card hashes client ∧
          next.shared.dropin = update world.shared.dropin push.name
            (some push.folder)

/--
From the approval of a pending put row the approving task goes on to the
thread of the row's executor, which runs on when the task is cancelled.
-/
structure LeadsOn (world next : World Changes (Pc body))
    (action : Action (Pc body) Reply (ApprovalId × Callable)) : Prop where
  approved : ∀ task id entry now,
    world.tasks task = some (.other (.approveEntering id)) →
    Row world.shared.inbox.queue.objects id entry →
    entry.tool = "agent_skill_put" → action = .resume task (.turn now) →
    ∃ executor, next.tasks task =
      some (.other (.approveEmitting id (some executor)))
  begun : ∀ task id executor reply,
    world.tasks task = some (.other (.approveEmitting id (some executor))) →
    action = .resume task reply →
    next.tasks task = some (.writing id executor)
  detached : ∀ task id executor,
    world.tasks task = some (.writing id executor) →
    action = .cancel task → (id, executor) ∈ next.shared.threads
  lasting : ∀ thread ∈ world.shared.threads, action ≠ .occur thread →
    thread ∈ next.shared.threads

/-- A task about to approve a pending put row writes it in three turns. -/
def ApprovalWrites (python : Python) (hashes : Hashes)
    (world : World Changes (Pc body)) : Prop :=
  ∀ task id entry now,
    world.tasks task = some (.other (.approveEntering id)) →
    Row world.shared.inbox.queue.objects id entry →
    entry.tool = "agent_skill_put" →
    ∃ (push : Push) (client : String) (final : World Changes (Pc body)),
      Run (program python hashes).step Anything world
        [.resume task (.turn now), .resume task (.turn now),
          .resume task (.turn now)] final ∧
      entry.args = push.card hashes client ∧
      final.shared.dropin =
        update world.shared.dropin push.name (some push.folder)

theorem approve_row {inbox : Inbox} {id : ApprovalId}
    {entry : ApprovalEntry} (valid : Valid python inbox)
    (waits : Row inbox.queue.objects id entry) (task : TaskId)
    (now : Time) :
    ∃ executor queue later, entry.executor = some executor ∧
      queue.objects id = some later ∧
      Mcp.resume python inbox task (.approveEntering id) (.turn now) =
        some (⟨queue, inbox.log ++ [.decided task id .approve]⟩,
          some (.approveEmitting id (some executor))) := by
  obtain ⟨found, pending⟩ := waits
  obtain ⟨executor, binds⟩ := valid.ready id entry found pending
  have asked : inbox.queue.undecided id = .ok entry := by
    simp only [ApprovalQueue.undecided,
      valid.sound.get_of_pending found pending, pending, if_true]
  refine ⟨executor, (inbox.queue.write id fun entry =>
      { entry with state := .approved, decidedAt := some now }).popDedup
        (entry.dedupKey python),
    { entry with state := .approved, decidedAt := some now }, binds, ?_, ?_⟩
  · simp [ApprovalQueue.popDedup, ApprovalQueue.write_objects, found]
  · simp only [Mcp.resume, ApprovalQueue.approve, asked, Except.map, binds]

/-- No task starts a thread by itself. -/
theorem threads_of_resume {reply : Reply} {next : Option (Pc body)}
    (resumed : resume python hashes state task pc reply =
      some (after, next)) : after.threads = state.threads := by
  unfold resume at resumed
  split at resumed
  · split at resumed <;> cases resumed <;> rfl
  · obtain ⟨turn, -, same⟩ := Option.map_eq_some_iff.1 resumed
    cases same
    rfl
  · obtain ⟨turn, -, same⟩ := Option.map_eq_some_iff.1 resumed
    cases same
    rfl
  · cases resumed
    rfl
  · obtain ⟨turn, -, same⟩ := Option.map_eq_some_iff.1 resumed
    cases same
    rfl
  · obtain ⟨turn, -, same⟩ := Option.map_eq_some_iff.1 resumed
    cases same
    rfl
  · cases resumed

/-- An approved row goes on to its writing. -/
theorem leadsOn_of_step {world next : World Changes (Pc body)}
    {action : Action (Pc body) Reply (ApprovalId × Callable)}
    (valid : Valid python world.shared.inbox)
    (moved : (program python hashes).step world action = some next) :
    LeadsOn world next action where
  approved := by
    rintro task id entry now suspended waits - rfl
    obtain ⟨executor, queue, later, -, -, resumed⟩ :=
      approve_row valid waits task now
    simp only [Program.step, suspended, program, resume, resumed,
      Option.map_some, Option.some.injEq] at moved
    rw [← moved, World.put_tasks, if_pos rfl]
    exact ⟨executor, rfl⟩
  begun := by
    rintro task id executor reply suspended rfl
    simp only [Program.step, suspended, program, resume, Option.map_map,
      Option.map_eq_some_iff] at moved
    obtain ⟨⟨inbox, counter⟩, resumed, rfl⟩ := moved
    cases reply <;> try cases resumed
    obtain ⟨entry, -, same⟩ := Option.map_eq_some_iff.1 resumed
    cases same
    rw [Function.comp_apply, World.put_tasks, if_pos rfl]
    rfl
  detached := by
    rintro task id executor suspended rfl
    simp only [Program.step, suspended, program, Option.map_some,
      Option.some.injEq] at moved
    rw [← moved]
    exact mem_cons_self
  lasting := by
    intro thread isIn other
    cases Program.moves_of_step moved with
    | start unused started =>
      obtain ⟨-, same⟩ := Option.ite_none_right_eq_some.1 started
      rw [World.put_shared, ← Option.some.inj same]
      exact isIn
    | @resume task pc reply shared after suspended resumed =>
      rw [World.put_shared, threads_of_resume resumed]
      exact isIn
    | @cancel task pc shared suspended cancelled =>
      rw [World.put_shared, ← Option.some.inj cancelled]
      cases pc with
      | writing id executor => exact mem_cons_of_mem _ isIn
      | _ => exact isIn
    | @occur event shared occurred =>
      obtain ⟨-, same⟩ := Option.ite_none_right_eq_some.1 occurred
      rw [← Option.some.inj same]
      refine (mem_erase_of_ne ?_).2 isIn
      rintro rfl
      exact other rfl

/-- What is approved is what is written. -/
theorem approvalWrites {world : World Changes (Pc body)}
    (good : Good python hashes body world.shared) :
    ApprovalWrites python hashes world := by
  intro task id entry now suspended waits tool
  obtain ⟨executor, queue, later, binds, present, approves⟩ :=
    approve_row good.gated.valid waits task now
  obtain ⟨change, client, asks⟩ :=
    good.gated.asked id entry waits.1 (by simp [tool, skillTools])
  have does := asks.executor executor binds
  cases change with
  | delete name => simp [asks.tool, Change.tool] at tool
  | put push =>
    let approved := world.put task
      { world.shared with
        inbox := ⟨queue, world.shared.inbox.log ++
          [.decided task id .approve]⟩ }
      (some (.other (.approveEmitting id (some executor))))
    let begun := approved.put task
      { approved.shared with
        inbox := ⟨queue.write id ApprovalEntry.release,
          approved.shared.inbox.log ++
            [.executed task id executor later.args]⟩ }
      (some (.writing id executor))
    let written := begun.put task
      { begun.shared with
        dropin := Change.write world.shared.dropin (.put push) }
      (some (.other (.executing id)))
    have first : (program python hashes).step world
        (.resume task (.turn now)) = some approved := by
      simp only [Program.step, suspended, program, resume, approves,
        Option.map_some]
      rfl
    have second : (program python hashes).step approved
        (.resume task (.turn now)) = some begun := by
      simp only [Program.step, approved, World.put_tasks, if_true, program,
        resume, Mcp.resume, World.put_shared, present, Option.map_some]
      rfl
    have third : (program python hashes).step begun
        (.resume task (.turn now)) = some written := by
      simp only [Program.step, begun, World.put_tasks, if_true, program,
        resume, World.put_shared, does, Option.elim_some, Option.map_some]
      rfl
    exact ⟨push, client, written, .cons trivial first
      (.cons trivial second (.cons trivial third (.nil _))), asks.args, rfl⟩

/-- A pending skill has one content. -/
theorem Good.oneContent (injective : Injective hashes.push)
    (good : Good python hashes body state) :
    OneContent state.inbox.queue.objects where
  same := good.gated.same
  capped := good.gated.capped
  once := by
    intro id entry other later waits laterWaits tool laterTool names clients
    have shas := good.gated.same id entry other later waits laterWaits tool
      laterTool names
    obtain ⟨change, client, asks⟩ :=
      good.gated.asked id entry waits.1 (by simp [tool, skillTools])
    obtain ⟨change', client', asks'⟩ :=
      good.gated.asked other later laterWaits.1
        (by simp [laterTool, skillTools])
    rw [asks.clientId, asks'.clientId] at clients
    obtain rfl := (String.append_right_inj _).1 clients
    rw [asks.args, asks'.args] at names shas
    have tools := asks.tool.symm.trans (tool.trans laterTool.symm)
    rw [asks'.tool] at tools
    have isPut := asks.tool.symm.trans tool
    have same : change = change' := by
      cases change with
      | delete name => simp [Change.tool] at isPut
      | put push =>
        cases change' with
        | delete name => simp [Change.tool] at tools
        | put push' =>
          rw [args_name, args_name] at names
          exact congrArg _ (push_eq injective (Json.str.inj names)
            (Json.str.inj shas))
    subst same
    have index := good.gated.valid.sound.index
    have keyed := (index _ id).2 ⟨entry, waits.1, waits.2, rfl⟩
    have laterKeyed :=
      (index _ other).2 ⟨later, laterWaits.1, laterWaits.2, rfl⟩
    rw [ApprovalEntry.dedupKey, asks.tool, asks.args] at keyed
    rw [ApprovalEntry.dedupKey, asks'.tool, asks'.args] at laterKeyed
    exact Option.some.inj (keyed.symm.trans laterKeyed)

/-- One content of a skill is up for approval, and its approval writes it. -/
theorem one_content_per_skill (python : Python)
    (injective : Injective hashes.push) (dropin : String → Option Folder)
    {actions : List (Action (Pc body) Reply (ApprovalId × Callable))}
    {world : World Changes (Pc body)}
    (run : Run (program python hashes).step Anything
      (World.quiet ⟨.empty, none, dropin, []⟩) actions world) :
    OneContent world.shared.inbox.queue.objects ∧
      ApprovalWrites python hashes world ∧
      ∀ action next, (program python hashes).step world action = some next →
        Orderly hashes world next action ∧ LeadsOn world next action := by
  have safe : Safe (Good python hashes body) (Relies hashes) world := by
    refine Safe.run (.quiet ⟨⟨.empty _, ?_, ?_, ?_⟩,
        fun _ isIn => by cases isIn⟩)
      (keeps injective) run
    · intro id entry found
      cases found
    · rintro id entry other later ⟨found, -⟩
      cases found
    · intro client ids nodup all
      cases ids with
      | nil => exact Nat.zero_le _
      | cons id ids =>
        obtain ⟨entry, ⟨found, -⟩, -⟩ := all id mem_cons_self
        cases found
  refine ⟨safe.state.oneContent injective, approvalWrites safe.state,
    fun action next moved =>
      ⟨?_, leadsOn_of_step safe.state.gated.valid moved⟩⟩
  constructor
  · intro task pc call isTask suspended isCall id entry waits gone
    cases Program.moves_of_step moved with
    | start unused started =>
      cases isTask
      rw [unused] at suspended
      cases suspended
    | resume at_ resumed =>
      cases isTask
      rw [at_] at suspended
      cases suspended
      exact own_row safe.state (safe.task _ _ at_) isCall resumed waits gone
    | cancel at_ cancelled =>
      cases isTask
      obtain rfl := Option.some.inj cancelled
      rw [at_] at suspended
      cases suspended
      cases pc <;> exact absurd waits (gone entry)
    | occur occurred => cases isTask
  · intro id executor writes entry found tool
    have row : Bound hashes body world.shared.inbox.queue.objects
          (id, executor) ∧ next.shared.dropin =
        (body executor).elim world.shared.dropin
          (Change.write world.shared.dropin) := by
      rcases writes with ⟨task, now, at_, rfl⟩ | rfl
      · rw [Program.step, at_] at moved
        cases moved
        exact ⟨(safe.task task _ at_).bound _ rfl, rfl⟩
      · obtain ⟨shared, occurred, rfl⟩ := Option.map_eq_some_iff.1 moved
        obtain ⟨isIn, same⟩ := Option.ite_none_right_eq_some.1 occurred
        obtain rfl := Option.some.inj same
        exact ⟨safe.state.threads _ isIn, rfl⟩
    obtain ⟨⟨other, present, asked⟩, written⟩ := row
    obtain rfl := Option.some.inj (present.symm.trans found)
    obtain ⟨change, client, asks, does⟩ :=
      asked (by simp [tool, skillTools])
    rw [does] at written
    cases change with
    | delete name => simp [asks.tool, Change.tool] at tool
    | put push => exact ⟨push, client, asks.args, written⟩

/-- A push of one skill without files. -/
def plainPush : Push where
  name := "notes"
  skillMd := "# Notes"
  files := []
  sorted := .nil
  apart _ isIn := by cases isIn
  readable := ⟨by decide, fun _ isIn => by cases isIn⟩

/-- Every executor writes the plain push. -/
def plainBody : Callable → Option Change :=
  fun _ => some (.put plainPush)

def plainHashes : Hashes := ⟨String.ofList, id⟩

/-- A push is approved. -/
def approvedPush : List (Action (Pc plainBody) Reply (ApprovalId × Callable)) :=
  [.start 0 (.gating ⟨"phone", .put plainPush, 0, rfl⟩),
    .resume 0 (.turn 0), .resume 0 (.turn 0), .resume 0 (.turn 0),
    .start 1 (.other (.approveEntering 0)), .resume 1 (.turn 1),
    .resume 1 (.turn 1), .resume 1 (.turn 1)]

/-- A push is queued, approved and written. -/
theorem approved_push_written :
    ∃ world : World Changes (Pc plainBody),
      Run (@program plainBody plainPython plainHashes).step Anything
        (World.quiet ⟨.empty, none, fun _ => none, []⟩) approvedPush world ∧
      world.shared.dropin "notes" = some plainPush.folder ∧
        OneContent world.shared.inbox.queue.objects := by
  obtain ⟨world, run, passed⟩ :=
    Run.exists_of_exec (@program plainBody plainPython plainHashes).step
      Anything (World.quiet ⟨.empty, none, fun _ => none, []⟩) approvedPush
      (fun world => decide
        (world.shared.dropin "notes" = some plainPush.folder))
      (by decide +kernel)
  have injective : Injective plainHashes.push :=
    fun _ _ => String.ofList_injective
  exact ⟨world, run, of_decide_eq_true passed,
    (one_content_per_skill _ injective _ run).1⟩

end Hal0.SkillChanges
