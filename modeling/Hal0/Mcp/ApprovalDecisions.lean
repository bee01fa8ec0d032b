import Hal0.Mcp.ApprovalIndex

/-!
# Decisions on approvals are exclusive

`Recorded` relates the queue to what has happened: an entry is pending as
long as no decision is recorded for it, at most one decision ever is, and
executors and denial hooks run for their decision only.  `Entitled` says what
a suspended call relies on: the decision of its entry is its own.
-/

namespace Hal0.Mcp

open List Option
open Hal0.Transition Hal0.Tasks

/-! ## What the log says of an entry -/

/-- The decisions taken on `id`, and by which calls. -/
def decisions (log : List Event) (id : ApprovalId) :
    List (TaskId × Decision) :=
  log.filterMap fun
    | .decided task other decision =>
      if other = id then some (task, decision) else none
    | _ => none

/-- The runs of the executor of `id`, with the arguments passed. -/
def executions (log : List Event) (id : ApprovalId) :
    List (TaskId × Callable × Args) :=
  log.filterMap fun
    | .executed task other executor args =>
      if other = id then some (task, executor, args) else none
    | _ => none

/-- The runs of the denial hook of `id`, with the arguments passed. -/
def denials (log : List Event) (id : ApprovalId) :
    List (TaskId × Callable × Args) :=
  log.filterMap fun
    | .denialHeard task other hook args =>
      if other = id then some (task, hook, args) else none
    | _ => none

/-- The request that the event queues under the id. -/
def Event.brings (id : ApprovalId) : Event → Option Request
  | .queued _ other request => if other = id then some request else none
  | _ => none

/-- The call which created the entry `id`: the first to be told of it. -/
def binding (log : List Event) (id : ApprovalId) : Option Request :=
  log.findSome? (Event.brings id)

/-- The event decides nothing. -/
def Event.isQuiet : Event → Bool
  | .queued _ _ _ | .raised _ _ | .returnedNone _ _ => true
  | _ => false

theorem answer_isQuiet (task : TaskId) (id : ApprovalId) (refusal : Refusal)
    (decision : Decision) :
    (decision.answer task id refusal).isQuiet = true := by
  cases decision <;> rfl

section

variable (log : List Event) (id other : ApprovalId) (task : TaskId)
  (callable : Callable) (args : Args) (decision : Decision) {event : Event}

theorem decisions_quiet (quiet : event.isQuiet = true) :
    decisions (log ++ [event]) id = decisions log id := by
  cases event <;> simp_all [decisions, Event.isQuiet]

theorem executions_quiet (quiet : event.isQuiet = true) :
    executions (log ++ [event]) id = executions log id := by
  cases event <;> simp_all [executions, Event.isQuiet]

theorem denials_quiet (quiet : event.isQuiet = true) :
    denials (log ++ [event]) id = denials log id := by
  cases event <;> simp_all [denials, Event.isQuiet]

theorem decisions_decided :
    decisions (log ++ [.decided task other decision]) id =
      if other = id then decisions log id ++ [(task, decision)]
      else decisions log id := by
  split_ifs with same <;> simp [decisions, same]

@[simp]
theorem executions_decided :
    executions (log ++ [.decided task other decision]) id =
      executions log id := by
  simp [executions]

@[simp]
theorem denials_decided :
    denials (log ++ [.decided task other decision]) id =
      denials log id := by
  simp [denials]

@[simp]
theorem decisions_executed :
    decisions (log ++ [.executed task other callable args]) id =
      decisions log id := by
  simp [decisions]

theorem executions_executed :
    executions (log ++ [.executed task other callable args]) id =
      if other = id then executions log id ++ [(task, callable, args)]
      else executions log id := by
  split_ifs with same <;> simp [executions, same]

@[simp]
theorem denials_executed :
    denials (log ++ [.executed task other callable args]) id =
      denials log id := by
  simp [denials]

@[simp]
theorem decisions_heard :
    decisions (log ++ [.denialHeard task other callable args]) id =
      decisions log id := by
  simp [decisions]

@[simp]
theorem executions_heard :
    executions (log ++ [.denialHeard task other callable args]) id =
      executions log id := by
  simp [executions]

theorem denials_heard :
    denials (log ++ [.denialHeard task other callable args]) id =
      if other = id then denials log id ++ [(task, callable, args)]
      else denials log id := by
  split_ifs with same <;> simp [denials, same]

@[simp]
theorem binding_append (event : Event) :
    binding (log ++ [event]) id = (binding log id).or (event.brings id) := by
  simp [binding, findSome?_append]

theorem binding_of_binding (event : Event) {request : Request}
    (bound : binding log id = some request) :
    binding (log ++ [event]) id = some request := by
  rw [binding_append, bound, some_or]

end

/-- The queue is in the state which the log tells. -/
structure Recorded (inbox : Inbox) : Prop where
  undecided : ∀ id entry, inbox.queue.objects id = some entry →
    (entry.state = .pending ↔ decisions inbox.log id = [])
  once : ∀ id, (decisions inbox.log id).length ≤ 1
  created : ∀ id, inbox.queue.objects id = none →
    decisions inbox.log id = []
  executed : ∀ id run, run ∈ executions inbox.log id →
    decisions inbox.log id = [(run.1, .approve)] ∧
    executions inbox.log id = [run] ∧
    ∃ entry, inbox.queue.objects id = some entry ∧ entry.args = run.2.2
  heard : ∀ id run, run ∈ denials inbox.log id →
    decisions inbox.log id = [(run.1, .deny)] ∧
    denials inbox.log id = [run] ∧
    ∃ entry, inbox.queue.objects id = some entry ∧ entry.args = run.2.2

/-- The entry shows the call of `request` and binds its callables alone. -/
structure ApprovalEntry.Of (entry : ApprovalEntry) (request : Request) :
    Prop where
  args : entry.args = request.args
  executor : ∀ callable, entry.executor = some callable →
    request.executor = callable
  onDeny : ∀ callable, entry.onDeny = some callable →
    request.onDeny = some callable

/-- A later row is of the same request. -/
theorem ApprovalEntry.Within.of {later entry : ApprovalEntry}
    {request : Request} (within : later.Within entry)
    (shown : entry.Of request) : later.Of request where
  args := within.args.trans shown.args
  executor := by
    intro callable binds
    rcases within.executor with released | kept
    · rw [released] at binds
      cases binds
    · exact shown.executor callable (kept.symm.trans binds)
  onDeny := by
    intro callable binds
    rcases within.onDeny with released | kept
    · rw [released] at binds
      cases binds
    · exact shown.onDeny callable (kept.symm.trans binds)

/-- Callables are bound and run as the call brought them which created the
entry. -/
structure Bindings (inbox : Inbox) : Prop where
  unqueued : ∀ id, inbox.queue.objects id = none →
    binding inbox.log id = none
  bound : ∀ id entry, inbox.queue.objects id = some entry →
    ∃ request, binding inbox.log id = some request ∧ entry.Of request
  executed : ∀ id run, run ∈ executions inbox.log id →
    ∃ request, binding inbox.log id = some request ∧
      request.executor = run.2.1
  heard : ∀ id run, run ∈ denials inbox.log id →
    ∃ request, binding inbox.log id = some request ∧
      request.onDeny = some run.2.1

/--
What a suspended call relies on: the decision on its entry is its own, and
what it is about to run was bound to the entry.
-/
def Entitled (inbox : Inbox) (task : TaskId) : Pc → Prop
  | .approveEmitting id executor =>
    decisions inbox.log id = [(task, .approve)] ∧
      executions inbox.log id = [] ∧
      ∀ callable, executor = some callable →
        ∃ request, binding inbox.log id = some request ∧
          request.executor = callable
  | .executing id => decisions inbox.log id = [(task, .approve)]
  | .denyEmitting id hook =>
    decisions inbox.log id = [(task, .deny)] ∧ denials inbox.log id = [] ∧
      ∀ callable, hook = some callable →
        ∃ request, binding inbox.log id = some request ∧
          request.onDeny = some callable
  | _ => True

/-! ## One turn keeps the record -/

/-- Every entry is still there and shows the same call. -/
def Shows (before after : ApprovalQueue) : Prop :=
  ∀ id entry, before.objects id = some entry →
    ∃ later, after.objects id = some later ∧ later.Within entry

theorem Shows.refl (queue : ApprovalQueue) : Shows queue queue :=
  fun _ entry found => ⟨entry, found, .refl entry⟩

variable {python : Python}

theorem Shows.create {queue : ApprovalQueue} (sound : queue.Sound python)
    (request : Request) (now : Time) :
    Shows queue (queue.create python request now).1 := by
  intro id entry found
  refine ⟨entry, ?_, .refl entry⟩
  simp only [ApprovalQueue.create, Function.update_apply]
  rw [if_neg, found]
  rintro rfl
  rw [sound.unminted] at found
  cases found

theorem amends_hit : Amends ApprovalEntry.hit :=
  fun _ => ⟨rfl, rfl, .inr rfl, .inr rfl⟩

theorem amends_release : Amends ApprovalEntry.release :=
  fun _ => ⟨rfl, rfl, .inl rfl, .inl rfl⟩

theorem Amends.shows {change : ApprovalEntry → ApprovalEntry}
    (amends : Amends change) (queue : ApprovalQueue) (id : ApprovalId) :
    Shows queue (queue.write id change) := by
  intro other entry found
  rw [ApprovalQueue.write_objects, found]
  split_ifs
  · exact ⟨change entry, rfl, amends entry⟩
  · exact ⟨entry, rfl, .refl entry⟩

namespace Recorded

variable {inbox after : Inbox}

theorem empty : Recorded Inbox.empty where
  undecided := nofun
  once := fun _ => Nat.zero_le 1
  created := fun _ _ => rfl
  executed := nofun
  heard := nofun

/-- A step which decides nothing. -/
theorem keep (recorded : Recorded inbox)
    (shows_ : Shows inbox.queue after.queue)
    (pending : ∀ id later, after.queue.objects id = some later →
      (later.state = .pending ↔ decisions inbox.log id = []))
    (decided : ∀ id, decisions after.log id = decisions inbox.log id)
    (executed : ∀ id run, run ∈ executions after.log id →
      decisions inbox.log id = [(run.1, .approve)] ∧
      executions after.log id = [run] ∧
      ∃ entry, inbox.queue.objects id = some entry ∧ entry.args = run.2.2)
    (heard : ∀ id run, run ∈ denials after.log id →
      decisions inbox.log id = [(run.1, .deny)] ∧
      denials after.log id = [run] ∧
      ∃ entry, inbox.queue.objects id = some entry ∧ entry.args = run.2.2) :
    Recorded after where
  undecided := by
    intro id later found
    rw [decided]
    exact pending id later found
  once := by
    intro id
    rw [decided]
    exact recorded.once id
  created := by
    intro id missing
    rw [decided]
    apply recorded.created id
    cases found : inbox.queue.objects id with
    | none => rfl
    | some entry =>
      obtain ⟨later, present, -⟩ := shows_ id entry found
      rw [missing] at present
      cases present
  executed := by
    intro id run ran
    obtain ⟨approved, only, entry, found, args⟩ := executed id run ran
    obtain ⟨later, present, within⟩ := shows_ id entry found
    exact ⟨(decided id).trans approved, only, later, present,
      within.args.trans args⟩
  heard := by
    intro id run ran
    obtain ⟨denied, only, entry, found, args⟩ := heard id run ran
    obtain ⟨later, present, within⟩ := shows_ id entry found
    exact ⟨(decided id).trans denied, only, later, present,
      within.args.trans args⟩

variable {id : ApprovalId}

theorem write (recorded : Recorded inbox)
    {change : ApprovalEntry → ApprovalEntry} (amends : Amends change)
    (pending : ∀ entry, inbox.queue.objects id = some entry →
      ((change entry).state = .pending ↔ entry.state = .pending)) :
    Recorded { inbox with queue := inbox.queue.write id change } := by
  refine recorded.keep (amends.shows inbox.queue id) ?_ (fun _ => rfl)
    recorded.executed recorded.heard
  intro other later found
  simp only [ApprovalQueue.write_objects] at found
  split_ifs at found with same
  · subst same
    obtain ⟨entry, present, rfl⟩ := map_eq_some_iff.1 found
    rw [pending entry present]
    exact recorded.undecided other entry present
  · exact recorded.undecided other later found

theorem quiet (recorded : Recorded inbox) {event : Event}
    (quiet : event.isQuiet = true) :
    Recorded { inbox with log := inbox.log ++ [event] } := by
  refine recorded.keep (.refl _) recorded.undecided
    (fun id => decisions_quiet _ id quiet) ?_ ?_
  · intro id run ran
    simp only [executions_quiet _ id quiet] at ran ⊢
    exact recorded.executed id run ran
  · intro id run ran
    simp only [denials_quiet _ id quiet] at ran ⊢
    exact recorded.heard id run ran

theorem prune (recorded : Recorded inbox) :
    Recorded { inbox with queue := inbox.queue.pruneResolved } :=
  ⟨recorded.undecided, recorded.once, recorded.created, recorded.executed,
    recorded.heard⟩

theorem create (recorded : Recorded inbox) {python : Python}
    (sound : inbox.queue.Sound python) (request : Request) (now : Time) :
    Recorded
      { inbox with queue := (inbox.queue.create python request now).1 } := by
  refine recorded.keep (.create sound request now) ?_ (fun _ => rfl)
    recorded.executed recorded.heard
  intro id later found
  simp only [ApprovalQueue.create, Function.update_apply] at found
  split_ifs at found with same
  · obtain rfl := some.inj found
    rw [same]
    exact iff_of_true rfl (recorded.created _ sound.unminted)
  · exact recorded.undecided id later found

variable {entry : ApprovalEntry}

/-- A step which decides a pending row. -/
theorem settle (recorded : Recorded inbox)
    {change : ApprovalEntry → ApprovalEntry} (key : String × String)
    (task : TaskId) (decision : Decision)
    (found : inbox.queue.objects id = some entry)
    (pending : entry.state = .pending) (amends : Amends change)
    (decides : (change entry).state ≠ .pending) :
    Recorded
      ⟨(inbox.queue.write id change).popDedup key,
        inbox.log ++ [.decided task id decision]⟩ := by
  have first : decisions inbox.log id = [] :=
    (recorded.undecided id entry found).1 pending
  have shows_ : Shows inbox.queue
      ((inbox.queue.write id change).popDedup key) :=
    amends.shows inbox.queue id
  constructor
  · intro other later present
    simp only [ApprovalQueue.popDedup, ApprovalQueue.write_objects,
      decisions_decided] at present ⊢
    split_ifs at present with same
    · subst same
      rw [found] at present
      obtain rfl := some.inj present
      simp [decides]
    · rw [if_neg (Ne.symm same)]
      exact recorded.undecided other later present
  · intro other
    simp only [decisions_decided]
    split_ifs with same
    · subst same
      simp [first]
    · exact recorded.once other
  · intro other missing
    simp only [decisions_decided]
    cases known : inbox.queue.objects other with
    | none =>
      rw [if_neg]
      · exact recorded.created other known
      · rintro rfl
        rw [found] at known
        cases known
    | some earlier =>
      obtain ⟨later, present, -⟩ := shows_ other earlier known
      rw [missing] at present
      cases present
  · intro other run ran
    simp only [executions_decided, decisions_decided] at ran ⊢
    obtain ⟨approved, only, earlier, known, args⟩ :=
      recorded.executed other run ran
    obtain ⟨later, present, within⟩ := shows_ other earlier known
    rw [if_neg]
    · exact ⟨approved, only, later, present, within.args.trans args⟩
    · rintro rfl
      rw [first] at approved
      cases approved
  · intro other run ran
    simp only [denials_decided, decisions_decided] at ran ⊢
    obtain ⟨denied, only, earlier, known, args⟩ :=
      recorded.heard other run ran
    obtain ⟨later, present, within⟩ := shows_ other earlier known
    rw [if_neg]
    · exact ⟨denied, only, later, present, within.args.trans args⟩
    · rintro rfl
      rw [first] at denied
      cases denied

/-- The executor of an approved row is called. -/
theorem execute (recorded : Recorded inbox) {task : TaskId}
    (executor : Callable) (found : inbox.queue.objects id = some entry)
    (approved : decisions inbox.log id = [(task, .approve)])
    (unused : executions inbox.log id = []) :
    Recorded
      { inbox with
        log := inbox.log ++ [.executed task id executor entry.args] } := by
  refine recorded.keep (.refl _) recorded.undecided
    (fun other => decisions_executed ..) ?_ ?_
  · intro other run ran
    simp only [executions_executed] at ran ⊢
    split_ifs at ran ⊢ with same
    · subst same
      rw [unused, nil_append, mem_singleton] at ran
      subst ran
      exact ⟨approved, by rw [unused]; rfl, entry, found, rfl⟩
    · exact recorded.executed other run ran
  · intro other run ran
    simp only [denials_executed] at ran ⊢
    exact recorded.heard other run ran

/-- The callback of a denied row is called. -/
theorem hear (recorded : Recorded inbox) {task : TaskId} (hook : Callable)
    (found : inbox.queue.objects id = some entry)
    (denied : decisions inbox.log id = [(task, .deny)])
    (unused : denials inbox.log id = []) :
    Recorded
      { inbox with
        log := inbox.log ++ [.denialHeard task id hook entry.args] } := by
  refine recorded.keep (.refl _) recorded.undecided
    (fun other => decisions_heard ..) ?_ ?_
  · intro other run ran
    simp only [executions_heard] at ran ⊢
    exact recorded.executed other run ran
  · intro other run ran
    simp only [denials_heard] at ran ⊢
    split_ifs at ran ⊢ with same
    · subst same
      rw [unused, nil_append, mem_singleton] at ran
      subst ran
      exact ⟨denied, by rw [unused]; rfl, entry, found, rfl⟩
    · exact recorded.heard other run ran

end Recorded

namespace Bindings

variable {inbox : Inbox} {id : ApprovalId} {entry : ApprovalEntry}

theorem empty : Bindings Inbox.empty :=
  ⟨fun _ _ => rfl, nofun, nofun, nofun⟩

theorem write (bindings : Bindings inbox)
    {change : ApprovalEntry → ApprovalEntry} (amends : Amends change) :
    Bindings { inbox with queue := inbox.queue.write id change } where
  unqueued := by
    intro other missing
    apply bindings.unqueued other
    rw [ApprovalQueue.write_objects] at missing
    split_ifs at missing with same
    · exact map_eq_none_iff.1 missing
    · exact missing
  bound := by
    intro other later found
    rw [ApprovalQueue.write_objects] at found
    split_ifs at found with same
    · subst same
      obtain ⟨entry, present, rfl⟩ := map_eq_some_iff.1 found
      obtain ⟨request, bound, shown⟩ := bindings.bound other entry present
      exact ⟨request, bound, (amends entry).of shown⟩
    · exact bindings.bound other later found
  executed := bindings.executed
  heard := bindings.heard

/-- The queue lists fewer entries or has fewer keys indexed. -/
theorem drop (bindings : Bindings inbox) {queue : ApprovalQueue}
    (same : queue.objects = inbox.queue.objects) :
    Bindings { inbox with queue := queue } where
  unqueued := by
    intro other missing
    exact bindings.unqueued other (by rwa [← same])
  bound := by
    intro other later found
    exact bindings.bound other later (by rwa [← same])
  executed := bindings.executed
  heard := bindings.heard

/-- An event which creates no entry, with the run which it tells of. -/
theorem tell (bindings : Bindings inbox) {event : Event}
    (brings : ∀ other, inbox.queue.objects other = none →
      event.brings other = none)
    (executed : ∀ other run,
      run ∈ executions (inbox.log ++ [event]) other →
      run ∈ executions inbox.log other ∨
        ∃ request, binding inbox.log other = some request ∧
          request.executor = run.2.1)
    (heard : ∀ other run, run ∈ denials (inbox.log ++ [event]) other →
      run ∈ denials inbox.log other ∨
        ∃ request, binding inbox.log other = some request ∧
          request.onDeny = some run.2.1) :
    Bindings { inbox with log := inbox.log ++ [event] } where
  unqueued := by
    intro other missing
    rw [binding_append, bindings.unqueued other missing, none_or]
    exact brings other missing
  bound := by
    intro other later found
    obtain ⟨request, bound, shown⟩ := bindings.bound other later found
    exact ⟨request, binding_of_binding _ _ event bound, shown⟩
  executed := by
    intro other run ran
    obtain ⟨request, bound, same⟩ :=
      (executed other run ran).elim (bindings.executed other run) id
    exact ⟨request, binding_of_binding _ _ event bound, same⟩
  heard := by
    intro other run ran
    obtain ⟨request, bound, same⟩ :=
      (heard other run ran).elim (bindings.heard other run) id
    exact ⟨request, binding_of_binding _ _ event bound, same⟩

theorem quiet (bindings : Bindings inbox) {event : Event}
    (quiet : event.isQuiet = true)
    (brings : ∀ other, inbox.queue.objects other = none →
      event.brings other = none) :
    Bindings { inbox with log := inbox.log ++ [event] } := by
  refine bindings.tell brings ?_ ?_
  · intro other run ran
    left
    rwa [executions_quiet _ _ quiet] at ran
  · intro other run ran
    left
    rwa [denials_quiet _ _ quiet] at ran

theorem decide (bindings : Bindings inbox) (task : TaskId)
    (decision : Decision) :
    Bindings
      { inbox with log := inbox.log ++ [.decided task id decision] } := by
  refine bindings.tell (fun _ _ => rfl) ?_ ?_
  · intro other run ran
    left
    rwa [executions_decided] at ran
  · intro other run ran
    left
    rwa [denials_decided] at ran

theorem execute (bindings : Bindings inbox) (task : TaskId)
    {executor : Callable}
    (brought : ∃ request, binding inbox.log id = some request ∧
      request.executor = executor) (args : Args) :
    Bindings
      { inbox with
        log := inbox.log ++ [.executed task id executor args] } := by
  refine bindings.tell (fun _ _ => rfl) ?_ ?_
  · intro other run ran
    rw [executions_executed] at ran
    split_ifs at ran with same
    · subst same
      rcases mem_append.1 ran with earlier | now
      · exact .inl earlier
      · obtain rfl := mem_singleton.1 now
        exact .inr brought
    · exact .inl ran
  · intro other run ran
    left
    rwa [denials_executed] at ran

theorem hear (bindings : Bindings inbox) (task : TaskId) {hook : Callable}
    (brought : ∃ request, binding inbox.log id = some request ∧
      request.onDeny = some hook) (args : Args) :
    Bindings
      { inbox with
        log := inbox.log ++ [.denialHeard task id hook args] } := by
  refine bindings.tell (fun _ _ => rfl) ?_ ?_
  · intro other run ran
    left
    rwa [executions_heard] at ran
  · intro other run ran
    rw [denials_heard] at ran
    split_ifs at ran with same
    · subst same
      rcases mem_append.1 ran with earlier | now
      · exact .inl earlier
      · obtain rfl := mem_singleton.1 now
        exact .inr brought
    · exact .inl ran

theorem create (bindings : Bindings inbox) {python : Python}
    (sound : inbox.queue.Sound python) (task : TaskId) (request : Request)
    (now : Time) :
    Bindings
      ⟨(inbox.queue.create python request now).1,
        inbox.log ++ [.queued task inbox.queue.minted request]⟩ where
  unqueued := by
    intro other missing
    simp only [ApprovalQueue.create, Function.update_apply] at missing
    split_ifs at missing with same
    rw [binding_append, bindings.unqueued other missing, none_or,
      Event.brings, if_neg (Ne.symm same)]
  bound := by
    intro other later found
    simp only [ApprovalQueue.create, Function.update_apply] at found
    split_ifs at found with same
    · subst same
      obtain rfl := some.inj found
      refine ⟨request, ?_, rfl, fun _ => some.inj, fun _ => id⟩
      rw [binding_append, bindings.unqueued _ sound.unminted, none_or,
        Event.brings, if_pos rfl]
    · obtain ⟨earlier, bound, shown⟩ := bindings.bound other later found
      exact ⟨earlier, binding_of_binding _ _ _ bound, shown⟩
  executed := by
    intro other run ran
    rw [executions_quiet _ _ rfl] at ran
    obtain ⟨earlier, bound, same⟩ := bindings.executed other run ran
    exact ⟨earlier, binding_of_binding _ _ _ bound, same⟩
  heard := by
    intro other run ran
    rw [denials_quiet _ _ rfl] at ran
    obtain ⟨earlier, bound, same⟩ := bindings.heard other run ran
    exact ⟨earlier, binding_of_binding _ _ _ bound, same⟩

theorem args_eq (bindings : Bindings inbox) {request : Request}
    (found : inbox.queue.objects id = some entry)
    (brought : binding inbox.log id = some request) :
    entry.args = request.args := by
  obtain ⟨other, bound, shown⟩ := bindings.bound id entry found
  rw [brought] at bound
  obtain rfl := some.inj bound
  exact shown.args

end Bindings

/-- Every pending entry has its executor bound. -/
def Ready (queue : ApprovalQueue) : Prop :=
  ∀ id entry, queue.objects id = some entry → entry.state = .pending →
    ∃ executor, entry.executor = some executor

theorem Ready.write {queue : ApprovalQueue} {id : ApprovalId}
    (ready : Ready queue) {change : ApprovalEntry → ApprovalEntry}
    (keeps : ∀ entry, queue.objects id = some entry →
      (change entry).state = .pending →
      entry.state = .pending ∧ (change entry).executor = entry.executor) :
    Ready (queue.write id change) := by
  intro other entry found pending
  rw [ApprovalQueue.write_objects] at found
  split_ifs at found with same
  · subst same
    obtain ⟨before, present, rfl⟩ := map_eq_some_iff.1 found
    obtain ⟨waits, kept⟩ := keeps before present pending
    rw [kept]
    exact ready other before present waits
  · exact ready other entry found pending

/-! ## Every run keeps it -/

/-- What holds of the inbox in every run. -/
structure Valid (python : Python) (inbox : Inbox) : Prop where
  sound : inbox.queue.Sound python
  recorded : Recorded inbox
  bindings : Bindings inbox
  ready : Ready inbox.queue

theorem Valid.empty (python : Python) : Valid python Inbox.empty :=
  ⟨.empty, .empty, .empty, nofun⟩

namespace Turn

variable {python : Python} {inbox after : Inbox} {task : TaskId} {pc : Pc}
  {next : Option Pc}

theorem outcome_ne_pending (decision : Decision) :
    decision.outcome ≠ .pending := by
  cases decision <;> decide

theorem approved_of_concludes {id : ApprovalId}
    (concluding : pc.concludes = some id)
    (entitled : Entitled inbox task pc) :
    decisions inbox.log id = [(task, .approve)] := by
  cases pc with
  | approveEmitting own executor =>
    cases executor with
    | none =>
      cases concluding
      exact entitled.1
    | some executor => cases concluding
  | executing own =>
    cases concluding
    exact entitled
  | _ => cases concluding

section

variable (turn : Turn python inbox task pc after next)
include turn

/-- A turn keeps the record. -/
theorem recorded (valid : Valid python inbox)
    (entitled : Entitled inbox task pc) :
    after.queue.Sound python ∧ Recorded after := by
  obtain ⟨sound, recorded, -, -⟩ := valid
  cases turn with
  | ended id => exact ⟨sound, recorded⟩
  | joined found pending keyed =>
    refine ⟨sound.write (fun _ _ => rfl) (fun _ _ => Iff.rfl)
      fun _ _ stays => stays, ?_⟩
    exact (recorded.quiet (by rfl)).write amends_hit fun _ _ => Iff.rfl
  | created now free =>
    exact ⟨sound.create _ now free,
      (recorded.create sound _ now).quiet rfl⟩
  | refused decision deciding nothing =>
    exact ⟨sound, recorded.quiet (answer_isQuiet ..)⟩
  | settled decision deciding found pending amends outcome =>
    have present := ApprovalQueue.objects_of_get found
    have decides := outcome_ne_pending decision
    rw [← outcome] at decides
    exact ⟨sound.settle present pending decides,
      recorded.settle _ task decision present pending amends decides⟩
  | called found =>
    refine ⟨sound.write (fun _ _ => rfl) (fun _ _ => Iff.rfl)
      fun _ _ stays => stays, ?_⟩
    exact (recorded.execute _ found entitled.1 entitled.2.1).write
      amends_release fun _ _ => Iff.rfl
  | heard found =>
    exact ⟨sound, recorded.hear _ found entitled.1 entitled.2.1⟩
  | @concluded pc id change concluding amends resolves =>
    have approved := approved_of_concludes concluding entitled
    have pending : ∀ entry, inbox.queue.objects id = some entry →
        ((change entry).state = .pending ↔ entry.state = .pending) := by
      intro entry found
      have resolved := resolves entry
      refine iff_of_false ?_ ?_
      · intro waits
        rw [waits] at resolved
        cases resolved
      · intro waits
        rw [(recorded.undecided id entry found).1 waits] at approved
        cases approved
    refine ⟨sound.write (fun entry _ => amends.dedupKey python entry)
      pending ?_, recorded.write amends pending⟩
    intro entry _ unresolved
    rw [resolves entry] at unresolved
    cases unresolved
  | annotated amends stays binds =>
    refine ⟨(sound.write (fun entry _ => amends.dedupKey python entry)
      ?_ ?_).prune, (recorded.write amends ?_).prune⟩
    · intro entry _
      rw [stays entry]
    · intro entry _ unresolved
      rwa [stays entry] at unresolved
    · intro entry _
      rw [stays entry]
  | pruned passive => exact ⟨sound.prune, recorded.prune⟩

/-- A turn keeps what was enqueued. -/
theorem bindings (valid : Valid python inbox)
    (entitled : Entitled inbox task pc) : Bindings after := by
  obtain ⟨sound, -, bindings, -⟩ := valid
  cases turn with
  | ended id => exact bindings
  | @joined request id entry found pending keyed =>
    refine (bindings.quiet rfl ?_).write amends_hit
    intro other missing
    rw [Event.brings, if_neg]
    rintro rfl
    rw [found] at missing
    cases missing
  | created now free => exact bindings.create sound task _ now
  | refused decision deciding nothing =>
    exact bindings.quiet (answer_isQuiet ..)
      fun _ _ => by cases decision <;> rfl
  | settled decision deciding found pending amends outcome =>
    exact ((bindings.decide task decision).write amends).drop rfl
  | called found =>
    exact (bindings.execute task (entitled.2.2 _ rfl) _).write amends_release
  | heard found => exact bindings.hear task (entitled.2.2 _ rfl) _
  | concluded concluding amends resolves => exact bindings.write amends
  | annotated amends stays binds => exact (bindings.write amends).drop rfl
  | pruned passive => exact bindings.drop rfl

/-- A turn keeps the rows ready. -/
theorem ready (valid : Valid python inbox)
    (entitled : Entitled inbox task pc) : Ready after.queue := by
  have ready := valid.ready
  cases turn with
  | ended id => exact ready
  | joined found pending keyed =>
    exact ready.write fun _ _ waits => ⟨waits, rfl⟩
  | created now free =>
    intro id entry found pending
    simp only [ApprovalQueue.create, Function.update_apply] at found
    split_ifs at found with same
    · obtain rfl := some.inj found
      exact ⟨_, rfl⟩
    · exact ready id entry found pending
  | refused decision deciding nothing => exact ready
  | @settled pc id entry change decision deciding found pending amends
      outcome =>
      refine Ready.write ready ?_
      intro before present waits
      have same := ApprovalQueue.objects_of_get found
      rw [present] at same
      obtain rfl := some.inj same
      rw [outcome] at waits
      exact absurd waits (outcome_ne_pending decision)
  | @called id executor entry found =>
    refine Ready.write ready ?_
    intro before present waits
    have approved := entitled.1
    rw [(valid.recorded.undecided id before present).1 waits] at approved
    cases approved
  | heard found => exact ready
  | concluded concluding amends resolves =>
    refine Ready.write ready ?_
    intro before present waits
    have resolved := resolves before
    rw [waits] at resolved
    cases resolved
  | annotated amends stays binds =>
    refine Ready.write ready ?_
    intro before present waits
    rw [stays before] at waits
    exact ⟨waits, binds before⟩
  | pruned passive => exact ready

theorem valid (valid : Valid python inbox)
    (entitled : Entitled inbox task pc) : Valid python after :=
  ⟨(turn.recorded valid entitled).1, (turn.recorded valid entitled).2,
    turn.bindings valid entitled, turn.ready valid entitled⟩

/-- A row stays bound to its first request. -/
theorem binding_kept {id : ApprovalId} {request : Request}
    (bound : binding inbox.log id = some request) :
    binding after.log id = some request := by
  have grows := fun event => binding_of_binding inbox.log id event bound
  cases turn with
  | ended own => exact bound
  | joined found pending keyed => exact grows _
  | created now free => exact grows _
  | refused decision deciding nothing => exact grows _
  | settled decision deciding found pending amends outcome => exact grows _
  | called found => exact grows _
  | heard found => exact grows _
  | concluded concluding amends resolves => exact bound
  | annotated amends stays binds => exact bound
  | pruned passive => exact bound

/-- The task has what it needs to go on. -/
theorem entitled (valid : Valid python inbox)
    (entitled : Entitled inbox task pc) {counter : Pc}
    (resumes : next = some counter) :
    Entitled after task counter := by
  cases turn with
  | ended id => cases resumes
  | joined found pending keyed => cases resumes
  | created now free =>
    cases resumes
    trivial
  | refused decision deciding nothing => cases resumes
  | @settled pc id entry change decision deciding found pending amends
      outcome =>
      cases resumes
      have present := ApprovalQueue.objects_of_get found
      have first : decisions inbox.log id = [] :=
        (valid.recorded.undecided id entry present).1 pending
      have mine : decisions (inbox.log ++ [.decided task id decision]) id =
          [(task, decision)] := by
        rw [decisions_decided, if_pos rfl, first, nil_append]
      obtain ⟨request, bound, shown⟩ := valid.bindings.bound id entry present
      have brought := binding_of_binding inbox.log id
        (.decided task id decision) bound
      cases decision with
      | approve =>
        refine ⟨mine, ?_, fun callable binds =>
          ⟨request, brought, shown.executor callable binds⟩⟩
        rw [executions_decided, eq_nil_iff_forall_not_mem]
        intro run ran
        have approved := (valid.recorded.executed id run ran).1
        rw [first] at approved
        cases approved
      | deny =>
        refine ⟨mine, ?_, fun callable binds =>
          ⟨request, brought, shown.onDeny callable binds⟩⟩
        rw [denials_decided, eq_nil_iff_forall_not_mem]
        intro run ran
        have denied := (valid.recorded.heard id run ran).1
        rw [first] at denied
        cases denied
      | withdraw => trivial
  | called found =>
    cases resumes
    exact (decisions_executed ..).trans entitled.1
  | heard found =>
    cases resumes
    trivial
  | concluded concluding amends resolves =>
    cases resumes
    trivial
  | annotated amends stays binds => cases resumes
  | pruned passive => cases resumes

theorem log_of_other (valid : Valid python inbox)
    (entitled : Entitled inbox task pc) {other : TaskId} {id : ApprovalId}
    {decision : Decision} (distinct : other ≠ task)
    (decided : decisions inbox.log id = [(other, decision)]) :
    decisions after.log id = decisions inbox.log id ∧
      executions after.log id = executions inbox.log id ∧
      denials after.log id = denials inbox.log id := by
  cases turn with
  | ended own => exact ⟨rfl, rfl, rfl⟩
  | joined found pending keyed =>
    exact ⟨decisions_quiet _ _ rfl, executions_quiet _ _ rfl,
      denials_quiet _ _ rfl⟩
  | created now free =>
    exact ⟨decisions_quiet _ _ rfl, executions_quiet _ _ rfl,
      denials_quiet _ _ rfl⟩
  | refused ours deciding nothing =>
    have quiet := answer_isQuiet task
    exact ⟨decisions_quiet _ _ (quiet ..), executions_quiet _ _ (quiet ..),
      denials_quiet _ _ (quiet ..)⟩
  | @settled pc own entry change ours deciding found pending amends
      outcome =>
      refine ⟨?_, executions_decided .., denials_decided ..⟩
      rw [decisions_decided, if_neg]
      rintro rfl
      rw [(valid.recorded.undecided own entry
        (ApprovalQueue.objects_of_get found)).1 pending] at decided
      cases decided
  | @called own executor entry found =>
    refine ⟨decisions_executed .., ?_, denials_executed ..⟩
    rw [executions_executed, if_neg]
    rintro rfl
    rw [entitled.1] at decided
    cases decided
    exact distinct rfl
  | @heard own hook entry found =>
    refine ⟨decisions_heard .., executions_heard .., ?_⟩
    rw [denials_heard, if_neg]
    rintro rfl
    rw [entitled.1] at decided
    cases decided
    exact distinct rfl
  | concluded concluding amends resolves => exact ⟨rfl, rfl, rfl⟩
  | annotated amends stays binds => exact ⟨rfl, rfl, rfl⟩
  | pruned passive => exact ⟨rfl, rfl, rfl⟩

/-- The other tasks keep what they need. -/
theorem undisturbed (valid : Valid python inbox)
    (entitled : Entitled inbox task pc) {other : TaskId} {otherPc : Pc}
    (distinct : other ≠ task) (theirs : Entitled inbox other otherPc) :
    Entitled after other otherPc := by
  cases otherPc with
  | approveEmitting id executor =>
    obtain ⟨decided, ran, -⟩ :=
      turn.log_of_other valid entitled distinct theirs.1
    refine ⟨decided.trans theirs.1, ran.trans theirs.2.1, ?_⟩
    intro callable binds
    obtain ⟨request, bound, same⟩ := theirs.2.2 callable binds
    exact ⟨request, turn.binding_kept bound, same⟩
  | executing id =>
    exact (turn.log_of_other valid entitled distinct theirs).1.trans theirs
  | denyEmitting id hook =>
    obtain ⟨decided, -, heard⟩ :=
      turn.log_of_other valid entitled distinct theirs.1
    refine ⟨decided.trans theirs.1, heard.trans theirs.2.1, ?_⟩
    intro callable binds
    obtain ⟨request, bound, same⟩ := theirs.2.2 callable binds
    exact ⟨request, turn.binding_kept bound, same⟩
  | _ => trivial

end

end Turn

theorem entitled_of_isEntry {pc : Pc} (entry : pc.isEntry = true)
    (inbox : Inbox) (task : TaskId) : Entitled inbox task pc := by
  cases pc <;> trivial

/-- Every step keeps the inbox valid. -/
theorem calls_keep (python : Python)
    (allowed : InboxWorld → InboxAction → Prop) :
    Keeps (calls python) allowed (Valid python) Entitled where
  start := by
    intro world task pc shared valid _ _ started
    obtain ⟨entry, same⟩ := ite_none_right_eq_some.1 started
    obtain rfl := some.inj same
    exact ⟨valid, entitled_of_isEntry entry _ _,
      fun other otherPc _ _ theirs => theirs⟩
  resume := by
    intro world task pc reply shared next valid _ _ entitled resumed
    have turn := turn_of_resume valid.sound resumed
    exact ⟨turn.valid valid entitled,
      fun counter => turn.entitled valid entitled,
      fun other otherPc distinct _ theirs =>
        turn.undisturbed valid entitled distinct theirs⟩
  cancel := by
    intro world task pc shared valid _ _ _ cancelled
    obtain rfl := some.inj cancelled
    exact ⟨valid, fun other otherPc _ _ theirs => theirs⟩
  occur := fun _ event => event.elim

variable {world : InboxWorld}

theorem valid_of_run (python : Python) {actions : List InboxAction}
    (run : Run (calls python).step Anything (World.quiet Inbox.empty) actions
      world) :
    Safe (Valid python) Entitled world :=
  Safe.run (.quiet (.empty python)) (calls_keep python _) run

/-! ## Exclusive decisions -/

/-- The inbox shows `id` as an entry that waits for a decision. -/
def ApprovalQueue.Pending (queue : ApprovalQueue) (id : ApprovalId)
    (entry : ApprovalEntry) : Prop :=
  queue.get id = some entry ∧ entry.state = .pending

/--
What holds of the inbox at one moment: one pending entry per dedup key, to
which the index points; at most one decision per entry; and an executor or a
denial hook run at most once, for its decision: the one of the call which
created the entry, with the arguments of that call, which the entry shows.
-/
structure Exclusive (python : Python) (inbox : Inbox) : Prop where
  onePending : ∀ id other entry twin, inbox.queue.Pending id entry →
    inbox.queue.Pending other twin →
    entry.dedupKey python = twin.dedupKey python → id = other
  index : ∀ key id, inbox.queue.dedup key = some id ↔
    ∃ entry, inbox.queue.Pending id entry ∧ entry.dedupKey python = key
  undecided : ∀ id entry, inbox.queue.get id = some entry →
    (entry.state = .pending ↔ decisions inbox.log id = [])
  oneDecision : ∀ id, (decisions inbox.log id).length ≤ 1
  executed : ∀ id run, run ∈ executions inbox.log id →
    executions inbox.log id = [run] ∧ denials inbox.log id = [] ∧
    decisions inbox.log id = [(run.1, .approve)] ∧
    ∃ entry request, inbox.queue.objects id = some entry ∧
      binding inbox.log id = some request ∧ request.executor = run.2.1 ∧
      entry.args = run.2.2 ∧ request.args = run.2.2
  heard : ∀ id run, run ∈ denials inbox.log id →
    denials inbox.log id = [run] ∧ executions inbox.log id = [] ∧
    decisions inbox.log id = [(run.1, .deny)] ∧
    ∃ entry request, inbox.queue.objects id = some entry ∧
      binding inbox.log id = some request ∧ request.onDeny = some run.2.1 ∧
      entry.args = run.2.2 ∧ request.args = run.2.2

theorem Recorded.never_both {inbox : Inbox} (recorded : Recorded inbox)
    {id : ApprovalId} {run other : TaskId × Callable × Args}
    (executed : run ∈ executions inbox.log id)
    (heard : other ∈ denials inbox.log id) : False := by
  have approved := (recorded.executed id run executed).1
  rw [(recorded.heard id other heard).1] at approved
  simp at approved

/-- Each row is decided once, as it was enqueued. -/
theorem Valid.exclusive {inbox : Inbox}
    (valid : Valid python inbox) : Exclusive python inbox where
  onePending := by
    rintro id other entry twin ⟨found, pending⟩ ⟨present, waits⟩ same
    have ours := (valid.sound.index _ id).2
      ⟨entry, ApprovalQueue.objects_of_get found, pending, rfl⟩
    have theirs := (valid.sound.index _ other).2
      ⟨twin, ApprovalQueue.objects_of_get present, waits, rfl⟩
    rw [same, theirs] at ours
    exact (some.inj ours).symm
  index := by
    intro key id
    rw [valid.sound.index key id]
    constructor
    · rintro ⟨entry, found, pending, keyed⟩
      exact ⟨entry, ⟨valid.sound.get_of_pending found pending, pending⟩,
        keyed⟩
    · rintro ⟨entry, ⟨found, pending⟩, keyed⟩
      exact ⟨entry, ApprovalQueue.objects_of_get found, pending, keyed⟩
  undecided := fun id entry found =>
    valid.recorded.undecided id entry (ApprovalQueue.objects_of_get found)
  oneDecision := valid.recorded.once
  executed := by
    intro id run ran
    obtain ⟨approved, only, entry, found, args⟩ :=
      valid.recorded.executed id run ran
    obtain ⟨request, brought, same⟩ := valid.bindings.executed id run ran
    have shown := valid.bindings.args_eq found brought
    refine ⟨only, ?_, approved, entry, request, found, brought, same, args,
      shown.symm.trans args⟩
    rw [eq_nil_iff_forall_not_mem]
    exact fun other heard => valid.recorded.never_both ran heard
  heard := by
    intro id run ran
    obtain ⟨denied, only, entry, found, args⟩ :=
      valid.recorded.heard id run ran
    obtain ⟨request, brought, same⟩ := valid.bindings.heard id run ran
    have shown := valid.bindings.args_eq found brought
    refine ⟨only, ?_, denied, entry, request, found, brought, same, args,
      shown.symm.trans args⟩
    rw [eq_nil_iff_forall_not_mem]
    exact fun other executed => valid.recorded.never_both executed ran

/--
What holds of one turn: an entry leaves `pending` only by the critical
section of an approve, deny or withdraw call on it, which the log records; a
call which finds its entry not pending changes nothing and raises, or returns
`None`; and no entry which is pending or executing leaves the inbox.
-/
structure DecidesOnce (world next : InboxWorld) : Prop where
  decided : ∀ id entry, world.shared.queue.Pending id entry →
    (∃ later, next.shared.queue.Pending id later ∧
      later.tool = entry.tool ∧ later.args = entry.args) ∨
    ∃ task pc decision, world.tasks task = some pc ∧
      pc.decides = some (id, decision) ∧
      next.shared.log =
        world.shared.log ++ [.decided task id decision]
  refused : ∀ task pc id decision, world.tasks task = some pc →
    pc.decides = some (id, decision) → next.tasks task ≠ some pc →
    (∃ entry, world.shared.queue.Pending id entry) ∨
    next.shared.queue = world.shared.queue ∧ next.tasks task = none ∧
      (next.shared = world.shared ∨ ∃ refusal,
        world.shared.queue.undecided id = .error refusal ∧
        next.shared.log =
          world.shared.log ++ [decision.answer task id refusal])
  listed : ∀ id entry, world.shared.queue.get id = some entry →
    entry.state.isResolved = false →
    ∃ later, next.shared.queue.get id = some later

namespace Turn

variable {python : Python} {inbox after : Inbox} {task : TaskId} {pc : Pc}
  {next : Option Pc}

/-- A turn keeps what the rows show. -/
theorem shows_ (turn : Turn python inbox task pc after next)
    (sound : inbox.queue.Sound python) : Shows inbox.queue after.queue := by
  cases turn with
  | ended id => exact .refl _
  | joined found pending keyed =>
    exact amends_hit.shows _ _
  | created now free => exact .create sound _ now
  | refused decision deciding nothing => exact .refl _
  | settled decision deciding found pending amends outcome =>
    exact amends.shows _ _
  | called found =>
    exact amends_release.shows _ _
  | heard found => exact .refl _
  | concluded concluding amends resolves => exact amends.shows _ _
  | annotated amends stays binds => exact amends.shows _ _
  | pruned passive => exact .refl _

/-- A turn decides one row at most. -/
theorem decisions_or (turn : Turn python inbox task pc after next)
    (id : ApprovalId) :
    decisions after.log id = decisions inbox.log id ∨
    ∃ decision, pc.decides = some (id, decision) ∧
      after.log = inbox.log ++ [.decided task id decision] := by
  cases turn with
  | ended own => exact .inl rfl
  | joined found pending keyed => exact .inl (decisions_quiet _ _ rfl)
  | created now free => exact .inl (decisions_quiet _ _ rfl)
  | refused decision deciding nothing =>
    exact .inl (decisions_quiet _ _ (answer_isQuiet ..))
  | @settled pc own entry change decision deciding found pending amends
      outcome =>
      by_cases same : own = id
      · subst same
        exact .inr ⟨decision, deciding, rfl⟩
      · left
        rw [decisions_decided, if_neg same]
  | called found => exact .inl (decisions_executed ..)
  | heard found => exact .inl (decisions_heard ..)
  | concluded concluding amends resolves => exact .inl rfl
  | annotated amends stays binds => exact .inl rfl
  | pruned passive => exact .inl rfl

variable {id : ApprovalId}

section

variable (turn : Turn python inbox task pc after next)
include turn

/-- A pending row stays, or is decided. -/
theorem pending (valid : Valid python inbox)
    (entitled : Entitled inbox task pc) {entry : ApprovalEntry}
    (found : inbox.queue.Pending id entry) :
    (∃ later, after.queue.Pending id later ∧ later.tool = entry.tool ∧
      later.args = entry.args) ∨
    ∃ decision, pc.decides = some (id, decision) ∧
      after.log = inbox.log ++ [.decided task id decision] := by
  obtain ⟨present, waits⟩ := found
  have first := (valid.recorded.undecided id entry
    (ApprovalQueue.objects_of_get present)).1 waits
  rcases turn.decisions_or id with same | decided
  · left
    obtain ⟨later, there, within⟩ :=
      turn.shows_ valid.sound id entry (ApprovalQueue.objects_of_get present)
    obtain ⟨sound, recorded⟩ := turn.recorded valid entitled
    have pending : later.state = .pending :=
      (recorded.undecided id later there).2 (same.trans first)
    exact ⟨later, ⟨sound.get_of_pending there pending, pending⟩,
      within.tool, within.args⟩
  · exact .inr decided

/-- Who decides too late is refused. -/
theorem refuse {decision : Decision}
    (deciding : pc.decides = some (id, decision)) :
    (∃ entry, inbox.queue.Pending id entry) ∨
    after.queue = inbox.queue ∧ next = none ∧ ∃ refusal,
      inbox.queue.undecided id = .error refusal ∧
      after.log = inbox.log ++ [decision.answer task id refusal] := by
  cases turn with
  | refused ours same nothing =>
    rw [deciding] at same
    cases same
    exact .inr ⟨rfl, rfl, _, nothing, rfl⟩
  | settled ours same found pending amends outcome =>
    rw [deciding] at same
    cases same
    exact .inl ⟨_, found, pending⟩
  | concluded concluding amends resolves =>
    cases pc <;> cases deciding <;> cases concluding
  | pruned passive =>
    rw [deciding] at passive
    cases passive
  | _ => cases deciding

/-- An unresolved row stays listed. -/
theorem listed (present : id ∈ inbox.queue.entries)
    (unresolved : inbox.queue.resolved id = false) :
    id ∈ after.queue.entries := by
  cases turn with
  | created now free => exact mem_append_left _ present
  | @annotated own change amends stays binds =>
    refine ApprovalQueue.mem_pruneResolved.2 ⟨present, ?_⟩
    intro dropped
    have resolved := ApprovalQueue.resolved_of_mem_excess dropped
    rw [ApprovalQueue.resolved, ApprovalQueue.write_objects] at resolved
    rw [ApprovalQueue.resolved] at unresolved
    split_ifs at resolved
    · simp only [Option.any_map, stays] at resolved
      rw [resolved] at unresolved
      cases unresolved
    · rw [resolved] at unresolved
      cases unresolved
  | pruned passive =>
    refine ApprovalQueue.mem_pruneResolved.2 ⟨present, ?_⟩
    intro dropped
    rw [ApprovalQueue.resolved_of_mem_excess dropped] at unresolved
    cases unresolved
  | _ => exact present

end

end Turn

theorem DecidesOnce.quiet {next : InboxWorld}
    (same : next.shared = world.shared)
    (ends : ∀ task pc, world.tasks task = some pc →
      next.tasks task = some pc ∨ next.tasks task = none) :
    DecidesOnce world next := by
  constructor
  · intro id entry found
    left
    rw [same]
    exact ⟨entry, found, rfl, rfl⟩
  · intro task pc id decision suspended _ left_
    right
    refine ⟨by rw [same], ?_, .inl same⟩
    rcases ends task pc suspended with stays | ended
    · exact absurd stays left_
    · exact ended
  · intro id entry found _
    rw [same]
    exact ⟨entry, found⟩

/-- No step decides what is decided. -/
theorem decidesOnce_of_step {next : InboxWorld} {action : InboxAction}
    (safe : Safe (Valid python) Entitled world)
    (moved : (calls python).step world action = some next) :
    DecidesOnce world next := by
  cases Program.moves_of_step moved with
  | @start task pc shared unused started =>
    obtain ⟨-, same⟩ := ite_none_right_eq_some.1 started
    apply DecidesOnce.quiet (some.inj same).symm
    intro other otherPc suspended
    left
    rw [World.put_tasks, if_neg, suspended]
    rintro rfl
    rw [unused] at suspended
    cases suspended
  | @cancel task pc shared suspended cancelled =>
    apply DecidesOnce.quiet (some.inj cancelled).symm
    intro other otherPc otherSuspended
    rw [World.put_tasks]
    split_ifs
    · exact .inr rfl
    · exact .inl otherSuspended
  | @resume task pc reply shared after suspended resumed =>
    have turn := turn_of_resume safe.state.sound resumed
    have entitled := safe.task task pc suspended
    constructor
    · intro id entry found
      rcases turn.pending safe.state entitled found with stays | decided
      · exact .inl stays
      · obtain ⟨decision, deciding, logged⟩ := decided
        exact .inr ⟨task, pc, decision, suspended, deciding, logged⟩
    · intro other otherPc id decision otherSuspended deciding moves
      rw [World.put_tasks] at moves ⊢
      split_ifs at moves ⊢ with same
      · subst same
        rw [suspended] at otherSuspended
        cases otherSuspended
        rcases turn.refuse deciding with waits | refused
        · exact .inl waits
        · obtain ⟨unchanged, ended, refusal, nothing, logged⟩ := refused
          exact .inr ⟨unchanged, ended, .inr ⟨refusal, nothing, logged⟩⟩
      · exact absurd otherSuspended moves
    · intro id entry found unresolved
      have present := ApprovalQueue.objects_of_get found
      obtain ⟨later, there, -⟩ :=
        turn.shows_ safe.state.sound id entry present
      refine ⟨later, ApprovalQueue.get_eq_some_iff.2
        ⟨turn.listed (ApprovalQueue.mem_of_get found) ?_, there⟩⟩
      simp [ApprovalQueue.resolved, present, unresolved]
  | @occur event => exact event.elim

/--
In every run of enqueue, approve, deny and withdraw calls, at every moment
and in every turn, decisions are exclusive, and pruning keeps the newest of
the resolved entries and all others.
-/
theorem decisions_exclusive (python : Python) {actions : List InboxAction}
    {world : InboxWorld}
    (run : Run (calls python).step Anything (World.quiet Inbox.empty) actions
      world) :
    Exclusive python world.shared ∧
    (∀ action next, (calls python).step world action = some next →
      DecidesOnce world next) ∧
    ∀ queue : ApprovalQueue, queue.entries.Nodup → queue.KeepsNewest := by
  have safe := valid_of_run python run
  exact ⟨safe.state.exclusive, fun _ _ => decidesOnce_of_step safe,
    fun _ => ApprovalQueue.keepsNewest⟩

def plainPython : Python :=
  ⟨fun text => "'" ++ text ++ "'", fun value => value.repr ⟨id, fun _ => ""⟩⟩

/-- An approve call races with a deny call. -/
def racingDecisions : List InboxAction :=
  [.start 0 (.enqueueEntering
      { tool := "model_pull"
        args := [("model_id", .str "qwen3")]
        clientId := "agent"
        executor := 7 }),
    .resume 0 (.turn 1), .resume 0 (.turn 1),
    .start 1 (.approveEntering 0), .start 2 (.denyEntering 0),
    .resume 1 (.turn 2), .resume 2 (.turn 2), .resume 1 (.turn 3),
    .resume 1 (.returned .null), .resume 1 (.turn 4)]

/-- An approval and a denial of one row. -/
theorem racing_decisions_exclusive :
    ∃ world : InboxWorld,
      Run (calls plainPython).step Anything (World.quiet Inbox.empty)
        racingDecisions world ∧
      decisions world.shared.log 0 = [(1, .approve)] ∧
      (executions world.shared.log 0).length = 1 ∧
      Exclusive plainPython world.shared := by
  obtain ⟨world, run, passed⟩ :=
    Run.exists_of_exec (calls plainPython).step Anything
      (World.quiet Inbox.empty) racingDecisions
      (fun world : InboxWorld =>
        decide (decisions world.shared.log 0 = [(1, .approve)]) &&
          (executions world.shared.log 0).length == 1)
      (by decide +kernel)
  rw [Bool.and_eq_true, decide_eq_true_eq, beq_iff_eq] at passed
  exact ⟨world, run, passed.1, passed.2,
    (decisions_exclusive plainPython run).1⟩

end Hal0.Mcp
