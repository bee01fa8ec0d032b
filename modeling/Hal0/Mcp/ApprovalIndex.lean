import Hal0.Mcp.ApprovalQueue

/-!
# The dedup index and the history of the approval queue

`KeepsNewest` says what pruning the resolved entries leaves.  `Sound` is the
invariant of the queue alone: the dedup index points at exactly the pending
entries, and the dict lists every entry that is pending or still executing.
`Turn` says once what a call can do between two awaits.
-/

namespace Hal0.Mcp

open Function List
open Hal0.Transition Hal0.Tasks

/-! ## The queue -/

namespace ApprovalQueue

variable {python : Python} {queue : ApprovalQueue} {id : ApprovalId}
  {entry : ApprovalEntry} {change : ApprovalEntry → ApprovalEntry}

theorem write_objects (queue : ApprovalQueue) (id other : ApprovalId)
    (change : ApprovalEntry → ApprovalEntry) :
    (queue.write id change).objects other =
      if other = id then (queue.objects other).map change
      else queue.objects other := by
  simp only [write, update_apply]
  split_ifs with same
  · rw [same]
  · rfl

theorem write_write (queue : ApprovalQueue) (id : ApprovalId)
    (first second : ApprovalEntry → ApprovalEntry) :
    (queue.write id first).write id second =
      queue.write id fun entry => second (first entry) := by
  simp [write, Function.comp_def]

theorem mem_of_get (found : queue.get id = some entry) :
    id ∈ queue.entries := by
  unfold get at found
  split_ifs at found with listed
  exact listed

theorem objects_of_get (found : queue.get id = some entry) :
    queue.objects id = some entry := by
  unfold get at found
  split_ifs at found
  exact found

theorem get_eq_some_iff :
    queue.get id = some entry ↔
      id ∈ queue.entries ∧ queue.objects id = some entry := by
  constructor
  · intro found
    exact ⟨mem_of_get found, objects_of_get found⟩
  · rintro ⟨listed, present⟩
    rw [get, if_pos listed, present]

/-! ## The bounded history -/

theorem mem_oldestFirst :
    id ∈ queue.oldestFirst ↔
      id ∈ queue.entries ∧ queue.resolved id = true := by
  rw [oldestFirst, mem_insertionSort, mem_filter]

theorem oldestFirst_sorted (queue : ApprovalQueue) :
    queue.oldestFirst.Pairwise fun left right =>
      queue.age left ≤ queue.age right := by
  have total : Std.Total fun left right =>
      queue.age left ≤ queue.age right :=
    ⟨fun left right => le_total _ _⟩
  have transitive : IsTrans ApprovalId fun left right =>
      queue.age left ≤ queue.age right :=
    ⟨fun _ _ _ => le_trans⟩
  exact pairwise_insertionSort _ _

theorem resolved_of_mem_excess (dropped : id ∈ queue.excess) :
    queue.resolved id = true :=
  (mem_oldestFirst.1 (mem_of_mem_take dropped)).2

/-- The oldest settled rows are dropped. -/
theorem pruneResolved_history (nodup : queue.entries.Nodup) :
    (queue.pruneResolved.entries.filter queue.resolved).Perm
      (queue.oldestFirst.drop
        (queue.oldestFirst.length - maxResolvedEntries)) := by
  have sorted : queue.oldestFirst.Perm
      (queue.entries.filter queue.resolved) :=
    perm_insertionSort _ _
  have apart : queue.oldestFirst.Nodup :=
    sorted.nodup_iff.2 (nodup.filter _)
  have split := take_append_drop
    (queue.oldestFirst.length - maxResolvedEntries) queue.oldestFirst
  rw [← split] at apart
  have kept : queue.oldestFirst.filter (fun id => id ∉ queue.excess) =
      queue.oldestFirst.drop
        (queue.oldestFirst.length - maxResolvedEntries) := by
    conv_lhs => rw [← split]
    rw [filter_append, filter_eq_nil_iff.2, nil_append, filter_eq_self.2]
    · intro id newer
      rw [decide_eq_true_eq]
      intro older
      exact (nodup_append.1 apart).2.2 id older id newer rfl
    · intro id older
      simp only [decide_not, Bool.not_eq_true', decide_eq_false_iff_not,
        not_not]
      exact older
  rw [← kept, pruneResolved, filter_filter]
  simp only [Bool.and_comm (queue.resolved _)]
  rw [← filter_filter]
  exact (sorted.filter _).symm

/--
Pruning drops no entry which is pending or executing, leaves the newest
`maxResolvedEntries` of the resolved ones, and drops only older ones.
-/
structure KeepsNewest (queue : ApprovalQueue) : Prop where
  unresolved : ∀ id ∈ queue.entries, queue.resolved id = false →
    id ∈ queue.pruneResolved.entries
  bounded : (queue.pruneResolved.entries.filter queue.resolved).length =
    min maxResolvedEntries (queue.entries.filter queue.resolved).length
  older : ∀ old ∈ queue.entries, old ∉ queue.pruneResolved.entries →
    ∀ id ∈ queue.pruneResolved.entries, queue.resolved id = true →
      queue.age old ≤ queue.age id

theorem mem_pruneResolved :
    id ∈ queue.pruneResolved.entries ↔
      id ∈ queue.entries ∧ id ∉ queue.excess := by
  simp [pruneResolved]

/-- The newest settled rows are kept. -/
theorem keepsNewest (nodup : queue.entries.Nodup) : KeepsNewest queue where
  unresolved := by
    intro id listed open_
    refine mem_pruneResolved.2 ⟨listed, ?_⟩
    intro dropped
    rw [resolved_of_mem_excess dropped] at open_
    cases open_
  bounded := by
    rw [(pruneResolved_history nodup).length_eq, length_drop]
    have same : queue.oldestFirst.length =
        (queue.entries.filter queue.resolved).length :=
      (perm_insertionSort _ _).length_eq
    rw [same]
    omega
  older := by
    intro old listed dropped id stays resolved
    have excess : old ∈ queue.excess := by
      by_contra newer
      exact dropped (mem_pruneResolved.2 ⟨listed, newer⟩)
    have newer : id ∈ queue.oldestFirst.drop
        (queue.oldestFirst.length - maxResolvedEntries) :=
      (pruneResolved_history nodup).mem_iff.1
        (mem_filter.2 ⟨stays, resolved⟩)
    have sorted := queue.oldestFirst_sorted
    rw [← take_append_drop
      (queue.oldestFirst.length - maxResolvedEntries) queue.oldestFirst]
      at sorted
    exact (pairwise_append.1 sorted).2.2 old excess id newer

/-! ## Soundness of the index -/

/-- The dict, the heap and the dedup index agree. -/
structure Sound (python : Python) (queue : ApprovalQueue) : Prop where
  nodup : queue.entries.Nodup
  minted : ∀ id entry, queue.objects id = some entry → id < queue.minted
  present : ∀ id, id ∈ queue.entries → ∃ entry, queue.objects id = some entry
  listed : ∀ id entry, queue.objects id = some entry →
    entry.state.isResolved = false → id ∈ queue.entries
  index : ∀ key id, queue.dedup key = some id ↔
    ∃ entry, queue.objects id = some entry ∧ entry.state = .pending ∧
      entry.dedupKey python = key

namespace Sound

theorem empty : Sound python ApprovalQueue.empty where
  nodup := .nil
  minted := nofun
  present := nofun
  listed := nofun
  index := by
    intro key id
    constructor
    · intro found
      cases found
    · rintro ⟨entry, found, -⟩
      cases found

section

variable (sound : Sound python queue)
include sound

theorem get_of_pending (found : queue.objects id = some entry)
    (pending : entry.state = .pending) : queue.get id = some entry := by
  apply get_eq_some_iff.2
  refine ⟨sound.listed id entry found ?_, found⟩
  rw [pending]
  rfl

theorem write
    (key : ∀ entry, queue.objects id = some entry →
      (change entry).dedupKey python = entry.dedupKey python)
    (pending : ∀ entry, queue.objects id = some entry →
      ((change entry).state = .pending ↔ entry.state = .pending))
    (resolved : ∀ entry, queue.objects id = some entry →
      (change entry).state.isResolved = false →
        entry.state.isResolved = false) :
    Sound python (queue.write id change) where
  nodup := sound.nodup
  minted := by
    intro other entry found
    rw [write_objects] at found
    split_ifs at found with same
    · obtain ⟨before, present, -⟩ := Option.map_eq_some_iff.1 found
      exact sound.minted other before present
    · exact sound.minted other entry found
  present := by
    intro other listed
    obtain ⟨entry, found⟩ := sound.present other listed
    rw [write_objects, found]
    split_ifs
    · exact ⟨change entry, rfl⟩
    · exact ⟨entry, rfl⟩
  listed := by
    intro other entry found unresolved
    rw [write_objects] at found
    split_ifs at found with same
    · obtain ⟨before, present, rfl⟩ := Option.map_eq_some_iff.1 found
      subst same
      exact sound.listed other before present
        (resolved before present unresolved)
    · exact sound.listed other entry found unresolved
  index := by
    intro wanted other
    rw [write_objects]
    rw [show (queue.write id change).dedup = queue.dedup from rfl, sound.index]
    split_ifs with same
    · subst same
      constructor
      · rintro ⟨entry, found, waits, keyed⟩
        refine ⟨change entry, by rw [found]; rfl, ?_, ?_⟩
        · exact (pending entry found).2 waits
        · rw [key entry found, keyed]
      · rintro ⟨entry, found, waits, keyed⟩
        obtain ⟨before, present, rfl⟩ := Option.map_eq_some_iff.1 found
        refine ⟨before, present, (pending before present).1 waits, ?_⟩
        rw [← key before present, keyed]
    · exact Iff.rfl

/-- A change which decides the pending entry `id`. -/
theorem settle (found : queue.objects id = some entry)
    (pending : entry.state = .pending)
    (decides : (change entry).state ≠ .pending) :
    Sound python
      ((queue.write id change).popDedup (entry.dedupKey python)) where
  nodup := sound.nodup
  minted := by
    intro other after present
    simp only [popDedup, write_objects] at present
    split_ifs at present with same
    · subst same
      exact sound.minted other entry found
    · exact sound.minted other after present
  present := by
    intro other listed
    obtain ⟨before, present⟩ := sound.present other listed
    simp only [popDedup, write_objects, present]
    split_ifs
    · exact ⟨change before, rfl⟩
    · exact ⟨before, rfl⟩
  listed := by
    intro other after present unresolved
    simp only [popDedup, write_objects] at present
    split_ifs at present with same
    · subst same
      exact sound.listed other entry found (by rw [pending]; rfl)
    · exact sound.listed other after present unresolved
  index := by
    intro key other
    simp only [popDedup, write_objects, update_apply]
    have pointed : queue.dedup (entry.dedupKey python) = some id :=
      (sound.index _ id).2 ⟨entry, found, pending, rfl⟩
    by_cases same : other = id
    · subst same
      rw [if_pos rfl, found]
      constructor
      · intro stays
        split_ifs at stays with popped
        obtain ⟨before, present, -, keyed⟩ := (sound.index key other).1 stays
        rw [found] at present
        cases present
        exact absurd keyed.symm popped
      · rintro ⟨after, present, waits, -⟩
        obtain rfl := Option.some.inj present
        exact absurd waits decides
    · rw [if_neg same]
      constructor
      · intro stays
        split_ifs at stays
        exact (sound.index key other).1 stays
      · rintro ⟨after, present, waits, keyed⟩
        have points := (sound.index key other).2
          ⟨after, present, waits, keyed⟩
        rw [if_neg]
        · exact points
        · rintro rfl
          rw [pointed] at points
          exact same (Option.some.inj points).symm

theorem unminted :
    queue.objects queue.minted = none := by
  cases found : queue.objects queue.minted with
  | none => rfl
  | some entry =>
    exact absurd (sound.minted _ entry found) (Nat.lt_irrefl _)

theorem create (request : Request) (now : Time)
    (free : queue.dedup
      (request.tool, primaryTarget python request.tool request.args) =
        none) :
    Sound python (queue.create python request now).1 where
  nodup := by
    refine nodup_append.2 ⟨sound.nodup, nodup_singleton _, ?_⟩
    intro id listed other single same
    obtain ⟨entry, found⟩ := sound.present id listed
    have below := sound.minted id entry found
    rw [same, mem_singleton.1 single] at below
    exact Nat.lt_irrefl _ below
  minted := by
    intro id entry found
    simp only [ApprovalQueue.create, update_apply] at found ⊢
    split_ifs at found with same
    · rw [same]
      exact Nat.lt_succ_self _
    · exact Nat.lt_succ_of_lt (sound.minted id entry found)
  present := by
    intro id listed
    simp only [ApprovalQueue.create, update_apply]
    split_ifs with same
    · exact ⟨_, rfl⟩
    · have earlier : id ∈ queue.entries := by
        simpa [ApprovalQueue.create, same] using listed
      exact sound.present id earlier
  listed := by
    intro id entry found unresolved
    simp only [ApprovalQueue.create, update_apply] at found ⊢
    split_ifs at found with same
    · simp [same]
    · simp [sound.listed id entry found unresolved]
  index := by
    intro key id
    simp only [ApprovalQueue.create, update_apply]
    by_cases fresh : id = queue.minted
    · subst fresh
      rw [if_pos rfl]
      constructor
      · intro points
        split_ifs at points with same
        · exact ⟨_, rfl, rfl, same.symm⟩
        · obtain ⟨entry, found, -⟩ := (sound.index key _).1 points
          rw [sound.unminted] at found
          cases found
      · rintro ⟨entry, found, -, keyed⟩
        obtain rfl := Option.some.inj found
        exact if_pos keyed.symm
    · rw [if_neg fresh]
      constructor
      · intro points
        split_ifs at points with same
        · exact absurd (Option.some.inj points).symm fresh
        · exact (sound.index key id).1 points
      · intro waits
        have points := (sound.index key id).2 waits
        rw [if_neg, points]
        rintro rfl
        rw [free] at points
        cases points

theorem prune :
    Sound python queue.pruneResolved where
  nodup := sound.nodup.filter _
  minted := sound.minted
  present := fun id listed =>
    sound.present id (mem_of_mem_filter listed)
  listed := by
    intro id entry found unresolved
    refine mem_filter.2
      ⟨sound.listed id entry found unresolved, ?_⟩
    rw [decide_eq_true_eq]
    intro dropped
    have resolved := resolved_of_mem_excess dropped
    have before : queue.objects id = some entry := found
    simp [ApprovalQueue.resolved, before, unresolved] at resolved
  index := sound.index

end

end Sound

end ApprovalQueue

/-! ## What a call can do between two awaits -/

/-- The entry on which the call is about to decide, and how. -/
def Pc.decides : Pc → Option (ApprovalId × Decision)
  | .approveEntering id => some (id, .approve)
  | .denyEntering id => some (id, .deny)
  | .withdrawEntering id _ => some (id, .withdraw)
  | _ => none

/-- The entry that the task is to conclude. -/
def Pc.concludes : Pc → Option ApprovalId
  | .approveEmitting id none => some id
  | .executing id => some id
  | _ => none

/-- The state that a decision leads to. -/
def Decision.outcome : Decision → ApprovalState
  | .approve => .approved
  | .deny => .denied
  | .withdraw => .failed

/-- Where the call goes on after its decision. -/
def Decision.follow (id : ApprovalId) (entry : ApprovalEntry) : Decision → Pc
  | .approve => .approveEmitting id entry.executor
  | .deny => .denyEmitting id entry.onDeny
  | .withdraw => .resolvedEmitting id

/-- The answer of a call which finds nothing to decide. -/
def Decision.answer (task : TaskId) (id : ApprovalId) (refusal : Refusal) :
    Decision → Event
  | .approve => .raised task refusal
  | .deny => .raised task refusal
  | .withdraw => .returnedNone task id

/-- The later entry shows the same call and binds no other callable. -/
structure ApprovalEntry.Within (later entry : ApprovalEntry) : Prop where
  tool : later.tool = entry.tool
  args : later.args = entry.args
  executor : later.executor = none ∨ later.executor = entry.executor
  onDeny : later.onDeny = none ∨ later.onDeny = entry.onDeny

theorem ApprovalEntry.Within.refl (entry : ApprovalEntry) :
    entry.Within entry :=
  ⟨rfl, rfl, .inr rfl, .inr rfl⟩

/-- The change leaves alone what the entry shows of the call. -/
def Amends (change : ApprovalEntry → ApprovalEntry) : Prop :=
  ∀ entry, (change entry).Within entry

theorem Amends.dedupKey {change : ApprovalEntry → ApprovalEntry}
    (amends : Amends change) (python : Python) (entry : ApprovalEntry) :
    (change entry).dedupKey python = entry.dedupKey python := by
  rw [ApprovalEntry.dedupKey, (amends entry).tool, (amends entry).args,
    ApprovalEntry.dedupKey]

/-- What two calls share an entry by. -/
def Request.dedupKey (python : Python) (request : Request) :
    String × String :=
  (request.tool, primaryTarget python request.tool request.args)

/-- What one resumption does to the queue and to the log. -/
inductive Turn (python : Python) (inbox : Inbox) (task : TaskId) :
    Pc → Inbox → Option Pc → Prop where
  | ended (id : ApprovalId) :
      Turn python inbox task (.enqueueEmitting id) inbox none
  | joined {request : Request} {id : ApprovalId} {entry : ApprovalEntry}
      (found : inbox.queue.objects id = some entry)
      (pending : entry.state = .pending)
      (keyed : entry.dedupKey python = request.dedupKey python) :
      Turn python inbox task (.enqueueEntering request)
        ⟨inbox.queue.write id ApprovalEntry.hit,
          inbox.log ++ [.queued task id request]⟩ none
  | created {request : Request} (now : Time)
      (free : inbox.queue.dedup (request.dedupKey python) = none) :
      Turn python inbox task (.enqueueEntering request)
        ⟨(inbox.queue.create python request now).1,
          inbox.log ++ [.queued task inbox.queue.minted request]⟩
        (some (.enqueueEmitting inbox.queue.minted))
  | refused {pc : Pc} {id : ApprovalId} {refusal : Refusal}
      (decision : Decision)
      (deciding : pc.decides = some (id, decision))
      (nothing : inbox.queue.undecided id = .error refusal) :
      Turn python inbox task pc
        ⟨inbox.queue,
          inbox.log ++ [decision.answer task id refusal]⟩ none
  | settled {pc : Pc} {id : ApprovalId} {entry : ApprovalEntry}
      {change : ApprovalEntry → ApprovalEntry} (decision : Decision)
      (deciding : pc.decides = some (id, decision))
      (found : inbox.queue.get id = some entry)
      (pending : entry.state = .pending)
      (amends : Amends change)
      (outcome : (change entry).state = decision.outcome) :
      Turn python inbox task pc
        ⟨(inbox.queue.write id change).popDedup (entry.dedupKey python),
          inbox.log ++ [.decided task id decision]⟩
        (some (decision.follow id entry))
  | called {id : ApprovalId} {executor : Callable} {entry : ApprovalEntry}
      (found : inbox.queue.objects id = some entry) :
      Turn python inbox task (.approveEmitting id (some executor))
        ⟨inbox.queue.write id ApprovalEntry.release,
          inbox.log ++ [.executed task id executor entry.args]⟩
        (some (.executing id))
  | heard {id : ApprovalId} {hook : Callable} {entry : ApprovalEntry}
      (found : inbox.queue.objects id = some entry) :
      Turn python inbox task (.denyEmitting id (some hook))
        ⟨inbox.queue,
          inbox.log ++ [.denialHeard task id hook entry.args]⟩
        (some (.denying id))
  | concluded {pc : Pc} {id : ApprovalId}
      {change : ApprovalEntry → ApprovalEntry}
      (concluding : pc.concludes = some id)
      (amends : Amends change)
      (resolves : ∀ entry, (change entry).state.isResolved = true) :
      Turn python inbox task pc ⟨inbox.queue.write id change, inbox.log⟩
        (some (.resolvedEmitting id))
  | annotated {id : ApprovalId} {change : ApprovalEntry → ApprovalEntry}
      (amends : Amends change)
      (stays : ∀ entry, (change entry).state = entry.state)
      (binds : ∀ entry, (change entry).executor = entry.executor) :
      Turn python inbox task (.denying id)
        ⟨(inbox.queue.write id change).pruneResolved, inbox.log⟩ none
  | pruned {pc : Pc} (passive : pc.decides = none) :
      Turn python inbox task pc ⟨inbox.queue.pruneResolved, inbox.log⟩ none

section

variable {python : Python} {inbox : Inbox} {task : TaskId}

theorem undecided_eq_ok {queue : ApprovalQueue} {id : ApprovalId}
    {entry : ApprovalEntry} (found : queue.undecided id = .ok entry) :
    queue.get id = some entry ∧ entry.state = .pending := by
  unfold ApprovalQueue.undecided at found
  cases present : queue.get id with
  | none => simp [present] at found
  | some other =>
    simp only [present] at found
    split_ifs at found with pending
    cases found
    exact ⟨rfl, pending⟩

/-- A call joins a pending row or makes its own. -/
theorem enqueue_eq {queue : ApprovalQueue} (sound : queue.Sound python)
    (request : Request) (now : Time) :
    (∃ id entry, queue.objects id = some entry ∧ entry.state = .pending ∧
      entry.dedupKey python = request.dedupKey python ∧
      queue.enqueue python request now =
        (queue.write id ApprovalEntry.hit, id, false)) ∨
    queue.dedup (request.dedupKey python) = none ∧
      queue.enqueue python request now =
        queue.create python request now := by
  cases pointed : queue.dedup (request.dedupKey python) with
  | none =>
    refine .inr ⟨rfl, ?_⟩
    rw [Request.dedupKey] at pointed
    simp only [ApprovalQueue.enqueue, pointed]
  | some existing =>
    obtain ⟨entry, found, pending, keyed⟩ :=
      (sound.index _ existing).1 pointed
    refine .inl ⟨existing, entry, found, pending, keyed, ?_⟩
    rw [Request.dedupKey] at pointed
    simp only [ApprovalQueue.enqueue, pointed,
      sound.get_of_pending found pending, if_pos pending]

theorem enqueue_turn (sound : inbox.queue.Sound python) (request : Request)
    (now : Time) :
    Turn python inbox task (.enqueueEntering request)
      ⟨(inbox.queue.enqueue python request now).1,
        inbox.log ++ [.queued task
          (inbox.queue.enqueue python request now).2.1 request]⟩
      (if (inbox.queue.enqueue python request now).2.2
        then some (.enqueueEmitting
          (inbox.queue.enqueue python request now).2.1)
        else none) := by
  rcases enqueue_eq sound request now with
    ⟨id, entry, found, pending, keyed, joins⟩ | ⟨free, creates⟩
  · rw [joins]
    exact .joined found pending keyed
  · rw [creates]
    exact .created now free

/-- Every step of a task is a turn. -/
theorem turn_of_resume {pc : Pc} {reply : Reply} {after : Inbox}
    {next : Option Pc}
    (sound : inbox.queue.Sound python)
    (resumed : resume python inbox task pc reply = some (after, next)) :
    Turn python inbox task pc after next := by
  cases pc with
  | enqueueEntering request =>
    cases reply with
    | turn now =>
      obtain ⟨rfl, rfl⟩ := Prod.mk.inj (Option.some.inj resumed)
      exact enqueue_turn sound request now
    | returned value => cases resumed
    | raised error => cases resumed
  | enqueueEmitting id =>
    cases reply with
    | turn now =>
      cases resumed
      exact .ended id
    | returned value => cases resumed
    | raised error => cases resumed
  | approveEntering id =>
    cases reply with
    | turn now =>
      simp only [resume, ApprovalQueue.approve] at resumed
      cases asked : inbox.queue.undecided id with
      | error refusal =>
        simp only [asked, Except.map] at resumed
        cases resumed
        exact .refused .approve rfl asked
      | ok entry =>
        obtain ⟨found, pending⟩ := undecided_eq_ok asked
        simp only [asked, Except.map] at resumed
        cases resumed
        exact .settled .approve rfl found pending
          (fun _ => ⟨rfl, rfl, .inr rfl, .inr rfl⟩) rfl
    | returned value => cases resumed
    | raised error => cases resumed
  | approveEmitting id executor =>
    cases reply with
    | turn now =>
      cases executor with
      | none =>
        cases resumed
        rw [ApprovalQueue.write_write]
        exact .concluded rfl (fun _ => ⟨rfl, rfl, .inl rfl, .inl rfl⟩)
          fun _ => rfl
      | some executor =>
        obtain ⟨entry, found, same⟩ := Option.map_eq_some_iff.1 resumed
        cases same
        exact .called found
    | returned value => cases executor <;> cases resumed
    | raised error => cases executor <;> cases resumed
  | executing id =>
    cases reply with
    | turn now => cases resumed
    | returned value =>
      cases resumed
      exact .concluded rfl (fun _ => ⟨rfl, rfl, .inr rfl, .inr rfl⟩)
        fun _ => rfl
    | raised error =>
      cases resumed
      exact .concluded rfl (fun _ => ⟨rfl, rfl, .inr rfl, .inr rfl⟩)
        fun _ => rfl
  | denyEntering id =>
    cases reply with
    | turn now =>
      simp only [resume, ApprovalQueue.deny] at resumed
      cases asked : inbox.queue.undecided id with
      | error refusal =>
        simp only [asked, Except.map] at resumed
        cases resumed
        exact .refused .deny rfl asked
      | ok entry =>
        obtain ⟨found, pending⟩ := undecided_eq_ok asked
        simp only [asked, Except.map] at resumed
        cases resumed
        exact .settled .deny rfl found pending
          (fun _ => ⟨rfl, rfl, .inl rfl, .inl rfl⟩) rfl
    | returned value => cases resumed
    | raised error => cases resumed
  | denyEmitting id hook =>
    cases reply with
    | turn now =>
      cases hook with
      | none =>
        cases resumed
        exact .pruned rfl
      | some hook =>
        obtain ⟨entry, found, same⟩ := Option.map_eq_some_iff.1 resumed
        cases same
        exact .heard found
    | returned value => cases hook <;> cases resumed
    | raised error => cases hook <;> cases resumed
  | denying id =>
    cases reply with
    | turn now => cases resumed
    | returned value =>
      cases resumed
      exact .annotated (fun _ => ⟨rfl, rfl, .inr rfl, .inr rfl⟩)
        (fun _ => rfl) fun _ => rfl
    | raised error =>
      cases resumed
      exact .annotated (fun _ => ⟨rfl, rfl, .inr rfl, .inr rfl⟩)
        (fun _ => rfl) fun _ => rfl
  | withdrawEntering id reason =>
    cases reply with
    | turn now =>
      simp only [resume, ApprovalQueue.withdraw] at resumed
      cases asked : inbox.queue.undecided id with
      | error refusal =>
        simp only [asked, Except.toOption, Option.map_none] at resumed
        cases resumed
        exact .refused .withdraw rfl asked
      | ok entry =>
        obtain ⟨found, pending⟩ := undecided_eq_ok asked
        simp only [asked, Except.toOption, Option.map_some] at resumed
        cases resumed
        exact .settled .withdraw rfl found pending
          (fun _ => ⟨rfl, rfl, .inl rfl, .inl rfl⟩) rfl
    | returned value => cases resumed
    | raised error => cases resumed
  | resolvedEmitting id =>
    cases reply with
    | turn now =>
      cases resumed
      exact .pruned rfl
    | returned value => cases resumed
    | raised error => cases resumed

end

end Hal0.Mcp
