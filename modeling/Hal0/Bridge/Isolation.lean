import Hal0.Bridge.RunCalls

/-!
# Clients do not see each other's runs

Two ledgers agree for a client when they hold the same runs of that client,
with the same events, whatever else they hold.  A call of the client answers
the same in both, asks the same of Hermes, and leaves the runs of all others
as they are.
-/

namespace Hal0.Bridge

open List

/-- The ledgers hold the same runs of the client, with the same events. -/
structure Agree (client : String) (left right : Ledger) : Prop where
  runs : ∀ row, row.client = client → (row ∈ left.runs ↔ row ∈ right.runs)
  events : ∀ row ∈ left.runs, row.client = client →
    left.events row.runId = right.events row.runId

/-- The runs of the other clients, and their events, are the same. -/
structure Spares (client : String) (before after : Ledger) : Prop where
  runs : ∀ row, row.client ≠ client →
    (row ∈ after.runs ↔ row ∈ before.runs)
  events : after.events = before.events

/-- The run is one of the client's. -/
def Ledger.Owns (ledger : Ledger) (client : String) (runId : RunId) : Prop :=
  ∃ row ∈ ledger.runs, row.runId = runId ∧ row.client = client

namespace Agree

variable {client : String} {left right : Ledger} {runId : RunId}
  {row : RunRow}

theorem getRun (agree : Agree client left right)
    (found : left.getRun runId = some row) (own : row.client = client) :
    right.getRun runId = some row := by
  rw [Ledger.getRun_eq_some_iff] at found ⊢
  exact ⟨(agree.runs row own).mp found.1, found.2⟩

theorem symm (agree : Agree client left right) : Agree client right left where
  runs := fun row own => (agree.runs row own).symm
  events := fun row mem own =>
    (agree.events row ((agree.runs row own).mpr mem) own).symm

theorem events_eq (agree : Agree client left right)
    (found : left.getRun runId = some row) (own : row.client = client) :
    left.events runId = right.events runId := by
  rw [Ledger.getRun_eq_some_iff] at found
  rw [← found.2]
  exact agree.events row found.1 own

end Agree

section Owned

variable {quote : String → String} {caller : Caller} {left right : Ledger}
  {runId : RunId} {row : RunRow}

theorem getRun_of_owned (bridge : caller.tier = .bridge)
    (found : owned quote caller left runId = .ok row) :
    left.getRun runId = some row ∧ row.client = caller.name := by
  unfold owned at found
  split at found
  · cases found
  · rename_i other present
    split at found
    · cases found
    · rename_i own
      obtain rfl : other = row := by simpa using found
      refine ⟨present, ?_⟩
      simpa [bridge] using own

theorem owned_eq_error (bridge : caller.tier = .bridge)
    (foreign : ∀ row, left.getRun runId = some row →
      row.client ≠ caller.name) :
    owned quote caller left runId = .error (notFound quote runId) := by
  unfold owned
  split
  · rfl
  · rename_i other present
    simp [bridge, foreign other present]

theorem Agree.owned (agree : Agree caller.name left right)
    (bridge : caller.tier = .bridge) (runId : RunId) :
    owned quote caller left runId = owned quote caller right runId := by
  by_cases own : ∃ row, left.getRun runId = some row ∧
      row.client = caller.name
  · rcases own with ⟨row, found, isOwn⟩
    simp only [Bridge.owned, found, agree.getRun found isOwn]
  · have absent : ∀ row, right.getRun runId = some row →
        row.client ≠ caller.name := by
      intro row found isOwn
      exact own ⟨row, agree.symm.getRun found isOwn, isOwn⟩
    rw [owned_eq_error bridge absent, owned_eq_error bridge]
    intro row found isOwn
    exact own ⟨row, found, isOwn⟩

end Owned

/-! ## Updates of the client's own runs -/

section Updates

variable {client : String} {left right : Ledger} {runId : RunId}
  {row : RunRow} {change : RunRow → RunRow}

/-- A change of one row on both sides. -/
theorem Agree.setRun (agree : Agree client left right)
    (keeps : ∀ row, (change row).client = row.client) :
    Agree client (left.setRun runId change) (right.setRun runId change) := by
  have half : ∀ {left right : Ledger}, Agree client left right → ∀ row,
      row.client = client → row ∈ (left.setRun runId change).runs →
        row ∈ (right.setRun runId change).runs := by
    intro left right agree row own mem
    rw [Ledger.mem_setRun] at mem ⊢
    rcases mem with ⟨old, listed, rfl⟩
    refine ⟨old, (agree.runs old ?_).mp listed, rfl⟩
    rw [← own]
    split
    · exact (keeps old).symm
    · rfl
  refine ⟨fun row own => ⟨half agree row own, half agree.symm row own⟩, ?_⟩
  intro row mem own
  rw [Ledger.mem_setRun] at mem
  rcases mem with ⟨old, listed, rfl⟩
  have same : (if old.runId = runId then
      { change old with runId := old.runId } else old).runId =
        old.runId := by
    split <;> rfl
  rw [same]
  refine agree.events old listed ?_
  rw [← own]
  split
  · exact (keeps old).symm
  · rfl

/-- A change of a row of the client. -/
theorem Spares.setRun (found : left.getRun runId = some row)
    (own : row.client = client)
    (keeps : ∀ row, (change row).client = row.client) :
    Spares client left (left.setRun runId change) := by
  refine ⟨?_, rfl⟩
  have isOwn : ∀ other ∈ left.runs, other.runId = runId →
      other.client = client := by
    intro other mem same
    rw [Ledger.getRun_eq_some_iff] at found
    rw [Ledger.eq_of_runId mem found.1 (same.trans found.2.symm), own]
  intro other foreign
  rw [Ledger.mem_setRun]
  constructor
  · rintro ⟨old, listed, rfl⟩
    by_cases same : old.runId = runId
    · rw [if_pos same] at foreign
      exact absurd ((keeps old).trans (isOwn old listed same)) foreign
    · rw [if_neg same]
      exact listed
  · intro listed
    refine ⟨other, listed, ?_⟩
    rw [if_neg]
    intro same
    exact foreign (isOwn other listed same)

theorem Spares.refl (ledger : Ledger) : Spares client ledger ledger :=
  ⟨fun _ _ => Iff.rfl, rfl⟩

theorem updateLive_eq (found : left.getRun runId = some row)
    (decide : RunRow → Changes) (now : Time) :
    left.updateLive runId decide now =
      if row.status.isTerminal || (decide row).isEmpty then (left, none)
      else
        (left.setRun runId fun old => old.update (decide row) now,
          some (row.update (decide row) now)) := by
  unfold Ledger.updateLive Ledger.record
  simp only [found, Option.bind_some, Bool.true_and, Option.map_none,
    Option.getD_none, Option.isSome_none, Bool.or_false]
  by_cases isOver : row.status.isTerminal = true
  · simp [isOver]
  · by_cases empty : (decide row).isEmpty = true
    · simp [isOver, empty]
    · have after : (left.setRun runId fun old =>
          old.update (decide row) now).getRun runId =
            some (row.update (decide row) now) := by
        rw [Ledger.getRun_setRun, found]
        simp [RunRow.update]
      simp [isOver, empty, after]

theorem Agree.updateLive (agree : Agree client left right)
    (found : left.getRun runId = some row) (own : row.client = client)
    (decide : RunRow → Changes) (now : Time) :
    (left.updateLive runId decide now).2 =
        (right.updateLive runId decide now).2 ∧
      Agree client (left.updateLive runId decide now).1
        (right.updateLive runId decide now).1 ∧
      Spares client left (left.updateLive runId decide now).1 ∧
      (left.updateLive runId decide now).1.getRun runId =
        (right.updateLive runId decide now).1.getRun runId := by
  have same := agree.getRun found own
  rw [updateLive_eq found, updateLive_eq same]
  split
  · exact ⟨rfl, agree, .refl left, found.trans same.symm⟩
  · refine ⟨rfl, agree.setRun fun _ => rfl, .setRun found own fun _ => rfl, ?_⟩
    simp only [Ledger.getRun_setRun, found, same]

end Updates

/-! ## Listings -/

instance : Std.Total Ledger.listedBefore where
  total left right := by
    unfold Ledger.listedBefore
    rcases Nat.lt_trichotomy left.createdAt right.createdAt with
      older | same | newer
    · exact .inr (.inl older)
    · rcases le_total right.runId left.runId with greater | less
      · exact .inl (.inr ⟨same.symm, greater⟩)
      · exact .inr (.inr ⟨same, less⟩)
    · exact .inl (.inl newer)

instance : IsTrans RunRow Ledger.listedBefore where
  trans first second third before after := by
    unfold Ledger.listedBefore at before after ⊢
    rcases before with older | ⟨same, greater⟩
    · rcases after with later | ⟨again, _⟩
      · exact .inl (later.trans older)
      · exact .inl (again ▸ older)
    · rcases after with later | ⟨again, less⟩
      · exact .inl (same ▸ later)
      · exact .inr ⟨again.trans same, less.trans greater⟩

/-- A client lists its own runs only. -/
theorem Agree.listRuns {client : String} {left right : Ledger}
    (agree : Agree client left right) (status : Option String)
    (limit : Nat) :
    left.listRuns (some client) status limit =
      right.listRuns (some client) status limit := by
  unfold Ledger.listRuns
  congr 1
  have perm : (left.runs.filter fun row =>
      (some client).all (row.client = ·) &&
        status.all (row.status.text = ·)).Perm
      (right.runs.filter fun row =>
        (some client).all (row.client = ·) &&
          status.all (row.status.text = ·)) := by
    rw [perm_ext_iff_of_nodup (left.unique.of_map.filter _)
      (right.unique.of_map.filter _)]
    intro row
    simp only [mem_filter, Option.all_some, Bool.and_eq_true,
      decide_eq_true_eq]
    constructor
    · rintro ⟨mem, own, shown⟩
      exact ⟨(agree.runs row own).mp mem, own, shown⟩
    · rintro ⟨mem, own, shown⟩
      exact ⟨(agree.runs row own).mpr mem, own, shown⟩
  have sorted : ∀ rows : List RunRow,
      (rows.insertionSort Ledger.listedBefore).Pairwise
        Ledger.listedBefore :=
    pairwise_insertionSort _
  refine List.Perm.eq_of_pairwise ?_ (sorted _) (sorted _)
    ((perm_insertionSort _ _).trans
      (perm.trans (perm_insertionSort _ _).symm))
  intro first second memFirst memSecond before after
  have listed : first ∈ left.runs := by
    rw [mem_insertionSort] at memFirst
    exact (mem_filter.mp memFirst).1
  have listed' : second ∈ left.runs := by
    rw [mem_insertionSort] at memSecond
    exact (mem_filter.mp (perm.mem_iff.mpr memSecond)).1
  refine Ledger.eq_of_runId listed listed' ?_
  unfold Ledger.listedBefore at before after
  rcases before with older | ⟨same, greater⟩
  · rcases after with later | ⟨again, _⟩
    · exact absurd (older.trans later) (lt_irrefl _)
    · exact absurd older (by simp [again])
  · rcases after with later | ⟨_, less⟩
    · exact absurd later (by simp [same])
    · exact le_antisymm less greater

/-! ## Calls -/

/-- Two outcomes of one call which a client cannot tell apart. -/
structure Isolated (client : String) (left right : Ledger)
    (first second : Outcome) : Prop where
  result : first.result = second.result
  sent : first.sent = second.sent
  withdrawn : first.withdrawn = second.withdrawn
  agree : Agree client first.ledger second.ledger
  spares : Spares client left first.ledger
  reaches : ∀ call ∈ first.sent, left.Owns client call.runId

section Calls

variable {quote : String → String} {hermes : Hermes} {now : Time}
  {caller : Caller} {left right : Ledger} {runId : RunId} {row : RunRow}

theorem Isolated.reads {client : String} (agree : Agree client left right)
    {first second : Except BridgeError Reply} (same : first = second) :
    Isolated client left right (.reads left first) (.reads right second) where
  result := same
  sent := rfl
  withdrawn := rfl
  agree := agree
  spares := .refl left
  reaches := by simp [Outcome.reads]

section

variable (agree : Agree caller.name left right)
include agree

theorem Isolated.onOwned (bridge : caller.tier = .bridge)
    {first second : RunRow → Outcome}
    (own : ∀ row, left.getRun runId = some row → row.client = caller.name →
      right.getRun runId = some row →
      Isolated caller.name left right (first row) (second row)) :
    Isolated caller.name left right (onOwned quote caller left runId first)
      (onOwned quote caller right runId second) := by
  unfold Bridge.onOwned
  rw [← agree.owned bridge]
  cases checked : Bridge.owned quote caller left runId with
  | error error => exact .reads agree rfl
  | ok row =>
    have found := getRun_of_owned bridge checked
    exact own row found.1 found.2 (agree.getRun found.1 found.2)

theorem Isolated.answerRun (found : left.getRun runId = some row)
    (own : row.client = caller.name) (requestId answer : String) :
    Isolated caller.name left right
      (answerRun quote hermes now left row runId requestId answer)
      (answerRun quote hermes now right row runId requestId answer) := by
  have owns : left.Owns caller.name runId :=
    ⟨row, (Ledger.getRun_eq_some_iff.mp found).1,
      (Ledger.getRun_eq_some_iff.mp found).2, own⟩
  have settled := agree.updateLive found own
    (RunRow.clearPending (some requestId)) now
  unfold Bridge.answerRun
  split
  · exact .reads agree rfl
  · split
    · exact .reads agree rfl
    · simp only
      split
      · exact ⟨rfl, rfl, rfl, agree, .refl left, by
          simpa [HermesCall.runId] using owns⟩
      · refine ⟨?_, rfl, rfl, settled.2.1, settled.2.2.1, by
          simpa [HermesCall.runId] using owns⟩
        simp only [freshView, settled.1, settled.2.2.2]

theorem Isolated.steerRun (found : left.getRun runId = some row)
    (own : row.client = caller.name) (input : String) :
    Isolated caller.name left right
      (steerRun quote hermes left row runId input)
      (steerRun quote hermes right row runId input) := by
  have owns : left.Owns caller.name runId :=
    ⟨row, (Ledger.getRun_eq_some_iff.mp found).1,
      (Ledger.getRun_eq_some_iff.mp found).2, own⟩
  unfold Bridge.steerRun
  split
  · exact .reads agree rfl
  · simp only
    split
    · exact ⟨rfl, rfl, rfl, agree, .refl left, by
        simpa [HermesCall.runId] using owns⟩
    · exact ⟨rfl, rfl, rfl, agree, .refl left, by
        simpa [HermesCall.runId] using owns⟩
    · refine ⟨?_, rfl, rfl, agree, .refl left, by
        simpa [HermesCall.runId] using owns⟩
      simp only [freshView, found, agree.getRun found own]

theorem Isolated.stopRun (found : left.getRun runId = some row)
    (own : row.client = caller.name) :
    Isolated caller.name left right
      (stopRun quote hermes now left row runId)
      (stopRun quote hermes now right row runId) := by
  have owns : left.Owns caller.name runId :=
    ⟨row, (Ledger.getRun_eq_some_iff.mp found).1,
      (Ledger.getRun_eq_some_iff.mp found).2, own⟩
  unfold Bridge.stopRun
  split
  · exact .reads agree rfl
  · simp only
    split
    · exact ⟨rfl, rfl, rfl, agree, .refl left, by
        simpa [HermesCall.runId] using owns⟩
    · rename_i reported _
      have stopped := agree.updateLive found own
        (RunRow.stopChanges (stopStatus reported)) now
      refine ⟨?_, rfl, rfl, stopped.2.1, stopped.2.2.1, by
        simpa [HermesCall.runId] using owns⟩
      simp only [freshView, stopped.1, stopped.2.2.2]

end

theorem runEventsWindow_congr
    (same : left.events runId = right.events runId) (sinceSeq limit : Int) :
    runEventsWindow left runId sinceSeq limit =
      runEventsWindow right runId sinceSeq limit := by
  have since : ∀ seq most, left.eventsSince runId seq most =
      right.eventsSince runId seq most := by
    intro seq most
    rw [Ledger.eventsSince, same, Ledger.eventsSince]
  have before : ∀ seq, left.textBefore runId seq =
      right.textBefore runId seq := by
    intro seq
    rw [Ledger.textBefore, Ledger.eventsBefore, same, Ledger.textBefore,
      Ledger.eventsBefore]
  simp only [runEventsWindow, since, before]

/-- Every call is answered alike from both ledgers. -/
theorem isolated_of_agree (agree : Agree caller.name left right)
    (bridge : caller.tier = .bridge) (call : Call) :
    Isolated caller.name left right
      (perform quote hermes now caller left call)
      (perform quote hermes now caller right call) := by
  cases call with
  | getRun runId =>
    exact .onOwned agree bridge fun row _ _ _ => .reads agree rfl
  | listRuns status limit client =>
    refine .reads agree ?_
    cases scope : listScope caller client with
    | none => rfl
    | some shown =>
      obtain rfl : some caller.name = shown := by
        simp only [listScope, bridge] at scope
        split at scope
        · cases scope
        · exact Option.some.inj scope
      simp only [agree.listRuns]
  | runEvents runId sinceSeq limit =>
    refine .onOwned agree bridge fun row found own _ => .reads agree ?_
    simp only [Ledger.eventsSince, agree.events_eq found own]
  | runEventsWindow runId sinceSeq limit =>
    refine .onOwned agree bridge fun row found own _ => .reads agree ?_
    rw [runEventsWindow_congr (agree.events_eq found own)]
  | eventsBefore runId seq =>
    refine .onOwned agree bridge fun row found own _ => .reads agree ?_
    simp only [Ledger.textBefore, Ledger.eventsBefore,
      agree.events_eq found own]
  | waitRun runId expired =>
    refine .onOwned agree bridge fun row found own _ => .reads agree ?_
    simp only [Ledger.lastEvents, agree.events_eq found own]
  | answerRun runId requestId answer =>
    exact .onOwned agree bridge fun row found own _ =>
      .answerRun agree found own requestId answer
  | steerRun runId input =>
    exact .onOwned agree bridge fun row found own _ =>
      .steerRun agree found own input
  | stopRun runId =>
    exact .onOwned agree bridge fun row found own _ =>
      .stopRun agree found own

end Calls

/-! ## Keys -/

/-- A client's name has no colon. -/
theorem colon_notMem {name : String} (valid : validName name = true) :
    ':' ∉ name.toList := by
  intro mem
  unfold validName at valid
  split at valid
  · rename_i isEmpty
    rw [isEmpty] at mem
    cases mem
  · rename_i first rest isCons
    simp only [Bool.and_eq_true, all_eq_true] at valid
    rw [isCons] at mem
    rcases mem_cons.mp mem with rfl | listed
    · exact absurd valid.1.1 (by decide)
    · exact absurd (valid.1.2 ':' listed) (by decide)

theorem append_cons_cancel {α : Type} {separator : α} :
    ∀ {head other tail rest : List α}, separator ∉ head →
      separator ∉ other →
      head ++ separator :: tail = other ++ separator :: rest →
        head = other ∧ tail = rest
  | [], [], tail, rest, _, _, same => by simpa using same
  | [], first :: other, tail, rest, _, without, same => by
      rw [nil_append, cons_append, List.cons.injEq] at same
      exact absurd (mem_cons.mpr (.inl same.1)) without
  | first :: head, [], tail, rest, without, _, same => by
      rw [nil_append, cons_append, List.cons.injEq] at same
      exact absurd (mem_cons.mpr (.inl same.1.symm)) without
  | first :: head, second :: other, tail, rest, without, without', same => by
      rw [cons_append, cons_append, List.cons.injEq] at same
      have cut := append_cons_cancel
        (fun mem => without (mem_cons_of_mem _ mem))
        (fun mem => without' (mem_cons_of_mem _ mem)) same.2
      exact ⟨by rw [same.1, cut.1], cut.2⟩

/-- A session key has one client and one key. -/
theorem namespaced_injective {caller other : Caller}
    {key key' code code' what what' sent : String}
    (first : namespaced caller.name key code what = .ok sent)
    (second : namespaced other.name key' code' what' = .ok sent) :
    caller.name = other.name ∧ key = key' := by
  have shape : ∀ {name key code what : String},
      namespaced name key code what = .ok sent →
        sent.toList = "hal0-bridge:".toList ++
          (name.toList ++ ':' :: key.toList) := by
    intro name key code what found
    unfold namespaced at found
    split at found
    · cases found
    · obtain rfl : keyPrefix name ++ key = sent := by simpa using found
      simp [keyPrefix, String.toList_append]
  have same := (shape first).symm.trans (shape second)
  rw [append_right_inj] at same
  have cut := append_cons_cancel (colon_notMem caller.valid)
    (colon_notMem other.valid) same
  exact ⟨String.toList_injective cut.1, String.toList_injective cut.2⟩

/-! ## Isolation -/

/-- The run on which a call is. -/
def Call.target : Call → Option RunId
  | .getRun runId => some runId
  | .listRuns _ _ _ => none
  | .runEvents runId _ _ => some runId
  | .runEventsWindow runId _ _ => some runId
  | .eventsBefore runId _ => some runId
  | .waitRun runId _ => some runId
  | .answerRun runId _ _ => some runId
  | .steerRun runId _ => some runId
  | .stopRun runId => some runId

/-- A run of another client is not found. -/
theorem perform_foreign {quote : String → String} {hermes : Hermes}
    {now : Time} {caller : Caller} {ledger : Ledger} {call : Call}
    {runId : RunId} (bridge : caller.tier = .bridge)
    (target : call.target = some runId)
    (foreign : ∀ row, ledger.getRun runId = some row →
      row.client ≠ caller.name) :
    perform quote hermes now caller ledger call =
      .reads ledger (.error (notFound quote runId)) := by
  have refused : ∀ go, onOwned quote caller ledger runId go =
      .reads ledger (.error (notFound quote runId)) := by
    intro go
    rw [onOwned, owned_eq_error bridge foreign]
  cases call with
  | listRuns status limit client => cases target
  | getRun id =>
    obtain rfl := Option.some.inj target
    exact refused _
  | runEvents id sinceSeq limit =>
    obtain rfl := Option.some.inj target
    exact refused _
  | runEventsWindow id sinceSeq limit =>
    obtain rfl := Option.some.inj target
    exact refused _
  | eventsBefore id seq =>
    obtain rfl := Option.some.inj target
    exact refused _
  | waitRun id expired =>
    obtain rfl := Option.some.inj target
    exact refused _
  | answerRun id requestId answer =>
    obtain rfl := Option.some.inj target
    exact refused _
  | steerRun id input =>
    obtain rfl := Option.some.inj target
    exact refused _
  | stopRun id =>
    obtain rfl := Option.some.inj target
    exact refused _

/--
A client's calls come out the same in all ledgers which agree on the client's
runs, a foreign run answers as a missing one, and the keys sent to Hermes
tell the client and its key.
-/
theorem clients_isolated (quote : String → String) (hermes : Hermes)
    (now : Time) (caller : Caller) (bridge : caller.tier = .bridge) :
    (∀ left right call, Agree caller.name left right →
      Isolated caller.name left right
        (perform quote hermes now caller left call)
        (perform quote hermes now caller right call)) ∧
    (∀ ledger call runId, call.target = some runId →
      (∀ row, ledger.getRun runId = some row → row.client ≠ caller.name) →
        perform quote hermes now caller ledger call =
          .reads ledger (.error (notFound quote runId))) ∧
    ∀ (other : Caller) (key key' code code' what what' sent : String),
      namespaced caller.name key code what = .ok sent →
      namespaced other.name key' code' what' = .ok sent →
        caller.name = other.name ∧ key = key' := by
  refine ⟨?_, ?_, ?_⟩
  · intro left right call agree
    exact isolated_of_agree agree bridge call
  · intro ledger call runId target foreign
    exact perform_foreign bridge target foreign
  · intro other key key' code code' what what' sent first second
    exact namespaced_injective first second

/-- The bridge client `claude`. -/
def claudeCaller : Caller := ⟨.bridge, "claude", by decide⟩

/-- A run which is under way for the client. -/
def freshRun (runId client : String) : RunRow where
  runId := runId
  client := client
  agent := "hermes"
  profile := "default"
  sessionKey := none
  status := .running
  createdAt := 1
  updatedAt := 1
  inputPreview := "task"
  output := none
  error := none
  usage := none
  admissionId := none
  executionGeneration := none
  pending := none
  lastSeq := 0

/-- A ledger with one run of `codex`. -/
def codexLedger : Ledger := ⟨[freshRun "r1" "codex"], fun _ => [], by decide⟩

/-- A run that `claude` cannot stop. -/
theorem codex_run_hidden_from_claude :
    codexLedger.getRun "r1" = some (freshRun "r1" "codex") ∧
    Isolated "claude" codexLedger .empty
      (perform id (fun _ => .ok none) 2 claudeCaller codexLedger
        (.stopRun "r1"))
      (perform id (fun _ => .ok none) 2 claudeCaller .empty
        (.stopRun "r1")) := by
  refine ⟨rfl, (clients_isolated id (fun _ => .ok none) 2 claudeCaller
    rfl).1 _ _ _ ?_⟩
  constructor
  · intro row own
    constructor
    · intro mem
      rw [mem_singleton.mp mem] at own
      exact absurd own (by decide)
    · intro mem
      cases mem
  · intro row mem own
    rw [mem_singleton.mp mem] at own
    exact absurd own (by decide)

end Hal0.Bridge
