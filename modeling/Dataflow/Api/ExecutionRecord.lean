import Dataflow.Api.QuotaInterleaving

/-!
# The row of a started execution

`fireExecution` starts the workflow, and then inserts the row of the execution. The workflow marks
the row with its final phase, which is an update that may find no row yet.

* `Firing`, `FireState`, `Firing.step`: the system: the statements of `fireExecution`, and the
  updates of the workflow it starts.
* `RecordPhase`, `recordProtocol`: how far `fireExecution` has come with the row.
* `Firing.InTime`: when an event does no harm: a mark runs after the row is there, what happens
  between the start of the workflow and the row does not fail, and the workflow marks the row before
  it ends.
* `row_closed_of_run`: **the row of a finished execution is there, and has a terminal phase**, as
  long as every event does no harm.
* `row_left_running`: the workflow is faster than the row, and the row stays as it was inserted.
* `row_left_unmarked`: the workflow ends without a mark, and the row stays as it was inserted.

Source: `temporal.go` `fireExecution`, `activities.go` `MarkExecution`
-/

set_option linter.unusedSectionVars false

namespace Dataflow.Api

open Model Library Library.Transition Option

/-! ## The system -/

/-- The two parties: the server, and the worker that runs the workflow. -/
inductive Side where
  | server
  | worker
  deriving DecidableEq

/-- How far the workflow has come: it may have marked the execution with a terminal phase. -/
inductive WorkflowRun where
  | notStarted
  | running (marked : Bool)
  | finished
  deriving DecidableEq

/-- The tables, what `fireExecution` has still to do, and the workflow. -/
structure FireState where
  tables : Tables Side
  program : Program (Except ApiError String)
  workflow : WorkflowRun

/-- A call of `fireExecution`, an update of the workflow, or its end. -/
inductive FireEvent where
  | call (fault : Fault) (month : String)
  | mark (phase : Model.Phase)
  | finish

/-- An execution that is fired; Temporal starts the run `runId`. -/
structure Firing where
  request : FireRequest
  minted : Minted
  runId : String

/-- The first statement of `MarkExecution`, which is a transaction of its own. -/
def Tables.markExecution (tables : Tables Side) (executionId : String) (phase : Model.Phase) :
    Option (Tables Side) :=
  (tables.executions.update .worker executionId fun row => { row with phase := phase.word }).map
    fun executions => { tables with executions := executions.commit .worker }

/-- The workflow after a call: it is started, or terminated. -/
def WorkflowRun.after (workflow : WorkflowRun) (fault : Fault) : Call → WorkflowRun
  | .executeWorkflow _ _ _ => if fault.takesEffect then .running false else workflow
  | .terminateWorkflow _ _ _ => if fault.takesEffect then .finished else workflow
  | _ => workflow

namespace Firing

variable (firing : Firing)

/-- Nothing has been done yet. -/
def start (rows : Rows) : FireState where
  tables := ⟨.ofRows rows.plans, .ofRows rows.counters, .ofRows rows.executions⟩
  program := fireExecution firing.request firing.minted
  workflow := .notStarted

/-- One step. A workflow may end without a mark: `DynamicDAGWorkflow` returns the errors of its plan,
of `PrepareNode` and of the commits as they are. -/
def step (s : FireState) : FireEvent → Option FireState
  | .call fault month =>
    match s.program with
    | .done _ => none
    | .await call resume =>
      (exec .server firing.runId fault call s.tables).map fun result =>
        { tables := result.2, program := resume result.1 month
          workflow := s.workflow.after fault call }
  | .mark phase =>
    match s.workflow with
    | .running _ =>
      if phase.Terminal then
        (s.tables.markExecution firing.minted.executionId phase).map fun tables =>
          { s with tables := tables, workflow := .running true }
      else none
    | _ => none
  | .finish =>
    match s.workflow with
    | .running _ => some { s with workflow := .finished }
    | _ => none

/-- The row as committed. -/
def row (s : FireState) : Option ExecutionRow :=
  s.tables.executions.committed firing.minted.executionId

/-- What `fireExecution` does after the start of the workflow does not fail, nor is the reply to the
start lost. -/
def Harmless : Call → Fault → Prop
  | .executeWorkflow _ _ _, .replyLost _ => False
  | .begin .record, fault | .insertExecution _ _, fault | .startPartition _ _, fault
  | .commit .record, fault => fault = .none
  | _, _ => True

/-- An event does no harm: a mark finds the row, and the workflow ends after it has marked the
execution with a terminal phase. -/
def InTime (s : FireState) : FireEvent → Prop
  | .call fault _ =>
    match s.program with
    | .done _ => True
    | .await call _ => Harmless call fault
  | .mark _ => (firing.row s).isSome = true
  | .finish => s.workflow = .running true

/-- **The execution is closed**: once the workflow has finished and `fireExecution` has returned,
the row is there and has a terminal phase. -/
def Closed (s : FireState) : Prop :=
  s.workflow = .finished → (∃ result, s.program = .done result) →
    ∃ row, ∃ phase : Model.Phase, firing.row s = some row ∧ row.phase = phase.word ∧ phase.Terminal

end Firing

/-! ## The protocol -/

/-- How far `fireExecution` has come with the row. -/
inductive RecordPhase where
  /-- The workflow is not started. -/
  | unstarted
  /-- The workflow is started. -/
  | started
  /-- In the transaction that records the execution. -/
  | begun
  /-- The row is inserted. -/
  | inserted
  /-- The row is committed. -/
  | recorded
  /-- Something has failed after the start of the workflow. -/
  | failed

/-- The call is about the quota. -/
def Call.OfQuota : Call → Prop
  | .begin .record | .commit .record | .rollback .record => False
  | .insertExecution _ _ | .startPartition _ _ => False
  | .executeWorkflow _ _ _ | .terminateWorkflow _ _ _ => False
  | _ => True

namespace RecordPhase

/-- The calls in a phase. -/
def allows (executionId : String) : RecordPhase → Call → Prop
  | unstarted, .executeWorkflow _ _ _ => True
  | unstarted, call => call.OfQuota
  | started, .begin .record => True
  | begun, .insertExecution row _ => row.id = executionId
  | inserted, .startPartition _ _ | inserted, .commit .record => True
  | failed, _ => True
  | _, _ => False

/-- The phase after a reply. -/
def next : RecordPhase → (call : Call) → CallReply call → RecordPhase
  | unstarted, .executeWorkflow _ _ _, .ok _ => started
  | unstarted, _, _ => unstarted
  | started, .begin _, .ok () => begun
  | begun, .insertExecution _ _, .ok () => inserted
  | inserted, .startPartition _ _, .ok () => inserted
  | inserted, .commit _, .ok () => recorded
  | _, _, _ => failed

end RecordPhase

/-- The protocol of `fireExecution` with the row. -/
def recordProtocol (executionId : String) :
    Coroutine.Protocol Call CallReply String RecordPhase where
  allows := RecordPhase.allows executionId
  next := RecordPhase.next
  sees _ := True

/-- Where `fireExecution` ends. -/
def Returned (phase : RecordPhase) (_ : Except ApiError String) : Prop :=
  phase = .unstarted ∨ phase = .recorded ∨ phase = .failed

/-! ## The code keeps to the protocol -/

section follows

variable {executionId : String}

/-- The calls of `consumeQuota`. -/
theorem onlyCalls_consumeQuota (tenantId : String) :
    (consumeQuota tenantId).OnlyCalls Call.OfQuota := by
  refine ⟨trivial, ?_⟩
  rintro (err | _) month
  · exact trivial
  · apply Coroutine.OnlyCalls.bind
    · refine ⟨trivial, ?_⟩
      rintro (err | _) month
      · exact trivial
      · refine ⟨trivial, ?_⟩
        rintro (err | _) month
        · exact trivial
        · refine ⟨trivial, ?_⟩
          rintro (err | ⟨limit, used⟩) month
          · exact trivial
          · unfold chargeIfBelow
            dsimp only
            split_ifs
            · exact trivial
            · exact ⟨trivial, fun _ _ => trivial⟩
    · rintro (err | _)
      · exact ⟨trivial, fun _ _ => trivial⟩
      · exact ⟨trivial, fun _ _ => trivial⟩

/-- The calls of `releaseQuota`. -/
theorem onlyCalls_releaseQuota (tenantId : String) :
    (releaseQuota tenantId).OnlyCalls Call.OfQuota := by
  refine ⟨trivial, ?_⟩
  rintro (err | _) month
  · exact trivial
  · apply Coroutine.OnlyCalls.bind
    · exact ⟨trivial, fun _ _ => trivial⟩
    · rintro (err | _)
      · exact ⟨trivial, fun _ _ => trivial⟩
      · exact ⟨trivial, fun _ _ => trivial⟩

/-- Calls about the quota, before the workflow is started. -/
theorem follows_of_quota {α : Type} {c : Program α} (h : c.OnlyCalls Call.OfQuota) :
    (recordProtocol executionId).Follows (fun phase _ => phase = .unstarted) .unstarted c := by
  apply Coroutine.Protocol.Follows.of_onlyCalls _ _ h
  · intro call hcall
    cases call with
    | executeWorkflow => exact trivial
    | _ => exact hcall
  · intro call hcall reply
    cases call with
    | executeWorkflow => exact absurd hcall id
    | _ => rfl

/-- After a failure everything is allowed. -/
theorem follows_failed (c : Program (Except ApiError String)) :
    (recordProtocol executionId).Follows Returned .failed c := by
  induction c with
  | done value => exact .inr (.inr rfl)
  | await call k ih => exact ⟨trivial, fun reply month _ => ih reply month⟩

/-- The part after the start of the workflow. -/
theorem follows_afterStart (request : FireRequest) (minted : Minted) (runId : String) :
    (recordProtocol minted.executionId).Follows Returned .started
      (afterStart request minted (.ok runId)) := by
  refine ⟨trivial, ?_⟩
  rintro (err | _) month _
  · exact follows_failed _
  refine ⟨rfl, ?_⟩
  rintro (err | _) month _
  · exact follows_failed _
  split_ifs
  · refine ⟨trivial, ?_⟩
    rintro (err | _) month _
    · exact follows_failed _
    refine ⟨trivial, ?_⟩
    rintro (err | _) month _
    · exact follows_failed _
    · exact .inr (.inl rfl)
  · refine ⟨trivial, ?_⟩
    rintro (err | _) month _
    · exact follows_failed _
    · exact .inr (.inl rfl)

/-- **`fireExecution` keeps to the protocol.** -/
theorem fireExecution_follows_record (request : FireRequest) (minted : Minted) :
    (recordProtocol minted.executionId).Follows Returned .unstarted
      (fireExecution request minted) := by
  apply Coroutine.Protocol.Follows.bind (follows_of_quota (onlyCalls_consumeQuota _))
  rintro _ (err | _) rfl
  · exact .inl rfl
  · refine ⟨trivial, ?_⟩
    rintro (err | runId) month _
    · apply Coroutine.Protocol.Follows.bind (follows_of_quota (onlyCalls_releaseQuota _))
      rintro _ _ rfl
      exact .inl rfl
    · exact follows_afterStart request minted runId

end follows

/-! ## What a call does to the row -/

/-- A call about the quota leaves the executions, or ends a transaction on them. -/
theorem exec_ofQuota {runId : String} {fault : Fault} {call : Call} {tables tables' : Tables Side}
    {reply : CallReply call} (hcall : call.OfQuota)
    (h : exec .server runId fault call tables = some (reply, tables')) :
    tables'.executions = tables.executions ∨ tables'.executions = tables.executions.commit .server ∨
      tables'.executions = tables.executions.rollback .server := by
  by_cases hinner : call.Inner
  · refine .inl ?_
    rcases exec_cases hinner h with ⟨rfl, -⟩ | ⟨reply', hperform, -⟩
    · rfl
    · cases call with
      | commit | rollback => exact absurd hinner id
      | insertExecution | startPartition | executeWorkflow => exact absurd hcall id
      | terminateWorkflow => exact absurd hcall id
      | begin transaction =>
        cases hperform
        rfl
      | selectForUpdate tenantId month =>
        obtain ⟨⟨plan, plans⟩, -, hcounters⟩ := bind_eq_some_iff.mp hperform
        obtain ⟨⟨count, counters⟩, -, heq⟩ := map_eq_some_iff.mp hcounters
        cases plan <;> cases count <;> cases heq <;> rfl
      | insertPlan tenantId =>
        obtain ⟨plans, -, heq⟩ := map_eq_some_iff.mp hperform
        cases heq
        rfl
      | insertCounter | increment | decrement =>
        obtain ⟨counters, -, heq⟩ := map_eq_some_iff.mp hperform
        cases heq
        rfl
  · cases call with
    | commit transaction =>
      rcases exec_commit h with ⟨-, rfl⟩ | ⟨-, rfl, -⟩
      · exact .inr (.inl rfl)
      · exact .inr (.inr rfl)
    | rollback transaction =>
      rw [exec_rollback h]
      exact .inr (.inr rfl)
    | _ => exact absurd trivial hinner

/-- A row that nobody works on is left by the end of a transaction. -/
theorem executions_of_free {executions executions' : RowStore Side String ExecutionRow}
    {id : String} (hfree : executions.owner id = none)
    (h : executions' = executions ∨ executions' = executions.commit .server ∨
      executions' = executions.rollback .server) :
    executions'.committed id = executions.committed id ∧ executions'.owner id = none := by
  have hne : executions.owner id ≠ some .server := by
    rw [hfree]
    intro h
    cases h
  rcases h with rfl | rfl | rfl
  · exact ⟨rfl, hfree⟩
  · refine ⟨RowStore.visible_of_ne hne, ?_⟩
    rw [RowStore.commit_owner_of_ne hne, hfree]
  · refine ⟨rfl, ?_⟩
    rw [RowStore.rollback_owner_of_ne hne, hfree]

/-! ## The invariant -/

namespace Firing

variable (firing : Firing)

/-- The row is not there, and nobody works on it. -/
structure Absent (s : FireState) : Prop where
  row : firing.row s = none
  owner : s.tables.executions.owner firing.minted.executionId = none

/-- The row is inserted, and not committed. -/
structure Pending (s : FireState) : Prop where
  row : firing.row s = none
  owner : s.tables.executions.owner firing.minted.executionId = some .server
  pending : ∃ row, s.tables.executions.visible .server firing.minted.executionId = some row

/-- The row is there, with a terminal phase once it has been marked. -/
structure Recorded (s : FireState) : Prop where
  owner : s.tables.executions.owner firing.minted.executionId = none
  row : ∃ row, firing.row s = some row ∧ (s.workflow = .running true ∨ s.workflow = .finished →
      ∃ phase : Model.Phase, row.phase = phase.word ∧ phase.Terminal)

/-- **What holds in a phase.** -/
def Party (s : FireState) : RecordPhase → Prop
  | .unstarted => s.workflow = .notStarted ∧ firing.Absent s
  | .started | .begun => s.workflow = .running false ∧ firing.Absent s
  | .inserted => s.workflow = .running false ∧ firing.Pending s
  | .recorded => firing.Recorded s
  | .failed => False

/-- **What holds in every state reached.** -/
def Invariant (s : FireState) : Prop :=
  ∃ phase, (recordProtocol firing.minted.executionId).Follows Returned phase s.program ∧
    firing.Party s phase

section steps

variable {firing} {s s' : FireState} {phase : RecordPhase} {call : Call} {reply : CallReply call}
  {fault : Fault} {tables' : Tables Side}

/-- The row is absent as long as a call leaves the executions. -/
theorem Absent.congr (h : firing.Absent s)
    (hexecutions : s'.tables.executions = s.tables.executions) :
    firing.Absent s' := by
  constructor
  · rw [Firing.row, hexecutions]
    exact h.row
  · rw [hexecutions]
    exact h.owner

/-- **A call about the quota** leaves the row absent. -/
theorem Absent.ofQuota (h : firing.Absent s) (hcall : call.OfQuota)
    (hexec : exec .server firing.runId fault call s.tables = some (reply, s'.tables)) :
    firing.Absent s' := by
  obtain ⟨hcommitted, howner⟩ := executions_of_free h.owner (exec_ofQuota hcall hexec)
  exact ⟨hcommitted.trans h.row, howner⟩

/-- **The row is inserted.** -/
theorem Absent.insert (h : firing.Absent s) {row : ExecutionRow} {ignoreConflict : Bool}
    (hid : row.id = firing.minted.executionId) {result : Except ApiError Unit}
    (hinsert : s.tables.insertExecution .server row ignoreConflict = some (result, s'.tables)) :
    result = .ok () ∧ firing.Pending s' := by
  have hne : s.tables.executions.owner firing.minted.executionId ≠ some .server := by
    rw [h.owner]
    intro h
    cases h
  have hvisible : s.tables.executions.visible .server row.id = none := by
    rw [hid, RowStore.visible_of_ne hne]
    exact h.row
  have hfree : s.tables.executions.Free .server row.id := by
    rw [hid]
    exact .inl h.owner
  unfold Tables.insertExecution at hinsert
  rw [if_pos (.inl hvisible), RowStore.insertDoNothing, hvisible] at hinsert
  dsimp only at hinsert
  rw [if_pos hfree, map_some] at hinsert
  obtain ⟨hresult, htables⟩ := Prod.mk.inj (some.inj hinsert)
  refine ⟨hresult.symm, ?_⟩
  rw [hid] at htables
  constructor
  · rw [Firing.row, ← htables]
    exact h.row
  · rw [← htables]
    exact RowStore.hold_owner_self _
  · refine ⟨row, ?_⟩
    rw [← htables]
    exact RowStore.hold_visible_self _

/-- **The row is committed.** -/
theorem Pending.commit (h : firing.Pending s) (htables : s'.tables = s.tables.commit .server)
    (hworkflow : s'.workflow = .running false) : firing.Recorded s' := by
  obtain ⟨row, hrow⟩ := h.pending
  constructor
  · rw [htables]
    exact if_pos h.owner
  · refine ⟨row, ?_, ?_⟩
    · rw [Firing.row, htables]
      exact hrow
    · rw [hworkflow]
      rintro (hmarked | hfinished)
      · cases hmarked
      · cases hfinished

/-- **The row is marked.** -/
theorem Recorded.mark (h : firing.Recorded s) {final : Model.Phase} (hfinal : final.Terminal)
    (hmark : s.tables.markExecution firing.minted.executionId final = some s'.tables) :
    firing.Recorded s' := by
  obtain ⟨executions, hupdate, htables⟩ := map_eq_some_iff.mp hmark
  obtain ⟨row, hrow, -⟩ := h.row
  have hne : s.tables.executions.owner firing.minted.executionId ≠ some .worker := by
    rw [h.owner]
    intro h
    cases h
  have hvisible : s.tables.executions.visible .worker firing.minted.executionId = some row :=
    (RowStore.visible_of_ne hne).trans hrow
  obtain ⟨hown, hvisible', -⟩ := RowStore.update_some hvisible hupdate
  constructor
  · rw [← htables]
    exact if_pos hown
  · refine ⟨{ row with phase := final.word }, ?_, fun _ => ⟨final, rfl, hfinal⟩⟩
    rw [Firing.row, ← htables]
    exact hvisible'

/-- **A call of `fireExecution`** that does no harm. -/
theorem Party.after (h : firing.Party s phase)
    (hallow : RecordPhase.allows firing.minted.executionId phase call)
    (hharmless : Harmless call fault)
    (hexec : exec .server firing.runId fault call s.tables = some (reply, s'.tables))
    (hworkflow : s'.workflow = s.workflow.after fault call) :
    firing.Party s' (phase.next call reply) := by
  cases phase with
  | unstarted =>
    obtain ⟨hnot, habsent⟩ := h
    by_cases hquota : call.OfQuota
    · have hsame : s'.workflow = .notStarted := by
        rw [hworkflow, hnot]
        cases call with
        | executeWorkflow | terminateWorkflow => exact absurd hquota id
        | _ => rfl
      have hnext : RecordPhase.next .unstarted call reply = .unstarted := by
        cases call with
        | executeWorkflow => exact absurd hquota id
        | _ => rfl
      rw [hnext]
      exact ⟨hsame, habsent.ofQuota hquota hexec⟩
    · cases call with
      | executeWorkflow workflowName taskQueue input =>
        cases fault with
        | none =>
          obtain ⟨hreply, htables⟩ := Prod.mk.inj (some.inj hexec)
          subst hreply
          exact ⟨hworkflow, habsent.congr (by rw [← htables])⟩
        | fails err =>
          obtain ⟨hreply, htables⟩ := Prod.mk.inj (some.inj hexec)
          subst hreply
          exact ⟨hworkflow.trans hnot, habsent.congr (by rw [← htables]; rfl)⟩
        | replyLost err => exact absurd hharmless id
      | _ => exact absurd hallow hquota
  | started =>
    obtain ⟨hrunning, habsent⟩ := h
    cases call with
    | begin transaction =>
      cases transaction with
      | record =>
        cases hharmless
        obtain ⟨hreply, htables⟩ := Prod.mk.inj (some.inj hexec)
        subst hreply
        exact ⟨hworkflow.trans hrunning, habsent.congr (by rw [← htables])⟩
      | _ => exact absurd hallow id
    | _ => exact absurd hallow id
  | begun =>
    obtain ⟨hrunning, habsent⟩ := h
    cases call with
    | insertExecution row ignoreConflict =>
      cases hharmless
      obtain ⟨hreply, hpending⟩ := habsent.insert hallow hexec
      subst hreply
      exact ⟨hworkflow.trans hrunning, hpending⟩
    | _ => exact absurd hallow id
  | inserted =>
    obtain ⟨hrunning, hpending⟩ := h
    cases call with
    | startPartition partitionId executionId =>
      cases hharmless
      obtain ⟨hreply, htables⟩ := Prod.mk.inj (some.inj hexec)
      subst hreply
      refine ⟨hworkflow.trans hrunning, ?_, ?_, ?_⟩
      · rw [row, ← htables]
        exact hpending.row
      · rw [← htables]
        exact hpending.owner
      · rw [← htables]
        exact hpending.pending
    | commit transaction =>
      cases transaction with
      | record =>
        cases hharmless
        obtain ⟨hreply, htables⟩ := Prod.mk.inj (some.inj hexec)
        subst hreply
        exact hpending.commit htables.symm (hworkflow.trans hrunning)
      | _ => exact absurd hallow id
    | _ => exact absurd hallow id
  | recorded => exact absurd hallow id
  | failed => exact absurd h id

/-- Before the row is committed it is not there, and the workflow has not marked it. -/
theorem Party.before (h : firing.Party s phase) (hphase : phase ≠ .recorded) :
    firing.row s = none ∧ (s.workflow = .notStarted ∨ s.workflow = .running false) := by
  cases phase with
  | recorded => exact absurd rfl hphase
  | failed => exact absurd h id
  | unstarted => exact ⟨h.2.row, .inl h.1⟩
  | started | begun | inserted => exact ⟨h.2.row, .inr h.1⟩

/-- The row that is there has been committed. -/
theorem Party.recorded (h : firing.Party s phase) (hrow : (firing.row s).isSome = true) :
    phase = .recorded := by
  by_contra hphase
  simp [(h.before hphase).1] at hrow

/-- The workflow has marked the row, which is there. -/
theorem Party.of_marked (h : firing.Party s phase)
    (hworkflow : s.workflow = .running true ∨ s.workflow = .finished) : firing.Recorded s := by
  have hphase : phase = .recorded := by
    by_contra hphase
    obtain ⟨-, hunmarked⟩ := h.before hphase
    rcases hunmarked with hunmarked | hunmarked
    · rw [hunmarked] at hworkflow
      rcases hworkflow with hmarked | hfinished
      · cases hmarked
      · cases hfinished
    · rw [hunmarked] at hworkflow
      rcases hworkflow with hmarked | hfinished
      · cases hmarked
      · cases hfinished
  cases hphase
  exact h

/-- **A step that does no harm keeps the invariant.** -/
theorem Invariant.step {e : FireEvent} (h : firing.Invariant s) (hok : firing.InTime s e)
    (hstep : firing.step s e = some s') : firing.Invariant s' := by
  obtain ⟨phase, hfollows, hparty⟩ := h
  cases e with
  | call fault month =>
    unfold Firing.step at hstep
    unfold InTime at hok
    dsimp only at hstep hok
    cases hprogram : s.program with
    | done result =>
      simp [hprogram] at hstep
    | await call resume =>
      rw [hprogram] at hstep hok hfollows
      obtain ⟨⟨reply, tables'⟩, hexec, rfl⟩ := map_eq_some_iff.mp hstep
      exact ⟨_, hfollows.2 reply month trivial, hparty.after hfollows.1 hok hexec rfl⟩
  | mark final =>
    cases hparty.recorded hok
    unfold Firing.step at hstep
    dsimp only at hstep
    cases hworkflow : s.workflow with
    | notStarted | finished =>
      simp [hworkflow] at hstep
    | running marked =>
      rw [hworkflow] at hstep
      dsimp only at hstep
      split_ifs at hstep with hfinal
      obtain ⟨tables, hmark, rfl⟩ := map_eq_some_iff.mp hstep
      exact ⟨.recorded, hfollows, Recorded.mark hparty hfinal hmark⟩
  | finish =>
    have hworkflow : s.workflow = .running true := hok
    unfold Firing.step at hstep
    rw [hworkflow] at hstep
    cases hstep
    have hrecorded := hparty.of_marked (.inl hworkflow)
    obtain ⟨row, hrow, hphase⟩ := hrecorded.row
    have hrow' : firing.row s ≠ none := by
      rw [hrow]
      intro h
      cases h
    cases hparty.recorded (isSome_iff_ne_none.mpr hrow')
    exact ⟨.recorded, hfollows, hrecorded.owner, row, hrow, fun _ => hphase (.inl hworkflow)⟩

/-- The invariant holds at the start, when the id is a new one. -/
theorem invariant_start {rows : Rows} (hnew : rows.executions firing.minted.executionId = none) :
    firing.Invariant (firing.start rows) :=
  ⟨.unstarted, fireExecution_follows_record _ _, rfl, hnew, rfl⟩

/-- **The execution is closed**: in a run whose events do no harm, once the workflow has finished
and `fireExecution` has returned, the row is there and has a terminal phase. -/
theorem row_closed_of_run {rows : Rows} {es : List FireEvent}
    (hnew : rows.executions firing.minted.executionId = none)
    (hrun : Run firing.step (fun _ => firing.InTime) (firing.start rows) es s) :
    firing.Closed s := by
  have hinvariant : firing.Invariant s := by
    apply hrun.invariant (I := fun _ s => firing.Invariant s)
    · exact invariant_start hnew
    · intro _ _ _ _ h hok hstep
      exact h.step hok hstep
  intro hfinished _
  obtain ⟨phase, -, hparty⟩ := hinvariant
  obtain ⟨row, hrow, hphase⟩ := (hparty.of_marked (.inr hfinished)).row
  obtain ⟨final, hfinal, hterminal⟩ := hphase (.inr hfinished)
  exact ⟨row, final, hrow, hfinal, hterminal⟩

end steps

end Firing

/-! ## A workflow that is fast -/

/-- An execution that is fired by hand. -/
def manualFiring : Firing where
  request :=
    { definition := { tenantId := "tenant" }, pipelineRowId := "row", triggerType := "manual"
      environment := "prod" }
  minted := { executionId := "exec-1", traceId := "trace" }
  runId := "run"

/-- No rows. -/
def noRows : Rows := ⟨fun _ => none, fun _ => none, fun _ => none⟩

/-- Calls that succeed. -/
def succeeding (n : ℕ) : List FireEvent := List.replicate n (.call .none "2026-01-01")

/-- The workflow completes, and ends. -/
def completing : List FireEvent := [.mark .completed, .finish]

instance (firing : Firing) (s : FireState) (e : FireEvent) : Decidable (firing.InTime s e) := by
  unfold Firing.InTime
  cases e with
  | call fault month =>
    cases s.program with
    | done _ => exact isTrue trivial
    | await call _ =>
      dsimp only
      unfold Firing.Harmless
      split <;> infer_instance
  | mark _ => exact inferInstanceAs (Decidable (_ = _))
  | finish => exact inferInstanceAs (Decidable (_ = _))

/-- The theorem at a workflow that completes after the row is there. -/
theorem row_closed_of_run_completed :
    ∃ s, Run manualFiring.step (fun _ => manualFiring.InTime) (manualFiring.start noRows)
      (succeeding 10 ++ completing) s ∧ s.workflow = .finished ∧ manualFiring.Closed s := by
  obtain ⟨s, hrun, hfinished⟩ : ∃ s, Run manualFiring.step (fun _ => manualFiring.InTime)
      (manualFiring.start noRows) (succeeding 10 ++ completing) s ∧ s.workflow = .finished :=
    exists_run_of_guarded (by decide +kernel)
  exact ⟨s, hrun, hfinished, Firing.row_closed_of_run rfl hrun⟩

/-- An execution whose row is still running is not closed. -/
theorem not_closed_of_running {firing : Firing} {s : FireState} (hfinished : s.workflow = .finished)
    (hreturned : s.program.value?.isSome = true)
    (hrunning : (firing.row s).map ExecutionRow.phase = some "running") : ¬ firing.Closed s := by
  intro hclosed
  have hdone : ∃ result, s.program = .done result := by
    cases hprogram : s.program with
    | done result => exact ⟨result, rfl⟩
    | await call resume =>
      rw [hprogram] at hreturned
      cases hreturned
  obtain ⟨row, phase, hrow, hphase, hterminal⟩ := hclosed hfinished hdone
  rw [hrow, map_some, hphase] at hrunning
  cases phase with
  | running | paused => exact hterminal
  | completed | failed | cancelled => exact absurd hrunning (by decide)

/-- A run after which both have finished, and the row is as it was inserted. -/
theorem exists_open {es : List FireEvent} (h : ∃ s, Run manualFiring.step Any
      (manualFiring.start noRows) es s ∧ s.workflow = .finished ∧ s.program.value?.isSome = true ∧
        (manualFiring.row s).map ExecutionRow.phase = some "running") :
    ∃ s, Run manualFiring.step Any (manualFiring.start noRows) es s ∧ ¬ manualFiring.Closed s := by
  obtain ⟨s, hrun, hfinished, hreturned, hrunning⟩ := h
  exact ⟨s, hrun, not_closed_of_running hfinished hreturned hrunning⟩

/-- **The row stays as it was inserted**: the workflow completes before the row is there. Nothing
fails. -/
theorem row_left_running : ∃ s, Run manualFiring.step Any (manualFiring.start noRows)
      (succeeding 7 ++ completing ++ succeeding 3) s ∧ ¬ manualFiring.Closed s :=
  exists_open (exists_run_of_check (fun _ _ _ _ => trivial) (by decide +kernel))

/-- **The row stays as it was inserted**: the workflow ends with an error of its commit, which it
does not mark. Nothing of `fireExecution` fails. -/
theorem row_left_unmarked : ∃ s, Run manualFiring.step Any (manualFiring.start noRows)
      (succeeding 10 ++ [.finish]) s ∧ ¬ manualFiring.Closed s :=
  exists_open (exists_run_of_check (fun _ _ _ _ => trivial) (by decide +kernel))

end Dataflow.Api
