import Dataflow.Api.ExecutionRetry

/-!
# Executions and their retries

Any number of requests to the server start executions or retry failed ones. Their statements
interleave with each other and with the workflows they have started.

* `Server`: the versions of the pipelines, the requests, the ids they mint, and the executions that
  schedules have recorded. The versions are never changed, and ids are new.
* `Store`: the rows of `executions`, those of open transactions, and the workflows.
* `Server.step`: the system. The statements about the quota may give any reply.
* `Stepped`: what a call of a request can do, given how far the request has come;
  `stepped_of_call` says that this is all.
* `Server.Tracks`: each request is in a phase, and stays in one when a call is made, a request is cut
  off, or a workflow marks its execution or is closed (`tracks_of_call` and the lemmas after it).

Source: `temporal.go` `fireExecution`, `routes_executions.go` `executionRetry`, `db/012`
-/

set_option linter.unusedSectionVars false

namespace Dataflow.Api.Retries

open Model Library Library.Transition Function

/-! ## The system -/

/-- A row of `pipelines`. -/
structure Version where
  id : String
  tenantId : String
  definition : PipelineDefinition
  deriving DecidableEq

/-- A workflow runs, has marked its execution with a terminal phase, or is closed. -/
inductive WorkflowStatus where
  | running
  | marked
  | closed
  deriving DecidableEq

/-- A workflow that `fireExecution` has started, and the execution that its request retries. -/
structure StartedWorkflow where
  input : WorkflowInput
  retryOf : Option String
  status : WorkflowStatus := .running
  deriving DecidableEq

/-- The id of the execution. -/
def StartedWorkflow.id (workflow : StartedWorkflow) : String := workflow.input.executionId

/-- The workflow is not closed. -/
def StartedWorkflow.Live (workflow : StartedWorkflow) : Prop := workflow.status ≠ .closed

/-- The tables and the workflows. Rows of an open transaction are kept with its request. -/
structure Store (ι : Type) where
  executions : List ExecutionRow
  uncommitted : List (ι × ExecutionRow) := []
  workflows : List StartedWorkflow := []
  deriving DecidableEq

/-- Two rows that may not both be there: the primary key, and the index
`idx_executions_one_active_retry`. -/
def Conflict (row row' : ExecutionRow) : Prop :=
  row.id = row'.id ∨
    row.retryOf ≠ none ∧ row.retryOf = row'.retryOf ∧ row.phase = "running" ∧ row'.phase = "running"

instance (row row' : ExecutionRow) : Decidable (Conflict row row') :=
  inferInstanceAs (Decidable (_ ∨ _))

namespace Store

variable {ι : Type} [DecidableEq ι] (store : Store ι)

/-- A row is inserted, and not committed. -/
def insert (i : ι) (row : ExecutionRow) : Store ι :=
  { store with uncommitted := store.uncommitted ++ [(i, row)] }

/-- The transaction of a request publishes its rows. -/
def commit (i : ι) : Store ι where
  executions := store.executions ++ (store.uncommitted.filter fun entry => entry.1 = i).map Prod.snd
  uncommitted := store.uncommitted.filter fun entry => entry.1 ≠ i
  workflows := store.workflows

/-- The transaction of a request drops its rows. -/
def rollback (i : ι) : Store ι :=
  { store with uncommitted := store.uncommitted.filter fun entry => entry.1 ≠ i }

/-- A workflow is started. -/
def start (input : WorkflowInput) (retryOf : Option String) : Store ι :=
  { store with workflows := store.workflows ++ [{ input := input, retryOf := retryOf }] }

/-- A workflow is closed. -/
def close (executionId : String) : Store ι :=
  { store with workflows := store.workflows.map fun workflow =>
      if workflow.id = executionId then { workflow with status := .closed } else workflow }

/-- The first statement of `MarkExecution`. The workflow goes on, and has to be closed. -/
def mark (executionId : String) (phase : Model.Phase) : Store ι where
  executions := store.executions.map fun row =>
    if row.id = executionId then { row with phase := phase.word } else row
  uncommitted := store.uncommitted
  workflows := store.workflows.map fun workflow =>
    if workflow.id = executionId ∧ workflow.status = .running then
      { workflow with status := .marked }
    else workflow

/-- `INSERT INTO executions`: it fails at a conflict with a committed row, and waits for another
transaction with which it is in conflict. -/
def insertExecution (i : ι) (row : ExecutionRow) (ignoreConflict : Bool) :
    Option (Except ApiError Unit × Store ι) :=
  if ∃ row' ∈ store.executions, Conflict row row' then
    if ignoreConflict then some (.ok (), store)
    else some (.error (.other "duplicate key value violates unique constraint"), store)
  else if ∃ entry ∈ store.uncommitted, entry.1 ≠ i ∧ Conflict row entry.2 then none
  else some (.ok (), store.insert i row)

end Store

/-- A request: an execution is fired, or retried. -/
inductive Handler where
  | fire (request : FireRequest)
  | retry (tenantId executionId : String)

/-- The execution that is retried. -/
def Handler.retryOf : Handler → Option String
  | .fire _ => none
  | .retry _ executionId => some executionId

/-- What is given: versions, requests with their new ids, and the executions of schedules. -/
structure Server (ι : Type) where
  versions : List Version
  handler : ι → Handler
  minted : ι → Minted
  scheduled : List ExecutionRow
  versions_nodup : (versions.map Version.id).Nodup
  minted_injective : Injective fun i => (minted i).executionId
  minted_ne_empty : ∀ i, (minted i).executionId ≠ ""
  scheduled_new : ∀ row ∈ scheduled,
    row.retryOf = none ∧ row.id ≠ "" ∧ ∀ i, row.id ≠ (minted i).executionId
  fires_version : ∀ i request, handler i = .fire request → request.retryOf = "" ∧
    ∃ version ∈ versions, version.id = request.pipelineRowId ∧
      version.definition = request.definition

/-- The store, and what the requests have still to do. -/
structure ServerState (ι : Type) where
  store : Store ι
  programs : ι → RetryProgram Unit

/-- What comes from outside of the store: the run that Temporal starts, what `consumeQuota` reads,
and the month. -/
structure Outside where
  runId : String := "run"
  read : ℤ × ℕ := (5, 0)
  month : String := "2026-01-01"

/-- A request makes its next call or is cut off, a workflow marks its execution, or is closed. -/
inductive ServerEvent (ι : Type) where
  | call (i : ι) (fault : Fault) (outside : Outside)
  | cut (i : ι)
  | mark (executionId : String) (phase : Model.Phase)
  | close (executionId : String)

/-- A request makes calls that succeed. -/
def succeedingCalls {ι : Type} (i : ι) (n : ℕ) : List (ServerEvent ι) :=
  List.replicate n (.call i .none {})

namespace Server

variable {ι : Type} (server : Server ι)

/-- The `SELECT` of `executionRetry`; a tenant sees its own rows. -/
def selectExecution (store : Store ι) (tenantId executionId : String) : Option RetryRow :=
  (store.executions.find? fun row => row.id = executionId ∧ row.tenantId = tenantId).bind fun row =>
    (server.versions.find? fun version =>
        version.id = row.pipelineId ∧ version.tenantId = tenantId).map fun version =>
      { id := row.id, phase := row.phase, pipelineId := row.pipelineId
        environment := row.environment, triggerType := row.triggerType
        definition := .ok version.definition
        activeRetryId := (store.executions.find? fun retry =>
          retry.retryOf = some row.id ∧ retry.phase = "running" ∧ retry.tenantId = tenantId).map
            ExecutionRow.id }

/-- What a request does. -/
def program (i : ι) : RetryProgram Unit :=
  match server.handler i with
  | .fire request =>
    (asServer (fireExecution request (server.minted i))).bind fun _ => .done ()
  | .retry tenantId executionId =>
    (executionRetry tenantId executionId (server.minted i)).bind fun _ => .done ()

/-- No request has come yet. -/
def initial : ServerState ι where
  store := { executions := server.scheduled }
  programs := server.program

/-- The phase in which a request begins. -/
def firstPhase (i : ι) : RetryPhase :=
  match server.handler i with
  | .fire request => .firing request .unstarted
  | .retry tenantId executionId => .reading tenantId executionId

/-- **A request keeps to the protocol.** -/
theorem program_follows (i : ι) :
    (retryProtocol (server.minted i)).Follows (fun phase _ => phase.Ended) (server.firstPhase i)
      (server.program i) := by
  unfold firstPhase program
  cases server.handler i with
  | fire request =>
    apply Coroutine.Protocol.Follows.bind (asServer_follows request _)
    exact fun _ _ hphase => hphase
  | retry tenantId executionId =>
    apply Coroutine.Protocol.Follows.bind (executionRetry_follows tenantId executionId _)
    exact fun _ _ hphase => hphase

variable [DecidableEq ι]

/-- A call of request `i` that does not fail. -/
def perform (i : ι) (outside : Outside) :
    (call : RetryCall) → Store ι → Option (RetryReply call × Store ι)
  | .selectExecution tenantId executionId, store =>
    some (Except.ok (server.selectExecution store tenantId executionId), store)
  | .server (.selectForUpdate _ _), store => some (Except.ok outside.read, store)
  | .server (.insertExecution row ignoreConflict), store =>
    store.insertExecution i row ignoreConflict
  | .server (.commit .record), store => some (Except.ok (), store.commit i)
  | .server (.rollback .record), store => some (Except.ok (), store.rollback i)
  | .server (.executeWorkflow _ _ input), store =>
    some (Except.ok outside.runId, store.start input (server.handler i).retryOf)
  | .server (.terminateWorkflow executionId _ _), store =>
    some (Except.ok (), store.close executionId)
  -- The rows of these calls are not among these tables.
  | .server (.begin _), store | .server (.insertPlan _), store
  | .server (.insertCounter _ _), store | .server (.increment _ _), store
  | .server (.decrement _ _), store | .server (.startPartition _ _), store
  | .server (.commit _), store | .server (.rollback _), store => some (Except.ok (), store)

/-- The reply that reports an error. -/
def errorReply (err : ApiError) : (call : RetryCall) → RetryReply call
  | .selectExecution _ _ => Except.error err
  | .server call => CallReply.error err call

/-- The store after a call that fails: the end of a transaction that fails rolls it back. -/
def afterFailure (i : ι) : RetryCall → Store ι → Store ι
  | .server (.commit .record), store | .server (.rollback .record), store => store.rollback i
  | _, store => store

/-- **A call of request `i`.** -/
def exec (i : ι) (fault : Fault) (outside : Outside) (call : RetryCall) (store : Store ι) :
    Option (RetryReply call × Store ι) :=
  match fault with
  | .none => server.perform i outside call store
  | .fails err => some (errorReply err call, afterFailure i call store)
  | .replyLost err => (server.perform i outside call store).map fun result =>
    (errorReply err call, result.2)

/-- **One step.** A request that is cut off has its transaction rolled back. -/
def step (s : ServerState ι) : ServerEvent ι → Option (ServerState ι)
  | .call i fault outside =>
    match s.programs i with
    | .done _ => none
    | .await call resume =>
      (server.exec i fault outside call s.store).map fun result =>
        { store := result.2
          programs := Function.update s.programs i (resume result.1 outside.month) }
  | .cut i => some
      { store := s.store.rollback i, programs := Function.update s.programs i (.done ()) }
  | .mark executionId phase =>
    if phase.Terminal then some { s with store := s.store.mark executionId phase } else none
  | .close executionId => some { s with store := s.store.close executionId }

end Server

/-! ## What a call can do -/

section stepped

variable {ι : Type} [DecidableEq ι] (server : Server ι) {request : FireRequest}

/-- **What a call of request `i` can do** to the store, and to the phase of the request. -/
inductive Stepped (i : ι) (call : RetryCall) (fault : Fault) (store : Store ι) :
    RetryPhase → Store ι → RetryPhase → Prop
  | refused {tenantId executionId : String} :
      Stepped i call fault store (.reading tenantId executionId) store .refused
  | accepted {tenantId executionId : String} {request : FireRequest}
      (h : retryRequest (.ok (server.selectExecution store tenantId executionId)) = .ok request) :
      Stepped i call fault store (.reading tenantId executionId) store (.firing request .unstarted)
  | quota {request : FireRequest} {phase : FirePhase} (h : phase.Ended) :
      Stepped i call fault store (.firing request phase) store (.firing request phase)
  | notStarted {request : FireRequest} :
      Stepped i call fault store (.firing request .unstarted) store (.firing request .finished)
  | starts {request : FireRequest} (runId : String) (hcall : call.IsStart) (h : fault = .none) :
      Stepped i call fault store (.firing request .unstarted)
        (store.start (workflowInput request (server.minted i)) (server.handler i).retryOf)
        (.firing request (.started runId))
  | startLost {request : FireRequest} (hcall : call.IsStart) {err : ApiError}
      (h : fault = .replyLost err) :
      Stepped i call fault store (.firing request .unstarted)
        (store.start (workflowInput request (server.minted i)) (server.handler i).retryOf)
        (.firing request .finished)
  | goesOn {request : FireRequest} {phase phase' : FirePhase} (h : phase.Open) (h' : phase'.Open)
      (hinserted : ∀ runId, phase' = .inserted runId → phase = .inserted runId) :
      Stepped i call fault store (.firing request phase) store (.firing request phase')
  | inserts {request : FireRequest} {runId : String} {phase' : FirePhase}
      (hnew : ∀ row ∈ store.executions,
        ¬ Conflict (executionRow request (server.minted i) runId) row)
      (h' : phase' = .inserted runId ∨ phase' = .failing) :
      Stepped i call fault store (.firing request (.begun runId))
        (store.insert i (executionRow request (server.minted i) runId)) (.firing request phase')
  | commits {request : FireRequest} {runId : String} {phase' : FirePhase}
      (h' : phase' = .finished ∨ phase' = .terminating) :
      Stepped i call fault store (.firing request (.inserted runId)) (store.commit i)
        (.firing request phase')
  | drops {request : FireRequest} {phase : FirePhase} (h : phase.Open) :
      Stepped i call fault store (.firing request phase) (store.rollback i)
        (.firing request .terminating)
  | terminates {request : FireRequest} : Stepped i call fault store (.firing request .terminating)
        (store.close (server.minted i).executionId) (.firing request .finished)
  | notTerminated {request : FireRequest} (hcall : call.IsTermination) {err : ApiError}
      (h : fault = .fails err) :
      Stepped i call fault store (.firing request .terminating) store (.firing request .finished)

variable {server} {i : ι} {fault : Fault} {outside : Outside} {store store' : Store ι}

/-- A call is performed, or it fails, or its reply is lost. -/
theorem exec_or {call : RetryCall} {reply : RetryReply call}
    (h : server.exec i fault outside call store = some (reply, store')) :
    (fault = .none ∧ server.perform i outside call store = some (reply, store')) ∨
    (∃ err, fault = .fails err ∧ reply = Server.errorReply err call ∧
      store' = Server.afterFailure i call store) ∨
    (∃ err reply', fault = .replyLost err ∧ reply = Server.errorReply err call ∧
      server.perform i outside call store = some (reply', store')) := by
  cases fault with
  | none => exact .inl ⟨rfl, h⟩
  | fails err =>
    cases h
    exact .inr (.inl ⟨err, rfl, rfl, rfl⟩)
  | replyLost err =>
    obtain ⟨⟨reply', store''⟩, hperform, heq⟩ := Option.map_eq_some_iff.mp h
    cases heq
    exact .inr (.inr ⟨err, reply', rfl, rfl, hperform⟩)

variable {call : Call}

/-- A call about the quota leaves the store. -/
theorem perform_quota (hcall : call.OfQuota) {reply : CallReply call}
    (h : server.perform i outside (.server call) store = some (reply, store')) :
    store' = store := by
  cases call with
  | commit transaction | rollback transaction =>
    cases transaction with
    | record => exact absurd hcall id
    | _ =>
      cases h
      rfl
  | insertExecution | startPartition | executeWorkflow | terminateWorkflow => exact absurd hcall id
  | _ =>
    cases h
    rfl

theorem afterFailure_quota (hcall : call.OfQuota) :
    Server.afterFailure i (.server call) store = store := by
  cases call with
  | commit transaction | rollback transaction =>
    cases transaction with
    | record => exact absurd hcall id
    | _ => rfl
  | _ => rfl

theorem exec_quota (hcall : call.OfQuota) {reply : CallReply call}
    (h : server.exec i fault outside (.server call) store = some (reply, store')) :
    store' = store := by
  rcases exec_or h with ⟨-, hperform⟩ | ⟨err, -, -, rfl⟩ | ⟨err, reply', -, -, hperform⟩
  · exact perform_quota hcall hperform
  · exact afterFailure_quota hcall
  · exact perform_quota hcall hperform

/-- The start of the workflow. -/
theorem stepped_executeWorkflow {name queue : String}
    {reply : CallReply (.executeWorkflow name queue (workflowInput request (server.minted i)))}
    (h : server.exec i fault outside
      (.server (.executeWorkflow name queue (workflowInput request (server.minted i)))) store =
        some (reply, store')) :
    Stepped server i
      (.server (.executeWorkflow name queue (workflowInput request (server.minted i)))) fault store
      (.firing request .unstarted) store' (.firing request (FirePhase.unstarted.next _ reply)) := by
  rcases exec_or h with ⟨rfl, hperform⟩ | ⟨err, -, rfl, rfl⟩ | ⟨err, reply', rfl, rfl, hperform⟩
  · cases hperform
    exact .starts _ trivial rfl
  · exact .notStarted
  · cases hperform
    exact .startLost trivial rfl

/-- The insertion of the row. -/
theorem stepped_insertExecution {runId : String}
    {reply : CallReply (.insertExecution (executionRow request (server.minted i) runId) false)}
    (h : server.exec i fault outside
      (.server (.insertExecution (executionRow request (server.minted i) runId) false)) store =
        some (reply, store')) :
    Stepped server i
      (.server (.insertExecution (executionRow request (server.minted i) runId) false)) fault store
      (.firing request (.begun runId)) store'
      (.firing request ((FirePhase.begun runId).next _ reply)) := by
  have hperform : ∀ reply', server.perform i outside
      (.server (.insertExecution (executionRow request (server.minted i) runId) false)) store =
        some (reply', store') →
      (store' = store ∧ ∃ err, reply' = Except.error err) ∨
      ((∀ row ∈ store.executions, ¬ Conflict (executionRow request (server.minted i) runId) row) ∧
        reply' = Except.ok () ∧
        store' = store.insert i (executionRow request (server.minted i) runId)) := by
    intro reply' hreply'
    replace hreply' : store.insertExecution i _ false = some (reply', store') := hreply'
    unfold Store.insertExecution at hreply'
    split_ifs at hreply' with hconflict hfalse hwait
    · exact absurd hfalse id
    · cases hreply'
      exact .inl ⟨rfl, _, rfl⟩
    · cases hreply'
      refine .inr ⟨?_, rfl, rfl⟩
      intro row hrow h
      apply hconflict
      exact ⟨row, hrow, h⟩
  rcases exec_or h with ⟨-, hdone⟩ | ⟨err, -, rfl, rfl⟩ | ⟨err, reply', -, rfl, hdone⟩
  · rcases hperform _ hdone with ⟨rfl, err, rfl⟩ | ⟨hnew, rfl, rfl⟩
    · refine .goesOn trivial trivial ?_
      intro runId' hphase
      cases hphase
    · exact .inserts hnew (.inl rfl)
  · refine .goesOn trivial trivial ?_
    intro runId' hphase
    cases hphase
  · rcases hperform _ hdone with ⟨rfl, -⟩ | ⟨hnew, -, rfl⟩
    · refine .goesOn trivial trivial ?_
      intro runId' hphase
      cases hphase
    · exact .inserts hnew (.inr rfl)

/-- The statements that leave the store, between the start and the end of the transaction. -/
theorem stepped_goesOn {phase : FirePhase}
    (hcall : call = .begin .record ∧ (∃ runId, phase = .started runId) ∨
      (∃ partitionId executionId, call = .startPartition partitionId executionId) ∧
        ∃ runId, phase = .inserted runId) {reply : CallReply call}
    (h : server.exec i fault outside (.server call) store = some (reply, store')) :
    Stepped server i (.server call) fault store (.firing request phase) store'
      (.firing request (phase.next call reply)) := by
  obtain rfl : store' = store := by
    rcases hcall with ⟨rfl, -⟩ | ⟨⟨partitionId, executionId, rfl⟩, -⟩
    · rcases exec_or h with ⟨-, hperform⟩ | ⟨err, -, -, rfl⟩ | ⟨err, reply', -, -, hperform⟩
      · cases hperform
        rfl
      · rfl
      · cases hperform
        rfl
    · rcases exec_or h with ⟨-, hperform⟩ | ⟨err, -, -, rfl⟩ | ⟨err, reply', -, -, hperform⟩
      · cases hperform
        rfl
      · rfl
      · cases hperform
        rfl
  rcases hcall with ⟨rfl, runId, rfl⟩ | ⟨⟨partitionId, executionId, rfl⟩, runId, rfl⟩
  · cases reply with
    | ok _ | error err =>
      refine .goesOn trivial trivial ?_
      intro runId' hphase
      cases hphase
  · cases reply with
    | ok _ =>
      refine .goesOn trivial trivial ?_
      intro runId' hphase
      exact hphase
    | error err =>
      refine .goesOn trivial trivial ?_
      intro runId' hphase
      cases hphase

/-- The end of the transaction. -/
theorem stepped_commit {runId : String} {reply : CallReply (.commit .record)}
    (h : server.exec i fault outside (.server (.commit .record)) store = some (reply, store')) :
    Stepped server i (.server (.commit .record)) fault store (.firing request (.inserted runId)) store'
      (.firing request ((FirePhase.inserted runId).next _ reply)) := by
  rcases exec_or h with ⟨-, hperform⟩ | ⟨err, -, rfl, rfl⟩ | ⟨err, reply', -, rfl, hperform⟩
  · cases hperform
    exact .commits (.inl rfl)
  · exact .drops trivial
  · cases hperform
    exact .commits (.inr rfl)

theorem stepped_rollback {reply : CallReply (.rollback .record)}
    (h : server.exec i fault outside (.server (.rollback .record)) store = some (reply, store')) :
    Stepped server i (.server (.rollback .record)) fault store (.firing request .failing) store'
      (.firing request .terminating) := by
  rcases exec_or h with ⟨-, hperform⟩ | ⟨err, -, -, rfl⟩ | ⟨err, reply', -, -, hperform⟩
  · cases hperform
    exact .drops trivial
  · exact .drops trivial
  · cases hperform
    exact .drops trivial

/-- The termination of the workflow. -/
theorem stepped_terminateWorkflow {runId reason : String}
    {reply : CallReply (.terminateWorkflow (server.minted i).executionId runId reason)}
    (h : server.exec i fault outside
      (.server (.terminateWorkflow (server.minted i).executionId runId reason)) store =
        some (reply, store')) :
    Stepped server i (.server (.terminateWorkflow (server.minted i).executionId runId reason)) fault
      store (.firing request .terminating) store' (.firing request .finished) := by
  rcases exec_or h with ⟨-, hperform⟩ | ⟨err, rfl, -, rfl⟩ | ⟨err, reply', -, -, hperform⟩
  · cases hperform
    exact .terminates
  · exact .notTerminated trivial rfl
  · cases hperform
    exact .terminates

/-- The `SELECT`. -/
theorem stepped_selectExecution {tenantId executionId : String}
    {reply : RetryReply (.selectExecution tenantId executionId)}
    (h : server.exec i fault outside (.selectExecution tenantId executionId) store =
      some (reply, store')) :
    Stepped server i (.selectExecution tenantId executionId) fault store
      (.reading tenantId executionId) store'
      ((RetryPhase.reading tenantId executionId).next (.selectExecution tenantId executionId)
        reply) := by
  rcases exec_or h with ⟨-, hperform⟩ | ⟨err, -, rfl, rfl⟩ | ⟨err, reply', -, rfl, hperform⟩
  · cases hperform
    cases hrequest : retryRequest (.ok (server.selectExecution store tenantId executionId)) with
    | error result =>
      rw [RetryPhase.next_of_error hrequest]
      exact .refused
    | ok request =>
      rw [RetryPhase.next_of_ok hrequest]
      exact .accepted hrequest
  · exact .refused
  · cases hperform
    exact .refused

/-- **This is all that a call can do**, in a phase that allows it. -/
theorem stepped_of_call {phase : RetryPhase} {call : RetryCall} {reply : RetryReply call}
    (hallows : phase.allows (server.minted i) call)
    (h : server.exec i fault outside call store = some (reply, store')) :
    Stepped server i call fault store phase store' (phase.next call reply) := by
  cases phase with
  | refused => exact absurd hallows id
  | reading tenantId executionId =>
    cases call with
    | server call => exact absurd hallows id
    | selectExecution tenantId' executionId' =>
      obtain ⟨rfl, rfl⟩ := hallows
      exact stepped_selectExecution h
  | firing request phase =>
    cases call with
    | selectExecution tenantId executionId => exact absurd hallows id
    | server call =>
      replace hallows : phase.allows request (server.minted i) call := hallows
      show Stepped server i (.server call) fault store _ store' (.firing request (phase.next call reply))
      cases phase with
      | unstarted =>
        rcases FirePhase.or_of_allows_unstarted hallows with ⟨name, queue, rfl⟩ | hquota
        · exact stepped_executeWorkflow h
        · obtain rfl := exec_quota hquota h
          rw [FirePhase.next_of_quota hquota]
          exact .quota (.inl rfl)
      | finished =>
        obtain rfl := exec_quota hallows h
        exact .quota (.inr rfl)
      | started runId =>
        obtain rfl := FirePhase.eq_of_allows_started hallows
        exact stepped_goesOn (.inl ⟨rfl, runId, rfl⟩) h
      | begun runId =>
        obtain rfl := FirePhase.eq_of_allows_begun hallows
        exact stepped_insertExecution h
      | inserted runId =>
        rcases FirePhase.eq_of_allows_inserted hallows with
          ⟨partitionId, executionId, rfl⟩ | rfl
        · exact stepped_goesOn (.inr ⟨⟨partitionId, executionId, rfl⟩, runId, rfl⟩) h
        · exact stepped_commit h
      | failing =>
        obtain rfl := FirePhase.eq_of_allows_failing hallows
        exact stepped_rollback h
      | terminating =>
        obtain ⟨runId, reason, rfl⟩ := FirePhase.eq_of_allows_terminating hallows
        exact stepped_terminateWorkflow h

end stepped

/-! ## What a step can do -/

section step

variable {ι : Type} [DecidableEq ι] (server : Server ι)

/-- Each request keeps to the protocol from its phase on. -/
def Server.Tracks (s : ServerState ι) (phases : ι → RetryPhase) : Prop :=
  ∀ i, (retryProtocol (server.minted i)).Follows (fun phase _ => phase.Ended) (phases i)
    (s.programs i)

variable {server} {s s' : ServerState ι} {phases : ι → RetryPhase} {i : ι}

theorem tracks_initial : server.Tracks server.initial server.firstPhase :=
  server.program_follows

variable (h : server.Tracks s phases)

include h

/-- One request goes on. -/
theorem Server.Tracks.update {program : RetryProgram Unit}
    {phase : RetryPhase} (hprogram : s'.programs = Function.update s.programs i program)
    (hfollows :
      (retryProtocol (server.minted i)).Follows (fun phase _ => phase.Ended) phase program) :
    server.Tracks s' (Function.update phases i phase) := by
  intro j
  rw [hprogram]
  by_cases hji : j = i
  · subst hji
    rw [update_self, update_self]
    exact hfollows
  · rw [update_of_ne hji, update_of_ne hji]
    exact h j

/-- **A call of a request.** -/
theorem tracks_of_call {fault : Fault} {outside : Outside}
    (hstep : server.step s (.call i fault outside) = some s') :
    ∃ call resume, s.programs i = .await call resume ∧ ∃ reply,
      server.exec i fault outside call s.store = some (reply, s'.store) ∧
      Stepped server i call fault s.store (phases i) s'.store ((phases i).next call reply) ∧
      server.Tracks s' (Function.update phases i ((phases i).next call reply)) := by
  unfold Server.step at hstep
  dsimp only at hstep
  cases hprogram : s.programs i with
  | done _ =>
    simp [hprogram] at hstep
  | await call resume =>
    rw [hprogram] at hstep
    obtain ⟨⟨reply, store'⟩, hexec, rfl⟩ := Option.map_eq_some_iff.mp hstep
    have hfollows := h i
    rw [hprogram] at hfollows
    refine ⟨call, resume, rfl, reply, hexec, stepped_of_call hfollows.1 hexec, ?_⟩
    exact h.update rfl (hfollows.2 reply outside.month trivial)

/-- A request that is cut off. -/
theorem tracks_of_cut (hstep : server.step s (.cut i) = some s') :
    s'.store = s.store.rollback i ∧ server.Tracks s' (Function.update phases i .refused) := by
  cases hstep
  exact ⟨rfl, h.update rfl trivial⟩

/-- A workflow marks its execution. -/
theorem tracks_of_mark {executionId : String} {phase : Model.Phase}
    (hstep : server.step s (.mark executionId phase) = some s') :
    phase.Terminal ∧ s'.store = s.store.mark executionId phase ∧ server.Tracks s' phases := by
  unfold Server.step at hstep
  dsimp only at hstep
  split_ifs at hstep with hterminal
  cases hstep
  exact ⟨hterminal, rfl, h⟩

/-- A workflow is closed. -/
theorem tracks_of_close {executionId : String}
    (hstep : server.step s (.close executionId) = some s') :
    s'.store = s.store.close executionId ∧ server.Tracks s' phases := by
  cases hstep
  exact ⟨rfl, h⟩

end step

end Dataflow.Api.Retries
