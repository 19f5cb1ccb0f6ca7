import Dataflow.Api.ExecutionRecord

/-!
# `executionRetry`

A failed execution is run again: `executionRetry` reads its row together with the definition and a
retry that is still running, and calls `fireExecution` with what it has read.

* `RetryRow`, `retryRequest`: the row that is read, and what becomes of it: a refusal, or the
  arguments of `fireExecution`.
* `executionRetry`: the code, as a coroutine over the `SELECT` and the calls of `fireExecution`.
* `FirePhase`, `fireProtocol`: how far `fireExecution` has come, with the very arguments of its
  calls.
* `RetryPhase`, `retryProtocol`: the same for a request to the server.
* `fireExecution_follows`, `executionRetry_follows`: the code keeps to these protocols.

Source: `routes_executions.go`, `temporal.go`
-/

namespace Dataflow.Api

open Model Library

/-! ## The code -/

/-- The row of the `SELECT`. `definition` is what `json.Unmarshal` makes of the column. -/
structure RetryRow where
  id : String
  phase : String
  pipelineId : String
  environment : String
  triggerType : String
  definition : Except String PipelineDefinition
  activeRetryId : Option String

/-- The responses. -/
inductive RetryResult where
  | created (executionId retryOf environment : String)
  | active (executionId : String)
  | refused (status : ℕ) (message : String)
  | failed (err : ApiError)
  deriving DecidableEq

/-- The statement of `executionRetry`, and the calls of `fireExecution`. -/
inductive RetryCall where
  | selectExecution (tenantId executionId : String)
  | server (call : Call)

/-- What a call gives back. -/
@[reducible] def RetryReply : RetryCall → Type
  | .selectExecution _ _ => Except ApiError (Option RetryRow)
  | .server call => CallReply call

/-- The call starts the workflow. -/
def RetryCall.IsStart : RetryCall → Prop
  | .server (.executeWorkflow _ _ _) => True
  | _ => False

/-- The call terminates it. -/
def RetryCall.IsTermination : RetryCall → Prop
  | .server (.terminateWorkflow _ _ _) => True
  | _ => False

/-- The call is made between the start of the workflow and the end of `fireExecution`. -/
def RetryCall.IsRecording : RetryCall → Prop
  | .server (.begin .record) | .server (.insertExecution _ _) | .server (.startPartition _ _) =>
    True
  | .server (.commit .record) | .server (.rollback .record) => True
  | .server (.terminateWorkflow _ _ _) => True
  | _ => False

instance : DecidablePred RetryCall.IsRecording := fun call => by
  unfold RetryCall.IsRecording
  split <;> infer_instance

/-- A function that makes these calls. -/
abbrev RetryProgram (α : Type) := Coroutine RetryCall RetryReply String α

/-- What `executionRetry` does with the row: it refuses, or calls `fireExecution`. -/
def retryRequest : Except ApiError (Option RetryRow) → Except RetryResult FireRequest
  | .error err => .error (.failed err)
  | .ok none => .error (.refused 404 "not found")
  | .ok (some previous) =>
    if previous.triggerType = "backfill" then
      .error (.refused 409
        "backfill partitions cannot be retried; start a new backfill for the failed range")
    else if previous.phase ≠ "failed" then
      .error (.refused 409 "only failed executions can be retried")
    else match previous.activeRetryId with
      | some executionId => .error (.active executionId)
      | none =>
        match previous.definition with
        | .error message => .error (.failed (.other message))
        | .ok definition => .ok
            { definition := definition, pipelineRowId := previous.pipelineId
              triggerType := "retry", environment := previous.environment
              retryOf := previous.id }

/-- The calls of `fireExecution` as calls of a request. -/
def asServer {α : Type} (program : Program α) : RetryProgram α :=
  program.mapCalls .server fun _ reply => reply

/-- The response after `fireExecution`. -/
def retryResult (request : FireRequest) : Except ApiError String → RetryResult
  | .ok executionId => .created executionId request.retryOf request.environment
  | .error err => .failed err

/-- Source: `routes_executions.go` `executionRetry`. -/
def executionRetry (tenantId executionId : String) (minted : Minted) : RetryProgram RetryResult :=
  .await (.selectExecution tenantId executionId) fun reply _ =>
    match retryRequest reply with
    | .error result => .done result
    | .ok request => (asServer (fireExecution request minted)).bind fun fired =>
      .done (retryResult request fired)

/-- What a retry asks for. -/
theorem retryRequest_ok {reply : Except ApiError (Option RetryRow)} {request : FireRequest}
    (h : retryRequest reply = .ok request) : ∃ previous definition, reply = .ok (some previous) ∧
      previous.phase = "failed" ∧ previous.activeRetryId = none ∧
      previous.definition = .ok definition ∧
      request =
        { definition := definition, pipelineRowId := previous.pipelineId, triggerType := "retry"
          environment := previous.environment, retryOf := previous.id } := by
  rcases reply with err | previous | previous
  · cases h
  · cases h
  · unfold retryRequest at h
    dsimp only at h
    split_ifs at h with _ hphase
    have hfailed : previous.phase = "failed" := not_not.mp hphase
    cases hactive : previous.activeRetryId with
    | some executionId =>
      simp [hactive] at h
    | none =>
      rw [hactive] at h
      cases hdefinition : previous.definition with
      | error message =>
        simp [hdefinition] at h
      | ok definition =>
        rw [hdefinition] at h
        cases h
        exact ⟨previous, definition, rfl, hfailed, hactive, hdefinition, rfl⟩

/-! ## The protocol of `fireExecution` -/

/-- How far `fireExecution` has come. -/
inductive FirePhase where
  /-- The workflow is not started. -/
  | unstarted
  /-- The workflow is started. -/
  | started (runId : String)
  /-- In the transaction that records the execution. -/
  | begun (runId : String)
  /-- The row is inserted. -/
  | inserted (runId : String)
  /-- A statement of the transaction has failed. -/
  | failing
  /-- The row is not recorded, and the workflow is to be terminated. -/
  | terminating
  /-- The row is recorded, or the workflow was not started or is terminated. -/
  | finished
  deriving DecidableEq

namespace FirePhase

/-- The workflow is started, and what becomes of it is still open. -/
def Open : FirePhase → Prop
  | unstarted | finished => False
  | started _ | begun _ | inserted _ | failing | terminating => True

/-- The calls in a phase. -/
def allows (request : FireRequest) (minted : Minted) : FirePhase → Call → Prop
  | unstarted, .executeWorkflow _ _ input => input = workflowInput request minted
  | unstarted, call | finished, call => call.OfQuota
  | started _, .begin .record => True
  | begun runId, .insertExecution row ignoreConflict =>
    row = executionRow request minted runId ∧ ignoreConflict = false
  | inserted _, .startPartition _ _ | inserted _, .commit .record => True
  | failing, .rollback .record => True
  | terminating, .terminateWorkflow executionId _ _ => executionId = minted.executionId
  | _, _ => False

section allowed

variable {request : FireRequest} {minted : Minted} {runId : String} {call : Call}

theorem or_of_allows_unstarted (h : unstarted.allows request minted call) :
    (∃ name queue, call = .executeWorkflow name queue (workflowInput request minted)) ∨
      call.OfQuota := by
  cases call with
  | executeWorkflow name queue input =>
    obtain rfl : input = workflowInput request minted := h
    exact .inl ⟨name, queue, rfl⟩
  | _ => exact .inr h

theorem eq_of_allows_started (h : (started runId).allows request minted call) :
    call = .begin .record := by
  cases call with
  | begin transaction =>
    cases transaction with
    | record => rfl
    | _ => exact absurd h id
  | _ => exact absurd h id

theorem eq_of_allows_begun (h : (begun runId).allows request minted call) :
    call = .insertExecution (executionRow request minted runId) false := by
  cases call with
  | insertExecution row ignoreConflict =>
    obtain ⟨rfl, rfl⟩ := h
    rfl
  | _ => exact absurd h id

theorem eq_of_allows_inserted (h : (inserted runId).allows request minted call) :
    (∃ partitionId executionId, call = .startPartition partitionId executionId) ∨
      call = .commit .record := by
  cases call with
  | startPartition partitionId executionId => exact .inl ⟨_, _, rfl⟩
  | commit transaction =>
    cases transaction with
    | record => exact .inr rfl
    | _ => exact absurd h id
  | _ => exact absurd h id

theorem eq_of_allows_failing (h : failing.allows request minted call) :
    call = .rollback .record := by
  cases call with
  | rollback transaction =>
    cases transaction with
    | record => rfl
    | _ => exact absurd h id
  | _ => exact absurd h id

theorem eq_of_allows_terminating (h : terminating.allows request minted call) :
    ∃ runId reason, call = .terminateWorkflow minted.executionId runId reason := by
  cases call with
  | terminateWorkflow executionId runId reason =>
    obtain rfl : executionId = minted.executionId := h
    exact ⟨runId, reason, rfl⟩
  | _ => exact absurd h id

/-- What is called while the workflow is open. -/
theorem isRecording_of_open {phase : FirePhase} (hopen : phase.Open)
    (h : phase.allows request minted call) : (RetryCall.server call).IsRecording := by
  cases phase with
  | unstarted | finished => exact absurd hopen id
  | started runId =>
    obtain rfl := eq_of_allows_started h
    exact trivial
  | begun runId =>
    obtain rfl := eq_of_allows_begun h
    exact trivial
  | inserted runId =>
    rcases eq_of_allows_inserted h with ⟨partitionId, executionId, rfl⟩ | rfl
    · exact trivial
    · exact trivial
  | failing =>
    obtain rfl := eq_of_allows_failing h
    exact trivial
  | terminating =>
    obtain ⟨runId, reason, rfl⟩ := eq_of_allows_terminating h
    exact trivial

end allowed

/-- The phase after a reply. -/
def next : FirePhase → (call : Call) → CallReply call → FirePhase
  | unstarted, .executeWorkflow _ _ _, .ok runId => started runId
  | unstarted, .executeWorkflow _ _ _, Except.error _ => finished
  | unstarted, _, _ => unstarted
  | started runId, .begin _, .ok () => begun runId
  | begun runId, .insertExecution _ _, .ok () => inserted runId
  | begun _, .insertExecution _ _, Except.error _ => failing
  | inserted runId, .startPartition _ _, .ok () => inserted runId
  | inserted _, .startPartition _ _, Except.error _ => failing
  | inserted _, .commit _, .ok () => finished
  | terminating, _, _ | finished, _, _ => finished
  | _, _, _ => terminating

/-- A call about the quota keeps the phase. -/
theorem next_of_quota {call : Call} (hcall : call.OfQuota) (reply : CallReply call) :
    unstarted.next call reply = unstarted := by
  cases call with
  | executeWorkflow => exact absurd hcall id
  | _ => rfl

/-- Where `fireExecution` ends. -/
def Ended (phase : FirePhase) : Prop := phase = unstarted ∨ phase = finished

end FirePhase

/-- The protocol of `fireExecution` with its arguments. -/
def fireProtocol (request : FireRequest) (minted : Minted) :
    Coroutine.Protocol Call CallReply String FirePhase where
  allows := FirePhase.allows request minted
  next := FirePhase.next
  sees _ := True

section fireExecution

variable {request : FireRequest} {minted : Minted}

/-- Calls about the quota keep the phases in which they are made. -/
theorem follows_quota {α : Type} {c : Program α} (h : c.OnlyCalls Call.OfQuota) {phase : FirePhase}
    (hphase : phase = .unstarted ∨ phase = .finished) :
    (fireProtocol request minted).Follows (fun phase' _ => phase' = phase) phase c := by
  refine Coroutine.Protocol.Follows.of_onlyCalls ?_ ?_ h
  · intro call hcall
    rcases hphase with rfl | rfl
    · cases call with
      | executeWorkflow => exact absurd hcall id
      | _ => exact hcall
    · exact hcall
  · intro call hcall reply
    rcases hphase with rfl | rfl
    · exact FirePhase.next_of_quota hcall reply
    · rfl

/-- The charge is given back at the end. -/
theorem follows_charge_back (tenantId : String) (err : ApiError) :
    (fireProtocol request minted).Follows (fun phase _ => phase.Ended) .finished
      (giveBack tenantId err) := by
  apply Coroutine.Protocol.Follows.bind (follows_quota (onlyCalls_releaseQuota _) (.inr rfl))
  rintro _ _ rfl
  exact .inr rfl

/-- When the execution could not be recorded. -/
theorem follows_terminate (runId : String) (err : ApiError) :
    (fireProtocol request minted).Follows (fun phase _ => phase.Ended) .terminating
      (.await (.terminateWorkflow minted.executionId runId "execution metadata insert failed")
        fun _ _ => giveBack request.definition.tenantId err) :=
  ⟨rfl, fun _ _ _ => follows_charge_back _ _⟩

/-- The end of the transaction that records the execution. -/
theorem follows_commit (runId : String) : (fireProtocol request minted).Follows
      (fun phase (recorded : Except ApiError Unit) => match recorded with
        | .ok () => phase = .finished
        | .error _ => phase = .terminating) (.inserted runId)
      (.await (.commit .record) fun reply _ => .done reply) := by
  refine ⟨trivial, ?_⟩
  rintro (err | _) month _
  · exact rfl
  · exact rfl

/-- The transaction that records the execution. -/
theorem follows_recording (runId : String) : (fireProtocol request minted).Follows
      (fun phase (recorded : Except ApiError Unit) => match recorded with
        | .ok () => phase = .finished
        | .error _ => phase = .terminating) (.started runId)
      (inTransaction .record (recordBody request minted runId)) := by
  refine ⟨trivial, ?_⟩
  rintro (err | _) month _
  · exact rfl
  refine ⟨⟨rfl, rfl⟩, ?_⟩
  rintro (err | _) month _
  · exact ⟨trivial, fun _ _ _ => rfl⟩
  split_ifs
  · refine ⟨trivial, ?_⟩
    rintro (err | _) month _
    · exact ⟨trivial, fun _ _ _ => rfl⟩
    · exact follows_commit runId
  · exact follows_commit runId

/-- **`fireExecution` keeps to the protocol.** -/
theorem fireExecution_follows (request : FireRequest) (minted : Minted) :
    (fireProtocol request minted).Follows (fun phase _ => phase.Ended) .unstarted
      (fireExecution request minted) := by
  apply Coroutine.Protocol.Follows.bind
    (follows_quota (onlyCalls_consumeQuota _) (.inl rfl))
  rintro _ (err | _) rfl
  · exact .inl rfl
  refine ⟨rfl, ?_⟩
  rintro (err | runId) month _
  · exact follows_charge_back _ _
  apply Coroutine.Protocol.Follows.bind (follows_recording runId)
  rintro phase (err | _) hphase
  · cases hphase
    exact follows_terminate runId err
  · exact .inr hphase

end fireExecution

/-! ## The protocol of a request -/

/-- How far a request has come: it has still to read the row, it fires an execution, or it has been
refused. -/
inductive RetryPhase where
  | reading (tenantId executionId : String)
  | firing (request : FireRequest) (phase : FirePhase)
  | refused
  deriving DecidableEq

namespace RetryPhase

/-- The calls in a phase. -/
def allows (minted : Minted) : RetryPhase → RetryCall → Prop
  | reading tenantId executionId, .selectExecution tenantId' executionId' =>
    tenantId' = tenantId ∧ executionId' = executionId
  | firing request phase, .server call => phase.allows request minted call
  | _, _ => False

/-- The phase after a reply. -/
def next : RetryPhase → (call : RetryCall) → RetryReply call → RetryPhase
  | reading _ _, .selectExecution _ _, reply =>
    match retryRequest reply with
    | .ok request => firing request .unstarted
    | .error _ => refused
  | firing request phase, .server call, reply => firing request (phase.next call reply)
  | phase, _, _ => phase

section next

variable {tenantId executionId : String}
  {reply : RetryReply (.selectExecution tenantId executionId)}

theorem next_of_ok {request : FireRequest} (h : retryRequest reply = .ok request) :
    (reading tenantId executionId).next (.selectExecution tenantId executionId) reply =
      firing request .unstarted := by
  show (match retryRequest reply with
    | .ok request => firing request .unstarted
    | .error _ => refused) = _
  rw [h]

theorem next_of_error {result : RetryResult} (h : retryRequest reply = .error result) :
    (reading tenantId executionId).next (.selectExecution tenantId executionId) reply =
      refused := by
  show (match retryRequest reply with
    | .ok request => firing request .unstarted
    | .error _ => refused) = _
  rw [h]

end next

end RetryPhase

/-- The protocol of a request that has minted these ids. -/
def retryProtocol (minted : Minted) :
    Coroutine.Protocol RetryCall RetryReply String RetryPhase where
  allows := RetryPhase.allows minted
  next := RetryPhase.next
  sees _ := True

/-- A request may end in any phase in which no workflow is left open. -/
def RetryPhase.Ended : RetryPhase → Prop
  | reading _ _ => False
  | firing _ phase => phase.Ended
  | refused => True

/-- `fireExecution` within a request. -/
theorem asServer_follows (request : FireRequest) (minted : Minted) :
    (retryProtocol minted).Follows (fun phase _ => phase.Ended) (.firing request .unstarted)
      (asServer (fireExecution request minted)) := by
  have h : (retryProtocol minted).Follows
      (fun phase' _ => ∃ phase, phase' = .firing request phase ∧ phase.Ended)
      (.firing request .unstarted) (asServer (fireExecution request minted)) := by
    refine Coroutine.Protocol.Follows.mapCalls ?_ ?_ ?_ (fireExecution_follows request minted)
    · exact fun _ _ hallows => hallows
    · exact fun _ _ _ => rfl
    · exact fun _ _ => trivial
  apply h.mono
  rintro _ value ⟨phase, rfl, hphase⟩
  exact hphase

/-- **`executionRetry` keeps to the protocol.** -/
theorem executionRetry_follows (tenantId executionId : String) (minted : Minted) :
    (retryProtocol minted).Follows (fun phase _ => phase.Ended) (.reading tenantId executionId)
      (executionRetry tenantId executionId minted) := by
  refine ⟨⟨rfl, rfl⟩, ?_⟩
  intro reply month _
  show (retryProtocol minted).Follows _ ((RetryPhase.reading tenantId executionId).next
      (.selectExecution tenantId executionId) reply)
    (match retryRequest reply with
      | .error result => .done result
      | .ok request => (asServer (fireExecution request minted)).bind fun fired =>
        .done (retryResult request fired))
  cases hrequest : retryRequest reply with
  | error result =>
    rw [RetryPhase.next_of_error hrequest]
    exact trivial
  | ok request =>
    rw [RetryPhase.next_of_ok hrequest]
    apply Coroutine.Protocol.Follows.bind (asServer_follows request minted)
    intro phase fired hphase
    exact hphase

end Dataflow.Api
