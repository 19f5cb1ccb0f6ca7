import Dataflow.Api.EventDelivery
import Dataflow.Api.RetrySound

/-!
# The input of a retry

A retry starts a workflow with what it finds in the rows of the execution and of its pipeline. The
payload of the trigger and the data key of the original are in no row.

* `manualRequest`, `webhookRequest`: what the callers hand to `fireExecution`, beside
  `Events.fireRequest`.
* `Caller`, `Callers`: the requests that fire the version of a row, or retry an execution. A partition
  of a backfill is fired with a definition of its own, and is none of them.
* `SameRun`: the inputs differ in nothing but what a new execution must have anew.
* `retry_reproduces_iff`: **main result**: in every state reached, the workflow of a retry has the
  input of the original exactly if that one had no payload and no data key.
* `row_describes_workflow`: a row that a caller has written says what its workflow runs.

Source: `routes_executions.go` `executionRetry`, `routes_pipelines.go` `pipelineRun`,
`routes_triggers.go` `webhookTrigger`
-/

namespace Dataflow.Api.Retries

open Model Library Library.Transition List

/-! ## What the callers hand over -/

/-- Source: `pipelineRun`; `encryptedDek` is taken from the body. -/
def manualRequest (definition : PipelineDefinition) (rowId environment encryptedDek : String) :
    FireRequest where
  definition := definition
  pipelineRowId := rowId
  triggerType := "manual"
  environment := if environment = "" then "test" else environment
  encryptedDek := encryptedDek

/-- Source: `webhookTrigger`; `written` is what `Payloads.Write` returns for a large body. -/
def webhookRequest (base64 : String → String) (definition : PipelineDefinition)
    (rowId tenantId environment canonical : String) (written : DataRef) : FireRequest where
  definition := definition
  pipelineRowId := rowId
  triggerType := "webhook"
  environment := environment
  payloadRef := some (if canonical.utf8ByteSize ≤ 4096 then
    { type := "inline", key := base64 canonical, tenantId := tenantId
      sizeBytes := canonical.utf8ByteSize }
    else written)

/-- A request with what it has read, beside the store. -/
inductive Caller where
  | pipelineRun (version : Version) (environment encryptedDek : String)
  | webhookTrigger (base64 : String → String) (version : Version) (environment canonical : String)
    (written : DataRef)
  | deliverEvent (codec : Events.EventCodec) (event : Events.Event) (version : Version)
    (stored : Json)
  | executionRetry (tenantId executionId : String)

/-- What the request does. -/
def Caller.handler : Caller → Handler
  | .pipelineRun version environment encryptedDek =>
    .fire (manualRequest version.definition version.id environment encryptedDek)
  | .webhookTrigger base64 version environment canonical written =>
    .fire (webhookRequest base64 version.definition version.id version.tenantId environment canonical
      written)
  | .deliverEvent codec event version stored =>
    .fire (Events.fireRequest codec event ⟨version.id, stored⟩ version.definition)
  | .executionRetry tenantId executionId => .retry tenantId executionId

/-- The version whose row the request has read. -/
def Caller.version? : Caller → Option Version
  | .pipelineRun version _ _ | .webhookTrigger _ version _ _ _ | .deliverEvent _ _ version _ =>
    some version
  | .executionRetry _ _ => none

/-- **A caller fires the version that it has read.** -/
theorem Caller.fires_version {caller : Caller} {request : FireRequest}
    (h : caller.handler = .fire request) : request.retryOf = "" ∧
      ∃ version, caller.version? = some version ∧ version.id = request.pipelineRowId ∧
        version.definition = request.definition := by
  cases caller with
  | executionRetry tenantId executionId => cases h
  | _ =>
    cases h
    exact ⟨rfl, _, rfl, rfl, rfl⟩

/-- Callers, with their new ids, and the executions of schedules. -/
structure Callers (ι : Type) where
  versions : List Version
  caller : ι → Caller
  minted : ι → Minted
  scheduled : List ExecutionRow
  versions_nodup : (versions.map Version.id).Nodup
  stored : ∀ i, ∀ version ∈ (caller i).version?, version ∈ versions
  minted_injective : Function.Injective fun i => (minted i).executionId
  minted_ne_empty : ∀ i, (minted i).executionId ≠ ""
  scheduled_new : ∀ row ∈ scheduled,
    row.retryOf = none ∧ row.id ≠ "" ∧ ∀ i, row.id ≠ (minted i).executionId

/-- The server with these requests. -/
def Callers.server {ι : Type} (callers : Callers ι) : Server ι where
  versions := callers.versions
  handler i := (callers.caller i).handler
  minted := callers.minted
  scheduled := callers.scheduled
  versions_nodup := callers.versions_nodup
  minted_injective := callers.minted_injective
  minted_ne_empty := callers.minted_ne_empty
  scheduled_new := callers.scheduled_new
  fires_version i _ h := by
    obtain ⟨hretry, version, hversion, hsame⟩ := Caller.fires_version h
    exact ⟨hretry, version, callers.stored i version hversion, hsame⟩

/-! ## The same run -/

/-- The input of a retry is the original one, but for the execution id, the type of the trigger, and
the time at which it was fired. -/
def SameRun (original retried : WorkflowInput) : Prop :=
  retried = { original with
    executionId := retried.executionId
    trigger := { original.trigger with
      type := retried.trigger.type
      firedAt := retried.trigger.firedAt } }

instance (original retried : WorkflowInput) : Decidable (SameRun original retried) :=
  inferInstanceAs (Decidable (_ = _))

/-- What two requests for one version have in common. -/
theorem sameRun_iff {request request' : FireRequest} {minted minted' : Minted}
    (hdefinition : request'.definition = request.definition)
    (henvironment : request'.environment = request.environment) :
    SameRun (workflowInput request minted) (workflowInput request' minted') ↔
      request'.payloadRef = request.payloadRef ∧ request'.encryptedDek = request.encryptedDek := by
  unfold SameRun workflowInput
  simp [hdefinition, henvironment]

section reproduces

variable {ι : Type} {server : Server ι} {store : Store ι}

/-- Versions are told apart by their ids. -/
theorem definition_eq_of_id {version version' : Version} (h : version ∈ server.versions)
    (h' : version' ∈ server.versions) (hid : version.id = version'.id) :
    version.definition = version'.definition := by
  rw [inj_on_of_nodup_map server.versions_nodup h h' hid]

/-- **A workflow and its retry**: the rows of the retried execution lead back to the request that
has started the original. -/
theorem sameRun_of_sound (hsound : server.Sound store) {original retried : StartedWorkflow}
    (horiginal : original ∈ store.workflows) (hretried : retried ∈ store.workflows)
    (hretry : retried.retryOf = some original.id) :
    SameRun original.input retried.input ↔
      original.input.trigger.payloadRef = none ∧ original.input.encryptedDek = "" := by
  obtain ⟨i, request', hbased', hinput', hretryOf⟩ := hsound.workflows retried hretried
  rw [hretry] at hretryOf
  obtain ⟨-, hpayload, hdek, row, hrow, hid, hpipeline, henvironment⟩ :=
    hbased'.repeats _ hretryOf.symm
  rcases hsound.executions row hrow with
    ⟨-, -, hscheduled⟩ | ⟨k, request, runId, phase, hbased, hstarted, rfl⟩
  · obtain ⟨k, request, -, hinput, -⟩ := hsound.workflows original horiginal
    refine absurd ?_ (hscheduled k)
    rw [hid, StartedWorkflow.id, hinput]
    rfl
  · obtain ⟨workflow, hworkflow, hinput, -⟩ := hstarted
    obtain rfl : workflow = original := by
      apply inj_on_of_nodup_map hsound.nodup hworkflow horiginal
      rw [← hid, StartedWorkflow.id, hinput]
      rfl
    obtain ⟨version, hversion, hversionId, hdefinition⟩ := hbased.version
    obtain ⟨version', hversion', hversionId', hdefinition'⟩ := hbased'.version
    have hsame : request'.definition = request.definition := by
      rw [← hdefinition, ← hdefinition']
      apply definition_eq_of_id hversion' hversion
      rw [hversionId, hversionId']
      exact hpipeline.symm
    rw [hinput, hinput', sameRun_iff hsame henvironment.symm, hpayload, hdek]
    exact and_congr eq_comm eq_comm

variable [DecidableEq ι] {s : ServerState ι} {es : List (ServerEvent ι)}

/-- **A retry reproduces the run** exactly if the original had no payload and no data key. -/
theorem retry_reproduces_iff (hrun : Run server.step Any server.initial es s)
    {original retried : StartedWorkflow} (horiginal : original ∈ s.store.workflows)
    (hretried : retried ∈ s.store.workflows) (hretry : retried.retryOf = some original.id) :
    SameRun original.input retried.input ↔
      original.input.trigger.payloadRef = none ∧ original.input.encryptedDek = "" :=
  sameRun_of_sound (sound_of_run hrun) horiginal hretried hretry

/-- **A row says what its workflow runs**: in every state reached, a row that no schedule has recorded
has exactly one workflow, which runs the version of the row for its environment. -/
theorem row_describes_workflow {callers : Callers ι}
    (hrun : Run callers.server.step Any callers.server.initial es s) {row : ExecutionRow}
    (hrow : row ∈ s.store.executions) (hrequest : ¬ callers.server.Scheduled row) :
    ∃ workflow ∈ s.store.workflows,
      (∀ other ∈ s.store.workflows, other.id = row.id ↔ other = workflow) ∧
      workflow.retryOf = row.retryOf ∧ workflow.input.environment = row.environment ∧
      workflow.input.trigger.type = row.triggerType ∧
      ∃ version ∈ callers.versions, version.id = row.pipelineId ∧
        workflow.input.definition = version.definition := by
  have hsound := sound_of_run hrun
  rcases hsound.executions row hrow with hscheduled |
    ⟨i, request, runId, phase, hbased, ⟨workflow, hworkflow, hinput, hretry⟩, rfl⟩
  · exact absurd hscheduled hrequest
  · have hid : workflow.id = (callers.server.minted i).executionId := by
      rw [StartedWorkflow.id, hinput]
      rfl
    obtain ⟨version, hversion, hversionId, hdefinition⟩ := hbased.version
    refine ⟨workflow, hworkflow, fun other hother => ⟨fun heq => ?_, ?_⟩, ?_, ?_, ?_, version, hversion,
      hversionId, ?_⟩
    · exact inj_on_of_nodup_map hsound.nodup hother hworkflow (heq.trans hid.symm)
    · rintro rfl
      exact hid
    · show workflow.retryOf = nullString request.retryOf
      rw [hretry, hbased.retries]
      cases hretried : (callers.server.handler i).retryOf with
      | none => rfl
      | some executionId => simp [nullString, (hbased.repeats executionId hretried).1]
    · rw [hinput]
      rfl
    · rw [hinput]
      rfl
    · rw [hinput]
      exact hdefinition.symm

end reproduces

/-! ## A webhook and its retry -/

/-- A pipeline whose only node has no predecessor. -/
def hookDefinition : PipelineDefinition where
  id := "pipeline"
  tenantId := "tenant"
  triggerType := "webhook"
  nodes := [{ id := "send", type := .sink }]

/-- The row of the pipeline. -/
def hookVersion : Version where
  id := "row"
  tenantId := "tenant"
  definition := hookDefinition

/-- One execution is fired, and retried when it has failed. -/
def oneRetry (caller : Caller) (h : ∀ version ∈ caller.version?, version = hookVersion) :
    Callers Bool where
  versions := [hookVersion]
  caller
    | true => caller
    | false => .executionRetry "tenant" "exec-1"
  minted
    | true => { executionId := "exec-1", traceId := "trace-1", firedAt := "2026-01-01T00:00:00Z" }
    | false => { executionId := "exec-2", traceId := "trace-2", firedAt := "2026-01-02T00:00:00Z" }
  scheduled := []
  versions_nodup := nodup_singleton _
  stored i version hversion := by
    cases i with
    | false => cases hversion
    | true => exact mem_singleton.mpr (h version hversion)
  minted_injective := by decide
  minted_ne_empty := by decide
  scheduled_new := by simp

/-- The execution fails, and is retried. -/
def failAndRetry : List (ServerEvent Bool) :=
  succeedingCalls true 10 ++ [.mark "exec-1" .failed, .close "exec-1"] ++ succeedingCalls false 11

/-- Run by hand, without a data key. -/
def manualRun : Callers Bool :=
  oneRetry (.pipelineRun hookVersion "test" "") fun _ h => (Option.some.inj h).symm

/-- Fired by a webhook. -/
def webhookRun : Callers Bool :=
  oneRetry (.webhookTrigger id hookVersion "test" "\x7b\x7d" {}) fun _ h => (Option.some.inj h).symm

/-- A retry that is recorded. -/
def Recorded (s : ServerState Bool) (original retried : StartedWorkflow) : Prop :=
  retried.retryOf = some original.id ∧
    ∃ row ∈ s.store.executions, row.id = retried.id ∧ row.retryOf = some original.id

instance (s : ServerState Bool) (original retried : StartedWorkflow) :
    Decidable (Recorded s original retried) :=
  inferInstanceAs (Decidable (_ ∧ _))

/-- The theorem at a run by hand: its retry has the same input. -/
theorem retry_reproduces_iff_manual :
    ∃ s, Run manualRun.server.step Any manualRun.server.initial failAndRetry s ∧
      ∃ original ∈ s.store.workflows, ∃ retried ∈ s.store.workflows,
        Recorded s original retried ∧ SameRun original.input retried.input := by
  obtain ⟨s, hrun, original, horiginal, retried, hretried, hrecorded, hpayload, hdek⟩ :
      ∃ s, Run manualRun.server.step Any manualRun.server.initial failAndRetry s ∧
        ∃ original ∈ s.store.workflows, ∃ retried ∈ s.store.workflows,
          Recorded s original retried ∧ original.input.trigger.payloadRef = none ∧
            original.input.encryptedDek = "" :=
    exists_run_of_check (fun _ _ _ _ => trivial) (by decide +kernel)
  exact ⟨s, hrun, original, horiginal, retried, hretried, hrecorded,
    (retry_reproduces_iff hrun horiginal hretried hrecorded.1).mpr ⟨hpayload, hdek⟩⟩

theorem row_describes_workflow_manual :
    ∃ s, Run manualRun.server.step Any manualRun.server.initial failAndRetry s ∧
      ∃ row ∈ s.store.executions, row.retryOf = some "exec-1" ∧
        ∃ workflow ∈ s.store.workflows, workflow.retryOf = row.retryOf := by
  obtain ⟨s, hrun, row, hrow, hretry⟩ : ∃ s, Run manualRun.server.step Any manualRun.server.initial failAndRetry s ∧
      ∃ row ∈ s.store.executions, row.retryOf = some "exec-1" :=
    exists_run_of_check (fun _ _ _ _ => trivial) (by decide +kernel)
  obtain ⟨workflow, hworkflow, -, hsame, -⟩ :=
    row_describes_workflow hrun hrow (by simp [Server.Scheduled, hretry])
  exact ⟨s, hrun, row, hrow, hretry, workflow, hworkflow, hsame⟩

/-- **The payload is lost**: the retry of an execution that a webhook has fired. -/
theorem retry_loses_payload : ∃ s, Run webhookRun.server.step Any webhookRun.server.initial failAndRetry s ∧
      ∃ original ∈ s.store.workflows, ∃ retried ∈ s.store.workflows,
        Recorded s original retried ∧ original.input.trigger.payloadRef ≠ none ∧
          retried.input.trigger.payloadRef = none ∧ ¬ SameRun original.input retried.input :=
  exists_run_of_check (fun _ _ _ _ => trivial) (by decide +kernel)

end Dataflow.Api.Retries
