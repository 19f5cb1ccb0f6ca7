import Dataflow.Api.RetryRuns

/-!
# Executions and their retries: rows and workflows

Every row of `executions` belongs to a workflow that was started for it, unless a schedule has
recorded it; and a retry has been started with what the row of the execution says.

* `Grows`: executions and workflows stay, but for their phase and their status.
* `Server.Based`: what a request fires: a version, and for a retry what the row says.
* `Server.FromRequest`, `Server.ByRequest`, `Server.Sound`: a row with its workflow, and a workflow
  with its request; all of them are accounted for.
* `Server.Party`: what a request has in each of its phases.
* `Stepped.frame`, `Stepped.sound`, `Stepped.party`: one step.
* `sound_of_run`: **rows and workflows belong together in every state reached**.

Source: `temporal.go` `fireExecution`, `routes_executions.go` `executionRetry`
-/

set_option linter.unusedSectionVars false

namespace Dataflow.Api.Retries

open Model Library Library.Transition List Function Option

variable {executionId : String}

variable {workflow : StartedWorkflow}

variable {row : ExecutionRow}

variable {phase : Model.Phase}

/-! ## What stays -/

section frame

variable {ι : Type}

/-- Executions and workflows stay, but for their phase and their status. -/
structure Grows (store store' : Store ι) : Prop where
  executions : ∀ row ∈ store.executions, ∃ phase : String,
    { row with phase := phase } ∈ store'.executions
  workflows : ∀ workflow ∈ store.workflows, ∃ status : WorkflowStatus,
    { workflow with status := status } ∈ store'.workflows

theorem Grows.of_subset {store store' : Store ι}
    (hexecutions : store.executions ⊆ store'.executions)
    (hworkflows : store.workflows ⊆ store'.workflows) : Grows store store' where
  executions row hrow := ⟨row.phase, hexecutions hrow⟩
  workflows workflow hworkflow := ⟨workflow.status, hworkflows hworkflow⟩

variable (store : Store ι)

theorem Grows.refl : Grows store store :=
  .of_subset (List.Subset.refl _) (List.Subset.refl _)

theorem grows_start (input : WorkflowInput) (retryOf : Option String) :
    Grows store (store.start input retryOf) :=
  .of_subset (List.Subset.refl _) (subset_append_left _ _)

theorem mem_close {store : Store ι} :
    workflow ∈ (store.close executionId).workflows ↔ ∃ old ∈ store.workflows,
      workflow = if old.id = executionId then { old with status := .closed } else old := by
  unfold Store.close
  simp only [List.mem_map, eq_comm]

theorem mem_mark {store : Store ι} :
    workflow ∈ (store.mark executionId phase).workflows ↔ ∃ old ∈ store.workflows,
      workflow = if old.id = executionId ∧ old.status = .running then
        { old with status := .marked } else old := by
  unfold Store.mark
  simp only [List.mem_map, eq_comm]

theorem mem_executions_mark {store : Store ι} :
    row ∈ (store.mark executionId phase).executions ↔ ∃ old ∈ store.executions,
      row = if old.id = executionId then { old with phase := phase.word } else old := by
  unfold Store.mark
  simp only [List.mem_map, eq_comm]

variable (executionId : String)

theorem grows_close : Grows store (store.close executionId) where
  executions row hrow := ⟨row.phase, hrow⟩
  workflows workflow hworkflow := by
    by_cases hid : workflow.id = executionId
    · refine ⟨.closed, mem_close.mpr ⟨workflow, hworkflow, ?_⟩⟩
      rw [if_pos hid]
    · refine ⟨workflow.status, mem_close.mpr ⟨workflow, hworkflow, ?_⟩⟩
      rw [if_neg hid]

theorem grows_mark (phase : Model.Phase) : Grows store (store.mark executionId phase) where
  executions row hrow := by
    by_cases hid : row.id = executionId
    · refine ⟨phase.word, mem_executions_mark.mpr ⟨row, hrow, ?_⟩⟩
      rw [if_pos hid]
    · refine ⟨row.phase, mem_executions_mark.mpr ⟨row, hrow, ?_⟩⟩
      rw [if_neg hid]
  workflows workflow hworkflow := by
    by_cases hmark : workflow.id = executionId ∧ workflow.status = .running
    · refine ⟨.marked, mem_mark.mpr ⟨workflow, hworkflow, ?_⟩⟩
      rw [if_pos hmark]
    · refine ⟨workflow.status, mem_mark.mpr ⟨workflow, hworkflow, ?_⟩⟩
      rw [if_neg hmark]

/-- The ids of the workflows stay when one is closed or marked. -/
theorem map_id_close : (store.close executionId).workflows.map StartedWorkflow.id =
      store.workflows.map StartedWorkflow.id := by
  unfold Store.close
  rw [List.map_map]
  apply map_congr_left
  intro workflow _
  rw [comp_apply]
  split_ifs
  · rfl
  · rfl

theorem map_id_mark (phase : Model.Phase) :
    (store.mark executionId phase).workflows.map StartedWorkflow.id =
      store.workflows.map StartedWorkflow.id := by
  unfold Store.mark
  rw [List.map_map]
  apply map_congr_left
  intro workflow _
  rw [comp_apply]
  split_ifs
  · rfl
  · rfl

end frame

section sound

variable {ι : Type} (server : Server ι)

namespace Server

/-- What a request fires is a version, and a retry repeats what the row of the execution says. -/
structure Based (store : Store ι) (i : ι) (request : FireRequest) : Prop where
  version : ∃ version ∈ server.versions, version.id = request.pipelineRowId ∧
    version.definition = request.definition
  retries : request.retryOf = (server.handler i).retryOf.getD ""
  repeats : ∀ executionId, (server.handler i).retryOf = some executionId →
    executionId ≠ "" ∧ request.payloadRef = none ∧ request.encryptedDek = "" ∧
      ∃ row ∈ store.executions, row.id = executionId ∧ row.pipelineId = request.pipelineRowId ∧
        row.environment = request.environment

/-- The workflow of a request is started. -/
def Started (store : Store ι) (i : ι) (request : FireRequest) : Prop :=
  ∃ workflow ∈ store.workflows, workflow.input = workflowInput request (server.minted i) ∧
    workflow.retryOf = (server.handler i).retryOf

/-- It is not started. -/
def Unstarted (store : Store ι) (i : ι) : Prop :=
  ∀ workflow ∈ store.workflows, workflow.id ≠ (server.minted i).executionId

/-- A row that a request has inserted, after its workflow was started. -/
def FromRequest (store : Store ι) (i : ι) (row : ExecutionRow) : Prop :=
  ∃ request runId phase, server.Based store i request ∧ server.Started store i request ∧
    row = { executionRow request (server.minted i) runId with phase := phase }

/-- A workflow that a request has started. -/
def ByRequest (store : Store ι) (workflow : StartedWorkflow) : Prop :=
  ∃ i request, server.Based store i request ∧
    workflow.input = workflowInput request (server.minted i) ∧
    workflow.retryOf = (server.handler i).retryOf

/-- A row that a schedule has recorded. -/
def Scheduled (row : ExecutionRow) : Prop :=
  row.retryOf = none ∧ row.id ≠ "" ∧ ∀ i, row.id ≠ (server.minted i).executionId

/-- **The rows and the workflows belong together.** -/
structure Sound (store : Store ι) : Prop where
  executions : ∀ row ∈ store.executions, server.Scheduled row ∨ ∃ i, server.FromRequest store i row
  uncommitted : ∀ entry ∈ store.uncommitted, server.FromRequest store entry.1 entry.2
  workflows : ∀ workflow ∈ store.workflows, server.ByRequest store workflow
  nodup : (store.workflows.map StartedWorkflow.id).Nodup

/-- What holds of a request in a phase. -/
def Party (store : Store ι) (i : ι) : RetryPhase → Prop
  | .reading tenantId executionId =>
    server.handler i = .retry tenantId executionId ∧ server.Unstarted store i
  | .firing request phase => server.Based store i request ∧
      (phase = .unstarted → server.Unstarted store i) ∧
      (phase.Open → server.Started store i request) ∧
      ∀ runId, phase = .inserted runId →
        (i, executionRow request (server.minted i) runId) ∈ store.uncommitted
  | .refused => True

end Server

variable {server} {i j : ι} {store store' : Store ι} {request : FireRequest}

theorem Server.Based.grows (h : server.Based store i request) (hgrows : Grows store store') :
    server.Based store' i request where
  version := h.version
  retries := h.retries
  repeats executionId hretry := by
    obtain ⟨hne, hpayload, hdek, row, hrow, hid, hpipeline, henvironment⟩ := h.repeats _ hretry
    obtain ⟨phase, hrow'⟩ := hgrows.executions row hrow
    exact ⟨hne, hpayload, hdek, _, hrow', hid, hpipeline, henvironment⟩

theorem Server.Started.grows (h : server.Started store i request) (hgrows : Grows store store') :
    server.Started store' i request := by
  obtain ⟨workflow, hworkflow, hinput, hretry⟩ := h
  obtain ⟨status, hworkflow'⟩ := hgrows.workflows workflow hworkflow
  exact ⟨_, hworkflow', hinput, hretry⟩

theorem Server.FromRequest.grows (h : server.FromRequest store i row)
    (hgrows : Grows store store') : server.FromRequest store' i row := by
  obtain ⟨request, runId, phase, hbased, hstarted, hrow⟩ := h
  exact ⟨request, runId, phase, hbased.grows hgrows, hstarted.grows hgrows, hrow⟩

theorem Server.ByRequest.grows (h : server.ByRequest store workflow)
    (hgrows : Grows store store') : server.ByRequest store' workflow := by
  obtain ⟨i, request, hbased, hinput, hretry⟩ := h
  exact ⟨i, request, hbased.grows hgrows, hinput, hretry⟩

/-- Another status does not matter. -/
theorem Server.ByRequest.with_status
    (h : server.ByRequest store workflow) (status : WorkflowStatus) :
    server.ByRequest store { workflow with status := status } := h

/-- Another phase does not matter. -/
theorem Server.FromRequest.with_phase (h : server.FromRequest store i row)
    (phase : String) : server.FromRequest store i { row with phase := phase } := by
  obtain ⟨request, runId, _, hbased, hstarted, rfl⟩ := h
  exact ⟨request, runId, phase, hbased, hstarted, rfl⟩

/-- A step of others leaves a request its unstarted workflow, and its rows. -/
structure Frame (server : Server ι) (j : ι) (store store' : Store ι) : Prop where
  grows : Grows store store'
  unstarted : server.Unstarted store j → server.Unstarted store' j
  uncommitted : ∀ row, (j, row) ∈ store.uncommitted → (j, row) ∈ store'.uncommitted

theorem Server.Party.frame {phase : RetryPhase} (h : server.Party store j phase)
    (hframe : Frame server j store store') : server.Party store' j phase := by
  cases phase with
  | refused => exact trivial
  | reading tenantId executionId => exact ⟨h.1, hframe.unstarted h.2⟩
  | firing request phase =>
    obtain ⟨hbased, hunstarted, hstarted, hinserted⟩ := h
    refine ⟨hbased.grows hframe.grows, ?_, ?_, ?_⟩
    · exact fun hphase => hframe.unstarted (hunstarted hphase)
    · exact fun hphase => (hstarted hphase).grows hframe.grows
    · exact fun runId hphase => hframe.uncommitted _ (hinserted runId hphase)

theorem Server.Unstarted.of_map (h : server.Unstarted store j)
    (hids : store'.workflows.map StartedWorkflow.id = store.workflows.map StartedWorkflow.id) :
    server.Unstarted store' j := by
  intro workflow hworkflow
  have hid : workflow.id ∈ store.workflows.map StartedWorkflow.id := by
    rw [← hids]
    exact List.mem_map_of_mem hworkflow
  obtain ⟨old, hold, hid⟩ := List.mem_map.mp hid
  rw [← hid]
  exact h old hold

/-! ## The operations keep it -/

section operations

variable [DecidableEq ι]

theorem Server.Sound.start (h : server.Sound store) (hbased : server.Based store i request)
    (hunstarted : server.Unstarted store i) :
    server.Sound (store.start (workflowInput request (server.minted i))
      (server.handler i).retryOf) where
  executions row hrow := by
    rcases h.executions row hrow with hscheduled | ⟨k, hk⟩
    · exact .inl hscheduled
    · exact .inr ⟨k, hk.grows (grows_start _ _ _)⟩
  uncommitted entry hentry := (h.uncommitted entry hentry).grows (grows_start _ _ _)
  workflows workflow hworkflow := by
    rcases mem_append.mp hworkflow with hold | hnew
    · exact (h.workflows workflow hold).grows (grows_start _ _ _)
    · obtain rfl := mem_singleton.mp hnew
      exact ⟨i, request, hbased.grows (grows_start _ _ _), rfl, rfl⟩
  nodup := by
    unfold Store.start
    rw [map_append, nodup_append]
    refine ⟨h.nodup, nodup_singleton _, ?_⟩
    intro id hid id' hid' heq
    obtain ⟨workflow, hworkflow, rfl⟩ := List.mem_map.mp hid
    obtain rfl := mem_singleton.mp hid'
    exact hunstarted workflow hworkflow heq

theorem grows_insert (store : Store ι) (i : ι) (row : ExecutionRow) :
    Grows store (store.insert i row) :=
  .of_subset (List.Subset.refl _) (List.Subset.refl _)

theorem Server.Sound.insert (h : server.Sound store) {runId : String}
    (hbased : server.Based store i request) (hstarted : server.Started store i request) :
    server.Sound (store.insert i (executionRow request (server.minted i) runId)) where
  executions row hrow := by
    rcases h.executions row hrow with hscheduled | ⟨k, hk⟩
    · exact .inl hscheduled
    · exact .inr ⟨k, hk.grows (grows_insert _ _ _)⟩
  uncommitted entry hentry := by
    rcases mem_append.mp hentry with hold | hnew
    · exact (h.uncommitted entry hold).grows (grows_insert _ _ _)
    · obtain rfl := mem_singleton.mp hnew
      exact ⟨request, runId, "running", hbased.grows (grows_insert _ _ _),
        hstarted.grows (grows_insert _ _ _), rfl⟩
  workflows workflow hworkflow := (h.workflows workflow hworkflow).grows (grows_insert _ _ _)
  nodup := h.nodup

theorem grows_commit (store : Store ι) (i : ι) : Grows store (store.commit i) :=
  .of_subset (subset_append_left _ _) (List.Subset.refl _)

/-- The rows after a commit: those before, and those of the request. -/
theorem mem_commit : row ∈ (store.commit i).executions ↔
    row ∈ store.executions ∨ (i, row) ∈ store.uncommitted := by
  unfold Store.commit
  rw [mem_append, List.mem_map]
  refine or_congr Iff.rfl ?_
  constructor
  · rintro ⟨entry, hentry, rfl⟩
    obtain ⟨hmem, hi⟩ := mem_filter.mp hentry
    rw [← of_decide_eq_true hi]
    exact hmem
  · intro hmem
    exact ⟨_, mem_filter.mpr ⟨hmem, decide_eq_true rfl⟩, rfl⟩

theorem Server.Sound.commit (h : server.Sound store) (i : ι) : server.Sound (store.commit i) where
  executions row hrow := by
    rcases mem_commit.mp hrow with hold | hnew
    · rcases h.executions row hold with hscheduled | ⟨k, hk⟩
      · exact .inl hscheduled
      · exact .inr ⟨k, hk.grows (grows_commit _ _)⟩
    · exact .inr ⟨i, (h.uncommitted _ hnew).grows (grows_commit _ _)⟩
  uncommitted entry hentry :=
    (h.uncommitted entry (mem_of_mem_filter hentry)).grows (grows_commit _ _)
  workflows workflow hworkflow := (h.workflows workflow hworkflow).grows (grows_commit _ _)
  nodup := h.nodup

theorem grows_rollback (store : Store ι) (i : ι) : Grows store (store.rollback i) :=
  .of_subset (List.Subset.refl _) (List.Subset.refl _)

theorem Server.Sound.rollback (h : server.Sound store) (i : ι) :
    server.Sound (store.rollback i) where
  executions row hrow := by
    rcases h.executions row hrow with hscheduled | ⟨k, hk⟩
    · exact .inl hscheduled
    · exact .inr ⟨k, hk.grows (grows_rollback _ _)⟩
  uncommitted entry hentry :=
    (h.uncommitted entry (mem_of_mem_filter hentry)).grows (grows_rollback _ _)
  workflows workflow hworkflow := (h.workflows workflow hworkflow).grows (grows_rollback _ _)
  nodup := h.nodup

theorem Server.Sound.close (h : server.Sound store) (executionId : String) :
    server.Sound (store.close executionId) where
  executions row hrow := by
    rcases h.executions row hrow with hscheduled | ⟨k, hk⟩
    · exact .inl hscheduled
    · exact .inr ⟨k, hk.grows (grows_close _ _)⟩
  uncommitted entry hentry := (h.uncommitted entry hentry).grows (grows_close _ _)
  workflows workflow hworkflow := by
    obtain ⟨old, hold, rfl⟩ := mem_close.mp hworkflow
    have hrequest := (h.workflows old hold).grows (grows_close store executionId)
    split_ifs
    · exact hrequest.with_status _
    · exact hrequest
  nodup := by
    rw [map_id_close]
    exact h.nodup

theorem Server.Sound.mark (h : server.Sound store) (executionId : String) (phase : Model.Phase) :
    server.Sound (store.mark executionId phase) where
  executions row hrow := by
    obtain ⟨old, hold, rfl⟩ := mem_executions_mark.mp hrow
    rcases h.executions old hold with hscheduled | ⟨k, hk⟩
    · left
      split_ifs
      · exact hscheduled
      · exact hscheduled
    · refine .inr ⟨k, ?_⟩
      split_ifs
      · exact (hk.grows (grows_mark _ _ _)).with_phase _
      · exact hk.grows (grows_mark _ _ _)
  uncommitted entry hentry := (h.uncommitted entry hentry).grows (grows_mark _ _ _)
  workflows workflow hworkflow := by
    obtain ⟨old, hold, rfl⟩ := mem_mark.mp hworkflow
    have hrequest := (h.workflows old hold).grows (grows_mark store executionId phase)
    split_ifs
    · exact hrequest.with_status _
    · exact hrequest
  nodup := by
    rw [map_id_mark]
    exact h.nodup

theorem Frame.refl (j : ι) (store : Store ι) : Frame server j store store :=
  ⟨.refl store, id, fun _ => id⟩

theorem frame_start (hji : j ≠ i) (retryOf : Option String) :
    Frame server j store (store.start (workflowInput request (server.minted i)) retryOf) where
  grows := grows_start _ _ _
  unstarted h := by
    intro workflow hworkflow
    rcases mem_append.mp hworkflow with hold | hnew
    · exact h workflow hold
    · obtain rfl := mem_singleton.mp hnew
      exact fun heq => hji (server.minted_injective heq.symm)
  uncommitted _ := id

theorem frame_insert (j : ι) (row : ExecutionRow) : Frame server j store (store.insert i row) where
  grows := grows_insert _ _ _
  unstarted := id
  uncommitted _ := mem_append_left _

theorem frame_commit (hji : j ≠ i) : Frame server j store (store.commit i) where
  grows := grows_commit _ _
  unstarted := id
  uncommitted _ hrow := mem_filter.mpr ⟨hrow, decide_eq_true hji⟩

theorem frame_rollback (hji : j ≠ i) : Frame server j store (store.rollback i) where
  grows := grows_rollback _ _
  unstarted := id
  uncommitted _ hrow := mem_filter.mpr ⟨hrow, decide_eq_true hji⟩

theorem frame_close (j : ι) (executionId : String) :
    Frame server j store (store.close executionId) where
  grows := grows_close _ _
  unstarted h := h.of_map (map_id_close _ _)
  uncommitted _ := id

theorem frame_mark (j : ι) (executionId : String) (phase : Model.Phase) :
    Frame server j store (store.mark executionId phase) where
  grows := grows_mark _ _ _
  unstarted h := h.of_map (map_id_mark _ _ _)
  uncommitted _ := id

variable {phase phase' : RetryPhase} {call : RetryCall} {fault : Fault}

/-- **A call of another request** leaves a request what it has. -/
theorem Stepped.frame (h : Stepped server i call fault store phase store' phase') (hji : j ≠ i) :
    Frame server j store store' := by
  cases h with
  | starts | startLost => exact frame_start hji _
  | inserts => exact frame_insert j _
  | commits => exact frame_commit hji
  | drops => exact frame_rollback hji
  | terminates => exact frame_close j _
  | _ => exact .refl j store

/-- **A call keeps rows and workflows together.** -/
theorem Stepped.sound (h : Stepped server i call fault store phase store' phase')
    (hsound : server.Sound store) (hparty : server.Party store i phase) : server.Sound store' := by
  cases h with
  | starts | startLost => exact hsound.start hparty.1 (hparty.2.1 rfl)
  | inserts => exact hsound.insert hparty.1 (hparty.2.2.1 trivial)
  | commits => exact hsound.commit i
  | drops => exact hsound.rollback i
  | terminates => exact hsound.close _
  | _ => exact hsound

/-- What the `SELECT` has found. -/
theorem selectExecution_spec {tenantId executionId : String} {previous : RetryRow}
    (h : server.selectExecution store tenantId executionId = some previous) :
    ∃ row ∈ store.executions, ∃ version ∈ server.versions, row.id = executionId ∧
      version.id = row.pipelineId ∧ previous.id = row.id ∧ previous.phase = row.phase ∧
      previous.pipelineId = row.pipelineId ∧ previous.environment = row.environment ∧
      previous.definition = .ok version.definition := by
  obtain ⟨row, hrow, hmap⟩ := bind_eq_some_iff.mp h
  obtain ⟨version, hversion, rfl⟩ := map_eq_some_iff.mp hmap
  have hid : row.id = executionId ∧ row.tenantId = tenantId := by
    simpa using find?_some hrow
  have hpipeline : version.id = row.pipelineId ∧ version.tenantId = tenantId := by
    simpa using find?_some hversion
  exact ⟨row, mem_of_find?_eq_some hrow, version, mem_of_find?_eq_some hversion, hid.1,
    hpipeline.1, rfl, rfl, rfl, rfl, rfl⟩

/-- **A retry repeats what the row says.** -/
theorem based_of_accepted {tenantId executionId : String} (hsound : server.Sound store)
    (hhandler : server.handler i = .retry tenantId executionId)
    (h : retryRequest (.ok (server.selectExecution store tenantId executionId)) = .ok request) :
    server.Based store i request := by
  obtain ⟨previous, definition, hprevious, -, -, hdefinition, rfl⟩ := retryRequest_ok h
  obtain ⟨row, hrow, version, hversion, rfl, hpipeline, hid, -, hpipelineId, henvironment,
    hstored⟩ := selectExecution_spec (Except.ok.inj hprevious)
  rw [hdefinition] at hstored
  refine ⟨⟨version, hversion, ?_, (Except.ok.inj hstored).symm⟩, ?_, ?_⟩
  · rw [hpipeline, hpipelineId]
  · rw [hhandler]
    exact hid
  · intro executionId hexecutionId
    rw [hhandler] at hexecutionId
    obtain rfl : row.id = executionId := some.inj hexecutionId
    refine ⟨?_, rfl, rfl, row, hrow, rfl, hpipelineId.symm, henvironment.symm⟩
    rcases hsound.executions row hrow with hscheduled | ⟨k, request, runId, phase, -, -, rfl⟩
    · exact hscheduled.2.1
    · exact server.minted_ne_empty k

/-- **The request itself** has in its next phase what it needs. -/
theorem Stepped.party (h : Stepped server i call fault store phase store' phase')
    (hsound : server.Sound store) (hparty : server.Party store i phase) :
    server.Party store' i phase' := by
  cases h with
  | refused => exact trivial
  | accepted haccepted =>
    obtain ⟨hhandler, hunstarted⟩ := hparty
    refine ⟨based_of_accepted hsound hhandler haccepted, fun _ => hunstarted, fun h => ?_,
      fun _ h => ?_⟩
    · exact absurd h id
    · cases h
  | quota => exact hparty
  | notStarted =>
    refine ⟨hparty.1, fun h => ?_, fun h => absurd h id, fun _ h => ?_⟩
    · cases h
    · cases h
  | starts runId =>
    refine ⟨hparty.1.grows (grows_start _ _ _), fun h => ?_, fun _ => ?_, fun _ h => ?_⟩
    · cases h
    · exact ⟨_, mem_append_right _ (mem_singleton.mpr rfl), rfl, rfl⟩
    · cases h
  | startLost =>
    refine ⟨hparty.1.grows (grows_start _ _ _), fun h => ?_, fun h => absurd h id, fun _ h => ?_⟩
    · cases h
    · cases h
  | @goesOn request phase phase' hopen hopen' hinserted =>
    obtain ⟨hbased, -, hstarted, hrows⟩ := hparty
    refine ⟨hbased, fun h => ?_, fun _ => hstarted hopen, fun runId h => ?_⟩
    · subst h
      exact absurd hopen' id
    · exact hrows runId (hinserted runId h)
  | @inserts request runId phase' hnew hphase' =>
    obtain ⟨hbased, -, hstarted, -⟩ := hparty
    refine ⟨hbased.grows (grows_insert _ _ _), fun h => ?_, fun _ => ?_, fun runId' h => ?_⟩
    · rcases hphase' with rfl | rfl
      · cases h
      · cases h
    · exact (hstarted trivial).grows (grows_insert _ _ _)
    · rcases hphase' with rfl | rfl
      · cases h
        exact mem_append_right _ (mem_singleton.mpr rfl)
      · cases h
  | @commits request runId phase' hphase' =>
    obtain ⟨hbased, -, hstarted, -⟩ := hparty
    refine ⟨hbased.grows (grows_commit _ _), fun h => ?_, fun _ => ?_, fun runId' h => ?_⟩
    · rcases hphase' with rfl | rfl
      · cases h
      · cases h
    · exact (hstarted trivial).grows (grows_commit _ _)
    · rcases hphase' with rfl | rfl
      · cases h
      · cases h
  | drops hopen =>
    obtain ⟨hbased, -, hstarted, -⟩ := hparty
    refine ⟨hbased.grows (grows_rollback _ _), fun h => ?_, fun _ => ?_, fun _ h => ?_⟩
    · cases h
    · exact (hstarted hopen).grows (grows_rollback _ _)
    · cases h
  | terminates =>
    refine ⟨hparty.1.grows (grows_close _ _), fun h => ?_, fun h => absurd h id, fun _ h => ?_⟩
    · cases h
    · cases h
  | notTerminated =>
    refine ⟨hparty.1, fun h => ?_, fun h => absurd h id, fun _ h => ?_⟩
    · cases h
    · cases h

end operations

/-! ## Runs -/

section runs

variable [DecidableEq ι] {s s' : ServerState ι} {phases : ι → RetryPhase}
  {es : List (ServerEvent ι)}

/-- **What holds in every state reached**: each request is in a phase, and has what it needs
there. -/
structure Server.Invariant (server : Server ι) (s : ServerState ι) (phases : ι → RetryPhase) :
    Prop where
  tracks : server.Tracks s phases
  sound : server.Sound s.store
  party : ∀ i, server.Party s.store i (phases i)

theorem invariant_initial : server.Invariant server.initial server.firstPhase where
  tracks := tracks_initial
  sound :=
    { executions := fun row hrow => .inl (server.scheduled_new row hrow)
      uncommitted := fun _ hentry => absurd hentry not_mem_nil
      workflows := fun _ hworkflow => absurd hworkflow not_mem_nil
      nodup := nodup_nil }
  party i := by
    unfold Server.firstPhase
    cases hhandler : server.handler i with
    | retry tenantId executionId =>
      exact ⟨hhandler, fun _ hworkflow => absurd hworkflow not_mem_nil⟩
    | fire request =>
      obtain ⟨hretry, hversion⟩ := server.fires_version i request hhandler
      refine ⟨⟨hversion, ?_, ?_⟩, fun _ _ hworkflow => absurd hworkflow not_mem_nil,
        fun h => absurd h id, fun _ h => ?_⟩
      · rw [hhandler]
        exact hretry
      · intro executionId h
        rw [hhandler] at h
        cases h
      · cases h

section

variable (h : server.Invariant s phases)

include h

/-- **A call of a request keeps the invariant.** -/
theorem Server.Invariant.stepped {call : RetryCall} {fault : Fault} {phase : RetryPhase}
    (hstepped : Stepped server i call fault s.store (phases i) s'.store phase)
    (htracks : server.Tracks s' (update phases i phase)) :
    server.Invariant s' (update phases i phase) where
  tracks := htracks
  sound := hstepped.sound h.sound (h.party i)
  party j := by
    by_cases hji : j = i
    · subst hji
      rw [update_self]
      exact hstepped.party h.sound (h.party j)
    · rw [update_of_ne hji]
      exact (h.party j).frame (hstepped.frame hji)

/-- A request that is cut off. -/
theorem Server.Invariant.cut (hstore : s'.store = s.store.rollback i)
    (htracks : server.Tracks s' (update phases i .refused)) :
    server.Invariant s' (update phases i .refused) where
  tracks := htracks
  sound := by
    rw [hstore]
    exact h.sound.rollback i
  party j := by
    rw [hstore]
    by_cases hji : j = i
    · subst hji
      rw [update_self]
      exact trivial
    · rw [update_of_ne hji]
      exact (h.party j).frame (frame_rollback hji)

/-- A workflow marks its execution. -/
theorem Server.Invariant.mark (hstore : s'.store = s.store.mark executionId phase)
    (htracks : server.Tracks s' phases) : server.Invariant s' phases where
  tracks := htracks
  sound := by
    rw [hstore]
    exact h.sound.mark executionId phase
  party j := by
    rw [hstore]
    exact (h.party j).frame (frame_mark j executionId phase)

/-- A workflow is closed. -/
theorem Server.Invariant.close
    (hstore : s'.store = s.store.close executionId) (htracks : server.Tracks s' phases) :
    server.Invariant s' phases where
  tracks := htracks
  sound := by
    rw [hstore]
    exact h.sound.close executionId
  party j := by
    rw [hstore]
    exact (h.party j).frame (frame_close j executionId)

/-- **A step keeps the invariant**, and changes the phase of at most one request. -/
theorem Server.Invariant.step {e : ServerEvent ι}
    (hstep : server.step s e = some s') : ∃ phases', server.Invariant s' phases' := by
  cases e with
  | call i fault outside =>
    obtain ⟨call, resume, -, reply, -, hstepped, htracks⟩ := tracks_of_call h.tracks hstep
    exact ⟨_, h.stepped hstepped htracks⟩
  | cut i =>
    obtain ⟨hstore, htracks⟩ := tracks_of_cut h.tracks hstep
    exact ⟨_, h.cut hstore htracks⟩
  | mark executionId phase =>
    obtain ⟨-, hstore, htracks⟩ := tracks_of_mark h.tracks hstep
    exact ⟨phases, h.mark hstore htracks⟩
  | close executionId =>
    obtain ⟨hstore, htracks⟩ := tracks_of_close h.tracks hstep
    exact ⟨phases, h.close hstore htracks⟩

end

/-- **Rows and workflows belong together in every state reached.** -/
theorem sound_of_run {allowed : List (ServerEvent ι) → ServerState ι → ServerEvent ι → Prop}
    (hrun : Run server.step allowed server.initial es s) : server.Sound s.store := by
  have hinvariant : ∃ phases, server.Invariant s phases := by
    apply hrun.invariant (I := fun _ s => ∃ phases, server.Invariant s phases)
    · exact ⟨_, invariant_initial⟩
    · rintro _ _ _ _ ⟨phases, h⟩ _ hstep
      exact h.step hstep
  obtain ⟨phases, h⟩ := hinvariant
  exact h.sound

end runs

end sound

end Dataflow.Api.Retries
