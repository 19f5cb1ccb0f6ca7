import Dataflow.Api.RetrySound

/-!
# Retries of one execution

A request looks for a running retry, starts its workflow, and inserts the row that others can see;
the index `idx_executions_one_active_retry` refuses a second row, and the workflow is terminated.
Between these steps two workflows may be live.

* `Exclusive`: at most one live workflow retries an execution.
* `Recording`, `Clear`, `Careful`: the condition: when a request starts its workflow, no other one
  has a row to record, no retry has a running row, and none is marked and not closed yet; a workflow
  that is started is recorded or terminated.
* `Covered`: a live workflow of a retry is marked, has a running row, or its request is at work.
* `retries_exclusive_of_run`: **main result**: retries are exclusive in every run of such steps.
* `two_retries_live`: two requests pass the check, and both workflows are live.

Source: `routes_executions.go` `executionRetry`, `temporal.go` `fireExecution`, `db/012`
-/

set_option linter.unusedSectionVars false

namespace Dataflow.Api.Retries

open Model Library Library.Transition List Function

variable {ι : Type}

/-! ## The condition -/

/-- **At most one live workflow retries an execution.** -/
def Exclusive (store : Store ι) : Prop :=
  ∀ workflow ∈ store.workflows, ∀ workflow' ∈ store.workflows, workflow.Live → workflow'.Live →
    ∀ executionId, workflow.retryOf = some executionId → workflow'.retryOf = some executionId →
      workflow.id = workflow'.id

/-- The request has started its workflow, and has still to record or terminate it. -/
def Recording (s : ServerState ι) (i : ι) : Prop :=
  match s.programs i with
  | .done _ => False
  | .await call _ => call.IsRecording

section condition

variable (server : Server ι) (s : ServerState ι)

/-- Nothing of another retry is under way: no other request records one, no row of one is running,
and none has marked its row and is still to be closed. -/
def Clear (i : ι) : Prop :=
  (∀ j ≠ i, (server.handler j).retryOf = (server.handler i).retryOf → ¬ Recording s j) ∧
  (∀ row ∈ s.store.executions, row.retryOf = (server.handler i).retryOf → row.phase ≠ "running") ∧
  ∀ workflow ∈ s.store.workflows, workflow.retryOf = (server.handler i).retryOf →
    workflow.status ≠ .marked

/-- The condition on a call of a retry: the workflow is started when nothing else is under way, and
the reply arrives; and a termination takes effect. -/
def CarefulCall (i : ι) (fault : Fault) : RetryCall → Prop
  | .server (.executeWorkflow _ _ _) =>
    match fault with
    | .none => Clear server s i
    | .fails _ => True
    | .replyLost _ => False
  | .server (.terminateWorkflow _ _ _) => fault.takesEffect = true
  | _ => True

/-- **The condition on a step.** A request is not cut off while it has a workflow to record. -/
def Careful : ServerEvent ι → Prop
  | .call i fault _ => (server.handler i).retryOf ≠ none → match s.programs i with
      | .done _ => True
      | .await call _ => CarefulCall server s i fault call
  | .cut i => (server.handler i).retryOf ≠ none → ¬ Recording s i
  | .mark _ _ | .close _ => True

end condition

/-! ## Why a workflow is live -/

/-- The workflow of the request is started, and what becomes of it is still open. -/
def PhaseOpen : RetryPhase → Prop
  | .firing _ phase => phase.Open
  | .reading _ _ | .refused => False

section covered

variable (server : Server ι) (store : Store ι) (phases : ι → RetryPhase)

/-- The workflow is marked, or has a running row, or its request is at work. -/
def Covered (workflow : StartedWorkflow) : Prop :=
  workflow.status = .marked ∨
  (∃ row ∈ store.executions, row.id = workflow.id ∧ row.retryOf = workflow.retryOf ∧
    row.phase = "running") ∨
  ∃ i, workflow.id = (server.minted i).executionId ∧
    workflow.retryOf = (server.handler i).retryOf ∧ PhaseOpen (phases i)

/-- Every live workflow of a retry is covered. -/
def AllCovered : Prop :=
  ∀ workflow ∈ store.workflows, workflow.Live → workflow.retryOf ≠ none →
    Covered server store phases workflow

end covered

section steps

variable [DecidableEq ι] {server : Server ι} {s s' : ServerState ι} {store store' : Store ι}
  {phases phases' : ι → RetryPhase} {i : ι} {phase phase' : RetryPhase} {call : RetryCall}
  {fault : Fault} {workflow : StartedWorkflow}

/-- A request whose workflow is open waits for the reply to a call about it. -/
theorem recording_of_open (h : server.Tracks s phases) (hopen : PhaseOpen (phases i)) :
    Recording s i := by
  have hfollows := h i
  unfold Recording
  cases hphase : phases i with
  | reading tenantId executionId | refused =>
    rw [hphase] at hopen
    exact absurd hopen id
  | firing request phase =>
    rw [hphase] at hopen hfollows
    cases hprogram : s.programs i with
    | done _ =>
      rw [hprogram] at hfollows
      rcases hfollows with rfl | rfl
      · exact absurd hopen id
      · exact absurd hopen id
    | await call resume =>
      rw [hprogram] at hfollows
      cases call with
      | selectExecution => exact absurd hfollows.1 id
      | server call => exact FirePhase.isRecording_of_open hopen hfollows.1

/-- A workflow stays covered as long as running rows and open requests stay. -/
theorem Covered.mono (h : Covered server store phases workflow)
    (hrows : ∀ row ∈ store.executions, row ∈ store'.executions)
    (hopen : ∀ j, PhaseOpen (phases j) → PhaseOpen (phases' j)) :
    Covered server store' phases' workflow := by
  rcases h with hmarked | ⟨row, hrow, hcovers⟩ | ⟨j, hid, hretry, hj⟩
  · exact .inl hmarked
  · exact .inr (.inl ⟨row, hrows row hrow, hcovers⟩)
  · exact .inr (.inr ⟨j, hid, hretry, hopen j hj⟩)

/-- The phases of the other requests stay. -/
theorem open_update (h : PhaseOpen (phases i) → PhaseOpen phase) (j : ι) :
    PhaseOpen (phases j) → PhaseOpen (update phases i phase j) := by
  by_cases hji : j = i
  · subst hji
    rw [update_self]
    exact h
  · rw [update_of_ne hji]
    exact id

/-- **Nothing is live when nothing is under way.** -/
theorem not_live_of_clear (h : server.Invariant s phases)
    (hcovered : AllCovered server s.store phases) (hclear : Clear server s i)
    (hclosed : ¬ PhaseOpen (phases i)) (hworkflow : workflow ∈ s.store.workflows)
    (hretry : workflow.retryOf = (server.handler i).retryOf)
    (hne : (server.handler i).retryOf ≠ none) : ¬ workflow.Live := by
  intro hlive
  rw [← hretry] at hne
  rcases hcovered workflow hworkflow hlive hne with
    hmarked | ⟨row, hrow, -, hrowRetry, hrunning⟩ | ⟨j, -, hjretry, hopen⟩
  · exact hclear.2.2 workflow hworkflow hretry hmarked
  · exact hclear.2.1 row hrow (hrowRetry.trans hretry) hrunning
  · have hji : j ≠ i := by
      rintro rfl
      exact hclosed hopen
    exact hclear.1 j hji (hjretry.symm.trans hretry) (recording_of_open h.tracks hopen)

/-- A workflow of the request is covered by its row once the row is committed. -/
theorem covered_of_commit {request : FireRequest} {runId : String}
    (hparty : server.Party store i (.firing request (.inserted runId)))
    (hid : workflow.id = (server.minted i).executionId)
    (hretry : workflow.retryOf = (server.handler i).retryOf) (hne : workflow.retryOf ≠ none) :
    Covered server (store.commit i) phases workflow := by
  obtain ⟨hbased, -, -, hrows⟩ := hparty
  refine .inr (.inl ⟨executionRow request (server.minted i) runId,
    mem_commit.mpr (.inr (hrows runId rfl)), hid.symm, ?_, rfl⟩)
  obtain ⟨executionId, hexecutionId⟩ := Option.ne_none_iff_exists'.mp hne
  rw [hexecutionId] at hretry
  rw [hexecutionId]
  show nullString request.retryOf = some executionId
  rw [hbased.retries, ← hretry]
  exact if_neg (hbased.repeats executionId hretry.symm).1

/-- A phase that is not open covers nothing. -/
theorem open_of_not {P : Prop} (hphase : phases i = phase) (h : ¬ PhaseOpen phase) :
    PhaseOpen (phases i) → P := by
  rw [hphase]
  exact fun hopen => absurd hopen h

/-- **A call of a request** leaves every live workflow of a retry covered. -/
theorem AllCovered.stepped (h : server.Invariant s phases)
    (hcovered : AllCovered server s.store phases)
    (hcareful : (server.handler i).retryOf ≠ none → CarefulCall server s i fault call)
    (hstepped : Stepped server i call fault s.store phase store' phase')
    (hphase : phases i = phase) : AllCovered server store' (update phases i phase') := by
  intro workflow hworkflow hlive hne
  have hparty := h.party i
  rw [hphase] at hparty
  cases hstepped with
  | refused | accepted =>
    exact (hcovered workflow hworkflow hlive hne).mono (fun _ => id)
      (open_update (open_of_not hphase id))
  | quota =>
    refine (hcovered workflow hworkflow hlive hne).mono (fun _ => id) (open_update ?_)
    rw [hphase]
    exact id
  | notStarted =>
    exact (hcovered workflow hworkflow hlive hne).mono (fun _ => id)
      (open_update (open_of_not hphase id))
  | starts =>
    rcases mem_append.mp hworkflow with hold | hnew
    · exact (hcovered workflow hold hlive hne).mono (fun _ => id)
        (open_update (open_of_not hphase id))
    · obtain rfl := mem_singleton.mp hnew
      refine .inr (.inr ⟨i, rfl, rfl, ?_⟩)
      rw [update_self]
      exact trivial
  | startLost hcall hfault =>
    rcases mem_append.mp hworkflow with hold | hnew
    · exact (hcovered workflow hold hlive hne).mono (fun _ => id)
        (open_update (open_of_not hphase id))
    · -- The reply to the start of a retry arrives.
      obtain rfl := mem_singleton.mp hnew
      have hlost := hcareful hne
      subst hfault
      cases call with
      | selectExecution => exact absurd hcall id
      | server call =>
        cases call with
        | executeWorkflow => exact absurd hlost id
        | _ => exact absurd hcall id
  | goesOn _ hopen' _ =>
    exact (hcovered workflow hworkflow hlive hne).mono (fun _ => id)
      (open_update fun _ => hopen')
  | inserts _ hphase' =>
    refine (hcovered workflow hworkflow hlive hne).mono (fun _ => id) (open_update fun _ => ?_)
    rcases hphase' with rfl | rfl
    · exact trivial
    · exact trivial
  | commits hphase' =>
    rcases hcovered workflow hworkflow hlive hne with hmarked | ⟨row, hrow, hcovers⟩ |
      ⟨j, hid, hretry, hopen⟩
    · exact .inl hmarked
    · exact .inr (.inl ⟨row, mem_commit.mpr (.inl hrow), hcovers⟩)
    · by_cases hji : j = i
      · subst hji
        exact covered_of_commit hparty hid hretry hne
      · refine .inr (.inr ⟨j, hid, hretry, ?_⟩)
        rw [update_of_ne hji]
        exact hopen
  | drops =>
    exact (hcovered workflow hworkflow hlive hne).mono (fun _ => id)
      (open_update fun _ => trivial)
  | terminates =>
    obtain ⟨old, hold, rfl⟩ := mem_close.mp hworkflow
    split_ifs at hlive hne with hclosed
    · exact absurd rfl hlive
    · rw [if_neg hclosed]
      rcases hcovered old hold hlive hne with hmarked | hrow | ⟨j, hid, hretry, hopen⟩
      · exact .inl hmarked
      · exact .inr (.inl hrow)
      · have hji : j ≠ i := by
          rintro rfl
          exact hclosed hid
        refine .inr (.inr ⟨j, hid, hretry, ?_⟩)
        rw [update_of_ne hji]
        exact hopen
  | notTerminated hcall hfault =>
    rcases hcovered workflow hworkflow hlive hne with hmarked | hrow | ⟨j, hid, hretry, hopen⟩
    · exact .inl hmarked
    · exact .inr (.inl hrow)
    · by_cases hji : j = i
      · -- The termination of a retry takes effect.
        subst hji
        rw [hretry] at hne
        have heffect := hcareful hne
        subst hfault
        cases call with
        | selectExecution => exact absurd hcall id
        | server call =>
          cases call with
          | terminateWorkflow => exact absurd heffect Bool.false_ne_true
          | _ => exact absurd hcall id
      · refine .inr (.inr ⟨j, hid, hretry, ?_⟩)
        rw [update_of_ne hji]
        exact hopen

/-- A request that is cut off has no workflow to record. -/
theorem AllCovered.cut (h : server.Invariant s phases) (hcovered : AllCovered server s.store phases)
    (hcareful : (server.handler i).retryOf ≠ none → ¬ Recording s i) :
    AllCovered server (s.store.rollback i) (update phases i .refused) := by
  intro workflow hworkflow hlive hne
  rcases hcovered workflow hworkflow hlive hne with hmarked | hrow | ⟨j, hid, hretry, hopen⟩
  · exact .inl hmarked
  · exact .inr (.inl hrow)
  · have hji : j ≠ i := by
      rintro rfl
      rw [hretry] at hne
      exact hcareful hne (recording_of_open h.tracks hopen)
    refine .inr (.inr ⟨j, hid, hretry, ?_⟩)
    rw [update_of_ne hji]
    exact hopen

/-- A workflow that marks its execution is covered by that. -/
theorem AllCovered.mark (hcovered : AllCovered server store phases) (executionId : String)
    (final : Model.Phase) : AllCovered server (store.mark executionId final) phases := by
  intro workflow hworkflow hlive hne
  obtain ⟨old, hold, rfl⟩ := mem_mark.mp hworkflow
  by_cases hmark : old.id = executionId ∧ old.status = .running
  · rw [if_pos hmark]
    exact .inl rfl
  · rw [if_neg hmark] at hlive hne ⊢
    rcases hcovered old hold hlive hne with hmarked | ⟨row, hrow, hid, hcovers⟩ | hopen
    · exact .inl hmarked
    · by_cases hexecution : old.id = executionId
      · -- A live workflow that is not running has been marked.
        left
        cases hstatus : old.status with
        | running => exact absurd ⟨hexecution, hstatus⟩ hmark
        | marked => rfl
        | closed => exact absurd hstatus hlive
      · refine .inr (.inl ⟨row, mem_executions_mark.mpr ⟨row, hrow, ?_⟩, hid, hcovers⟩)
        rw [hid, if_neg hexecution]
    · exact .inr (.inr hopen)

/-- Closing a workflow covers no less. -/
theorem AllCovered.close (hcovered : AllCovered server store phases) (executionId : String) :
    AllCovered server (store.close executionId) phases := by
  intro workflow hworkflow hlive hne
  obtain ⟨old, hold, rfl⟩ := mem_close.mp hworkflow
  split_ifs at hlive hne with hclosed
  · exact absurd rfl hlive
  · rw [if_neg hclosed]
    exact hcovered old hold hlive hne

/-! ## Exclusivity -/

/-- What was live before was exclusive. -/
theorem Exclusive.of_live (h : Exclusive store)
    (hlive : ∀ workflow' ∈ store'.workflows, workflow'.Live → ∃ workflow ∈ store.workflows,
      workflow.Live ∧ workflow.id = workflow'.id ∧ workflow.retryOf = workflow'.retryOf) :
    Exclusive store' := by
  intro first hfirst second hsecond hlive₁ hlive₂ executionId hretry₁ hretry₂
  obtain ⟨old₁, hold₁, holdLive₁, hid₁, holdRetry₁⟩ := hlive first hfirst hlive₁
  obtain ⟨old₂, hold₂, holdLive₂, hid₂, holdRetry₂⟩ := hlive second hsecond hlive₂
  rw [← hid₁, ← hid₂]
  exact h old₁ hold₁ old₂ hold₂ holdLive₁ holdLive₂ executionId (holdRetry₁.trans hretry₁)
    (holdRetry₂.trans hretry₂)

theorem Exclusive.close (h : Exclusive store) (executionId : String) :
    Exclusive (store.close executionId) := by
  apply h.of_live
  intro workflow hworkflow hlive
  obtain ⟨old, hold, rfl⟩ := mem_close.mp hworkflow
  split_ifs at hlive with hclosed
  · exact absurd rfl hlive
  · rw [if_neg hclosed]
    exact ⟨old, hold, hlive, rfl, rfl⟩

theorem Exclusive.mark (h : Exclusive store) (executionId : String) (final : Model.Phase) :
    Exclusive (store.mark executionId final) := by
  apply h.of_live
  intro workflow hworkflow hlive
  obtain ⟨old, hold, rfl⟩ := mem_mark.mp hworkflow
  by_cases hmark : old.id = executionId ∧ old.status = .running
  · rw [if_pos hmark]
    refine ⟨old, hold, ?_, rfl, rfl⟩
    rw [StartedWorkflow.Live, hmark.2]
    decide
  · rw [if_neg hmark] at hlive ⊢
    exact ⟨old, hold, hlive, rfl, rfl⟩

/-- **A workflow that is started when no retry of the execution is live.** -/
theorem Exclusive.start (h : Exclusive store) (input : WorkflowInput) {retryOf : Option String}
    (hnone : ∀ workflow ∈ store.workflows, workflow.retryOf = retryOf → retryOf ≠ none →
      ¬ workflow.Live) : Exclusive (store.start input retryOf) := by
  intro first hfirst second hsecond hlive₁ hlive₂ executionId hretry₁ hretry₂
  have hnew : ∀ workflow ∈ store.workflows, workflow.retryOf = some executionId →
      retryOf = some executionId → ¬ workflow.Live := by
    rintro workflow hworkflow hretry rfl
    exact hnone workflow hworkflow hretry (Option.some_ne_none _)
  rcases mem_append.mp hfirst with hfirst | hfirst
  · rcases mem_append.mp hsecond with hsecond | hsecond
    · exact h first hfirst second hsecond hlive₁ hlive₂ executionId hretry₁ hretry₂
    · obtain rfl := mem_singleton.mp hsecond
      exact absurd hlive₁ (hnew first hfirst hretry₁ hretry₂)
  · obtain rfl := mem_singleton.mp hfirst
    rcases mem_append.mp hsecond with hsecond | hsecond
    · exact absurd hlive₂ (hnew second hsecond hretry₂ hretry₁)
    · obtain rfl := mem_singleton.mp hsecond
      rfl

/-- **A call of a request** keeps retries exclusive. -/
theorem Exclusive.stepped (h : server.Invariant s phases)
    (hcovered : AllCovered server s.store phases) (hexclusive : Exclusive s.store)
    (hcareful : (server.handler i).retryOf ≠ none → CarefulCall server s i fault call)
    (hstepped : Stepped server i call fault s.store phase store' phase')
    (hphase : phases i = phase) : Exclusive store' := by
  cases hstepped with
  | starts runId hcall hfault =>
    subst hfault
    apply hexclusive.start
    intro workflow hworkflow hretry hne
    have hclear : Clear server s i := by
      cases call with
      | selectExecution => exact absurd hcall id
      | server call =>
        cases call with
        | executeWorkflow => exact hcareful hne
        | _ => exact absurd hcall id
    apply not_live_of_clear h hcovered hclear ?_ hworkflow hretry hne
    rw [hphase]
    exact id
  | startLost hcall hfault =>
    subst hfault
    apply hexclusive.start
    intro workflow hworkflow hretry hne
    cases call with
    | selectExecution => exact absurd hcall id
    | server call =>
      cases call with
      | executeWorkflow => exact absurd (hcareful hne) id
      | _ => exact absurd hcall id
  | terminates => exact hexclusive.close _
  | _ => exact hexclusive

/-- **What holds in every state reached by careful steps.** -/
structure Secured (server : Server ι) (s : ServerState ι) (phases : ι → RetryPhase) : Prop where
  invariant : server.Invariant s phases
  covered : AllCovered server s.store phases
  exclusive : Exclusive s.store

/-- **A careful step keeps it.** -/
theorem Secured.step {e : ServerEvent ι} (h : Secured server s phases)
    (hcareful : Careful server s e) (hstep : server.step s e = some s') :
    ∃ phases', Secured server s' phases' := by
  cases e with
  | call i fault outside =>
    obtain ⟨call, resume, hprogram, reply, -, hstepped, htracks⟩ :=
      tracks_of_call h.invariant.tracks hstep
    have hcall : (server.handler i).retryOf ≠ none → CarefulCall server s i fault call := by
      intro hne
      have hcareful := hcareful hne
      rw [hprogram] at hcareful
      exact hcareful
    exact ⟨_, h.invariant.stepped hstepped htracks,
      h.covered.stepped h.invariant hcall hstepped rfl,
      Exclusive.stepped h.invariant h.covered h.exclusive hcall hstepped rfl⟩
  | cut i =>
    obtain ⟨hstore, htracks⟩ := tracks_of_cut h.invariant.tracks hstep
    refine ⟨_, h.invariant.cut hstore htracks, ?_, ?_⟩
    · rw [hstore]
      exact h.covered.cut h.invariant hcareful
    · rw [hstore]
      exact h.exclusive
  | mark executionId final =>
    obtain ⟨-, hstore, htracks⟩ := tracks_of_mark h.invariant.tracks hstep
    refine ⟨phases, h.invariant.mark hstore htracks, ?_, ?_⟩
    · rw [hstore]
      exact h.covered.mark executionId final
    · rw [hstore]
      exact h.exclusive.mark executionId final
  | close executionId =>
    obtain ⟨hstore, htracks⟩ := tracks_of_close h.invariant.tracks hstep
    refine ⟨phases, h.invariant.close hstore htracks, ?_, ?_⟩
    · rw [hstore]
      exact h.covered.close executionId
    · rw [hstore]
      exact h.exclusive.close executionId

/-- **Retries are exclusive** in every state that careful steps lead to. -/
theorem retries_exclusive_of_run {es : List (ServerEvent ι)}
    (hrun : Run server.step (fun _ => Careful server) server.initial es s) : Exclusive s.store := by
  have hsecured : ∃ phases, Secured server s phases := by
    apply hrun.invariant (I := fun _ s => ∃ phases, Secured server s phases)
    · refine ⟨_, invariant_initial, ?_, ?_⟩
      · exact fun _ hworkflow => absurd hworkflow not_mem_nil
      · exact fun _ hworkflow => absurd hworkflow not_mem_nil
    · rintro _ _ _ _ ⟨phases, h⟩ hcareful hstep
      exact h.step hcareful hstep
  obtain ⟨phases, h⟩ := hsecured
  exact h.exclusive

end steps

/-! ## Two requests -/

/-- An execution that a schedule has started, and that has failed. -/
def failedRow : ExecutionRow where
  id := "exec-cron"
  pipelineId := "row"
  tenantId := "tenant"
  triggerType := "cron"
  phase := "failed"
  environment := "prod"
  workflowId := "exec-cron"
  runId := "run"
  traceId := "trace"

/-- Two requests retry it. -/
def twoRetries : Server Bool where
  versions := [{ id := "row", tenantId := "tenant", definition := { tenantId := "tenant" } }]
  handler _ := .retry "tenant" "exec-cron"
  minted
    | true => { executionId := "exec-1", traceId := "trace-1" }
    | false => { executionId := "exec-2", traceId := "trace-2" }
  scheduled := [failedRow]
  versions_nodup := nodup_singleton _
  minted_injective := by decide
  minted_ne_empty := by decide
  scheduled_new := by decide
  fires_version i request h := by cases h

instance : DecidablePred StartedWorkflow.Live := fun workflow =>
  inferInstanceAs (Decidable (workflow.status ≠ .closed))

instance {ι : Type} (s : ServerState ι) (i : ι) : Decidable (Recording s i) := by
  unfold Recording
  cases s.programs i with
  | done _ => exact isFalse id
  | await call _ => exact inferInstanceAs (Decidable call.IsRecording)

instance (server : Server Bool) (s : ServerState Bool) (i : Bool) : Decidable (Clear server s i) :=
  inferInstanceAs (Decidable ((∀ j, j ≠ i → _ → ¬ Recording s j) ∧ _ ∧ _))

instance (server : Server Bool) (s : ServerState Bool) (i : Bool) (fault : Fault)
    (call : RetryCall) : Decidable (CarefulCall server s i fault call) :=
  match call, fault with
  | .server (.executeWorkflow _ _ _), .none => inferInstanceAs (Decidable (Clear server s i))
  | .server (.executeWorkflow _ _ _), .replyLost _ => inferInstanceAs (Decidable False)
  | .server (.terminateWorkflow _ _ _), fault => inferInstanceAs (Decidable (fault.takesEffect = true))
  | .server (.executeWorkflow _ _ _), .fails _ | .selectExecution _ _, _ | .server (.begin _), _
  | .server (.insertPlan _), _ | .server (.insertCounter _ _), _ | .server (.selectForUpdate _ _), _
  | .server (.increment _ _), _ | .server (.decrement _ _), _ | .server (.insertExecution _ _), _
  | .server (.startPartition _ _), _ | .server (.commit _), _ | .server (.rollback _), _ =>
    inferInstanceAs (Decidable True)

instance (server : Server Bool) (s : ServerState Bool) (e : ServerEvent Bool) :
    Decidable (Careful server s e) := by
  unfold Careful
  cases e with
  | call i fault outside =>
    dsimp only
    cases s.programs i with
    | done _ | await call _ => infer_instance
  | cut i | mark _ _ | close _ => infer_instance

/-- Two workflows that have been started for the same execution; the second one is live. -/
def SecondRetry (s : ServerState Bool) : Prop :=
  s.store.workflows.map (fun workflow => (workflow.retryOf, workflow.status)) =
    [(some "exec-cron", .closed), (some "exec-cron", .running)]

instance : DecidablePred SecondRetry := fun _ => inferInstanceAs (Decidable (_ = _))

/-- The theorem at a retry that fails, and is followed by another one. -/
theorem retries_exclusive_of_run_again :
    ∃ s, Run twoRetries.step (fun _ => Careful twoRetries) twoRetries.initial
      (succeedingCalls true 11 ++ [.mark "exec-1" .failed, .close "exec-1"] ++
        succeedingCalls false 11) s ∧ SecondRetry s ∧ Exclusive s.store := by
  obtain ⟨s, hrun, hsecond⟩ : ∃ s, Run twoRetries.step (fun _ => Careful twoRetries)
      twoRetries.initial (succeedingCalls true 11 ++ [.mark "exec-1" .failed, .close "exec-1"] ++
        succeedingCalls false 11) s ∧ SecondRetry s :=
    exists_run_of_guarded (by decide +kernel)
  exact ⟨s, hrun, hsecond, retries_exclusive_of_run hrun⟩

/-- **Two retries of one execution are live**: the second request looks for a running retry after
the first one has started its workflow, and before it has inserted the row. Nothing fails. -/
theorem two_retries_live : ∃ s, Run twoRetries.step Any twoRetries.initial
      (succeedingCalls true 8 ++ succeedingCalls false 8) s ∧ ¬ Exclusive s.store := by
  obtain ⟨s, hrun, workflow, hworkflow, workflow', hworkflow', hlive, hlive', hretry, hretry', hne⟩ :
      ∃ s, Run twoRetries.step Any twoRetries.initial
        (succeedingCalls true 8 ++ succeedingCalls false 8) s ∧
        ∃ workflow ∈ s.store.workflows, ∃ workflow' ∈ s.store.workflows,
          workflow.Live ∧ workflow'.Live ∧ workflow.retryOf = some "exec-cron" ∧
            workflow'.retryOf = some "exec-cron" ∧ workflow.id ≠ workflow'.id :=
    exists_run_of_check (fun _ _ _ _ => trivial) (by decide +kernel)
  refine ⟨s, hrun, ?_⟩
  intro hexclusive
  exact hne (hexclusive workflow hworkflow workflow' hworkflow' hlive hlive' _ hretry hretry')

end Dataflow.Api.Retries
