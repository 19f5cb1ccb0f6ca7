import Dataflow.Api.Backfills
import Mathlib.Logic.Function.Basic

/-!
# Requests for the backfills of a pipeline

The paths of the two requests name a pipeline, for which access is checked, and a job. A cancel
request looks for the job among those of the pipeline before it touches a partition; a retry request
looks at the job only after it has reset its partitions.

* `Database`: the rows that each tenant sees; `Endpoint`, `handle`: the requests.
* `Owned`: the job is one of the pipeline's.
* `Inside`: what a request for a pipeline may change.
* **`inside_handle_iff`**: the requests that keep to that.
* `retry_outside`: one that does not.

Source: `routes_pipelines.go` `backfillCancel`, `backfillRetry`, `registerPipelines`
-/

namespace Dataflow.Api.Backfill

open Library Function

/-! ## Requests -/

/-- The rows that each tenant sees; a transaction of a tenant sees and changes no other rows. -/
abbrev Database := (tenantId : String) → Tables

/-- The two requests. -/
inductive Endpoint where
  | cancel
  | retry
  deriving DecidableEq

/-- The rows of the tenant after a request; a cancel request that finds no job has changed
nothing. -/
def Endpoint.apply (tables : Tables) (jobId pipelineId : String) : Endpoint → Tables
  | .cancel => (backfillCancel tables jobId pipelineId).getD tables
  | .retry => backfillRetry tables jobId pipelineId

/-- The database after a request in a transaction of the tenant. -/
def handle (db : Database) (tenantId : String) (endpoint : Endpoint) (jobId pipelineId : String) :
    Database :=
  update db tenantId (endpoint.apply (db tenantId) jobId pipelineId)

/-! ## What they may change -/

/-- The row is that of the job, in the pipeline. -/
def Job.target (jobId pipelineId : String) (job : Job) : Bool :=
  job.id = jobId && job.pipelineId = pipelineId

/-- **The job is one of the pipeline's.** -/
def Owned (tables : Tables) (jobId pipelineId : String) : Prop :=
  ∃ job ∈ tables.jobs, job.target jobId pipelineId = true

/-- No rows but those of the job and of its partitions are changed. -/
structure OnlyJob (jobId pipelineId : String) (tables tables' : Tables) : Prop where
  jobs : tables'.jobs.filter (fun job => !job.target jobId pipelineId) =
    tables.jobs.filter fun job => !job.target jobId pipelineId
  partitions : tables'.partitions.filter (fun p => p.jobId ≠ jobId) =
    tables.partitions.filter fun p => p.jobId ≠ jobId
  executions : tables'.executions = tables.executions

/-- **A request stays inside its pipeline**: if the job is one of the pipeline's no rows but those
of the job and of its partitions are changed, and otherwise none are. -/
structure Inside (tenantId jobId pipelineId : String) (db db' : Database) : Prop where
  others : ∀ other, other ≠ tenantId → db' other = db other
  owned : Owned (db tenantId) jobId pipelineId → OnlyJob jobId pipelineId (db tenantId) (db' tenantId)
  foreign : ¬ Owned (db tenantId) jobId pipelineId → db' = db

section inside

variable {db : Database} {tenantId jobId pipelineId : String} {tables tables' : Tables}
  {endpoint : Endpoint}

/-- A cancel request changes the job and its partitions. -/
theorem onlyJob_backfillCancel (h : backfillCancel tables jobId pipelineId = some tables') :
    OnlyJob jobId pipelineId tables tables' := by
  unfold backfillCancel at h
  split_ifs at h
  obtain rfl := Option.some.inj h
  refine ⟨?_, ?_, rfl⟩
  · apply Rows.filter_update
    · intro job hjob
      simp_all [Job.cancellable, Job.target]
    · intro job hjob
      simp_all [Job.cancellable, Job.target, Job.set]
  · apply Rows.filter_update
    · intro p hp
      simp_all
    · intro p hp
      simp_all

/-- A retry request changes the job and its partitions, if the pipeline has the job or not. -/
theorem onlyJob_backfillRetry (tables : Tables) (jobId pipelineId : String) :
    OnlyJob jobId pipelineId tables (backfillRetry tables jobId pipelineId) := by
  unfold backfillRetry
  split_ifs
  · refine ⟨?_, ?_, rfl⟩
    · apply Rows.filter_update
      · intro job hjob
        simp_all [Job.target]
      · intro job hjob
        simp_all [Job.target, Job.set]
    · apply Rows.filter_update
      · intro p hp
        simp_all [Partition.retried]
      · intro p hp
        simp_all [Partition.retried]
  · exact ⟨rfl, rfl, rfl⟩

theorem onlyJob_apply (tables : Tables) (endpoint : Endpoint) :
    OnlyJob jobId pipelineId tables (endpoint.apply tables jobId pipelineId) := by
  cases endpoint with
  | cancel =>
    rw [Endpoint.apply]
    cases hcancel : backfillCancel tables jobId pipelineId with
    | none => exact ⟨rfl, rfl, rfl⟩
    | some tables' => exact onlyJob_backfillCancel hcancel
  | retry => exact onlyJob_backfillRetry tables jobId pipelineId

/-- A cancel request that finds a job has found one of the pipeline's. -/
theorem backfillCancel_of_not_owned (h : ¬ Owned tables jobId pipelineId) :
    backfillCancel tables jobId pipelineId = none := by
  rw [backfillCancel, if_neg]
  rw [List.any_eq_true]
  rintro ⟨job, hjob, hcancellable⟩
  rw [Job.cancellable, Bool.and_eq_true] at hcancellable
  exact h ⟨job, hjob, hcancellable.1⟩

/-- A retry request that finds a failed partition changes it. -/
theorem backfillRetry_eq_self_iff : backfillRetry tables jobId pipelineId = tables ↔
      ∀ p ∈ tables.partitions, p.jobId = jobId → p.status ≠ .failed := by
  unfold backfillRetry
  split_ifs with hany
  · obtain ⟨p, hp, hretried⟩ := List.any_eq_true.mp hany
    have hfailed : p.jobId = jobId ∧ p.status = .failed := by
      simpa [Partition.retried] using hretried
    constructor
    · intro heq
      have hpartitions := congrArg Tables.partitions heq
      have hself := List.map_inj_left.mp (hpartitions.trans (List.map_id _).symm) p hp
      rw [if_pos hretried] at hself
      have hstatus : PartitionStatus.pending = .failed :=
        (congrArg Partition.status hself).trans hfailed.2
      cases hstatus
    · intro hnone
      exact absurd hfailed.2 (hnone p hp hfailed.1)
  · rw [eq_self_iff_true, true_iff]
    intro p hp hjob hstatus
    exact hany (List.any_eq_true.mpr ⟨p, hp, by simp [Partition.retried, hjob, hstatus]⟩)

/-- **The requests that stay inside their pipeline**: a cancel request, and a retry request for a
job of the pipeline or for one without failed partitions. -/
theorem inside_handle_iff (db : Database) (tenantId : String) (endpoint : Endpoint)
    (jobId pipelineId : String) :
    Inside tenantId jobId pipelineId db (handle db tenantId endpoint jobId pipelineId) ↔
      endpoint = .cancel ∨ Owned (db tenantId) jobId pipelineId ∨
        ∀ p ∈ (db tenantId).partitions, p.jobId = jobId → p.status ≠ .failed := by
  have hself : handle db tenantId endpoint jobId pipelineId tenantId =
      endpoint.apply (db tenantId) jobId pipelineId := update_self _ _ _
  have hsame : handle db tenantId endpoint jobId pipelineId = db ↔
      endpoint.apply (db tenantId) jobId pipelineId = db tenantId := update_eq_self_iff
  have hinside :
      Inside tenantId jobId pipelineId db (handle db tenantId endpoint jobId pipelineId) ↔
      (¬ Owned (db tenantId) jobId pipelineId → endpoint.apply (db tenantId) jobId pipelineId = db tenantId) := by
    constructor
    · exact fun h hforeign => hsame.mp (h.foreign hforeign)
    · intro h
      refine ⟨fun other hother => update_of_ne hother _ _, fun _ => ?_, fun hforeign => hsame.mpr (h hforeign)⟩
      rw [hself]
      exact onlyJob_apply (db tenantId) endpoint
  rw [hinside]
  by_cases howned : Owned (db tenantId) jobId pipelineId
  · simp [howned]
  · cases endpoint with
    | cancel => simp [Endpoint.apply, backfillCancel_of_not_owned howned]
    | retry => simpa [howned, Endpoint.apply] using backfillRetry_eq_self_iff

end inside

/-! ## A job of another pipeline -/

/-- A tenant with a finished job of one pipeline, whose partition has failed. -/
def failedJob : Database := fun _ =>
  { jobs := [{ id := "job", pipelineId := "other", maxConcurrency := 1, createdAt := 0, status := .failed }]
    partitions := [{ id := "p", jobId := "job", ordinal := 0, status := .failed }] }

/-- **A retry through another pipeline** resets the partition. -/
theorem retry_outside : (handle failedJob "t" .retry "job" "mine" "t").partitions =
        [{ id := "p", jobId := "job", ordinal := 0, status := .pending }] ∧
      ¬ Inside "t" "job" "mine" failedJob (handle failedJob "t" .retry "job" "mine") := by
  have hpartitions : (handle failedJob "t" .retry "job" "mine" "t").partitions =
      [{ id := "p", jobId := "job", ordinal := 0, status := .pending }] := by rfl
  refine ⟨hpartitions, fun hinside => ?_⟩
  have hforeign : ¬ Owned (failedJob "t") "job" "mine" := by
    rintro ⟨job, hjob, htarget⟩
    obtain rfl := List.mem_singleton.mp hjob
    cases htarget
  rw [hinside.foreign hforeign] at hpartitions
  exact absurd hpartitions (by decide)

end Dataflow.Api.Backfill
