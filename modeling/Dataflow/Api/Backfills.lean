import Dataflow.Library.Rows
import Dataflow.Library.Transition
import Dataflow.Model.Types
import Mathlib.Data.List.MinMax
import Mathlib.Data.Prod.Lex

/-!
# Backfills

A backfill job covers a range of time in partitions. The dispatcher claims a pending partition,
starts a workflow for it and records the execution; the workflow reports its end through
`MarkExecution`; a job may be cancelled, and its failed partitions retried.

* `Job`, `Partition`, `Execution`, `Tables`: the rows.
* `claimNext`, `startPartition`, `failPartition`, `markExecution`, `backfillCancel`,
  `backfillRetry`, `backfillCreate`: the statements of the code. Each is one statement, or one
  transaction that holds the rows it has changed until it commits, and is one step here. The
  subqueries of a statement see the tables as they were before it.
* `State`, `Event`, `step`: the tables with the claims that dispatchers hold. The steps of a
  dispatcher are separate events: anything may happen between its claim, the start and its failure.
* `Tables.WellFormed`: the keys of the tables. It holds in every state reached
  (`wellFormed_of_run`).

Source: `016_backfills.sql`, `backfills.go`, `routes_pipelines.go`, `temporal.go`, `activities.go`
-/

namespace Dataflow.Api.Backfill

open Library Library.Transition Model List

/-! ## Rows -/

/-- `backfill_partitions.status`. -/
inductive PartitionStatus where
  | pending
  | starting
  | running
  | completed
  | failed
  | cancelled
  deriving DecidableEq

/-- `IN ('starting','running')`. -/
def PartitionStatus.active : PartitionStatus → Bool
  | starting | running => true
  | _ => false

/-- `IN ('pending','starting','running')`. -/
def PartitionStatus.unfinished : PartitionStatus → Bool
  | pending | starting | running => true
  | _ => false

/-- `backfill_jobs.status`. -/
inductive JobStatus where
  | queued
  | running
  | completed
  | failed
  | cancelled
  deriving DecidableEq

/-- `IN ('queued','running')`. -/
def JobStatus.live : JobStatus → Bool
  | queued | running => true
  | _ => false

/-- The phases with which a workflow ends. -/
inductive Outcome where
  | completed
  | failed
  | cancelled
  deriving DecidableEq

/-- The phase of the execution. -/
def Outcome.phase : Outcome → Phase
  | completed => .completed
  | failed => .failed
  | cancelled => .cancelled

/-- The status of the partition. -/
def Outcome.status : Outcome → PartitionStatus
  | completed => .completed
  | failed => .failed
  | cancelled => .cancelled

/-- A row of `backfill_jobs`. -/
structure Job where
  id : String
  pipelineId : String
  maxConcurrency : ℕ
  createdAt : ℕ
  status : JobStatus := .queued
  deriving DecidableEq

/-- A row of `backfill_partitions`. -/
structure Partition where
  id : String
  jobId : String
  ordinal : ℕ
  status : PartitionStatus := .pending
  executionId : Option String := none
  startedAt : Option ℕ := none
  deriving DecidableEq

/-- A row of `executions` that belongs to a partition. -/
structure Execution where
  id : String
  partitionId : String
  phase : Phase := .running
  deriving DecidableEq

/-- The tables. -/
structure Tables where
  jobs : List Job := []
  partitions : List Partition := []
  executions : List Execution := []

/-- The partition is one of the job's and counts as active. -/
def Partition.activeIn (jobId : String) (p : Partition) : Bool :=
  p.jobId = jobId && p.status.active

/-- `EXISTS(SELECT 1 FROM backfill_partitions p WHERE p.job_id=… AND …)`, for a condition on the
status. -/
def hasStatus (partitions : List Partition) (jobId : String) (is : PartitionStatus → Bool) : Bool :=
  partitions.any fun p => p.jobId = jobId && is p.status

/-- None of the partitions of a job is unfinished. -/
def finished (partitions : List Partition) (jobId : String) : Bool :=
  !hasStatus partitions jobId PartitionStatus.unfinished

/-- The job in another status. -/
def Job.set (status : JobStatus) (job : Job) : Job := { job with status := status }

/-- The partition in another status. -/
def Partition.set (status : PartitionStatus) (p : Partition) : Partition :=
  { p with status := status }

/-- The partition as it waits to be claimed. -/
def Partition.reset (p : Partition) : Partition := { p with status := .pending, startedAt := none }

/-- The partition as it is claimed. -/
def Partition.claimed (now : ℕ) (p : Partition) : Partition :=
  { p with status := .starting, startedAt := some now }

/-- The partition as it is running. -/
def Partition.started (executionId : String) (p : Partition) : Partition :=
  { p with status := .running, executionId := some executionId }

@[simp] theorem Partition.set_jobId (status : PartitionStatus) (p : Partition) :
    (p.set status).jobId = p.jobId := rfl

@[simp] theorem Partition.reset_jobId (p : Partition) : p.reset.jobId = p.jobId := rfl

@[simp] theorem Partition.claimed_jobId (now : ℕ) (p : Partition) :
    (p.claimed now).jobId = p.jobId := rfl

@[simp] theorem Partition.started_jobId (executionId : String) (p : Partition) :
    (p.started executionId).jobId = p.jobId := rfl

@[simp] theorem Partition.set_id (status : PartitionStatus) (p : Partition) :
    (p.set status).id = p.id := rfl

@[simp] theorem Partition.reset_id (p : Partition) : p.reset.id = p.id := rfl

@[simp] theorem Partition.claimed_id (now : ℕ) (p : Partition) : (p.claimed now).id = p.id := rfl

@[simp] theorem Partition.started_id (executionId : String) (p : Partition) :
    (p.started executionId).id = p.id := rfl

/-- How many partitions of a job are active. -/
def activeCount (partitions : List Partition) (jobId : String) : ℕ :=
  partitions.countP (Partition.activeIn jobId)

/-! ## The claim -/

/-- The partition has been starting for more than five minutes. -/
def Partition.stale (now : ℕ) (p : Partition) : Bool :=
  p.status = .starting && p.startedAt.any fun startedAt => startedAt + 300 < now

/-- The first statement of `claim_next_backfill_partition`. -/
def resetStale (now : ℕ) (partitions : List Partition) : List Partition :=
  Rows.update (Partition.stale now) Partition.reset partitions

/-- A pending partition that may be claimed, with its job. -/
def claimable (partitions : List Partition) (locked : List String) (p : Partition) (job : Job) :
    Bool :=
  job.id = p.jobId && p.status = .pending && job.status.live &&
    activeCount partitions job.id < job.maxConcurrency &&
    p.id ∉ locked && job.id ∉ locked

/-- The candidate: the first one by the age of its job and its ordinal. The rows that other
transactions have locked are skipped. -/
def candidate (jobs : List Job) (partitions : List Partition) (locked : List String) :
    Option (Partition × Job) :=
  ((partitions.product jobs).filter fun row => claimable partitions locked row.1 row.2).argmin
    fun row => toLex (row.2.createdAt, row.1.ordinal)

/-- The tables with a partition claimed, and its job started. -/
def Tables.claim (tables : Tables) (now : ℕ) (p : Partition) : Tables where
  jobs := Rows.update (fun job => job.id = p.jobId && job.status = .queued) (Job.set .running)
    tables.jobs
  partitions := Rows.update (fun r => r.id = p.id) (Partition.claimed now) tables.partitions
  executions := tables.executions

/-- The partition that is claimed, if there is one, and the tables after that.
Source: `016_backfills.sql` `claim_next_backfill_partition` -/
def claimNext (tables : Tables) (now : ℕ) (locked : List String) : Option Partition × Tables :=
  let reset := { tables with partitions := resetStale now tables.partitions }
  match candidate reset.jobs reset.partitions locked with
  | none => (none, reset)
  | some (p, _) => (some p, reset.claim now p)

/-! ## The run -/

/-- The transaction that records an execution. It fails when the execution or its partition has a
row already: `id` is the primary key and `backfill_partition_id` has a unique index.
Source: `temporal.go` `fireExecution` -/
def startPartition (tables : Tables) (partitionId executionId : String) : Option Tables :=
  if tables.executions.any fun e => e.id = executionId || e.partitionId = partitionId then none
  else some
    { tables with
      partitions := Rows.update (fun p => p.id = partitionId) (Partition.started executionId)
        tables.partitions
      executions := { id := executionId, partitionId := partitionId } :: tables.executions }

/-- The update of the dispatcher when the execution could not be started.
Source: `backfills.go` `dispatchBackfills` -/
def failPartition (tables : Tables) (partitionId : String) : Tables :=
  { tables with
    partitions := Rows.update (fun p => p.id = partitionId) (Partition.set .failed)
      tables.partitions }

/-- The partition of an execution. -/
def Tables.marks (tables : Tables) (executionId : String) (p : Partition) : Bool :=
  tables.executions.any fun e => e.id = executionId && e.partitionId = p.id

/-- The partitions after the end of an execution. -/
def Tables.markPartitions (tables : Tables) (executionId : String) (outcome : Outcome) :
    List Partition :=
  Rows.update (tables.marks executionId) (Partition.set outcome.status) tables.partitions

/-- The status a job has by those of its partitions. -/
def verdict (partitions : List Partition) (jobId : String) : JobStatus :=
  if hasStatus partitions jobId (· = .failed) then .failed
  else if hasStatus partitions jobId (· = .cancelled) then .cancelled
  else .completed

/-- The job is the one of the marked partition, and the statement finds none of its partitions
unfinished. -/
def Tables.closes (tables : Tables) (executionId : String) (job : Job) : Bool :=
  tables.partitions.any (fun p => p.jobId = job.id && tables.marks executionId p) &&
    finished tables.partitions job.id

/-- The two statements of `MarkExecution`. The status of the job is derived from the partitions as
they were before.
Source: `activities.go` `MarkExecution` -/
def markExecution (tables : Tables) (executionId : String) (outcome : Outcome) : Tables where
  jobs := Rows.update (tables.closes executionId)
    (fun job => job.set (verdict tables.partitions job.id)) tables.jobs
  partitions := tables.markPartitions executionId outcome
  executions := Rows.update (fun e => e.id = executionId)
    (fun e => { e with phase := outcome.phase }) tables.executions

/-! ## The requests -/

/-- The job that a cancel request finds. -/
def Job.cancellable (jobId pipelineId : String) (job : Job) : Bool :=
  job.id = jobId && job.pipelineId = pipelineId && job.status.live

/-- The partitions after a cancel request. -/
def cancelPartitions (jobId : String) (partitions : List Partition) : List Partition :=
  Rows.update (fun p => p.jobId = jobId && (p.status = .pending || p.status = .starting))
    (Partition.set .cancelled) partitions

/-- A cancel request; without a job to cancel it is answered with 404.
Source: `routes_pipelines.go` `backfillCancel` -/
def backfillCancel (tables : Tables) (jobId pipelineId : String) : Option Tables :=
  if tables.jobs.any (Job.cancellable jobId pipelineId) then some
    { tables with
      jobs := Rows.update (Job.cancellable jobId pipelineId) (Job.set .cancelled) tables.jobs
      partitions := cancelPartitions jobId tables.partitions }
  else none

/-- The partition is retried with its job. -/
def Partition.retried (jobId : String) (p : Partition) : Bool :=
  p.jobId = jobId && p.status = .failed

/-- A retry request; without a failed partition it changes nothing.
Source: `routes_pipelines.go` `backfillRetry` -/
def backfillRetry (tables : Tables) (jobId pipelineId : String) : Tables :=
  if tables.partitions.any (Partition.retried jobId) then
    { tables with
      jobs := Rows.update (fun job => job.id = jobId && job.pipelineId = pipelineId)
        (Job.set .running) tables.jobs
      partitions := Rows.update (Partition.retried jobId) Partition.reset tables.partitions }
  else tables

/-- The rows of new partitions. -/
def newPartitions (jobId : String) (ids : List String) : List Partition :=
  ids.zipIdx.map fun (id, ordinal) => { id := id, jobId := jobId, ordinal := ordinal }

/-- The identifiers are new. -/
def Tables.fresh (tables : Tables) (jobId : String) (ids : List String) : Bool :=
  jobId ∉ tables.jobs.map Job.id && ids.Nodup &&
    ids.all fun id => id ∉ tables.partitions.map Partition.id

/-- A new job with at least one partition; the identifiers are minted.
Source: `routes_pipelines.go` `backfillCreate`, `backfills.go` `planBackfill` -/
def backfillCreate (tables : Tables) (now : ℕ) (jobId pipelineId : String) (maxConcurrency : ℕ)
    (ids : List String) : Option Tables :=
  if tables.fresh jobId ids && !ids.isEmpty && 1 ≤ maxConcurrency && maxConcurrency ≤ 5 then some
    { tables with
      jobs := tables.jobs ++ [{ id := jobId, pipelineId := pipelineId
                                maxConcurrency := maxConcurrency, createdAt := now }]
      partitions := tables.partitions ++ newPartitions jobId ids }
  else none

/-! ## The system -/

/-- The tables and the clock, the partitions that dispatchers have claimed and not yet dealt with,
and the jobs that have been cancelled on request, and not been retried since. -/
structure State where
  tables : Tables := {}
  now : ℕ := 0
  claims : List String := []
  cancelRequested : List String := []

/-- What may happen. -/
inductive Event where
  /-- Time passes. -/
  | tick (seconds : ℕ)
  | create (jobId pipelineId : String) (maxConcurrency : ℕ) (partitionIds : List String)
  /-- A dispatcher claims a partition, while others hold some rows. -/
  | claim (locked : List String)
  /-- A dispatcher has started a workflow and records it. When the reply is lost it takes this for a
  failure. -/
  | start (partitionId executionId : String) (replyLost : Bool)
  /-- A dispatcher could not start a workflow, or not record it. -/
  | fail (partitionId : String)
  /-- A dispatcher stops, or its update fails. -/
  | drop (partitionId : String)
  /-- A workflow reports its end, possibly again. -/
  | mark (executionId : String) (outcome : Outcome)
  | cancel (jobId pipelineId : String)
  | retry (jobId pipelineId : String)
  deriving DecidableEq

/-- The partition that is claimed, if one is. -/
def claimedIds : Option Partition → List String
  | none => []
  | some p => [p.id]

/-- One step. -/
def step (s : State) : Event → Option State
  | .tick seconds => some { s with now := s.now + seconds }
  | .create jobId pipelineId maxConcurrency ids =>
    (backfillCreate s.tables s.now jobId pipelineId maxConcurrency ids).map fun tables =>
      { s with tables := tables }
  | .claim locked =>
    some { s with
      tables := (claimNext s.tables s.now locked).2
      claims := claimedIds (claimNext s.tables s.now locked).1 ++ s.claims }
  | .start partitionId executionId replyLost =>
    if partitionId ∈ s.claims then
      (startPartition s.tables partitionId executionId).map fun tables =>
        { s with tables := tables
                 claims := if replyLost then s.claims else s.claims.erase partitionId }
    else none
  | .fail partitionId =>
    if partitionId ∈ s.claims then
      some { s with tables := failPartition s.tables partitionId
                    claims := s.claims.erase partitionId }
    else none
  | .drop partitionId =>
    if partitionId ∈ s.claims then some { s with claims := s.claims.erase partitionId } else none
  | .mark executionId outcome =>
    some { s with tables := markExecution s.tables executionId outcome }
  | .cancel jobId pipelineId =>
    (backfillCancel s.tables jobId pipelineId).map fun tables =>
      { s with tables := tables, cancelRequested := jobId :: s.cancelRequested }
  | .retry jobId pipelineId =>
    some { s with
      tables := backfillRetry s.tables jobId pipelineId
      cancelRequested := s.cancelRequested.filter fun id => id ≠ jobId }

/-- What an event does to the tables. -/
def Effect (s : State) (tables : Tables) : Event → Prop
  | .tick _ | .drop _ => tables = s.tables
  | .create jobId pipelineId maxConcurrency ids =>
    backfillCreate s.tables s.now jobId pipelineId maxConcurrency ids = some tables
  | .claim locked => tables = (claimNext s.tables s.now locked).2
  | .start partitionId executionId _ =>
    startPartition s.tables partitionId executionId = some tables
  | .fail partitionId => tables = failPartition s.tables partitionId
  | .mark executionId outcome => tables = markExecution s.tables executionId outcome
  | .cancel jobId pipelineId => backfillCancel s.tables jobId pipelineId = some tables
  | .retry jobId pipelineId => tables = backfillRetry s.tables jobId pipelineId

/-- The jobs that are cancelled on request after an event. -/
def requestedAfter (requested : List String) : Event → List String
  | .cancel jobId _ => jobId :: requested
  | .retry jobId _ => requested.filter fun id => id ≠ jobId
  | _ => requested

/-- **What a step does**, to the tables and to the jobs that are cancelled on request. -/
theorem effect_of_step {s s' : State} {e : Event} (h : step s e = some s') :
    Effect s s'.tables e ∧ s'.cancelRequested = requestedAfter s.cancelRequested e := by
  cases e with
  | tick | claim | mark | retry =>
    cases h
    exact ⟨rfl, rfl⟩
  | create | cancel =>
    obtain ⟨tables, htables, rfl⟩ := Option.map_eq_some_iff.mp h
    exact ⟨htables, rfl⟩
  | start partitionId executionId replyLost =>
    by_cases hclaim : partitionId ∈ s.claims
    · obtain ⟨tables, htables, rfl⟩ := Option.map_eq_some_iff.mp ((if_pos hclaim).symm.trans h)
      exact ⟨htables, rfl⟩
    · cases (if_neg hclaim).symm.trans h
  | fail partitionId | drop partitionId =>
    by_cases hclaim : partitionId ∈ s.claims
    · cases (if_pos hclaim).symm.trans h
      exact ⟨rfl, rfl⟩
    · cases (if_neg hclaim).symm.trans h

/-! ## The keys -/

/-- The primary keys, and the reference of a partition to its job. -/
structure Tables.WellFormed (tables : Tables) : Prop where
  jobs : (tables.jobs.map Job.id).Nodup
  partitions : (tables.partitions.map Partition.id).Nodup
  reference : ∀ p ∈ tables.partitions, p.jobId ∈ tables.jobs.map Job.id

/-- The key of a partition and its reference. -/
def Partition.keys (p : Partition) : String × String := (p.id, p.jobId)

@[simp] theorem Partition.reset_keys (p : Partition) : p.reset.keys = p.keys := rfl

/-- Tables with the same rows, by their keys. -/
structure Tables.SameKeys (tables tables' : Tables) : Prop where
  jobs : tables'.jobs.map Job.id = tables.jobs.map Job.id
  partitions : tables'.partitions.map Partition.keys = tables.partitions.map Partition.keys

variable {tables tables' : Tables}

theorem Tables.SameKeys.ids (h : tables.SameKeys tables') :
    tables'.partitions.map Partition.id = tables.partitions.map Partition.id := by
  have := congrArg (List.map Prod.fst) h.partitions
  rwa [map_map, map_map] at this

/-- Statements that change no key keep the tables well-formed. -/
theorem Tables.WellFormed.of_sameKeys (h : tables.WellFormed) (hkeys : tables.SameKeys tables') :
    tables'.WellFormed where
  jobs := by
    rw [hkeys.jobs]
    exact h.jobs
  partitions := by
    rw [hkeys.ids]
    exact h.partitions
  reference p hp := by
    have hmem : p.keys ∈ tables.partitions.map Partition.keys :=
      hkeys.partitions ▸ mem_map_of_mem hp
    obtain ⟨old, hold, heq⟩ := mem_map.mp hmem
    rw [hkeys.jobs, ← (Prod.mk.inj heq).2]
    exact h.reference old hold

/-- The two ways a claim may end: nothing is found, or the first candidate is taken. -/
theorem claimNext_cases (tables : Tables) (now : ℕ) (locked : List String) :
    ((claimNext tables now locked).1 = none ∧ (claimNext tables now locked).2 =
        { tables with partitions := resetStale now tables.partitions }) ∨
      ∃ p job, candidate tables.jobs (resetStale now tables.partitions) locked = some (p, job) ∧
        claimNext tables now locked = (some p,
          { tables with partitions := resetStale now tables.partitions }.claim now p) := by
  unfold claimNext
  dsimp only
  cases hcandidate : candidate tables.jobs (resetStale now tables.partitions) locked with
  | none => exact .inl ⟨rfl, rfl⟩
  | some row => exact .inr ⟨row.1, row.2, rfl, rfl⟩

/-- What is claimed may be claimed. -/
theorem mem_of_candidate {jobs : List Job} {partitions : List Partition} {locked : List String}
    {p : Partition} {job : Job} (h : candidate jobs partitions locked = some (p, job)) :
    p ∈ partitions ∧ job ∈ jobs ∧ claimable partitions locked p job = true := by
  obtain ⟨hmem, hclaimable⟩ := mem_filter.mp (argmin_mem h)
  obtain ⟨hp, hjob⟩ := pair_mem_product.mp hmem
  exact ⟨hp, hjob, hclaimable⟩

theorem sameKeys_claimNext (now : ℕ) (locked : List String) :
    tables.SameKeys (claimNext tables now locked).2 := by
  have hreset : (resetStale now tables.partitions).map Partition.keys =
      tables.partitions.map Partition.keys := Rows.map_update fun _ => rfl
  rcases claimNext_cases tables now locked with ⟨-, heq⟩ | ⟨p, job, -, heq⟩
  · rw [heq]
    exact ⟨rfl, hreset⟩
  · rw [heq]
    refine ⟨Rows.map_update fun _ => rfl, Eq.trans ?_ hreset⟩
    exact Rows.map_update fun _ => rfl

theorem sameKeys_startPartition {partitionId executionId : String}
    (h : startPartition tables partitionId executionId = some tables') :
    tables.SameKeys tables' := by
  unfold startPartition at h
  split_ifs at h
  cases h
  exact ⟨rfl, Rows.map_update fun _ => rfl⟩

theorem sameKeys_failPartition (partitionId : String) :
    tables.SameKeys (failPartition tables partitionId) :=
  ⟨rfl, Rows.map_update fun _ => rfl⟩

theorem sameKeys_markExecution (executionId : String) (outcome : Outcome) :
    tables.SameKeys (markExecution tables executionId outcome) :=
  ⟨Rows.map_update fun _ => rfl, Rows.map_update fun _ => rfl⟩

variable {jobId pipelineId : String}

theorem sameKeys_backfillCancel
    (h : backfillCancel tables jobId pipelineId = some tables') : tables.SameKeys tables' := by
  unfold backfillCancel at h
  split_ifs at h
  cases h
  exact ⟨Rows.map_update fun _ => rfl, Rows.map_update fun _ => rfl⟩

theorem sameKeys_backfillRetry (jobId pipelineId : String) :
    tables.SameKeys (backfillRetry tables jobId pipelineId) := by
  unfold backfillRetry
  split_ifs
  · exact ⟨Rows.map_update fun _ => rfl, Rows.map_update fun _ => rfl⟩
  · exact ⟨rfl, rfl⟩

theorem map_id_newPartitions (jobId : String) (ids : List String) :
    (newPartitions jobId ids).map Partition.id = ids := by
  rw [newPartitions, map_map]
  exact zipIdx_map_fst 0 ids

variable {ids : List String}

/-- A new partition is pending and belongs to the new job. -/
theorem mem_newPartitions {jobId : String} {p : Partition}
    (h : p ∈ newPartitions jobId ids) : p.jobId = jobId ∧ p.status = .pending ∧ p.id ∈ ids := by
  have hid : p.id ∈ (newPartitions jobId ids).map Partition.id := mem_map_of_mem h
  rw [map_id_newPartitions] at hid
  obtain ⟨⟨id, ordinal⟩, -, rfl⟩ := mem_map.mp h
  exact ⟨rfl, rfl, hid⟩

theorem newPartitions_ne_nil (jobId : String) (h : ids ≠ []) : newPartitions jobId ids ≠ [] := by
  intro hnil
  have hids := map_id_newPartitions jobId ids
  rw [hnil] at hids
  exact h hids.symm

/-- What a new job needs, and what it is. -/
theorem backfillCreate_cases {now maxConcurrency : ℕ}
    (h : backfillCreate tables now jobId pipelineId maxConcurrency ids = some tables') :
    jobId ∉ tables.jobs.map Job.id ∧ ids.Nodup ∧
      (∀ id ∈ ids, id ∉ tables.partitions.map Partition.id) ∧ ids ≠ [] ∧
      tables' = { tables with
        jobs := tables.jobs ++ [{ id := jobId, pipelineId := pipelineId
                                  maxConcurrency := maxConcurrency, createdAt := now }]
        partitions := tables.partitions ++ newPartitions jobId ids } := by
  unfold backfillCreate at h
  split_ifs at h with hok
  cases h
  simp only [Tables.fresh, Bool.and_eq_true, decide_eq_true_eq, all_eq_true,
    Bool.not_eq_true', isEmpty_eq_false_iff] at hok
  obtain ⟨⟨⟨⟨⟨hjob, hnodup⟩, hids⟩, hne⟩, -⟩, -⟩ := hok
  exact ⟨hjob, hnodup, hids, hne, rfl⟩

theorem wellFormed_backfillCreate {now maxConcurrency : ℕ} (hwf : tables.WellFormed)
    (h : backfillCreate tables now jobId pipelineId maxConcurrency ids = some tables') :
    tables'.WellFormed := by
  obtain ⟨hjob, hnodup, hids, -, rfl⟩ := backfillCreate_cases h
  refine ⟨?_, ?_, ?_⟩
  · rw [map_append]
    refine List.Nodup.append hwf.jobs (nodup_singleton _) ?_
    intro id hid hnew
    rw [mem_singleton.mp hnew] at hid
    exact hjob hid
  · rw [map_append, map_id_newPartitions]
    exact List.Nodup.append hwf.partitions hnodup fun id hid hnew => hids id hnew hid
  · intro p hp
    rw [map_append]
    rcases mem_append.mp hp with hold | hnew
    · exact mem_append_left _ (hwf.reference p hold)
    · rw [(mem_newPartitions hnew).1]
      exact mem_append_right _ (mem_singleton_self _)

variable {s s' : State} {e : Event}

/-- **A step keeps the keys of the tables**, or creates a job. -/
theorem sameKeys_or_create (h : step s e = some s') :
    s.tables.SameKeys s'.tables ∨ ∃ jobId pipelineId maxConcurrency ids,
      backfillCreate s.tables s.now jobId pipelineId maxConcurrency ids = some s'.tables := by
  have heffect := (effect_of_step h).1
  cases e with
  | tick | drop =>
    rw [show s'.tables = s.tables from heffect]
    exact .inl ⟨rfl, rfl⟩
  | create => exact .inr ⟨_, _, _, _, heffect⟩
  | claim locked => exact .inl (heffect ▸ sameKeys_claimNext _ _)
  | start => exact .inl (sameKeys_startPartition heffect)
  | fail => exact .inl (heffect ▸ sameKeys_failPartition _)
  | mark => exact .inl (heffect ▸ sameKeys_markExecution _ _)
  | cancel => exact .inl (sameKeys_backfillCancel heffect)
  | retry => exact .inl (heffect ▸ sameKeys_backfillRetry _ _)

/-- **A step keeps the tables well-formed.** -/
theorem wellFormed_step (hwf : s.tables.WellFormed) (h : step s e = some s') :
    s'.tables.WellFormed := by
  rcases sameKeys_or_create h with hkeys | ⟨jobId, pipelineId, maxConcurrency, ids, hcreate⟩
  · exact hwf.of_sameKeys hkeys
  · exact wellFormed_backfillCreate hwf hcreate

/-- Without rows the tables are well-formed. -/
theorem wellFormed_empty : ({} : Tables).WellFormed :=
  ⟨nodup_nil, nodup_nil, fun _ h => absurd h not_mem_nil⟩

/-- **The tables are well-formed in every state reached.** -/
theorem wellFormed_of_run {allowed : List Event → State → Event → Prop} {es : List Event}
    (run : Run step allowed {} es s) : s.tables.WellFormed :=
  run.invariant (I := fun _ s => s.tables.WellFormed) wellFormed_empty
    (fun _ _ _ _ h _ hstep => wellFormed_step h hstep)

end Dataflow.Api.Backfill
