import Dataflow.Api.Backfills

/-!
# The retry of a backfill

A retry makes the failed partitions of a job pending again. The row in `executions` of the earlier
run of such a partition stays, and `backfill_partition_id` has a unique index there: the transaction
that records the new run fails, and the partition with it.

* `Recorded`: a partition has a row in `executions`. It never loses it.
* `CanRestart`: after a retry of its job the partition may reach `running`.
* **`not_canRestart`**: a failed partition with an earlier run never can.
* `retry_refused`: the next dispatch after a retry.
-/

namespace Dataflow.Api.Backfill

open Library Library.Transition Option

/-- A run of the partition has a row in `executions`. -/
def Recorded (s : State) (partitionId : String) : Prop :=
  ∃ e ∈ s.tables.executions, e.partitionId = partitionId

/-- No partition of this identifier is running. -/
def Idle (s : State) (partitionId : String) : Prop :=
  ∀ p ∈ s.tables.partitions, p.id = partitionId → p.status ≠ .running

/-- **The retry works**: after a retry of its job the partition reaches `running` in some run. -/
def CanRestart (s : State) (p : Partition) : Prop :=
  ∃ pipelineId s' es s'', step s (.retry p.jobId pipelineId) = some s' ∧ Run step Any s' es s'' ∧
    ∃ q ∈ s''.tables.partitions, q.id = p.id ∧ q.status = .running

variable {s s' : State} {e : Event} {partitionId : String}

/-- The unique index refuses a second run of a partition. -/
theorem startPartition_of_recorded (h : Recorded s partitionId) (executionId : String) :
    startPartition s.tables partitionId executionId = none := by
  obtain ⟨e, he, hid⟩ := h
  apply if_pos
  refine List.any_eq_true.mpr ⟨e, he, ?_⟩
  rw [hid, decide_eq_true (p := partitionId = partitionId) rfl, Bool.or_true]

/-- A row in `executions` is never lost. -/
theorem Recorded.step (h : Recorded s partitionId) (hstep : step s e = some s') :
    Recorded s' partitionId := by
  have heffect := (effect_of_step hstep).1
  obtain ⟨row, hrow, hid⟩ := h
  cases e with
  | tick | drop =>
    rw [Recorded, show s'.tables = s.tables from heffect]
    exact ⟨row, hrow, hid⟩
  | create =>
    obtain ⟨-, -, -, -, heq⟩ := backfillCreate_cases heffect
    rw [Recorded, heq]
    exact ⟨row, hrow, hid⟩
  | claim locked =>
    rw [Recorded, show s'.tables = _ from heffect]
    rcases claimNext_cases s.tables s.now locked with ⟨-, heq⟩ | ⟨p, job, -, heq⟩
    · rw [heq]
      exact ⟨row, hrow, hid⟩
    · rw [heq]
      exact ⟨row, hrow, hid⟩
  | start partitionId' executionId replyLost =>
    replace heffect : startPartition s.tables partitionId' executionId = some s'.tables := heffect
    unfold startPartition at heffect
    split_ifs at heffect
    rw [Recorded, ← some.inj heffect]
    exact ⟨row, List.mem_cons_of_mem _ hrow, hid⟩
  | fail =>
    rw [Recorded, show s'.tables = _ from heffect]
    exact ⟨row, hrow, hid⟩
  | mark executionId outcome =>
    rw [Recorded, show s'.tables = _ from heffect]
    refine ⟨_, Rows.mem_update.mpr ⟨row, hrow, rfl⟩, ?_⟩
    split_ifs
    · exact hid
    · exact hid
  | cancel jobId pipelineId =>
    replace heffect : backfillCancel s.tables jobId pipelineId = some s'.tables := heffect
    unfold backfillCancel at heffect
    split_ifs at heffect
    rw [Recorded, ← some.inj heffect]
    exact ⟨row, hrow, hid⟩
  | retry jobId pipelineId =>
    rw [Recorded, show s'.tables = _ from heffect]
    unfold backfillRetry
    split_ifs
    · exact ⟨row, hrow, hid⟩
    · exact ⟨row, hrow, hid⟩

/-- A statement that makes no partition running. -/
theorem idle_update {meets : Partition → Bool} {f : Partition → Partition}
    {partitions : List Partition}
    (h : ∀ p ∈ partitions, p.id = partitionId → p.status ≠ .running)
    (hid : ∀ p, (f p).id = p.id)
    (hf : ∀ p, meets p = true → p.id = partitionId → (f p).status ≠ .running) :
    ∀ p ∈ Rows.update meets f partitions, p.id = partitionId → p.status ≠ .running := by
  intro p hp hpid
  obtain ⟨old, hold, rfl⟩ := Rows.mem_update.mp hp
  split_ifs at hpid ⊢ with hmeets
  · exact hf old hmeets ((hid old).symm.trans hpid)
  · exact h old hold hpid

/-- **A partition with an earlier run that is not running stays so.** -/
theorem Idle.step (h : Idle s partitionId) (hrecorded : Recorded s partitionId)
    (hstep : step s e = some s') : Idle s' partitionId := by
  have heffect := (effect_of_step hstep).1
  cases e with
  | tick | drop =>
    rw [Idle, show s'.tables = s.tables from heffect]
    exact h
  | create =>
    obtain ⟨-, -, -, -, heq⟩ := backfillCreate_cases heffect
    rw [Idle, heq]
    intro p hp hid hrunning
    rcases List.mem_append.mp hp with hold | hnew
    · exact h p hold hid hrunning
    · simp [(mem_newPartitions hnew).2.1] at hrunning
  | claim locked =>
    rw [Idle, show s'.tables = _ from heffect]
    have hreset : ∀ p ∈ resetStale s.now s.tables.partitions, p.id = partitionId →
        p.status ≠ .running :=
      idle_update h Partition.reset_id fun _ _ _ hrunning => PartitionStatus.noConfusion hrunning
    rcases claimNext_cases s.tables s.now locked with ⟨-, heq⟩ | ⟨p, job, -, heq⟩
    · rw [heq]
      exact hreset
    · rw [heq]
      exact idle_update hreset (Partition.claimed_id s.now)
        fun _ _ _ hrunning => PartitionStatus.noConfusion hrunning
  | start partitionId' executionId replyLost =>
    by_cases hsame : partitionId' = partitionId
    · subst hsame
      cases (startPartition_of_recorded hrecorded executionId).symm.trans heffect
    · replace heffect : startPartition s.tables partitionId' executionId = some s'.tables := heffect
      unfold startPartition at heffect
      split_ifs at heffect
      rw [Idle, ← some.inj heffect]
      refine idle_update h (Partition.started_id executionId) fun p hmeets hid => ?_
      exact absurd ((of_decide_eq_true hmeets).symm.trans hid) hsame
  | fail =>
    rw [Idle, show s'.tables = _ from heffect]
    exact idle_update h (Partition.set_id .failed)
      fun _ _ _ hrunning => PartitionStatus.noConfusion hrunning
  | mark executionId outcome =>
    rw [Idle, show s'.tables = _ from heffect]
    refine idle_update h (Partition.set_id outcome.status) fun _ _ _ hrunning => ?_
    cases outcome <;> exact PartitionStatus.noConfusion hrunning
  | cancel jobId pipelineId =>
    replace heffect : backfillCancel s.tables jobId pipelineId = some s'.tables := heffect
    unfold backfillCancel at heffect
    split_ifs at heffect
    rw [Idle, ← some.inj heffect]
    exact idle_update h (Partition.set_id .cancelled)
      fun _ _ _ hrunning => PartitionStatus.noConfusion hrunning
  | retry jobId pipelineId =>
    rw [Idle, show s'.tables = _ from heffect]
    unfold backfillRetry
    split_ifs
    · exact idle_update h Partition.reset_id
        fun _ _ _ hrunning => PartitionStatus.noConfusion hrunning
    · exact h

/-- **A partition with an earlier run that is not running never runs again.** -/
theorem idle_of_run {s₀ : State} {es : List Event} (hrecorded : Recorded s₀ partitionId)
    (hidle : Idle s₀ partitionId) (run : Run step Any s₀ es s) :
    Recorded s partitionId ∧ Idle s partitionId :=
  run.invariant (I := fun _ s => Recorded s partitionId ∧ Idle s partitionId) ⟨hrecorded, hidle⟩
    (fun _ _ _ _ h _ hstep => ⟨h.1.step hstep, h.2.step h.1 hstep⟩)

/-- **A failed partition cannot be restarted**: in no reachable state does a retry bring a failed
partition with an earlier run back to `running`. -/
theorem not_canRestart {es : List Event} {p : Partition} (run : Run step Any {} es s)
    (hp : p ∈ s.tables.partitions) (hfailed : p.status = .failed) (hrecorded : Recorded s p.id) :
    ¬ CanRestart s p := by
  have hidle : Idle s p.id := by
    intro q hq hid
    obtain rfl : q = p :=
      List.inj_on_of_nodup_map (wellFormed_of_run run).partitions hq hp hid
    rw [hfailed]
    exact PartitionStatus.noConfusion
  rintro ⟨pipelineId, s', es', s'', hretry, hrun, q, hq, hid, hrunning⟩
  exact (idle_of_run (hrecorded.step hretry) (hidle.step hrecorded hretry) hrun).2 q hq hid hrunning

/-- A partition whose run has failed. -/
def failedRun : List Event :=
  [.create "job" "pipeline" 1 ["a"], .claim [], .start "a" "exec-1" false, .mark "exec-1" .failed]

/-- The partition as it has failed. -/
def failedPartition : Partition :=
  { id := "a", jobId := "job", ordinal := 0, status := .failed, executionId := some "exec-1"
    startedAt := some 0 }

/-- The partition of a failed run cannot be restarted. -/
theorem not_canRestart_failedRun :
    ∃ s, Run step Any {} failedRun s ∧ failedPartition ∈ s.tables.partitions ∧
      ¬ CanRestart s failedPartition := by
  obtain ⟨s, hrun, hp, hrecorded⟩ : ∃ s, Run step Any {} failedRun s ∧
      failedPartition ∈ s.tables.partitions ∧
      (s.tables.executions.any fun e => e.partitionId = failedPartition.id) = true :=
    exists_run_of_check (fun _ _ _ _ => trivial) (by decide +kernel)
  obtain ⟨e, he, hid⟩ := List.any_eq_true.mp hrecorded
  exact ⟨s, hrun, hp, not_canRestart hrun hp rfl ⟨e, he, of_decide_eq_true hid⟩⟩

/-! ## The next dispatch -/

/-- The failed partition is retried and claimed. -/
def retriedRun : List Event := failedRun ++ [.retry "job" "pipeline", .claim []]

/-- The partition is starting, and no start of it can be recorded. -/
theorem retry_refused : ∃ s, Run step Any {} retriedRun s ∧ "a" ∈ s.claims ∧
      (∃ p ∈ s.tables.partitions, p.id = "a" ∧ p.status = .starting) ∧
      ∀ executionId replyLost, step s (.start "a" executionId replyLost) = none := by
  obtain ⟨s, hrun, hclaimed, hstarting, hrecorded⟩ : ∃ s, Run step Any {} retriedRun s ∧
      "a" ∈ s.claims ∧ (∃ p ∈ s.tables.partitions, p.id = "a" ∧ p.status = .starting) ∧
      (s.tables.executions.any fun e => e.partitionId = "a") = true :=
    exists_run_of_check (fun _ _ _ _ => trivial) (by decide +kernel)
  obtain ⟨e, he, hid⟩ := List.any_eq_true.mp hrecorded
  refine ⟨s, hrun, hclaimed, hstarting, fun executionId replyLost => ?_⟩
  rw [step, if_pos hclaimed, startPartition_of_recorded ⟨e, he, of_decide_eq_true hid⟩]
  rfl

end Dataflow.Api.Backfill
