import Dataflow.Api.Backfills

/-!
# The concurrency cap of a backfill

A claim takes a partition only while its job has fewer active partitions than `max_concurrency`. The
start of a run is recorded later, by an update that does not look at the status it finds: a claim
that has become stale may have been taken over in between, and the start then adds an active
partition.

* `Tables.Capped`: no job has more active partitions than its cap.
* `StartsWithin`: when a start is recorded its partition is still active, or its job has room.
* **`capped_of_run`**: with that condition on the starts the cap holds in every state reached, and
  each step keeps it exactly when the step meets the condition.
* `cap_exceeded`: a claim that is taken over and recorded late.
-/

namespace Dataflow.Api.Backfill

open Library Library.Transition List

/-- No job has more partitions in `starting` or `running` than its cap. -/
def Tables.Capped (tables : Tables) : Prop :=
  ∀ job ∈ tables.jobs, activeCount tables.partitions job.id ≤ job.maxConcurrency

instance (tables : Tables) : Decidable tables.Capped :=
  inferInstanceAs (Decidable (∀ job ∈ tables.jobs, _))

/-- The partition whose start is recorded is active already, or its job has room for it. -/
def StartsWithin (s : State) : Event → Prop
  | .start partitionId _ _ => ∀ p ∈ s.tables.partitions, p.id = partitionId →
      p.status.active ∨ ∀ job ∈ s.tables.jobs, job.id = p.jobId →
        activeCount s.tables.partitions job.id < job.maxConcurrency
  | _ => True

instance (s : State) (e : Event) : Decidable (StartsWithin s e) :=
  match e with
  | .start _ _ _ => inferInstanceAs (Decidable (∀ p ∈ s.tables.partitions, _ → (_ ∨ _)))
  | .tick _ | .create _ _ _ _ | .claim _ | .fail _ | .drop _ | .mark _ _ | .cancel _ _
  | .retry _ _ => inferInstanceAs (Decidable True)

section counts

variable {tables tables' : Tables} {jobId : String} {p : Partition}

/-- A job has as many active partitions as before when no partition becomes active. -/
theorem activeCount_update_le {meets : Partition → Bool} {f : Partition → Partition}
    {partitions : List Partition} (hjob : ∀ p, (f p).jobId = p.jobId)
    (hactive : ∀ p ∈ partitions, meets p = true → (f p).status.active = true →
      p.status.active = true) (jobId : String) :
    activeCount (Rows.update meets f partitions) jobId ≤ activeCount partitions jobId := by
  apply Rows.countP_update_le
  intro p hp hmeets hcounts
  rw [Partition.activeIn, Bool.and_eq_true] at hcounts ⊢
  rw [hjob] at hcounts
  exact ⟨hcounts.1, hactive p hp hmeets hcounts.2⟩

/-- The count after one partition has changed its status. -/
theorem activeCount_update_one {f : Partition → Partition} {partitions : List Partition}
    (hnodup : (partitions.map Partition.id).Nodup) (hp : p ∈ partitions)
    (hjob : (f p).jobId = p.jobId) (hactive : (f p).status.active = true) (jobId : String) :
    activeCount (Rows.update (fun r => r.id = p.id) f partitions) jobId =
      activeCount partitions jobId + if p.jobId = jobId ∧ p.status.active = false then 1 else 0 := by
  have hcount : activeCount (Rows.update (fun r => r.id = p.id) f partitions) jobId +
      (if p.activeIn jobId then 1 else 0) =
      activeCount partitions jobId + (if (f p).activeIn jobId then 1 else 0) :=
    Rows.countP_update_key hnodup hp
  rw [Partition.activeIn, Partition.activeIn, hjob, hactive, Bool.and_true] at hcount
  by_cases hj : p.jobId = jobId
  · cases hstatus : p.status.active with
    | true =>
      rw [hj, hstatus, decide_eq_true rfl] at hcount
      rw [if_neg (fun h => Bool.noConfusion h.2)]
      exact Nat.add_right_cancel hcount
    | false =>
      rw [hj, hstatus, decide_eq_true rfl] at hcount
      rw [if_pos ⟨hj, rfl⟩]
      exact hcount
  · rw [decide_eq_false hj, Bool.false_and] at hcount
    rw [if_neg (fun h => hj h.1)]
    exact hcount

end counts

/-! ## Each step -/

section steps

variable {tables tables' : Tables}

/-- Fewer active partitions keep the cap. -/
theorem Tables.Capped.of_le (h : tables.Capped)
    (hjobs : ∀ job' ∈ tables'.jobs, ∃ job ∈ tables.jobs, job.id = job'.id ∧
      job.maxConcurrency = job'.maxConcurrency)
    (hcount : ∀ jobId, activeCount tables'.partitions jobId ≤ activeCount tables.partitions jobId) :
    tables'.Capped := by
  intro job' hjob'
  obtain ⟨job, hjob, hid, hmax⟩ := hjobs job' hjob'
  rw [← hid, ← hmax]
  exact (hcount job.id).trans (h job hjob)

/-- A statement that sets only the status of jobs. -/
theorem exists_job_of_update {meets : Job → Bool} {status : Job → JobStatus} {jobs : List Job}
    {job' : Job} (h : job' ∈ Rows.update meets (fun job => job.set (status job)) jobs) :
    ∃ job ∈ jobs, job.id = job'.id ∧ job.maxConcurrency = job'.maxConcurrency := by
  obtain ⟨job, hjob, rfl⟩ := Rows.mem_update.mp h
  refine ⟨job, hjob, ?_⟩
  split_ifs
  · exact ⟨rfl, rfl⟩
  · exact ⟨rfl, rfl⟩

/-- The stale reset. -/
theorem activeCount_resetStale_le (now : ℕ) (partitions : List Partition) (jobId : String) :
    activeCount (resetStale now partitions) jobId ≤ activeCount partitions jobId := by
  apply activeCount_update_le
  · exact fun _ => rfl
  · exact fun _ _ _ h => Bool.noConfusion h

/-- **A claim keeps the cap.** -/
theorem Tables.Capped.claimNext (h : tables.Capped) (hwf : tables.WellFormed) (now : ℕ)
    (locked : List String) : (claimNext tables now locked).2.Capped := by
  have hreset : Tables.Capped { tables with partitions := resetStale now tables.partitions } :=
    h.of_le (fun job hjob => ⟨job, hjob, rfl, rfl⟩) (activeCount_resetStale_le now _)
  have hkeys : tables.SameKeys { tables with partitions := resetStale now tables.partitions } :=
    ⟨rfl, Rows.map_update fun _ => rfl⟩
  have hwf' := hwf.of_sameKeys hkeys
  rcases claimNext_cases tables now locked with ⟨-, heq⟩ | ⟨p, job, hcandidate, heq⟩
  · rw [heq]
    exact hreset
  · rw [heq]
    obtain ⟨hp, hjob, hclaimable⟩ := mem_of_candidate hcandidate
    simp only [claimable, Bool.and_eq_true, decide_eq_true_eq] at hclaimable
    obtain ⟨⟨⟨⟨⟨hid, -⟩, -⟩, hroom⟩, -⟩, -⟩ := hclaimable
    intro job' hjob'
    obtain ⟨old, hold, hid', hmax⟩ := exists_job_of_update hjob'
    rw [← hid', ← hmax]
    show activeCount (Rows.update _ _ (resetStale now tables.partitions)) old.id ≤ _
    rw [activeCount_update_one hwf'.partitions hp rfl rfl]
    split_ifs with hclaimed
    · -- the job that is claimed for is the one that has been found to have room
      have hsame : old = job := by
        apply inj_on_of_nodup_map hwf.jobs hold hjob
        rw [hid, hclaimed.1]
      rw [hsame]
      exact hroom
    · exact hreset old hold

/-- **A start keeps the cap iff it starts within it.** -/
theorem capped_startPartition_iff (h : tables.Capped) (hwf : tables.WellFormed)
    {partitionId executionId : String}
    (hstart : startPartition tables partitionId executionId = some tables') :
    tables'.Capped ↔ ∀ p ∈ tables.partitions, p.id = partitionId →
      p.status.active ∨ ∀ job ∈ tables.jobs, job.id = p.jobId →
        activeCount tables.partitions job.id < job.maxConcurrency := by
  unfold startPartition at hstart
  split_ifs at hstart
  cases hstart
  have hcount {p : Partition} (hp : p ∈ tables.partitions) (hid : p.id = partitionId)
      (jobId : String) : activeCount (Rows.update (fun r => r.id = partitionId)
        (Partition.started executionId) tables.partitions) jobId =
      activeCount tables.partitions jobId +
        if p.jobId = jobId ∧ p.status.active = false then 1 else 0 := by
    subst hid
    exact activeCount_update_one hwf.partitions hp rfl rfl jobId
  constructor
  · intro hcapped p hp hid
    cases hstatus : p.status.active with
    | true => exact .inl rfl
    | false =>
      refine .inr fun job hjob hjobId => ?_
      have := hcapped job hjob
      dsimp only at this
      rw [hcount hp hid, if_pos ⟨hjobId.symm, hstatus⟩] at this
      exact this
  · intro hwithin job hjob
    by_cases hfound : ∃ p ∈ tables.partitions, p.id = partitionId
    · obtain ⟨p, hp, hid⟩ := hfound
      rw [hcount hp hid]
      split_ifs with hadds
      · rcases hwithin p hp hid with hactive | hroom
        · simp [hadds.2] at hactive
        · exact hroom job hjob hadds.1.symm
      · exact h job hjob
    · rw [Rows.update_of_none]
      · exact h job hjob
      · exact fun p hp => decide_eq_false fun hid => hfound ⟨p, hp, hid⟩

/-- A new job has no active partitions, and adds none to the others. -/
theorem Tables.Capped.backfillCreate (h : tables.Capped) (hwf : tables.WellFormed)
    {now maxConcurrency : ℕ} {jobId pipelineId : String} {ids : List String}
    (hcreate : backfillCreate tables now jobId pipelineId maxConcurrency ids = some tables') :
    tables'.Capped := by
  obtain ⟨hjob, -, -, -, rfl⟩ := backfillCreate_cases hcreate
  have hnew (jobId' : String) : activeCount (newPartitions jobId ids) jobId' = 0 := by
    apply countP_eq_zero.mpr
    intro p hp hactive
    rw [Partition.activeIn, (mem_newPartitions hp).2.1] at hactive
    exact Bool.noConfusion ((Bool.and_false _).symm.trans hactive)
  intro job hmem
  rw [activeCount, countP_append]
  show activeCount tables.partitions job.id + activeCount (newPartitions jobId ids) job.id ≤ _
  rw [hnew, Nat.add_zero]
  rcases mem_append.mp hmem with hold | hadded
  · exact h job hold
  · obtain rfl := mem_singleton.mp hadded
    refine le_trans (le_of_eq ?_) (Nat.zero_le _)
    apply countP_eq_zero.mpr
    intro p hp hactive
    rw [Partition.activeIn, Bool.and_eq_true, decide_eq_true_eq] at hactive
    have hreference := hwf.reference p hp
    rw [hactive.1] at hreference
    exact hjob hreference

variable {s s' : State} {e : Event}

/-- **A step keeps the cap iff it starts within it.** -/
theorem capped_step_iff (h : s.tables.Capped) (hwf : s.tables.WellFormed)
    (hstep : step s e = some s') : s'.tables.Capped ↔ StartsWithin s e := by
  have heffect := (effect_of_step hstep).1
  cases e with
  | start partitionId executionId replyLost => exact capped_startPartition_iff h hwf heffect
  | tick | drop =>
    rw [show s'.tables = s.tables from heffect]
    exact iff_of_true h trivial
  | create => exact iff_of_true (h.backfillCreate hwf heffect) trivial
  | claim locked =>
    rw [show s'.tables = _ from heffect]
    exact iff_of_true (h.claimNext hwf s.now locked) trivial
  | fail partitionId =>
    rw [show s'.tables = _ from heffect]
    refine iff_of_true (h.of_le (fun job hjob => ⟨job, hjob, rfl, rfl⟩) ?_) trivial
    exact activeCount_update_le (fun _ => rfl) (fun _ _ _ h => Bool.noConfusion h)
  | mark executionId outcome =>
    rw [show s'.tables = _ from heffect]
    refine iff_of_true (h.of_le (fun _ => exists_job_of_update) ?_) trivial
    refine activeCount_update_le (fun _ => rfl) fun _ _ _ h => ?_
    cases outcome <;> exact Bool.noConfusion h
  | cancel jobId pipelineId =>
    refine iff_of_true ?_ trivial
    replace heffect : backfillCancel s.tables jobId pipelineId = some s'.tables := heffect
    unfold backfillCancel at heffect
    split_ifs at heffect
    rw [← Option.some.inj heffect]
    refine h.of_le (fun _ => exists_job_of_update) ?_
    exact activeCount_update_le (fun _ => rfl) (fun _ _ _ h => Bool.noConfusion h)
  | retry jobId pipelineId =>
    refine iff_of_true ?_ trivial
    rw [show s'.tables = _ from heffect]
    unfold backfillRetry
    split_ifs
    · refine h.of_le (fun _ => exists_job_of_update) ?_
      exact activeCount_update_le (fun _ => rfl) (fun _ _ _ h => Bool.noConfusion h)
    · exact h

end steps

/-! ## Runs -/

/-- Without jobs the cap holds. -/
theorem capped_empty : ({} : Tables).Capped := fun _ h => absurd h not_mem_nil

/-- **The cap of a backfill.** In every run in which each start finds its partition active, or its
job with room, the cap holds in every state reached; from there a step keeps it iff it meets this
condition again. -/
theorem capped_of_run {es : List Event} {s : State}
    (run : Run step (fun _ => StartsWithin) {} es s) :
    s.tables.Capped ∧ ∀ e s', step s e = some s' → (s'.tables.Capped ↔ StartsWithin s e) := by
  have hinvariant : s.tables.WellFormed ∧ s.tables.Capped := by
    refine run.invariant (I := fun _ s => s.tables.WellFormed ∧ s.tables.Capped)
      ⟨wellFormed_empty, capped_empty⟩ ?_
    intro _ s e s' h hok hstep
    exact ⟨wellFormed_step h.1 hstep, (capped_step_iff h.2 h.1 hstep).mpr hok⟩
  exact ⟨hinvariant.2, fun e s' => capped_step_iff hinvariant.2 hinvariant.1⟩

/-- Two partitions of a job that may have one at a time, one after the other. -/
def oneAfterTheOther : List Event :=
  [.create "job" "pipeline" 1 ["a", "b"], .claim [], .start "a" "exec-1" false,
    .mark "exec-1" .completed, .claim [], .start "b" "exec-2" false]

/-- A run in which each start finds its partition starting. -/
theorem capped_of_run_oneAfterTheOther :
    ∃ s, Run step (fun _ => StartsWithin) {} oneAfterTheOther s ∧ s.tables.Capped := by
  obtain ⟨s, hrun, -⟩ : ∃ s, Run step (fun _ => StartsWithin) {} oneAfterTheOther s ∧
      activeCount s.tables.partitions "job" = 1 := exists_run_of_guarded (by decide +kernel)
  exact ⟨s, hrun, (capped_of_run hrun).1⟩

/-! ## A claim that is taken over -/

/-- Two partitions that may not be active at the same time. The first one is claimed, and taken over
by a second dispatcher after five minutes, whose start fails; while the other partition is claimed,
the first dispatcher records its start. -/
def takenOver : List Event :=
  [.create "job" "pipeline" 1 ["a", "b"], .claim [], .tick 301, .claim [], .fail "a", .claim [],
    .start "a" "exec-1" false]

/-- Two partitions of a job are active, and its cap is one. -/
theorem cap_exceeded : ∃ s, Run step Any {} takenOver s ∧ ¬ s.tables.Capped :=
  exists_run_of_check (fun _ _ _ _ => trivial) (by decide +kernel)

end Dataflow.Api.Backfill
