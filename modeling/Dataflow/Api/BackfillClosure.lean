import Dataflow.Api.Backfills

/-!
# The closure of a backfill

When the last partition of a job is finished the job should be closed, with the status that its
partitions call for. `MarkExecution` means to do this, but its statement derives the status from the
partitions as they were before, where the partition that ends is still running; and the dispatcher
does not look at the job when it fails a partition.

* `Job.Settled`: a job without unfinished partitions has the status they call for.
* `Tables.Closed`: every job is settled.
* `Settles`: the events after which it stays so, as a condition on the tables before.
* **`jobsSettled_of_run`**: in every run of such events the tables are closed in every state
  reached, and each step keeps this exactly when it is such an event.
* `closure_missed`: the only partition of a job is completed, and the job goes on.
-/

namespace Dataflow.Api.Backfill

open Library Library.Transition List

/-- When none of its partitions is unfinished the job has the status they call for. -/
def Job.Settled (partitions : List Partition) (job : Job) : Prop :=
  finished partitions job.id = true → job.status = verdict partitions job.id

instance (partitions : List Partition) (job : Job) : Decidable (job.Settled partitions) :=
  inferInstanceAs (Decidable (_ → _))

/-- Every job is settled. -/
def Tables.Closed (tables : Tables) : Prop := ∀ job ∈ tables.jobs, job.Settled tables.partitions

instance (tables : Tables) : Decidable tables.Closed :=
  inferInstanceAs (Decidable (∀ job ∈ tables.jobs, _))

/-- A partition of the job is unfinished that the statement does not meet. -/
def leavesUnfinished (partitions : List Partition) (meets : Partition → Bool) (jobId : String) :
    Bool :=
  partitions.any fun p => p.jobId = jobId && p.status.unfinished && !meets p

/-- The end of a run, or of a start that has failed, leaves the job another unfinished partition, or
finds the job in the status that its partitions then call for. A cancel leaves a partition running,
or finds none that has failed. -/
def Settles (s : State) : Event → Prop
  | .mark executionId outcome => ∀ job ∈ s.tables.jobs, ∀ p ∈ s.tables.partitions,
      p.jobId = job.id → s.tables.marks executionId p = true →
        leavesUnfinished s.tables.partitions (s.tables.marks executionId) job.id = true ∨
          job.status = verdict (s.tables.markPartitions executionId outcome) job.id
  | .fail partitionId => ∀ job ∈ s.tables.jobs, ∀ p ∈ s.tables.partitions,
      p.jobId = job.id → p.id = partitionId →
        leavesUnfinished s.tables.partitions (fun r => r.id = partitionId) job.id = true ∨
          job.status = .failed
  | .cancel jobId _ => hasStatus s.tables.partitions jobId (· = .running) = true ∨
      hasStatus s.tables.partitions jobId (· = .failed) = false
  | _ => True

variable {job : Job}

section updates

variable {partitions : List Partition} {meets : Partition → Bool} {f : Partition → Partition}
  {jobId : String} {is : PartitionStatus → Bool}

theorem hasStatus_eq_true : hasStatus partitions jobId is = true ↔
      ∃ p ∈ partitions, p.jobId = jobId ∧ is p.status = true := by
  rw [hasStatus, any_eq_true]
  apply exists_congr
  intro p
  rw [Bool.and_eq_true, decide_eq_true_eq]

theorem finished_eq_true : finished partitions jobId = true ↔
    ∀ p ∈ partitions, p.jobId = jobId → p.status.unfinished = false := by
  rw [finished, Bool.not_eq_true', ← Bool.not_eq_true, hasStatus_eq_true]
  constructor
  · intro h p hp hjob
    exact Bool.eq_false_iff.mpr fun hun => h ⟨p, hp, hjob, hun⟩
  · rintro h ⟨p, hp, hjob, hun⟩
    simp [h p hp hjob] at hun

/-- A statement that meets no partition of a job. -/
theorem hasStatus_update_of_unmet (hf : ∀ p, (f p).jobId = p.jobId)
    (h : ∀ p ∈ partitions, p.jobId = jobId → meets p = false) :
    hasStatus (Rows.update meets f partitions) jobId is = hasStatus partitions jobId is := by
  rw [Bool.eq_iff_iff, hasStatus_eq_true, hasStatus_eq_true]
  constructor
  · rintro ⟨p, hp, hjob, his⟩
    obtain ⟨old, hold, rfl⟩ := Rows.mem_update.mp hp
    by_cases hmeets : meets old = true
    · rw [if_pos hmeets, hf] at hjob
      simp [h old hold hjob] at hmeets
    · rw [if_neg hmeets] at hjob his
      exact ⟨old, hold, hjob, his⟩
  · rintro ⟨p, hp, hjob, his⟩
    exact ⟨p, Rows.mem_update_of_not hp (h p hp hjob), hjob, his⟩

/-- The job is settled as before when a statement meets none of its partitions. -/
theorem settled_update_of_unmet (hf : ∀ p, (f p).jobId = p.jobId)
    (h : ∀ p ∈ partitions, p.jobId = job.id → meets p = false) :
    job.Settled (Rows.update meets f partitions) ↔ job.Settled partitions := by
  rw [Job.Settled, Job.Settled, finished, finished, verdict, verdict,
    hasStatus_update_of_unmet hf h, hasStatus_update_of_unmet hf h, hasStatus_update_of_unmet hf h]

/-- A job with a partition that a statement makes unfinished is settled. -/
theorem settled_of_met (hf : ∀ p, (f p).jobId = p.jobId) {p : Partition}
    (hp : p ∈ partitions) (hjob : p.jobId = job.id) (hmeets : meets p = true)
    (hun : (f p).status.unfinished = true) : job.Settled (Rows.update meets f partitions) := by
  intro hfinished
  have := finished_eq_true.mp hfinished (f p) (Rows.mem_update_of_met hp hmeets)
    ((hf p).trans hjob)
  simp [hun] at this

/-- **A statement that only makes partitions unfinished** leaves a settled job settled. -/
theorem Job.Settled.update_unfinished (h : job.Settled partitions)
    (hf : ∀ p, (f p).jobId = p.jobId) (hun : ∀ p, (f p).status.unfinished = true) :
    job.Settled (Rows.update meets f partitions) := by
  by_cases hmet : ∃ p ∈ partitions, p.jobId = job.id ∧ meets p = true
  · obtain ⟨p, hp, hjob, hmeets⟩ := hmet
    exact settled_of_met hf hp hjob hmeets (hun p)
  · refine (settled_update_of_unmet hf fun p hp hjob => ?_).mpr h
    exact Bool.eq_false_iff.mpr fun hmeets => hmet ⟨p, hp, hjob, hmeets⟩

/-- A job is finished after a statement that finishes partitions iff it meets all that are
unfinished. -/
theorem finished_update_set {status : PartitionStatus} (hstatus : status.unfinished = false) :
    finished (Rows.update meets (Partition.set status) partitions) jobId = true ↔
      leavesUnfinished partitions meets jobId = false := by
  rw [finished_eq_true, leavesUnfinished, any_eq_false]
  constructor
  · intro h p hp hleft
    rw [Bool.and_eq_true, Bool.and_eq_true, decide_eq_true_eq, Bool.not_eq_true'] at hleft
    have := h p (Rows.mem_update_of_not hp hleft.2) hleft.1.1
    simp [hleft.1.2] at this
  · intro h p hp hjob
    obtain ⟨old, hold, rfl⟩ := Rows.mem_update.mp hp
    by_cases hmeets : meets old = true
    · rw [if_pos hmeets]
      exact hstatus
    · rw [if_neg hmeets] at hjob ⊢
      rw [Bool.not_eq_true] at hmeets
      have hleft := h old hold
      rw [hjob, hmeets, decide_eq_true rfl, Bool.true_and, Bool.not_false, Bool.and_true] at hleft
      exact Bool.not_eq_true _ ▸ hleft

/-- **A statement that finishes partitions** keeps every job settled iff each job with a partition
that it meets keeps another one, or has the status its partitions then call for. -/
theorem settled_update_set_iff {jobs : List Job} {status : PartitionStatus}
    (hstatus : status.unfinished = false) (h : ∀ job ∈ jobs, job.Settled partitions) :
    (∀ job ∈ jobs, job.Settled (Rows.update meets (Partition.set status) partitions)) ↔
      ∀ job ∈ jobs, ∀ p ∈ partitions, p.jobId = job.id → meets p = true →
        leavesUnfinished partitions meets job.id = true ∨
          job.status = verdict (Rows.update meets (Partition.set status) partitions) job.id := by
  constructor
  · intro hsettled job hjob p _ _ _
    cases hleft : leavesUnfinished partitions meets job.id with
    | true => exact .inl rfl
    | false => exact .inr (hsettled job hjob ((finished_update_set hstatus).mpr hleft))
  · intro hcond job hjob
    by_cases hmet : ∃ p ∈ partitions, p.jobId = job.id ∧ meets p = true
    · obtain ⟨p, hp, hid, hmeets⟩ := hmet
      intro hfinished
      rcases hcond job hjob p hp hid hmeets with hleft | hverdict
      · simp [(finished_update_set hstatus).mp hfinished] at hleft
      · exact hverdict
    · refine (settled_update_of_unmet (Partition.set_jobId status) fun p hp hid => ?_).mpr (h job hjob)
      exact Bool.eq_false_iff.mpr fun hmeets => hmet ⟨p, hp, hid, hmeets⟩

end updates

/-! ## Each step -/

section steps

variable {tables tables' : Tables}

section

variable (h : tables.Closed)

include h

/-- **A claim leaves the jobs settled**: it meets no partition that is finished. -/
theorem Tables.Closed.claimNext (now : ℕ) (locked : List String) :
    (claimNext tables now locked).2.Closed := by
  have hreset (job : Job) (hjob : job ∈ tables.jobs) :
      job.Settled (resetStale now tables.partitions) :=
    (h job hjob).update_unfinished Partition.reset_jobId fun _ => rfl
  rcases claimNext_cases tables now locked with ⟨-, heq⟩ | ⟨p, job, hcandidate, heq⟩
  · rw [heq]
    exact hreset
  · rw [heq]
    intro job' hjob'
    obtain ⟨old, hold, rfl⟩ := Rows.mem_update.mp hjob'
    split_ifs with hstarted
    · rw [Bool.and_eq_true, decide_eq_true_eq] at hstarted
      have hp := (mem_of_candidate hcandidate).1
      exact settled_of_met (Partition.claimed_jobId now) hp hstarted.1.symm (decide_eq_true rfl) rfl
    · exact (hreset old hold).update_unfinished (Partition.claimed_jobId now) fun _ => rfl

/-- **The recorded start of a run** leaves the jobs settled. -/
theorem Tables.Closed.startPartition {partitionId executionId : String}
    (hstart : startPartition tables partitionId executionId = some tables') : tables'.Closed := by
  unfold Backfill.startPartition at hstart
  split_ifs at hstart
  cases hstart
  exact fun job hjob =>
    (h job hjob).update_unfinished (Partition.started_jobId executionId) fun _ => rfl

/-- **A retry leaves the jobs settled**: a job that goes on has a pending partition. -/
theorem Tables.Closed.backfillRetry (jobId pipelineId : String) :
    (backfillRetry tables jobId pipelineId).Closed := by
  unfold Backfill.backfillRetry
  split_ifs with hretried
  · intro job' hjob'
    obtain ⟨old, hold, rfl⟩ := Rows.mem_update.mp hjob'
    split_ifs with hjob
    · obtain ⟨p, hp, hmeets⟩ := any_eq_true.mp hretried
      rw [Bool.and_eq_true, decide_eq_true_eq] at hjob
      have hid : p.jobId = jobId := of_decide_eq_true (Bool.and_eq_true _ _ ▸ hmeets).1
      exact settled_of_met Partition.reset_jobId hp (hid.trans hjob.1.symm) hmeets rfl
    · exact (h old hold).update_unfinished Partition.reset_jobId fun _ => rfl
  · exact h

/-- **A new job** has a pending partition, and leaves the others alone. -/
theorem Tables.Closed.backfillCreate {now maxConcurrency : ℕ}
    {jobId pipelineId : String} {ids : List String}
    (hcreate : backfillCreate tables now jobId pipelineId maxConcurrency ids = some tables') :
    tables'.Closed := by
  obtain ⟨hjob, -, -, hne, rfl⟩ := backfillCreate_cases hcreate
  intro job hmem
  rcases mem_append.mp hmem with hold | hadded
  · have hother (is : PartitionStatus → Bool) :
        hasStatus (tables.partitions ++ newPartitions jobId ids) job.id is =
          hasStatus tables.partitions job.id is := by
      have hnone : hasStatus (newPartitions jobId ids) job.id is = false := by
        apply any_eq_false.mpr
        intro p hp hmet
        rw [Bool.and_eq_true, decide_eq_true_eq, (mem_newPartitions hp).1] at hmet
        exact hjob (hmet.1 ▸ mem_map_of_mem hold)
      rw [hasStatus, any_append]
      show (hasStatus tables.partitions job.id is || hasStatus (newPartitions jobId ids) job.id is) = _
      rw [hnone, Bool.or_false]
    have := h job hold
    rw [Job.Settled, finished, verdict] at this ⊢
    rwa [hother, hother, hother]
  · obtain rfl := mem_singleton.mp hadded
    intro hfinished
    obtain ⟨p, hp⟩ := exists_mem_of_ne_nil _ (newPartitions_ne_nil jobId hne)
    have := finished_eq_true.mp hfinished p (mem_append_right _ hp) (mem_newPartitions hp).1
    rw [(mem_newPartitions hp).2.1] at this
    cases this

/-- The statement of `MarkExecution` leaves the jobs alone: it acts only on a job that is finished
already, and gives it the status that it has. -/
theorem markExecution_jobs (executionId : String) (outcome : Outcome) :
    (markExecution tables executionId outcome).jobs = tables.jobs := by
  apply Rows.update_of_fixed
  intro job hjob hcloses
  rw [Tables.closes, Bool.and_eq_true] at hcloses
  rw [← h job hjob hcloses.2]
  rfl

/-- **The end of a run.** -/
theorem closed_markExecution_iff (executionId : String) (outcome : Outcome) :
    (markExecution tables executionId outcome).Closed ↔
      ∀ job ∈ tables.jobs, ∀ p ∈ tables.partitions,
        p.jobId = job.id → tables.marks executionId p = true →
          leavesUnfinished tables.partitions (tables.marks executionId) job.id = true ∨
            job.status = verdict (tables.markPartitions executionId outcome) job.id := by
  rw [Tables.Closed, markExecution_jobs h]
  exact settled_update_set_iff (by cases outcome <;> rfl) h

end

variable {partitions : List Partition}

/-- A job with a partition that has failed is a failed one. -/
theorem verdict_of_failed {jobId : String}
    (h : hasStatus partitions jobId (· = .failed) = true) : verdict partitions jobId = .failed :=
  if_pos h

/-- **A start that has failed.** -/
theorem closed_failPartition_iff (h : tables.Closed) (partitionId : String) :
    (failPartition tables partitionId).Closed ↔
      ∀ job ∈ tables.jobs, ∀ p ∈ tables.partitions, p.jobId = job.id → p.id = partitionId →
        leavesUnfinished tables.partitions (fun r => r.id = partitionId) job.id = true ∨
          job.status = .failed := by
  refine (settled_update_set_iff rfl h).trans ?_
  apply forall₂_congr
  intro job _
  apply forall₃_congr
  intro p hp hjob
  rw [decide_eq_true_eq]
  apply imp_congr_right
  intro hid
  rw [verdict_of_failed]
  exact hasStatus_eq_true.mpr
    ⟨p.set .failed, Rows.mem_update_of_met hp (decide_eq_true hid), hjob, rfl⟩

/-- What a cancel leaves of a job: it is finished iff none of its partitions is running, and it has
a failed partition iff it had one. -/
theorem hasStatus_cancelPartitions {jobId : String}
    {is : PartitionStatus → Bool} (hpending : is .pending = false)
    (hstarting : is .starting = false) (hcancelled : is .cancelled = false) :
    hasStatus (cancelPartitions jobId partitions) jobId is = hasStatus partitions jobId is := by
  rw [Bool.eq_iff_iff, hasStatus_eq_true, hasStatus_eq_true]
  constructor
  · rintro ⟨p, hp, hjob, his⟩
    obtain ⟨old, hold, rfl⟩ := Rows.mem_update.mp hp
    split_ifs at hjob his
    · simp [show (old.set .cancelled).status = .cancelled from rfl, hcancelled] at his
    · exact ⟨old, hold, hjob, his⟩
  · rintro ⟨p, hp, hjob, his⟩
    refine ⟨p, Rows.mem_update_of_not hp ?_, hjob, his⟩
    rw [hjob, decide_eq_true rfl, Bool.true_and]
    cases hstatus : p.status with
    | pending =>
      simp [hstatus, hpending] at his
    | starting =>
      simp [hstatus, hstarting] at his
    | _ => rfl

/-- After a cancel only running partitions are unfinished. -/
theorem finished_cancelPartitions {jobId : String} :
    finished (cancelPartitions jobId partitions) jobId =
      !hasStatus partitions jobId (· = .running) := by
  have hrunning : hasStatus (cancelPartitions jobId partitions) jobId (· = .running) =
      hasStatus partitions jobId (· = .running) := hasStatus_cancelPartitions rfl rfl rfl
  rw [← hrunning, finished]
  congr 1
  rw [Bool.eq_iff_iff, hasStatus_eq_true, hasStatus_eq_true]
  apply exists_congr
  intro p
  apply and_congr_right
  intro hp
  apply and_congr_right
  intro hjob
  obtain ⟨old, -, rfl⟩ := Rows.mem_update.mp hp
  split_ifs at hjob ⊢ with hmeets
  · exact ⟨fun h => Bool.noConfusion h, fun h => Bool.noConfusion h⟩
  · rw [hjob, decide_eq_true rfl, Bool.true_and] at hmeets
    cases hstatus : old.status with
    | pending | starting =>
      rw [hstatus] at hmeets
      exact absurd rfl hmeets
    | running => exact ⟨fun _ => rfl, fun _ => rfl⟩
    | _ => exact ⟨fun h => Bool.noConfusion h, fun h => Bool.noConfusion h⟩

/-- No job is called queued or running by its partitions. -/
theorem verdict_live (partitions : List Partition) (jobId : String) :
    (verdict partitions jobId).live = false := by
  unfold verdict
  split_ifs <;> rfl

/-- A live job has an unfinished partition. -/
theorem Tables.Closed.exists_unfinished (h : tables.Closed) (hjob : job ∈ tables.jobs)
    (hlive : job.status.live = true) :
    ∃ p ∈ tables.partitions, p.jobId = job.id ∧ p.status.unfinished = true := by
  apply hasStatus_eq_true.mp
  apply Bool.not_eq_false _ |>.mp
  intro hnone
  have hfinished : finished tables.partitions job.id = true := by
    rw [finished, hnone]
    rfl
  simp [h job hjob hfinished, verdict_live] at hlive

/-- When a cancel leaves nothing running and finds nothing failed, the job is a cancelled one. -/
theorem verdict_cancelPartitions (h : tables.Closed) (hjob : job ∈ tables.jobs)
    (hlive : job.status.live = true)
    (hrunning : hasStatus tables.partitions job.id (· = .running) = false)
    (hfailed : hasStatus tables.partitions job.id (· = .failed) = false) :
    verdict (cancelPartitions job.id tables.partitions) job.id = .cancelled := by
  rw [verdict, hasStatus_cancelPartitions rfl rfl rfl, hfailed, if_neg Bool.false_ne_true]
  apply if_pos
  obtain ⟨p, hp, hid, hun⟩ := h.exists_unfinished hjob hlive
  refine hasStatus_eq_true.mpr ⟨p.set .cancelled, Rows.mem_update_of_met hp ?_, hid, rfl⟩
  rw [hid, decide_eq_true rfl, Bool.true_and]
  cases hstatus : p.status with
  | pending | starting => rfl
  | running =>
    rw [hasStatus_eq_true.mpr ⟨p, hp, hid, decide_eq_true hstatus⟩] at hrunning
    cases hrunning
  | _ =>
    rw [hstatus] at hun
    cases hun

/-- **A cancel request.** -/
theorem closed_backfillCancel_iff (h : tables.Closed) (hwf : tables.WellFormed)
    {jobId pipelineId : String} (hcancel : backfillCancel tables jobId pipelineId = some tables') :
    tables'.Closed ↔ hasStatus tables.partitions jobId (· = .running) = true ∨
      hasStatus tables.partitions jobId (· = .failed) = false := by
  unfold backfillCancel at hcancel
  split_ifs at hcancel with hfound
  cases hcancel
  obtain ⟨job, hjob, hcancellable⟩ := any_eq_true.mp hfound
  obtain ⟨⟨hid, -⟩, hlive⟩ : (job.id = jobId ∧ job.pipelineId = pipelineId) ∧
      job.status.live = true := by
    rwa [Job.cancellable, Bool.and_eq_true, Bool.and_eq_true, decide_eq_true_eq,
      decide_eq_true_eq] at hcancellable
  subst hid
  constructor
  · intro hclosed
    cases hrunning : hasStatus tables.partitions job.id (· = .running) with
    | true => exact .inl rfl
    | false =>
      refine .inr (Bool.eq_false_iff.mpr fun hfailed => ?_)
      have hverdict := hclosed _ (Rows.mem_update_of_met hjob hcancellable)
        (finished_cancelPartitions.trans (by rw [hrunning]; rfl))
      have hfailed' : hasStatus (cancelPartitions job.id tables.partitions) job.id (· = .failed) =
          true := (hasStatus_cancelPartitions rfl rfl rfl).trans hfailed
      cases hverdict.trans (verdict_of_failed hfailed')
  · intro hcond job' hjob'
    obtain ⟨old, hold, rfl⟩ := Rows.mem_update.mp hjob'
    by_cases hsame : old.id = job.id
    · obtain rfl : old = job := inj_on_of_nodup_map hwf.jobs hold hjob hsame
      rw [if_pos hcancellable]
      intro hfinished
      have hrunning : hasStatus tables.partitions old.id (· = .running) = false := by
        have := finished_cancelPartitions.symm.trans hfinished
        rwa [Bool.not_eq_true'] at this
      rcases hcond with hrun | hfailed
      · simp [hrunning] at hrun
      · exact (verdict_cancelPartitions h hjob hlive hrunning hfailed).symm
    · rw [if_neg (by rw [Job.cancellable, decide_eq_false hsame]; exact Bool.false_ne_true)]
      refine (settled_update_of_unmet (Partition.set_jobId .cancelled) fun p _ hid => ?_).mpr
        (h old hold)
      rw [hid, decide_eq_false hsame]
      rfl

variable {s s' : State} {e : Event}

/-- **A step keeps the jobs settled iff it is an event that settles them.** -/
theorem closed_step_iff (h : s.tables.Closed) (hwf : s.tables.WellFormed)
    (hstep : step s e = some s') : s'.tables.Closed ↔ Settles s e := by
  have heffect := (effect_of_step hstep).1
  cases e with
  | tick | drop =>
    rw [show s'.tables = s.tables from heffect]
    exact iff_of_true h trivial
  | create => exact iff_of_true (h.backfillCreate heffect) trivial
  | claim locked =>
    rw [show s'.tables = _ from heffect]
    exact iff_of_true (h.claimNext s.now locked) trivial
  | start => exact iff_of_true (h.startPartition heffect) trivial
  | fail partitionId =>
    rw [show s'.tables = _ from heffect]
    exact closed_failPartition_iff h partitionId
  | mark executionId outcome =>
    rw [show s'.tables = _ from heffect]
    exact closed_markExecution_iff h executionId outcome
  | cancel => exact closed_backfillCancel_iff h hwf heffect
  | retry jobId pipelineId =>
    rw [show s'.tables = _ from heffect]
    exact iff_of_true (h.backfillRetry jobId pipelineId) trivial

end steps

/-! ## Runs -/

/-- Without jobs there is nothing to settle. -/
theorem closed_empty : ({} : Tables).Closed := fun _ h => absurd h not_mem_nil

/-- **The closure of a backfill.** In every run of events that settle the jobs, a job without
unfinished partitions has the status that they call for, in every state reached; from there a step
keeps this iff it is such an event. -/
theorem jobsSettled_of_run {es : List Event} {s : State}
    (run : Run step (fun _ => Settles) {} es s) :
    s.tables.Closed ∧ ∀ e s', step s e = some s' → (s'.tables.Closed ↔ Settles s e) := by
  have hinvariant : s.tables.WellFormed ∧ s.tables.Closed := by
    refine run.invariant (I := fun _ s => s.tables.WellFormed ∧ s.tables.Closed)
      ⟨wellFormed_empty, closed_empty⟩ ?_
    intro _ s e s' h hok hstep
    exact ⟨wellFormed_step h.1 hstep, (closed_step_iff h.2 h.1 hstep).mpr hok⟩
  exact ⟨hinvariant.2, fun e s' => closed_step_iff hinvariant.2 hinvariant.1⟩

instance (s : State) (e : Event) : Decidable (Settles s e) :=
  match e with
  | .mark _ _ => inferInstanceAs (Decidable (∀ job ∈ s.tables.jobs, ∀ p ∈ s.tables.partitions, _))
  | .fail _ => inferInstanceAs (Decidable (∀ job ∈ s.tables.jobs, ∀ p ∈ s.tables.partitions, _))
  | .cancel _ _ => inferInstanceAs (Decidable (_ ∨ _))
  | .tick _ | .create _ _ _ _ | .claim _ | .start _ _ _ | .drop _ | .retry _ _ =>
    inferInstanceAs (Decidable True)

/-- One partition is completed; the job is cancelled while the other one is running, and that one
ends. -/
def cancelledWhileRunning : List Event :=
  [.create "job" "pipeline" 2 ["a", "b", "c"], .claim [], .start "a" "exec-1" false, .claim [],
    .start "b" "exec-2" false, .mark "exec-1" .completed, .cancel "job" "pipeline",
    .mark "exec-2" .completed]

/-- A run at the end of which the job is closed. -/
theorem jobsSettled_of_run_cancelledWhileRunning :
    ∃ s, Run step (fun _ => Settles) {} cancelledWhileRunning s ∧ s.tables.Closed ∧
      finished s.tables.partitions "job" = true := by
  obtain ⟨s, hrun, hfinished⟩ : ∃ s, Run step (fun _ => Settles) {} cancelledWhileRunning s ∧
      finished s.tables.partitions "job" = true := exists_run_of_guarded (by decide +kernel)
  exact ⟨s, hrun, (jobsSettled_of_run hrun).1, hfinished⟩

/-! ## The last partition -/

/-- A job with one partition, which is started and completed. -/
def lastPartition : List Event :=
  [.create "job" "pipeline" 1 ["a"], .claim [], .start "a" "exec-1" false,
    .mark "exec-1" .completed]

/-- The only partition is completed, and the job is still called running. -/
theorem closure_missed : ∃ s, Run step Any {} lastPartition s ∧ ¬ s.tables.Closed :=
  exists_run_of_check (fun _ _ _ _ => trivial) (by decide +kernel)
end Dataflow.Api.Backfill
