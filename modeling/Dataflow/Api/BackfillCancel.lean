import Dataflow.Api.Backfills

/-!
# A cancelled backfill

A cancel request ends a job and the partitions that are not running yet. A dispatcher that has
claimed one of them before does not look again: it records the start of its run, or its failure,
over the cancelled partition; and the end of a run does the same, and may give the job another
status.

* `Tables.Stays`: from one state of the tables to a later one a job stays cancelled, none of its
  partitions starts to run and none that is cancelled leaves this status.
* `LeavesAlone`: the events that leave a cancelled job alone, as a condition on the tables before.
* **`stays_of_run`**: in every run of such events a job whose cancel has been requested stays
  cancelled until it is retried; and a step does so exactly when it is such an event.
* `start_after_cancel`: a partition that is claimed before the cancel, and started after it.
-/

namespace Dataflow.Api.Backfill

open Library Library.Transition List

/-- The job is cancelled. -/
def Tables.Cancelled (tables : Tables) (jobId : String) : Prop :=
  ∀ job ∈ tables.jobs, job.id = jobId → job.status = .cancelled

/-- What a partition of a cancelled job may become. -/
def Partition.Keeps (p p' : Partition) : Prop :=
  (p'.status = .running → p.status = .running) ∧ (p.status = .cancelled → p'.status = .cancelled)

instance (p p' : Partition) : Decidable (p.Keeps p') := inferInstanceAs (Decidable (_ ∧ _))

/-- The partitions of a job, from a state to a later one. -/
def PartitionsKeep (jobId : String) (partitions partitions' : List Partition) : Prop :=
  ∀ p ∈ partitions, p.jobId = jobId → ∀ p' ∈ partitions', p'.id = p.id → p.Keeps p'

/-- **A job stays cancelled**, from a state to a later one. -/
def Tables.Stays (tables : Tables) (jobId : String) (tables' : Tables) : Prop :=
  tables'.Cancelled jobId ∧ PartitionsKeep jobId tables.partitions tables'.partitions

instance (tables : Tables) (jobId : String) (tables' : Tables) :
    Decidable (tables.Stays jobId tables') :=
  inferInstanceAs (Decidable ((∀ job ∈ tables'.jobs, _) ∧ ∀ p ∈ tables.partitions, _ → ∀ p' ∈ _, _))

/-- The event is a retry of the job. -/
def Event.Retries (jobId : String) : Event → Prop
  | .retry jobId' _ => jobId' = jobId
  | _ => False

/-- No start is recorded for a partition of the job that is not running, no failure for one that is
cancelled; the end of a run does not meet a cancelled partition, unless it is cancelled as well, nor
all partitions finished, unless they call for a cancelled job. -/
def LeavesAlone (jobId : String) (s : State) : Event → Prop
  | .start partitionId _ _ => ∀ p ∈ s.tables.partitions, p.id = partitionId → p.jobId = jobId →
      p.status = .running
  | .fail partitionId => ∀ p ∈ s.tables.partitions, p.id = partitionId → p.jobId = jobId →
      p.status ≠ .cancelled
  | .mark executionId outcome => ∀ p ∈ s.tables.partitions, s.tables.marks executionId p = true →
      p.jobId = jobId → (p.status = .cancelled → outcome = .cancelled) ∧
        (finished s.tables.partitions jobId = true → verdict s.tables.partitions jobId = .cancelled)
  | _ => True

/-- The jobs that are cancelled on request are left alone. -/
def Respects (s : State) (e : Event) : Prop := ∀ jobId ∈ s.cancelRequested, LeavesAlone jobId s e

section partitions

variable {partitions partitions' partitions'' : List Partition} {jobId : String}
  {meets : Partition → Bool} {f : Partition → Partition}

theorem PartitionsKeep.refl (hnodup : (partitions.map Partition.id).Nodup) (jobId : String) :
    PartitionsKeep jobId partitions partitions := by
  intro p hp _ p' hp' hid
  obtain rfl : p' = p := inj_on_of_nodup_map hnodup hp' hp hid
  exact ⟨id, id⟩

/-- From a state over another one to a later one. -/
theorem PartitionsKeep.trans (h : PartitionsKeep jobId partitions partitions')
    (h' : PartitionsKeep jobId partitions' partitions'')
    (hrows : ∀ p ∈ partitions, ∃ p' ∈ partitions', p'.keys = p.keys) :
    PartitionsKeep jobId partitions partitions'' := by
  intro p hp hjob p'' hp'' hid
  obtain ⟨p', hp', hkeys⟩ := hrows p hp
  obtain ⟨hid', hjob'⟩ := Prod.mk.inj hkeys
  have hfirst := h p hp hjob p' hp' hid'
  have hsecond := h' p' hp' (hjob'.trans hjob) p'' hp'' (hid.trans hid'.symm)
  exact ⟨fun hrun => hfirst.1 (hsecond.1 hrun), fun hcancelled => hsecond.2 (hfirst.2 hcancelled)⟩

/-- **What a statement may do to the partitions of a cancelled job.** -/
theorem partitionsKeep_update_iff (hnodup : (partitions.map Partition.id).Nodup)
    (hf : ∀ p, (f p).id = p.id) :
    PartitionsKeep jobId partitions (Rows.update meets f partitions) ↔
      ∀ p ∈ partitions, p.jobId = jobId → meets p = true → p.Keeps (f p) := by
  constructor
  · intro h p hp hjob hmeets
    exact h p hp hjob (f p) (Rows.mem_update_of_met hp hmeets) (hf p)
  · intro h p hp hjob p' hp' hid
    obtain ⟨old, hold, rfl⟩ := Rows.mem_update.mp hp'
    split_ifs at hid ⊢ with hmeets
    · obtain rfl : old = p := inj_on_of_nodup_map hnodup hold hp ((hf old).symm.trans hid)
      exact h old hold hjob hmeets
    · obtain rfl : old = p := inj_on_of_nodup_map hnodup hold hp hid
      exact ⟨id, id⟩

/-- The rows with their keys are found again. -/
theorem exists_keys_update (hf : ∀ p, (f p).keys = p.keys) :
    ∀ p ∈ partitions, ∃ p' ∈ Rows.update meets f partitions, p'.keys = p.keys := by
  intro p hp
  have hmem : p.keys ∈ (Rows.update meets f partitions).map Partition.keys := by
    rw [Rows.map_update hf]
    exact mem_map_of_mem hp
  exact mem_map.mp hmem

end partitions

/-! ## Each step -/

section steps

variable {tables tables' : Tables} {jobId : String}

section

variable (h : tables.Cancelled jobId)

include h

/-- A statement on the jobs that gives this one no other status. -/
theorem Tables.Cancelled.update {meets : Job → Bool} {status : Job → JobStatus}
    (hkept : ∀ job ∈ tables.jobs, job.id = jobId → meets job = true → status job = .cancelled)
    (hjobs : tables'.jobs = Rows.update meets (fun job => job.set (status job)) tables.jobs) :
    tables'.Cancelled jobId := by
  intro job' hjob' hid
  rw [hjobs] at hjob'
  obtain ⟨old, hold, rfl⟩ := Rows.mem_update.mp hjob'
  split_ifs at hid ⊢ with hmeets
  · exact hkept old hold hid hmeets
  · exact h old hold hid

variable (hwf : tables.WellFormed)

include hwf

/-- **A claim** is made only for jobs that are not cancelled. -/
theorem Tables.Cancelled.claimNext (now : ℕ)
    (locked : List String) : tables.Stays jobId (claimNext tables now locked).2 := by
  have hreset : PartitionsKeep jobId tables.partitions (resetStale now tables.partitions) := by
    refine (partitionsKeep_update_iff hwf.partitions Partition.reset_id).mpr fun p _ _ hstale => ?_
    have hstarting : p.status = .starting :=
      of_decide_eq_true (Bool.and_eq_true _ _ ▸ hstale).1
    exact ⟨fun hrun => PartitionStatus.noConfusion hrun, fun hcancelled => by
      rw [hstarting] at hcancelled
      cases hcancelled⟩
  have hkeys : tables.SameKeys { tables with partitions := resetStale now tables.partitions } :=
    ⟨rfl, Rows.map_update Partition.reset_keys⟩
  have hwf' := hwf.of_sameKeys hkeys
  rcases claimNext_cases tables now locked with ⟨-, heq⟩ | ⟨p, job, hcandidate, heq⟩
  · rw [heq]
    exact ⟨h, hreset⟩
  · rw [heq]
    obtain ⟨hp, hjob, hclaimable⟩ := mem_of_candidate hcandidate
    simp only [claimable, Bool.and_eq_true, decide_eq_true_eq] at hclaimable
    obtain ⟨⟨⟨⟨⟨hid, -⟩, hlive⟩, -⟩, -⟩, -⟩ := hclaimable
    have hother : p.jobId ≠ jobId := by
      intro hsame
      rw [h job hjob (hid.trans hsame)] at hlive
      cases hlive
    refine ⟨h.update (fun job' _ hid' hmeets => ?_) rfl, hreset.trans ?_ ?_⟩
    · rw [Bool.and_eq_true, decide_eq_true_eq] at hmeets
      exact absurd (hmeets.1.symm.trans hid') hother
    · refine (partitionsKeep_update_iff hwf'.partitions (Partition.claimed_id now)).mpr ?_
      intro r hr hjobR hmeets
      obtain rfl : r = p :=
        inj_on_of_nodup_map hwf'.partitions hr hp (of_decide_eq_true hmeets)
      exact absurd hjobR hother
    · exact exists_keys_update Partition.reset_keys

/-- **A recorded start.** -/
theorem stays_startPartition_iff
    {partitionId executionId : String}
    (hstart : startPartition tables partitionId executionId = some tables') :
    tables.Stays jobId tables' ↔
      ∀ p ∈ tables.partitions, p.id = partitionId → p.jobId = jobId → p.status = .running := by
  unfold startPartition at hstart
  split_ifs at hstart
  cases hstart
  have hiff : PartitionsKeep jobId tables.partitions (Rows.update (fun p => p.id = partitionId)
      (Partition.started executionId) tables.partitions) ↔ _ :=
    partitionsKeep_update_iff hwf.partitions (Partition.started_id executionId)
  constructor
  · intro hstays p hp hid hjob
    exact (hiff.mp hstays.2 p hp hjob (decide_eq_true hid)).1 rfl
  · intro hrunning
    refine ⟨h, hiff.mpr fun p hp hjob hmeets => ?_⟩
    have hrun := hrunning p hp (of_decide_eq_true hmeets) hjob
    exact ⟨fun _ => hrun, fun hcancelled => by rw [hrun] at hcancelled; cases hcancelled⟩

/-- **A failed start.** -/
theorem stays_failPartition_iff (partitionId : String) :
    tables.Stays jobId (failPartition tables partitionId) ↔
      ∀ p ∈ tables.partitions, p.id = partitionId → p.jobId = jobId → p.status ≠ .cancelled := by
  have hiff : PartitionsKeep jobId tables.partitions (failPartition tables partitionId).partitions ↔
      _ := partitionsKeep_update_iff hwf.partitions (Partition.set_id .failed)
  constructor
  · intro hstays p hp hid hjob hcancelled
    cases (hiff.mp hstays.2 p hp hjob (decide_eq_true hid)).2 hcancelled
  · intro hnot
    refine ⟨h, hiff.mpr fun p hp hjob hmeets => ⟨fun hrun => ?_, fun hcancelled => ?_⟩⟩
    · cases hrun
    · exact absurd hcancelled (hnot p hp (of_decide_eq_true hmeets) hjob)

/-- **The end of a run.** -/
theorem stays_markExecution_iff (executionId : String) (outcome : Outcome) :
    tables.Stays jobId (markExecution tables executionId outcome) ↔
      ∀ p ∈ tables.partitions, tables.marks executionId p = true → p.jobId = jobId →
        (p.status = .cancelled → outcome = .cancelled) ∧ (finished tables.partitions jobId = true →
            verdict tables.partitions jobId = .cancelled) := by
  have hiff : PartitionsKeep jobId tables.partitions (tables.markPartitions executionId outcome) ↔
      _ := partitionsKeep_update_iff hwf.partitions (Partition.set_id outcome.status)
  have hnotRunning : outcome.status ≠ .running := by cases outcome <;> exact fun h => by cases h
  constructor
  · rintro ⟨hcancelled, hkeep⟩ p hp hmarks hjob
    refine ⟨fun hstatus => ?_, fun hfinished => ?_⟩
    · have := (hiff.mp hkeep p hp hjob hmarks).2 hstatus
      cases outcome with
      | cancelled => rfl
      | completed | failed => cases this
    · obtain ⟨job, hmem, hid⟩ := mem_map.mp (hwf.reference p hp)
      rw [hjob] at hid
      have hcloses : tables.closes executionId job = true := by
        rw [Tables.closes, hid, hfinished, Bool.and_true]
        exact any_eq_true.mpr ⟨p, hp, by rw [hjob, hmarks, decide_eq_true rfl]; rfl⟩
      have := hcancelled _ (Rows.mem_update_of_met hmem hcloses) hid
      rwa [← hid]
  · intro hcond
    refine ⟨h.update (fun job hjob hid hcloses => ?_) rfl, hiff.mpr fun p hp hjob hmarks => ?_⟩
    · rw [Tables.closes, Bool.and_eq_true] at hcloses
      obtain ⟨p, hp, hmet⟩ := any_eq_true.mp hcloses.1
      rw [Bool.and_eq_true, decide_eq_true_eq] at hmet
      rw [hid] at hmet hcloses ⊢
      exact (hcond p hp hmet.2 hmet.1).2 hcloses.2
    · refine ⟨fun hrun => absurd hrun hnotRunning, fun hstatus => ?_⟩
      rw [(hcond p hp hmarks hjob).1 hstatus]
      rfl

/-- A cancel request for another job. -/
theorem Tables.Cancelled.backfillCancel
    {jobId' pipelineId : String}
    (hcancel : backfillCancel tables jobId' pipelineId = some tables') :
    tables.Stays jobId tables' := by
  unfold Backfill.backfillCancel at hcancel
  split_ifs at hcancel with hfound
  cases hcancel
  refine ⟨h.update (fun _ _ _ _ => rfl) rfl, ?_⟩
  refine (partitionsKeep_update_iff hwf.partitions (Partition.set_id .cancelled)).mpr ?_
  exact fun p _ _ _ => ⟨fun hrun => (by cases hrun), fun _ => rfl⟩

/-- A retry of another job. -/
theorem Tables.Cancelled.backfillRetry
    {jobId' : String} (hother : jobId' ≠ jobId) (pipelineId : String) :
    tables.Stays jobId (backfillRetry tables jobId' pipelineId) := by
  unfold Backfill.backfillRetry
  split_ifs
  · refine ⟨h.update (fun job _ hid hmeets => ?_) rfl, ?_⟩
    · rw [Bool.and_eq_true, decide_eq_true_eq] at hmeets
      exact absurd (hmeets.1.symm.trans hid) hother
    · refine (partitionsKeep_update_iff hwf.partitions Partition.reset_id).mpr ?_
      intro p _ hjob hmeets
      have hid : p.jobId = jobId' := of_decide_eq_true (Bool.and_eq_true _ _ ▸ hmeets).1
      exact absurd (hid.symm.trans hjob) hother
  · exact ⟨h, .refl hwf.partitions jobId⟩

/-- A new job has other rows. -/
theorem Tables.Cancelled.backfillCreate
    (hknown : jobId ∈ tables.jobs.map Job.id) {now maxConcurrency : ℕ}
    {jobId' pipelineId : String} {ids : List String}
    (hcreate : backfillCreate tables now jobId' pipelineId maxConcurrency ids = some tables') :
    tables.Stays jobId tables' := by
  obtain ⟨hjob, -, hids, -, rfl⟩ := backfillCreate_cases hcreate
  refine ⟨fun job hmem hid => ?_, fun p hp hjobP p' hp' hid => ?_⟩
  · rcases mem_append.mp hmem with hold | hadded
    · exact h job hold hid
    · obtain rfl := mem_singleton.mp hadded
      have hsame : jobId' = jobId := hid
      rw [hsame] at hjob
      exact absurd hknown hjob
  · rcases mem_append.mp hp' with hold | hnew
    · exact PartitionsKeep.refl hwf.partitions jobId p hp hjobP p' hold hid
    · exact absurd (mem_map_of_mem hp) (hid ▸ hids _ (mem_newPartitions hnew).2.2)

end

/-- The job that a cancel request finds is cancelled. -/
theorem cancelled_backfillCancel (hwf : tables.WellFormed) {pipelineId : String}
    (hcancel : backfillCancel tables jobId pipelineId = some tables') :
    tables'.Cancelled jobId ∧ jobId ∈ tables'.jobs.map Job.id := by
  have hkeys := sameKeys_backfillCancel hcancel
  unfold backfillCancel at hcancel
  split_ifs at hcancel with hfound
  cases hcancel
  obtain ⟨job, hjob, hcancellable⟩ := any_eq_true.mp hfound
  have hid : job.id = jobId := by
    rw [Job.cancellable, Bool.and_eq_true, Bool.and_eq_true, decide_eq_true_eq] at hcancellable
    exact hcancellable.1.1
  refine ⟨fun job' hjob' hid' => ?_, ?_⟩
  · obtain ⟨old, hold, rfl⟩ := Rows.mem_update.mp hjob'
    split_ifs at hid' ⊢ with hmeets
    · rfl
    · obtain rfl : old = job :=
        inj_on_of_nodup_map hwf.jobs hold hjob (hid'.trans hid.symm)
      exact absurd hcancellable hmeets
  · rw [hkeys.jobs, ← hid]
    exact mem_map_of_mem hjob

variable {s s' : State} {e : Event}

/-- **A step leaves a cancelled job as it is iff it is an event that leaves it alone.** -/
theorem stays_step_iff (h : s.tables.Cancelled jobId) (hwf : s.tables.WellFormed)
    (hknown : jobId ∈ s.tables.jobs.map Job.id) (hstep : step s e = some s')
    (hretry : ¬ e.Retries jobId) :
    s.tables.Stays jobId s'.tables ↔ LeavesAlone jobId s e := by
  have heffect := (effect_of_step hstep).1
  cases e with
  | tick | drop =>
    rw [show s'.tables = s.tables from heffect]
    exact iff_of_true ⟨h, .refl hwf.partitions jobId⟩ trivial
  | create => exact iff_of_true (h.backfillCreate hwf hknown heffect) trivial
  | claim locked =>
    rw [show s'.tables = _ from heffect]
    exact iff_of_true (h.claimNext hwf s.now locked) trivial
  | start => exact stays_startPartition_iff h hwf heffect
  | fail partitionId =>
    rw [show s'.tables = _ from heffect]
    exact stays_failPartition_iff h hwf partitionId
  | mark executionId outcome =>
    rw [show s'.tables = _ from heffect]
    exact stays_markExecution_iff h hwf executionId outcome
  | cancel => exact iff_of_true (h.backfillCancel hwf heffect) trivial
  | retry jobId' pipelineId =>
    rw [show s'.tables = _ from heffect]
    exact iff_of_true (h.backfillRetry hwf hretry pipelineId) trivial

/-- The rows of the partitions are found again after a step. -/
theorem exists_keys_step (hstep : step s e = some s') :
    ∀ p ∈ s.tables.partitions, ∃ p' ∈ s'.tables.partitions, p'.keys = p.keys := by
  have hsame {tables' : Tables} (hkeys : s.tables.SameKeys tables') :
      ∀ p ∈ s.tables.partitions, ∃ p' ∈ tables'.partitions, p'.keys = p.keys := by
    intro p hp
    have hmem : p.keys ∈ tables'.partitions.map Partition.keys := by
      rw [hkeys.partitions]
      exact mem_map_of_mem hp
    exact mem_map.mp hmem
  rcases sameKeys_or_create hstep with hkeys | ⟨_, _, _, _, hcreate⟩
  · exact hsame hkeys
  · obtain ⟨-, -, -, -, heq⟩ := backfillCreate_cases hcreate
    intro p hp
    rw [heq]
    exact ⟨p, mem_append_left _ hp, rfl⟩

/-- Jobs are found again after a step. -/
theorem known_step (hstep : step s e = some s') (h : jobId ∈ s.tables.jobs.map Job.id) :
    jobId ∈ s'.tables.jobs.map Job.id := by
  rcases sameKeys_or_create hstep with hkeys | ⟨_, _, _, _, hcreate⟩
  · rwa [hkeys.jobs]
  · obtain ⟨-, -, -, -, heq⟩ := backfillCreate_cases hcreate
    rw [heq, map_append]
    exact mem_append_left _ h

/-- A cancel stays requested until the job is retried. -/
theorem mem_requestedAfter {requested : List String} (h : jobId ∈ requested)
    (hretry : ¬ e.Retries jobId) : jobId ∈ requestedAfter requested e := by
  cases e with
  | cancel => exact mem_cons_of_mem _ h
  | retry jobId' => exact mem_filter.mpr ⟨h, decide_eq_true fun hsame => hretry hsame.symm⟩
  | _ => exact h

/-- The rows of the partitions are found again after a run. -/
theorem exists_keys_run {s₀ : State} {allowed : List Event → State → Event → Prop} {es : List Event}
    (run : Run step allowed s₀ es s) :
    ∀ p ∈ s₀.tables.partitions, ∃ p' ∈ s.tables.partitions, p'.keys = p.keys := by
  induction run with
  | start => exact fun p hp => ⟨p, hp, rfl⟩
  | next run _ hstep ih =>
    intro p hp
    obtain ⟨p', hp', hkeys⟩ := ih p hp
    obtain ⟨p'', hp'', hkeys'⟩ := exists_keys_step hstep p' hp'
    exact ⟨p'', hp'', hkeys'.trans hkeys⟩

end steps

/-! ## Runs -/

/-- What holds of the jobs that are cancelled on request. -/
structure Invariant (s : State) : Prop where
  wellFormed : s.tables.WellFormed
  cancelled : ∀ jobId ∈ s.cancelRequested, s.tables.Cancelled jobId
  known : ∀ jobId ∈ s.cancelRequested, jobId ∈ s.tables.jobs.map Job.id

variable {s s' : State} {e : Event}

/-- **A step that leaves the cancelled jobs alone** keeps the invariant. -/
theorem Invariant.step (h : Invariant s) (hok : Respects s e) (hstep : step s e = some s') :
    Invariant s' := by
  obtain ⟨heffect, hrequested⟩ := effect_of_step hstep
  have hold (jobId : String) (hmem : jobId ∈ s.cancelRequested) (hretry : ¬ e.Retries jobId) :
      s'.tables.Cancelled jobId ∧ jobId ∈ s'.tables.jobs.map Job.id := by
    have hstays := (stays_step_iff (h.cancelled jobId hmem) h.wellFormed (h.known jobId hmem) hstep
      hretry).mpr (hok jobId hmem)
    exact ⟨hstays.1, known_step hstep (h.known jobId hmem)⟩
  have hall (jobId : String) (hmem : jobId ∈ s'.cancelRequested) :
      s'.tables.Cancelled jobId ∧ jobId ∈ s'.tables.jobs.map Job.id := by
    rw [hrequested] at hmem
    cases e with
    | cancel jobId' pipelineId =>
      rcases mem_cons.mp hmem with rfl | hmem
      · exact cancelled_backfillCancel h.wellFormed heffect
      · exact hold jobId hmem id
    | retry jobId' pipelineId =>
      obtain ⟨hmem, hne⟩ := mem_filter.mp hmem
      exact hold jobId hmem fun hsame => of_decide_eq_true hne hsame.symm
    | _ => exact hold jobId hmem id
  exact ⟨wellFormed_step h.wellFormed hstep, fun jobId hmem => (hall jobId hmem).1,
    fun jobId hmem => (hall jobId hmem).2⟩

/-- Nothing has been cancelled at the start. -/
theorem invariant_empty : Invariant {} :=
  ⟨wellFormed_empty, fun _ h => absurd h not_mem_nil, fun _ h => absurd h not_mem_nil⟩

/-- The invariant along a run. -/
theorem Invariant.of_run {s₀ : State} {allowed : State → Event → Prop} {es : List Event}
    (h : Invariant s₀) (himp : ∀ s e, allowed s e → Respects s e)
    (run : Run Backfill.step (fun _ => allowed) s₀ es s) : Invariant s :=
  run.invariant (I := fun _ s => Invariant s) h fun _ s e _ h hok hstep => h.step (himp s e hok) hstep

/-- A step that leaves the cancelled jobs alone and is no retry of this one. -/
def Continues (jobId : String) (s : State) (e : Event) : Prop := Respects s e ∧ ¬ e.Retries jobId

/-- **Along a run without a retry** a job that is cancelled on request stays so. -/
theorem stays_of_continues {s₀ : State} {jobId : String} {es : List Event} (h : Invariant s₀)
    (hrequested : jobId ∈ s₀.cancelRequested)
    (run : Run Backfill.step (fun _ => Continues jobId) s₀ es s) :
    s₀.tables.Stays jobId s.tables ∧ jobId ∈ s.cancelRequested := by
  induction run with
  | start => exact ⟨⟨h.cancelled jobId hrequested, .refl h.wellFormed.partitions jobId⟩, hrequested⟩
  | @next es s s' e run hok hstep ih =>
    obtain ⟨hstays, hmem⟩ := ih
    have hinvariant := h.of_run (fun _ _ hcontinues => hcontinues.1) run
    obtain ⟨hcancelled, hkeep⟩ := (stays_step_iff (hinvariant.cancelled jobId hmem)
      hinvariant.wellFormed (hinvariant.known jobId hmem) hstep hok.2).mpr (hok.1 jobId hmem)
    refine ⟨⟨hcancelled, hstays.2.trans hkeep ?_⟩, ?_⟩
    · exact exists_keys_run run
    · rw [(effect_of_step hstep).2]
      exact mem_requestedAfter hmem hok.2

/-- **A cancelled backfill stays cancelled.** In every run of events that leave the cancelled jobs
alone, a job whose cancel has been requested stays cancelled along every continuation of the run
without a retry of it, none of its partitions starts to run and none that is cancelled leaves this
status; and a step other than a retry leaves it so iff it is an event that leaves the job alone. -/
theorem stays_of_run {es : List Event} {jobId : String}
    (run : Run Backfill.step (fun _ => Respects) {} es s) (hrequested : jobId ∈ s.cancelRequested) :
    (∀ es' s', Run Backfill.step (fun _ => Continues jobId) s es' s' →
        s.tables.Stays jobId s'.tables) ∧
      ∀ e s', Backfill.step s e = some s' → ¬ e.Retries jobId →
        (s.tables.Stays jobId s'.tables ↔ LeavesAlone jobId s e) := by
  have h := invariant_empty.of_run (fun _ _ hok => hok) run
  refine ⟨fun es' s' hrun => (stays_of_continues h hrequested hrun).1, fun e s' hstep hretry => ?_⟩
  exact stays_step_iff (h.cancelled jobId hrequested) h.wellFormed (h.known jobId hrequested) hstep
    hretry

instance (jobId : String) (s : State) (e : Event) : Decidable (LeavesAlone jobId s e) :=
  match e with
  | .start _ _ _ | .fail _ => inferInstanceAs (Decidable (∀ p ∈ s.tables.partitions, _))
  | .mark _ _ => inferInstanceAs (Decidable (∀ p ∈ s.tables.partitions, _))
  | .tick _ | .create _ _ _ _ | .claim _ | .drop _ | .cancel _ _ | .retry _ _ =>
    inferInstanceAs (Decidable True)

instance (s : State) (e : Event) : Decidable (Respects s e) :=
  inferInstanceAs (Decidable (∀ jobId ∈ s.cancelRequested, _))

/-- A job is cancelled while one of its partitions is running. -/
def cancelledInTime : List Event :=
  [.create "job" "pipeline" 1 ["a", "b"], .claim [], .start "a" "exec-1" false,
    .cancel "job" "pipeline"]

/-- The run that is still in flight ends, and the job stays cancelled. -/
theorem stays_of_run_cancelledInTime : ∃ s s', Run step (fun _ => Respects) {} cancelledInTime s ∧
      step s (.mark "exec-1" .completed) = some s' ∧ s.tables.Stays "job" s'.tables := by
  obtain ⟨s, hrun, hrequested, halone⟩ :
      ∃ s, Run step (fun _ => Respects) {} cancelledInTime s ∧ "job" ∈ s.cancelRequested ∧
        LeavesAlone "job" s (.mark "exec-1" .completed) :=
    exists_run_of_guarded (by decide +kernel)
  exact ⟨s, _, hrun, rfl, ((stays_of_run hrun hrequested).2 (.mark "exec-1" .completed) _ rfl
    id).mpr halone⟩

/-! ## A claim before the cancel -/

/-- The partition is claimed, and the job is cancelled. -/
def claimedBefore : List Event :=
  [.create "job" "pipeline" 1 ["a"], .claim [], .cancel "job" "pipeline"]

/-- The dispatcher records the start of the run, and the cancelled partition is running. -/
theorem start_after_cancel : ∃ s s', Run step Any {} claimedBefore s ∧ "job" ∈ s.cancelRequested ∧
      step s (.start "a" "exec-1" false) = some s' ∧ ¬ s.tables.Stays "job" s'.tables := by
  obtain ⟨s, hrun, hrequested, hstep⟩ : ∃ s, Run step Any {} claimedBefore s ∧
      "job" ∈ s.cancelRequested ∧ (step s (.start "a" "exec-1" false)).any (fun s' =>
        decide (¬ s.tables.Stays "job" s'.tables)) = true :=
    exists_run_of_check (fun _ _ _ _ => trivial) (by decide +kernel)
  obtain ⟨s', heq, hstays⟩ := Option.any_eq_true _ _ |>.mp hstep
  exact ⟨s, s', hrun, hrequested, heq, of_decide_eq_true hstays⟩

end Dataflow.Api.Backfill
