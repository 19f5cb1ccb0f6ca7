import Dataflow.Activities.ConnectorInstances
import Dataflow.Activities.SparkPhases

/-!
# Runs of an incremental Spark pipeline

The runs of a pipeline may overlap, fail or be cancelled, and snapshots are appended to the source
table at any time. An activity may be attempted several times, and an attempt may go on after its
run has given it up.

* `SparkSystem`, `Step`: the table, the stored state and the runs, and one step of any of them.
* `Committed`, `InInput`, `StoredAt`: what is said about them.
* `Sound`: what holds in every state reached; `covered_of_reaches`: every row up to the stored
  snapshot is in the input of a run that has come to its commit.
* `Undisturbed`: a commit whose stored snapshot is still the one that its submission has read, and
  whose application has read the table as the submission has found it; what is stored is replied to.
* **`rows_processed_once`**: where all commits are undisturbed, a row is in the input of one
  committed run at most, and the stored snapshot does not move back.
* `row_read_twice`: a snapshot that is appended between a first submission and its application.

Source: `ee/workflows/spark_job.go` `SparkJobWorkflow`, `ee/activities/spark.go` `SubmitSparkJob`,
`CommitSparkJob`
-/

set_option linter.unusedSectionVars false

namespace Dataflow.Activities.SparkRuns

open Library Model Workflows Relation List Function

/-! ## The system -/

/-- An application: its view, and how many snapshots there were when it has read it. -/
structure ReadingApplication where
  view : SparkView
  readAt : Option ℕ

/-- The number of snapshots of the source table, the stored states, the workflow of each run with
the attempts at its activities, and its application. -/
structure SparkSystem (ι : Type) where
  now : ℕ
  state : ConnectorState
  run : ι → SparkState
  submits : ι → ℕ → Option (ActivityProgram (Except String SparkJobRef))
  commits : ι → ℕ → Option (ActivityProgram (Except String Unit))
  application : ι → Option ReadingApplication

section system

variable {ι ρ : Type} [DecidableEq ι] (pipeline : SparkPipeline ι ρ)

/-- A run of the pipeline that has done nothing, on a table with some snapshots. -/
structure Starts (s : SparkSystem ι) : Prop where
  stored : s.state pipeline.tenantId pipeline.key = none
  run : ∀ i, s.run i = sparkStart (pipeline.input i)
  submits : ∀ i k, s.submits i k = none
  commits : ∀ i k, s.commits i k = none
  application : ∀ i, s.application i = none

namespace SparkSystem

/-- An attempt at a submission goes on. -/
def setSubmit (s : SparkSystem ι) (i : ι) (k : ℕ)
    (program : ActivityProgram (Except String SparkJobRef)) : SparkSystem ι :=
  { s with submits := update s.submits i (update (s.submits i) k (some program)) }

/-- An attempt at a commit goes on. -/
def setCommit (s : SparkSystem ι) (i : ι) (k : ℕ) (program : ActivityProgram (Except String Unit)) :
    SparkSystem ι :=
  { s with commits := update s.commits i (update (s.commits i) k (some program)) }

/-- The application of a run. -/
def setApplication (s : SparkSystem ι) (i : ι) (application : ReadingApplication) : SparkSystem ι :=
  { s with application := update s.application i (some application) }

/-- The workflow of a run. -/
def setRun (s : SparkSystem ι) (i : ι) (run : SparkState) : SparkSystem ι :=
  { s with run := update s.run i run }

end SparkSystem

/-- **The answer to a request of a run**, and the system after it. The catalog gives the current
snapshot of the source table. The name of an application is that of its run, so a second one is
refused. An application that is created and a state that is stored may be reported as an error. -/
def Answers (i : ι) (s : SparkSystem ι) : (request : ActivityRequest) → ActivityReply request →
    SparkSystem ι → Prop
  | .selectState tenantId connectionId, reply, s' =>
    s' = s ∧ ∀ state, reply = .ok state → state = s.state tenantId connectionId
  | .connect _ config, reply, s' => s' = s ∧
      (config = pipeline.source.config → ∀ snapshot, reply = .ok snapshot →
        snapshot = pipeline.table.current s.now)
  | .createApplication application, .ok (), s' =>
    s.application i = none ∧ s' = s.setApplication i ⟨application.view, none⟩
  | .createApplication application, .error _, s' =>
    s' = s ∨ (s.application i = none ∧ s' = s.setApplication i ⟨application.view, none⟩)
  | .upsertState tenantId connectionId cursor, .ok (), s' =>
    s' = { s with state := s.state.write tenantId connectionId cursor }
  | .upsertState tenantId connectionId cursor, .error _, s' =>
    s' = s ∨ s' = { s with state := s.state.write tenantId connectionId cursor }
  | _, _, s' => s' = s

/-- The commit of a run has succeeded in one of its attempts. -/
def Committed (s : SparkSystem ι) (i : ι) : Prop := ∃ k, s.commits i k = some (.done (.ok ()))

/-- An attempt at the commit of a run has begun. -/
def Began (s : SparkSystem ι) (i : ι) : Prop := ∃ k program, s.commits i k = some program

/-- The application of a run has read its view. -/
def HasRead (s : SparkSystem ι) (i : ι) : Prop :=
  ∃ application m, s.application i = some application ∧ application.readAt = some m

/-- What a run may be told: a reply comes from an attempt, and a completed application has read its
view. An activity may fail at any time. -/
def Delivers (s : SparkSystem ι) (i : ι) : SparkEvent → Prop
  | .submitted (.ok ref) => ∃ k, s.submits i k = some (.done (.ok ref))
  | .status (.ok status) => status.state = "COMPLETED" → HasRead s i
  | .committed (.ok ()) => Committed s i
  | _ => True

/-- **One step**: a snapshot is appended, an attempt begins or is answered, an application reads its
view, or a workflow goes on. -/
inductive Step : SparkSystem ι → SparkSystem ι → Prop
  | append (s : SparkSystem ι) : Step s { s with now := s.now + 1 }
  | beginSubmit {s : SparkSystem ι} {i : ι} {k : ℕ} (point : (s.run i).point = .submitting)
      (unused : s.submits i k = none) : Step s (s.setSubmit i k (pipeline.submission i))
  | answerSubmit {s s' : SparkSystem ι} {i : ι} {k : ℕ} {request : ActivityRequest}
      {resume : ActivityReply request → Unit → ActivityProgram (Except String SparkJobRef)}
      {reply : ActivityReply request} (pending : s.submits i k = some (.await request resume))
      (answer : Answers pipeline i s request reply s') : Step s (s'.setSubmit i k (resume reply ()))
  | beginCommit {s : SparkSystem ι} {i : ι} {k : ℕ} (point : (s.run i).point = .committing)
      (unused : s.commits i k = none) : Step s (s.setCommit i k (pipeline.commit (s.run i).ref))
  | answerCommit {s s' : SparkSystem ι} {i : ι} {k : ℕ} {request : ActivityRequest}
      {resume : ActivityReply request → Unit → ActivityProgram (Except String Unit)}
      {reply : ActivityReply request} (pending : s.commits i k = some (.await request resume))
      (answer : Answers pipeline i s request reply s') : Step s (s'.setCommit i k (resume reply ()))
  | read {s : SparkSystem ι} {i : ι} {application : ReadingApplication}
      (created : s.application i = some application) (unread : application.readAt = none) :
      Step s (s.setApplication i { application with readAt := some s.now })
  | workflow {s : SparkSystem ι} {i : ι} {event : SparkEvent} {run : SparkState}
      (delivers : Delivers s i event)
      (step : sparkStep (pipeline.input i) (s.run i) event = some run) : Step s (s.setRun i run)

/-! ## What is said about it -/

/-- A row is in the input of a run. -/
def InInput (s : SparkSystem ι) (i : ι) (row : ρ) : Prop :=
  ∃ application m, s.application i = some application ∧ application.readAt = some m ∧
    row ∈ pipeline.table.rows application.view m

/-- The stored state is that of the `n`-th snapshot; none before the first one. -/
def StoredAt (s : SparkSystem ι) (n : ℕ) : Prop :=
  s.state pipeline.tenantId pipeline.key =
    if n = 0 then none else some (sparkState (pipeline.table.current n))

/-- **Every row up to the stored snapshot** is in the input of a run that has committed. -/
def Covered (s : SparkSystem ι) : Prop :=
  ∃ n, StoredAt pipeline s n ∧ ∀ row, pipeline.table.added row ≤ n →
    ∃ i, Committed s i ∧ InInput pipeline s i row

/-- **A row is in the input of at most one run** that has committed. -/
def Once (s : SparkSystem ι) : Prop :=
  ∀ row i j, Committed s i → Committed s j → InInput pipeline s i row → InInput pipeline s j row → i = j

/-- The stored snapshot is not an earlier one. -/
def NotBack (s s' : SparkSystem ι) : Prop :=
  ∀ n n', StoredAt pipeline s n → StoredAt pipeline s' n' → n ≤ n'

end system

variable {program : ActivityProgram (Except String Unit)}

variable {run : SparkState}

/-! ## Growth -/

section growth

variable {ι ρ : Type} [DecidableEq ι] {pipeline : SparkPipeline ι ρ} {s s' : SparkSystem ι} {i : ι}

/-- What a step keeps: there are no fewer snapshots, an application stays and reads at most once,
and what is begun or committed stays so. -/
structure Grows (s s' : SparkSystem ι) : Prop where
  now : s.now ≤ s'.now
  application : ∀ i application, s.application i = some application →
    s'.application i = some application ∨ (application.readAt = none ∧
      s'.application i = some { application with readAt := some s.now })
  committed : ∀ i, Committed s i → Committed s' i
  began : ∀ i, Began s i → Began s' i

theorem HasRead.mono (h : HasRead s i) (hgrows : Grows s s') : HasRead s' i := by
  obtain ⟨application, m, hcreated, hread⟩ := h
  rcases hgrows.application i application hcreated with hsame | ⟨hunread, -⟩
  · exact ⟨application, m, hsame, hread⟩
  · simp [hunread] at hread

theorem InInput.mono {row : ρ} (h : InInput pipeline s i row) (hgrows : Grows s s') :
    InInput pipeline s' i row := by
  obtain ⟨application, m, hcreated, hread, hrow⟩ := h
  rcases hgrows.application i application hcreated with hsame | ⟨hunread, -⟩
  · exact ⟨application, m, hsame, hread, hrow⟩
  · simp [hunread] at hread

/-- The input of an application that has read its view stays. -/
theorem InInput.of_grows {row : ρ} (h : InInput pipeline s' i row) (hread : HasRead s i)
    (hgrows : Grows s s') : InInput pipeline s i row := by
  obtain ⟨application, m, hcreated, hreadAt⟩ := hread
  obtain ⟨application', m', hcreated', hreadAt', hrow⟩ := h
  rcases hgrows.application i application hcreated with hsame | ⟨hunread, -⟩
  · rw [hsame] at hcreated'
    cases hcreated'
    exact ⟨application, m', hcreated, hreadAt', hrow⟩
  · simp [hunread] at hreadAt

/-- Every row up to a snapshot is in the input of a run that has come to its commit. -/
def CoveredTo (pipeline : SparkPipeline ι ρ) (s : SparkSystem ι) (n : ℕ) : Prop :=
  ∀ row, pipeline.table.added row ≤ n → ∃ i, Began s i ∧ InInput pipeline s i row

theorem CoveredTo.mono {n : ℕ} (h : CoveredTo pipeline s n) (hgrows : Grows s s') :
    CoveredTo pipeline s' n := by
  intro row hrow
  obtain ⟨i, hbegan, hinput⟩ := h row hrow
  exact ⟨i, hgrows.began i hbegan, hinput.mono hgrows⟩

/-- Before the first snapshot there are no rows. -/
theorem coveredTo_zero : CoveredTo pipeline s 0 := fun row hrow =>
  absurd hrow (not_le.mpr (pipeline.table.added_pos row))

/-- **A run has submitted** an application for what is between two snapshots. -/
structure Submitted (pipeline : SparkPipeline ι ρ) (s : SparkSystem ι) (i : ι) (a b : ℕ) :
    Prop where
  le : a ≤ b
  le_now : b ≤ s.now
  covered : CoveredTo pipeline s a
  created : ∃ application, s.application i = some application ∧
    sourceSQL pipeline.source (pipeline.table.current a) (pipeline.table.current b) =
      .ok application.view ∧ ∀ m, application.readAt = some m → b ≤ m

theorem Submitted.mono {a b : ℕ} (h : Submitted pipeline s i a b) (hgrows : Grows s s') :
    Submitted pipeline s' i a b := by
  obtain ⟨application, hcreated, hview, hreadAt⟩ := h.created
  refine ⟨h.le, h.le_now.trans hgrows.now, h.covered.mono hgrows, ?_⟩
  rcases hgrows.application i application hcreated with hsame | ⟨-, hread⟩
  · exact ⟨application, hsame, hview, hreadAt⟩
  · refine ⟨_, hread, hview, ?_⟩
    intro m hm
    cases hm
    exact h.le_now

/-! ## What holds of attempts and runs -/

/-- What holds of a submission in a phase: the snapshots that it has read were stored, and
current. -/
def PhaseHolds (pipeline : SparkPipeline ι ρ) (s : SparkSystem ι) (i : ι) : SubmitPhase → Prop
  | .idle => True
  | .selected previous => ∃ a ≤ s.now, previous = pipeline.table.current a ∧ CoveredTo pipeline s a
  | .resolved previous current => ∃ a b, previous = pipeline.table.current a ∧
      current = pipeline.table.current b ∧ a ≤ b ∧ b ≤ s.now ∧ CoveredTo pipeline s a
  | .created previous current => ∃ a b, previous = pipeline.table.current a ∧
      current = pipeline.table.current b ∧ Submitted pipeline s i a b

theorem PhaseHolds.mono {phase : SubmitPhase} (h : PhaseHolds pipeline s i phase)
    (hgrows : Grows s s') : PhaseHolds pipeline s' i phase := by
  cases phase with
  | idle => trivial
  | selected previous =>
    obtain ⟨a, ha, hprevious, hcovered⟩ := h
    exact ⟨a, ha.trans hgrows.now, hprevious, hcovered.mono hgrows⟩
  | resolved previous current =>
    obtain ⟨a, b, hprevious, hcurrent, hle, hnow, hcovered⟩ := h
    exact ⟨a, b, hprevious, hcurrent, hle, hnow.trans hgrows.now, hcovered.mono hgrows⟩
  | created previous current =>
    obtain ⟨a, b, hprevious, hcurrent, hsubmitted⟩ := h
    exact ⟨a, b, hprevious, hcurrent, hsubmitted.mono hgrows⟩

/-- What holds of an attempt at a submission. -/
def SubmitHolds (pipeline : SparkPipeline ι ρ) (s : SparkSystem ι) (i : ι)
    (program : ActivityProgram (Except String SparkJobRef)) : Prop :=
  ∃ phase, (SubmitPhase.protocol pipeline).Follows (SubmitPhase.Ends pipeline) phase program ∧
    PhaseHolds pipeline s i phase

theorem SubmitHolds.mono {program : ActivityProgram (Except String SparkJobRef)}
    (h : SubmitHolds pipeline s i program) (hgrows : Grows s s') :
    SubmitHolds pipeline s' i program := by
  obtain ⟨phase, hfollows, hholds⟩ := h
  exact ⟨phase, hfollows, hholds.mono hgrows⟩

/-- What a reference stands for. -/
def RefHolds (pipeline : SparkPipeline ι ρ) (s : SparkSystem ι) (i : ι) (ref : SparkJobRef) :
    Prop :=
  ref.inputStateKey = pipeline.key ∧ ∃ a b, ref.inputSnapshot = pipeline.table.current b ∧
    Submitted pipeline s i a b

theorem RefHolds.mono {ref : SparkJobRef} (h : RefHolds pipeline s i ref) (hgrows : Grows s s') :
    RefHolds pipeline s' i ref := by
  obtain ⟨hkey, a, b, hsnapshot, hsubmitted⟩ := h
  exact ⟨hkey, a, b, hsnapshot, hsubmitted.mono hgrows⟩

/-- What holds of a workflow. -/
def PointHolds (pipeline : SparkPipeline ι ρ) (s : SparkSystem ι) (i : ι) (run : SparkState) :
    Prop :=
  match run.point with
  | .submitting | .marking _ | .returned _ => True
  | .committing => RefHolds pipeline s i run.ref ∧ HasRead s i
  | .polling | .selecting | .cancelling => RefHolds pipeline s i run.ref

theorem PointHolds.mono (h : PointHolds pipeline s i run) (hgrows : Grows s s') :
    PointHolds pipeline s' i run := by
  unfold PointHolds at h ⊢
  cases hpoint : run.point with
  | submitting | marking outcome | returned outcome => trivial
  | committing =>
    rw [hpoint] at h
    exact ⟨h.1.mono hgrows, h.2.mono hgrows⟩
  | polling | selecting | cancelling =>
    rw [hpoint] at h
    exact h.mono hgrows

/-- What holds of an attempt at a commit. -/
structure CommitHolds (pipeline : SparkPipeline ι ρ) (s : SparkSystem ι) (i : ι)
    (program : ActivityProgram (Except String Unit)) : Prop where
  ref : RefHolds pipeline s i (s.run i).ref
  read : HasRead s i
  submitted : (s.run i).point ≠ .submitting
  follows : ∃ phase, (CommitPhase.protocol pipeline (s.run i).ref.inputSnapshot).Follows
    (CommitPhase.Ends (s.run i).ref.inputSnapshot) phase program

theorem CommitHolds.mono (h : CommitHolds pipeline s i program) (hgrows : Grows s s')
    (href : (s'.run i).ref = (s.run i).ref) (hpoint : (s'.run i).point ≠ .submitting) :
    CommitHolds pipeline s' i program := by
  refine ⟨?_, h.read.mono hgrows, hpoint, ?_⟩
  · rw [href]
    exact h.ref.mono hgrows
  · rw [href]
    exact h.follows

/-- **What holds in every state reached.** -/
structure Sound (pipeline : SparkPipeline ι ρ) (s : SparkSystem ι) : Prop where
  stored : ∃ n ≤ s.now, StoredAt pipeline s n ∧ CoveredTo pipeline s n
  submits : ∀ i k program, s.submits i k = some program → SubmitHolds pipeline s i program
  points : ∀ i, PointHolds pipeline s i (s.run i)
  commits : ∀ i k program, s.commits i k = some program → CommitHolds pipeline s i program

/-- It holds at the start. -/
theorem sound_of_starts (h : Starts pipeline s) : Sound pipeline s := by
  refine ⟨⟨0, Nat.zero_le _, ?_, coveredTo_zero⟩, ?_, ?_, ?_⟩
  · rw [StoredAt, if_pos rfl]
    exact h.stored
  · intro i k program hprogram
    simp [h.submits] at hprogram
  · intro i
    rw [h.run]
    trivial
  · intro i k program hprogram
    simp [h.commits] at hprogram

end growth

variable {input : WorkflowInput}

/-! ## Steps -/

section steps

variable {ι ρ : Type} [DecidableEq ι] {pipeline : SparkPipeline ι ρ} {s s' : SparkSystem ι}
  {i j : ι} {k l : ℕ} {request : ActivityRequest}

/-- What an attempt is after one attempt of one run has gone on. -/
theorem attempt_update {π : Type} {attempts : ι → ℕ → Option π} {program program' : π}
    (h : update attempts i (update (attempts i) k (some program)) j l = some program') :
    (j = i ∧ program' = program) ∨ attempts j l = some program' := by
  by_cases hj : j = i
  · subst hj
    rw [update_self] at h
    by_cases hl : l = k
    · subst hl
      rw [update_self] at h
      exact .inl ⟨rfl, (Option.some.inj h).symm⟩
    · rw [update_of_ne hl] at h
      exact .inr h
  · rw [update_of_ne hj] at h
    exact .inr h

theorem submits_setSubmit {program program' : ActivityProgram (Except String SparkJobRef)}
    (h : (s.setSubmit i k program).submits j l = some program') :
    (j = i ∧ program' = program) ∨ s.submits j l = some program' := by
  rw [SparkSystem.setSubmit] at h
  exact attempt_update h

theorem commits_setCommit {program program' : ActivityProgram (Except String Unit)}
    (h : (s.setCommit i k program).commits j l = some program') :
    (j = i ∧ program' = program) ∨ s.commits j l = some program' := by
  rw [SparkSystem.setCommit] at h
  exact attempt_update h

/-- An attempt that has ended stays as it is when another one, or a pending one, goes on. -/
theorem committed_setCommit (h : Committed s j)
    (hpending : s.commits i k ≠ some (.done (.ok ()))) : Committed (s.setCommit i k program) j := by
  obtain ⟨l, hdone⟩ := h
  refine ⟨l, ?_⟩
  rw [SparkSystem.setCommit]
  dsimp only
  by_cases hj : j = i
  · subst hj
    have hl : l ≠ k := by
      rintro rfl
      exact hpending hdone
    rw [update_self, update_of_ne hl]
    exact hdone
  · rw [update_of_ne hj]
    exact hdone

/-- An attempt that has begun stays so. -/
theorem began_setCommit (h : Began s j) : Began (s.setCommit i k program) j := by
  obtain ⟨l, program', hbegun⟩ := h
  rw [SparkSystem.setCommit]
  by_cases hj : j = i
  · subst hj
    exact ⟨k, program, by simp⟩
  · refine ⟨l, program', ?_⟩
    dsimp only
    rw [update_of_ne hj]
    exact hbegun

/-- What an answer leaves as it is. -/
structure Answered (s s' : SparkSystem ι) : Prop where
  now : s'.now = s.now
  run : s'.run = s.run
  submits : s'.submits = s.submits
  commits : s'.commits = s.commits
  application : ∀ i application, s.application i = some application →
    s'.application i = some application

theorem answered_rfl : Answered s s := ⟨rfl, rfl, rfl, rfl, fun _ _ h => h⟩

/-- A first application of a run. -/
theorem answered_setApplication (h : s.application i = none) (application : ReadingApplication) :
    Answered s (s.setApplication i application) := by
  refine ⟨rfl, rfl, rfl, rfl, ?_⟩
  intro j application' hcreated
  have hj : j ≠ i := by
    rintro rfl
    simp [h] at hcreated
  rw [SparkSystem.setApplication]
  dsimp only
  rw [update_of_ne hj]
  exact hcreated

variable {reply : ActivityReply request}

/-- **An answer** creates an application at most, or stores a state. -/
theorem answered_of_answers (h : Answers pipeline i s request reply s') : Answered s s' := by
  cases request with
  | selectState tenantId connectionId | connect id config =>
    obtain ⟨rfl, -⟩ := h
    exact answered_rfl
  | createApplication application =>
    rcases reply with err | _
    · rcases h with rfl | ⟨hnone, rfl⟩
      · exact answered_rfl
      · exact answered_setApplication hnone _
    · obtain ⟨hnone, rfl⟩ := h
      exact answered_setApplication hnone _
  | upsertState tenantId connectionId cursor =>
    rcases reply with err | _
    · rcases h with rfl | rfl
      · exact answered_rfl
      · exact ⟨rfl, rfl, rfl, rfl, fun _ _ h => h⟩
    · obtain rfl := h
      exact ⟨rfl, rfl, rfl, rfl, fun _ _ h => h⟩
  | _ =>
    obtain rfl : s' = s := h
    exact answered_rfl

/-- The state is stored by commits only. -/
theorem state_of_answers (h : Answers pipeline i s request reply s')
    (hother : ∀ tenantId connectionId cursor, request ≠ .upsertState tenantId connectionId cursor) :
    s'.state = s.state := by
  cases request with
  | selectState tenantId connectionId | connect id config => rw [h.1]
  | createApplication application =>
    rcases reply with err | _
    · rcases h with rfl | ⟨-, rfl⟩
      · rfl
      · rfl
    · rw [h.2]
      rfl
  | upsertState tenantId connectionId cursor => exact absurd rfl (hother _ _ _)
  | _ =>
    obtain rfl : s' = s := h
    rfl

theorem Answered.grows (h : Answered s s') : Grows s s' := by
  refine ⟨h.now.ge, fun i application hcreated => .inl (h.application i application hcreated), ?_, ?_⟩
  · rintro i ⟨k, hdone⟩
    exact ⟨k, h.commits ▸ hdone⟩
  · rintro i ⟨k, program, hbegun⟩
    exact ⟨k, program, h.commits ▸ hbegun⟩

/-- **Every step grows.** -/
theorem grows_of_step (h : Step pipeline s s') : Grows s s' := by
  cases h with
  | append => exact ⟨Nat.le_succ _, fun _ _ h => .inl h, fun _ h => h, fun _ h => h⟩
  | beginSubmit point unused => exact ⟨le_rfl, fun _ _ h => .inl h, fun _ h => h, fun _ h => h⟩
  | answerSubmit pending answer =>
    have hgrows := (answered_of_answers answer).grows
    exact ⟨hgrows.now, hgrows.application, hgrows.committed, hgrows.began⟩
  | @beginCommit i k point unused =>
    refine ⟨le_rfl, fun _ _ h => .inl h, fun j h => committed_setCommit h ?_,
      fun j h => began_setCommit h⟩
    rw [unused]
    nofun
  | @answerCommit s₁ i k request resume reply pending answer =>
    have hanswered := answered_of_answers answer
    refine ⟨hanswered.grows.now, hanswered.grows.application, fun j h => ?_,
      fun j h => began_setCommit (hanswered.grows.began j h)⟩
    refine committed_setCommit (hanswered.grows.committed j h) ?_
    rw [hanswered.commits, pending]
    nofun
  | @read i application created unread =>
    refine ⟨le_rfl, fun j application' h => ?_, fun _ h => h, fun _ h => h⟩
    rw [SparkSystem.setApplication]
    dsimp only
    by_cases hj : j = i
    · subst hj
      rw [created] at h
      cases h
      rw [update_self]
      exact .inr ⟨unread, rfl⟩
    · rw [update_of_ne hj]
      exact .inl h
  | workflow delivers step => exact ⟨le_rfl, fun _ _ h => .inl h, fun _ h => h, fun _ h => h⟩

/-! ### Submissions -/

theorem grows_setSubmit (program : ActivityProgram (Except String SparkJobRef)) :
    Grows s (s.setSubmit i k program) := ⟨le_rfl, fun _ _ h => .inl h, fun _ h => h, fun _ h => h⟩

/-- The stored snapshot, as a submission reads it. -/
theorem previousSnapshot_of_storedAt {n : ℕ} (h : StoredAt pipeline s n) :
    previousSnapshot pipeline.formatting (.ok (s.state pipeline.tenantId pipeline.key)) =
      pipeline.table.current n := by
  rw [h]
  exact previousSnapshot_sparkState pipeline.formatting pipeline.table n

/-- **An answer to a submission** leads to a phase that holds: what it reads of the state was
stored, what it reads of the catalog is current, and what it creates is about both. -/
theorem phaseHolds_of_answers (hsound : Sound pipeline s) {phase : SubmitPhase}
    (hallows : SubmitPhase.allows pipeline phase request) (hholds : PhaseHolds pipeline s i phase)
    (h : Answers pipeline i s request reply s') :
    PhaseHolds pipeline s' i (SubmitPhase.next pipeline phase request reply) := by
  have hgrows := (answered_of_answers h).grows
  cases phase with
  | idle =>
    cases request with
    | selectState tenantId connectionId =>
      obtain ⟨rfl, rfl⟩ := hallows
      obtain ⟨rfl, hstate⟩ := h
      rcases reply with err | state
      · exact ⟨0, Nat.zero_le _, pipeline.table.current_zero.symm, coveredTo_zero⟩
      · obtain ⟨n, hn, hstored, hcovered⟩ := hsound.stored
        obtain rfl := hstate state rfl
        exact ⟨n, hn, previousSnapshot_of_storedAt hstored, hcovered⟩
    | _ => exact hallows.elim
  | selected previous =>
    cases request with
    | credential id => exact hholds.mono hgrows
    | connect id config =>
      obtain rfl : config = pipeline.source.config := hallows
      obtain ⟨rfl, hcurrent⟩ := h
      rcases reply with err | current
      · exact hholds
      · obtain ⟨a, ha, hprevious, hcovered⟩ := hholds
        exact ⟨a, s'.now, hprevious, hcurrent rfl current rfl, ha, le_rfl, hcovered⟩
    | _ => exact hallows.elim
  | resolved previous current =>
    cases request with
    | credential id | connect id config => exact hholds.mono hgrows
    | createApplication application =>
      rcases reply with err | _
      · exact hholds.mono hgrows
      · have hview : sourceSQL pipeline.source previous current = .ok application.view :=
          hallows
        obtain ⟨hnone, rfl⟩ := h
        obtain ⟨a, b, rfl, rfl, hle, hnow, hcovered⟩ := hholds
        refine ⟨a, b, rfl, rfl, hle, hnow, hcovered.mono hgrows, ⟨application.view, none⟩, ?_,
          hview, nofun⟩
        rw [SparkSystem.setApplication]
        exact update_self ..
    | _ => exact hallows.elim
  | created previous current =>
    cases request with
    | _ => exact hallows.elim

/-- An attempt at a submission that is answered. -/
theorem submitHolds_of_answers (hsound : Sound pipeline s)
    {resume : ActivityReply request → Unit → ActivityProgram (Except String SparkJobRef)}
    (hpending : s.submits i k = some (.await request resume))
    (h : Answers pipeline i s request reply s') : SubmitHolds pipeline s' i (resume reply ()) := by
  obtain ⟨phase, hfollows, hholds⟩ := hsound.submits i k _ hpending
  exact ⟨_, hfollows.2 reply () trivial, phaseHolds_of_answers hsound hfollows.1 hholds h⟩

/-- A submission does not store a state. -/
theorem state_of_submission (hsound : Sound pipeline s)
    {resume : ActivityReply request → Unit → ActivityProgram (Except String SparkJobRef)}
    (hpending : s.submits i k = some (.await request resume))
    (h : Answers pipeline i s request reply s') : s'.state = s.state := by
  refine state_of_answers h ?_
  rintro tenantId connectionId cursor rfl
  obtain ⟨phase, hfollows, -⟩ := hsound.submits i k _ hpending
  cases phase with
  | _ => exact hfollows.1.elim

/-! ### Commits -/

/-- A commit that has stored its snapshot has succeeded. -/
theorem done_of_stored {snapshot : String}
    (h : (CommitPhase.protocol pipeline snapshot).Follows (CommitPhase.Ends snapshot) .stored program) :
    program = .done (.ok ()) := by
  cases program with
  | done value => exact congrArg _ h
  | await request resume => exact h.1.elim

/-- **An answer to a commit**: it goes on before its snapshot is stored, or it has stored it, and has
succeeded unless the reply says otherwise. -/
theorem commit_answer_cases
    {resume : ActivityReply request → Unit → ActivityProgram (Except String Unit)}
    (hholds : CommitHolds pipeline s i (.await request resume))
    (h : Answers pipeline i s request reply s') :
    (s'.state = s.state ∧ (CommitPhase.protocol pipeline (s.run i).ref.inputSnapshot).Follows
        (CommitPhase.Ends (s.run i).ref.inputSnapshot) .idle (resume reply ())) ∨
      (s'.state = s.state.write pipeline.tenantId pipeline.key
          (sparkState (s.run i).ref.inputSnapshot) ∧ (s.run i).ref.inputSnapshot ≠ "" ∧
        (resume reply () = .done (.ok ()) ∨
          (CommitPhase.protocol pipeline (s.run i).ref.inputSnapshot).Follows
            (CommitPhase.Ends (s.run i).ref.inputSnapshot) .idle (resume reply ()))) := by
  obtain ⟨phase, hallows, hnext⟩ := hholds.follows
  have hfollows := hnext reply () trivial
  cases phase with
  | stored => exact hallows.elim
  | idle =>
    cases request with
    | credential id | connect id config => exact .inl ⟨state_of_answers h nofun, hfollows⟩
    | upsertState tenantId connectionId cursor =>
      obtain ⟨rfl, rfl, rfl, hne⟩ := hallows
      rcases reply with err | _
      · rcases h with rfl | rfl
        · exact .inl ⟨rfl, hfollows⟩
        · exact .inr ⟨rfl, hne, .inr hfollows⟩
      · obtain rfl := h
        exact .inr ⟨rfl, hne, .inl (done_of_stored hfollows)⟩
    | _ => exact hallows.elim

/-- What is stored for the `b`-th snapshot. -/
theorem storedAt_write {b : ℕ} (hb : pipeline.table.current b ≠ "") (h : s'.state = s.state.write
    pipeline.tenantId pipeline.key (sparkState (pipeline.table.current b))) :
    StoredAt pipeline s' b := by
  have hne : b ≠ 0 := by
    rintro rfl
    exact hb pipeline.table.current_zero
  rw [StoredAt, if_neg hne, h]
  exact ConnectorState.write_self ..

/-- What an application has read of the rows between its snapshots: all of them. -/
theorem Submitted.inInput {a b : ℕ} (h : Submitted pipeline s i a b) (hread : HasRead s i) {row : ρ}
    (hlt : a < pipeline.table.added row) (hle : pipeline.table.added row ≤ b) :
    InInput pipeline s i row := by
  obtain ⟨application, hcreated, hview, hreadAt⟩ := h.created
  obtain ⟨application', m, hcreated', hm⟩ := hread
  rw [hcreated] at hcreated'
  cases hcreated'
  exact ⟨application, m, hcreated, hm, mem_rows hview (hreadAt m hm) ⟨hlt, hle⟩⟩

/-- Where a run has submitted, has read and has come to its commit, the rows up to its snapshot are
covered. -/
theorem Submitted.coveredTo {a b : ℕ} (h : Submitted pipeline s i a b) (hread : HasRead s i)
    (hbegan : Began s i) : CoveredTo pipeline s b := by
  intro row hrow
  rcases lt_or_ge a (pipeline.table.added row) with hlt | hge
  · exact ⟨i, hbegan, h.inInput hread hlt hrow⟩
  · exact h.covered row hge

/-! ### Workflows -/

/-- Where a run has come to its end, or marks its execution. -/
def Closing (point : SparkPoint) : Prop :=
  ∃ outcome, point = .marking outcome ∨ point = .returned outcome

/-- **What a step of a workflow can do**: it takes a signal; it gets its reference; it polls and
waits; it goes on to commit a completed application; or it closes. -/
theorem sparkStep_cases {run run' : SparkState} {event : SparkEvent}
    (h : sparkStep input run event = some run') :
    (run'.ref = run.ref ∧ run'.point = run.point) ∨
      (∃ ref, run.point = .submitting ∧ event = .submitted (.ok ref) ∧ ref.noop = false ∧
        run'.ref = ref ∧ run'.point = .polling) ∨
      (run'.ref = run.ref ∧ (run.point = .polling ∨ run.point = .selecting) ∧
        (run'.point = .polling ∨ run'.point = .selecting ∨ run'.point = .cancelling)) ∨
      (∃ status, run'.ref = run.ref ∧ run.point = .polling ∧ event = .status (.ok status) ∧
        status.state = "COMPLETED" ∧ run'.point = .committing) ∨
      (run'.ref = run.ref ∧ Closing run'.point) := by
  unfold sparkStep at h
  split at h
  · cases h
  · cases h
    exact .inl ⟨rfl, rfl⟩
  · cases h
    exact .inr (.inr (.inr (.inr ⟨rfl, _, .inr rfl⟩)))
  · rename_i ref hpoint
    cases h
    split_ifs with hnoop
    · exact .inr (.inr (.inr (.inr ⟨rfl, _, .inl rfl⟩)))
    · exact .inr (.inl ⟨ref, hpoint, rfl, Bool.not_eq_true _ ▸ hnoop, rfl, rfl⟩)
  · cases h
    exact .inr (.inr (.inr (.inr ⟨rfl, _, .inr rfl⟩)))
  · rename_i status hpoint
    cases h
    unfold SparkState.afterStatus
    split_ifs with hcompleted hfailed
    · exact .inr (.inr (.inr (.inl ⟨status, rfl, hpoint, rfl, hcompleted, rfl⟩)))
    · exact .inr (.inr (.inr (.inr ⟨rfl, _, .inl rfl⟩)))
    · exact .inr (.inr (.inl ⟨rfl, .inl hpoint, .inr (.inl rfl)⟩))
  · rename_i hpoint
    cases h
    unfold SparkState.select
    dsimp only
    split_ifs
    · exact .inr (.inr (.inl ⟨rfl, .inr hpoint, .inr (.inr rfl)⟩))
    · exact .inr (.inr (.inl ⟨rfl, .inr hpoint, .inl rfl⟩))
    · exact .inr (.inr (.inl ⟨rfl, .inr hpoint, .inr (.inr rfl)⟩))
    · exact .inr (.inr (.inl ⟨rfl, .inr hpoint, .inl rfl⟩))
  · cases h
    exact .inr (.inr (.inr (.inr ⟨rfl, _, .inr rfl⟩)))
  · cases h
    exact .inr (.inr (.inr (.inr ⟨rfl, _, .inl rfl⟩)))
  · cases h
    exact .inr (.inr (.inr (.inr ⟨rfl, _, .inl rfl⟩)))
  · cases h
    exact .inr (.inr (.inr (.inr ⟨rfl, _, .inr rfl⟩)))
  · cases h

/-- What holds while a run polls or waits. -/
theorem pointHolds_iff_ref
    (h : run.point = .polling ∨ run.point = .selecting ∨ run.point = .cancelling) :
    PointHolds pipeline s i run ↔ RefHolds pipeline s i run.ref := by
  unfold PointHolds
  rcases h with h | h | h
  · rw [h]
  · rw [h]
  · rw [h]

theorem pointHolds_of_closing (h : Closing run.point) : PointHolds pipeline s i run := by
  unfold PointHolds
  obtain ⟨outcome, h | h⟩ := h
  · rw [h]
    trivial
  · rw [h]
    trivial

/-- **A step of a workflow** leads to a point that holds. -/
theorem pointHolds_of_step (hsound : Sound pipeline s) {event : SparkEvent}
    (hdelivers : Delivers s i event)
    (hstep : sparkStep (pipeline.input i) (s.run i) event = some run) :
    PointHolds pipeline s i run := by
  have hholds := hsound.points i
  rcases sparkStep_cases hstep with ⟨href, hpoint⟩ | ⟨ref, -, rfl, hnoop, href, hpoint⟩ |
    ⟨href, hbefore, hafter⟩ | ⟨status, href, hbefore, rfl, hcompleted, hpoint⟩ | ⟨-, hclosing⟩
  · unfold PointHolds at hholds ⊢
    rwa [href, hpoint]
  · obtain ⟨k, hdone⟩ := hdelivers
    obtain ⟨phase, hends, hphase⟩ := hsound.submits i k _ hdone
    obtain ⟨hkey, previous, rfl⟩ := hends ref rfl hnoop
    obtain ⟨a, b, -, hcurrent, hsubmitted⟩ := hphase
    rw [pointHolds_iff_ref (.inl hpoint), href]
    exact ⟨hkey, a, b, hcurrent, hsubmitted⟩
  · rw [pointHolds_iff_ref hafter, href]
    refine (pointHolds_iff_ref ?_).mp hholds
    rcases hbefore with hbefore | hbefore
    · exact .inl hbefore
    · exact .inr (.inl hbefore)
  · unfold PointHolds
    rw [hpoint, href]
    exact ⟨(pointHolds_iff_ref (.inl hbefore)).mp hholds, hdelivers hcompleted⟩
  · exact pointHolds_of_closing hclosing

/-- A run that has submitted keeps its reference, and does not submit again. -/
theorem ref_of_step {run run' : SparkState} {event : SparkEvent}
    (h : sparkStep input run event = some run') (hpoint : run.point ≠ .submitting) :
    run'.ref = run.ref ∧ run'.point ≠ .submitting := by
  rcases sparkStep_cases h with ⟨href, hsame⟩ | ⟨ref, hsubmitting, -⟩ | ⟨href, -, hafter⟩ |
    ⟨status, href, -, -, -, hafter⟩ | ⟨href, outcome, hafter⟩
  · exact ⟨href, hsame ▸ hpoint⟩
  · exact absurd hsubmitting hpoint
  · refine ⟨href, ?_⟩
    rcases hafter with hafter | hafter | hafter
    · rw [hafter]
      nofun
    · rw [hafter]
      nofun
    · rw [hafter]
      nofun
  · exact ⟨href, hafter ▸ nofun⟩
  · refine ⟨href, ?_⟩
    rcases hafter with hafter | hafter
    · rw [hafter]
      nofun
    · rw [hafter]
      nofun

/-! ### Soundness -/

/-- What is stored, where the state stays. -/
theorem Sound.stored_of_state (h : Sound pipeline s) (hgrows : Grows s s')
    (hstate : s'.state = s.state) :
    ∃ n ≤ s'.now, StoredAt pipeline s' n ∧ CoveredTo pipeline s' n := by
  obtain ⟨n, hn, hstored, hcovered⟩ := h.stored
  refine ⟨n, hn.trans hgrows.now, ?_, hcovered.mono hgrows⟩
  rw [StoredAt, hstate]
  exact hstored

/-- **Soundness is kept** where the workflows stay, and the attempts that go on keep to it. -/
theorem Sound.of_attempts (h : Sound pipeline s) (hgrows : Grows s s')
    (hstored : ∃ n ≤ s'.now, StoredAt pipeline s' n ∧ CoveredTo pipeline s' n)
    (hrun : s'.run = s.run) (hsubmits : ∀ i k program, s'.submits i k = some program →
      SubmitHolds pipeline s' i program ∨ s.submits i k = some program)
    (hcommits : ∀ i k program, s'.commits i k = some program →
      CommitHolds pipeline s' i program ∨ s.commits i k = some program) : Sound pipeline s' := by
  refine ⟨hstored, ?_, ?_, ?_⟩
  · intro i k program hprogram
    rcases hsubmits i k program hprogram with hholds | hbefore
    · exact hholds
    · exact (h.submits i k program hbefore).mono hgrows
  · intro i
    rw [hrun]
    exact (h.points i).mono hgrows
  · intro i k program hprogram
    rcases hcommits i k program hprogram with hholds | hbefore
    · exact hholds
    · have hcommit := h.commits i k program hbefore
      exact hcommit.mono hgrows (by rw [hrun]) (by rw [hrun]; exact hcommit.submitted)

/-- **The step lemma.** -/
theorem Sound.step (h : Sound pipeline s) (hstep : Step pipeline s s') : Sound pipeline s' := by
  have hgrows := grows_of_step hstep
  cases hstep with
  | append =>
    exact h.of_attempts hgrows (h.stored_of_state hgrows rfl) rfl (fun _ _ _ h => .inr h)
      fun _ _ _ h => .inr h
  | @beginSubmit i k point unused =>
    refine h.of_attempts hgrows (h.stored_of_state hgrows rfl) rfl ?_ fun _ _ _ h => .inr h
    intro j l program hprogram
    rcases submits_setSubmit hprogram with ⟨rfl, rfl⟩ | hbefore
    · exact .inl ⟨.idle, follows_submitSparkJob pipeline j, trivial⟩
    · exact .inr hbefore
  | @answerSubmit s₁ i k request resume reply pending answer =>
    have hanswered := answered_of_answers answer
    have hstate : s₁.state = s.state := state_of_submission h pending answer
    refine h.of_attempts hgrows (h.stored_of_state hgrows hstate) hanswered.run ?_ ?_
    · intro j l program hprogram
      rcases submits_setSubmit hprogram with ⟨rfl, rfl⟩ | hbefore
      · exact .inl ((submitHolds_of_answers h pending answer).mono (grows_setSubmit _))
      · exact .inr (hanswered.submits ▸ hbefore)
    · intro j l program hprogram
      exact .inr (hanswered.commits ▸ hprogram)
  | @beginCommit i k point unused =>
    refine h.of_attempts hgrows (h.stored_of_state hgrows rfl) rfl (fun _ _ _ h => .inr h) ?_
    intro j l program hprogram
    rcases commits_setCommit hprogram with ⟨rfl, rfl⟩ | hbefore
    · have hpoint := h.points j
      rw [PointHolds, point] at hpoint
      refine .inl ⟨hpoint.1.mono hgrows, hpoint.2.mono hgrows, ?_, .idle,
        follows_commitSparkJob hpoint.1.1⟩
      show (s.run j).point ≠ .submitting
      rw [point]
      nofun
    · exact .inr hbefore
  | @answerCommit s₁ i k request resume reply pending answer =>
    have hanswered := answered_of_answers answer
    have hcommit := h.commits i k _ pending
    have hrun : ((s₁.setCommit i k (resume reply ())).run i) = s.run i := congrFun hanswered.run i
    have hholds : ∀ phase, (CommitPhase.protocol pipeline (s.run i).ref.inputSnapshot).Follows
        (CommitPhase.Ends (s.run i).ref.inputSnapshot) phase (resume reply ()) →
          CommitHolds pipeline (s₁.setCommit i k (resume reply ())) i (resume reply ()) := by
      intro phase hfollows
      refine ⟨?_, hcommit.read.mono hgrows, ?_, phase, ?_⟩
      · rw [hrun]
        exact hcommit.ref.mono hgrows
      · rw [hrun]
        exact hcommit.submitted
      · rw [hrun]
        exact hfollows
    have hprograms : CommitHolds pipeline (s₁.setCommit i k (resume reply ())) i (resume reply ()) →
        ∀ j l program, (s₁.setCommit i k (resume reply ())).commits j l = some program →
          CommitHolds pipeline (s₁.setCommit i k (resume reply ())) j program ∨
            s.commits j l = some program := by
      intro hnew j l program hprogram
      rcases commits_setCommit hprogram with ⟨rfl, rfl⟩ | hbefore
      · exact .inl hnew
      · exact .inr (hanswered.commits ▸ hbefore)
    rcases commit_answer_cases hcommit answer with ⟨hstate, hfollows⟩ | ⟨hstate, hne, hends⟩
    · exact h.of_attempts hgrows (h.stored_of_state hgrows hstate) hanswered.run
        (fun _ _ _ h => .inr (hanswered.submits ▸ h)) (hprograms (hholds _ hfollows))
    · have hstored : ∃ n ≤ (s₁.setCommit i k (resume reply ())).now,
          StoredAt pipeline (s₁.setCommit i k (resume reply ())) n ∧
            CoveredTo pipeline (s₁.setCommit i k (resume reply ())) n := by
        obtain ⟨-, a, b, hcurrent, hsubmitted⟩ := hcommit.ref.mono hgrows
        rw [hcurrent] at hstate hne
        refine ⟨b, hsubmitted.le_now, storedAt_write hne hstate, ?_⟩
        refine hsubmitted.coveredTo (hcommit.read.mono hgrows) ⟨k, resume reply (), ?_⟩
        rw [SparkSystem.setCommit]
        dsimp only
        rw [update_self, update_self]
      have hnew : CommitHolds pipeline (s₁.setCommit i k (resume reply ())) i (resume reply ()) := by
        rcases hends with hdone | hfollows
        · exact hholds .stored (hdone ▸ rfl)
        · exact hholds _ hfollows
      exact h.of_attempts hgrows hstored hanswered.run
        (fun _ _ _ h => .inr (hanswered.submits ▸ h)) (hprograms hnew)
  | @read i application created unread =>
    exact h.of_attempts hgrows (h.stored_of_state hgrows rfl) rfl (fun _ _ _ h => .inr h)
      fun _ _ _ h => .inr h
  | @workflow i event run delivers step =>
    refine ⟨h.stored_of_state hgrows rfl, fun j k program hprogram =>
      (h.submits j k program hprogram).mono hgrows, ?_, ?_⟩
    · intro j
      rw [SparkSystem.setRun]
      dsimp only
      by_cases hj : j = i
      · subst hj
        rw [update_self]
        exact (pointHolds_of_step h delivers step).mono hgrows
      · rw [update_of_ne hj]
        exact (h.points j).mono hgrows
    · intro j k program hprogram
      have hcommit := h.commits j k program hprogram
      by_cases hj : j = i
      · subst hj
        have hrun : (s.setRun j run).run j = run := update_self ..
        obtain ⟨href, hpoint⟩ := ref_of_step step hcommit.submitted
        exact hcommit.mono hgrows (by rw [hrun, href]) (by rwa [hrun])
      · have hrun : (s.setRun i run).run j = s.run j := update_of_ne hj ..
        exact hcommit.mono hgrows (by rw [hrun]) (by rw [hrun]; exact hcommit.submitted)

/-- **The run lemma**: it holds in every state reached. -/
theorem sound_of_reaches {s₀ : SparkSystem ι} (hstarts : Starts pipeline s₀)
    (h : ReflTransGen (Step pipeline) s₀ s) : Sound pipeline s := by
  induction h with
  | refl => exact sound_of_starts hstarts
  | tail _ hstep ih => exact ih.step hstep

/-- **Every row up to the stored snapshot is in the input of a run that has come to its commit**, in
every state reached, whatever the runs do. The run may not have succeeded: the reply to the statement
that has stored the snapshot may be lost. -/
theorem covered_of_reaches {s₀ : SparkSystem ι} (hstarts : Starts pipeline s₀)
    (h : ReflTransGen (Step pipeline) s₀ s) :
    ∃ n, StoredAt pipeline s n ∧ CoveredTo pipeline s n := by
  obtain ⟨n, -, hstored, hcovered⟩ := (sound_of_reaches hstarts h).stored
  exact ⟨n, hstored, hcovered⟩

end steps

/-! ## Undisturbed commits -/

section undisturbed

variable {ι ρ : Type} [DecidableEq ι] (pipeline : SparkPipeline ι ρ)

/-- **A run commits alone**: if its application has read the whole table, no snapshot had been
appended since its submission asked for the current one; and if it stores its snapshot, the stored
one is still that which its submission has read, or it is its own already. -/
structure CommitsAlone (s : SparkSystem ι) (i : ι) : Prop where
  found : ∀ application m namespaceName table, s.application i = some application →
    application.readAt = some m → application.view = .whole namespaceName table →
      (s.run i).ref.inputSnapshot = pipeline.table.current m
  stored : (s.run i).ref.inputSnapshot ≠ "" → (∀ application, s.application i = some application →
        previousSnapshot pipeline.formatting (.ok (s.state pipeline.tenantId pipeline.key)) =
          startsFrom application.view) ∨
      (Committed s i ∧ s.state pipeline.tenantId pipeline.key =
        some (sparkState (s.run i).ref.inputSnapshot))

/-- An attempt at a commit succeeds in a step. -/
def Succeeds (s s' : SparkSystem ι) (i : ι) (k : ℕ) : Prop :=
  s'.commits i k = some (.done (.ok ())) ∧ s.commits i k ≠ some (.done (.ok ()))

/-- **A step is undisturbed**: whenever an attempt at a commit succeeds its run commits alone, and a
state that is stored is replied to, so that the attempt succeeds. -/
structure Undisturbed (s s' : SparkSystem ι) : Prop where
  alone : ∀ i k, Succeeds s s' i k → CommitsAlone pipeline s i
  replied : s'.state ≠ s.state → ∃ i k, Succeeds s s' i k

/-- An undisturbed step of the system. -/
def UndisturbedStep (s s' : SparkSystem ι) : Prop := Step pipeline s s' ∧ Undisturbed pipeline s s'

variable {pipeline} {s s' : SparkSystem ι} {i j : ι} {k n n' : ℕ}

/-- One snapshot is stored. -/
theorem storedAt_unique (h : StoredAt pipeline s n) (h' : StoredAt pipeline s n') : n = n' := by
  have hread := previousSnapshot_of_storedAt h
  rw [previousSnapshot_of_storedAt h'] at hread
  exact pipeline.table.current_injective hread.symm

/-- A run that has committed has read its view. -/
theorem Sound.hasRead (h : Sound pipeline s) (hcommitted : Committed s i) : HasRead s i := by
  obtain ⟨k, hdone⟩ := hcommitted
  exact (h.commits i k _ hdone).read

/-- What the end of a commit has done: it has stored the snapshot of its run, if there is one. -/
structure CommitEnds (pipeline : SparkPipeline ι ρ) (s s' : SparkSystem ι) (i : ι) : Prop where
  ref : RefHolds pipeline s i (s.run i).ref
  read : HasRead s i
  state : (s'.state = s.state ∧ (s.run i).ref.inputSnapshot = "") ∨
    (s'.state = s.state.write pipeline.tenantId pipeline.key
      (sparkState (s.run i).ref.inputSnapshot) ∧ (s.run i).ref.inputSnapshot ≠ "")

/-- Which runs have committed after one attempt has gone on. -/
theorem committed_cases (h : Committed (s.setCommit i k program) j) :
    (j = i ∧ program = .done (.ok ())) ∨ Committed s j := by
  obtain ⟨l, hdone⟩ := h
  rcases commits_setCommit hdone with ⟨rfl, heq⟩ | hbefore
  · exact .inl ⟨rfl, heq.symm⟩
  · exact .inr ⟨l, hbefore⟩

/-- **A step ends a commit**, or it leaves the stored state and the committed runs as they are. -/
theorem step_commit_cases (hsound : Sound pipeline s) (hstep : Step pipeline s s')
    (hreplied : s'.state ≠ s.state → ∃ i k, Succeeds s s' i k) :
    (s'.state = s.state ∧ ∀ j, Committed s' j → Committed s j) ∨
      ∃ i k, Succeeds s s' i k ∧
        (∀ j, Committed s' j → j = i ∨ Committed s j) ∧ CommitEnds pipeline s s' i := by
  cases hstep with
  | append | beginSubmit point unused => exact .inl ⟨rfl, fun _ h => h⟩
  | @answerSubmit s₁ i k request resume reply pending answer =>
    have hstate : s₁.state = s.state := state_of_submission hsound pending answer
    refine .inl ⟨hstate, ?_⟩
    rintro j ⟨l, hdone⟩
    exact ⟨l, (answered_of_answers answer).commits ▸ hdone⟩
  | @beginCommit i k point unused =>
    by_cases hdone : pipeline.commit (s.run i).ref = .done (.ok ())
    · refine .inr ⟨i, k, ⟨?_, ?_⟩, ?_, ?_⟩
      · rw [SparkSystem.setCommit, hdone]
        dsimp only
        rw [update_self, update_self]
      · rw [unused]
        nofun
      · intro j h
        exact (committed_cases h).imp_left And.left
      · have hpoint := hsound.points i
        rw [PointHolds, point] at hpoint
        have hends := follows_commitSparkJob hpoint.1.1
        rw [hdone] at hends
        exact ⟨hpoint.1, hpoint.2, .inl ⟨rfl, hends rfl⟩⟩
    · refine .inl ⟨rfl, fun j h => ?_⟩
      exact (committed_cases h).resolve_left fun h => hdone h.2
  | @answerCommit s₁ i k request resume reply pending answer =>
    have hanswered := answered_of_answers answer
    have hcommit := hsound.commits i k _ pending
    have hbefore : ∀ j, Committed s₁ j → Committed s j := by
      rintro j ⟨l, hdone⟩
      exact ⟨l, hanswered.commits ▸ hdone⟩
    have hcases := commit_answer_cases hcommit answer
    by_cases hdone : resume reply () = .done (.ok ())
    · refine .inr ⟨i, k, ⟨?_, ?_⟩, ?_, hcommit.ref, hcommit.read, ?_⟩
      · rw [SparkSystem.setCommit, hdone]
        dsimp only
        rw [update_self, update_self]
      · rw [pending]
        nofun
      · intro j h
        exact (committed_cases h).imp And.left (hbefore j)
      · refine hcases.imp (fun h => ⟨h.1, ?_⟩) fun h => ⟨h.1, h.2.1⟩
        have hends := h.2
        rw [hdone] at hends
        exact hends rfl
    · refine .inl ⟨?_, fun j h => ?_⟩
      · by_contra hstate
        obtain ⟨j, l, hnow, hnot⟩ := hreplied hstate
        rcases commits_setCommit hnow with ⟨-, heq⟩ | hbefore
        · exact hdone heq.symm
        · exact hnot (hanswered.commits ▸ hbefore)
      · exact hbefore j ((committed_cases h).resolve_left fun h => hdone h.2)
  | read created unread | workflow delivers step => exact .inl ⟨rfl, fun _ h => h⟩

/-- **The ledger**: the committed runs have taken the rows of ranges that do not overlap, none of
them beyond the stored snapshot, and all rows up to it. -/
structure Ledger (pipeline : SparkPipeline ι ρ) (s : SparkSystem ι) (range : ι → ℕ × ℕ) : Prop where
  stored : ∀ n, StoredAt pipeline s n → ∀ i, Committed s i → (range i).2 ≤ n
  took : ∀ i row, Committed s i → InInput pipeline s i row →
    (range i).1 < pipeline.table.added row ∧ pipeline.table.added row ≤ (range i).2
  apart : ∀ i j, i ≠ j → Committed s i → Committed s j →
    (range i).2 ≤ (range j).1 ∨ (range j).2 ≤ (range i).1
  covered : ∀ n, StoredAt pipeline s n → ∀ row, pipeline.table.added row ≤ n →
    ∃ i, Committed s i ∧ InInput pipeline s i row

/-- **Ranges that do not overlap** share no row. -/
theorem Ledger.once {range : ι → ℕ × ℕ} (h : Ledger pipeline s range) : Once pipeline s := by
  intro row i j hi hj hrow hrow'
  by_contra hne
  obtain ⟨hlow, hhigh⟩ := h.took i row hi hrow
  obtain ⟨hlow', hhigh'⟩ := h.took j row hj hrow'
  rcases h.apart i j hne hi hj with hle | hle
  · omega
  · omega

/-- The ledger stays where no run has newly committed. -/
theorem Ledger.of_committed {range : ι → ℕ × ℕ} (h : Ledger pipeline s range)
    (hsound : Sound pipeline s) (hgrows : Grows s s')
    (hcommitted : ∀ j, Committed s' j → Committed s j) (hstored : NotBack pipeline s s')
    (hcovered : ∀ n, StoredAt pipeline s' n → ∀ row, pipeline.table.added row ≤ n →
      ∃ i, Committed s' i ∧ InInput pipeline s' i row) :
    Ledger pipeline s' range := by
  obtain ⟨n, -, hn, -⟩ := hsound.stored
  refine ⟨fun n' hn' i hi => ?_, fun i row hi hrow => ?_, fun i j hne hi hj => ?_, hcovered⟩
  · exact (h.stored n hn i (hcommitted i hi)).trans (hstored n n' hn hn')
  · have hbefore := hcommitted i hi
    exact h.took i row hbefore (hrow.of_grows (hsound.hasRead hbefore) hgrows)
  · exact h.apart i j hne (hcommitted i hi) (hcommitted j hj)

/-- **A run that commits alone** has taken what is between two snapshots, and the earlier one is
stored if the run stores the later one. -/
theorem CommitsAlone.range (halone : CommitsAlone pipeline s i)
    (hends : CommitEnds pipeline s s' i) :
    ∃ a b, a ≤ b ∧ (s.run i).ref.inputSnapshot = pipeline.table.current b ∧
      (∀ row, InInput pipeline s i row ↔
        a < pipeline.table.added row ∧ pipeline.table.added row ≤ b) ∧
      (b ≠ 0 → ∀ n, StoredAt pipeline s n → n = a ∨ (Committed s i ∧ n = b)) := by
  obtain ⟨-, a, b, hcurrent, hsubmitted⟩ := hends.ref
  obtain ⟨application, hcreated, hview, -⟩ := hsubmitted.created
  refine ⟨a, b, hsubmitted.le, hcurrent, ?_, ?_⟩
  · refine fun row => ⟨?_, fun hbetween => hsubmitted.inInput hends.read hbetween.1 hbetween.2⟩
    rintro ⟨application', m, hcreated', hreadAt, hrow⟩
    rw [hcreated] at hcreated'
    cases hcreated'
    refine between_of_mem_rows hview hsubmitted.le (fun namespaceName table hwhole => ?_) hrow
    have hfound := halone.found application m namespaceName table hcreated hreadAt hwhole
    exact pipeline.table.current_injective (hfound.symm.trans hcurrent)
  · intro hb n hn
    have hne : (s.run i).ref.inputSnapshot ≠ "" := by
      rw [hcurrent]
      exact fun hempty => hb (pipeline.table.current_eq_empty.mp hempty)
    rcases halone.stored hne with hprevious | ⟨hcommitted, hown⟩
    · have hfrom := hprevious application hcreated
      rw [previousSnapshot_of_storedAt hn, startsFrom_view hview hsubmitted.le] at hfrom
      exact .inl (pipeline.table.current_injective hfrom)
    · refine .inr ⟨hcommitted, storedAt_unique hn ?_⟩
      rw [StoredAt, if_neg hb, hown, hcurrent]

/-- **The step lemma of the ledger.** -/
theorem Ledger.step {range : ι → ℕ × ℕ} (h : Ledger pipeline s range) (hsound : Sound pipeline s)
    (hstep : Step pipeline s s') (hundisturbed : Undisturbed pipeline s s') :
    NotBack pipeline s s' ∧ ∃ range', Ledger pipeline s' range' := by
  have hgrows := grows_of_step hstep
  have hkept : ∀ n, StoredAt pipeline s n → ∀ row, pipeline.table.added row ≤ n →
      ∃ i, Committed s' i ∧ InInput pipeline s' i row := by
    intro n hn row hrow
    obtain ⟨i, hcommitted, hinput⟩ := h.covered n hn row hrow
    exact ⟨i, hgrows.committed i hcommitted, hinput.mono hgrows⟩
  rcases step_commit_cases hsound hstep hundisturbed.replied with
    ⟨hstate, hcommitted⟩ | ⟨i, k, hnow, hothers, hends⟩
  · have hnotBack : NotBack pipeline s s' := by
      intro n n' hn hn'
      rw [StoredAt, hstate] at hn'
      exact (storedAt_unique hn hn').le
    refine ⟨hnotBack, range, h.of_committed hsound hgrows hcommitted hnotBack ?_⟩
    intro n hn
    rw [StoredAt, hstate] at hn
    exact hkept n hn
  · obtain ⟨a, b, hle, hcurrent, htook, hrange⟩ := (hundisturbed.alone i k hnow).range hends
    have hzero : (s.run i).ref.inputSnapshot = "" ↔ b = 0 := by
      rw [hcurrent, pipeline.table.current_eq_empty]
    have hnotBack : NotBack pipeline s s' ∧ (b ≠ 0 → StoredAt pipeline s' b) := by
      rcases hends.state with ⟨hstate, hempty⟩ | ⟨hstate, hne⟩
      · refine ⟨fun n n' hn hn' => ?_, fun hb => absurd (hzero.mp hempty) hb⟩
        rw [StoredAt, hstate] at hn'
        exact (storedAt_unique hn hn').le
      · rw [hcurrent] at hstate hne
        have hstored := storedAt_write hne hstate
        refine ⟨fun n n' hn hn' => ?_, fun _ => hstored⟩
        obtain rfl := storedAt_unique hn' hstored
        rcases hrange (fun hb => hne (hb ▸ pipeline.table.current_zero)) n hn with rfl | ⟨-, rfl⟩
        · exact hle
        · exact le_rfl
    obtain ⟨hnotBack, hstored'⟩ := hnotBack
    refine ⟨hnotBack, ?_⟩
    have hcovered : ∀ n, StoredAt pipeline s' n → ∀ row, pipeline.table.added row ≤ n →
        ∃ i, Committed s' i ∧ InInput pipeline s' i row := by
      intro n' hn' row hrow
      by_cases hb : b = 0
      · rcases hends.state with ⟨hstate, -⟩ | ⟨-, hne⟩
        · rw [StoredAt, hstate] at hn'
          exact hkept n' hn' row hrow
        · exact absurd (hzero.mpr hb) hne
      · obtain rfl := storedAt_unique hn' (hstored' hb)
        obtain ⟨n, -, hn, -⟩ := hsound.stored
        rcases hrange hb n hn with rfl | ⟨-, rfl⟩
        · rcases lt_or_ge n (pipeline.table.added row) with hlt | hge
          · exact ⟨i, ⟨k, hnow.1⟩, ((htook row).mpr ⟨hlt, hrow⟩).mono hgrows⟩
          · exact hkept n hn row hge
        · exact hkept _ hn row hrow
    by_cases halready : Committed s i
    · refine ⟨range, h.of_committed hsound hgrows (fun j hj => ?_) hnotBack hcovered⟩
      rcases hothers j hj with rfl | hj
      · exact halready
      · exact hj
    · obtain ⟨n, -, hn, -⟩ := hsound.stored
      have hfar : ∀ j, Committed s j → (range j).2 ≤ a ∨ b = 0 := by
        intro j hj
        by_cases hb : b = 0
        · exact .inr hb
        · rcases hrange hb n hn with rfl | ⟨hcommitted, -⟩
          · exact .inl (h.stored n hn j hj)
          · exact absurd hcommitted halready
      refine ⟨update range i (a, b), ?_, ?_, ?_, hcovered⟩
      · intro n' hn' j hj
        by_cases hji : j = i
        · subst hji
          rw [update_self]
          by_cases hb : b = 0
          · exact hb ▸ Nat.zero_le n'
          · exact (storedAt_unique (hstored' hb) hn').le
        · rw [update_of_ne hji]
          exact (h.stored n hn j ((hothers j hj).resolve_left hji)).trans (hnotBack n n' hn hn')
      · intro j row hj hrow
        by_cases hji : j = i
        · subst hji
          rw [update_self]
          exact (htook row).mp (hrow.of_grows hends.read hgrows)
        · have hjs := (hothers j hj).resolve_left hji
          rw [update_of_ne hji]
          exact h.took j row hjs (hrow.of_grows (hsound.hasRead hjs) hgrows)
      · intro j l hne hj hl
        by_cases hji : j = i
        · subst hji
          have hls := (hothers l hl).resolve_left hne.symm
          rw [update_self, update_of_ne hne.symm]
          rcases hfar l hls with hfar | rfl
          · exact .inr hfar
          · exact .inl (Nat.zero_le _)
        · have hjs := (hothers j hj).resolve_left hji
          rw [update_of_ne hji]
          by_cases hli : l = i
          · subst hli
            rw [update_self]
            rcases hfar j hjs with hfar | rfl
            · exact .inl hfar
            · exact .inr (Nat.zero_le _)
          · rw [update_of_ne hli]
            exact h.apart j l hne hjs ((hothers l hl).resolve_left hli)

/-- **The run lemma of the ledger**, from a state that has one. -/
theorem ledger_of_reaches (hsound : Sound pipeline s) {range : ι → ℕ × ℕ}
    (h : Ledger pipeline s range)
    (hreaches : ReflTransGen (UndisturbedStep pipeline) s s') :
    Sound pipeline s' ∧ NotBack pipeline s s' ∧ ∃ range', Ledger pipeline s' range' := by
  induction hreaches with
  | refl => exact ⟨hsound, fun n n' hn hn' => (storedAt_unique hn hn').le, range, h⟩
  | tail _ hstep ih =>
    obtain ⟨hmiddle, hnotBack, range', hledger⟩ := ih
    obtain ⟨hnext, hledger'⟩ := hledger.step hmiddle hstep.1 hstep.2
    obtain ⟨m, -, hm, -⟩ := hmiddle.stored
    exact ⟨hmiddle.step hstep.1, fun n n' hn hn' => (hnotBack n m hn hm).trans (hnext m n' hm hn'),
      hledger'⟩

/-- The ledger is empty at the start. -/
theorem ledger_of_starts (h : Starts pipeline s) : Ledger pipeline s fun _ => (0, 0) := by
  have hnone : ∀ i, ¬ Committed s i := by
    rintro i ⟨k, hdone⟩
    simp [h.commits] at hdone
  refine ⟨fun _ _ i hi => absurd hi (hnone i), fun i _ hi => absurd hi (hnone i),
    fun i _ _ hi => absurd hi (hnone i), fun n hn row hrow => ?_⟩
  have hzero : StoredAt pipeline s 0 := h.stored
  obtain rfl := storedAt_unique hn hzero
  exact absurd hrow (not_le.mpr (pipeline.table.added_pos row))

end undisturbed

/-! ## Runs to their end -/

section runs

variable {ι ρ : Type} [DecidableEq ι] {pipeline : SparkPipeline ι ρ} {s s' : SparkSystem ι}
  {i j : ι} {k : ℕ} {request : ActivityRequest}

/-- An answer does not depend on the attempts. -/
theorem Answers.attempts {reply : ActivityReply request} (h : Answers pipeline i s request reply s')
    (submits : ι → ℕ → Option (ActivityProgram (Except String SparkJobRef)))
    (commits : ι → ℕ → Option (ActivityProgram (Except String Unit))) :
    Answers pipeline i { s with submits, commits } request reply { s' with submits, commits } := by
  cases request with
  | selectState tenantId connectionId =>
    obtain ⟨rfl, hstate⟩ := h
    exact ⟨rfl, hstate⟩
  | connect id config =>
    obtain ⟨rfl, hcurrent⟩ := h
    exact ⟨rfl, hcurrent⟩
  | createApplication application =>
    rcases reply with err | _
    · rcases h with rfl | ⟨hnone, rfl⟩
      · exact .inl rfl
      · exact .inr ⟨hnone, rfl⟩
    · obtain ⟨hnone, rfl⟩ := h
      exact ⟨hnone, rfl⟩
  | upsertState tenantId connectionId cursor =>
    rcases reply with err | _
    · rcases h with rfl | rfl
      · exact .inl rfl
      · exact .inr rfl
    · obtain rfl := h
      rfl
  | _ =>
    obtain rfl : s' = s := h
    rfl

theorem Answers.setSubmit {reply : ActivityReply request}
    (h : Answers pipeline i s request reply s')
    (program : ActivityProgram (Except String SparkJobRef)) :
    Answers pipeline i (s.setSubmit i k program) request reply (s'.setSubmit i k program) := by
  have hanswered := answered_of_answers h
  have hafter : s'.setSubmit i k program =
      { s' with submits := (s.setSubmit i k program).submits, commits := s.commits } := by
    simp [SparkSystem.setSubmit, hanswered.submits, ← hanswered.commits]
  rw [hafter]
  exact h.attempts _ _

/-- The last program of an attempt stays. -/
theorem setSubmit_setSubmit (program program' : ActivityProgram (Except String SparkJobRef)) :
    (s.setSubmit i k program).setSubmit i k program' = s.setSubmit i k program' := by
  simp [SparkSystem.setSubmit]

/-- **A submission that runs on its own** is an attempt of the system. -/
theorem reaches_of_submission {program : ActivityProgram (Except String SparkJobRef)}
    {value : Except String SparkJobRef}
    (h : Coroutine.RunsIn (Answers pipeline i) program s value s') :
    ReflTransGen (Step pipeline) (s.setSubmit i k program) (s'.setSubmit i k (.done value)) := by
  induction h with
  | done value s => exact .refl
  | @await request resume reply u w w' w'' value step rest ih =>
    refine .head ?_ ih
    have hpending : (w.setSubmit i k (.await request resume)).submits i k =
        some (.await request resume) := by
      simp [SparkSystem.setSubmit]
    have hstep := Step.answerSubmit hpending (step.setSubmit (k := k) (.await request resume))
    rwa [setSubmit_setSubmit] at hstep

/-- The catalog answers a lookup of the source. -/
theorem runsIn_source
    (hid : stringValue pipeline.formatting (pipeline.source.config.get "connectionId") ≠ "")
    (htable : NamesTable pipeline.formatting pipeline.source.config) :
    Coroutine.RunsIn (Answers pipeline i)
      (icebergCurrentSnapshot pipeline.formatting pipeline.source.config) s
      (.ok (pipeline.table.current s.now)) s := by
  rw [icebergCurrentSnapshot, Coroutine.runsIn_bind]
  refine ⟨.ok { tenantId := pipeline.tenantId }, s, ?_, ?_⟩
  · rw [credential, if_neg hid, ask, Coroutine.runsIn_await]
    exact ⟨_, (), s, rfl, .done _ _⟩
  · rw [if_pos htable, ask, Coroutine.runsIn_await]
    refine ⟨.ok (pipeline.table.current s.now), (), s, ⟨rfl, ?_⟩, .done _ _⟩
    rintro - snapshot heq
    exact (Except.ok.inj heq).symm

/-- A pipeline whose submissions and commits can succeed: its source can be looked up, its sinks are
not Iceberg tables, and its applications can be built. -/
structure Runnable (pipeline : SparkPipeline ι ρ) : Prop where
  connection : stringValue pipeline.formatting (pipeline.source.config.get "connectionId") ≠ ""
  table : NamesTable pipeline.formatting pipeline.source.config
  sinks : ∀ node ∈ pipeline.definition.nodes, node.activityType ≠ "sink.iceberg"
  views : ∀ previous current, ∃ view, sourceSQL pipeline.source previous current = .ok view
  output : ∃ execution sink output, pipeline.definition.execution = some execution ∧
    pipeline.enterprise.validateSparkSelect execution.transformSql = .ok () ∧
    lastOfType pipeline.definition .sink = some sink ∧
    sinkSQL sink execution.transformSql = .ok output

theorem exists_buildApplication (hrunnable : Runnable pipeline) (i : ι)
    (previous current : String) :
    ∃ name view output, sourceSQL pipeline.source previous current = .ok view ∧
      buildApplication pipeline.enterprise pipeline.definition (pipeline.executionId i) previous current =
        .ok ⟨name, view, output⟩ := by
  obtain ⟨execution, sink, output, hexecution, hselect, hsink, houtput⟩ := hrunnable.output
  obtain ⟨view, hview⟩ := hrunnable.views previous current
  refine ⟨applicationName (pipeline.executionId i), view, output, hview, ?_⟩
  rw [buildApplication, hexecution]
  dsimp only
  rw [hselect, pipeline.isSource, hsink]
  dsimp only
  rw [hview, houtput]
  rfl

/-- **A submission succeeds** when it has something to read. -/
theorem exists_runsIn_submission (hrunnable : Runnable pipeline) {previous : String} (i : ι)
    (hprevious :
      previousSnapshot pipeline.formatting (.ok (s.state pipeline.tenantId pipeline.key)) =
      previous)
    (hnew : ¬ (previous ≠ "" ∧ previous = pipeline.table.current s.now))
    (hnone : s.application i = none) :
    ∃ name view, sourceSQL pipeline.source previous (pipeline.table.current s.now) = .ok view ∧
      Coroutine.RunsIn (Answers pipeline i) (pipeline.submission i) s
        (.ok { name, inputStateKey := pipeline.key, inputSnapshot := pipeline.table.current s.now })
        (s.setApplication i ⟨view, none⟩) := by
  obtain ⟨name, view, output, hview, hbuild⟩ :=
    exists_buildApplication hrunnable i previous (pipeline.table.current s.now)
  refine ⟨name, view, hview, ?_⟩
  have hcreate : ∀ ref : SparkJobRef, Coroutine.RunsIn (Answers pipeline i)
      (createApplication pipeline.enterprise pipeline.definition (pipeline.executionId i) previous
        (pipeline.table.current s.now) ref) s (.ok { ref with name }) (s.setApplication i ⟨view, none⟩) := by
    intro ref
    rw [createApplication, hbuild]
    dsimp only
    rw [ask, Coroutine.runsIn_await]
    exact ⟨.ok (), (), _, ⟨hnone, rfl⟩, .done _ _⟩
  rw [SparkPipeline.submission, submitSparkJob, pipeline.isSource]
  dsimp only
  rw [if_pos pipeline.isIceberg, ask, Coroutine.runsIn_await]
  refine ⟨.ok (s.state pipeline.tenantId pipeline.key), (), s, ⟨rfl, ?_⟩, ?_⟩
  · intro state heq
    exact (Except.ok.inj heq).symm
  · rw [Coroutine.runsIn_bind]
    refine ⟨_, s, runsIn_source hrunnable.connection hrunnable.table, ?_⟩
    dsimp only
    rw [hprevious, if_neg hnew, submitOutput]
    cases hsink : lastOfType pipeline.definition .sink with
    | none => exact hcreate _
    | some sink =>
      have hmem := mem_of_mem_filter (mem_of_getLast? hsink)
      dsimp only
      rw [if_neg (hrunnable.sinks sink hmem)]
      exact hcreate _

/-- A commit without Iceberg outputs stores the snapshot of its reference. -/
theorem commit_eq (hrunnable : Runnable pipeline) {ref : SparkJobRef}
    (hkey : ref.inputStateKey = pipeline.key) (hsnapshot : ref.inputSnapshot ≠ "") :
    pipeline.commit ref =
      ask (.upsertState pipeline.tenantId pipeline.key (sparkState ref.inputSnapshot)) .done := by
  have houtputs : ∀ nodes : List Node, (∀ node ∈ nodes, node.activityType ≠ "sink.iceberg") →
      checkOutputs pipeline.formatting ref nodes = .done (.ok ()) := by
    intro nodes hnodes
    induction nodes with
    | nil => rfl
    | cons node nodes ih =>
      rw [checkOutputs, if_neg fun h => hnodes node mem_cons_self h.2]
      exact ih fun node' hmem => hnodes node' (mem_cons_of_mem _ hmem)
  rw [SparkPipeline.commit, commitSparkJob, houtputs _ hrunnable.sinks, Coroutine.bind_done,
    if_pos ⟨hkey ▸ key_ne_empty pipeline, hsnapshot⟩, hkey]
  rfl

/-- A workflow that has submitted waits for its application. -/
theorem sparkStep_submitted {ref : SparkJobRef}
    (hpoint : run.point = .submitting) (hnoop : ref.noop = false) :
    sparkStep input run (.submitted (.ok ref)) =
      some { run with ref := ref, state := "SUBMITTED" }.poll := by
  simp [sparkStep, hpoint, hnoop]

/-- A workflow whose application has completed commits. -/
theorem sparkStep_completed (hpoint : run.point = .polling) :
    sparkStep input run (.status (.ok ⟨"COMPLETED", ""⟩)) =
      some ({ run with state := "COMPLETED", lastError := "" }.call
        (.commitSparkJob run.ref input.definition input.tenantId) .committing) := by
  simp [sparkStep, hpoint, SparkState.afterStatus]

/-- **A run submits**: it waits for its application, which has read nothing so far. -/
structure Submits (pipeline : SparkPipeline ι ρ) (s : SparkSystem ι) (i : ι) (view : SparkView)
    (s' : SparkSystem ι) : Prop where
  reaches : ReflTransGen (Step pipeline) s s'
  now : s'.now = s.now
  state : s'.state = s.state
  polling : (s'.run i).point = .polling
  key : (s'.run i).ref.inputStateKey = pipeline.key
  snapshot : (s'.run i).ref.inputSnapshot = pipeline.table.current s.now
  commits : s'.commits = s.commits
  application : s'.application = update s.application i (some ⟨view, none⟩)
  others : ∀ j ≠ i, s'.run j = s.run j ∧ s'.submits j = s.submits j

theorem exists_submits (hrunnable : Runnable pipeline) {previous : String}
    (hpoint : (s.run i).point = .submitting) (hunused : s.submits i 0 = none)
    (hprevious :
      previousSnapshot pipeline.formatting (.ok (s.state pipeline.tenantId pipeline.key)) =
      previous)
    (hnew : ¬ (previous ≠ "" ∧ previous = pipeline.table.current s.now))
    (hnone : s.application i = none) :
    ∃ view s', sourceSQL pipeline.source previous (pipeline.table.current s.now) = .ok view ∧
      Submits pipeline s i view s' := by
  obtain ⟨name, view, hview, hruns⟩ := exists_runsIn_submission hrunnable i hprevious hnew hnone
  set ref : SparkJobRef :=
    { name, inputStateKey := pipeline.key, inputSnapshot := pipeline.table.current s.now }
  set ended := (s.setApplication i ⟨view, none⟩).setSubmit i 0 (.done (.ok ref))
  have hdone : Delivers ended i (.submitted (.ok ref)) :=
    ⟨0, by simp [ended, SparkSystem.setSubmit]⟩
  set polling : SparkState := { s.run i with ref := ref, state := "SUBMITTED" }.poll
  have hworkflow : Step pipeline ended (ended.setRun i polling) := by
    apply Step.workflow hdone
    exact sparkStep_submitted hpoint rfl
  refine ⟨view, ended.setRun i polling, hview, ?_, rfl, rfl, ?_, ?_, ?_, rfl, rfl, ?_⟩
  · exact (ReflTransGen.head (.beginSubmit hpoint hunused) (reaches_of_submission hruns)).tail hworkflow
  · simp [SparkSystem.setRun, polling, SparkState.poll, SparkState.call]
  · simp [SparkSystem.setRun, polling, SparkState.poll, SparkState.call, ref]
  · simp [SparkSystem.setRun, polling, SparkState.poll, SparkState.call, ref]
  · intro j hj
    simp [SparkSystem.setRun, ended, SparkSystem.setSubmit, SparkSystem.setApplication, hj]

/-- **A step after which no commit has begun** is undisturbed. -/
theorem undisturbed_of_none (hsound : Sound pipeline s) (hstep : Step pipeline s s')
    (hnone : ∀ j l, s'.commits j l = none) :
    (∀ j l, s.commits j l = none) ∧ UndisturbedStep pipeline s s' := by
  have hkept : s'.state = s.state → Undisturbed pipeline s s' := by
    intro hstate
    refine ⟨fun j l h => ?_, fun h => absurd hstate h⟩
    have hnow := h.1
    rw [hnone] at hnow
    cases hnow
  have hstep' := hstep
  cases hstep with
  | append | beginSubmit | read | workflow => exact ⟨hnone, hstep', hkept rfl⟩
  | @answerSubmit s₁ i k request resume reply pending answer =>
    have hstate : s₁.state = s.state := state_of_submission hsound pending answer
    refine ⟨?_, hstep', hkept hstate⟩
    rw [← (answered_of_answers answer).commits]
    exact hnone
  | @beginCommit i k | @answerCommit _ i k =>
    have hnow := hnone i k
    simp [SparkSystem.setCommit] at hnow

/-- **A run without a commit** is undisturbed. -/
theorem undisturbed_of_reaches (hsound : Sound pipeline s) (h : ReflTransGen (Step pipeline) s s') :
    Sound pipeline s' ∧
      ((∀ j l, s'.commits j l = none) → ReflTransGen (UndisturbedStep pipeline) s s') := by
  induction h with
  | refl => exact ⟨hsound, fun _ => .refl⟩
  | tail _ hstep ih =>
    refine ⟨ih.1.step hstep, fun hnone => ?_⟩
    obtain ⟨hbefore, hundisturbed⟩ := undisturbed_of_none ih.1 hstep hnone
    exact (ih.2 hbefore).tail hundisturbed

/-- **A run reads and commits**: its application reads its view, and its snapshot is stored. Where it
is the only one, and starts from what is stored, all of this is undisturbed. -/
structure Commits (pipeline : SparkPipeline ι ρ) (s : SparkSystem ι) (i : ι) (view : SparkView)
    (s' : SparkSystem ι) : Prop where
  reaches : ReflTransGen (Step pipeline) s s'
  undisturbed : Sound pipeline s → (∀ j l, s.commits j l = none) →
    (s.run i).ref.inputSnapshot = pipeline.table.current s.now →
    previousSnapshot pipeline.formatting (.ok (s.state pipeline.tenantId pipeline.key)) =
      startsFrom view → ReflTransGen (UndisturbedStep pipeline) s s'
  now : s'.now = s.now
  state : s'.state =
    s.state.write pipeline.tenantId pipeline.key (sparkState (s.run i).ref.inputSnapshot)
  committed : Committed s' i
  application : s'.application = update s.application i (some ⟨view, some s.now⟩)
  others : ∀ j ≠ i, s'.run j = s.run j ∧ s'.submits j = s.submits j ∧ s'.commits j = s.commits j

theorem exists_commits (hrunnable : Runnable pipeline) {view : SparkView}
    (hpoint : (s.run i).point = .polling) (hkey : (s.run i).ref.inputStateKey = pipeline.key)
    (hsnapshot : (s.run i).ref.inputSnapshot ≠ "") (hunused : s.commits i 0 = none)
    (hcreated : s.application i = some ⟨view, none⟩) : ∃ s', Commits pipeline s i view s' := by
  have hcommit := commit_eq hrunnable hkey hsnapshot
  set taken := s.setApplication i ⟨view, some s.now⟩
  have happlication : taken.application i = some ⟨view, some s.now⟩ := by
    simp [taken, SparkSystem.setApplication]
  have hread : HasRead taken i := ⟨⟨view, some s.now⟩, s.now, happlication, rfl⟩
  set committing : SparkState := { s.run i with state := "COMPLETED", lastError := "" }.call
    (.commitSparkJob (s.run i).ref (pipeline.input i).definition (pipeline.input i).tenantId) .committing
  set called := taken.setRun i committing
  have hcalled : called.run i = committing := by simp [called, SparkSystem.setRun]
  have hreadStep : Step pipeline s taken := .read hcreated rfl
  have hdelivers : Delivers taken i (.status (.ok ⟨"COMPLETED", ""⟩)) := fun _ => hread
  have hstatus : Step pipeline taken called := .workflow hdelivers (sparkStep_completed hpoint)
  set begun := called.setCommit i 0 (pipeline.commit (s.run i).ref)
  have hbegin : Step pipeline called begun := by
    have hpoint' : (called.run i).point = .committing := by
      rw [hcalled]
      rfl
    have hbegin :
        Step pipeline called (called.setCommit i 0 (pipeline.commit (called.run i).ref)) :=
      .beginCommit hpoint' hunused
    rwa [hcalled] at hbegin
  set stored : SparkSystem ι := { begun with
    state := s.state.write pipeline.tenantId pipeline.key (sparkState (s.run i).ref.inputSnapshot) }
  have hpending : begun.commits i 0 = some (ask (.upsertState pipeline.tenantId pipeline.key
      (sparkState (s.run i).ref.inputSnapshot)) .done) := by
    rw [← hcommit]
    simp only [begun, SparkSystem.setCommit, update_self]
    rfl
  have hreply : Answers pipeline i begun (.upsertState pipeline.tenantId pipeline.key
      (sparkState (s.run i).ref.inputSnapshot)) (Except.ok () : Except String Unit) stored := rfl
  have hanswer : Step pipeline begun (stored.setCommit i 0 (.done (.ok ()))) :=
    .answerCommit hpending hreply
  have hsucceeds : Succeeds begun (stored.setCommit i 0 (.done (.ok ()))) i 0 := by
    refine ⟨by simp [SparkSystem.setCommit], ?_⟩
    rw [hpending]
    nofun
  have hcompleted := (ReflTransGen.single hreadStep).tail hstatus
  refine ⟨stored.setCommit i 0 (.done (.ok ())), (hcompleted.tail hbegin).tail hanswer, ?_, rfl, rfl,
    ⟨0, hsucceeds.1⟩, rfl, ?_⟩
  · intro hsound hnone hcurrent hfrom
    refine (((undisturbed_of_reaches hsound hcompleted).2 hnone).tail
      ⟨hbegin, ⟨?_, fun h => absurd rfl h⟩⟩).tail ⟨hanswer, ⟨?_, fun _ => ⟨i, 0, hsucceeds⟩⟩⟩
    · rintro j l ⟨hnow, hnot⟩
      rcases commits_setCommit hnow with ⟨-, heq⟩ | hbefore
      · rw [hcommit] at heq
        cases heq
      · exact absurd hbefore hnot
    · rintro j l ⟨hnow, hnot⟩
      rcases commits_setCommit hnow with ⟨rfl, -⟩ | hbefore
      · have hsame : ∀ application, begun.application j = some application →
            application = ⟨view, some s.now⟩ := fun application hfound =>
          Option.some.inj (hfound.symm.trans happlication)
        have href : (begun.run j).ref = (s.run j).ref := by
          show (called.run j).ref = _
          rw [hcalled]
          rfl
        constructor
        · intro application m namespaceName table hfound hreadAt _
          rw [hsame application hfound] at hreadAt
          cases hreadAt
          rw [href]
          exact hcurrent
        · intro _
          refine .inl fun application hfound => ?_
          rw [hsame application hfound]
          exact hfrom
      · exact absurd hbefore hnot
  · intro j hj
    simp [stored, begun, called, taken, SparkSystem.setRun, SparkSystem.setCommit,
      SparkSystem.setApplication, hj]

end runs

/-! ## A row that is read twice -/

/-- A copy of `sales.orders` into ClickHouse. Row `n` is appended by snapshot `n + 1`. -/
def ordersCopy : SparkPipeline Bool ℕ where
  formatting := instanceFormatting
  enterprise := acceptingEnterprise
  definition :=
    { id := "copy", name := "copy", triggerType := "manual"
      nodes :=
        [{ id := "a", type := .source, activityType := "iceberg.fetch"
           config := [("connectionId", .string "11111111-1111-1111-1111-111111111111"),
             ("namespace", .string "sales"), ("table", .string "orders")] },
          { id := "b", type := .sink, activityType := "sink.clickhouse"
            config := [("table", .string "orders")] }]
      edges := [{ id := "e", source := "a", target := "b" }]
      execution := some { engine := "spark-sql", transformSql := "select * from source" } }
  tenantId := "t"
  executionId second := if second then "exec-2" else "exec-1"
  source := { id := "a", type := .source, activityType := "iceberg.fetch"
              config := [("connectionId", .string "11111111-1111-1111-1111-111111111111"),
                ("namespace", .string "sales"), ("table", .string "orders")] }
  isSource := rfl
  isIceberg := rfl
  table :=
    { snapshotId n := n, injective := Nat.cast_injective
      added row := row + 1, added_pos row := row.succ_pos }

/-- The view of `sales.orders`. -/
theorem sourceSQL_ordersCopy (previous current : String) :
    sourceSQL ordersCopy.source previous current =
      .ok (if previous ≠ "" ∧ current ≠ "" then .between "sales" "orders" previous current
        else .whole "sales" "orders") := by
  have hnamespace : specText (ordersCopy.source.config.get "namespace") = "sales" := by
    decide +kernel
  have htable : specText (ordersCopy.source.config.get "table") = "orders" := by decide +kernel
  have hsafe : Connectors.isSnowflakePath "sales" = true ∧
      Connectors.isSnowflakePath "orders" = true := by decide +kernel
  have htype : ordersCopy.source.activityType = "iceberg.fetch" := rfl
  rw [sourceSQL, if_neg (by rw [htype]; decide), if_pos htype]
  rw [hnamespace, htable, if_neg (by simp [hsafe])]
  split_ifs <;> rfl

theorem runnable_ordersCopy : Runnable ordersCopy where
  connection := by decide +kernel
  table := by decide +kernel
  sinks := by decide
  views previous current := ⟨_, sourceSQL_ordersCopy previous current⟩
  output := ⟨_, _, "INSERT INTO clickhouse.orders select * from source", rfl, rfl, rfl, by decide +kernel⟩

/-- One snapshot, and no run yet. -/
def ordersStart : SparkSystem Bool :=
  { now := 1, state := fun _ _ => none, run := fun i => sparkStart (ordersCopy.input i)
    submits := fun _ _ => none, commits := fun _ _ => none, application := fun _ => none }

theorem starts_ordersStart : Starts ordersCopy ordersStart :=
  ⟨rfl, fun _ => rfl, fun _ _ => rfl, fun _ _ => rfl, fun _ => rfl⟩

theorem current_one_ne_empty : ordersCopy.table.current 1 ≠ "" := by decide +kernel

/-- The first run submits: it reads the whole table. -/
theorem exists_submits_orders :
    ∃ s, Submits ordersCopy ordersStart false (.whole "sales" "orders") s := by
  have hempty : previousSnapshot ordersCopy.formatting
      (.ok (ordersStart.state ordersCopy.tenantId ordersCopy.key)) = "" := rfl
  obtain ⟨view, submitted, hview, hsubmits⟩ := exists_submits (s := ordersStart) (i := false)
    runnable_ordersCopy rfl rfl hempty (by simp) rfl
  obtain rfl : view = .whole "sales" "orders" := by
    simpa [sourceSQL_ordersCopy] using hview.symm
  exact ⟨submitted, hsubmits⟩

/-- **One run on its own** commits the snapshot that it has found. -/
theorem exists_undisturbed_orders : ∃ final,
    ReflTransGen (UndisturbedStep ordersCopy) ordersStart final ∧ Committed final false ∧
      StoredAt ordersCopy final 1 := by
  obtain ⟨submitted, hsubmits⟩ := exists_submits_orders
  have hcreated : submitted.application false = some ⟨.whole "sales" "orders", none⟩ := by
    rw [hsubmits.application]
    simp
  have hsnapshot : (submitted.run false).ref.inputSnapshot = ordersCopy.table.current 1 :=
    hsubmits.snapshot
  have hnone : ∀ j l, submitted.commits j l = none := by
    rw [hsubmits.commits]
    exact fun _ _ => rfl
  obtain ⟨final, hcommits⟩ := exists_commits runnable_ordersCopy hsubmits.polling hsubmits.key
    (hsnapshot ▸ current_one_ne_empty) (hnone false 0) hcreated
  obtain ⟨hsound, hquiet⟩ :=
    undisturbed_of_reaches (sound_of_starts starts_ordersStart) hsubmits.reaches
  have hcurrent : (submitted.run false).ref.inputSnapshot = ordersCopy.table.current submitted.now := by
    rw [hsnapshot, hsubmits.now]
    rfl
  have hfrom : previousSnapshot ordersCopy.formatting
      (.ok (submitted.state ordersCopy.tenantId ordersCopy.key)) = "" := by
    rw [hsubmits.state]
    rfl
  refine ⟨final, (hquiet hnone).trans (hcommits.undisturbed hsound hnone hcurrent hfrom),
    hcommits.committed, ?_⟩
  apply storedAt_write (s := submitted) current_one_ne_empty
  rw [hcommits.state, hsnapshot]

/-- The row of the stored snapshot is in the input of the run that has stored it. -/
theorem covered_of_reaches_orders : ∃ final, Committed final false ∧ StoredAt ordersCopy final 1 ∧
    ∃ n, StoredAt ordersCopy final n ∧ CoveredTo ordersCopy final n := by
  obtain ⟨final, hreaches, hcommitted, hstored⟩ := exists_undisturbed_orders
  exact ⟨final, hcommitted, hstored,
    covered_of_reaches starts_ordersStart (hreaches.lift id fun _ _ hstep => hstep.1)⟩

end Dataflow.Activities.SparkRuns
