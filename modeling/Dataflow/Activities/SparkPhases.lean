import Dataflow.Activities.SparkActions
import Dataflow.Library.Decimal

/-!
# What a Spark run has read

A submission reads the snapshot that was stored last, then the current one, and creates an
application for what is between them. A commit stores the current snapshot of the submission.

* `SourceTable`: a table with snapshots that only append rows.
* `SparkPipeline`: the runs of one pipeline that reads such a table.
* `SubmitPhase`, `follows_submitSparkJob`: how far a submission has come, and that the code keeps
  to it.
* `CommitPhase`, `follows_commitSparkJob`: the same of a commit.

Source: `ee/activities/spark.go`, `ee/spark/spec.go`
-/

namespace Dataflow.Activities.SparkRuns

open Api Connectors Library Model Workflows

/-! ## Tables -/

/-- A table: the ids of its snapshots, which are counted from one, and the snapshot that appended a
row. -/
structure SourceTable (ρ : Type) where
  snapshotId : ℕ → ℤ
  injective : Function.Injective snapshotId
  added : ρ → ℕ
  added_pos : ∀ row, 0 < added row

namespace SourceTable

variable {ρ : Type} (table : SourceTable ρ)

/-- The current snapshot after some of them, as the catalog gives it. -/
def current (n : ℕ) : String := if n = 0 then "" else (table.snapshotId n).repr

theorem current_zero : table.current 0 = "" := if_pos rfl

theorem current_eq_empty {n : ℕ} : table.current n = "" ↔ n = 0 := by
  unfold current
  split_ifs with hn
  · exact iff_of_true rfl hn
  · exact iff_of_false (Decimal.repr_int_ne_empty _) hn

/-- Snapshots have different texts. -/
theorem current_injective : Function.Injective table.current := by
  intro m n h
  by_cases hm : m = 0
  · subst hm
    rw [current_zero] at h
    exact (table.current_eq_empty.mp h.symm).symm
  · by_cases hn : n = 0
    · subst hn
      rw [current_zero] at h
      exact table.current_eq_empty.mp h
    · rw [current, if_neg hm, current, if_neg hn] at h
      exact table.injective (Decimal.repr_int_injective h)

/-- No snapshot is called like the nil interface. -/
theorem current_ne_nil (n : ℕ) : table.current n ≠ "<nil>" := by
  unfold current
  split_ifs with hn
  · decide
  · intro h
    have hread := Decimal.parseDecimal_repr_int (table.snapshotId n)
    rw [h] at hread
    cases hread

/-- **The rows that a view is about**, if it is read when there are `now` snapshots. -/
def rows (view : SparkView) (now : ℕ) : Set ρ :=
  match view with
  | .between _ _ previous current => fun row => ∃ a b, previous = table.current a ∧
      current = table.current b ∧ a < table.added row ∧ table.added row ≤ b
  | .whole _ _ => fun row => table.added row ≤ now
  | .parquet _ _ => fun _ => False

end SourceTable

/-- The snapshot from which a view starts. -/
def startsFrom : SparkView → String
  | .between _ _ previous _ => previous
  | _ => ""

/-! ## Pipelines -/

/-- The runs of one pipeline whose source is an Iceberg table. -/
structure SparkPipeline (ι ρ : Type) where
  formatting : Formatting
  enterprise : Enterprise
  definition : PipelineDefinition
  tenantId : String
  executionId : ι → String
  source : Node
  isSource : lastOfType definition .source = some source
  isIceberg : source.activityType = "iceberg.fetch"
  table : SourceTable ρ

namespace SparkPipeline

variable {ι ρ : Type} (pipeline : SparkPipeline ι ρ)

/-- The key of the state. -/
def key : String := sparkStateKey pipeline.definition.id pipeline.source.id

/-- The input of a run. -/
def input (i : ι) : WorkflowInput where
  definition := pipeline.definition
  tenantId := pipeline.tenantId
  executionId := pipeline.executionId i

/-- A submission of a run. -/
def submission (i : ι) : ActivityProgram (Except String SparkJobRef) :=
  submitSparkJob pipeline.formatting pipeline.enterprise pipeline.definition pipeline.tenantId
    (pipeline.executionId i)

/-- A commit of a run. -/
def commit (ref : SparkJobRef) : ActivityProgram (Except String Unit) :=
  commitSparkJob pipeline.formatting ref pipeline.definition pipeline.tenantId

end SparkPipeline

theorem key_ne_empty {ι ρ : Type} (pipeline : SparkPipeline ι ρ) : pipeline.key ≠ "" := by
  rw [SparkPipeline.key, sparkStateKey]
  simp

/-- A lookup in the catalog keeps to a protocol that allows its two requests. -/
theorem follows_icebergCurrentSnapshot {P : Type}
    {protocol : Coroutine.Protocol ActivityRequest ActivityReply Unit P} {phase : P}
    {formatting : Formatting} {config : JsonMap} {post : P → Except String String → Prop}
    (hcredential : ∀ id, protocol.allows phase (.credential id))
    (hstays : ∀ id reply, protocol.next phase (.credential id) reply = phase)
    (hconnect : ∀ id, protocol.allows phase (.connect id config))
    (herror : ∀ err, post phase (.error err))
    (hreply : ∀ id reply, post (protocol.next phase (.connect id config) reply) reply) :
    protocol.Follows post phase (icebergCurrentSnapshot formatting config) := by
  unfold icebergCurrentSnapshot credential
  dsimp only
  by_cases hid : stringValue formatting (config.get "connectionId") = ""
  · rw [if_pos hid]
    exact herror _
  · rw [if_neg hid]
    refine ⟨hcredential _, ?_⟩
    intro reply _ _
    rw [hstays _ reply]
    rcases reply with err | row
    · exact herror _
    · by_cases htable : NamesTable formatting config
      · dsimp only [Coroutine.bind]
        rw [if_pos htable]
        exact ⟨hconnect _, fun reply _ _ => hreply _ reply⟩
      · dsimp only [Coroutine.bind]
        rw [if_neg htable]
        exact herror _

/-! ## Submissions -/

/-- How far a submission has come. -/
inductive SubmitPhase where
  /-- Before its first request. -/
  | idle
  /-- It has read the stored snapshot. -/
  | selected (previous : String)
  /-- It has also read the current one. -/
  | resolved (previous current : String)
  /-- It has created an application. -/
  | created (previous current : String)

namespace SubmitPhase

variable {ι ρ : Type} (pipeline : SparkPipeline ι ρ)

/-- The requests of a submission in a phase. -/
def allows : SubmitPhase → ActivityRequest → Prop
  | idle, .selectState tenantId connectionId =>
    tenantId = pipeline.tenantId ∧ connectionId = pipeline.key
  | selected _, .credential _ => True
  | selected _, .connect _ config => config = pipeline.source.config
  | resolved _ _, .credential _ | resolved _ _, .connect _ _ => True
  | resolved previous current, .createApplication application =>
    sourceSQL pipeline.source previous current = .ok application.view
  | _, _ => False

/-- The phase after a reply. -/
def next : SubmitPhase → (request : ActivityRequest) → ActivityReply request → SubmitPhase
  | idle, .selectState _ _, state => selected (previousSnapshot pipeline.formatting state)
  | selected previous, .connect _ _, .ok current => resolved previous current
  | resolved previous current, .createApplication _, .ok () => created previous current
  | phase, _, _ => phase

/-- What a submission ends with. -/
def Ends (phase : SubmitPhase) (reply : Except String SparkJobRef) : Prop :=
  ∀ ref, reply = .ok ref → ref.noop = false →
    ref.inputStateKey = pipeline.key ∧ ∃ previous, phase = created previous ref.inputSnapshot

/-- The protocol of a submission. -/
def protocol : Coroutine.Protocol ActivityRequest ActivityReply Unit SubmitPhase where
  allows := allows pipeline
  next := next pipeline
  sees _ := True

end SubmitPhase

section submission

variable {ι ρ : Type} {pipeline : SparkPipeline ι ρ} {previous current executionId : String}
  {ref : SparkJobRef}

/-- The application is about what has been read. -/
theorem follows_createApplication (hkey : ref.inputStateKey = pipeline.key)
    (hcurrent : ref.inputSnapshot = current) :
    (SubmitPhase.protocol pipeline).Follows (SubmitPhase.Ends pipeline) (.resolved previous current)
      (createApplication pipeline.enterprise pipeline.definition executionId previous current
        ref) := by
  unfold createApplication buildApplication
  cases hexecution : pipeline.definition.execution with
  | none => nofun
  | some execution =>
    dsimp only
    cases pipeline.enterprise.validateSparkSelect execution.transformSql with
    | error err => nofun
    | ok _ =>
      rw [pipeline.isSource]
      cases hsink : lastOfType pipeline.definition .sink with
      | none => nofun
      | some sink =>
        dsimp only
        cases hview : sourceSQL pipeline.source previous current with
        | error err => nofun
        | ok view =>
          cases sinkSQL sink execution.transformSql with
          | error err => nofun
          | ok output =>
            refine ⟨hview, ?_⟩
            rintro (err | _) _ _
            · nofun
            · intro ref' href _
              cases href
              exact ⟨hkey, previous, hcurrent ▸ rfl⟩

/-- The lookup of the source's snapshot. -/
theorem follows_source : (SubmitPhase.protocol pipeline).Follows
    (fun phase reply => ∀ current, reply = .ok current → phase = .resolved previous current)
    (.selected previous) (icebergCurrentSnapshot pipeline.formatting pipeline.source.config) := by
  apply follows_icebergCurrentSnapshot
  · exact fun _ => trivial
  · exact fun _ _ => rfl
  · exact fun _ => rfl
  · nofun
  · rintro id (err | current) current' heq
    · cases heq
    · cases heq
      rfl

/-- The lookup of the sink's snapshot. -/
theorem follows_sink (config : JsonMap) : (SubmitPhase.protocol pipeline).Follows
    (fun phase _ => phase = .resolved previous current) (.resolved previous current)
    (icebergCurrentSnapshot pipeline.formatting config) := by
  apply follows_icebergCurrentSnapshot
  · exact fun _ => trivial
  · exact fun _ _ => rfl
  · exact fun _ => trivial
  · exact fun _ => rfl
  · exact fun _ _ => rfl

/-- The part of a submission after the source. -/
theorem follows_submitOutput (hkey : ref.inputStateKey = pipeline.key)
    (hcurrent : ref.inputSnapshot = current) :
    (SubmitPhase.protocol pipeline).Follows (SubmitPhase.Ends pipeline) (.resolved previous current)
      (submitOutput pipeline.formatting pipeline.enterprise pipeline.definition executionId previous
        current ref) := by
  unfold submitOutput
  cases lastOfType pipeline.definition .sink with
  | none => exact follows_createApplication hkey hcurrent
  | some sink =>
    dsimp only
    split_ifs
    · apply (follows_sink sink.config).bind
      rintro phase before rfl
      exact follows_createApplication hkey hcurrent
    · exact follows_createApplication hkey hcurrent

/-- **A submission keeps to its phases.** -/
theorem follows_submitSparkJob (pipeline : SparkPipeline ι ρ) (i : ι) :
    (SubmitPhase.protocol pipeline).Follows (SubmitPhase.Ends pipeline) .idle
      (pipeline.submission i) := by
  unfold SparkPipeline.submission submitSparkJob
  rw [pipeline.isSource]
  dsimp only
  rw [if_pos pipeline.isIceberg]
  refine ⟨⟨rfl, rfl⟩, ?_⟩
  intro state _ _
  apply follows_source.bind
  rintro phase (err | current) hphase
  · nofun
  · obtain rfl := hphase current rfl
    dsimp only
    split_ifs
    · intro ref href hnoop
      cases href
      cases hnoop
    · exact follows_submitOutput rfl rfl

end submission

/-! ## Commits -/

/-- How far a commit has come. -/
inductive CommitPhase where
  | idle
  /-- It has stored the snapshot. -/
  | stored

namespace CommitPhase

variable {ι ρ : Type} (pipeline : SparkPipeline ι ρ) (snapshot : String)

/-- The requests of a commit in a phase. -/
def allows : CommitPhase → ActivityRequest → Prop
  | idle, .credential _ | idle, .connect _ _ => True
  | idle, .upsertState tenantId connectionId cursor => tenantId = pipeline.tenantId ∧
      connectionId = pipeline.key ∧ cursor = sparkState snapshot ∧ snapshot ≠ ""
  | _, _ => False

/-- The phase after a reply. -/
def next : CommitPhase → (request : ActivityRequest) → ActivityReply request → CommitPhase
  | idle, .upsertState _ _ _, .ok () => stored
  | phase, _, _ => phase

/-- What a commit ends with: it succeeds where it has stored the snapshot, and else only if there is
none. -/
def Ends : CommitPhase → Except String Unit → Prop
  | stored, reply => reply = .ok ()
  | idle, reply => reply = .ok () → snapshot = ""

/-- The protocol of a commit. -/
def protocol : Coroutine.Protocol ActivityRequest ActivityReply Unit CommitPhase where
  allows := allows pipeline snapshot
  next := next
  sees _ := True

end CommitPhase

section commit

variable {ι ρ : Type} {pipeline : SparkPipeline ι ρ} {snapshot : String} {ref : SparkJobRef}

/-- A lookup before the snapshot is stored. -/
theorem follows_lookup (config : JsonMap) : (CommitPhase.protocol pipeline snapshot).Follows
    (fun phase _ => phase = .idle) .idle (icebergCurrentSnapshot pipeline.formatting config) := by
  apply follows_icebergCurrentSnapshot
  · exact fun _ => trivial
  · exact fun _ _ => rfl
  · exact fun _ => trivial
  · exact fun _ => rfl
  · exact fun _ _ => rfl

/-- The sinks are checked first. -/
theorem follows_checkOutputs (nodes : List Node) : (CommitPhase.protocol pipeline snapshot).Follows
    (fun phase _ => phase = .idle) .idle (checkOutputs pipeline.formatting ref nodes) := by
  induction nodes with
  | nil => exact rfl
  | cons node nodes ih =>
    unfold checkOutputs
    split_ifs
    · apply (follows_lookup node.config).bind
      rintro phase (err | after) rfl
      · exact rfl
      · dsimp only
        split_ifs
        · exact rfl
        · exact ih
    · exact ih

/-- **A commit keeps to its phases.** -/
theorem follows_commitSparkJob (hkey : ref.inputStateKey = pipeline.key) :
    (CommitPhase.protocol pipeline ref.inputSnapshot).Follows (CommitPhase.Ends ref.inputSnapshot)
      .idle (pipeline.commit ref) := by
  apply (follows_checkOutputs pipeline.definition.nodes).bind
  rintro phase (err | _) rfl
  · nofun
  · split_ifs with hstores
    · refine ⟨⟨rfl, hkey, rfl, hstores.2⟩, ?_⟩
      rintro (err | _) _ _
      · nofun
      · exact rfl
    · intro _
      rw [hkey, not_and, not_not] at hstores
      exact hstores (key_ne_empty pipeline)

end commit

/-! ## Views -/

section views

variable {ι ρ : Type} {pipeline : SparkPipeline ι ρ} {a b : ℕ} {view : SparkView}

/-- The view of a submission: what is between two snapshots, or the whole table if there are not
two. -/
theorem sourceSQL_cases {previous current : String}
    (h : sourceSQL pipeline.source previous current = .ok view) :
    (∃ namespaceName table, previous ≠ "" ∧ current ≠ "" ∧
        view = .between namespaceName table previous current) ∨
      ∃ namespaceName table, (previous = "" ∨ current = "") ∧ view = .whole namespaceName table := by
  unfold sourceSQL at h
  rw [pipeline.isIceberg, if_neg (by decide), if_pos rfl] at h
  dsimp only at h
  split_ifs at h with hnames hboth
  · exact .inl ⟨_, _, hboth.1, hboth.2, (Except.ok.inj h).symm⟩
  · rw [not_and_or, not_not, not_not] at hboth
    exact .inr ⟨_, _, hboth, (Except.ok.inj h).symm⟩

variable (h : sourceSQL pipeline.source (pipeline.table.current a) (pipeline.table.current b) = .ok view)

include h

/-- The view starts from the snapshot that was stored. -/
theorem startsFrom_view (hle : a ≤ b) : startsFrom view = pipeline.table.current a := by
  rcases sourceSQL_cases h with ⟨_, _, -, -, rfl⟩ | ⟨_, _, hempty, rfl⟩
  · rfl
  · have ha : a = 0 := by
      rcases hempty with hempty | hempty
      · exact pipeline.table.current_eq_empty.mp hempty
      · exact Nat.le_zero.mp (pipeline.table.current_eq_empty.mp hempty ▸ hle)
    rw [ha, pipeline.table.current_zero]
    rfl

/-- **What is between the two snapshots is read**, at any later time. -/
theorem mem_rows {m : ℕ} (hm : b ≤ m) {row : ρ}
    (hrow : a < pipeline.table.added row ∧ pipeline.table.added row ≤ b) :
    row ∈ pipeline.table.rows view m := by
  rcases sourceSQL_cases h with ⟨_, _, -, -, rfl⟩ | ⟨_, _, -, rfl⟩
  · exact ⟨a, b, rfl, rfl, hrow⟩
  · exact hrow.2.trans hm

/-- **Nothing else is read**, where a whole table is read as it was found. -/
theorem between_of_mem_rows (hle : a ≤ b) {m : ℕ}
    (hm : ∀ namespaceName table, view = .whole namespaceName table → m = b) {row : ρ}
    (hrow : row ∈ pipeline.table.rows view m) :
    a < pipeline.table.added row ∧ pipeline.table.added row ≤ b := by
  rcases sourceSQL_cases h with ⟨_, _, -, -, rfl⟩ | ⟨_, _, hempty, rfl⟩
  · obtain ⟨a', b', ha, hb, hrow⟩ := hrow
    rw [pipeline.table.current_injective ha, pipeline.table.current_injective hb]
    exact hrow
  · obtain rfl := hm _ _ rfl
    have ha : a = 0 := by
      rcases hempty with hempty | hempty
      · exact pipeline.table.current_eq_empty.mp hempty
      · exact Nat.le_zero.mp (pipeline.table.current_eq_empty.mp hempty ▸ hle)
    rw [ha]
    exact ⟨pipeline.table.added_pos row, hrow⟩

end views

/-! ## The stored snapshot -/

/-- What a submission reads of the state. -/
theorem previousSnapshot_sparkState {ρ : Type} (formatting : Formatting) (table : SourceTable ρ)
    (n : ℕ) :
    previousSnapshot formatting
        (.ok (if n = 0 then none else some (sparkState (table.current n)))) = table.current n := by
  split_ifs with hn
  · rw [hn, table.current_zero]
    rfl
  · show (if table.current n = "<nil>" then "" else table.current n) = table.current n
    rw [if_neg (table.current_ne_nil n)]

end Dataflow.Activities.SparkRuns
