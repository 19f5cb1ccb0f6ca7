import Dataflow.Workflows.FlinkJob
import Dataflow.Workflows.Scheduling
import Dataflow.Workflows.SparkJob

/-!
# Which runs close their execution

An execution is closed when `markExecution` has been called for it with a terminal phase. Each of
the three workflows returns at once when certain activities fail, and then its execution stays
open.

* `DagMarked`: the execution of a `DynamicDAGWorkflow` run is closed.
* `execution_closed_iff`: **main result**: for each workflow, the exact failures after which a run
  returns without closing its execution.
-/

namespace Dataflow.Workflows

open Model Library

/-- The execution is marked with a terminal phase. -/
def DagMarked (dag : DynamicDag) (s : RunState) : Prop :=
  ∃ phase, phase.Terminal ∧ .markExecution dag.input.executionId phase ∈ s.scheduled

theorem finalPhase_terminal (s : RunState) : s.finalPhase.Terminal := by
  unfold RunState.finalPhase
  split_ifs <;> trivial

theorem dag_marked_iff {dag : DynamicDag} {allowed : List Event → RunState → Event → Prop}
    {es : List Event} {s : RunState} (h : dag.Run allowed es s)
    {outcome : Except String Phase} (hreturned : s.point = .returned outcome) :
    DagMarked dag s ↔ ¬ DynamicDag.Aborted dag es := by
  rcases (DynamicDag.ends_of_run h).returned outcome hreturned with
    ⟨haborted, hunmarked, -⟩ | ⟨hnot, hmarked, -⟩
  · constructor
    · rintro ⟨phase, -, hmem⟩
      exact absurd hmem (hunmarked _ _)
    · intro hnot
      exact absurd haborted hnot
  · constructor
    · intro _
      exact hnot
    · intro _
      exact ⟨s.finalPhase, finalPhase_terminal s, hmarked⟩

/-- **A run that has returned has closed its execution iff nothing aborted it**, whatever the
activities reply and whenever signals arrive:

* `DynamicDAGWorkflow` is aborted by a missing row id of a scheduled run, by a definition without a
  plan, and by the failure of `prepareScheduledExecution`, `commitSourceCursors` or
  `commitDedupeKeys`;
* `SparkJobWorkflow` by the failure of `submitSparkJob`, `sparkJobStatus` or `commitSparkJob`;
* `FlinkJobWorkflow` by the failure of `deployFlinkJob`, `flinkJobStatus` or `flinkJobAction`.

Source: `dynamic_dag.go`, `ee/workflows/spark_job.go`, `ee/workflows/flink_job.go` -/
theorem execution_closed_iff (dag : DynamicDag) (sparkInput flinkInput : WorkflowInput) :
    (∀ es s outcome, dag.Run Transition.Any es s →
      s.point = .returned outcome → (DagMarked dag s ↔ ¬ DynamicDag.Aborted dag es)) ∧
    (∀ es s outcome,
      Transition.Run (sparkStep sparkInput) Transition.Any (sparkStart sparkInput) es s →
      s.point = .returned outcome →
      (SparkMarked sparkInput s ↔ ¬ ∃ event ∈ es, event.aborts = true)) ∧
    (∀ es s outcome,
      Transition.Run (flinkStep flinkInput) Transition.Any (flinkStart flinkInput) es s →
      s.point = .returned outcome →
      (FlinkMarked flinkInput s ↔ ¬ ∃ event ∈ es, event.aborts = true)) := by
  refine ⟨?_, ?_, ?_⟩
  · intro es s outcome hrun hreturned
    exact dag_marked_iff hrun hreturned
  · intro es s outcome hrun hreturned
    rw [spark_marked_iff hrun hreturned]
    simp
  · intro es s outcome hrun hreturned
    rw [flink_marked_iff hrun hreturned]
    simp

/-- The theorem at a Flink job that fails: its execution is closed. -/
theorem execution_closed_iff_failed_flink_job :
    ∃ s, Transition.Run (flinkStep {}) Transition.Any (flinkStart {})
        [.deployed (.ok "job"), .status (.ok { state := "FAILED" }), .recorded (.ok ()),
          .marked (.ok ())] s ∧ FlinkMarked {} s := by
  have hrun : ∃ s, Transition.Run (flinkStep {}) Transition.Any (flinkStart {})
      [.deployed (.ok "job"), .status (.ok { state := "FAILED" }), .recorded (.ok ()),
        .marked (.ok ())] s ∧ s.point = .returned (.error "Flink deployment failed: ") :=
    ⟨_, .of_foldlM (fun _ _ _ _ => trivial) rfl, rfl⟩
  obtain ⟨s, hrun, hreturned⟩ := hrun
  refine ⟨s, hrun, ((execution_closed_iff ⟨{}, {}, .entries⟩ {} {}).2.2 _ s _ hrun hreturned).mpr ?_⟩
  simp [FlinkEvent.aborts]

/-- `commitSourceCursors` fails after its retries: the run returns the error, and `markExecution` is
never called. -/
theorem execution_open_after_failed_commit : let dag : DynamicDag :=
      { info := {}
        request := { definition := { nodes := [{ id := "orders", type := .source }] } }
        ranging := .entries }
    let answer := (Outcomes.successful { checkpoint := some [("cursor", .number 7)] }).answer
      { id := "orders", type := .source }
    ∃ s, dag.Run Transition.Any [.beginLevel, .nodeReply 0 answer, .collect,
        .cursorsCommitted (.error "connection refused")] s ∧
      s.point = .returned (.error "connection refused") ∧
      ∀ id phase, .markExecution id phase ∉ s.scheduled := by
  intro dag answer
  have hscheduled : ∀ calls : List WorkflowCall,
      (calls.all fun call => match call with | .markExecution .. => false | _ => true) →
      ∀ id phase, .markExecution id phase ∉ calls := by
    intro calls hall id phase hmem
    have := List.all_eq_true.mp hall _ hmem
    cases this
  exact ⟨_, .of_foldlM (fun _ _ _ _ => trivial) rfl, rfl, hscheduled _ rfl⟩

end Dataflow.Workflows
