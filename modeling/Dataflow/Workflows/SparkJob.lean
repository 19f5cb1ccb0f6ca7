import Dataflow.Library.Lists
import Dataflow.Library.Transition
import Dataflow.Model.Types

/-!
# `SparkJobWorkflow`

The workflow submits a Spark application, polls its state and closes the execution. It ignores the
reply of `markExecution`, so a run goes on to return whatever that reply is.

* `SparkState`, `SparkEvent`, `sparkStep`, `sparkStart`: the code; `select` is the moment at which
  the selector is ready, by a cancel signal or else by its timer.
* `SparkMarked`, `spark_marked_iff`: **main result**: a run that has returned has marked its
  execution iff submission, status and commit did not fail.
-/

namespace Dataflow.Workflows

open Model Library List

/-! ## The code -/

/-- Source: `ee/activities/spark.go` `SparkJobRef`. -/
structure SparkJobRef where
  name : String := ""
  inputStateKey : String := ""
  inputSnapshot : String := ""
  outputBefore : String := ""
  noop : Bool := false

/-- What `sparkJobStatus` reports. -/
structure SparkStatus where
  state : String
  error : String := ""

/-- The activities of a run, with their parameters. -/
inductive SparkCall where
  | submitSparkJob (definition : PipelineDefinition) (tenantId executionId : String)
  | sparkJobStatus (ref : SparkJobRef)
  | commitSparkJob (ref : SparkJobRef) (definition : PipelineDefinition) (tenantId : String)
  | cancelSparkJob (ref : SparkJobRef)
  | markExecution (executionId : String) (phase : Phase)

/-- Where the workflow is blocked. -/
inductive SparkPoint where
  | submitting
  | polling
  | committing
  | selecting
  | cancelling
  | marking (outcome : Except String Phase)
  | returned (outcome : Except String Phase)

/-- The local variables of the workflow, its signal channel and the activities called so far. -/
structure SparkState where
  cancels : ℕ := 0
  ref : SparkJobRef := {}
  state : String := "submitting"
  lastError : String := ""
  point : SparkPoint
  calls : List SparkCall

/-- What happens to a run. A reply is what the activity gives back after its retries. -/
inductive SparkEvent where
  | cancel
  | submitted (reply : Except String SparkJobRef)
  | status (reply : Except String SparkStatus)
  | committed (reply : Except String Unit)
  | select
  | cancelled (reply : Except String Unit)
  | marked (reply : Except String Unit)

/-- Call an activity and wait for it. -/
def SparkState.call (s : SparkState) (call : SparkCall) (point : SparkPoint) : SparkState :=
  { s with point := point, calls := s.calls ++ [call] }

/-- Return from the workflow. -/
def SparkState.finish (s : SparkState) (outcome : Except String Phase) : SparkState :=
  { s with point := .returned outcome }

section code

variable (input : WorkflowInput)

/-- `_ = markExecution(phase); return outcome`. -/
def SparkState.mark (s : SparkState) (phase : Phase) (outcome : Except String Phase) : SparkState :=
  s.call (.markExecution input.executionId phase) (.marking outcome)

/-- The head of the polling loop. -/
def SparkState.poll (s : SparkState) : SparkState := s.call (.sparkJobStatus s.ref) .polling

/-- The part of the loop after the status has arrived. -/
def SparkState.afterStatus (s : SparkState) : SparkState :=
  if s.state = "COMPLETED" then
    s.call (.commitSparkJob s.ref input.definition input.tenantId) .committing
  else if s.state = "FAILED" ∨ s.state = "FAILED_SUBMISSION" ∨ s.state = "UNKNOWN" then
    s.mark input .failed
      (.error ("SparkApplication " ++ s.ref.name ++ " failed: " ++ s.lastError))
  else { s with point := .selecting }

/-- The selector takes a waiting cancel before the timer. -/
def SparkState.select (s : SparkState) : SparkState :=
  let s := if 0 < s.cancels then { s with cancels := s.cancels - 1, state := "CANCELLING" } else s
  if s.state = "CANCELLING" then s.call (.cancelSparkJob s.ref) .cancelling else s.poll

/-- One event of a run. Source: `ee/workflows/spark_job.go` `SparkJobWorkflow` -/
def sparkStep (s : SparkState) (event : SparkEvent) : Option SparkState :=
  match s.point, event with
  | .returned _, _ => none
  | _, .cancel => some { s with cancels := s.cancels + 1 }
  | .submitting, .submitted (.error err) => some (s.finish (.error err))
  | .submitting, .submitted (.ok ref) =>
    some (if ref.noop then s.mark input .completed (.ok .completed)
      else { s with ref := ref, state := "SUBMITTED" }.poll)
  | .polling, .status (.error err) => some ({ s with lastError := err }.finish (.error err))
  | .polling, .status (.ok status) =>
    some ({ s with state := status.state, lastError := status.error }.afterStatus input)
  | .selecting, .select => some s.select
  | .committing, .committed (.error err) => some (s.finish (.error err))
  | .committing, .committed (.ok ()) => some (s.mark input .completed (.ok .completed))
  | .cancelling, .cancelled _ => some (s.mark input .cancelled (.ok .cancelled))
  | .marking outcome, .marked _ => some (s.finish outcome)
  | _, _ => none

/-- The state at the first blocking point. -/
def sparkStart : SparkState where
  point := .submitting
  calls := [.submitSparkJob input.definition input.tenantId input.executionId]

end code

/-! ## Closing -/

/-- A failed reply after which the workflow returns at once. -/
def SparkEvent.aborts : SparkEvent → Bool
  | .submitted (.error _) | .status (.error _) | .committed (.error _) => true
  | _ => false

/-- The execution is marked with a terminal phase. -/
def SparkMarked (input : WorkflowInput) (s : SparkState) : Prop :=
  ∃ phase, phase.Terminal ∧ .markExecution input.executionId phase ∈ s.calls

/-- No call of `markExecution` so far. -/
def SparkUnmarked (s : SparkState) : Prop := ∀ id phase, .markExecution id phase ∉ s.calls

/-- How the events so far, the point and the calls go together. -/
def SparkInv (input : WorkflowInput) (es : List SparkEvent) (s : SparkState) : Prop :=
  match s.point with
  | .returned _ => (SparkMarked input s ∧ ∀ event ∈ es, event.aborts = false) ∨
      (SparkUnmarked s ∧ ∃ event ∈ es, event.aborts = true)
  | .marking _ => SparkMarked input s ∧ ∀ event ∈ es, event.aborts = false
  | _ => SparkUnmarked s ∧ ∀ event ∈ es, event.aborts = false

variable {input : WorkflowInput} {es : List SparkEvent} {event : SparkEvent} {s s' : SparkState}

theorem SparkUnmarked.call (h : SparkUnmarked s) {call : SparkCall} (point : SparkPoint)
    (hcall : ∀ id phase, call ≠ .markExecution id phase) : SparkUnmarked (s.call call point) := by
  intro id phase hmem
  rcases mem_append.mp hmem with hmem | hmem
  · exact h id phase hmem
  · exact hcall id phase (mem_singleton.mp hmem).symm

theorem sparkMarked_mark {phase : Phase} (hphase : phase.Terminal) (outcome : Except String Phase) :
    SparkMarked input (s.mark input phase outcome) :=
  ⟨phase, hphase, mem_append_right _ mem_cons_self⟩

/-- A failed reply ends an unmarked run. -/
theorem sparkInv_abort (h : SparkUnmarked s) (hevent : event.aborts = true)
    (outcome : Except String Phase) : SparkInv input (es ++ [event]) (s.finish outcome) :=
  .inr ⟨h, event, mem_append_right _ mem_cons_self, hevent⟩

theorem sparkInv_poll (h : SparkUnmarked s) (hes : ∀ event ∈ es, event.aborts = false) :
    SparkInv input es s.poll :=
  ⟨h.call _ nofun, hes⟩

theorem sparkInv_mark {phase : Phase} (hphase : phase.Terminal) (outcome : Except String Phase)
    (hes : ∀ event ∈ es, event.aborts = false) : SparkInv input es (s.mark input phase outcome) :=
  ⟨sparkMarked_mark hphase outcome, hes⟩

theorem sparkInv_afterStatus (h : SparkUnmarked s) (hes : ∀ event ∈ es, event.aborts = false) :
    SparkInv input es (s.afterStatus input) := by
  unfold SparkState.afterStatus
  split_ifs
  · exact ⟨h.call _ nofun, hes⟩
  · apply sparkInv_mark
    · trivial
    · exact hes
  · exact ⟨h, hes⟩

theorem sparkInv_select (h : SparkUnmarked s) (hes : ∀ event ∈ es, event.aborts = false) :
    SparkInv input es s.select := by
  unfold SparkState.select
  by_cases hcancel : 0 < s.cancels
  · rw [if_pos hcancel]
    exact ⟨SparkUnmarked.call h .cancelling nofun, hes⟩
  · rw [if_neg hcancel]
    dsimp only
    split_ifs
    · exact ⟨h.call _ nofun, hes⟩
    · exact sparkInv_poll h hes

/-- A cancel signal changes neither the point nor the calls. -/
theorem sparkInv_cancel (h : SparkInv input es s) (hopen : ∀ outcome, s.point ≠ .returned outcome) :
    SparkInv input (es ++ [.cancel]) { s with cancels := s.cancels + 1 } := by
  unfold SparkInv at h ⊢
  cases hp : s.point with
  | returned outcome => exact absurd hp (hopen outcome)
  | _ =>
    rw [hp] at h
    exact ⟨h.1, Lists.forall_mem_snoc h.2 rfl⟩

/-- **The step lemma of `SparkInv`.** -/
theorem sparkInv_step (h : SparkInv input es s) (hstep : sparkStep input s event = some s') :
    SparkInv input (es ++ [event]) s' := by
  unfold sparkStep at hstep
  split at hstep
  · cases hstep
  · rename_i hopen
    cases hstep
    exact sparkInv_cancel h hopen
  · rename_i hp
    cases hstep
    rw [SparkInv, hp] at h
    exact sparkInv_abort h.1 rfl _
  · rename_i ref hp
    cases hstep
    rw [SparkInv, hp] at h
    have hes : ∀ event ∈ es ++ [.submitted (.ok ref)], event.aborts = false :=
      Lists.forall_mem_snoc h.2 rfl
    split_ifs
    · apply sparkInv_mark
      · trivial
      · exact hes
    · exact sparkInv_poll h.1 hes
  · rename_i err hp
    cases hstep
    rw [SparkInv, hp] at h
    exact sparkInv_abort (s := { s with lastError := err }) h.1 rfl _
  · rename_i status hp
    cases hstep
    rw [SparkInv, hp] at h
    exact sparkInv_afterStatus h.1 (Lists.forall_mem_snoc h.2 rfl)
  · rename_i hp
    cases hstep
    rw [SparkInv, hp] at h
    exact sparkInv_select h.1 (Lists.forall_mem_snoc h.2 rfl)
  · rename_i hp
    cases hstep
    rw [SparkInv, hp] at h
    exact sparkInv_abort h.1 rfl _
  · rename_i hp
    cases hstep
    rw [SparkInv, hp] at h
    apply sparkInv_mark
    · trivial
    · exact Lists.forall_mem_snoc h.2 rfl
  · rename_i hp
    cases hstep
    rw [SparkInv, hp] at h
    apply sparkInv_mark
    · trivial
    · exact Lists.forall_mem_snoc h.2 rfl
  · rename_i hp
    cases hstep
    rw [SparkInv, hp] at h
    exact .inl ⟨h.1, Lists.forall_mem_snoc h.2 rfl⟩
  · cases hstep

/-- **A run that has returned has marked its execution iff nothing aborted it.** -/
theorem spark_marked_iff {allowed : List SparkEvent → SparkState → SparkEvent → Prop}
    (h : Transition.Run (sparkStep input) allowed (sparkStart input) es s)
    {outcome : Except String Phase} (hreturned : s.point = .returned outcome) :
    SparkMarked input s ↔ ∀ event ∈ es, event.aborts = false := by
  have hinv : SparkInv input es s := by
    apply h.invariant (I := SparkInv input)
    · have hstart : SparkUnmarked (sparkStart input) := by
        intro id phase hmem
        cases mem_singleton.mp hmem
      exact ⟨hstart, nofun⟩
    · exact fun _ _ _ _ hs _ hstep => sparkInv_step hs hstep
  unfold SparkInv at hinv
  rw [hreturned] at hinv
  rcases hinv with ⟨hmarked, hes⟩ | ⟨hunmarked, event, hmem, habort⟩
  · exact ⟨fun _ => hes, fun _ => hmarked⟩
  · constructor
    · rintro ⟨phase, -, hmem⟩
      exact absurd hmem (hunmarked _ _)
    · intro hes
      simp [hes event hmem] at habort

end Dataflow.Workflows
