import Dataflow.Library.Lists
import Dataflow.Library.Transition
import Dataflow.Model.Types

/-!
# `FlinkJobWorkflow`

The workflow deploys a Flink job, polls its state and passes signals on as actions. After 100 polls
it continues as new with the state it has. It ignores the replies of `recordFlinkError` and
`markExecution`.

* `FlinkState`, `FlinkEvent`, `flinkStep`, `flinkStart`: the code. A selector takes a signal that
  waits; where none does it is blocked, until a signal is delivered or its timer fires.
* `FlinkStepped`, `flinkStepped_of_step`: **the inversion of a step**.
* `FlinkMarked`, `flink_marked_iff`: **main result**: a run that has returned has marked its
  execution iff deployment, status and action did not fail.
-/

namespace Dataflow.Workflows

open Model Library List Function

/-! ## The code -/

/-- Source: `ee/activities/flink.go` `FlinkDeploymentStatus`. -/
structure FlinkDeploymentStatus where
  state : String
  error : String := ""
  checkpoint : String := ""

/-- The signals of a run, which are also its actions. -/
inductive FlinkAction where
  | pause
  | resume
  | rollback
  | cancel
  deriving DecidableEq

/-- The activities of a run, with their parameters. -/
inductive FlinkCall where
  | deployFlinkJob (definition : PipelineDefinition) (tenantId executionId : String)
  | flinkJobStatus (id : String)
  | recordFlinkError (executionId error : String)
  | flinkJobAction (id : String) (action : FlinkAction) (executionId : String)
  | markExecution (executionId : String) (phase : Phase)

/-- Where the workflow is blocked. `recordingError` returns after the record, `recordingFailure`
marks the execution first. -/
inductive FlinkPoint where
  | deploying
  | polling
  | recordingError (error : String)
  | recordingFailure (error : String)
  | selecting
  | blocked
  | acting (action : FlinkAction)
  | marking (outcome : Except String Phase)
  | continuedAsNew
  | returned (outcome : Except String Phase)

/-- The local variables of the workflow, its signal channels and the activities called so far. -/
structure FlinkState where
  waiting : FlinkAction → ℕ := fun _ => 0
  flink : FlinkWorkflowState
  polls : ℕ := 0
  point : FlinkPoint
  calls : List FlinkCall := []

/-- What happens to a run. A reply is what the activity gives back after its retries. -/
inductive FlinkEvent where
  | signal (action : FlinkAction)
  | deployed (reply : Except String String)
  | status (reply : Except String FlinkDeploymentStatus)
  | recorded (reply : Except String Unit)
  | select
  | timer
  | acted (reply : Except String Unit)
  | marked (reply : Except String Unit)

/-- Polls after which the workflow continues as new. -/
def flinkContinueAfter : ℕ := 100

/-- The selector's channels in the order in which they were added. -/
def flinkActions : List FlinkAction := [.pause, .resume, .rollback, .cancel]

/-- Call an activity and wait for it. -/
def FlinkState.call (s : FlinkState) (call : FlinkCall) (point : FlinkPoint) : FlinkState :=
  { s with point := point, calls := s.calls ++ [call] }

/-- Return from the workflow. -/
def FlinkState.finish (s : FlinkState) (outcome : Except String Phase) : FlinkState :=
  { s with point := .returned outcome }

/-- The head of the polling loop. -/
def FlinkState.poll (s : FlinkState) : FlinkState :=
  if s.polls < flinkContinueAfter then s.call (.flinkJobStatus s.flink.cohestraId) .polling
  else { s with point := .continuedAsNew }

/-- The end of the loop body. -/
def FlinkState.nextPoll (s : FlinkState) : FlinkState := { s with polls := s.polls + 1 }.poll

section code

variable (input : WorkflowInput)

/-- `_ = markExecution(phase); return outcome`. -/
def FlinkState.mark (s : FlinkState) (phase : Phase) (outcome : Except String Phase) : FlinkState :=
  s.call (.markExecution input.executionId phase) (.marking outcome)

/-- The part of the loop after the status has arrived. -/
def FlinkState.afterStatus (s : FlinkState) (status : FlinkDeploymentStatus) : FlinkState :=
  let s := { s with
    flink := { s.flink with lastError := status.error, checkpoint := status.checkpoint } }
  if status.state = "FAILED" ∨ status.state = "DEGRADED" then
    s.call (.recordFlinkError input.executionId status.error) (.recordingFailure status.error)
  else { s with point := .selecting }

/-- A signal has been taken. -/
def FlinkState.act (s : FlinkState) (action : FlinkAction) : FlinkState :=
  s.call (.flinkJobAction s.flink.cohestraId action input.executionId) (.acting action)

/-- The selector takes the first waiting signal; without one it is blocked. -/
def FlinkState.select (s : FlinkState) : FlinkState :=
  match flinkActions.find? fun action => 0 < s.waiting action with
  | some action =>
    { s with waiting := update s.waiting action (s.waiting action - 1) }.act input action
  | none => { s with point := .blocked }

/-- The part of the loop after the action. -/
def FlinkState.afterAction (s : FlinkState) (action : FlinkAction) : FlinkState :=
  match action with
  | .cancel =>
    { s with flink := { s.flink with desiredState := "cancelled" } }.mark input .cancelled
      (.ok .cancelled)
  | .pause => { s with flink := { s.flink with desiredState := "paused" } }.nextPoll
  | .resume | .rollback => { s with flink := { s.flink with desiredState := "running" } }.nextPoll

/-- One event of a run. A blocked selector takes what comes first. A signal may still be delivered in
the workflow task that continues as new. Source: `ee/workflows/flink_job.go` `FlinkJobWorkflow` -/
def flinkStep (s : FlinkState) (event : FlinkEvent) : Option FlinkState :=
  match s.point, event with
  | .returned _, _ => none
  | .blocked, .signal action => some (s.act input action)
  | .blocked, .timer => some s.nextPoll
  | _, .signal action =>
    some { s with waiting := update s.waiting action (s.waiting action + 1) }
  | .deploying, .deployed (.error err) => some (s.finish (.error err))
  | .deploying, .deployed (.ok id) =>
    some { s with flink := { s.flink with cohestraId := id } }.poll
  | .polling, .status (.error err) =>
    some ({ s with flink := { s.flink with lastError := err } }.call
      (.recordFlinkError input.executionId err) (.recordingError err))
  | .polling, .status (.ok status) => some (s.afterStatus input status)
  | .recordingError err, .recorded _ => some (s.finish (.error err))
  | .recordingFailure err, .recorded _ =>
    some (s.mark input .failed (.error ("Flink deployment failed: " ++ err)))
  | .selecting, .select => some (s.select input)
  | .acting _, .acted (.error err) => some (s.finish (.error err))
  | .acting action, .acted (.ok ()) => some (s.afterAction input action)
  | .marking outcome, .marked _ => some (s.finish outcome)
  | _, _ => none

/-- The state at the first blocking point. -/
def flinkStart : FlinkState :=
  let flink := input.flink.getD { desiredState := "running" }
  if flink.cohestraId = "" then
    { flink, point := .deploying
      calls := [.deployFlinkJob input.definition input.tenantId input.executionId] }
  else { flink, point := .deploying : FlinkState }.poll

/-- The input of the next run. -/
def flinkContinued (s : FlinkState) : WorkflowInput := { input with flink := some s.flink }

/-- The point is open: a signal goes into its channel. -/
def FlinkPoint.Open : FlinkPoint → Prop
  | .returned _ | .blocked => False
  | _ => True

/-- What a step can do, a case for each branch of the code. -/
inductive FlinkStepped (s : FlinkState) : FlinkEvent → FlinkState → Prop
  | signal (action : FlinkAction) (hopen : s.point.Open) : FlinkStepped s (.signal action)
      { s with waiting := update s.waiting action (s.waiting action + 1) }
  | deployFailed (err : String) (hp : s.point = .deploying) :
      FlinkStepped s (.deployed (.error err)) (s.finish (.error err))
  | deployed (id : String) (hp : s.point = .deploying) : FlinkStepped s (.deployed (.ok id))
      { s with flink := { s.flink with cohestraId := id } }.poll
  | statusFailed (err : String) (hp : s.point = .polling) : FlinkStepped s (.status (.error err))
      ({ s with flink := { s.flink with lastError := err } }.call
        (.recordFlinkError input.executionId err) (.recordingError err))
  | status (status : FlinkDeploymentStatus) (hp : s.point = .polling) :
      FlinkStepped s (.status (.ok status)) (s.afterStatus input status)
  | recordedError (err : String) (reply : Except String Unit) (hp : s.point = .recordingError err) :
      FlinkStepped s (.recorded reply) (s.finish (.error err))
  | recordedFailure (err : String) (reply : Except String Unit)
      (hp : s.point = .recordingFailure err) : FlinkStepped s (.recorded reply)
      (s.mark input .failed (.error ("Flink deployment failed: " ++ err)))
  | select (hp : s.point = .selecting) : FlinkStepped s .select (s.select input)
  | taken (action : FlinkAction) (hp : s.point = .blocked) :
      FlinkStepped s (.signal action) (s.act input action)
  | timer (hp : s.point = .blocked) : FlinkStepped s .timer s.nextPoll
  | actionFailed (action : FlinkAction) (err : String) (hp : s.point = .acting action) :
      FlinkStepped s (.acted (.error err)) (s.finish (.error err))
  | acted (action : FlinkAction) (hp : s.point = .acting action) :
      FlinkStepped s (.acted (.ok ())) (s.afterAction input action)
  | marked (outcome : Except String Phase) (reply : Except String Unit)
      (hp : s.point = .marking outcome) : FlinkStepped s (.marked reply) (s.finish outcome)

/-- **The inversion of a step.** -/
theorem flinkStepped_of_step {input : WorkflowInput} {s s' : FlinkState} {event : FlinkEvent}
    (h : flinkStep input s event = some s') : FlinkStepped input s event s' := by
  unfold flinkStep at h
  split at h
  · cases h
  · cases h
    exact .taken _ ‹_›
  · cases h
    exact .timer ‹_›
  · rename_i action hreturned hblocked
    cases h
    apply FlinkStepped.signal
    unfold FlinkPoint.Open
    split
    · exact hreturned _ ‹_›
    · exact hblocked ‹_›
    · trivial
  · cases h
    exact .deployFailed _ ‹_›
  · cases h
    exact .deployed _ ‹_›
  · cases h
    exact .statusFailed _ ‹_›
  · cases h
    exact .status _ ‹_›
  · cases h
    exact .recordedError _ _ ‹_›
  · cases h
    exact .recordedFailure _ _ ‹_›
  · cases h
    exact .select ‹_›
  · cases h
    exact .actionFailed _ _ ‹_›
  · cases h
    exact .acted _ ‹_›
  · cases h
    exact .marked _ _ ‹_›
  · cases h

end code

/-! ## Closing -/

/-- A failed reply after which the workflow returns without marking. -/
def FlinkEvent.aborts : FlinkEvent → Bool
  | .deployed (.error _) | .status (.error _) | .acted (.error _) => true
  | _ => false

/-- The execution is marked with a terminal phase. -/
def FlinkMarked (input : WorkflowInput) (s : FlinkState) : Prop :=
  ∃ phase, phase.Terminal ∧ .markExecution input.executionId phase ∈ s.calls

/-- No call of `markExecution` so far. -/
def FlinkUnmarked (s : FlinkState) : Prop := ∀ id phase, .markExecution id phase ∉ s.calls

/-- How the events so far, the point and the calls go together. -/
def FlinkInv (input : WorkflowInput) (es : List FlinkEvent) (s : FlinkState) : Prop :=
  match s.point with
  | .returned _ => (FlinkMarked input s ∧ ∀ event ∈ es, event.aborts = false) ∨
      (FlinkUnmarked s ∧ ∃ event ∈ es, event.aborts = true)
  | .recordingError _ => FlinkUnmarked s ∧ ∃ event ∈ es, event.aborts = true
  | .marking _ => FlinkMarked input s ∧ ∀ event ∈ es, event.aborts = false
  | _ => FlinkUnmarked s ∧ ∀ event ∈ es, event.aborts = false

variable {input : WorkflowInput} {es : List FlinkEvent} {event : FlinkEvent} {s s' : FlinkState}

theorem exists_snoc_flinkAborts (h : ∃ event ∈ es, event.aborts = true) :
    ∃ event' ∈ es ++ [event], event'.aborts = true := by
  obtain ⟨event', hmem, habort⟩ := h
  exact ⟨event', mem_append_left _ hmem, habort⟩

theorem FlinkUnmarked.call (h : FlinkUnmarked s) {call : FlinkCall} (point : FlinkPoint)
    (hcall : ∀ id phase, call ≠ .markExecution id phase) : FlinkUnmarked (s.call call point) := by
  intro id phase hmem
  rcases mem_append.mp hmem with hmem | hmem
  · exact h id phase hmem
  · exact hcall id phase (mem_singleton.mp hmem).symm

/-- A failed reply ends an unmarked run. -/
theorem flinkInv_abort (h : FlinkUnmarked s) (hevent : event.aborts = true)
    (outcome : Except String Phase) : FlinkInv input (es ++ [event]) (s.finish outcome) :=
  .inr ⟨h, event, mem_append_right _ mem_cons_self, hevent⟩

theorem flinkInv_mark {phase : Phase} (hphase : phase.Terminal) (outcome : Except String Phase)
    (hes : ∀ event ∈ es, event.aborts = false) : FlinkInv input es (s.mark input phase outcome) :=
  ⟨⟨phase, hphase, mem_append_right _ mem_cons_self⟩, hes⟩

theorem flinkInv_poll (h : FlinkUnmarked s) (hes : ∀ event ∈ es, event.aborts = false) :
    FlinkInv input es s.poll := by
  unfold FlinkState.poll
  split_ifs
  · exact ⟨h.call _ nofun, hes⟩
  · exact ⟨h, hes⟩

theorem flinkInv_afterStatus (h : FlinkUnmarked s) (hes : ∀ event ∈ es, event.aborts = false)
    (status : FlinkDeploymentStatus) : FlinkInv input es (s.afterStatus input status) := by
  unfold FlinkState.afterStatus
  split_ifs
  · exact ⟨FlinkUnmarked.call h (.recordingFailure status.error) nofun, hes⟩
  · exact ⟨h, hes⟩

theorem flinkInv_select (h : FlinkUnmarked s) (hes : ∀ event ∈ es, event.aborts = false) :
    FlinkInv input es (s.select input) := by
  unfold FlinkState.select
  split
  · rename_i action _
    exact ⟨FlinkUnmarked.call h (.acting action) nofun, hes⟩
  · exact ⟨h, hes⟩

theorem flinkInv_afterAction (h : FlinkUnmarked s) (hes : ∀ event ∈ es, event.aborts = false)
    (action : FlinkAction) : FlinkInv input es (s.afterAction input action) := by
  cases action with
  | cancel =>
    apply flinkInv_mark
    · trivial
    · exact hes
  | pause | resume | rollback =>
    apply flinkInv_poll
    · exact h
    · exact hes

/-- A signal changes neither the point nor the calls. -/
theorem flinkInv_signal (h : FlinkInv input es s) (hopen : s.point.Open) (action : FlinkAction)
    (waiting : FlinkAction → ℕ) :
    FlinkInv input (es ++ [.signal action]) { s with waiting := waiting } := by
  unfold FlinkInv at h ⊢
  cases hp : s.point with
  | returned outcome =>
    rw [hp] at hopen
    exact hopen.elim
  | recordingError err =>
    rw [hp] at h
    exact ⟨h.1, exists_snoc_flinkAborts h.2⟩
  | _ =>
    rw [hp] at h
    exact ⟨h.1, Lists.forall_mem_snoc h.2 rfl⟩

/-- **The step lemma of `FlinkInv`.** -/
theorem flinkInv_step (h : FlinkInv input es s) (hstep : flinkStep input s event = some s') :
    FlinkInv input (es ++ [event]) s' := by
  cases flinkStepped_of_step hstep with
  | signal action hopen => exact flinkInv_signal h hopen action _
  | deployFailed err hp =>
    rw [FlinkInv, hp] at h
    exact flinkInv_abort h.1 rfl _
  | deployed id hp =>
    rw [FlinkInv, hp] at h
    apply flinkInv_poll
    · exact h.1
    · exact Lists.forall_mem_snoc h.2 rfl
  | statusFailed err hp =>
    rw [FlinkInv, hp] at h
    exact ⟨FlinkUnmarked.call h.1 (.recordingError err) nofun, .status (.error err), by simp, rfl⟩
  | status status hp =>
    rw [FlinkInv, hp] at h
    exact flinkInv_afterStatus h.1 (Lists.forall_mem_snoc h.2 rfl) status
  | recordedError err reply hp =>
    rw [FlinkInv, hp] at h
    exact .inr ⟨h.1, exists_snoc_flinkAborts h.2⟩
  | recordedFailure err reply hp =>
    rw [FlinkInv, hp] at h
    apply flinkInv_mark
    · trivial
    · exact Lists.forall_mem_snoc h.2 rfl
  | select hp =>
    rw [FlinkInv, hp] at h
    exact flinkInv_select h.1 (Lists.forall_mem_snoc h.2 rfl)
  | taken action hp =>
    rw [FlinkInv, hp] at h
    exact ⟨FlinkUnmarked.call h.1 (.acting action) nofun, Lists.forall_mem_snoc h.2 rfl⟩
  | timer hp =>
    rw [FlinkInv, hp] at h
    apply flinkInv_poll
    · exact h.1
    · exact Lists.forall_mem_snoc h.2 rfl
  | actionFailed action err hp =>
    rw [FlinkInv, hp] at h
    exact flinkInv_abort h.1 rfl _
  | acted action hp =>
    rw [FlinkInv, hp] at h
    exact flinkInv_afterAction h.1 (Lists.forall_mem_snoc h.2 rfl) action
  | marked outcome reply hp =>
    rw [FlinkInv, hp] at h
    exact .inl ⟨h.1, Lists.forall_mem_snoc h.2 rfl⟩

theorem flinkInv_start : FlinkInv input [] (flinkStart input) := by
  unfold flinkStart
  dsimp only
  split_ifs
  · refine ⟨?_, nofun⟩
    intro id phase hmem
    cases mem_singleton.mp hmem
  · apply flinkInv_poll
    · exact nofun
    · exact nofun

/-- **A run that has returned has marked its execution iff nothing aborted it.** -/
theorem flink_marked_iff {allowed : List FlinkEvent → FlinkState → FlinkEvent → Prop}
    (h : Transition.Run (flinkStep input) allowed (flinkStart input) es s)
    {outcome : Except String Phase} (hreturned : s.point = .returned outcome) :
    FlinkMarked input s ↔ ∀ event ∈ es, event.aborts = false := by
  have hinv : FlinkInv input es s := by
    apply h.invariant (I := FlinkInv input)
    · exact flinkInv_start
    · exact fun _ _ _ _ hs _ hstep => flinkInv_step hs hstep
  unfold FlinkInv at hinv
  rw [hreturned] at hinv
  rcases hinv with ⟨hmarked, hes⟩ | ⟨hunmarked, event, hmem, habort⟩
  · exact ⟨fun _ => hes, fun _ => hmarked⟩
  · constructor
    · rintro ⟨phase, -, hmem⟩
      exact absurd hmem (hunmarked _ _)
    · intro hes
      simp [hes event hmem] at habort

end Dataflow.Workflows
