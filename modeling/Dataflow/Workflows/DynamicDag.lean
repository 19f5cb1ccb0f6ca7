import Dataflow.Library.Transition
import Dataflow.Workflows.RunNode

/-!
# `DynamicDAGWorkflow`: the run of a pipeline

The workflow plans the definition, starts the levels one after the other in batches of
`maxParallel` nodes, and closes the execution. Between two blocking points it runs without
interruption; the blocking points are the constructors of `Point`. The environment's events are
signals and replies of activities, which come in any order; the workflow's own events are the loop
heads (`beginLevel`, `select`, `collect`).

* `RunState`, `Event`, `DynamicDag.step`, `DynamicDag.start`: the code.
* `Stepped`, `step_iff`: everything a step can do, one constructor for each case; the invariants
  of the following modules are proved by cases on it.
* `DynamicDag.Run`: the runs under a condition on the events.

Go iterates over the map of results in an unspecified order; `RangeOrder` is the order of one run.
-/

namespace Dataflow.Workflows

open Model Library

/-! ## State -/

/-- The signals of a run. -/
inductive Signal where
  | pause
  | resume
  | cancel
  deriving DecidableEq

/-- The three signal channels: how many signals are delivered and not yet received. -/
structure Inbox where
  pause : ℕ := 0
  resume : ℕ := 0
  cancel : ℕ := 0
  deriving DecidableEq

/-- A cursor of `commitSourceCursors`. -/
structure SourceCursor where
  connectionId : String
  checkpoint : JsonMap
  deriving DecidableEq

/-- The activities of a run, with their parameters. -/
inductive WorkflowCall where
  | prepareScheduledExecution
      (executionId pipelineRowId tenantId environment workflowId runId : String)
  | node (nodeId : String) (call : NodeCall)
  | commitSourceCursors (tenantId : String) (cursors : List SourceCursor)
  | commitDedupeKeys (tenantId : String) (checkpoints : List JsonMap)
  | markExecution (executionId : String) (phase : Phase)

/-- Where the workflow is blocked. -/
inductive Point where
  | preparing
  | level (level : List Node) (rest : List (List Node))
  | waiting (level : List Node) (rest : List (List Node))
  | batch (running : List (Node × NodeCoroutine)) (queued : List Node) (rest : List (List Node))
  | committingCursors (checkpoints : List JsonMap)
  | committingDedupe
  | marking (phase : Phase)
  | returned (outcome : Except String Phase)

/-- The state of a run: `workflowState`, the signal channels, the in-edges of the plan and the
activities scheduled so far. -/
structure RunState where
  inbox : Inbox := {}
  paused : Bool := false
  cancelled : Bool := false
  results : Results := ∅
  incoming : String → List Edge := fun _ => []
  point : Point
  scheduled : List WorkflowCall := []

/-- What happens to a run. A reply is what the activity gives back after its retries. -/
inductive Event where
  | signal (signal : Signal)
  | prepared (reply : Except String Unit)
  | beginLevel
  | select
  | nodeReply (index : ℕ) (answer : ∀ call, NodeReply call)
  | collect
  | cursorsCommitted (reply : Except String Unit)
  | dedupeCommitted (reply : Except String Unit)
  | marked (reply : Except String Unit)

/-- Signals come from outside; all other events belong to the run. -/
def Event.isOwn : Event → Bool
  | .signal _ => false
  | _ => true

/-- The order in which `range` visits the results. -/
structure RangeOrder where
  order : Results → List NodeResult
  perm : ∀ results, (order results).Perm (results.entries.map Sigma.snd)

/-- The order in which the results were stored. -/
def RangeOrder.entries : RangeOrder := ⟨fun results => results.entries.map Sigma.snd, fun _ => .rfl⟩

/-- What the SDK tells a workflow about itself. -/
structure WorkflowInfo where
  workflowId : String := ""
  runId : String := ""
  namespaceName : String := ""
  now : String := ""

/-- One execution of `DynamicDAGWorkflow`. -/
structure DynamicDag where
  info : WorkflowInfo
  request : WorkflowInput
  ranging : RangeOrder

/-! ## The code -/

/-- The input with the defaults of the first lines of the workflow. -/
def withDefaults (info : WorkflowInfo) (input : WorkflowInput) : WorkflowInput :=
  { input with
    executionId := if input.executionId = "" then "exec-" ++ info.runId else input.executionId
    environment := if input.environment = "" then info.namespaceName else input.environment
    trigger := { input.trigger with
      firedAt := if input.trigger.firedAt = "" then info.now else input.trigger.firedAt } }

/-- The entry of `cursors` for a result. -/
def sourceCursor (result : NodeResult) : Option SourceCursor :=
  match (JsonMap.get result.metadata "checkpoint").asObject?,
    (JsonMap.get result.metadata "connectionId").asString? with
  | some checkpoint, some connectionId => some { connectionId, checkpoint }
  | _, _ => none

/-- The entry of `dedupeCheckpoints` for a result. -/
def dedupeCheckpoint (result : NodeResult) : Option JsonMap :=
  (JsonMap.get result.metadata "dedupeCheckpoint").asObject?

/-- Some result is failed. -/
def anyFailed (results : Results) : Bool :=
  results.entries.any fun entry => entry.2.status = .failed

/-- A signal is put into its channel. -/
def Inbox.deliver (inbox : Inbox) : Signal → Inbox
  | .pause => { inbox with pause := inbox.pause + 1 }
  | .resume => { inbox with resume := inbox.resume + 1 }
  | .cancel => { inbox with cancel := inbox.cancel + 1 }

/-- Source: `dynamic_dag.go` `drainSignals`: all pauses, then all resumes, then all cancels. -/
def drainSignals (s : RunState) : RunState :=
  let paused := if 0 < s.inbox.pause then true else s.paused
  { s with
    inbox := {}
    paused := if 0 < s.inbox.resume then false else paused
    cancelled := if 0 < s.inbox.cancel then true else s.cancelled }

/-- `return model.ExecutionStatus{}, err`. -/
def RunState.fail (s : RunState) (err : String) : RunState :=
  { s with point := .returned (.error err) }

namespace DynamicDag

variable (dag : DynamicDag)

/-- The input the workflow works with. -/
def input : WorkflowInput := withDefaults dag.info dag.request

/-- `maxParallel`. -/
def maxParallel : ℕ :=
  match dag.input.definition.maxParallelNodes with
  | some n => if 0 < n then n.toNat else 5
  | none => 5

/-- Call `markExecution`. -/
def mark (phase : Phase) (s : RunState) : RunState :=
  { s with
    point := .marking phase
    scheduled := s.scheduled ++ [.markExecution dag.input.executionId phase] }

/-- The part after `commitSourceCursors`. -/
def commitDedupe (checkpoints : List JsonMap) (s : RunState) : RunState :=
  if checkpoints = [] then dag.mark .completed s
  else
    { s with
      point := .committingDedupe
      scheduled := s.scheduled ++ [.commitDedupeKeys dag.input.tenantId checkpoints] }

/-- The part after the loop over the levels. -/
def conclude (s : RunState) : RunState :=
  if s.cancelled then dag.mark .cancelled s
  else if anyFailed s.results then dag.mark .failed s
  else
    let results := dag.ranging.order s.results
    let cursors := results.filterMap sourceCursor
    let checkpoints := results.filterMap dedupeCheckpoint
    if cursors = [] then dag.commitDedupe checkpoints s
    else
      { s with
        point := .committingCursors checkpoints
        scheduled := s.scheduled ++ [.commitSourceCursors dag.input.tenantId cursors] }

/-- The head of the loop over the levels. -/
def nextLevel (rest : List (List Node)) (s : RunState) : RunState :=
  match rest with
  | [] => dag.conclude s
  | level :: rest => { s with point := .level level rest }

/-- A node of the batch is started. -/
def startNode (s : RunState) (node : Node) : Node × NodeCoroutine :=
  (node, runNode dag.input node (s.incoming node.id) s.results)

/-- The activity a node waits for. -/
def pendingCall (entry : Node × NodeCoroutine) : Option WorkflowCall :=
  entry.2.pending?.map (.node entry.1.id)

/-- The head of the loop over the batches of a level. -/
def nextBatch (queued : List Node) (rest : List (List Node)) (s : RunState) : RunState :=
  if queued = [] then dag.nextLevel rest s
  else
    let running := (queued.take dag.maxParallel).map (dag.startNode s)
    { s with
      point := .batch running (queued.drop dag.maxParallel) rest
      scheduled := s.scheduled ++ running.filterMap pendingCall }

/-- The head of the loop that waits while the run is paused, and the check for cancellation. -/
def enterLevel (level : List Node) (rest : List (List Node)) (s : RunState) : RunState :=
  if s.paused ∧ ¬ s.cancelled then { s with point := .waiting level rest }
  else if s.cancelled then dag.conclude s
  else dag.nextBatch level rest s

/-- Planning, up to the first level. -/
def plan (s : RunState) : RunState :=
  match buildPlan dag.input.definition.nodes dag.input.definition.edges with
  | .error err => s.fail err.message
  | .ok plan => dag.nextLevel plan.levels { s with incoming := plan.incoming }

theorem plan_of_ok {plan : ExecutionPlan} (s : RunState)
    (h : buildPlan dag.input.definition.nodes dag.input.definition.edges = .ok plan) :
    dag.plan s = dag.nextLevel plan.levels { s with incoming := plan.incoming } := by
  rw [DynamicDag.plan, h]

/-- The selector of the pause loop takes a resume before a cancel. A blocked selector takes what is
delivered first; its runs are those in which `select` comes at once. -/
def select (level : List Node) (rest : List (List Node)) (s : RunState) : Option RunState :=
  if 0 < s.inbox.resume then
    some (dag.enterLevel level rest
      { s with paused := false, inbox := { s.inbox with resume := s.inbox.resume - 1 } })
  else if 0 < s.inbox.cancel then
    some (dag.enterLevel level rest
      { s with cancelled := true, inbox := { s.inbox with cancel := s.inbox.cancel - 1 } })
  else none

/-- The coroutine at `index` has become `c`. -/
def advance (index : ℕ) (node : Node) (c : NodeCoroutine) (running : List (Node × NodeCoroutine))
    (queued : List Node) (rest : List (List Node)) (s : RunState) : RunState :=
  { s with
    point := .batch (running.set index (node, c)) queued rest
    scheduled := s.scheduled ++ (pendingCall (node, c)).toList }

/-- The result of the first node of the batch is stored. -/
def store (node : Node) (result : NodeResult) (running : List (Node × NodeCoroutine))
    (queued : List Node) (rest : List (List Node)) (s : RunState) : RunState :=
  let s := { s with results := s.results.insert node.id result }
  match running with
  | [] => dag.nextBatch queued rest s
  | _ :: _ => { s with point := .batch running queued rest }

/-- One event of a run. Source: `dynamic_dag.go` `DynamicDAGWorkflow` -/
def step (s : RunState) (event : Event) : Option RunState :=
  match s.point, event with
  | .returned _, _ => none
  | _, .signal signal => some { s with inbox := s.inbox.deliver signal }
  | .preparing, .prepared reply =>
    some (match reply with
      | .error err => s.fail err
      | .ok () => dag.plan s)
  | .level level rest, .beginLevel => some (dag.enterLevel level rest (drainSignals s))
  | .waiting level rest, .select => dag.select level rest s
  | .batch running queued rest, .nodeReply index answer =>
    match running[index]? with
    | some (node, .await call k) =>
      some (advance index node (k (answer call) s.results) running queued rest s)
    | _ => none
  | .batch ((node, .done result) :: running) queued rest, .collect =>
    some (dag.store node result running queued rest s)
  | .committingCursors checkpoints, .cursorsCommitted reply =>
    some (match reply with
      | .error err => s.fail err
      | .ok () => dag.commitDedupe checkpoints s)
  | .committingDedupe, .dedupeCommitted reply =>
    some (match reply with
      | .error err => s.fail err
      | .ok () => dag.mark .completed s)
  | .marking phase, .marked reply =>
    some (match reply with
      | .error err => s.fail err
      | .ok () => { s with point := .returned (.ok phase) })
  | _, _ => none

def missingRow : String := "scheduled workflow is missing pipelineRowId"

/-- The state at the first blocking point. -/
def start : RunState :=
  let input := dag.input
  if input.trigger.type = "cron" ∧ ¬ input.executionPrepared then
    if input.pipelineRowId = "" then { point := .returned (.error missingRow) }
    else
      { point := .preparing
        scheduled := [.prepareScheduledExecution input.executionId input.pipelineRowId
          input.tenantId input.environment dag.info.workflowId dag.info.runId] }
  else dag.plan { point := .preparing }

/-! ## What a step can do -/

/-- **Everything a step can do.** -/
inductive Stepped (s : RunState) : Event → RunState → Prop
  | signal (signal : Signal) (h : ∀ outcome, s.point ≠ .returned outcome) :
      Stepped s (.signal signal) { s with inbox := s.inbox.deliver signal }
  | prepareFailed (h : s.point = .preparing) (err : String) :
      Stepped s (.prepared (.error err)) (s.fail err)
  | prepared (h : s.point = .preparing) : Stepped s (.prepared (.ok ())) (dag.plan s)
  | beginLevel {level : List Node} {rest : List (List Node)} (h : s.point = .level level rest) :
      Stepped s .beginLevel (dag.enterLevel level rest (drainSignals s))
  | selectResume {level : List Node} {rest : List (List Node)}
      (h : s.point = .waiting level rest) (hr : 0 < s.inbox.resume) :
      Stepped s .select (dag.enterLevel level rest
        { s with paused := false, inbox := { s.inbox with resume := s.inbox.resume - 1 } })
  | selectCancel {level : List Node} {rest : List (List Node)}
      (h : s.point = .waiting level rest) (hr : s.inbox.resume = 0) (hc : 0 < s.inbox.cancel) :
      Stepped s .select (dag.enterLevel level rest
        { s with cancelled := true, inbox := { s.inbox with cancel := s.inbox.cancel - 1 } })
  | nodeReply {running : List (Node × NodeCoroutine)} {queued : List Node}
      {rest : List (List Node)} {index : ℕ} {node : Node} {call : NodeCall}
      {k : NodeReply call → Results → NodeCoroutine} (h : s.point = .batch running queued rest)
      (hi : running[index]? = some (node, .await call k)) (answer : ∀ call, NodeReply call) :
      Stepped s (.nodeReply index answer)
        (advance index node (k (answer call) s.results) running queued rest s)
  | collect {node : Node} {result : NodeResult} {running : List (Node × NodeCoroutine)}
      {queued : List Node} {rest : List (List Node)}
      (h : s.point = .batch ((node, .done result) :: running) queued rest) :
      Stepped s .collect (dag.store node result running queued rest s)
  | cursorsFailed {checkpoints : List JsonMap} (h : s.point = .committingCursors checkpoints)
      (err : String) : Stepped s (.cursorsCommitted (.error err)) (s.fail err)
  | cursorsCommitted {checkpoints : List JsonMap} (h : s.point = .committingCursors checkpoints) :
      Stepped s (.cursorsCommitted (.ok ())) (dag.commitDedupe checkpoints s)
  | dedupeFailed (h : s.point = .committingDedupe) (err : String) :
      Stepped s (.dedupeCommitted (.error err)) (s.fail err)
  | dedupeCommitted (h : s.point = .committingDedupe) :
      Stepped s (.dedupeCommitted (.ok ())) (dag.mark .completed s)
  | markFailed {phase : Phase} (h : s.point = .marking phase) (err : String) :
      Stepped s (.marked (.error err)) (s.fail err)
  | marked {phase : Phase} (h : s.point = .marking phase) :
      Stepped s (.marked (.ok ())) { s with point := .returned (.ok phase) }

theorem step_iff {s s' : RunState} {event : Event} :
    dag.step s event = some s' ↔ dag.Stepped s event s' := by
  constructor
  · intro h
    unfold step at h
    split at h
    · cases h
    · rename_i signal hp
      cases h
      exact .signal signal hp
    · rename_i reply hp
      cases h
      rcases reply with err | _
      · exact .prepareFailed hp err
      · exact .prepared hp
    · rename_i hp
      cases h
      exact .beginLevel hp
    · rename_i hp
      unfold select at h
      split_ifs at h with hr hc
      · cases h
        exact .selectResume hp hr
      · cases h
        exact .selectCancel hp (by omega) hc
    · rename_i index answer hp
      split at h
      · rename_i hi
        cases h
        exact .nodeReply hp hi answer
      · cases h
    · rename_i hp
      cases h
      exact .collect hp
    · rename_i reply hp
      cases h
      rcases reply with err | _
      · exact .cursorsFailed hp err
      · exact .cursorsCommitted hp
    · rename_i reply hp
      cases h
      rcases reply with err | _
      · exact .dedupeFailed hp err
      · exact .dedupeCommitted hp
    · rename_i reply hp
      cases h
      rcases reply with err | _
      · exact .markFailed hp err
      · exact .marked hp
    · cases h
  · intro h
    cases h with
    | signal signal h =>
      unfold step
      split
      · exact absurd (by assumption) (h _)
      all_goals simp_all
    | selectResume h hr => simp [step, select, h, hr]
    | selectCancel h hr hc => simp [step, select, h, hr, hc]
    | nodeReply h hi answer => simp [step, h, hi]
    | _ => simp_all [step]

/-! ## What the parts of a step leave alone -/

/-- The two states differ in the point and the activities scheduled only. -/
structure Frame (s s' : RunState) : Prop where
  inbox : s'.inbox = s.inbox
  paused : s'.paused = s.paused
  cancelled : s'.cancelled = s.cancelled
  results : s'.results = s.results
  incoming : s'.incoming = s.incoming

theorem frame_point (s : RunState) (point : Point) : Frame s { s with point := point } :=
  ⟨rfl, rfl, rfl, rfl, rfl⟩

theorem frame_advance (index : ℕ) (node : Node) (c : NodeCoroutine)
    (running : List (Node × NodeCoroutine)) (queued : List Node) (rest : List (List Node))
    (s : RunState) : Frame s (advance index node c running queued rest s) :=
  ⟨rfl, rfl, rfl, rfl, rfl⟩

theorem frame_fail (err : String) (s : RunState) : Frame s (s.fail err) :=
  ⟨rfl, rfl, rfl, rfl, rfl⟩

theorem frame_mark (phase : Phase) (s : RunState) : Frame s (dag.mark phase s) :=
  ⟨rfl, rfl, rfl, rfl, rfl⟩

theorem frame_commitDedupe (checkpoints : List JsonMap) (s : RunState) :
    Frame s (dag.commitDedupe checkpoints s) := by
  unfold commitDedupe
  split_ifs
  · exact dag.frame_mark _ s
  · exact ⟨rfl, rfl, rfl, rfl, rfl⟩

theorem frame_conclude (s : RunState) : Frame s (dag.conclude s) := by
  unfold conclude
  dsimp only
  split_ifs
  · exact dag.frame_mark _ s
  · exact dag.frame_mark _ s
  · exact dag.frame_commitDedupe _ s
  · exact ⟨rfl, rfl, rfl, rfl, rfl⟩

theorem frame_nextLevel (rest : List (List Node)) (s : RunState) :
    Frame s (dag.nextLevel rest s) := by
  cases rest with
  | nil => exact dag.frame_conclude s
  | cons level rest => exact ⟨rfl, rfl, rfl, rfl, rfl⟩

theorem frame_nextBatch (queued : List Node) (rest : List (List Node)) (s : RunState) :
    Frame s (dag.nextBatch queued rest s) := by
  unfold nextBatch
  split_ifs
  · exact dag.frame_nextLevel rest s
  · exact ⟨rfl, rfl, rfl, rfl, rfl⟩

theorem frame_enterLevel (level : List Node) (rest : List (List Node)) (s : RunState) :
    Frame s (dag.enterLevel level rest s) := by
  unfold enterLevel
  split_ifs
  · exact ⟨rfl, rfl, rfl, rfl, rfl⟩
  · exact dag.frame_conclude s
  · exact dag.frame_nextBatch level rest s

/-- Planning changes the point, the in-edges and the activities scheduled only. -/
theorem frame_plan (s : RunState) : (dag.plan s).inbox = s.inbox ∧ (dag.plan s).paused = s.paused ∧
      (dag.plan s).cancelled = s.cancelled ∧ (dag.plan s).results = s.results := by
  unfold plan
  split
  · exact ⟨rfl, rfl, rfl, rfl⟩
  · rename_i plan _
    have hf := dag.frame_nextLevel plan.levels { s with incoming := plan.incoming }
    exact ⟨hf.inbox, hf.paused, hf.cancelled, hf.results⟩

/-- A run starts with nothing. -/
theorem frame_start :
    dag.start.inbox = {} ∧ dag.start.paused = false ∧ dag.start.cancelled = false ∧
      dag.start.results = ∅ := by
  unfold start
  dsimp only
  split_ifs
  · exact ⟨rfl, rfl, rfl, rfl⟩
  · exact ⟨rfl, rfl, rfl, rfl⟩
  · exact dag.frame_plan _

theorem frame_store (node : Node) (result : NodeResult) (running : List (Node × NodeCoroutine))
    (queued : List Node) (rest : List (List Node)) (s : RunState) :
    Frame { s with results := s.results.insert node.id result }
      (dag.store node result running queued rest s) := by
  cases running with
  | nil => exact dag.frame_nextBatch queued rest _
  | cons entry running => exact ⟨rfl, rfl, rfl, rfl, rfl⟩

/-- The runs of the workflow under a condition on its events. -/
abbrev Run (allowed : List Event → RunState → Event → Prop) (es : List Event) (s : RunState) :
    Prop :=
  Transition.Run dag.step allowed dag.start es s

end DynamicDag

end Dataflow.Workflows
