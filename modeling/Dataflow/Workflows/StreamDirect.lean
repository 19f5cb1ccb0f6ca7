import Dataflow.Workflows.DynamicDag

/-!
# `StreamDirectWorkflow`

The workflow runs the nodes of a pipeline one after the other as a batch, commits the cursor of its
source, and begins the next batch. After 100 iterations it continues as new with its counters. It
ignores the reply of `markExecution`.

* `streamBatch`: `runStreamBatch`, as a coroutine over the activities of the nodes.
* `StreamState`, `StreamEvent`, `StreamDirect.step`, `StreamDirect.start`: the code. Between two
  blocking points it runs without interruption; `left` is the number of iterations after this one.
* `StreamDirect.Stepped`, `StreamDirect.stepped_of_step`: **the inversion of a step**.

The clock values of the metrics (`LastHeartbeat`, `ThroughputPerSec`) are left out.

Source: `ee/workflows/stream_direct.go`
-/

namespace Dataflow.Workflows

open Model Library

/-! ## A batch -/

/-- What `runStreamBatch` reads of a `FetchSourceResult`. -/
structure StreamPage where
  outputRef : Option DataRef := none
  recordCount : ℤ := 0
  checkpoint : Option JsonMap := none
  lagRecords : ℤ := 0

/-- The activities of a batch: the page of a source, and those of the other nodes. -/
inductive StreamCall where
  | fetchSourcePage (params : FetchSourceParams)
  | node (nodeId : String) (call : NodeCall)

/-- What they give back after their retries. -/
abbrev StreamReply : StreamCall → Type
  | .fetchSourcePage _ => Except String StreamPage
  | .node _ call => NodeReply call

/-- The variables of `runStreamBatch`, with the error it returns. -/
structure StreamBatch where
  results : Results := ∅
  checkpoint : Option JsonMap := none
  connectionId : String := ""
  count : ℤ := 0
  lag : ℤ := 0
  error : Option String := none

/-- A part of a batch. -/
abbrev StreamProgram (α : Type) := Coroutine StreamCall StreamReply Unit α

/-- A node of a batch reads the results as they are when it starts; no other node runs. -/
def onResults (results : Results) (nodeId : String) : NodeCoroutine → StreamProgram NodeResult
  | .done result => .done result
  | .await call k =>
    .await (.node nodeId call) fun reply _ => onResults results nodeId (k reply results)

/-- A node has failed. -/
def StreamBatch.fail (batch : StreamBatch) (node : Node) (result : NodeResult) : StreamBatch :=
  { batch with
    checkpoint := none
    error := some ("node " ++ node.id ++ " failed: " ++ result.error) }

/-- A page could not be fetched. -/
def StreamBatch.failFetch (batch : StreamBatch) (connectionId err : String) : StreamBatch :=
  { batch with checkpoint := none, connectionId, count := 0, lag := 0, error := some err }

/-- The result of a source. -/
def streamSourceResult (node : Node) (page : StreamPage) : NodeResult where
  nodeId := node.id
  status := .success
  outputRef := page.outputRef
  metadata := [("recordCount", .number page.recordCount)]

/-- A page has been fetched. -/
def StreamBatch.fetched (batch : StreamBatch) (node : Node) (connectionId : String)
    (page : StreamPage) : StreamBatch :=
  { batch with
    checkpoint := page.checkpoint, connectionId, count := page.recordCount, lag := page.lagRecords
    results := batch.results.insert node.id (streamSourceResult node page) }

/-- The loop over the nodes. -/
def streamNodes (input : WorkflowInput) (incoming : String → List Edge) :
    List Node → StreamBatch → StreamProgram StreamBatch
  | [], batch => .done batch
  | node :: rest, batch =>
    if node.type = .source then
      .await (.fetchSourcePage (fetchParams input node {})) fun reply _ =>
        match reply with
        | .error err => .done (batch.failFetch (sourceConnectionID input.definition.id node) err)
        | .ok page => streamNodes input incoming rest
            (batch.fetched node (sourceConnectionID input.definition.id node) page)
    else
      (onResults batch.results node.id
        (runNode input node (incoming node.id) batch.results)).bind fun result =>
          if result.status = .failed then .done (batch.fail node result)
          else streamNodes input incoming rest
            { batch with results := batch.results.insert node.id result }

/-- Source: `stream_direct.go` `runStreamBatch` -/
def streamBatch (input : WorkflowInput) (plan : ExecutionPlan) : StreamProgram StreamBatch :=
  streamNodes input plan.incoming plan.levels.flatten {}

/-! ## State -/

/-- Where the workflow is blocked. -/
inductive StreamPoint where
  | waiting (left : ℕ)
  | batch (left : ℕ) (program : StreamProgram StreamBatch)
  | committing (left : ℕ) (cursor : SourceCursor) (count : ℤ)
  | sleeping (left : ℕ)
  | marking
  | continuedAsNew
  | returned (outcome : Except String Phase)

/-- `workflowState`, the signal channels and the metrics. -/
structure StreamState where
  inbox : Inbox := {}
  paused : Bool := false
  cancelled : Bool := false
  results : Results := ∅
  metrics : StreamStatus
  point : StreamPoint

/-- What happens to a run. A reply is what the activity gives back after its retries. -/
inductive StreamEvent where
  | signal (signal : Signal)
  | select
  | reply (answer : ∀ call, StreamReply call)
  | committed (reply : Except String Unit)
  | timer
  | marked (reply : Except String Unit)

/-- One run of `StreamDirectWorkflow` with its plan. Without a plan the workflow returns the error
of `buildPlan` at once. -/
structure StreamDirect where
  info : WorkflowInfo
  request : WorkflowInput
  plan : ExecutionPlan
  planned : buildPlan request.definition.nodes request.definition.edges = .ok plan

/-! ## The code -/

/-- Iterations after which the workflow continues as new. -/
def streamContinueAfter : ℕ := 100

/-- `DrainSignals`, on the variables of a stream. -/
def StreamState.drain (s : StreamState) : StreamState :=
  let drained := drainSignals
    { inbox := s.inbox, paused := s.paused, cancelled := s.cancelled, point := .preparing }
  { s with inbox := drained.inbox, paused := drained.paused, cancelled := drained.cancelled }

namespace StreamDirect

variable (stream : StreamDirect)

/-- The input with the defaults of the first lines of the workflow. -/
def input : WorkflowInput :=
  { stream.request with
    executionId := if stream.request.executionId = "" then "exec-" ++ stream.info.runId
      else stream.request.executionId
    environment := if stream.request.environment = "" then stream.info.namespaceName
      else stream.request.environment }

/-- The end of an iteration that has a batch behind it. -/
def countBatch (next : StreamState → StreamState) (left : ℕ) (count : ℤ) (s : StreamState) :
    StreamState :=
  let s := { s with
    metrics := { s.metrics with
      batches := s.metrics.batches + 1, records := s.metrics.records + count } }
  if count = 0 then { s with point := .sleeping left } else next s

/-- The part of an iteration after `runStreamBatch`; `next` is the next iteration. -/
def afterBatch (next : StreamState → StreamState) (left : ℕ) (batch : StreamBatch)
    (s : StreamState) : StreamState :=
  let s := { s with metrics := { s.metrics with lagRecords := batch.lag } }
  match batch.error with
  | some _ =>
    { s with
      metrics := { s.metrics with errors := s.metrics.errors + 1 }, point := .sleeping left }
  | none =>
    let s := { s with results := batch.results }
    match batch.checkpoint with
    | some checkpoint =>
      { s with
        point := .committing left { connectionId := batch.connectionId, checkpoint } batch.count }
    | none => countBatch next left batch.count s

/-- A batch has come to this point. -/
def advance (next : StreamState → StreamState) (left : ℕ) :
    StreamProgram StreamBatch → StreamState → StreamState
  | .done batch, s => afterBatch next left batch s
  | .await call k, s => { s with point := .batch left (.await call k) }

/-- The head of the pause loop, the check for cancellation and the start of the batch. -/
def enter (next : StreamState → StreamState) (left : ℕ) (s : StreamState) : StreamState :=
  if s.paused ∧ ¬ s.cancelled then { s with point := .waiting left }
  else if s.cancelled then { s with point := .marking }
  else advance next left (streamBatch stream.input stream.plan) s

/-- The head of the loop, with this number of iterations left. -/
def iterate : ℕ → StreamState → StreamState
  | 0, s => { s with point := .continuedAsNew }
  | left + 1, s => stream.enter (iterate left) left s.drain

/-- The selector of the pause loop takes a resume before a cancel. A blocked selector takes what is
delivered first; its runs are those in which `select` comes at once. -/
def select (left : ℕ) (s : StreamState) : Option StreamState :=
  if 0 < s.inbox.resume then
    some (stream.enter (stream.iterate left) left
      { s with paused := false, inbox := { s.inbox with resume := s.inbox.resume - 1 } })
  else if 0 < s.inbox.cancel then
    some (stream.enter (stream.iterate left) left
      { s with cancelled := true, inbox := { s.inbox with cancel := s.inbox.cancel - 1 } })
  else none

/-- The part of an iteration after `commitSourceCursors`. -/
def afterCommit (next : StreamState → StreamState) (left : ℕ) (count : ℤ) (s : StreamState) :
    Except String Unit → StreamState
  | .error _ => next { s with metrics := { s.metrics with errors := s.metrics.errors + 1 } }
  | .ok () => countBatch next left count s

/-- One event of a run. A signal may still be delivered in the workflow task that continues as new. -/
def step (s : StreamState) (event : StreamEvent) : Option StreamState :=
  match s.point, event with
  | .returned _, _ => none
  | _, .signal signal => some { s with inbox := s.inbox.deliver signal }
  | .waiting left, .select => stream.select left s
  | .batch left (.await call k), .reply answer =>
    some (advance (stream.iterate left) left (k (answer call) ()) s)
  | .committing left _ count, .committed reply =>
    some (afterCommit (stream.iterate left) left count s reply)
  | .sleeping left, .timer => some (stream.iterate left s)
  | .marking, .marked _ => some { s with point := .returned (.ok .cancelled) }
  | _, _ => none

/-- The state at the first blocking point. -/
def start : StreamState :=
  stream.iterate streamContinueAfter
    { metrics := stream.input.stream.getD {}, point := .continuedAsNew }

/-- The input of the next run. -/
def continued (s : StreamState) : WorkflowInput := { stream.input with stream := some s.metrics }

/-! ## What a step can do -/

/-- **Everything a step can do.** -/
inductive Stepped (s : StreamState) : StreamEvent → StreamState → Prop
  | signal (signal : Signal) (hreturned : ∀ outcome, s.point ≠ .returned outcome) :
      Stepped s (.signal signal) { s with inbox := s.inbox.deliver signal }
  | selectResume {left : ℕ} (hp : s.point = .waiting left) (hr : 0 < s.inbox.resume) :
      Stepped s .select (stream.enter (stream.iterate left) left
        { s with paused := false, inbox := { s.inbox with resume := s.inbox.resume - 1 } })
  | selectCancel {left : ℕ} (hp : s.point = .waiting left) (hr : s.inbox.resume = 0)
      (hc : 0 < s.inbox.cancel) :
      Stepped s .select (stream.enter (stream.iterate left) left
        { s with cancelled := true, inbox := { s.inbox with cancel := s.inbox.cancel - 1 } })
  | reply {left : ℕ} {call : StreamCall}
      {k : StreamReply call → Unit → StreamProgram StreamBatch}
      (hp : s.point = .batch left (.await call k)) (answer : ∀ call, StreamReply call) :
      Stepped s (.reply answer) (advance (stream.iterate left) left (k (answer call) ()) s)
  | committed {left : ℕ} {cursor : SourceCursor} {count : ℤ}
      (hp : s.point = .committing left cursor count) (reply : Except String Unit) :
      Stepped s (.committed reply) (afterCommit (stream.iterate left) left count s reply)
  | timer {left : ℕ} (hp : s.point = .sleeping left) : Stepped s .timer (stream.iterate left s)
  | marked (hp : s.point = .marking) (reply : Except String Unit) :
      Stepped s (.marked reply) { s with point := .returned (.ok .cancelled) }

variable {stream}

/-- **The inversion of a step.** -/
theorem stepped_of_step {s s' : StreamState} {event : StreamEvent}
    (h : stream.step s event = some s') : stream.Stepped s event s' := by
  unfold step at h
  split at h
  · cases h
  · rename_i signal hreturned
    cases h
    exact .signal signal hreturned
  · rename_i hp
    unfold select at h
    split_ifs at h with hr hc
    · cases h
      exact .selectResume hp hr
    · cases h
      exact .selectCancel hp (by omega) hc
  · rename_i hp
    cases h
    exact .reply hp _
  · rename_i hp
    cases h
    exact .committed hp _
  · rename_i hp
    cases h
    exact .timer hp
  · rename_i hp
    cases h
    exact .marked hp _
  · cases h

/-- The runs of the workflow under a condition on its events. -/
abbrev Run (stream : StreamDirect) (allowed : List StreamEvent → StreamState → StreamEvent → Prop)
    (es : List StreamEvent) (s : StreamState) : Prop :=
  Transition.Run stream.step allowed stream.start es s

end StreamDirect

end Dataflow.Workflows
