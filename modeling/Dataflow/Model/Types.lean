import Dataflow.Model.Json

/-!
# Pipeline definitions, node results and workflow inputs

The records of `internal/model/types.go` with the fields the modelled functions read or write.
An optional Go value (a nil pointer, a nil map) is an `Option`; an absent string is `""` as in Go.
Strings that the code compares against a closed list of words are inductive types with an `other`
constructor for every remaining word.
-/

namespace Dataflow.Model

/-! ## Definitions -/

/-- `Node.Type`. Source: `types.go` `Node`; the words are those of `validatePipeline`. -/
inductive NodeType where
  | source
  | transform
  | sink
  | fork
  | merge
  | other (word : String)
  deriving DecidableEq, Inhabited

/-- Source: `types.go` `IngestionConfig`. -/
structure IngestionConfig where
  mode : String := ""
  backfillStart : String := ""
  backfillEnd : String := ""
  stateKey : String := ""
  pageSize : ℤ := 0
  deriving DecidableEq, Inhabited

/-- Source: `types.go` `Node`. -/
structure Node where
  id : String
  type : NodeType := .other ""
  activityType : String := ""
  config : JsonMap := []
  ingestion : Option IngestionConfig := none
  mergeStrategy : String := ""
  joinKey : String := ""
  deriving DecidableEq

/-- The zero value of a Go `Node`. -/
instance : Inhabited Node := ⟨{ id := "" }⟩

/-- Source: `types.go` `Edge`. -/
structure Edge where
  id : String := ""
  source : String
  target : String
  condition : String := ""
  deriving DecidableEq, Inhabited

/-- Source: `types.go` `ExecutionConfig`. -/
structure ExecutionConfig where
  engine : String := ""
  transformSql : String := ""
  deriving DecidableEq, Inhabited

/-- Source: `types.go` `PipelineDefinition`. `triggerType` and `triggerSchedule` are `Trigger.Type`
and `Trigger.Schedule`, and `maxParallelNodes` is `Concurrency.MaxParallelNodes` behind its optional
record. -/
structure PipelineDefinition where
  id : String := ""
  version : ℤ := 0
  name : String := ""
  tenantId : String := ""
  triggerType : String := ""
  nodes : List Node := []
  edges : List Edge := []
  maxParallelNodes : Option ℤ := none
  execution : Option ExecutionConfig := none
  triggerSchedule : String := ""
  deriving DecidableEq, Inhabited

/-! ## Results -/

/-- Where a payload is stored. Source: `types.go` `DataRef`. -/
structure DataRef where
  type : String := ""
  key : String := ""
  bucket : String := ""
  tenantId : String := ""
  sizeBytes : ℤ := 0
  recordCount : ℤ := 0
  encrypted : Bool := false
  iv : String := ""
  deriving DecidableEq, Inhabited

/-- `NodeResult.Status`. -/
inductive NodeStatus where
  | success
  | skipped
  | failed
  | other (word : String)
  deriving DecidableEq, Inhabited

/-- Source: `types.go` `NodeResult`; `metadata` is its `Meta` map. -/
structure NodeResult where
  nodeId : String
  status : NodeStatus
  outputRef : Option DataRef := none
  metadata : JsonMap := []
  error : String := ""
  deriving DecidableEq, Inhabited

/-- The phases a run can report. Source: `types.go` `ExecutionStatus`, `dynamic_dag.go`. -/
inductive Phase where
  | running
  | paused
  | completed
  | failed
  | cancelled
  deriving DecidableEq, Inhabited

/-- The word for a phase. -/
def Phase.word : Phase → String
  | .running => "running"
  | .paused => "paused"
  | .completed => "completed"
  | .failed => "failed"
  | .cancelled => "cancelled"

/-- A phase after which nothing more happens to the execution
(`CASE WHEN $2 IN('completed','failed','cancelled')` in `MarkExecution`). -/
def Phase.Terminal : Phase → Prop
  | .completed | .failed | .cancelled => True
  | .running | .paused => False

instance : DecidablePred Phase.Terminal := fun p => by
  cases p <;> unfold Phase.Terminal <;> infer_instance

/-! ## Workflow inputs -/

/-- Source: `types.go` `TriggerInput`. -/
structure TriggerInput where
  type : String := ""
  payloadRef : Option DataRef := none
  firedAt : String := ""
  deriving DecidableEq, Inhabited

/-- The counters of a stream. Source: `types.go` `StreamStatus` -/
structure StreamStatus where
  batches : ℤ := 0
  records : ℤ := 0
  errors : ℤ := 0
  lagRecords : ℤ := 0
  deriving DecidableEq, Inhabited

/-- What a Flink job carries over a continue-as-new. Source: `types.go` `FlinkWorkflowState`. -/
structure FlinkWorkflowState where
  cohestraId : String := ""
  desiredState : String := ""
  lastError : String := ""
  checkpoint : String := ""
  deriving DecidableEq, Inhabited

/-- Source: `types.go` `WorkflowInput`. -/
structure WorkflowInput where
  definition : PipelineDefinition := {}
  tenantId : String := ""
  executionId : String := ""
  pipelineRowId : String := ""
  environment : String := ""
  executionPrepared : Bool := false
  trigger : TriggerInput := {}
  encryptedDek : String := ""
  stream : Option StreamStatus := none
  flink : Option FlinkWorkflowState := none
  deriving DecidableEq, Inhabited

end Dataflow.Model
