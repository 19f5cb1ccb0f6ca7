import Dataflow.Library.Coroutine
import Dataflow.Library.RowStore
import Dataflow.Model.Types

/-!
# The monthly quota

Starting an execution is charged to a counter of the tenant and the month. `consumeQuota` checks and
raises it in one transaction, `releaseQuota` lowers it again when the start fails, and a scheduled
execution is charged by the activity `PrepareScheduledExecution`.

* `Call`, `CallReply`: the statements of these functions and their other calls.
* `consumeQuota`, `releaseQuota`, `fireExecution`, `prepareScheduledExecution`: the code, as
  coroutines. The shared state they see at their resumptions is the month of the wall clock: the
  code computes the month key anew for each statement.
* `Tables`, `exec`: the tables and what a statement of a transaction does to them. A statement that
  has to wait for another transaction gives `none`.
* `Fault`: what can go wrong with a call.
-/

namespace Dataflow.Api

open Model Library

/-! ## Rows -/

/-- A row of `billing_plans`, with the defaults of its columns. -/
structure BillingPlan where
  freeTierLimit : ℤ := 5
  extraQuota : ℤ := 0
  deriving DecidableEq

/-- `free_tier_limit+extra_quota`. -/
def BillingPlan.limit (plan : BillingPlan) : ℤ := plan.freeTierLimit + plan.extraQuota

/-- A row of `executions`. -/
structure ExecutionRow where
  id : String
  pipelineId : String
  tenantId : String
  triggerType : String
  phase : String := "running"
  buildId : Option String := none
  environment : String
  workflowId : String
  runId : String
  retryOf : Option String := none
  backfillPartitionId : Option String := none
  traceId : String
  deriving DecidableEq

/-! ## Calls -/

/-- The transactions. -/
inductive Transaction where
  | consume
  | release
  | record
  | prepare
  deriving DecidableEq

/-- Why a function returns an error. -/
inductive ApiError where
  | quotaExceeded (used : ℕ) (limit : ℤ)
  | other (message : String)
  deriving DecidableEq

/-- The text of an error. -/
def ApiError.message : ApiError → String
  | .quotaExceeded _ _ => "Quota exceeded"
  | .other message => message

/-- A statement, or a call to Temporal. -/
inductive Call where
  | begin (transaction : Transaction)
  | insertPlan (tenantId : String)
  | insertCounter (tenantId month : String)
  | selectForUpdate (tenantId month : String)
  | increment (tenantId month : String)
  | decrement (tenantId month : String)
  | insertExecution (row : ExecutionRow) (ignoreConflict : Bool)
  | startPartition (partitionId executionId : String)
  | commit (transaction : Transaction)
  | rollback (transaction : Transaction)
  | executeWorkflow (workflowName taskQueue : String) (input : WorkflowInput)
  | terminateWorkflow (executionId runId reason : String)
  deriving DecidableEq

/-- What a call gives back: the limit and the count, a run id, or nothing. -/
@[reducible] def CallReply : Call → Type
  | .selectForUpdate _ _ => Except ApiError (ℤ × ℕ)
  | .executeWorkflow _ _ _ => Except ApiError String
  | _ => Except ApiError Unit

/-- A function that makes calls and reads the month. -/
abbrev Program (α : Type) := Coroutine Call CallReply String α

/-! ## The code -/

/-- `BEGIN`, the statements, and `COMMIT`, or `ROLLBACK` after an error.
Source: `database.go` `TenantTx` -/
def inTransaction (transaction : Transaction) (body : String → Program (Except ApiError Unit)) :
    Program (Except ApiError Unit) :=
  .await (.begin transaction) fun reply month =>
    match reply with
    | .error err => .done (.error err)
    | .ok () => (body month).bind fun outcome =>
      match outcome with
      | .error err => .await (.rollback transaction) fun _ _ => .done (.error err)
      | .ok () => .await (.commit transaction) fun reply _ => .done reply

/-- The last statement of `consumeQuota`. -/
def chargeIfBelow (tenantId : String) (reply : Except ApiError (ℤ × ℕ)) (month : String) :
    Program (Except ApiError Unit) :=
  match reply with
  | .error err => .done (.error err)
  | .ok (limit, used) =>
    if (used : ℤ) ≥ limit then .done (.error (.quotaExceeded used limit))
    else .await (.increment tenantId month) fun reply _ => .done reply

/-- The statements of `consumeQuota`. -/
def consumeBody (tenantId : String) (_ : String) : Program (Except ApiError Unit) :=
  .await (.insertPlan tenantId) fun reply month =>
    match reply with
    | .error err => .done (.error err)
    | .ok () => .await (.insertCounter tenantId month) fun reply month =>
      match reply with
      | .error err => .done (.error err)
      | .ok () => .await (.selectForUpdate tenantId month) (chargeIfBelow tenantId)

/-- Source: `temporal.go` `consumeQuota`. -/
def consumeQuota (tenantId : String) : Program (Except ApiError Unit) :=
  inTransaction .consume (consumeBody tenantId)

/-- The statement of `releaseQuota`. -/
def releaseBody (tenantId month : String) : Program (Except ApiError Unit) :=
  .await (.decrement tenantId month) fun reply _ => .done reply

/-- Source: `temporal.go` `releaseQuota`; its error is ignored. -/
def releaseQuota (tenantId : String) : Program (Except ApiError Unit) :=
  inTransaction .release (releaseBody tenantId)

/-- The arguments of `fireExecution`. -/
structure FireRequest where
  definition : PipelineDefinition
  pipelineRowId : String
  triggerType : String
  environment : String
  payloadRef : Option DataRef := none
  encryptedDek : String := ""
  retryOf : String := ""
  partitionId : String := ""
  deriving DecidableEq

/-- What `fireExecution` mints or reads from its environment. -/
structure Minted where
  executionId : String
  traceId : String
  firedAt : String := ""
  buildId : String := ""
  deriving DecidableEq

/-- Source: `nullString`. -/
def nullString (text : String) : Option String := if text = "" then none else some text

/-- The workflow of an engine. -/
def workflowName (definition : PipelineDefinition) : String :=
  match definition.execution with
  | none => "DynamicDAGWorkflow"
  | some execution =>
    if execution.engine = "stream-direct" then "StreamDirectWorkflow"
    else if execution.engine = "spark-sql" then "SparkJobWorkflow"
    else if execution.engine = "flink-sql" then "FlinkJobWorkflow"
    else "DynamicDAGWorkflow"

/-- The input of the workflow. -/
def workflowInput (request : FireRequest) (minted : Minted) : WorkflowInput where
  definition := request.definition
  tenantId := request.definition.tenantId
  executionId := minted.executionId
  environment := request.environment
  trigger := { type := request.triggerType, payloadRef := request.payloadRef
               firedAt := minted.firedAt }
  encryptedDek := request.encryptedDek

/-- The row of the execution. -/
def executionRow (request : FireRequest) (minted : Minted) (runId : String) : ExecutionRow where
  id := minted.executionId
  pipelineId := request.pipelineRowId
  tenantId := request.definition.tenantId
  triggerType := request.triggerType
  buildId := nullString minted.buildId
  environment := request.environment
  workflowId := minted.executionId
  runId := runId
  retryOf := nullString request.retryOf
  backfillPartitionId := nullString request.partitionId
  traceId := minted.traceId

/-- The statements that record a started execution. -/
def recordBody (request : FireRequest) (minted : Minted) (runId : String) (_ : String) :
    Program (Except ApiError Unit) :=
  .await (.insertExecution (executionRow request minted runId) false) fun reply _ =>
    match reply with
    | .error err => .done (.error err)
    | .ok () =>
      if request.partitionId ≠ "" then
        .await (.startPartition request.partitionId minted.executionId) fun reply _ => .done reply
      else .done (.ok ())

/-- `releaseQuota`, and the error is returned. -/
def giveBack (tenantId : String) (err : ApiError) : Program (Except ApiError String) :=
  (releaseQuota tenantId).bind fun _ => .done (.error err)

/-- The part after the start of the workflow. -/
def afterStart (request : FireRequest) (minted : Minted) (started : Except ApiError String) :
    Program (Except ApiError String) :=
  match started with
  | .error err => giveBack request.definition.tenantId err
  | .ok runId => (inTransaction .record (recordBody request minted runId)).bind fun recorded =>
    match recorded with
    | .ok () => .done (.ok minted.executionId)
    | .error err =>
      .await (.terminateWorkflow minted.executionId runId "execution metadata insert failed")
        fun _ _ => giveBack request.definition.tenantId err

/-- Source: `temporal.go` `fireExecution`. -/
def fireExecution (request : FireRequest) (minted : Minted) : Program (Except ApiError String) :=
  (consumeQuota request.definition.tenantId).bind fun consumed =>
    match consumed with
    | .error err => .done (.error err)
    | .ok () => .await (.executeWorkflow (workflowName request.definition)
        ("dynamic-dag-" ++ request.environment) (workflowInput request minted))
        fun started _ => afterStart request minted started

/-- Source: `activities.go` `ScheduledExecutionParams`. -/
structure ScheduledExecutionParams where
  executionId : String
  pipelineRowId : String
  tenantId : String
  environment : String
  workflowId : String
  runId : String
  deriving DecidableEq

/-- The row of a scheduled execution. -/
def scheduledRow (params : ScheduledExecutionParams) (traceId : String) : ExecutionRow where
  id := params.executionId
  pipelineId := params.pipelineRowId
  tenantId := params.tenantId
  triggerType := "cron"
  environment := params.environment
  workflowId := params.workflowId
  runId := params.runId
  traceId := traceId

/-- The statements of `PrepareScheduledExecution` after the counter is read. -/
def chargeScheduled (params : ScheduledExecutionParams) (traceId month : String)
    (reply : Except ApiError (ℤ × ℕ)) : Program (Except ApiError Unit) :=
  match reply with
  | .error err => .done (.error err)
  | .ok (limit, used) =>
    if (used : ℤ) ≥ limit then .done (.error (.other "scheduled execution quota exceeded"))
    else .await (.increment params.tenantId month) fun reply _ =>
      match reply with
      | .error err => .done (.error err)
      | .ok () => .await (.insertExecution (scheduledRow params traceId) true)
          fun reply _ => .done reply

/-- The statements of `PrepareScheduledExecution`. The month is that of `now()`, the time at which
the transaction has begun. -/
def prepareBody (params : ScheduledExecutionParams) (traceId month : String) :
    Program (Except ApiError Unit) :=
  .await (.insertPlan params.tenantId) fun reply _ =>
    match reply with
    | .error err => .done (.error err)
    | .ok () => .await (.insertCounter params.tenantId month) fun reply _ =>
      match reply with
      | .error err => .done (.error err)
      | .ok () => .await (.selectForUpdate params.tenantId month) fun reply _ =>
        chargeScheduled params traceId month reply

/-- Source: `activities.go` `PrepareScheduledExecution`. -/
def prepareScheduledExecution (params : ScheduledExecutionParams) (traceId : String) :
    Program (Except ApiError Unit) :=
  inTransaction .prepare (prepareBody params traceId)

/-! ## The tables -/

/-- The tables the statements work on. Rows of `usage_counters` have the key (tenant, month). -/
structure Tables (ι : Type) where
  plans : RowStore ι String BillingPlan
  counters : RowStore ι (String × String) ℕ
  executions : RowStore ι String ExecutionRow

namespace Tables

variable {ι : Type} [DecidableEq ι]

/-- The transaction publishes what it has written. -/
def commit (tables : Tables ι) (i : ι) : Tables ι :=
  ⟨tables.plans.commit i, tables.counters.commit i, tables.executions.commit i⟩

/-- The transaction drops what it has written. -/
def rollback (tables : Tables ι) (i : ι) : Tables ι :=
  ⟨tables.plans.rollback i, tables.counters.rollback i, tables.executions.rollback i⟩

/-- The join of the two rows, locked. -/
def selectForUpdate (tables : Tables ι) (i : ι) (tenantId month : String) :
    Option (Except ApiError (ℤ × ℕ) × Tables ι) :=
  (tables.plans.selectForUpdate i tenantId).bind fun (plan, plans) =>
    (tables.counters.selectForUpdate i (tenantId, month)).map fun (count, counters) =>
      match plan, count with
      | some plan, some count =>
        (.ok (plan.limit, count), { tables with plans := plans, counters := counters })
      | _, _ => (.error (.other "no rows in result set"), tables)

/-- `INSERT INTO executions`. -/
def insertExecution (tables : Tables ι) (i : ι) (row : ExecutionRow) (ignoreConflict : Bool) :
    Option (Except ApiError Unit × Tables ι) :=
  if tables.executions.visible i row.id = none ∨ ignoreConflict then
    (tables.executions.insertDoNothing i row.id row).map fun executions =>
      (.ok (), { tables with executions := executions })
  else some (.error (.other "duplicate key value violates unique constraint"), tables)

end Tables

/-- What can go wrong: a call fails, or it takes effect and its reply is lost. -/
inductive Fault where
  | none
  | fails (err : ApiError)
  | replyLost (err : ApiError)
  deriving DecidableEq

/-- The call takes effect. -/
def Fault.takesEffect : Fault → Bool
  | .none | .replyLost _ => true
  | .fails _ => false

/-- The reply that reports an error. -/
def CallReply.error (err : ApiError) : (call : Call) → CallReply call
  | .selectForUpdate _ _ => Except.error err
  | .executeWorkflow _ _ _ => Except.error err
  | .begin _ | .insertPlan _ | .insertCounter _ _ | .increment _ _ | .decrement _ _
  | .insertExecution _ _ | .startPartition _ _ | .commit _ | .rollback _
  | .terminateWorkflow _ _ _ => Except.error err

variable {ι : Type} [DecidableEq ι]

/-- A call of transaction `i` that does not fail. `runId` is the run that Temporal starts. The rows
of `backfill_partitions` are not among these tables. -/
def perform (i : ι) (runId : String) : (call : Call) → Tables ι → Option (CallReply call × Tables ι)
  | .begin _, tables => some (Except.ok (), tables)
  | .insertPlan tenantId, tables =>
    (tables.plans.insertDoNothing i tenantId {}).map fun plans =>
      (Except.ok (), { tables with plans := plans })
  | .insertCounter tenantId month, tables =>
    (tables.counters.insertDoNothing i (tenantId, month) 0).map fun counters =>
      (Except.ok (), { tables with counters := counters })
  | .selectForUpdate tenantId month, tables => tables.selectForUpdate i tenantId month
  | .increment tenantId month, tables =>
    (tables.counters.update i (tenantId, month) (· + 1)).map fun counters =>
      (Except.ok (), { tables with counters := counters })
  | .decrement tenantId month, tables =>
    -- `GREATEST(0,execution_count-1)`
    (tables.counters.update i (tenantId, month) (· - 1)).map fun counters =>
      (Except.ok (), { tables with counters := counters })
  | .insertExecution row ignoreConflict, tables => tables.insertExecution i row ignoreConflict
  | .startPartition _ _, tables => some (Except.ok (), tables)
  | .commit _, tables => some (Except.ok (), tables.commit i)
  | .rollback _, tables => some (Except.ok (), tables.rollback i)
  | .executeWorkflow _ _ _, tables => some (Except.ok runId, tables)
  | .terminateWorkflow _ _ _, tables => some (Except.ok (), tables)

/-- The tables after a call that fails: the end of a transaction that fails rolls it back. -/
def afterFailure (i : ι) : Call → Tables ι → Tables ι
  | .commit _, tables | .rollback _, tables => tables.rollback i
  | _, tables => tables

/-- **A call of transaction `i`.** -/
def exec (i : ι) (runId : String) (fault : Fault) (call : Call) (tables : Tables ι) :
    Option (CallReply call × Tables ι) :=
  match fault with
  | .none => perform i runId call tables
  | .fails err => some (.error err call, afterFailure i call tables)
  | .replyLost err => (perform i runId call tables).map fun result => (.error err call, result.2)

end Dataflow.Api
