import Dataflow.Api.ContractExtraction
import Dataflow.Api.Quota
import Mathlib.Data.List.Fold
import Mathlib.Data.List.MinMax

/-!
# The versions of a pipeline

A pipeline is a row for each of its versions. A version is created as a draft of the test
environment, activated there, and promoted: the promotion makes a new version of the production
environment. Each environment has one active version at most. Temporal has the schedules of the
versions with a cron trigger.

* `PipelineRow`, `Schedule`, `PipelineState`: the rows, the schedules, and what the promotions have
  made so far, which is kept for the statements only.
* `pipelineCreate`, `pipelineActivate`, `pipelinePromote`, `pipelineStage`: the operations, with
  what their calls reply. Rows keep their key, environment and definition, so it makes no difference
  that an operation reads them in a transaction of its own.
* `PipelineEvent`, `handle`: the system: one operation after the other.
* `activation`, `promotion`: the version that an operation activates, or promotes.
* `handle_effect`: what an operation does.

Source: `routes_pipelines.go`, `temporal.go`, `pipeline_validation.go`
-/

namespace Dataflow.Api

open Connectors Model List Function Option

/-! ## Rows and schedules -/

/-- The status of a version. -/
inductive PipelineStatus where
  | draft
  | active
  | archived
  deriving DecidableEq

/-- A row of `pipelines`; `pipelineKey` is a UUID in its canonical form, and `definition` what its
column decodes to. -/
structure PipelineRow where
  id : String
  pipelineKey : String
  version : ℤ
  tenantId : String
  name : String
  definition : PipelineDefinition
  status : PipelineStatus := .draft
  environment : String := "test"
  promotedFromVersion : Option ℤ := none
  createdBy : Option String := none
  deriving DecidableEq

/-- A row of `executions`, as far as the promotion looks at it. -/
structure RunRecord where
  pipelineId : String
  environment : String
  phase : String
  deriving DecidableEq

/-- A Temporal schedule. -/
structure Schedule where
  cronExpressions : List String
  actionId : String
  workflow : String
  taskQueue : String
  input : WorkflowInput
  overlap : String
  deriving DecidableEq

/-- A promotion: the version it has made, the one it was made from, and the executions at that
time. -/
structure Promotion where
  rowId : String
  source : PipelineRow
  executions : List RunRecord

/-- The rows of a tenant, the executions, and the schedules of the namespace of each environment. -/
structure PipelineState where
  rows : List PipelineRow := []
  executions : List RunRecord := []
  schedules : (environment scheduleId : String) → Option Schedule := fun _ _ => none
  promotions : List Promotion := []

/-- `WHERE pipeline_key=$1 AND environment=$2 AND status='active'`. -/
def IsActive (key environment : String) (row : PipelineRow) : Prop :=
  row.pipelineKey = key ∧ row.environment = environment ∧ row.status = .active

instance (key environment : String) : DecidablePred (IsActive key environment) := fun _ =>
  inferInstanceAs (Decidable (_ ∧ _))

/-- The active version of a pipeline in an environment. -/
def activeRow (rows : List PipelineRow) (key environment : String) : Option PipelineRow :=
  rows.find? fun row => IsActive key environment row

/-- `UPDATE pipelines SET status='archived'` of the active version. -/
def archive (key environment : String) (row : PipelineRow) : PipelineRow :=
  if IsActive key environment row then { row with status := .archived } else row

/-- `UPDATE pipelines SET status='active' WHERE id=$1`. -/
def setActive (rowId : String) (row : PipelineRow) : PipelineRow :=
  if row.id = rowId then { row with status := .active } else row

/-- `coalesce(MAX(version),0)+1` of the versions of a pipeline. -/
def nextVersion (rows : List PipelineRow) (key : String) : ℤ :=
  ((rows.filter fun row => row.pipelineKey = key).map PipelineRow.version).foldl max 0 + 1

/-! ## What the code checks -/

/-- Ceilings of a definition. Source: `config.go`. -/
structure PipelineLimits where
  nodes : ℤ
  edges : ℤ
  fanout : ℤ
  configBytes : ℤ
  nodePageSize : ℤ
  maxParallel : ℤ

/-- What the operations take from elsewhere: the contract transform, the checks of package
`enterprise`, the order of a map, UUIDs as the code and the database read them, and the size of the
JSON of a map. -/
structure PipelineEnv where
  ops : ContractOps
  enterprise : Enterprise
  ranging : RangeIds
  isUuid : String → Bool
  parseUuid : String → Option String
  jsonSize : JsonMap → ℕ
  limits : PipelineLimits
  formatValue : Json → String

/-- The paid features a definition uses. Source: `pipeline_validation.go` `pipelineFeatures`. -/
def pipelineFeatures (definition : PipelineDefinition) : List String :=
  let engine := (definition.execution.map ExecutionConfig.engine).getD ""
  (if engine = "stream-direct" then ["realtime"] else []) ++
    (if engine = "spark-sql" then ["sparkSql"] else []) ++
    (if engine = "flink-sql" then ["realtime", "flinkSql"] else []) ++
    definition.nodes.flatMap fun node =>
      (if node.activityType = "kafka.fetch" ∨ node.activityType = "sink.kafka" ∨
          node.config.get "syncMode" = .string "cdc" ∨
          node.config.get "writeMode" = .string "apply-cdc" then ["realtime"] else []) ++
        (if node.activityType = "transform.dedupe" ∧ node.config.get "scope" = .string "pipeline"
          then ["statefulProcessing"] else []) ++
        (if node.activityType ∈ ["sftp.fetch", "sink.sftp", "snowflake.fetch", "sink.snowflake",
          "iceberg.fetch", "sink.iceberg"] then ["advancedConnectors"] else [])

section code

variable (env : PipelineEnv)

/-- The first edge that gives its source more edges than the limit. -/
def exceedingEdge (limit : ℤ) : (seen edges : List Edge) → Option Edge
  | _, [] => none
  | seen, edge :: edges =>
    if limit < (seen.countP fun other => other.source = edge.source) + 1 then some edge
    else exceedingEdge limit (seen ++ [edge]) edges

/-- The check of `validatePipelineLimits` on one node. -/
def checkNodeLimits (node : Node) : Except ApiError Unit :=
  if env.limits.configBytes < env.jsonSize node.config then
    .error (.other ("node " ++ node.id ++ " config is " ++ (env.jsonSize node.config).repr ++
      " bytes, exceeding the limit of " ++ env.limits.configBytes.repr))
  else match node.ingestion with
    | none => .ok ()
    | some ingestion =>
      if env.limits.nodePageSize < ingestion.pageSize then
        .error (.other ("node " ++ node.id ++ " ingestion pageSize " ++ ingestion.pageSize.repr ++
          " exceeds the limit of " ++ env.limits.nodePageSize.repr))
      else .ok ()

/-- Source: `routes_pipelines.go` `validatePipelineLimits`. -/
def validatePipelineLimits (definition : PipelineDefinition) : Except ApiError Unit := do
  if env.limits.nodes < definition.nodes.length then
    throw (.other ("pipeline has " ++ definition.nodes.length.repr ++
      " nodes, exceeding the limit of " ++ env.limits.nodes.repr))
  if env.limits.edges < definition.edges.length then
    throw (.other ("pipeline has " ++ definition.edges.length.repr ++
      " edges, exceeding the limit of " ++ env.limits.edges.repr))
  if let some edge := exceedingEdge env.limits.fanout [] definition.edges then
    throw (.other ("node " ++ edge.source ++ " fans out to more than " ++ env.limits.fanout.repr ++
      " edges"))
  definition.nodes.forM (checkNodeLimits env)
  if let some maxParallelNodes := definition.maxParallelNodes then
    if env.limits.maxParallel < maxParallelNodes then
      throw (.other ("concurrency.maxParallelNodes " ++ maxParallelNodes.repr ++
        " exceeds the limit of " ++ env.limits.maxParallel.repr))

/-- What the calls of an operation reply: the features that are enabled, an error of the query that
loads the version, an error of the transaction, whether the old schedule could be deleted, and an
error of the creation of the new one. -/
structure CallReplies where
  features : Except ApiError (List String) := .ok []
  load : Option ApiError := none
  transaction : Option ApiError := none
  deleted : Bool := true
  create : Option ApiError := none

variable (replies : CallReplies) (s : PipelineState)

/-- Source: `routes_pipelines.go` `enforcePipelineFeatures`. -/
def enforcePipelineFeatures (definition : PipelineDefinition) : Except ApiError Unit :=
  match replies.features with
  | .error err => .error err
  | .ok enabled =>
    match (pipelineFeatures definition).find? fun feature => feature ∉ enabled with
    | some feature => .error (.other (feature ++ " is not enabled for this workspace"))
    | none => .ok ()

/-- Source: `routes_pipelines.go` `loadPipeline`. -/
def loadPipeline (rowId : String) : Except ApiError (Option PipelineRow) :=
  match replies.load with
  | some err => .error err
  | none => .ok (s.rows.find? fun row => row.id = rowId)

/-- The version an operation works on, which is loaded, and may be used by the tenant. -/
def admitPipeline (rowId : String) : Except ApiError PipelineRow :=
  match loadPipeline replies s rowId with
  | .error err => .error err
  | .ok none => .error (.other "not found")
  | .ok (some row) => (enforcePipelineFeatures replies row.definition).map fun _ => row

/-! ## Schedules -/

/-- The id of a schedule. -/
def scheduleId (definitionId environment : String) : String :=
  "sched-" ++ definitionId ++ "-" ++ environment

/-- The schedule that is made for a version. -/
def newSchedule (definition : PipelineDefinition) (pipelineRowId environment : String) :
    Schedule where
  cronExpressions := [definition.triggerSchedule]
  actionId := "schedule-" ++ definition.id ++ "-" ++ environment
  workflow := "DynamicDAGWorkflow"
  taskQueue := "dynamic-dag-" ++ environment
  input :=
    { definition := definition, tenantId := definition.tenantId, pipelineRowId := pipelineRowId
      environment := environment, trigger := { type := "cron" } }
  overlap := "SCHEDULE_OVERLAP_POLICY_SKIP"

/-- A schedule is written, or deleted. -/
def PipelineState.setSchedule (environment id : String) (schedule : Option Schedule) :
    PipelineState :=
  { s with
    schedules := update s.schedules environment
      (update (s.schedules environment) id schedule) }

/-- The deletion of a schedule, whose error is ignored. -/
def deleteSchedule (environment id : String) : PipelineState :=
  if replies.deleted then s.setSchedule environment id none else s

/-- The creation of a schedule; one that is there already is not created again. -/
def createSchedule (environment id : String) (schedule : Schedule) :
    Except ApiError Unit × PipelineState :=
  match replies.create, s.schedules environment id with
  | some err, _ => (.error err, s)
  | none, some _ => (.error (.other "schedule with this ID is already registered"), s)
  | none, none => (.ok (), s.setSchedule environment id (some schedule))

/-- Source: `temporal.go` `syncSchedule`. -/
def syncSchedule (definition : PipelineDefinition) (pipelineRowId environment : String) :
    Except ApiError Unit × PipelineState :=
  if definition.triggerType ≠ "cron" then (.ok (), s)
  else
    let id := scheduleId definition.id environment
    createSchedule replies (deleteSchedule replies s environment id) environment id
      (newSchedule definition pipelineRowId environment)

/-! ## The operations -/

/-- A definition with the ids of its pipeline and its tenant. -/
def withIds (tenantId minted : String) (definition : PipelineDefinition) : PipelineDefinition :=
  { definition with
    id := if definition.id = "" then minted else definition.id
    tenantId := tenantId }

/-- What `pipelineCreate` checks: the definition with its ids, and its key as the database reads
it. -/
def checkDefinition (tenantId minted : String) (definition : PipelineDefinition) :
    Except ApiError (PipelineDefinition × String) :=
  if definition.id ≠ "" ∧ env.isUuid definition.id = false then
    .error (.other "pipeline id must be a UUID")
  else
    let candidate := withIds tenantId minted definition
    match validatePipeline env.enterprise env.ranging candidate with
    | .error err => .error (.other (err.message env.formatValue))
    | .ok () => match validatePipelineLimits env candidate with
      | .error err => .error err
      | .ok () => match enforcePipelineFeatures replies candidate with
        | .error err => .error err
        | .ok () => match env.parseUuid candidate.id with
          | none => .error (.other "invalid input syntax for type uuid")
          | some key => .ok (candidate, key)

/-- Source: `routes_pipelines.go` `pipelineCreate`. `minted` and `rowId` are fresh UUIDs. -/
def pipelineCreate (tenantId userId minted rowId : String) (definition : PipelineDefinition) :
    Except ApiError (String × ℤ) × PipelineState :=
  match checkDefinition env replies tenantId minted definition with
  | .error err => (.error err, s)
  | .ok (definition, key) =>
    if rowId ∈ s.rows.map PipelineRow.id then (.error (.other "duplicate key"), s)
    else match replies.transaction with
      | some err => (.error err, s)
      | none =>
        let version := nextVersion s.rows key
        (.ok (rowId, version), { s with rows := s.rows ++ [
              { id := rowId, pipelineKey := key, version := version, tenantId := tenantId
                name := definition.name
                definition := { definition with version := version }
                createdBy := some userId }] })

/-- The environment of a version. -/
def rowEnvironment (row : PipelineRow) : String :=
  if row.environment = "" then "test" else row.environment

/-- The transaction of `pipelineActivate`. -/
def PipelineState.activate (row : PipelineRow) : PipelineState :=
  { s with
    rows := (s.rows.map (archive row.pipelineKey (rowEnvironment row))).map (setActive row.id) }

/-- Source: `routes_pipelines.go` `pipelineActivate`. -/
def pipelineActivate (rowId : String) : Except ApiError Unit × PipelineState :=
  match admitPipeline replies s rowId with
  | .error err => (.error err, s)
  | .ok row => match replies.transaction with
    | some err => (.error err, s)
    | none => syncSchedule replies (s.activate row) row.definition row.id (rowEnvironment row)

/-- The version has a completed execution in the test environment. -/
def HasCompletedRun (executions : List RunRecord) (rowId : String) : Prop :=
  ∃ execution ∈ executions, execution.pipelineId = rowId ∧ execution.environment = "test" ∧
    execution.phase = "completed"

instance (executions : List RunRecord) (rowId : String) :
    Decidable (HasCompletedRun executions rowId) :=
  inferInstanceAs (Decidable (∃ execution ∈ executions, _))

/-- The breaks of a version against the one in production. -/
def contractBreaks (row : PipelineRow) : List String :=
  match activeRow s.rows row.pipelineKey "prod" with
  | some current => compareContracts env.ops (extractContracts current.definition)
      (extractContracts row.definition)
  | none => []

/-- The checks of `createProductionVersion`. -/
def promotionGate (row : PipelineRow) (allowBreakingContract : Bool) : Except ApiError Unit :=
  if row.environment ≠ "test" then .error (.other "only Integration versions can be promoted")
  else if ¬ HasCompletedRun s.executions row.id then
    .error (.other "promotion gate: this version has no successful Integration run")
  else if contractBreaks env s row ≠ [] ∧ allowBreakingContract = false then
    .error (.other ("breaking data contract: [" ++
      String.intercalate " " (contractBreaks env s row) ++ "]"))
  else .ok ()

/-- The version of the production environment that a promotion makes. -/
def productionRow (row : PipelineRow) (newId : String) : PipelineRow where
  id := newId
  pipelineKey := row.pipelineKey
  version := nextVersion s.rows row.pipelineKey
  tenantId := row.tenantId
  name := row.name
  definition := { row.definition with version := nextVersion s.rows row.pipelineKey }
  status := .active
  environment := "prod"
  promotedFromVersion := some row.version

/-- The statements of `createProductionVersion` that write. -/
def PipelineState.promote (row : PipelineRow) (newId : String) : PipelineState :=
  { s with
    rows := s.rows.map (archive row.pipelineKey "prod") ++ [productionRow s row newId]
    promotions := s.promotions ++ [{ rowId := newId, source := row, executions := s.executions }] }

/-- Source: `routes_pipelines.go` `createProductionVersion`. `newId` is a fresh UUID. -/
def createProductionVersion (row : PipelineRow) (allowBreakingContract : Bool) (newId : String) :
    Except ApiError PipelineRow × PipelineState :=
  match promotionGate env s row allowBreakingContract with
  | .error err => (.error err, s)
  | .ok () =>
    if newId ∈ s.rows.map PipelineRow.id then (.error (.other "duplicate key"), s)
    else match replies.transaction with
      | some err => (.error err, s)
      | none => (.ok (productionRow s row newId), s.promote row newId)

/-- Source: `routes_pipelines.go` `pipelinePromote`. The schedule is made for the definition that
was loaded. -/
def pipelinePromote (rowId : String) (allowBreakingContract : Bool) (newId : String) :
    Except ApiError Unit × PipelineState :=
  match admitPipeline replies s rowId with
  | .error err => (.error err, s)
  | .ok row => match createProductionVersion env replies s row allowBreakingContract newId with
    | (.error err, s) => (.error err, s)
    | (.ok created, s) => syncSchedule replies s row.definition created.id "prod"

/-- Source: `routes_pipelines.go` `deriveStage`. -/
def deriveStage (status : PipelineStatus) (environment : String) : String :=
  if status = .active ∧ environment = "prod" then "production"
  else if status = .active ∧ environment = "test" then "testing"
  else "draft"

/-- Source: `routes_pipelines.go` `pipelineStage`. -/
def pipelineStage (rowId target : String) (allowBreakingContract : Bool) (newId : String) :
    Except ApiError Unit × PipelineState :=
  if target ≠ "testing" ∧ target ≠ "production" then
    (.error (.other "body.to must be \"testing\" or \"production\""), s)
  else match loadPipeline replies s rowId with
    | .error err => (.error err, s)
    | .ok none => (.error (.other "not found"), s)
    | .ok (some row) =>
      let stage := deriveStage row.status row.environment
      if stage = "draft" ∧ target = "testing" then pipelineActivate replies s rowId
      else if stage = "testing" ∧ target = "production" then
        pipelinePromote env replies s rowId allowBreakingContract newId
      else (.error (.other ("unsupported stage transition " ++ stage ++ " → " ++ target)), s)

/-! ## The system -/

/-- An operation, with what its calls reply, or a change of the executions by their workflows. -/
inductive PipelineEvent where
  | create (replies : CallReplies) (tenantId userId minted rowId : String)
      (definition : PipelineDefinition)
  | activate (replies : CallReplies) (rowId : String)
  | stage (replies : CallReplies) (rowId target : String) (allowBreakingContract : Bool)
      (newId : String)
  | promote (replies : CallReplies) (rowId : String) (allowBreakingContract : Bool)
      (newId : String)
  | executions (executions : List RunRecord)

/-- The state after an event. -/
def handle : PipelineEvent → PipelineState
  | .create replies tenantId userId minted rowId definition =>
    (pipelineCreate env replies s tenantId userId minted rowId definition).2
  | .activate replies rowId => (pipelineActivate replies s rowId).2
  | .stage replies rowId target allow newId =>
    (pipelineStage env replies s rowId target allow newId).2
  | .promote replies rowId allow newId => (pipelinePromote env replies s rowId allow newId).2
  | .executions executions => { s with executions := executions }

/-- Every operation is possible at any time. -/
def pipelineStep (e : PipelineEvent) : Option PipelineState := some (handle env s e)

/-- What the calls of an operation reply. -/
def PipelineEvent.calls : PipelineEvent → CallReplies
  | .create replies _ _ _ _ _ | .activate replies _ | .stage replies _ _ _ _
  | .promote replies _ _ _ => replies
  | .executions _ => {}

/-- The operation may break contracts. -/
def PipelineEvent.allowBreakingContract : PipelineEvent → Bool
  | .stage _ _ _ allow _ | .promote _ _ allow _ => allow
  | _ => false

/-- The version that `pipelineActivate` activates: it may be used, and the transaction commits. -/
def activatedRow (rowId : String) : Option PipelineRow :=
  match admitPipeline replies s rowId with
  | .ok row => if replies.transaction = none then some row else none
  | .error _ => none

/-- The version that `pipelinePromote` makes a new version of: it passes the gate, and the
transaction commits. -/
def promotedRow (rowId : String) (allowBreakingContract : Bool) (newId : String) :
    Option PipelineRow :=
  match admitPipeline replies s rowId with
  | .ok row =>
    if promotionGate env s row allowBreakingContract = .ok () ∧
      newId ∉ s.rows.map PipelineRow.id ∧ replies.transaction = none then some row else none
  | .error _ => none

/-- The stage of a version that can be loaded. -/
def stageOf (rowId : String) : Option String :=
  match loadPipeline replies s rowId with
  | .ok (some row) => some (deriveStage row.status row.environment)
  | _ => none

/-- The version that an operation activates. -/
def activation : PipelineEvent → Option PipelineRow
  | .activate replies rowId => activatedRow replies s rowId
  | .stage replies rowId target _ _ =>
    if stageOf replies s rowId = some "draft" ∧ target = "testing" then
      activatedRow replies s rowId
    else none
  | _ => none

/-- The version that an operation promotes, and the id of the new one. -/
def promotion : PipelineEvent → Option (PipelineRow × String)
  | .promote replies rowId allow newId =>
    (promotedRow env replies s rowId allow newId).map fun row => (row, newId)
  | .stage replies rowId target allow newId =>
    if stageOf replies s rowId = some "testing" ∧ target = "production" then
      (promotedRow env replies s rowId allow newId).map fun row => (row, newId)
    else none
  | _ => none

end code

/-! ## What an operation does -/

section effects

variable {env : PipelineEnv} {replies : CallReplies} {s s' : PipelineState} {e : PipelineEvent}
  {row : PipelineRow} {rowId newId : String}

/-- What an operation leaves. -/
inductive Effect (env : PipelineEnv) (s : PipelineState) (e : PipelineEvent) : PipelineState → Prop
  | nothing {s' : PipelineState} (rows : s'.rows = s.rows) (schedules : s'.schedules = s.schedules)
      (promotions : s'.promotions = s.promotions) : Effect env s e s'
  | created (row : PipelineRow) (fresh : row.id ∉ s.rows.map PipelineRow.id)
      (status : row.status = .draft) (environment : row.environment = "test")
      (key : env.parseUuid row.definition.id = some row.pipelineKey)
      (version : row.definition.version = row.version) :
      Effect env s e { s with rows := s.rows ++ [row] }
  | activated (row : PipelineRow) (activates : activation s e = some row) (mem : row ∈ s.rows) :
      Effect env s e
        (syncSchedule e.calls (s.activate row) row.definition row.id (rowEnvironment row)).2
  | promoted (row : PipelineRow) (newId : String)
      (promotes : promotion env s e = some (row, newId)) (mem : row ∈ s.rows)
      (gate : promotionGate env s row e.allowBreakingContract = .ok ())
      (fresh : newId ∉ s.rows.map PipelineRow.id) :
      Effect env s e
        (syncSchedule e.calls (s.promote row newId) row.definition newId "prod").2

theorem Effect.same : Effect env s e s := .nothing rfl rfl rfl

/-- A version that may be used is a row. -/
theorem mem_of_admitPipeline (h : admitPipeline replies s rowId = .ok row) : row ∈ s.rows := by
  unfold admitPipeline loadPipeline at h
  cases hload : replies.load with
  | some err =>
    simp [hload] at h
  | none =>
    rw [hload] at h
    dsimp only at h
    cases hfind : s.rows.find? fun row => row.id = rowId with
    | none =>
      simp [hfind] at h
    | some found =>
      rw [hfind] at h
      dsimp only at h
      cases hfeatures : enforcePipelineFeatures replies found.definition with
      | error err =>
        rw [hfeatures] at h
        cases h
      | ok _ =>
        rw [hfeatures] at h
        cases h
        exact mem_of_find?_eq_some hfind

/-- `pipelineActivate` does nothing, or activates a version. -/
theorem pipelineActivate_cases :
    (pipelineActivate replies s rowId).2 = s ∨ ∃ row, activatedRow replies s rowId = some row ∧
      row ∈ s.rows ∧ (pipelineActivate replies s rowId).2 =
        (syncSchedule replies (s.activate row) row.definition row.id (rowEnvironment row)).2 := by
  unfold pipelineActivate activatedRow
  cases hloaded : admitPipeline replies s rowId with
  | error err => exact .inl rfl
  | ok row =>
    cases htransaction : replies.transaction with
    | some err => exact .inl rfl
    | none => exact .inr ⟨row, if_pos rfl, mem_of_admitPipeline hloaded, rfl⟩

variable {allow : Bool}

/-- `pipelinePromote` does nothing, or promotes a version that passes the gate. -/
theorem pipelinePromote_cases : (pipelinePromote env replies s rowId allow newId).2 = s ∨
      ∃ row, promotedRow env replies s rowId allow newId = some row ∧ row ∈ s.rows ∧
        promotionGate env s row allow = .ok () ∧ newId ∉ s.rows.map PipelineRow.id ∧
        (pipelinePromote env replies s rowId allow newId).2 =
          (syncSchedule replies (s.promote row newId) row.definition newId "prod").2 := by
  unfold pipelinePromote promotedRow
  cases hloaded : admitPipeline replies s rowId with
  | error err => exact .inl rfl
  | ok row =>
    dsimp only
    unfold createProductionVersion
    cases hgate : promotionGate env s row allow with
    | error err => exact .inl rfl
    | ok _ =>
      dsimp only
      by_cases hfresh : newId ∈ s.rows.map PipelineRow.id
      · rw [if_pos hfresh]
        exact .inl rfl
      · rw [if_neg hfresh]
        cases htransaction : replies.transaction with
        | some err => exact .inl rfl
        | none =>
          exact .inr ⟨row, if_pos ⟨rfl, hfresh, rfl⟩, mem_of_admitPipeline hloaded, hgate,
            hfresh, rfl⟩

/-- The key of a definition that is accepted is the UUID that its id stands for. -/
theorem parseUuid_of_checkDefinition {tenantId minted key : String}
    {definition checked : PipelineDefinition}
    (h : checkDefinition env replies tenantId minted definition = .ok (checked, key)) :
    env.parseUuid checked.id = some key := by
  unfold checkDefinition at h
  dsimp only at h
  split_ifs at h with hid
  cases hvalid : validatePipeline env.enterprise env.ranging (withIds tenantId minted definition) with
  | error err =>
    simp [hvalid] at h
  | ok _ =>
    rw [hvalid] at h
    dsimp only at h
    cases hlimits : validatePipelineLimits env (withIds tenantId minted definition) with
    | error err =>
      simp [hlimits] at h
    | ok _ =>
      rw [hlimits] at h
      dsimp only at h
      cases hfeatures : enforcePipelineFeatures replies (withIds tenantId minted definition) with
      | error err =>
        simp [hfeatures] at h
      | ok _ =>
        rw [hfeatures] at h
        dsimp only at h
        cases hkey : env.parseUuid (withIds tenantId minted definition).id with
        | none =>
          simp [hkey] at h
        | some found =>
          rw [hkey] at h
          cases h
          exact hkey

/-- `pipelineCreate` does nothing, or adds a draft. -/
theorem pipelineCreate_cases {tenantId userId minted : String} {definition : PipelineDefinition} :
    (pipelineCreate env replies s tenantId userId minted rowId definition).2 = s ∨
      ∃ row : PipelineRow, row.id ∉ s.rows.map PipelineRow.id ∧ row.status = .draft ∧
        row.environment = "test" ∧ env.parseUuid row.definition.id = some row.pipelineKey ∧
        row.definition.version = row.version ∧
        (pipelineCreate env replies s tenantId userId minted rowId definition).2 =
          { s with rows := s.rows ++ [row] } := by
  unfold pipelineCreate
  cases hcheck : checkDefinition env replies tenantId minted definition with
  | error err => exact .inl rfl
  | ok checked =>
    obtain ⟨checked, key⟩ := checked
    dsimp only
    by_cases hfresh : rowId ∈ s.rows.map PipelineRow.id
    · rw [if_pos hfresh]
      exact .inl rfl
    · rw [if_neg hfresh]
      cases replies.transaction with
      | some err => exact .inl rfl
      | none =>
        have hkey := parseUuid_of_checkDefinition hcheck
        exact .inr ⟨_, hfresh, rfl, rfl, hkey, rfl, rfl⟩

/-- `pipelineStage` does nothing, or goes on as `pipelineActivate` or `pipelinePromote`. -/
theorem pipelineStage_cases {target : String} :
    (pipelineStage env replies s rowId target allow newId).2 = s ∨
      (stageOf replies s rowId = some "draft" ∧ target = "testing" ∧
        pipelineStage env replies s rowId target allow newId = pipelineActivate replies s rowId) ∨
      (stageOf replies s rowId = some "testing" ∧ target = "production" ∧
        pipelineStage env replies s rowId target allow newId =
          pipelinePromote env replies s rowId allow newId) := by
  unfold pipelineStage stageOf
  by_cases htarget : target ≠ "testing" ∧ target ≠ "production"
  · rw [if_pos htarget]
    exact .inl rfl
  · rw [if_neg htarget]
    cases loadPipeline replies s rowId with
    | error err => exact .inl rfl
    | ok found =>
      cases found with
      | none => exact .inl rfl
      | some row =>
        dsimp only
        split_ifs with hactivate hpromote
        · exact .inr (.inl ⟨by rw [hactivate.1], hactivate.2, rfl⟩)
        · exact .inr (.inr ⟨by rw [hpromote.1], hpromote.2, rfl⟩)
        · exact .inl rfl

/-- **What an operation does.** -/
theorem handle_effect : Effect env s e (handle env s e) := by
  cases e with
  | create replies tenantId userId minted rowId definition =>
    rw [handle]
    rcases pipelineCreate_cases with h | ⟨row, hfresh, hstatus, henvironment, hkey, hversion, h⟩
    · rw [h]
      exact .same
    · rw [h]
      exact .created row hfresh hstatus henvironment hkey hversion
  | activate replies rowId =>
    rw [handle]
    rcases pipelineActivate_cases with h | ⟨row, hrow, hmem, h⟩
    · rw [h]
      exact .same
    · rw [h]
      exact .activated row hrow hmem
  | promote replies rowId allow newId =>
    rw [handle]
    rcases pipelinePromote_cases with h | ⟨row, hrow, hmem, hgate, hfresh, h⟩
    · rw [h]
      exact .same
    · rw [h]
      refine .promoted row newId ?_ hmem hgate hfresh
      rw [promotion, hrow, map_some]
  | stage replies rowId target allow newId =>
    rw [handle]
    rcases pipelineStage_cases with h | ⟨hstage, htarget, h⟩ | ⟨hstage, htarget, h⟩
    · rw [h]
      exact .same
    · rw [h]
      rcases pipelineActivate_cases with h | ⟨row, hrow, hmem, h⟩
      · rw [h]
        exact .same
      · rw [h]
        refine .activated row ?_ hmem
        rw [activation, if_pos ⟨hstage, htarget⟩, hrow]
    · rw [h]
      rcases pipelinePromote_cases with h | ⟨row, hrow, hmem, hgate, hfresh, h⟩
      · rw [h]
        exact .same
      · rw [h]
        refine .promoted row newId ?_ hmem hgate hfresh
        rw [promotion, if_pos ⟨hstage, htarget⟩, hrow, map_some]
  | executions executions => exact .nothing rfl rfl rfl

/-- A version that is activated may be used, and the transaction commits. -/
theorem activatedRow_eq_some (h : activatedRow replies s rowId = some row) :
    row ∈ s.rows ∧ (pipelineActivate replies s rowId).2 =
      (syncSchedule replies (s.activate row) row.definition row.id (rowEnvironment row)).2 := by
  unfold activatedRow at h
  unfold pipelineActivate
  cases hloaded : admitPipeline replies s rowId with
  | error err =>
    simp [hloaded] at h
  | ok found =>
    rw [hloaded] at h
    dsimp only at h ⊢
    split_ifs at h with htransaction
    cases h
    rw [htransaction]
    exact ⟨mem_of_admitPipeline hloaded, rfl⟩

/-- A version that is promoted passes the gate, and the transaction commits. -/
theorem promotedRow_eq_some (h : promotedRow env replies s rowId allow newId = some row) :
    row ∈ s.rows ∧ (pipelinePromote env replies s rowId allow newId).2 =
      (syncSchedule replies (s.promote row newId) row.definition newId "prod").2 := by
  unfold promotedRow at h
  unfold pipelinePromote
  cases hloaded : admitPipeline replies s rowId with
  | error err =>
    simp [hloaded] at h
  | ok found =>
    rw [hloaded] at h
    dsimp only at h ⊢
    split_ifs at h with hpromoted
    cases h
    obtain ⟨hgate, hfresh, htransaction⟩ := hpromoted
    rw [createProductionVersion, hgate]
    rw [if_neg hfresh, htransaction]
    exact ⟨mem_of_admitPipeline hloaded, rfl⟩

/-- A version whose stage is known can be loaded. -/
theorem stageOf_eq_some {stage : String} (h : stageOf replies s rowId = some stage) :
    ∃ row, loadPipeline replies s rowId = .ok (some row) ∧
      deriveStage row.status row.environment = stage := by
  unfold stageOf at h
  cases hload : loadPipeline replies s rowId with
  | error err =>
    simp [hload] at h
  | ok found =>
    rw [hload] at h
    cases found with
    | none => cases h
    | some row => exact ⟨row, rfl, some.inj h⟩

/-- A draft that goes to testing is activated. -/
theorem pipelineStage_testing (h : stageOf replies s rowId = some "draft") :
    pipelineStage env replies s rowId "testing" allow newId = pipelineActivate replies s rowId := by
  obtain ⟨row, hload, hstage⟩ := stageOf_eq_some h
  rw [pipelineStage, if_neg (by decide), hload]
  exact if_pos ⟨hstage, rfl⟩

/-- A tested version that goes to production is promoted. -/
theorem pipelineStage_production (h : stageOf replies s rowId = some "testing") :
    pipelineStage env replies s rowId "production" allow newId =
      pipelinePromote env replies s rowId allow newId := by
  obtain ⟨row, hload, hstage⟩ := stageOf_eq_some h
  rw [pipelineStage, if_neg (by decide), hload]
  dsimp only
  rw [if_neg (fun h => absurd h.2 (by decide)), if_pos ⟨hstage, rfl⟩]

/-- An operation with a version to activate does so. -/
theorem handle_of_activation (h : activation s e = some row) : row ∈ s.rows ∧ handle env s e =
      (syncSchedule e.calls (s.activate row) row.definition row.id (rowEnvironment row)).2 := by
  cases e with
  | create => cases h
  | activate replies rowId => exact activatedRow_eq_some h
  | promote | executions => cases h
  | stage replies rowId target allow newId =>
    rw [activation] at h
    split_ifs at h with hstage
    obtain ⟨hdraft, rfl⟩ := hstage
    rw [handle, pipelineStage_testing hdraft]
    exact activatedRow_eq_some h

/-- An operation with a version to promote does so. -/
theorem handle_of_promotion (h : promotion env s e = some (row, newId)) :
    row ∈ s.rows ∧ handle env s e =
      (syncSchedule e.calls (s.promote row newId) row.definition newId "prod").2 := by
  cases e with
  | create | activate | executions => cases h
  | promote replies rowId allow newId' =>
    rw [promotion] at h
    obtain ⟨found, hfound, heq⟩ := map_eq_some_iff.mp h
    cases heq
    exact promotedRow_eq_some hfound
  | stage replies rowId target allow newId' =>
    rw [promotion] at h
    split_ifs at h with hstage
    obtain ⟨htesting, rfl⟩ := hstage
    obtain ⟨found, hfound, heq⟩ := map_eq_some_iff.mp h
    cases heq
    rw [handle, pipelineStage_production htesting]
    exact promotedRow_eq_some hfound

/-- The next version is above those that are there. -/
theorem version_lt_nextVersion {rows : List PipelineRow} (h : row ∈ rows) :
    row.version < nextVersion rows row.pipelineKey := by
  have hmem : row.version ∈
      (rows.filter fun other => other.pipelineKey = row.pipelineKey).map PipelineRow.version :=
    List.mem_map.mpr ⟨row, mem_filter.mpr ⟨h, decide_eq_true rfl⟩, rfl⟩
  unfold nextVersion
  rw [foldl_eq_foldr]
  have hle : row.version ≤ List.foldr max 0 _ := le_max_of_le' 0 hmem (le_refl _)
  omega

/-! ## The active versions -/

/-- Deleting a schedule leaves the versions. -/
theorem deleteSchedule_rows {environment id : String} :
    (deleteSchedule replies s environment id).rows = s.rows ∧
      (deleteSchedule replies s environment id).promotions = s.promotions := by
  unfold deleteSchedule
  split_ifs <;> exact ⟨rfl, rfl⟩

/-- Creating a schedule leaves the versions. -/
theorem createSchedule_rows {environment id : String} {schedule : Schedule} :
    (createSchedule replies s environment id schedule).2.rows = s.rows ∧
      (createSchedule replies s environment id schedule).2.promotions = s.promotions := by
  unfold createSchedule
  cases replies.create with
  | some err => exact ⟨rfl, rfl⟩
  | none => cases s.schedules environment id <;> exact ⟨rfl, rfl⟩

/-- Making schedules leaves the versions. -/
theorem syncSchedule_rows {definition : PipelineDefinition} {environment : String} :
    (syncSchedule replies s definition rowId environment).2.rows = s.rows ∧
      (syncSchedule replies s definition rowId environment).2.promotions = s.promotions := by
  unfold syncSchedule
  split_ifs with hcron
  · exact ⟨rfl, rfl⟩
  · rw [createSchedule_rows.1, createSchedule_rows.2, deleteSchedule_rows.1, deleteSchedule_rows.2]
    exact ⟨rfl, rfl⟩

variable {key key' environment environment' : String} {rows : List PipelineRow}

/-- The version that is found is active. -/
theorem isActive_of_activeRow (h : activeRow rows key environment = some row) :
    row ∈ rows ∧ IsActive key environment row := by
  have hactive := find?_some h
  exact ⟨mem_of_find?_eq_some h, of_decide_eq_true hactive⟩

theorem archive_of_not_isActive (h : ¬ IsActive key environment row) :
    archive key environment row = row := if_neg h

/-- A version of another pipeline or environment stays active, or not. -/
theorem isActive_archive_of_ne (hne : ¬ (key' = key ∧ environment' = environment)) :
    IsActive key' environment' (archive key environment row) ↔ IsActive key' environment' row := by
  by_cases h : IsActive key environment row
  · constructor
    · rintro ⟨hkey, henvironment, -⟩
      rw [archive, if_pos h] at hkey henvironment
      exact absurd ⟨hkey.symm.trans h.1, henvironment.symm.trans h.2.1⟩ hne
    · rintro ⟨hkey, henvironment, -⟩
      exact absurd ⟨hkey.symm.trans h.1, henvironment.symm.trans h.2.1⟩ hne
  · rw [archive_of_not_isActive h]

/-- No version is active any more after the active one has been archived. -/
theorem not_isActive_archive : ¬ IsActive key environment (archive key environment row) := by
  intro h
  by_cases hactive : IsActive key environment row
  · have hstatus := h.2.2
    simp [archive, if_pos hactive] at hstatus
  · rw [archive_of_not_isActive hactive] at h
    exact hactive h

/-- A change of the rows that leaves the active version of a pipeline and an environment. -/
theorem activeRow_map {f : PipelineRow → PipelineRow}
    (h : ∀ row ∈ rows, (IsActive key environment (f row) ↔ IsActive key environment row) ∧
      (IsActive key environment row → f row = row)) :
    activeRow (rows.map f) key environment = activeRow rows key environment := by
  unfold activeRow
  induction rows with
  | nil => rfl
  | cons row rows ih =>
    obtain ⟨hiff, hsame⟩ := h row mem_cons_self
    have hrest := ih fun other hother => h other (mem_cons_of_mem _ hother)
    rw [map_cons, find?_cons, find?_cons, hrest]
    by_cases hactive : IsActive key environment row
    · rw [decide_eq_true hactive, decide_eq_true (hiff.mpr hactive), hsame hactive]
    · rw [decide_eq_false hactive, decide_eq_false (fun hf => hactive (hiff.mp hf))]

/-- The only active version is found. -/
theorem activeRow_of_unique (hmem : row ∈ rows) (hactive : IsActive key environment row)
    (hunique : ∀ other ∈ rows, IsActive key environment other → other = row) :
    activeRow rows key environment = some row := by
  cases hfind : activeRow rows key environment with
  | none =>
    have hnone := find?_eq_none.mp hfind row hmem
    exact absurd (decide_eq_true hactive) hnone
  | some found =>
    obtain ⟨hfound, hfoundActive⟩ := isActive_of_activeRow hfind
    rw [hunique found hfound hfoundActive]

/-- A version more, which is not active. -/
theorem activeRow_append_of_not (h : ¬ IsActive key environment row) :
    activeRow (rows ++ [row]) key environment = activeRow rows key environment := by
  unfold activeRow
  rw [find?_append, find?_singleton, if_neg (by rwa [decide_eq_true_eq]), or_none]

theorem activeRow_archive_of_ne (hne : ¬ (key' = key ∧ environment' = environment)) :
    activeRow (rows.map (archive key environment)) key' environment' =
      activeRow rows key' environment' := by
  apply activeRow_map
  intro row _
  refine ⟨isActive_archive_of_ne hne, ?_⟩
  rintro ⟨hkey, henvironment, -⟩
  apply archive_of_not_isActive
  intro h
  exact hne ⟨hkey.symm.trans h.1, henvironment.symm.trans h.2.1⟩

/-- Archiving keeps the id, the key and the environment of a version. -/
theorem archive_fields (key environment : String) (row : PipelineRow) :
    (archive key environment row).id = row.id ∧
      (archive key environment row).pipelineKey = row.pipelineKey ∧
      (archive key environment row).environment = row.environment := by
  unfold archive
  split_ifs <;> exact ⟨rfl, rfl, rfl⟩

/-- A version that is activated. -/
def activated (row : PipelineRow) : PipelineRow := { row with status := .active }

theorem setActive_archive (row : PipelineRow) (key environment : String) :
    setActive row.id (archive key environment row) = activated row := by
  rw [setActive, if_pos (archive_fields key environment row).1, archive]
  split_ifs <;> rfl

/-- **The active versions after an activation.** -/
theorem activeRow_activate (hids : (s.rows.map PipelineRow.id).Nodup) (hmem : row ∈ s.rows)
    (henvironment : rowEnvironment row = row.environment) :
    activeRow (s.activate row).rows key environment =
      if key = row.pipelineKey ∧ environment = row.environment then some (activated row)
      else activeRow s.rows key environment := by
  have hself : ∀ other ∈ s.rows, other.id = row.id → other = row := fun other hother hid =>
    inj_on_of_nodup_map hids hother hmem hid
  unfold PipelineState.activate
  rw [henvironment, List.map_map]
  split_ifs with hkey
  · obtain ⟨rfl, rfl⟩ := hkey
    apply activeRow_of_unique
    · exact List.mem_map.mpr ⟨row, hmem, setActive_archive row _ _⟩
    · exact ⟨rfl, rfl, rfl⟩
    · intro other hother hactive
      obtain ⟨old, hold, rfl⟩ := List.mem_map.mp hother
      rw [comp_apply] at hactive ⊢
      by_cases hid : old.id = row.id
      · rw [hself old hold hid, setActive_archive]
      · rw [setActive, if_neg (by rwa [(archive_fields _ _ old).1])] at hactive
        exact absurd hactive not_isActive_archive
  · apply activeRow_map
    intro old hold
    rw [comp_apply]
    by_cases hid : old.id = row.id
    · rw [hself old hold hid, setActive_archive]
      constructor
      · constructor
        · intro h
          exact absurd ⟨h.1.symm, h.2.1.symm⟩ hkey
        · intro h
          exact absurd ⟨h.1.symm, h.2.1.symm⟩ hkey
      · intro h
        exact absurd ⟨h.1.symm, h.2.1.symm⟩ hkey
    · rw [setActive, if_neg (by rwa [(archive_fields _ _ old).1])]
      refine ⟨isActive_archive_of_ne hkey, ?_⟩
      intro h
      apply archive_of_not_isActive
      intro hactive
      exact hkey ⟨h.1.symm.trans hactive.1, h.2.1.symm.trans hactive.2.1⟩

/-- **The active versions after a promotion.** -/
theorem activeRow_promote : activeRow (s.promote row newId).rows key environment =
      if key = row.pipelineKey ∧ environment = "prod" then some (productionRow s row newId)
      else activeRow s.rows key environment := by
  unfold PipelineState.promote
  split_ifs with hkey
  · obtain ⟨rfl, rfl⟩ := hkey
    have hnone : activeRow (s.rows.map (archive row.pipelineKey "prod")) row.pipelineKey "prod" =
        none := by
      unfold activeRow
      rw [find?_eq_none]
      intro other hother
      obtain ⟨old, -, rfl⟩ := List.mem_map.mp hother
      rw [decide_eq_true_eq]
      exact not_isActive_archive
    have hnew : IsActive row.pipelineKey "prod" (productionRow s row newId) := ⟨rfl, rfl, rfl⟩
    unfold activeRow at hnone ⊢
    rw [find?_append, hnone, find?_singleton, if_pos (decide_eq_true hnew), none_or]
  · rw [activeRow_append_of_not, activeRow_archive_of_ne hkey]
    intro h
    exact hkey ⟨h.1.symm, h.2.1.symm⟩

end effects

end Dataflow.Api
