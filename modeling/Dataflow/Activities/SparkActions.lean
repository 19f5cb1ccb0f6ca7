import Dataflow.Api.PipelineValidation
import Dataflow.Connectors.Values
import Dataflow.Workflows.SparkJob

/-!
# `SubmitSparkJob` and `CommitSparkJob`

The activities of the engine `spark-sql`. A submission reads the snapshot that was ingested last,
asks the catalog for the current one, and creates an application that reads what lies between them,
or the whole table. A commit stores the snapshot that was current at the submission.

* `ActivityRequest`, `ActivityReply`, `ActivityProgram`: what an activity of the worker asks for.
* `icebergCurrentSnapshot`: the lookup in the catalog, with the credentials of a connector
  instance.
* `SparkView`, `sourceSQL`, `sinkSQL`, `buildApplication`: the application.
* `submitSparkJob`, `commitSparkJob`: the activities.

Source: `ee/activities/spark.go`, `ee/spark/spec.go`, `files.go`, `credentials.go`
-/

namespace Dataflow.Activities

open Api Connectors Library Model Workflows

/-! ## The application -/

/-- The view that the application reads from: a file, the rows between two snapshots of an Iceberg
table, or the table as it is when the query runs. -/
inductive SparkView where
  | parquet (bucket key : String)
  | between (namespaceName table previous current : String)
  | whole (namespaceName table : String)
  deriving DecidableEq

/-- The statement that makes the view. -/
def SparkView.sql : SparkView → String
  | .parquet bucket key =>
    "CREATE OR REPLACE TEMP VIEW source USING parquet OPTIONS (path 's3a://" ++ bucket ++ "/" ++
      key ++ "');"
  | .between namespaceName table previous current =>
    "CREATE OR REPLACE TEMP VIEW source USING iceberg OPTIONS (path 'iceberg." ++ namespaceName ++
      "." ++ table ++ "', " ++ quoted graveAccent "start-snapshot-id" ++ " '" ++ previous ++ "', " ++
      quoted graveAccent "end-snapshot-id" ++ " '" ++ current ++ "');"
  | .whole namespaceName table =>
    "CREATE OR REPLACE TEMP VIEW source AS SELECT * FROM iceberg." ++ namespaceName ++ "." ++ table ++
      ";"

/-- What is posted to the Spark operator: its name, the view and the statement that reads it. -/
structure SparkApplication where
  name : String
  view : SparkView
  output : String
  deriving DecidableEq

/-- Source: `spec.go` `text`. -/
def specText : Json → String
  | .string value => trimSpace value
  | _ => ""

/-- Source: `spec.go` `safePath`; the characters that are excluded are the quote and the
backslash. -/
def safePath (value : String) : Bool :=
  value ≠ "" && !value.toList.tails.any (List.isPrefixOf ['.', '.']) &&
    value.toList.all fun c => c.toNat ≠ 39 && c.toNat ≠ 92

/-- Source: `spec.go` `sourceSQL`. -/
def sourceSQL (node : Node) (previous current : String) : Except String SparkView :=
  if node.activityType = "s3.fetch" then
    let bucket := specText (node.config.get "bucket")
    let key := specText (node.config.get "key")
    if ¬ safePath bucket ∨ ¬ safePath key then .error "unsafe S3 source path"
    else .ok (.parquet bucket key)
  else if node.activityType = "iceberg.fetch" then
    let namespaceName := specText (node.config.get "namespace")
    let table := specText (node.config.get "table")
    if ¬ isSnowflakePath namespaceName ∨ ¬ isSnowflakePath table then .error "invalid Iceberg source"
    else if previous ≠ "" ∧ current ≠ "" then .ok (.between namespaceName table previous current)
    else .ok (.whole namespaceName table)
  else .error ("unsupported Spark source " ++ node.activityType)

/-- Source: `spec.go` `sinkSQL`. -/
def sinkSQL (node : Node) (selectSQL : String) : Except String String :=
  if node.activityType = "sink.iceberg" then
    let namespaceName := specText (node.config.get "namespace")
    let table := specText (node.config.get "table")
    if ¬ isSnowflakePath namespaceName ∨ ¬ isSnowflakePath table then .error "invalid Iceberg sink"
    else .ok ("INSERT INTO iceberg." ++ namespaceName ++ "." ++ table ++ " " ++ trimSpace selectSQL)
  else if node.activityType = "sink.clickhouse" then
    let table := specText (node.config.get "table")
    if ¬ isSnowflakePath table then .error "invalid ClickHouse sink"
    else .ok ("INSERT INTO clickhouse." ++ table ++ " " ++ trimSpace selectSQL)
  else .error ("unsupported Spark sink " ++ node.activityType)

/-- The last node of a type, which the loops over the nodes keep. -/
def lastOfType (definition : PipelineDefinition) (type : NodeType) : Option Node :=
  (definition.nodes.filter fun node => node.type = type).getLast?

/-- The name of the application of an execution; execution ids are ASCII texts. -/
def applicationName (executionId : String) : String :=
  let id := executionId.toList
  let id := if List.isPrefixOf "exec-".toList id then id.drop 5 else id
  .ofList (("dataflow-spark-".toList ++ id).take 63)

/-- Source: `spec.go` `BuildApplication`. -/
def buildApplication (enterprise : Enterprise) (definition : PipelineDefinition)
    (executionId previousSnapshot currentSnapshot : String) : Except String SparkApplication :=
  match definition.execution with
  | none => .error "invalid spark-sql transform"
  | some execution =>
    match enterprise.validateSparkSelect execution.transformSql with
    | .error _ => .error "invalid spark-sql transform"
    | .ok () =>
      match lastOfType definition .source, lastOfType definition .sink with
      | some source, some sink => do
          let view ← sourceSQL source previousSnapshot currentSnapshot
          let output ← sinkSQL sink execution.transformSql
          return { name := applicationName executionId, view, output }
      | _, _ => .error "spark-sql requires one source and one sink"

/-! ## Requests -/

/-- A row of `connector_instances` with its decrypted secrets; `tenantId` is what `stringValue`
makes of the column, `baseUrl` that of the field of `extra`. -/
structure CredentialRow where
  tenantId : String
  provider : String := ""
  baseUrl : String := ""
  deriving DecidableEq

/-- What an activity asks for. `connect` uses a connector instance: it opens a connection with its
credentials, or hands out the one that is cached. `prepare` is the part of a connector before that;
it says whether the connector goes on to its instance. -/
inductive ActivityRequest where
  | requireEntitlement (tenantId activityType : String) (config : JsonMap)
  | ownsConnector (tenantId id : String)
  | prepare (activityType : String) (config : JsonMap)
  | cachedConnection (id : String)
  | credential (id : String)
  | connect (id : String) (config : JsonMap)
  | validateURL (endpoint : String)
  | selectState (tenantId connectionId : String)
  | upsertState (tenantId connectionId : String) (cursor : JsonMap)
  | createApplication (application : SparkApplication)

/-- The replies; that of `connect` is a text, the current snapshot of an Iceberg table. -/
def ActivityReply : ActivityRequest → Type
  | .requireEntitlement _ _ _ => Except String Unit
  | .ownsConnector _ _ => Except String Bool
  | .prepare _ _ => Except String Bool
  | .cachedConnection _ => Bool
  | .credential _ => Except String CredentialRow
  | .connect _ _ => Except String String
  | .validateURL _ => Except String Unit
  | .selectState _ _ => Except String (Option JsonMap)
  | .upsertState _ _ _ => Except String Unit
  | .createApplication _ => Except String Unit

/-- An activity. -/
abbrev ActivityProgram := Coroutine ActivityRequest ActivityReply Unit

/-- Ask. -/
def ask {α : Type} (request : ActivityRequest) (k : ActivityReply request → ActivityProgram α) :
    ActivityProgram α :=
  .await request fun reply _ => k reply

/-! ## The activities -/

section code

variable (formatting : Formatting) (enterprise : Enterprise)

/-- Source: `credentials.go` `credential`; the database casts the id to a UUID, and the empty text
is none. -/
def credential (id : String) : ActivityProgram (Except String CredentialRow) :=
  if id = "" then .done (.error "invalid input syntax for type uuid")
  else ask (.credential id) fun reply => .done reply

/-- The configuration names a table. -/
def NamesTable (config : JsonMap) : Prop :=
  (splitText '.' (stringValue formatting (config.get "namespace"))).headD "" ≠ "" ∧
    stringValue formatting (config.get "table") ≠ ""

instance (config : JsonMap) : Decidable (NamesTable formatting config) :=
  inferInstanceAs (Decidable (_ ∧ _))

/-- Source: `files.go` `icebergTable`, `IcebergCurrentSnapshot`. -/
def icebergCurrentSnapshot (config : JsonMap) : ActivityProgram (Except String String) :=
  let id := stringValue formatting (config.get "connectionId")
  (credential id).bind fun
    | .error err => .done (.error err)
    | .ok _ =>
      if NamesTable formatting config then ask (.connect id config) fun reply => .done reply
      else .done (.error "iceberg: namespace and table are required")

/-- The key of the state of a source. -/
def sparkStateKey (pipelineId nodeId : String) : String := "spark:" ++ pipelineId ++ ":" ++ nodeId

/-- The snapshot in the stored state: `fmt.Sprint`, where nil is no snapshot. -/
def previousSnapshot (state : Except String (Option JsonMap)) : String :=
  let stored : JsonMap :=
    match state with
    | .ok (some cursor) => cursor
    | _ => []
  match stored.get "snapshotId" with
  | .null => ""
  | value =>
    let text := stringValue formatting value
    if text = "<nil>" then "" else text

/-- The last part of `SubmitSparkJob`: the application is created. -/
def createApplication (definition : PipelineDefinition) (executionId previous current : String)
    (ref : SparkJobRef) : ActivityProgram (Except String SparkJobRef) :=
  match buildApplication enterprise definition executionId previous current with
  | .error err => .done (.error err)
  | .ok application =>
    ask (.createApplication application) fun
      | .error err => .done (.error err)
      | .ok () => .done (.ok { ref with name := application.name })

/-- The part of `SubmitSparkJob` after the source; an error of the sink's catalog is ignored. -/
def submitOutput (definition : PipelineDefinition) (executionId previous current : String)
    (ref : SparkJobRef) : ActivityProgram (Except String SparkJobRef) :=
  match lastOfType definition .sink with
  | some sink =>
    if sink.activityType = "sink.iceberg" then
      (icebergCurrentSnapshot formatting sink.config).bind fun before =>
        createApplication enterprise definition executionId previous current
          { ref with outputBefore := before.toOption.getD "" }
    else createApplication enterprise definition executionId previous current ref
  | none => createApplication enterprise definition executionId previous current ref

/-- Source: `spark.go` `SubmitSparkJob`. -/
def submitSparkJob (definition : PipelineDefinition) (tenantId executionId : String) :
    ActivityProgram (Except String SparkJobRef) :=
  match lastOfType definition .source with
  | some source =>
    if source.activityType = "iceberg.fetch" then
      let key := sparkStateKey definition.id source.id
      ask (.selectState tenantId key) fun state =>
        let previous := previousSnapshot formatting state
        (icebergCurrentSnapshot formatting source.config).bind fun
          | .error err => .done (.error err)
          | .ok current =>
            if previous ≠ "" ∧ previous = current then
              .done (.ok { inputStateKey := key, inputSnapshot := current, noop := true })
            else
              submitOutput formatting enterprise definition executionId previous current
                { inputStateKey := key, inputSnapshot := current }
    else submitOutput formatting enterprise definition executionId "" "" {}
  | none => submitOutput formatting enterprise definition executionId "" "" {}

/-- The loop of `CommitSparkJob`: every Iceberg sink has a new snapshot. -/
def checkOutputs (ref : SparkJobRef) : List Node → ActivityProgram (Except String Unit)
  | [] => .done (.ok ())
  | node :: nodes =>
    if node.type = .sink ∧ node.activityType = "sink.iceberg" then
      (icebergCurrentSnapshot formatting node.config).bind fun
        | .error err => .done (.error err)
        | .ok snapshot =>
          if snapshot = "" ∨ snapshot = ref.outputBefore then
            .done (.error "Spark completed without an Iceberg output snapshot")
          else checkOutputs ref nodes
    else checkOutputs ref nodes

/-- The state that is stored for a snapshot. -/
def sparkState (snapshot : String) : JsonMap := [("snapshotId", .string snapshot)]

/-- Source: `spark.go` `CommitSparkJob`. -/
def commitSparkJob (ref : SparkJobRef) (definition : PipelineDefinition) (tenantId : String) :
    ActivityProgram (Except String Unit) :=
  (checkOutputs formatting ref definition.nodes).bind fun
    | .error err => .done (.error err)
    | .ok () =>
      if ref.inputStateKey ≠ "" ∧ ref.inputSnapshot ≠ "" then
        ask (.upsertState tenantId ref.inputStateKey (sparkState ref.inputSnapshot)) fun reply =>
          .done reply
      else .done (.ok ())

end code

end Dataflow.Activities
