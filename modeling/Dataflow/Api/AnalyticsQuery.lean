import Dataflow.Api.Chsql

/-!
# The analytics queries

The handlers of the analytics page send queries on the table `sink_records` to ClickHouse. The first
condition of every query is one on `tenant_id`.

* `analyticsScope`: the conditions on the tenant and the dataset.
* `AnalyticsServer.datasetsQuery`, `recordsQuery`, `countQuery`, `rowsQuery`: the fixed queries.
* `AnalyticsSpec`, `AnalyticsServer.analyticsQuery`: the query that a request describes.
* `AnalyticsCall`, `AnalyticsCall.texts`: all queries, and the texts that are quoted in them.

Source: `routes_analytics.go`
-/

namespace Dataflow.Api

open Library Model Chsql

/-! ## The code -/

/-- Flat caps for a query. -/
def chMaxExecution : String := "max_execution_time=10"

def chMaxRows : String := "max_rows_to_read=10000000"

/-- Source: `routes_analytics.go` `analyticsScope`. -/
def analyticsScope (tenantId collection : String) : List Expr :=
  [raw "tenant_id=" ++ string tenantId] ++
    if collection ≠ "" then [raw "collection=" ++ string collection] else []

/-- A filter of a query. -/
structure AnalyticsFilter where
  field : String
  op : String
  value : Json

/-- The body of a request for a query. -/
structure AnalyticsSpec where
  dataset : String := ""
  select : List String := []
  groupBy : List String := []
  filters : List AnalyticsFilter := []
  aggregate : Option (String × String) := none
  orderBy : Option (String × String) := none
  timeRange : Option (String × String) := none
  bucket : String := ""
  limit : ℤ := 0

/-- The handler ends with a response, or with an error of the builder. -/
inductive AnalyticsError where
  | badRequest (message : String)
  | internal (message : String)

/-- Texts of values, and `time.Parse` and `Format` with the layout `time.RFC3339`, in UTC. -/
structure AnalyticsServer extends Rendering where
  parseTime : String → Option ℤ
  formatTime : ℤ → String
  plain_formatTime : ∀ time, backslash ∉ (formatTime time).toList

/-- The intervals of a bucket. -/
def bucketIntervals : List (String × String) :=
  [("minute", "1 minute"), ("5 minute", "5 minute"), ("15 minute", "15 minute"), ("hour", "1 hour"),
    ("day", "1 day"), ("week", "1 week")]

/-- The functions of an aggregate. -/
def aggregateFns : List String := ["count", "sum", "avg", "min", "max"]

/-- A start of an interval. -/
def bucketExpr (interval : String) : Expr :=
  raw ("toStartOfInterval(created_at, INTERVAL " ++ interval ++ ")")

namespace AnalyticsServer

variable (server : AnalyticsServer)

/-- Source: `routes_analytics.go` `analyticsTimeRangeClauses`. -/
def analyticsTimeRangeClauses (start stop : String) : Except String (List Expr) :=
  match server.parseTime start with
  | none => .error "timeRange.from must be RFC3339"
  | some start =>
    match server.parseTime stop with
    | none => .error "timeRange.to must be RFC3339"
    | some stop =>
      if ¬ start < stop then .error "timeRange.from must be before timeRange.to"
      else .ok
        [raw "created_at >= " ++
          literal server.toRendering "date" (.string (server.formatTime start)),
         raw "created_at < " ++
          literal server.toRendering "date" (.string (server.formatTime stop))]

/-- A query on the table. -/
def sinkRecords : Select := { «from» := "sink_records", final := true }

/-- Source: `routes_analytics.go` `analyticsDatasets`. -/
def datasetsQuery (tenantId : String) : Select :=
  let s := (sinkRecords.column server.toRendering (raw "collection") "").column server.toRendering
    (raw "count()") "row_count"
  { s with
    «where» := analyticsScope tenantId ""
    groupBy := [raw "collection"]
    orderBy := [(raw "collection", false)] }

/-- Source: `routes_analytics.go` `datasetRecords`. -/
def recordsQuery (tenantId name : String) : Select :=
  { sinkRecords.column server.toRendering (raw "record") "" with
    «where» := analyticsScope tenantId name, limit := 100 }

/-- Source: `routes_analytics.go` `analyticsRows`, the number of rows. -/
def countQuery (tenantId name : String) : Select :=
  { sinkRecords.column server.toRendering (raw "count()") "total" with
    «where» := analyticsScope tenantId name }

/-- Source: `routes_analytics.go` `analyticsRows`, the rows. The texts of the limit and the offset
have been converted, to zero where that fails. -/
def rowsQuery (tenantId name : String) (limit offset : ℤ) : Select :=
  let s := (sinkRecords.column server.toRendering (raw "record") "").column server.toRendering
    (raw "created_at") ""
  { s with
    «where» := analyticsScope tenantId name
    orderBy := [(raw "created_at", true)]
    limit := if limit < 1 ∨ 200 < limit then 50 else limit
    offset := if offset < 0 then 0 else offset
    settings := [chMaxExecution, chMaxRows] }

/-- A field of a record, with its type in the schema. -/
def field (schema : String → Option String) (name : String) : Except AnalyticsError Expr :=
  match schema name with
  | none => .error (.badRequest ("Field " ++ server.quote name ++ " is not in the dataset schema"))
  | some kind => (jsonField server.toRendering (raw "record") name kind).mapError .badRequest

/-- The columns of `select`. -/
def selectColumn (schema : String → Option String) (s : Select) (name : String) :
    Except AnalyticsError Select := do
  let expr ← server.field schema name
  return s.column server.toRendering expr name

/-- The columns of `groupBy`. -/
def groupColumn (schema : String → Option String) (selected : List String) (s : Select)
    (name : String) : Except AnalyticsError Select := do
  let expr ← server.field schema name
  let s := { s with groupBy := s.groupBy ++ [expr] }
  return if name ∈ selected then s else s.column server.toRendering expr name

/-- The column of a bucket. -/
def bucketColumn (s : Select) (bucket : String) : Except AnalyticsError Select :=
  if bucket = "" then .ok s
  else
    match bucketIntervals.lookup bucket with
    | none => .error (.badRequest
        "invalid bucket; use minute, 5 minute, 15 minute, hour, day, or week")
    | some interval =>
      let s := s.column server.toRendering (bucketExpr interval) "time_bucket"
      .ok { s with groupBy := s.groupBy ++ [bucketExpr interval] }

/-- The column of an aggregate. -/
def aggregateColumn (schema : String → Option String) (s : Select) :
    Option (String × String) → Except AnalyticsError Select
  | none => .ok s
  | some (name, fn) =>
    if fn ∉ aggregateFns then .error (.badRequest "invalid aggregate function")
    else (server.field schema name).map fun expr =>
      s.column server.toRendering (raw (fn ++ "(") ++ expr ++ raw ")") "aggregate_value"

/-- The condition of a filter. -/
def filterCondition (schema : String → Option String) (filter : AnalyticsFilter) :
    Except AnalyticsError Expr := do
  let expr ← server.field schema filter.field
  let kind := (schema filter.field).getD ""
  if filter.op = "IN" then
    match filter.value with
    | .array (value :: values) =>
      return inValues expr ((value :: values).map (literal server.toRendering kind))
    | _ => throw (.badRequest "IN value must be a non-empty array")
  else
    match compare server.quote expr filter.op (literal server.toRendering kind filter.value) with
    | .error _ => throw (.badRequest "invalid operator")
    | .ok condition => return condition

/-- The conditions of a range of time. -/
def timeRangeConditions : Option (String × String) → Except AnalyticsError (List Expr)
  | none => .ok []
  | some (start, stop) => (server.analyticsTimeRangeClauses start stop).mapError .badRequest

/-- What is ordered by. -/
def order (schema : String → Option String) (spec : AnalyticsSpec) :
    Except AnalyticsError (List (Expr × Bool)) :=
  match spec.orderBy with
  | none => .ok (if spec.bucket ≠ "" then [(raw "time_bucket", false)] else [])
  | some (name, dir) =>
    let desc := decide (dir = "DESC")
    if name = "aggregate_value" ∨ name = "time_bucket" then .ok [(raw name, desc)]
    else (server.field schema name).map fun expr => [(expr, desc)]

/-- The limit of a query. -/
def queryLimit (limit : ℤ) : ℤ :=
  let limit := if limit < 1 then 1000 else limit
  if 10000 < limit then 10000 else limit

/-- The whole record is selected if nothing else is. -/
def recordColumn (spec : AnalyticsSpec) (s : Select) : Select :=
  if spec.select = [] ∧ spec.groupBy = [] ∧ spec.bucket = "" ∧ spec.aggregate = none then
    s.column server.toRendering (raw "record") ""
  else s

/-- The conditions, the order and the limit of a query. -/
def withConditions (tenantId : String) (spec : AnalyticsSpec) (range filters : List Expr)
    (orderBy : List (Expr × Bool)) (s : Select) : Select :=
  { s with
    «where» := analyticsScope tenantId spec.dataset ++ range ++ filters
    orderBy := orderBy
    limit := queryLimit spec.limit
    settings := [chMaxExecution, chMaxRows] }

/-- Source: `routes_analytics.go` `analyticsQuery`, up to the query that is sent. -/
def analyticsQuery (tenantId : String) (schema : String → Option String) (spec : AnalyticsSpec) :
    Except AnalyticsError Expr :=
  if spec.dataset = "" then .error (.badRequest "dataset is required")
  else do
    let s ← spec.select.foldlM (server.selectColumn schema) sinkRecords
    let s ← spec.groupBy.foldlM (server.groupColumn schema spec.select) s
    let s ← server.bucketColumn s spec.bucket
    let s ← server.aggregateColumn schema s spec.aggregate
    let range ← server.timeRangeConditions spec.timeRange
    let filters ← spec.filters.mapM (server.filterCondition schema)
    let orderBy ← server.order schema spec
    (withConditions tenantId spec range filters orderBy (server.recordColumn spec s)).build.mapError
      .internal

/-! ## The queries that are sent -/

end AnalyticsServer

/-- A query that is sent. -/
inductive AnalyticsCall where
  | datasets
  | records (name : String)
  | count (name : String)
  | rows (name : String) (limit offset : ℤ)
  | query (schema : String → Option String) (spec : AnalyticsSpec)

/-- Its text. -/
def AnalyticsCall.build (server : AnalyticsServer) (tenantId : String) :
    AnalyticsCall → Except AnalyticsError Expr
  | .datasets => (server.datasetsQuery tenantId).build.mapError .internal
  | .records name => (server.recordsQuery tenantId name).build.mapError .internal
  | .count name => (server.countQuery tenantId name).build.mapError .internal
  | .rows name limit offset =>
    (server.rowsQuery tenantId name limit offset).build.mapError .internal
  | .query schema spec => server.analyticsQuery tenantId schema spec

/-- The values of a filter that are written with `literal`. -/
def AnalyticsFilter.values (filter : AnalyticsFilter) : List Json :=
  if filter.op = "IN" then
    match filter.value with
    | .array values => values
    | _ => []
  else [filter.value]

/-- The name of a dataset is quoted if there is one. -/
def datasetTexts (name : String) : List String := if name ≠ "" then [name] else []

/-- The texts that are quoted in a query. The paths of fields and the times are quoted too, but they
are written without a backslash. -/
def AnalyticsCall.texts (server : AnalyticsServer) (tenantId : String) : AnalyticsCall → List String
  | .datasets => [tenantId]
  | .records name | .count name | .rows name _ _ => tenantId :: datasetTexts name
  | .query schema spec => tenantId :: datasetTexts spec.dataset ++
      spec.filters.flatMap fun filter => filter.values.flatMap fun value =>
        (server.value ((schema filter.field).getD "") value).texts

end Dataflow.Api
