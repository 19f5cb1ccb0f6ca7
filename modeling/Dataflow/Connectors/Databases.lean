import Dataflow.Connectors.Values

/-!
# Database sources

The four database connectors read a table, or a collection, page by page. Each of them checks its
configuration, asks for the rows after the cursor in the order of a column, a page and one row more,
and takes the next cursor from the last row of the page.

* `Condition`, `Query`: what is asked for; the text of the statement is determined by it.
* `SourceParams`, `SourceResult`: what a connector is called with and what it gives back.
* `Pagination`, `fetchPage`: what the connectors share.
* `postgresFetch`, `mysqlFetch`, `mongoFetch`, `snowflakeFetch`, `DatabaseSource`: the code.

Source: `databases.go`
-/

namespace Dataflow.Connectors

open Activities Model

/-! ## Queries -/

/-- A condition on a column, with the value it is compared with. -/
inductive Condition (G : Type) where
  | exceeds (column : String) (value : G)
  | atLeast (column : String) (text : String)
  | below (column : String) (text : String)

/-- A query: the columns (`none` are all), the table, the conditions, the column that the rows are
ordered by, and the number of rows. Columns and tables are written as in the statement. -/
structure Query (G : Type) where
  columns : Option (List String)
  table : String
  conditions : List (Condition G)
  order : Option String
  limit : ℕ

/-- A row as the driver hands it over: the row and the columns that were asked for. -/
structure Record (α : Type) where
  row : α
  columns : Option (List String)
  deriving DecidableEq

/-- A Go map with values of the driver; `none` is nil. -/
abbrev Fields (G : Type) := List (String × Option G)

/-- `m[key]`. -/
def Fields.get {G : Type} (fields : Fields G) (key : String) : Option G := (fields.lookup key).join

/-- `m[key] = value`. -/
def Fields.set {G : Type} (fields : Fields G) (key : String) (value : Option G) : Fields G :=
  (key, value) :: fields.filter fun entry => entry.1 ≠ key

@[simp] theorem Fields.get_set {G : Type} (fields : Fields G) (key : String) (value : Option G) :
    (fields.set key value).get key = value := by
  rw [Fields.get, Fields.set, List.lookup_cons, beq_self_eq_true]
  rfl

/-- Source: `runtime.go` `SourceParams`. -/
structure SourceParams (G : Type) where
  config : JsonMap
  cursor : Fields G := []
  ingestion : Option IngestionConfig := none

/-- Source: `runtime.go` `SourceResult`. -/
structure SourceResult (α G : Type) where
  records : List (Record α)
  nextCursor : Fields G
  hasMore : Bool
  lagRecords : ℤ := 0

/-! ## Pages -/

/-- How a connector pages through a table, once its configuration is checked: `conditions` are those
at a cursor, and `read` is the name of the field that the next cursor is taken from, if it is taken
from one. -/
structure Pagination (G : Type) where
  columns : Option (List String) := none
  table : String
  conditions : Option G → List (Condition G)
  order : Option String
  read : Option String
  page : ℕ

/-- The query at a cursor: a page and one row more. -/
def Pagination.query {G : Type} (pagination : Pagination G) (value : Option G) : Query G where
  columns := pagination.columns
  table := pagination.table
  conditions := pagination.conditions value
  order := pagination.order
  limit := pagination.page + 1

section fetch

variable {α G : Type} (conversions : Conversions) (field : Record α → String → Option G)
  (database : Query G → Except String (List (Record α)))

/-- The cursor after a page. -/
def Pagination.next (pagination : Pagination G) (cursor : Fields G) (values : List (Record α)) :
    Fields G :=
  match values.getLast?, pagination.read with
  | some last, some name => cursor.set "value" (field last name)
  | _, _ => cursor

/-- The part of a connector after its query. -/
def Pagination.result (pagination : Pagination G) (cursor : Fields G) (values : List (Record α)) :
    SourceResult α G :=
  let hasMore := decide (pagination.page < values.length)
  let values := if hasMore then values.take pagination.page else values
  { records := values, nextCursor := pagination.next field cursor values, hasMore }

/-- A page is fetched. -/
def fetchPage (pagination : Pagination G) (cursor : Fields G) : Except String (SourceResult α G) :=
  (database (pagination.query (cursor.get "value"))).map (pagination.result field cursor)

/-! ## The connectors -/

/-- The columns of the configuration. -/
def postgresColumns (config : JsonMap) : Except String (Option (List String)) :=
  let value := stringValue conversions.toFormatting (config.get "columns")
  if value ≠ "" ∧ value ≠ "*" then
    ((splitText ',' value).mapM fun item => quoteIdentifier conversions (trimSpace item)).map some
  else .ok none

/-- A cursor that is compared with a column. -/
def afterCursor (column : String) (value : Option G) : List (Condition G) :=
  (value.map (Condition.exceeds column)).toList

/-- The start of the range of a backfill. -/
def startCondition (column : String) (ingestion : Option IngestionConfig) : List (Condition G) :=
  match ingestion with
  | some ingestion =>
    if ingestion.mode = "backfill" then [.atLeast column ingestion.backfillStart] else []
  | none => []

/-- The end of the range of a backfill. -/
def endCondition (column : String) (ingestion : Option IngestionConfig) : List (Condition G) :=
  match ingestion with
  | some ingestion =>
    if ingestion.backfillEnd ≠ "" then [.below column ingestion.backfillEnd] else []
  | none => []

/-- The conditions of a page: the cursor takes the place of the start. -/
def postgresConditions (column : String) (ingestion : Option IngestionConfig) (value : Option G) :
    List (Condition G) :=
  (match value with
    | some value => [.exceeds column value]
    | none => startCondition column ingestion) ++ endCondition column ingestion

/-- Source: `databases.go` `postgresFetch`, up to its query. -/
def postgresPagination (config : JsonMap) (ingestion : Option IngestionConfig) :
    Except String (Pagination G) := do
  let table ← quotePath conversions (stringValue conversions.toFormatting (config.get "table"))
  let cursorColumn ←
    (quoteIdentifier conversions
      (stringValue conversions.toFormatting (config.get "cursorColumn"))).mapError
        fun _ => "postgres.fetch: cursorColumn required"
  let columns ← postgresColumns conversions config
  return {
    columns, table
    conditions := postgresConditions cursorColumn ingestion
    order := some cursorColumn
    read := some (trimQuotes cursorColumn)
    page := boundedPageSize conversions
      [(ingestion.map fun ingestion => Json.number ingestion.pageSize).getD .null,
        config.get "pageSize"] }

/-- Source: `databases.go` `mysqlFetch`, up to its query. -/
def mysqlPagination (config : JsonMap) : Except String (Pagination G) :=
  let table := stringValue conversions.toFormatting (config.get "table")
  let column := stringValue conversions.toFormatting (config.get "cursorColumn")
  if ¬ isIdentifier table ∨ ¬ isIdentifier column then
    .error "mysql.fetch: invalid table or cursor column"
  else
    .ok {
      table := quoted graveAccent table
      conditions := afterCursor (quoted graveAccent column)
      order := some (quoted graveAccent column)
      read := some column
      page := boundedPageSize conversions [config.get "pageSize"] }

/-- Source: `databases.go` `mongoFetch`, up to its query. -/
def mongoPagination (config : JsonMap) : Pagination G :=
  let field := firstString conversions.toFormatting [config.get "cursorField", .string "_id"]
  { table := stringValue conversions.toFormatting (config.get "collection")
    conditions := afterCursor field
    order := some field
    read := some field
    page := boundedPageSize conversions [config.get "pageSize"] }

/-- Source: `databases.go` `snowflakeFetch`, up to its query. -/
def snowflakePagination (config : JsonMap) : Except String (Pagination G) :=
  let table := stringValue conversions.toFormatting (config.get "table")
  let column := stringValue conversions.toFormatting (config.get "cursorColumn")
  if ¬ isSnowflakePath table then .error "snowflake.fetch: invalid table"
  else if column ≠ "" ∧ ¬ isIdentifier column then .error "snowflake.fetch: invalid cursor column"
  else
    .ok {
      table
      conditions := fun value => if column ≠ "" then afterCursor column value else []
      order := if column ≠ "" then some column else none
      read := if column ≠ "" then some column else none
      page := boundedPageSize conversions [config.get "pageSize"] }

/-- Source: `databases.go` `postgresFetch`. -/
def postgresFetch (params : SourceParams G) : Except String (SourceResult α G) :=
  (postgresPagination conversions params.config params.ingestion).bind fun pagination =>
    fetchPage field database pagination params.cursor

/-- Source: `databases.go` `mysqlFetch`. -/
def mysqlFetch (params : SourceParams G) : Except String (SourceResult α G) :=
  (mysqlPagination conversions params.config).bind fun pagination =>
    fetchPage field database pagination params.cursor

/-- Source: `databases.go` `mongoFetch`. -/
def mongoFetch (params : SourceParams G) : Except String (SourceResult α G) :=
  fetchPage field database (mongoPagination conversions params.config) params.cursor

/-- Source: `databases.go` `snowflakeFetch`. -/
def snowflakeFetch (params : SourceParams G) : Except String (SourceResult α G) :=
  (snowflakePagination conversions params.config).bind fun pagination =>
    fetchPage field database pagination params.cursor

/-- The database sources. -/
inductive DatabaseSource where
  | postgres
  | mysql
  | mongo
  | snowflake
  deriving DecidableEq

/-- Source: `databases.go` `registerDatabases`. -/
def DatabaseSource.activityType : DatabaseSource → String
  | .postgres => "postgres.fetch"
  | .mysql => "mysql.fetch"
  | .mongo => "mongodb.fetch"
  | .snowflake => "snowflake.fetch"

/-- Source: `databases.go` `registerDatabases`. -/
def DatabaseSource.fetch : DatabaseSource → SourceParams G → Except String (SourceResult α G)
  | .postgres => postgresFetch conversions field database
  | .mysql => mysqlFetch conversions field database
  | .mongo => mongoFetch conversions field database
  | .snowflake => snowflakeFetch conversions field database

/-- How a source pages with a configuration. -/
def DatabaseSource.pagination (source : DatabaseSource) (config : JsonMap)
    (ingestion : Option IngestionConfig) : Except String (Pagination G) :=
  match source with
  | .postgres => postgresPagination conversions config ingestion
  | .mysql => mysqlPagination conversions config
  | .mongo => .ok (mongoPagination conversions config)
  | .snowflake => snowflakePagination conversions config

variable {conversions field database}

/-- A source checks its configuration and fetches a page. -/
theorem DatabaseSource.fetch_bind (source : DatabaseSource) (params : SourceParams G) :
    source.fetch conversions field database params =
      (source.pagination conversions params.config params.ingestion).bind fun pagination =>
        fetchPage field database pagination params.cursor := by
  cases source with
  | postgres | mysql | mongo | snowflake => rfl

/-- **A source fetches a page** when its configuration is accepted. -/
theorem DatabaseSource.fetch_eq (source : DatabaseSource) {params : SourceParams G}
    {pagination : Pagination G}
    (h : source.pagination conversions params.config params.ingestion = .ok pagination) :
    source.fetch conversions field database params =
      fetchPage field database pagination params.cursor := by
  rw [DatabaseSource.fetch_bind, h]
  rfl

/-! ## Accepted configurations -/

variable {config : JsonMap} {ingestion : Option IngestionConfig} {pagination : Pagination G}

/-- What an accepted configuration comes to. -/
inductive Pagination.Shape (ingestion : Option IngestionConfig) (pagination : Pagination G) : Prop
  | postgres {column : String} (order : pagination.order = some column)
      (read : pagination.read = some (trimQuotes column))
      (conditions : pagination.conditions = postgresConditions column ingestion)
  | cursor {column name : String} (order : pagination.order = some column)
      (read : pagination.read = some name) (conditions : pagination.conditions = afterCursor column)
  | plain (order : pagination.order = none) (read : pagination.read = none)
      (conditions : pagination.conditions = fun _ => [])

/-- What `postgresFetch` makes of an accepted configuration. -/
theorem postgresPagination_ok
    (h : postgresPagination conversions config ingestion = .ok pagination) :
    ∃ column, pagination.order = some column ∧ pagination.read = some (trimQuotes column) ∧
      pagination.conditions = postgresConditions column ingestion ∧
      ∃ values, pagination.page = boundedPageSize conversions values := by
  unfold postgresPagination at h
  cases htable : quotePath conversions (stringValue conversions.toFormatting
      (config.get "table")) with
  | error err =>
    rw [htable] at h
    cases h
  | ok table =>
    rw [htable] at h
    cases hcolumn : (quoteIdentifier conversions (stringValue conversions.toFormatting
        (config.get "cursorColumn"))).mapError
          fun _ => "postgres.fetch: cursorColumn required" with
    | error err =>
      simp only [hcolumn] at h
      cases h
    | ok column =>
      simp only [hcolumn] at h
      cases hcolumns : postgresColumns conversions config with
      | error err =>
        rw [hcolumns] at h
        cases h
      | ok columns =>
        rw [hcolumns] at h
        cases h
        exact ⟨column, rfl, rfl, rfl, _, rfl⟩

/-- What `mysqlFetch` makes of an accepted configuration. -/
theorem mysqlPagination_ok (h : mysqlPagination conversions config = .ok pagination) :
    ∃ column name, pagination.order = some column ∧ pagination.read = some name ∧
      pagination.conditions = afterCursor column ∧
      ∃ values, pagination.page = boundedPageSize conversions values := by
  unfold mysqlPagination at h
  dsimp only at h
  split_ifs at h
  cases h
  exact ⟨_, _, rfl, rfl, rfl, _, rfl⟩

/-- **An accepted configuration** has a page of one row at least. -/
theorem DatabaseSource.accepted {source : DatabaseSource}
    (h : source.pagination conversions config ingestion = .ok pagination) :
    0 < pagination.page ∧ pagination.page ≤ 10000 ∧ pagination.Shape ingestion := by
  have hbounds := boundedPageSize_bounds conversions
  cases source with
  | postgres =>
    obtain ⟨column, horder, hread, hconditions, values, hpage⟩ := postgresPagination_ok h
    rw [hpage]
    exact ⟨(hbounds values).1, (hbounds values).2, .postgres horder hread hconditions⟩
  | mysql =>
    obtain ⟨column, name, horder, hread, hconditions, values, hpage⟩ := mysqlPagination_ok h
    rw [hpage]
    exact ⟨(hbounds values).1, (hbounds values).2, .cursor horder hread hconditions⟩
  | mongo =>
    cases h
    exact ⟨(hbounds _).1, (hbounds _).2, .cursor rfl rfl rfl⟩
  | snowflake =>
    replace h : snowflakePagination conversions config = .ok pagination := h
    unfold snowflakePagination at h
    dsimp only at h
    split_ifs at h
    · cases h
      exact ⟨(hbounds _).1, (hbounds _).2, .cursor rfl rfl rfl⟩
    · cases h
      exact ⟨(hbounds _).1, (hbounds _).2, .plain rfl rfl rfl⟩

end fetch

end Dataflow.Connectors
