import Dataflow.Activities.SparkActions
import Dataflow.Library.Decimal

/-!
# The deployment of a Flink job

A job reads a Kafka topic, transforms its rows with one `SELECT` and writes the records to
ClickHouse. Records with one `dedup_key` are one record there: the key is the MD5 of the columns of
the row, with bars between them.

* `columns`, `keyField`, `buildDeployment`: the code, where the fields of the key are expressions.
* `SqlValue`, `SqlExpr.eval`, `concatWs`: what the expressions give.
* `md5Input_eq`: the text that is hashed, column by column.
* `dedup_key_injective_iff`: **main result**: rows with one key agree exactly if no column is of
  type `STRING`.
* `equal_keys`: two pairs of rows with one key each.

Source: `ee/flink/spec.go`, `db/clickhouse/init.sql`
-/

namespace Dataflow.Activities.FlinkSpec

open Connectors Library Model List Function

/-! ## Columns -/

/-- The types that a column may have. -/
inductive ColumnType where
  | string
  | boolean
  | int
  | bigint
  | double
  | decimal
  | timestamp
  deriving DecidableEq

/-- The words of the types. -/
def ColumnType.word : ColumnType → String
  | .string => "STRING"
  | .boolean => "BOOLEAN"
  | .int => "INT"
  | .bigint => "BIGINT"
  | .double => "DOUBLE"
  | .decimal => "DECIMAL"
  | .timestamp => "TIMESTAMP(3)"

/-- The type with a word. -/
def columnType? (word : String) : Option ColumnType :=
  [ColumnType.string, .boolean, .int, .bigint, .double, .decimal, .timestamp].find? (·.word = word)

/-- A column with its name and type. -/
structure Column where
  name : String
  type : ColumnType
  deriving DecidableEq

/-- The column in a `CREATE TABLE`. -/
def Column.sql (column : Column) : String :=
  quoted graveAccent column.name ++ " " ++ column.type.word

/-- Source: `spec.go` `text`. -/
def text : Json → String
  | .string value => trimSpace value
  | _ => ""

section code

/-- What the standard library makes of texts: `strings.ToUpper`, and whether a text matches
`^select\\s+` and the regular expression `unsafeSQL`. -/
structure SpecTexts where
  toUpper : String → String
  isSelect : String → Bool
  unsafeSQL : String → Bool

variable (texts : SpecTexts)

/-- One round of the loop of `columns`. -/
def column (value : Json) : Except String Column :=
  match value.asObject? with
  | none => .error "invalid Flink column"
  | some field =>
    let name := text (field.get "name")
    match columnType? (texts.toUpper (text (field.get "type"))) with
    | some type => if isIdentifier name then .ok ⟨name, type⟩ else .error "invalid Flink column"
    | none => .error "invalid Flink column"

/-- Source: `spec.go` `columns`; the texts that it gives are those of the columns. -/
def columns : Json → Except String (List Column)
  | .array (value :: values) => (value :: values).mapM (column texts)
  | _ => .error "Flink columns are required"

/-! ## The key -/

/-- An expression over the columns of a row. -/
inductive SqlExpr where
  | column (name : String)
  | castAsString (operand : SqlExpr)
  | coalesce (operand : SqlExpr) (default : String)

/-- The text of an expression. -/
def SqlExpr.sql : SqlExpr → String
  | .column name => quoted graveAccent name
  | .castAsString operand => "CAST(" ++ operand.sql ++ " AS STRING)"
  | .coalesce operand default => "COALESCE(" ++ operand.sql ++ ",'" ++ default ++ "')"

/-- A field of the key. -/
def keyField (name : String) : SqlExpr := .coalesce (.castAsString (.column name)) ""

/-- A field of the record. -/
def jsonField (name : String) : String := "'" ++ name ++ "' VALUE " ++ quoted graveAccent name

/-! ## The deployment -/

/-- Source: `spec.go` `Deployment`. -/
structure Deployment where
  executionId : String
  statements : List String
  connections : List (String × String)
  checkpoint : List (String × String)

/-- Source: `spec.go` `resourceName`. -/
def isResourceName (value : String) : Bool :=
  value ≠ "" && value.length ≤ 249 &&
    value.toList.all fun c => c.isAlpha || c.isDigit || c ∈ ['.', '_', '-']

/-- The table of the source. -/
def sourceDDL (sourceColumns : List Column) (topic executionId format : String) : String :=
  "CREATE TABLE source (" ++ ",".intercalate (sourceColumns.map Column.sql) ++
    ") WITH ('connector'='kafka','topic'='" ++ topic ++
    "','properties.bootstrap.servers'='$\x7bKAFKA_BROKERS\x7d','properties.group.id'='dataflow-" ++ executionId ++
    "','scan.startup.mode'='group-offsets','format'='" ++ format ++ "')"

/-- The table of the sink. -/
def sinkDDL : String :=
  "CREATE TABLE sink (tenant_id STRING,collection STRING,record STRING,dedup_key STRING,encrypted TINYINT," ++
    "encryption_iv STRING,created_at TIMESTAMP(3)) WITH ('connector'='jdbc','url'='$\x7bCLICKHOUSE_JDBC_URL\x7d'," ++
    "'table-name'='dataflow.sink_records','driver'='com.clickhouse.jdbc.ClickHouseDriver')"

/-- The statement that runs. -/
def insert (collection : String) (outputNames : List String) (transformSQL : String) : String :=
  "INSERT INTO sink SELECT '$\x7bTENANT_ID\x7d','" ++ collection ++ "',JSON_OBJECT(" ++
    ",".intercalate (outputNames.map jsonField) ++ "),MD5(CONCAT_WS('|'," ++
    ",".intercalate (outputNames.map fun name => (keyField name).sql) ++
    ")),CAST(0 AS TINYINT),'',CURRENT_TIMESTAMP FROM (" ++ trimSpace transformSQL ++ ") transformed"

/-- Source: `spec.go` `ValidateSelect`. -/
def validateSelect (sql : String) : Except String Unit :=
  if texts.isSelect (trimSpace sql) = false ∨ texts.unsafeSQL (trimSpace sql) = true then
    .error "flink-sql transform must be one credential-free SELECT"
  else .ok ()

/-- The format of the messages. -/
def valueFormat (source : Node) : String :=
  if text (source.config.get "valueFormat") = "" then "json" else text (source.config.get "valueFormat")

/-- The part of `BuildDeployment` after the checks on the nodes. -/
def deploy (source sink : Node) (transformSQL executionId : String) : Except String Deployment := do
  let sourceColumns ← columns texts (source.config.get "columns")
  let outputColumns ← (columns texts (sink.config.get "columns")).mapError
    ("flink sink output columns are required: " ++ ·)
  let topic := text (source.config.get "topic")
  let collection := text (sink.config.get "collection")
  if isResourceName topic = false ∨ isResourceName collection = false then
    throw "invalid Flink source or sink"
  if valueFormat source ≠ "json" ∧ valueFormat source ≠ "debezium-json" then
    throw "unsupported Kafka format"
  return {
    executionId
    statements := [sourceDDL sourceColumns topic executionId (valueFormat source), sinkDDL,
      insert collection (outputColumns.map Column.name) transformSQL]
    connections := [("source", text (source.config.get "connectionId")),
      ("sink", text (sink.config.get "connectionId"))]
    checkpoint := [("mode", "AT_LEAST_ONCE"), ("interval", "30s")] }

/-- Source: `spec.go` `BuildDeployment`. -/
def buildDeployment (definition : PipelineDefinition) (executionId : String) :
    Except String Deployment :=
  match definition.execution with
  | none => .error "invalid flink-sql transform"
  | some execution =>
    if (validateSelect texts execution.transformSql).isOk = false then .error "invalid flink-sql transform"
    else
      match lastOfType definition .source, lastOfType definition .sink with
      | some source, some sink =>
        if source.activityType ≠ "kafka.fetch" ∨ sink.activityType ≠ "sink.clickhouse" then
          .error "flink-sql requires Kafka/CDC input and ClickHouse output"
        else deploy texts source sink execution.transformSql executionId
      | _, _ => .error "flink-sql requires Kafka/CDC input and ClickHouse output"

end code

/-! ## What the expressions give -/

/-- The values of `DOUBLE` and `TIMESTAMP(3)` and what a cast makes of them: different values have
different texts, none of which is empty or has a bar. -/
structure Casts where
  Double : Type
  Timestamp : Type
  double : Double → String
  timestamp : Timestamp → String
  double_injective : Injective double
  timestamp_injective : Injective timestamp
  double_plain : ∀ value, double value ≠ "" ∧ '|' ∉ (double value).toList
  timestamp_plain : ∀ value, timestamp value ≠ "" ∧ '|' ∉ (timestamp value).toList

/-- A value that is not `NULL`. -/
inductive SqlValue (casts : Casts) where
  | string (value : String)
  | boolean (value : Bool)
  | int (value : Int32)
  | bigint (value : Int64)
  | double (value : casts.Double)
  | decimal (value : ℤ)
  | timestamp (value : casts.Timestamp)

section eval

variable {casts : Casts}

/-- The type of a value. -/
def SqlValue.type : SqlValue casts → ColumnType
  | .string _ => .string
  | .boolean _ => .boolean
  | .int _ => .int
  | .bigint _ => .bigint
  | .double _ => .double
  | .decimal _ => .decimal
  | .timestamp _ => .timestamp

/-- `CAST(value AS STRING)`. -/
def SqlValue.cast : SqlValue casts → String
  | .string value => value
  | .boolean true => "TRUE"
  | .boolean false => "FALSE"
  | .int value => value.toInt.repr
  | .bigint value => value.toInt.repr
  | .double value => casts.double value
  | .decimal value => value.repr
  | .timestamp value => casts.timestamp value

variable (casts) in
/-- A row that the `SELECT` gives: the value of each column, or `NULL`. -/
abbrev SqlRow := (name : String) → Option (SqlValue casts)

/-- The value of an expression in a row. -/
def SqlExpr.eval (row : SqlRow casts) : SqlExpr → Option (SqlValue casts)
  | .column name => row name
  | .castAsString operand => (operand.eval row).map fun value => .string value.cast
  | .coalesce operand default => some ((operand.eval row).getD (.string default))

/-- `CONCAT_WS`, which leaves out `NULL`. -/
def concatWs (separator : String) (values : List (Option (SqlValue casts))) : String :=
  separator.intercalate ((values.filterMap id).map SqlValue.cast)

/-- What the statement computes the MD5 of. -/
def md5Input (names : List String) (row : SqlRow casts) : String :=
  concatWs "|" (names.map fun name => (keyField name).eval row)

/-- The row has a value of its type, or `NULL`, in each column. -/
def Typed (cols : List Column) (row : SqlRow casts) : Prop :=
  ∀ column ∈ cols, ∀ value, row column.name = some value → value.type = column.type

variable (casts) in
/-- Rows with one key agree on every column. -/
def DedupKeyInjective (cols : List Column) : Prop :=
  ∀ row row' : SqlRow casts, Typed cols row → Typed cols row' →
    md5Input (cols.map Column.name) row = md5Input (cols.map Column.name) row' →
    ∀ column ∈ cols, row column.name = row' column.name

/-- No column is of type `STRING`, unless its name has another type, too, so that it is always
`NULL`. -/
def NoStringColumn (cols : List Column) : Prop :=
  ∀ column ∈ cols, column.type = .string → ∃ other ∈ cols, other.name = column.name ∧ other.type ≠ .string

end eval

/-! ## The text that is hashed -/

section key

variable {casts : Casts} {row row' : SqlRow casts} {cols : List Column}

/-- A field of the key in a row: empty for `NULL`. -/
def keyText (row : SqlRow casts) (name : String) : String := ((row name).map SqlValue.cast).getD ""

theorem keyText_none {name : String} (h : row name = none) : keyText row name = "" := by
  rw [keyText, h]
  rfl

variable {value : SqlValue casts}

theorem keyText_some {name : String} (h : row name = some value) :
    keyText row name = value.cast := by
  rw [keyText, h]
  rfl

theorem eval_keyField (row : SqlRow casts) (name : String) :
    (keyField name).eval row = some (.string (keyText row name)) := by
  unfold keyField keyText
  simp only [SqlExpr.eval]
  cases row name <;> rfl

/-- What is hashed are the texts of the columns with bars between them. -/
theorem md5Input_eq (names : List String) (row : SqlRow casts) :
    md5Input names row = "|".intercalate (names.map (keyText row)) := by
  have hfields : (names.map fun name => (keyField name).eval row).filterMap id =
      names.map fun name => SqlValue.string (keyText row name) := by
    simp only [eval_keyField, filterMap_map, comp_def, id_eq, filterMap_eq_map']
  rw [md5Input, concatWs, hfields, map_map]
  rfl

theorem repr_plain (n : ℤ) : n.repr ≠ "" ∧ '|' ∉ n.repr.toList := by
  refine ⟨Decimal.repr_int_ne_empty n, fun hbar => ?_⟩
  rcases Decimal.mem_repr_int hbar with heq | hdigit
  · exact absurd heq (by decide)
  · exact absurd hdigit (by decide)

/-- A value that is no text: its text has no bar and is not empty. -/
theorem cast_plain (h : value.type ≠ .string) : value.cast ≠ "" ∧ '|' ∉ value.cast.toList := by
  cases value with
  | string value => exact absurd rfl h
  | boolean value =>
    cases value with
    | false => exact (by decide : "FALSE" ≠ "" ∧ '|' ∉ "FALSE".toList)
    | true => exact (by decide : "TRUE" ≠ "" ∧ '|' ∉ "TRUE".toList)
  | int value | bigint value => exact repr_plain _
  | double value => exact casts.double_plain value
  | decimal value => exact repr_plain value
  | timestamp value => exact casts.timestamp_plain value

/-- Values of one type have different texts. -/
theorem cast_injective {value value' : SqlValue casts} (htype : value.type = value'.type)
    (h : value.cast = value'.cast) : value = value' := by
  cases value <;> cases value' <;> first | cases htype; done | skip
  case string.string => exact congrArg SqlValue.string h
  case boolean.boolean x y =>
    revert h
    cases x <;> cases y <;> simp [SqlValue.cast]
  case int.int => exact congrArg SqlValue.int (Int32.toInt_inj.mp (Decimal.repr_int_injective h))
  case bigint.bigint => exact congrArg SqlValue.bigint (Int64.toInt_inj.mp (Decimal.repr_int_injective h))
  case double.double => exact congrArg SqlValue.double (casts.double_injective h)
  case decimal.decimal => exact congrArg SqlValue.decimal (Decimal.repr_int_injective h)
  case timestamp.timestamp => exact congrArg SqlValue.timestamp (casts.timestamp_injective h)

section

variable (hcols : NoStringColumn cols)

include hcols

/-- Without columns of texts a column has no text in any row. -/
theorem type_ne_string (htyped : Typed cols row) {column : Column}
    (hcolumn : column ∈ cols) (hvalue : row column.name = some value) :
    value.type ≠ .string := by
  intro htext
  have htype := htyped column hcolumn value hvalue
  obtain ⟨other, hother, hname, hne⟩ := hcols column hcolumn (htype.symm.trans htext)
  exact hne ((htyped other hother value (hname ▸ hvalue)).symm.trans htext)

theorem bar_not_mem_keyText (htyped : Typed cols row)
    {column : Column} (hcolumn : column ∈ cols) : '|' ∉ (keyText row column.name).toList := by
  cases hvalue : row column.name with
  | none =>
    rw [keyText_none hvalue]
    exact not_mem_nil
  | some value =>
    rw [keyText_some hvalue]
    exact (cast_plain (type_ne_string hcols htyped hcolumn hvalue)).2

/-- The text of a column tells its values apart, and from `NULL`. -/
theorem eq_of_keyText (htyped : Typed cols row)
    (htyped' : Typed cols row') {column : Column} (hcolumn : column ∈ cols)
    (h : keyText row column.name = keyText row' column.name) :
    row column.name = row' column.name := by
  cases hvalue : row column.name with
  | none =>
    cases hvalue' : row' column.name with
    | none => rfl
    | some value' =>
      rw [keyText_none hvalue, keyText_some hvalue'] at h
      exact absurd h.symm (cast_plain (type_ne_string hcols htyped' hcolumn hvalue')).1
  | some value =>
    cases hvalue' : row' column.name with
    | none =>
      rw [keyText_some hvalue, keyText_none hvalue'] at h
      exact absurd h (cast_plain (type_ne_string hcols htyped hcolumn hvalue)).1
    | some value' =>
      rw [keyText_some hvalue, keyText_some hvalue'] at h
      have htype :=
        (htyped column hcolumn value hvalue).trans (htyped' column hcolumn value' hvalue').symm
      rw [cast_injective htype h]

/-- Without columns of texts the fields are read back from what is hashed. -/
theorem splitOn_md5Input (htyped : Typed cols row) (hne : cols ≠ []) :
    (md5Input (cols.map Column.name) row).toList.splitOn '|' =
      cols.map fun column => (keyText row column.name).toList := by
  have hlist : (md5Input (cols.map Column.name) row).toList =
      ['|'].intercalate (cols.map fun column => (keyText row column.name).toList) := by
    rw [md5Input_eq, String.toList_intercalate, map_map, map_map]
    rfl
  rw [hlist, splitOn_intercalate '|' ?_ (by simpa using hne)]
  intro part hpart
  obtain ⟨column, hcolumn, rfl⟩ := mem_map.mp hpart
  exact bar_not_mem_keyText hcols htyped hcolumn

theorem dedupKeyInjective_of_noStringColumn : DedupKeyInjective casts cols := by
  intro row row' htyped htyped' heq column hcolumn
  have hne : cols ≠ [] := ne_nil_of_mem hcolumn
  have hfields : (cols.map fun column => (keyText row column.name).toList) =
      cols.map fun column => (keyText row' column.name).toList := by
    rw [← splitOn_md5Input hcols htyped hne, heq, splitOn_md5Input hcols htyped' hne]
  exact eq_of_keyText hcols htyped htyped' hcolumn
    (String.toList_inj.mp (map_inj_left.mp hfields column hcolumn))

end

variable (casts) in
/-- The row with `NULL` in every column. -/
def nullRow : SqlRow casts := fun _ => none

variable (casts) in
/-- The row with an empty text in one column and `NULL` in the others. -/
def emptyTextRow (name : String) : SqlRow casts :=
  fun other => if other = name then some (.string "") else none

theorem keyText_emptyTextRow (name : String) :
    keyText (emptyTextRow casts name) = keyText (nullRow casts) := by
  funext other
  unfold keyText emptyTextRow nullRow
  split_ifs <;> rfl

/-- A column of texts is empty both for `NULL` and for the empty text. -/
theorem noStringColumn_of_dedupKeyInjective (h : DedupKeyInjective casts cols) :
    NoStringColumn cols := by
  intro column hcolumn htype
  by_contra hother
  have htyped : Typed cols (nullRow casts) := fun _ _ _ hvalue => nomatch hvalue
  have htyped' : Typed cols (emptyTextRow casts column.name) := by
    intro other hmem value hvalue
    unfold emptyTextRow at hvalue
    split_ifs at hvalue with hname
    cases hvalue
    by_contra hne
    exact hother ⟨other, hmem, hname, fun heq => hne heq.symm⟩
  have heq :=
    h _ _ htyped htyped' (by rw [md5Input_eq, md5Input_eq, keyText_emptyTextRow]) column hcolumn
  rw [emptyTextRow, if_pos rfl] at heq
  cases heq

variable (casts cols) in
/-- **Rows with one key agree exactly if no column is of type `STRING`.** -/
theorem dedup_key_injective_iff : DedupKeyInjective casts cols ↔ NoStringColumn cols :=
  ⟨noStringColumn_of_dedupKeyInjective, dedupKeyInjective_of_noStringColumn⟩

end key

/-! ## Rows with one key -/

/-- Casts whose numbers are in decimal digits; no row below has a number. -/
def decimalCasts : Casts where
  Double := ℤ
  Timestamp := ℤ
  double := Int.repr
  timestamp := Int.repr
  double_injective := Decimal.repr_int_injective
  timestamp_injective := Decimal.repr_int_injective
  double_plain := repr_plain
  timestamp_plain := repr_plain

/-- The texts of two columns, neither of which is `NULL`. -/
def textRow (first second : String) : SqlRow decimalCasts := fun name =>
  if name = "first" then some (.string first) else if name = "second" then some (.string second) else none

/-- Texts that are in capitals already. -/
def capitals : SpecTexts where
  toUpper := id
  isSelect := fun _ => true
  unsafeSQL := fun _ => false

/-- **`NULL` and the empty text have one key, and so have texts with the bar on either side of the
separator.** -/
theorem equal_keys : ∃ cols, columns capitals (.array [
        .object [("name", .string "first"), ("type", .string "STRING")],
        .object [("name", .string "second"), ("type", .string "STRING")]]) = .ok cols ∧
      ¬ DedupKeyInjective decimalCasts cols ∧
      md5Input (cols.map Column.name) (textRow "x|" "y") = md5Input (cols.map Column.name) (textRow "x" "|y") := by
  refine ⟨[⟨"first", .string⟩, ⟨"second", .string⟩], rfl, ?_, by decide⟩
  intro hinjective
  have htyped (first second : String) :
      Typed [⟨"first", .string⟩, ⟨"second", .string⟩] (textRow first second) := by
    intro column hcolumn value hvalue
    simp only [mem_cons, not_mem_nil, or_false] at hcolumn
    rcases hcolumn with rfl | rfl <;> cases hvalue <;> rfl
  have hagree := hinjective _ _ (htyped "x|" "y") (htyped "x" "|y") (by decide) _ mem_cons_self
  have htext : "x|" = "x" := SqlValue.string.inj (Option.some.inj hagree)
  exact absurd htext (by decide)

end Dataflow.Activities.FlinkSpec
