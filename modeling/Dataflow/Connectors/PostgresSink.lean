import Dataflow.Connectors.MergeArrays
import Dataflow.Library.Upsert
import Mathlib.Data.List.Sort
import Mathlib.Data.Set.Finite.Basic

/-!
# The sink for PostgreSQL

The sink puts rows into a table by statements of many rows. A statement has the columns of all rows,
not of those in it, and with a conflict key it updates the rows that are there. The reference puts
in one row after the other, each with its own columns.

* `postgresSink`: the code. A statement that fails leaves what the statements before it have done.
* `rowByRow`: the reference.
* `Refines`: over every table, the sink succeeds where the reference does, and leaves the same
  table.
* `Uniform`, `Apart`: the rows have the same columns; no two rows of a statement have one key in
  the table.
* **`postgresSink_refines_iff`**: the sink is the reference iff the rows are uniform and apart,
  where the reference does not refuse a row before it reaches the table.
* `repeated_key_fails`: two rows with one key, which the reference takes and the sink does not.

A column has a type, which makes one value of several: `"7"` and `7` are one number.

Source: `databases.go`
-/

namespace Dataflow.Connectors

open Activities Library Model List Function

/-! ## The code -/

/-- Source: `databases.go` `recordsMaps`, `transforms.go` `records`. -/
def recordsMaps : (input : Json) → Except String (List JsonMap)
  | .array raw =>
    raw.mapM fun value =>
      match value.asObject? with
      | some row => .ok row
      | none => .error "records must be objects"
  | _ => .error "input must be an array"

/-- Source: `databases.go` `allColumns`. -/
def allColumns (rows : List JsonMap) : List String :=
  ((rows.flatMap JsonMap.keys).dedup).insertionSort (· ≤ ·)

/-- Source: `databases.go` `dbBatchSize`. -/
def dbBatchSize : ℕ := 500

/-- Source: `databases.go` `postgresMaxBindParams`. -/
def postgresMaxBindParams : ℕ := 65535

/-- Source: `databases.go` `postgresBatchRows`. -/
def postgresBatchRows (columnCount : ℕ) : Except String ℕ :=
  if columnCount < 1 then .error "sink.postgres: records must contain at least one column"
  else
    let rows := postgresMaxBindParams / columnCount
    if rows < 1 then
      .error ("sink.postgres: " ++ columnCount.repr ++ " columns exceed the bind-parameter limit")
    else .ok (min dbBatchSize rows)

/-- `rows[start:end]` for `start` in steps of the size of a batch. -/
def rowBatches (batchSize : ℕ) : (fuel : ℕ) → List JsonMap → List (List JsonMap)
  | 0, _ => []
  | _ + 1, [] => []
  | fuel + 1, rows => rows.take batchSize :: rowBatches batchSize fuel (rows.drop batchSize)

/-- The clause `ON CONFLICT`. -/
def conflictClause (conflict columns : List String) : Option (Upsert.Conflict String) :=
  if conflict = [] then none
  else some { keys := conflict, updates := columns.filter fun column => column ∉ conflict }

/-- What `row[column]` is in a column: the nil interface is NULL, and any other value is what the type
of the column makes of it. -/
def argument (coerce : String → Json → Json) (column : String) (value : Json) : Option Json :=
  if value = .null then none else some (coerce column value)

/-- A statement with the values of its rows. -/
abbrev Statement := Upsert.Insert String × List (Upsert.Row String Json)

/-- The statement for a batch of rows. -/
def statement (coerce : String → Json → Json) (conflict columns : List String)
    (batch : List JsonMap) : Statement :=
  ({ columns, conflict := conflictClause conflict columns },
    batch.map fun row column => argument coerce column (row.get column))

/-- The text of a statement is one: the error of `quoteIdentifier` for a conflict key is ignored,
and nothing is left of the key in the text. And the driver takes so many values. -/
def Sendable (s : Statement) : Prop :=
  (∀ c ∈ s.1.conflict, c.keys.all isIdentifier) ∧
    s.1.columns.length * s.2.length ≤ postgresMaxBindParams

instance (s : Statement) : Decidable (Sendable s) := inferInstanceAs (Decidable (_ ∧ _))

section code

variable (conversions : Conversions) (coerce : String → Json → Json) (failure : String) (cfg : JsonMap)

/-- `pool.Exec` for statements one after the other, with what is in the table then. -/
def sendAll : Upsert.Table String Json → List Statement →
    Upsert.Table String Json × Except String Unit
  | table, [] => (table, .ok ())
  | table, s :: statements =>
    match if Sendable s then Upsert.exec table s.1 s.2 else none with
    | some table' => sendAll table' statements
    | none => (table, .error failure)

/-- The name of the table. -/
def sinkPath : String := stringValue conversions.toFormatting (cfg.get "table")

/-- The conflict key. -/
def conflictKey : List String := keyFields conversions.toFormatting (cfg.get "conflictKey")

/-- What is sent for rows. -/
def sinkStatements (rows : List JsonMap) : Except String (List Statement) := do
  let _table ← quotePath conversions (sinkPath conversions cfg)
  let columns := allColumns rows
  let batchSize ← postgresBatchRows columns.length
  let _quoted ← columns.mapM (quoteIdentifier conversions)
  return (rowBatches batchSize rows.length rows).map
    (statement coerce (conflictKey conversions cfg) columns)

/-- Source: `databases.go` `postgresSink`. -/
def postgresSink (table : Upsert.Table String Json) (input : Json) :
    Upsert.Table String Json × Except String Unit :=
  match recordsMaps input with
  | .error err => (table, .error err)
  | .ok rows =>
    if rows = [] then (table, .ok ())
    else
      match sinkStatements conversions coerce cfg rows with
      | .error err => (table, .error err)
      | .ok statements => sendAll failure table statements

/-! ## The reference -/

/-- What is sent for a row on its own. -/
def rowStatement (row : JsonMap) : Except String Statement := do
  let _table ← quotePath conversions (sinkPath conversions cfg)
  let columns := allColumns [row]
  let _quoted ← columns.mapM (quoteIdentifier conversions)
  return statement coerce (conflictKey conversions cfg) columns [row]

/-- **The reference**: the rows one after the other, each with its own columns. -/
def rowByRow : Upsert.Table String Json → List JsonMap →
    Upsert.Table String Json × Except String Unit
  | table, [] => (table, .ok ())
  | table, row :: rows =>
    match rowStatement conversions coerce cfg row with
    | .error err => (table, .error err)
    | .ok s =>
      match if Sendable s then Upsert.exec table s.1 s.2 else none with
      | some table' => rowByRow table' rows
      | none => (table, .error failure)

/-- **Over every table** the sink succeeds where the reference does, and leaves the same table. -/
def Refines (rows : List JsonMap) : Prop :=
  ∀ table table', postgresSink conversions coerce failure cfg table (.array (rows.map .object)) =
      (table', .ok ()) ↔ rowByRow conversions coerce failure cfg table rows = (table', .ok ())

/-- A row is refused whatever there is in the table: a name is no identifier, or there are too many
columns. -/
def Refused (row : JsonMap) : Prop := ∀ s, rowStatement conversions coerce cfg row = .ok s → ¬ Sendable s

/-- The rows have the same columns. -/
def Uniform (rows : List JsonMap) : Prop :=
  ∀ row ∈ rows, ∀ row' ∈ rows, ∀ column ∈ row.keys, column ∈ row'.keys

/-- Two rows are the same in the columns of the conflict key, and have no null there. -/
def SameKey (columns : List String) (a b : JsonMap) : Prop :=
  ∀ key ∈ conflictKey conversions cfg, key ∈ columns →
    a.get key ≠ .null ∧ b.get key ≠ .null ∧ coerce key (a.get key) = coerce key (b.get key)

/-- No two rows of a statement have one key, if the statement has something to update. -/
def Apart (rows : List JsonMap) : Prop :=
  ∀ c ∈ conflictClause (conflictKey conversions cfg) (allColumns rows), c.updates ≠ [] →
    ∀ batch ∈ rowBatches (min dbBatchSize (postgresMaxBindParams / (allColumns rows).length)) rows.length
      rows, batch.Pairwise fun a b => ¬ SameKey conversions coerce cfg (allColumns rows) a b

end code

/-! ## Columns and batches -/

section columns

variable {rows : List JsonMap} {row : JsonMap} {column : String}

theorem mem_allColumns : column ∈ allColumns rows ↔ ∃ row ∈ rows, column ∈ row.keys := by
  rw [allColumns, mem_insertionSort, mem_dedup, mem_flatMap]

theorem nodup_allColumns (rows : List JsonMap) : (allColumns rows).Nodup :=
  (perm_insertionSort _ _).nodup_iff.mpr (nodup_dedup _)

theorem allColumns_subset (h : row ∈ rows) : allColumns [row] ⊆ allColumns rows := by
  intro column hcolumn
  obtain ⟨row', hrow', hkey⟩ := mem_allColumns.mp hcolumn
  rw [mem_singleton.mp hrow'] at hkey
  exact mem_allColumns.mpr ⟨row, h, hkey⟩

theorem length_allColumns_le (h : row ∈ rows) :
    (allColumns [row]).length ≤ (allColumns rows).length :=
  ((nodup_allColumns [row]).subperm (allColumns_subset h)).length_le

/-- **Each of uniform rows has the columns of all.** -/
theorem Uniform.allColumns_eq (h : Uniform rows) (hrow : row ∈ rows) :
    allColumns [row] = allColumns rows := by
  have hsubset : allColumns rows ⊆ allColumns [row] := by
    intro column hcolumn
    obtain ⟨row', hrow', hkey⟩ := mem_allColumns.mp hcolumn
    exact mem_allColumns.mpr ⟨row, mem_singleton_self _, h row' hrow' row hrow column hkey⟩
  have hperm : (allColumns [row]).Perm (allColumns rows) :=
    (perm_ext_iff_of_nodup (nodup_allColumns [row]) (nodup_allColumns rows)).mpr
      fun _ => ⟨fun h' => allColumns_subset hrow h', fun h' => hsubset h'⟩
  exact hperm.eq_of_sortedLE (sortedLE_insertionSort) (sortedLE_insertionSort)

end columns

section batches

variable {n fuel : ℕ} {rows batch : List JsonMap}

theorem rowBatches_flatten (hn : 0 < n) (hfuel : rows.length ≤ fuel) :
    (rowBatches n fuel rows).flatten = rows := by
  induction fuel generalizing rows with
  | zero =>
    rw [length_eq_zero_iff.mp (Nat.le_zero.mp hfuel)]
    rfl
  | succ fuel ih =>
    cases rows with
    | nil => rfl
    | cons row rows =>
      have hrest : ((row :: rows).drop n).length ≤ fuel := by
        rw [length_drop]
        simp only [length_cons] at hfuel ⊢
        omega
      rw [rowBatches, flatten_cons, ih hrest, take_append_drop]
      simp

theorem ne_nil_of_mem_rowBatches (hn : 0 < n) (h : batch ∈ rowBatches n fuel rows) :
    batch ≠ [] := by
  induction fuel generalizing rows with
  | zero => simp [rowBatches] at h
  | succ fuel ih =>
    cases rows with
    | nil => simp [rowBatches] at h
    | cons row rows =>
      rw [rowBatches] at h
      · rcases mem_cons.mp h with rfl | h
        · obtain ⟨n, rfl⟩ := Nat.exists_eq_succ_of_ne_zero hn.ne'
          simp
        · exact ih h
      · simp

theorem length_le_of_mem_rowBatches (h : batch ∈ rowBatches n fuel rows) : batch.length ≤ n := by
  induction fuel generalizing rows with
  | zero => simp [rowBatches] at h
  | succ fuel ih =>
    cases rows with
    | nil => simp [rowBatches] at h
    | cons row rows =>
      rw [rowBatches] at h
      · rcases mem_cons.mp h with rfl | h
        · exact length_take_le _ _
        · exact ih h
      · simp

/-- How many rows a statement has. -/
theorem postgresBatchRows_eq_ok_iff {k : ℕ} : postgresBatchRows k = .ok n ↔
    0 < k ∧ k ≤ postgresMaxBindParams ∧ n = min dbBatchSize (postgresMaxBindParams / k) := by
  unfold postgresBatchRows
  dsimp only
  split_ifs with hnone hmany
  · refine iff_of_false nofun ?_
    omega
  · refine iff_of_false nofun ?_
    have := Nat.div_eq_zero_iff.mp (Nat.lt_one_iff.mp hmany)
    omega
  · have hle : k ≤ postgresMaxBindParams := by
      by_contra hlt
      exact hmany (by rw [Nat.div_eq_of_lt (not_le.mp hlt)]; exact Nat.zero_lt_one)
    simp only [Except.ok.injEq]
    constructor
    · rintro rfl
      exact ⟨by omega, hle, rfl⟩
    · rintro ⟨-, -, rfl⟩
      rfl

theorem pos_of_postgresBatchRows {k : ℕ} (hn : postgresBatchRows k = .ok n) : 0 < n := by
  obtain ⟨hpos, hle, rfl⟩ := postgresBatchRows_eq_ok_iff.mp hn
  exact lt_min (by decide) (Nat.div_pos hle hpos)

/-- **No statement has more parameters than the driver takes.** -/
theorem parameters_le {k : ℕ} (hn : postgresBatchRows k = .ok n)
    (h : batch ∈ rowBatches n fuel rows) :
    k * batch.length ≤ postgresMaxBindParams := by
  obtain ⟨-, -, rfl⟩ := postgresBatchRows_eq_ok_iff.mp hn
  calc k * batch.length
      ≤ k * (postgresMaxBindParams / k) :=
        Nat.mul_le_mul_left k ((length_le_of_mem_rowBatches h).trans (Nat.min_le_right _ _))
    _ ≤ postgresMaxBindParams := Nat.mul_div_le _ _

end batches

/-! ## When the sink and the reference succeed -/

section success

variable {conversions : Conversions} {coerce : String → Json → Json} {failure : String} {cfg : JsonMap}
  {rows : List JsonMap} {row : JsonMap} {table table' : Upsert.Table String Json}

/-- The names that go into the text of a statement are accepted. -/
def Named (conversions : Conversions) (cfg : JsonMap) (columns : List String) : Prop :=
  (∃ path, quotePath conversions (sinkPath conversions cfg) = .ok path) ∧
    ∀ column ∈ columns, isIdentifier column

theorem exists_mapM_quoteIdentifier_iff {columns : List String} :
    (∃ quoted, columns.mapM (quoteIdentifier conversions) = .ok quoted) ↔
      ∀ column ∈ columns, isIdentifier column := by
  induction columns with
  | nil => exact ⟨fun _ => by simp, fun _ => ⟨[], rfl⟩⟩
  | cons column columns ih =>
    rw [forall_mem_cons, ← ih]
    simp only [mapM_cons, bind_eq_ok]
    constructor
    · rintro ⟨_, name, hname, names, hnames, -⟩
      refine ⟨?_, names, hnames⟩
      by_contra hnot
      simp [quoteIdentifier, if_neg hnot] at hname
    · rintro ⟨hname, names, hnames⟩
      exact ⟨_, _, by rw [quoteIdentifier, if_pos hname], names, hnames, rfl⟩

theorem rowStatement_eq_ok_iff {s : Statement} : rowStatement conversions coerce cfg row = .ok s ↔
    Named conversions cfg (allColumns [row]) ∧
      s = statement coerce (conflictKey conversions cfg) (allColumns [row]) [row] := by
  rw [Named, ← exists_mapM_quoteIdentifier_iff]
  simp only [rowStatement, bind_eq_ok]
  constructor
  · rintro ⟨path, hpath, quoted, hquoted, hs⟩
    exact ⟨⟨⟨path, hpath⟩, quoted, hquoted⟩, (Except.ok.inj hs).symm⟩
  · rintro ⟨⟨⟨path, hpath⟩, quoted, hquoted⟩, rfl⟩
    exact ⟨path, hpath, quoted, hquoted, rfl⟩

theorem sinkStatements_eq_ok_iff {statements : List Statement} :
    sinkStatements conversions coerce cfg rows = .ok statements ↔ Named conversions cfg (allColumns rows) ∧
      ∃ n, postgresBatchRows (allColumns rows).length = .ok n ∧ statements =
        (rowBatches n rows.length rows).map
          (statement coerce (conflictKey conversions cfg) (allColumns rows)) := by
  rw [Named, ← exists_mapM_quoteIdentifier_iff]
  simp only [sinkStatements, bind_eq_ok]
  constructor
  · rintro ⟨path, hpath, n, hn, quoted, hquoted, hs⟩
    exact ⟨⟨⟨path, hpath⟩, quoted, hquoted⟩, n, hn, (Except.ok.inj hs).symm⟩
  · rintro ⟨⟨⟨path, hpath⟩, quoted, hquoted⟩, n, hn, rfl⟩
    exact ⟨path, hpath, n, hn, quoted, hquoted, rfl⟩

theorem recordsMaps_objects (rows : List JsonMap) :
    recordsMaps (.array (rows.map .object)) = .ok rows := by
  show (rows.map Json.object).mapM _ = _
  induction rows with
  | nil => rfl
  | cons row rows ih =>
    rw [map_cons, mapM_cons, ih]
    rfl

/-- **Statements are sent** iff each of them is one, and the run of them succeeds. -/
theorem sendAll_eq_ok_iff {statements : List Statement} :
    sendAll failure table statements = (table', .ok ()) ↔
      (∀ s ∈ statements, Sendable s) ∧ Upsert.run table statements = some table' := by
  induction statements generalizing table with
  | nil =>
    simp [sendAll, Upsert.run, Prod.ext_iff]
  | cons s statements ih =>
    rw [sendAll, Upsert.run_cons, forall_mem_cons]
    split_ifs with hsend
    · rw [and_assoc, and_iff_right hsend]
      cases hexec : Upsert.exec table s.1 s.2 with
      | none => simp
      | some between => exact ih
    · simp [hsend]

/-- A row that goes into the table on its own, if the table takes it. -/
theorem not_refused_iff : ¬ Refused conversions coerce cfg row ↔ Named conversions cfg (allColumns [row]) ∧
    Sendable (statement coerce (conflictKey conversions cfg) (allColumns [row]) [row]) := by
  unfold Refused
  push Not
  constructor
  · rintro ⟨s, hs, hsend⟩
    obtain ⟨hnamed, rfl⟩ := rowStatement_eq_ok_iff.mp hs
    exact ⟨hnamed, hsend⟩
  · rintro ⟨hnamed, hsend⟩
    exact ⟨_, rowStatement_eq_ok_iff.mpr ⟨hnamed, rfl⟩, hsend⟩

/-- **The reference succeeds** iff no row is refused, and the run of their statements succeeds. -/
theorem rowByRow_eq_ok_iff : rowByRow conversions coerce failure cfg table rows = (table', .ok ()) ↔
    (∀ row ∈ rows, ¬ Refused conversions coerce cfg row) ∧ Upsert.run table (rows.map fun row =>
        statement coerce (conflictKey conversions cfg) (allColumns [row]) [row]) = some table' := by
  induction rows generalizing table with
  | nil => simp [rowByRow, Upsert.run, Prod.ext_iff]
  | cons row rows ih =>
    rw [rowByRow, map_cons, Upsert.run_cons, forall_mem_cons, and_assoc]
    cases hs : rowStatement conversions coerce cfg row with
    | error err =>
      have hrefused : Refused conversions coerce cfg row := by
        intro s hs'
        cases hs.symm.trans hs'
      simp [hrefused]
    | ok s =>
      obtain ⟨hnamed, rfl⟩ := rowStatement_eq_ok_iff.mp hs
      dsimp only
      split_ifs with hsend
      · rw [and_iff_right (not_refused_iff.mpr ⟨hnamed, hsend⟩)]
        cases hexec : Upsert.exec table
            (statement coerce (conflictKey conversions cfg) (allColumns [row]) [row]).1
            (statement coerce (conflictKey conversions cfg) (allColumns [row]) [row]).2 with
        | none => simp
        | some between => exact ih
      · have hrefused : Refused conversions coerce cfg row := by
          by_contra hnot
          exact hsend (not_refused_iff.mp hnot).2
        simp [hrefused]

/-- **The sink succeeds** iff its names and the number of its columns are accepted, and the run of
its statements succeeds. -/
theorem postgresSink_eq_ok_iff (hrows : rows ≠ []) :
    postgresSink conversions coerce failure cfg table (.array (rows.map .object)) = (table', .ok ()) ↔
      Named conversions cfg (allColumns rows) ∧
        ∃ n, postgresBatchRows (allColumns rows).length = .ok n ∧
          (∀ s ∈ (rowBatches n rows.length rows).map
            (statement coerce (conflictKey conversions cfg) (allColumns rows)), Sendable s) ∧
          Upsert.run table ((rowBatches n rows.length rows).map
            (statement coerce (conflictKey conversions cfg) (allColumns rows))) = some table' := by
  rw [postgresSink, recordsMaps_objects]
  dsimp only
  rw [if_neg hrows]
  cases hs : sinkStatements conversions coerce cfg rows with
  | error err =>
    refine iff_of_false nofun ?_
    rintro ⟨hnamed, n, hn, -⟩
    cases hs.symm.trans (sinkStatements_eq_ok_iff.mpr ⟨hnamed, n, hn, rfl⟩)
  | ok statements =>
    obtain ⟨hnamed, n, hn, rfl⟩ := sinkStatements_eq_ok_iff.mp hs
    rw [sendAll_eq_ok_iff]
    constructor
    · rintro ⟨hsend, hrun⟩
      exact ⟨hnamed, n, hn, hsend, hrun⟩
    · rintro ⟨-, n', hn', hsend, hrun⟩
      cases hn.symm.trans hn'
      exact ⟨hsend, hrun⟩

end success

/-! ## Rows that are uniform and apart -/

section uniform

variable {conversions : Conversions} {coerce : String → Json → Json} {failure : String} {cfg : JsonMap}
  {rows batch : List JsonMap}
  {table table' : Upsert.Table String Json} {conflict columns : List String}

/-- Two values are one in a column, and not NULL. -/
theorem argument_eq_iff {column : String} {value value' : Json} :
    (argument coerce column value ≠ none ∧
      argument coerce column value = argument coerce column value') ↔
      value ≠ .null ∧ value' ≠ .null ∧ coerce column value = coerce column value' := by
  unfold argument
  split_ifs <;> simp [*]

theorem mem_conflictClause {c : Upsert.Conflict String} (h : c ∈ conflictClause conflict columns) :
    c.keys = conflict := by
  unfold conflictClause at h
  split_ifs at h
  · simp at h
  · cases h
    rfl

/-- The conflict target is the same for all statements. -/
theorem conflictClause_keys (conflict columns columns' : List String) :
    (conflictClause conflict columns).map Upsert.Conflict.keys =
      (conflictClause conflict columns').map Upsert.Conflict.keys := by
  unfold conflictClause
  split_ifs <;> rfl

theorem sendable_statement_iff : Sendable (statement coerce conflict columns batch) ↔
    conflict.all isIdentifier ∧ columns.length * batch.length ≤ postgresMaxBindParams := by
  refine and_congr ⟨fun h => ?_, fun h c hc => ?_⟩ (by simp [statement])
  · by_cases hempty : conflict = []
    · simp [hempty]
    · exact h _ (if_neg hempty)
  · rw [mem_conflictClause hc]
    exact h

/-- **Where the sink succeeds, no row is refused.** -/
theorem not_refused_of_postgresSink (hrows : rows ≠ [])
    (h : postgresSink conversions coerce failure cfg table (.array (rows.map .object)) =
      (table', .ok ())) :
    ∀ row ∈ rows, ¬ Refused conversions coerce cfg row := by
  obtain ⟨hnamed, n, hn, hsend, -⟩ := (postgresSink_eq_ok_iff hrows).mp h
  obtain ⟨-, hle, -⟩ := postgresBatchRows_eq_ok_iff.mp hn
  have hbatch : ∃ batch, batch ∈ rowBatches n rows.length rows := by
    apply exists_mem_of_ne_nil
    intro hempty
    have hflatten : (rowBatches n rows.length rows).flatten = rows :=
      rowBatches_flatten (pos_of_postgresBatchRows hn) le_rfl
    rw [hempty] at hflatten
    exact hrows hflatten.symm
  obtain ⟨batch, hbatch⟩ := hbatch
  obtain ⟨hkeys, -⟩ := sendable_statement_iff.mp (hsend _ (mem_map_of_mem hbatch))
  intro row hrow
  refine not_refused_iff.mpr ⟨⟨hnamed.1, fun column hcolumn =>
    hnamed.2 column (allColumns_subset hrow hcolumn)⟩, sendable_statement_iff.mpr ⟨hkeys, ?_⟩⟩
  rw [length_singleton, mul_one]
  exact (length_allColumns_le hrow).trans hle

/-- Rows of which no two have the same key propose rows that do not agree. -/
theorem pairwise_proposed (h : batch.Pairwise fun a b => ¬ SameKey conversions coerce cfg columns a b) :
    ((statement coerce (conflictKey conversions cfg) columns batch).2.map (table.proposed columns)).Pairwise
      fun a b => ¬ Upsert.Agree (conflictKey conversions cfg) a b := by
  rw [statement, map_map, pairwise_map]
  refine h.imp fun {a b} hdiffer hagree => hdiffer fun key hkey hcolumn => ?_
  have hsame := hagree key hkey
  simp only [comp_apply, Upsert.Table.proposed, if_pos hcolumn] at hsame
  exact argument_eq_iff.mp hsame

/-- The rows of statements, as statements of their own. -/
theorem flatMap_statement (conflict columns : List String) (batches : List (List JsonMap)) :
    ((batches.map (statement coerce conflict columns)).flatMap fun s => s.2.map fun value => (s.1, [value])) =
      batches.flatten.map fun row => statement coerce conflict columns [row] := by
  induction batches with
  | nil => rfl
  | cons batch batches ih =>
    rw [map_cons, flatMap_cons, ih, flatten_cons, map_append]
    congr 1
    rw [statement, map_map]
    rfl

/-- **The sink is the reference**, where the rows have the same columns, and different keys in each
statement. -/
theorem refines_of_apart (hrows : rows ≠ [])
    (hrefused : ∀ row ∈ rows, ¬ Refused conversions coerce cfg row) (hcolumns : allColumns rows ≠ [])
    (huniform : Uniform rows) (hapart : Apart conversions coerce cfg rows) :
    Refines conversions coerce failure cfg rows := by
  intro table table'
  obtain ⟨row, hrow⟩ := exists_mem_of_ne_nil rows hrows
  obtain ⟨hnamed, hsend⟩ := not_refused_iff.mp (hrefused row hrow)
  rw [huniform.allColumns_eq hrow] at hnamed hsend
  obtain ⟨hkeys, hle⟩ := sendable_statement_iff.mp hsend
  rw [length_singleton, mul_one] at hle
  have hpos : 0 < (allColumns rows).length := length_pos_iff.mpr hcolumns
  set n := min dbBatchSize (postgresMaxBindParams / (allColumns rows).length) with hmin
  have hn : postgresBatchRows (allColumns rows).length = .ok n :=
    postgresBatchRows_eq_ok_iff.mpr ⟨hpos, hle, hmin⟩
  have hn' : 0 < n := pos_of_postgresBatchRows hn
  set statements := (rowBatches n rows.length rows).map
    (statement coerce (conflictKey conversions cfg) (allColumns rows)) with hstatements
  have hsendable : ∀ s ∈ statements, Sendable s := by
    intro s hs
    obtain ⟨batch, hbatch, rfl⟩ := mem_map.mp hs
    exact sendable_statement_iff.mpr ⟨hkeys, parameters_le hn hbatch⟩
  -- the rows of the statements, as statements of their own, are those of the reference
  have hflat : (statements.flatMap fun s => s.2.map fun value => (s.1, [value])) =
      rows.map fun row => statement coerce (conflictKey conversions cfg) (allColumns [row]) [row] := by
    rw [hstatements, flatMap_statement, rowBatches_flatten hn' le_rfl]
    refine map_congr_left fun row hrow => ?_
    rw [huniform.allColumns_eq hrow]
  have hrun : Upsert.run table statements = Upsert.run table (rows.map fun row =>
      statement coerce (conflictKey conversions cfg) (allColumns [row]) [row]) := by
    rw [← hflat]
    refine Upsert.run_eq_run_rows fun s hs => ?_
    obtain ⟨batch, hbatch, rfl⟩ := mem_map.mp hs
    refine ⟨by simpa [statement] using ne_nil_of_mem_rowBatches hn' hbatch, fun _ c hc hupdates => ?_⟩
    rw [mem_conflictClause hc]
    exact pairwise_proposed (hapart c hc hupdates batch hbatch)
  rw [postgresSink_eq_ok_iff hrows, rowByRow_eq_ok_iff, and_iff_right hrefused,
    and_iff_right hnamed, ← hrun]
  constructor
  · rintro ⟨n', hok, -, h⟩
    cases hn.symm.trans hok
    exact h
  · intro h
    exact ⟨n, hn, hsendable, h⟩

end uniform

/-! ## Tables that take every row -/

section roomy

variable {conversions : Conversions} {coerce : String → Json → Json} {failure : String} {cfg : JsonMap}
  {rows : List JsonMap} {table' : Upsert.Table String Json} {value : Json}

/-- An empty table with an index for the conflict key and one value as the default of all
columns. -/
def roomy (conversions : Conversions) (cfg : JsonMap) (rows : List JsonMap) (value : Json) :
    Upsert.Table String Json where
  columns := allColumns rows ++ conflictKey conversions cfg
  default _ := some value
  accepts _ := true
  uniques := ((conflictClause (conflictKey conversions cfg) []).map Upsert.Conflict.keys).toList
  rows := []

/-- **The reference succeeds** at an empty table. -/
theorem exists_rowByRow_roomy (failure : String)
    (hrefused : ∀ row ∈ rows, ¬ Refused conversions coerce cfg row) (value : Json) :
    ∃ table', rowByRow conversions coerce failure cfg (roomy conversions cfg rows value) rows =
      (table', .ok ()) := by
  obtain ⟨table', hrun⟩ : ∃ table', Upsert.run (roomy conversions cfg rows value) (rows.map fun row =>
      statement coerce (conflictKey conversions cfg) (allColumns [row]) [row]) = some table' := by
    refine Upsert.exists_run (fun _ => rfl) rfl (fun keys _ => List.Pairwise.nil) fun s hs => ?_
    obtain ⟨row, hrow, rfl⟩ := mem_map.mp hs
    have hcolumns : allColumns [row] ⊆ allColumns rows ++ conflictKey conversions cfg :=
      List.Subset.trans (allColumns_subset hrow) (subset_append_left _ _)
    exact ⟨hcolumns, conflictClause_keys _ _ _, _, rfl⟩
  exact ⟨table', rowByRow_eq_ok_iff.mpr ⟨hrefused, hrun⟩⟩

/-- **A sink that succeeds at an empty table** sends no two rows with one key in one statement. -/
theorem apart_of_roomy (hrows : rows ≠ [])
    (h : postgresSink conversions coerce failure cfg (roomy conversions cfg rows value)
      (.array (rows.map .object)) = (table', .ok ())) : Apart conversions coerce cfg rows := by
  obtain ⟨-, n, hn, -, hrun⟩ := (postgresSink_eq_ok_iff hrows).mp h
  obtain ⟨-, -, rfl⟩ := postgresBatchRows_eq_ok_iff.mp hn
  intro c hc hupdates batch hbatch
  have hempty :
      Upsert.Distinct c.keys ((roomy conversions cfg rows value).rows.map Upsert.unwritten) :=
    List.Pairwise.nil
  obtain ⟨there, there', hdistinct, hexec⟩ := Upsert.exists_exec_of_run
    (I := fun there => Upsert.Distinct c.keys (there.map Upsert.unwritten)) (by
      intro s hs there there' hdistinct hexec
      obtain ⟨batch, -, rfl⟩ := mem_map.mp hs
      exact Upsert.distinct_of_exec hc hdistinct hexec)
    hempty hrun _ (mem_map_of_mem hbatch)
  have hpairwise := Upsert.pairwise_of_exec hc hupdates hdistinct hexec
  rw [statement, map_map, pairwise_map, mem_conflictClause hc] at hpairwise
  refine hpairwise.imp fun {a b} hdiffer hsame => hdiffer fun key hkey => ?_
  simp only [comp_apply, Upsert.Table.proposed]
  split_ifs with hcolumn
  · exact argument_eq_iff.mpr (hsame key hkey hcolumn)
  · exact ⟨Option.some_ne_none _, rfl⟩

/-- A row that does not have a value in a column. -/
def differs (column : String) (value : Json) (row : Upsert.Row String Json) : Bool :=
  decide (row column ≠ some value)

theorem differs_overwrite (column : String) (value : Json) (updates : List String)
    (new old : Upsert.Row String Json) (hnew : differs column value new = true)
    (hold : differs column value old = true) :
    differs column value (Upsert.overwrite updates new old) = true := by
  unfold differs Upsert.overwrite
  split_ifs
  · exact hnew
  · exact hold

/-- **A default that the table does not take**: the reference fails at a row without the column, and
the sink, which writes NULL there, does not. -/
theorem uniform_of_refines (hrows : rows ≠ [])
    (hrefused : ∀ row ∈ rows, ¬ Refused conversions coerce cfg row)
    (h : Refines conversions coerce failure cfg rows) : Uniform rows := by
  intro row hrow lacking hlacking column hcolumn
  by_contra hnot
  obtain ⟨value, hvalue⟩ :
      ∃ value : Json, value ∉ rows.map fun row => coerce column (row.get column) := by
    have : Infinite Json := Infinite.of_injective (fun n : ℕ => Json.number n) fun n n' heq =>
      Nat.cast_injective (Json.number.inj heq)
    exact (finite_toSet (rows.map fun row => coerce column (row.get column))).exists_notMem
  have hall : column ∈ allColumns rows := mem_allColumns.mpr ⟨row, hrow, hcolumn⟩
  set table : Upsert.Table String Json :=
    { roomy conversions cfg rows value with accepts := differs column value } with htable
  obtain ⟨_, hreference⟩ := exists_rowByRow_roomy failure hrefused value
  obtain ⟨hnamed, n, hn, hsend, hrun⟩ := (postgresSink_eq_ok_iff hrows).mp ((h _ _).mpr hreference)
  -- no row of the sink has the value in the column, so the sink succeeds where it is not taken
  have hproposed : ∀ s ∈ (rowBatches n rows.length rows).map
      (statement coerce (conflictKey conversions cfg) (allColumns rows)), ∀ arguments ∈ s.2,
      differs column value ((roomy conversions cfg rows value).proposed s.1.columns arguments) = true := by
    intro s hs arguments harguments
    obtain ⟨batch, hbatch, rfl⟩ := mem_map.mp hs
    obtain ⟨row, hrow, rfl⟩ := mem_map.mp harguments
    have hmem : row ∈ (rowBatches n rows.length rows).flatten :=
      mem_flatten.mpr ⟨batch, hbatch, hrow⟩
    rw [rowBatches_flatten (pos_of_postgresBatchRows hn) le_rfl] at hmem
    refine decide_eq_true fun heq => hvalue (mem_map.mpr ⟨row, hmem, ?_⟩)
    have hthere :
        column ∈ (statement coerce (conflictKey conversions cfg) (allColumns rows) batch).1.columns :=
      hall
    rw [Upsert.Table.proposed, if_pos hthere, argument] at heq
    split_ifs at heq
    exact Option.some.inj heq
  obtain ⟨table', hrun'⟩ := Upsert.exists_run_of_accepts (differs_overwrite column value)
    (by simp [roomy]) hproposed hrun
  have hsink : postgresSink conversions coerce failure cfg table (.array (rows.map .object)) =
      (table', .ok ()) :=
    (postgresSink_eq_ok_iff hrows).mpr ⟨hnamed, n, hn, hsend, hrun'⟩
  obtain ⟨-, hrun''⟩ := rowByRow_eq_ok_iff.mp ((h _ _).mp hsink)
  obtain ⟨_, _, -, hexec⟩ := Upsert.exists_exec_of_run (I := fun _ => True) (fun _ _ _ _ _ _ => trivial)
    trivial hrun'' _ (mem_map_of_mem hlacking)
  have hmissing : column ∉ allColumns [lacking] := by
    rw [mem_allColumns]
    simpa using hnot
  have haccepts := Upsert.accepts_of_exec hexec
  simp [htable, differs, roomy, Upsert.Table.proposed, statement, hmissing] at haccepts

end roomy

/-! ## The sink and the reference -/

section refines

variable (conversions : Conversions) (coerce : String → Json → Json) (failure : String) (cfg : JsonMap)
  (rows : List JsonMap)

/-- **The sink is the reference iff its rows are uniform and apart**, or are refused by both. -/
theorem postgresSink_refines_iff : Refines conversions coerce failure cfg rows ↔
    rows = [] ∨ (∃ row ∈ rows, Refused conversions coerce cfg row) ∨
      (allColumns rows ≠ [] ∧ Uniform rows ∧ Apart conversions coerce cfg rows) := by
  by_cases hrows : rows = []
  · subst hrows
    refine iff_of_true (fun table table' => ?_) (.inl rfl)
    rw [postgresSink, recordsMaps_objects]
    simp [rowByRow]
  rw [or_iff_right hrows]
  by_cases hrefused : ∃ row ∈ rows, Refused conversions coerce cfg row
  · refine iff_of_true (fun table table' => iff_of_false ?_ ?_) (.inl hrefused)
    · intro h
      obtain ⟨row, hrow, hrefused⟩ := hrefused
      exact not_refused_of_postgresSink hrows h row hrow hrefused
    · intro h
      obtain ⟨row, hrow, hrefused⟩ := hrefused
      exact (rowByRow_eq_ok_iff.mp h).1 row hrow hrefused
  rw [or_iff_right hrefused]
  push Not at hrefused
  constructor
  · intro h
    obtain ⟨table', hreference⟩ := exists_rowByRow_roomy failure hrefused (.string "")
    have hsink := (h _ _).mpr hreference
    obtain ⟨-, n, hn, -⟩ := (postgresSink_eq_ok_iff hrows).mp hsink
    have hpos := (postgresBatchRows_eq_ok_iff.mp hn).1
    exact ⟨length_pos_iff.mp hpos, uniform_of_refines hrows hrefused h, apart_of_roomy hrows hsink⟩
  · rintro ⟨hcolumns, huniform, hapart⟩
    exact refines_of_apart hrows hrefused hcolumns huniform hapart

/-- A table of people, with an index for their numbers. -/
def peopleTable : Upsert.Table String Json where
  columns := ["id", "name"]
  default _ := none
  accepts _ := true
  uniques := [["id"]]
  rows := []

/-- **Two rows with one key**: the reference inserts the first and updates it by the second; the
sink puts both into one statement, which fails. -/
theorem repeated_key_fails : ¬ Refines textRendering.toConversions (fun _ value => value)
    "cannot affect row a second time"
    [("table", .string "people"), ("conflictKey", .string "id")]
    [[("id", .string "7"), ("name", .string "Ada")], [("id", .string "7"), ("name", .string "Bob")]] := by
  intro h
  have hreference : (rowByRow textRendering.toConversions (fun _ value => value)
      "cannot affect row a second time" [("table", .string "people"), ("conflictKey", .string "id")]
      peopleTable [[("id", .string "7"), ("name", .string "Ada")],
        [("id", .string "7"), ("name", .string "Bob")]]).2 = .ok () := by decide +kernel
  have hsink := congrArg Prod.snd ((h peopleTable _).mpr (Prod.ext rfl hreference))
  revert hsink
  decide +kernel

end refines

end Dataflow.Connectors
