import Dataflow.Connectors.Databases
import Dataflow.Library.Keyset

/-!
# Paging through a table

A source is called again and again, each time with the cursor of the page before, until there is no
more. The table does not change meanwhile.

* `Engine`: what a database makes of the rows of a table: their place in the order of a column, the
  conditions, and the values that the driver hands over. A value that is NULL, or missing, exceeds
  nothing.
* `Engine.Answers`: an answer to a query. Rows with one place come in any order.
* `fetches`: a call of a source, as a step of an iteration.
* `Pagination.Separated`: at every page boundary the cursor that is read from the last row of the
  page is exceeded by exactly the rows after it.
* **`lossless_iff_separated`**: then every row is returned exactly once, and only then.
* `tied_row_lost`: two rows with one value in the cursor column, and pages of one row.
-/

set_option linter.unusedSectionVars false

namespace Dataflow.Connectors

open Activities Library.Paging Model List

/-! ## Databases -/

/-- What a database makes of rows. Columns are named as in the statement, fields as the driver names
them. -/
structure Engine (α G K : Type) where
  rank : String → α → K
  exceeds : String → G → α → Bool
  atLeast : String → String → α → Bool
  below : String → String → α → Bool
  field : α → String → Option G

section engine

variable {α G K : Type} [LinearOrder K] (engine : Engine α G K)

/-- The row meets a condition. -/
def Engine.meets (row : α) : Condition G → Bool
  | .exceeds column value => engine.exceeds column value row
  | .atLeast column text => engine.atLeast column text row
  | .below column text => engine.below column text row

@[simp] theorem Engine.meets_exceeds (column : String) (value : G) (row : α) :
    engine.meets row (.exceeds column value) = engine.exceeds column value row := rfl

@[simp] theorem Engine.meets_atLeast (column text : String) (row : α) :
    engine.meets row (.atLeast column text) = engine.atLeast column text row := rfl

@[simp] theorem Engine.meets_below (column text : String) (row : α) :
    engine.meets row (.below column text) = engine.below column text row := rfl

/-- The row meets all conditions. -/
def Engine.selects (conditions : List (Condition G)) (row : α) : Bool :=
  conditions.all (engine.meets row)

/-- The place of a row: without `ORDER BY` all rows have the same. -/
def Engine.place (order : Option String) (row : α) : WithBot K :=
  match order with
  | some column => (engine.rank column row : K)
  | none => ⊥

/-- **An answer to a query.** -/
def Engine.Answers (table : List α) (query : Query G) (records : List (Record α)) : Prop :=
  ∃ full : List α, full.Perm (table.filter (engine.selects query.conditions)) ∧
    full.Pairwise (fun x y => engine.place query.order x ≤ engine.place query.order y) ∧
    records = (full.take query.limit).map fun row => ⟨row, query.columns⟩

/-- The value of a field as the driver hands it over. -/
def Engine.read (record : Record α) (name : String) : Option G :=
  match record.columns with
  | none => engine.field record.row name
  | some columns =>
    if (columns.map trimQuotes).contains name then engine.field record.row name else none

/-- The database answers every query. -/
def Engine.Serves (table : List α) (database : Query G → Except String (List (Record α))) : Prop :=
  ∀ query, ∃ records, database query = .ok records ∧ engine.Answers table query records

/-! ## Paging -/

/-- The rows and cursors of a pagination. -/
def Pagination.keyset (pagination : Pagination G) : Keyset α (Record α) G (WithBot K) where
  rank := engine.place pagination.order
  cursor row := pagination.read.bind (engine.read ⟨row, pagination.columns⟩)
  select value := engine.selects (pagination.conditions value)
  emit row := ⟨row, pagination.columns⟩

/-- The rows that a pagination is to return. -/
def Pagination.rows (pagination : Pagination G) (table : List α) : List α :=
  table.filter (engine.selects (pagination.conditions none))

/-- **At every page boundary**, whatever the order of rows with one place, the value that is read
from the row before it is exceeded by exactly the rows after it. -/
def Pagination.Separated (pagination : Pagination G) (table : List α) : Prop :=
  ∀ before row after, (before ++ row :: after).Perm (pagination.rows engine table) →
    (before ++ row :: after).Pairwise (fun x y =>
      engine.place pagination.order x ≤ engine.place pagination.order y) →
    after ≠ [] → pagination.page ∣ before.length + 1 →
    ∃ name value, pagination.read = some name ∧
      engine.read ⟨row, pagination.columns⟩ name = some value ∧
      (table.filter (engine.selects (pagination.conditions (some value)))).Perm after

/-- A call of a source, with a database that serves the table. -/
def fetches (conversions : Conversions) (source : DatabaseSource) (config : JsonMap)
    (ingestion : Option IngestionConfig) (table : List α) : PageStep (Fields G) (Record α) :=
  fun cursor page more cursor' => ∃ database result, engine.Serves table database ∧
    source.fetch conversions engine.read database ⟨config, cursor, ingestion⟩ = .ok result ∧
    result.records = page ∧ result.hasMore = more ∧ result.nextCursor = cursor'

/-- A value that exceeds one that exceeds a third exceeds the third, and what exceeds a value of the
range is not before its start; a value comes back from the driver as it was. -/
structure Engine.Transitive (column name : String) : Prop where
  exceeds : ∀ value x value' y, engine.exceeds column value x → engine.field x name = some value' →
    engine.exceeds column value' y → engine.exceeds column value y
  atLeast : ∀ text x value' y, engine.atLeast column text x → engine.field x name = some value' →
    engine.exceeds column value' y → engine.atLeast column text y

variable {engine}

/-- There is always an answer. -/
theorem Engine.exists_answer (engine : Engine α G K) (table : List α) (query : Query G) :
    ∃ records, engine.Answers table query records := by
  let keyset : Keyset α α G (WithBot K) :=
    { rank := engine.place query.order, cursor := fun _ => none, select := fun _ _ => true, emit := id }
  obtain ⟨full, hperm, hsorted⟩ :=
    keyset.exists_sorted (table.filter (engine.selects query.conditions))
  exact ⟨_, full, hperm, hsorted, rfl⟩

/-- A database that serves the table and gives a certain answer. -/
theorem Engine.exists_serves {table : List α} {query : Query G} {records : List (Record α)}
    (h : engine.Answers table query records) :
    ∃ database, engine.Serves table database ∧ database query = .ok records := by
  classical
  choose answer hanswer using engine.exists_answer table
  refine ⟨fun other => .ok (if other = query then records else answer other), ?_, ?_⟩
  · intro other
    refine ⟨_, rfl, ?_⟩
    split_ifs with heq
    · rw [heq]
      exact h
    · exact hanswer other
  · exact congrArg Except.ok (if_pos rfl)

/-- A page is cut off the answer. -/
theorem Pagination.result_map (engine : Engine α G K) (pagination : Pagination G)
    (cursor : Fields G) (full : List α) :
    pagination.result engine.read cursor
        ((full.take (pagination.page + 1)).map fun row => ⟨row, pagination.columns⟩) =
      { records := (full.take pagination.page).map fun row => ⟨row, pagination.columns⟩
        nextCursor := pagination.next engine.read cursor
          ((full.take pagination.page).map fun row => ⟨row, pagination.columns⟩)
        hasMore := decide (pagination.page < full.length) } := by
  have hmore : (pagination.page < ((full.take (pagination.page + 1)).map fun row =>
      (⟨row, pagination.columns⟩ : Record α)).length) ↔ pagination.page < full.length := by
    rw [length_map, length_take]
    omega
  unfold Pagination.result
  dsimp only
  rw [decide_eq_decide.mpr hmore]
  by_cases hlong : pagination.page < full.length
  · rw [if_pos (decide_eq_true hlong), ← map_take, take_take, Nat.min_eq_left (Nat.le_succ _)]
  · rw [if_neg (by simpa using hlong), take_of_length_le (by omega), take_of_length_le (by omega)]

/-- The cursor that matters. -/
def Pagination.value (pagination : Pagination G) (cursor : Fields G) : Option G :=
  pagination.read.bind fun _ => cursor.get "value"

/-- There is no cursor at first. -/
theorem Pagination.value_nil (pagination : Pagination G) : pagination.value [] = none := by
  unfold Pagination.value
  cases pagination.read <;> rfl

/-- The next cursor is that of the last row. -/
theorem Pagination.value_next (pagination : Pagination G) (cursor : Fields G) (page : List α) :
    pagination.value (pagination.next engine.read cursor
        (page.map fun row => ⟨row, pagination.columns⟩)) =
      (pagination.keyset engine).next (pagination.value cursor) page := by
  unfold Pagination.next Keyset.next Pagination.value
  rw [getLast?_map]
  cases page.getLast? with
  | none => rfl
  | some row =>
    cases hread : pagination.read with
    | none =>
      rw [Pagination.keyset]
      rw [hread]
      rfl
    | some name =>
      show Fields.get (cursor.set "value" _) "value" = (pagination.keyset engine).cursor row
      rw [Fields.get_set, Pagination.keyset]
      rw [hread]
      rfl

/-- The cursor decides the conditions. -/
theorem Pagination.Shape.conditions_value {ingestion : Option IngestionConfig}
    {pagination : Pagination G} (h : pagination.Shape ingestion) (cursor : Fields G) :
    pagination.conditions (cursor.get "value") =
      pagination.conditions (pagination.value cursor) := by
  cases h with
  | postgres _ hread _ | cursor _ hread _ =>
    rw [Pagination.value, hread]
    rfl
  | plain _ _ hconditions => rw [hconditions]

variable {conversions : Conversions} {source : DatabaseSource} {config : JsonMap}
  {ingestion : Option IngestionConfig} {pagination : Pagination G} {table : List α}

section

variable (h : source.pagination conversions config ingestion = .ok pagination)

include h

/-- **A call is a step of the keyset reader.** -/
theorem fetches_iff
    {cursor cursor' : Fields G} {page : List (Record α)} {more : Bool} :
    fetches engine conversions source config ingestion table cursor page more cursor' ↔
      ∃ full, (pagination.keyset engine).Answer table (pagination.value cursor) full ∧
        page = (full.take pagination.page).map (pagination.keyset engine).emit ∧
        more = decide (pagination.page < full.length) ∧
        cursor' = pagination.next engine.read cursor
          ((full.take pagination.page).map fun row => ⟨row, pagination.columns⟩) := by
  obtain ⟨-, -, hshape⟩ := DatabaseSource.accepted h
  have hfetch (database : Query G → Except String (List (Record α))) :
      source.fetch conversions engine.read database ⟨config, cursor, ingestion⟩ =
        (database (pagination.query (cursor.get "value"))).map
          (pagination.result engine.read cursor) := source.fetch_eq h
  have hanswer (full : List α) :
      (pagination.keyset engine).Answer table (pagination.value cursor) full ↔
      full.Perm (table.filter (engine.selects (pagination.query (cursor.get "value")).conditions)) ∧
        full.Pairwise fun x y =>
          engine.place (pagination.query (cursor.get "value")).order x ≤
            engine.place (pagination.query (cursor.get "value")).order y := by
    show _ ↔ full.Perm (table.filter (engine.selects (pagination.conditions (cursor.get "value")))) ∧ _
    rw [hshape.conditions_value]
    rfl
  constructor
  · rintro ⟨database, result, hserves, hresult, rfl, rfl, rfl⟩
    obtain ⟨records, hrecords, full, hperm, hsorted, rfl⟩ :=
      hserves (pagination.query (cursor.get "value"))
    rw [hfetch, hrecords] at hresult
    obtain rfl := Except.ok.inj hresult
    refine ⟨full, (hanswer full).mpr ⟨hperm, hsorted⟩, ?_⟩
    have hpage := pagination.result_map engine cursor full
    exact ⟨congrArg SourceResult.records hpage, congrArg SourceResult.hasMore hpage,
      congrArg SourceResult.nextCursor hpage⟩
  · rintro ⟨full, hfull, rfl, rfl, rfl⟩
    obtain ⟨hperm, hsorted⟩ := (hanswer full).mp hfull
    have hanswers : engine.Answers table (pagination.query (cursor.get "value")) _ :=
      ⟨full, hperm, hsorted, rfl⟩
    obtain ⟨database, hserves, hrecords⟩ := Engine.exists_serves hanswers
    have hpage := pagination.result_map engine cursor full
    refine ⟨database, _, hserves, ?_, congrArg SourceResult.records hpage,
      congrArg SourceResult.hasMore hpage, congrArg SourceResult.nextCursor hpage⟩
    rw [hfetch, hrecords]
    rfl

/-- A call, seen from the keyset reader. -/
theorem fetches_forward
    (cursor : Fields G) (page : List (Record α)) (more : Bool) (cursor' : Fields G)
    (hstep : fetches engine conversions source config ingestion table cursor page more cursor') :
    (pagination.keyset engine).step table pagination.page (pagination.value cursor) page more
      (pagination.value cursor') := by
  obtain ⟨full, hfull, rfl, rfl, rfl⟩ := (fetches_iff h).mp hstep
  exact ⟨full, hfull, rfl, rfl, pagination.value_next cursor _⟩

/-- A step of the keyset reader, seen from the source. -/
theorem fetches_back (cursor : Fields G) (page : List (Record α)) (more : Bool) (value : Option G)
    (hstep :
      (pagination.keyset engine).step table pagination.page (pagination.value cursor) page more
      value) :
    ∃ cursor', fetches engine conversions source config ingestion table cursor page more cursor' ∧
      pagination.value cursor' = value := by
  obtain ⟨full, hfull, rfl, rfl, rfl⟩ := hstep
  exact ⟨_, (fetches_iff h).mpr ⟨full, hfull, rfl, rfl, rfl⟩, pagination.value_next cursor _⟩

/-- **An iteration of calls** is one of the keyset reader. -/
theorem lossless_fetches_iff (cursor : Fields G) (rows : List (Record α)) :
    Lossless (fetches engine conversions source config ingestion table) cursor rows ↔
      Lossless ((pagination.keyset engine).step table pagination.page) (pagination.value cursor)
        rows :=
  lossless_iff_of_simulation (fetches_forward h) (fetches_back h) cursor rows

end

/-- The boundaries, in terms of the keyset. -/
theorem separated_iff_separates (pagination : Pagination G) (table : List α) :
    pagination.Separated engine table ↔
      (pagination.keyset engine).Separates table pagination.page := by
  have hcursor (row : α) (value : G) : (pagination.keyset engine).cursor row = some value ↔
      ∃ name, pagination.read = some name ∧
        engine.read ⟨row, pagination.columns⟩ name = some value :=
    Option.bind_eq_some_iff
  constructor
  · intro h before row after hperm hsorted hafter hdvd
    obtain ⟨name, value, hname, hvalue, hselect⟩ := h before row after hperm hsorted hafter hdvd
    exact ⟨value, (hcursor row value).mpr ⟨name, hname, hvalue⟩, hselect⟩
  · intro h before row after hperm hsorted hafter hdvd
    obtain ⟨value, hvalue, hselect⟩ := h before row after hperm hsorted hafter hdvd
    obtain ⟨name, hname, hread⟩ := (hcursor row value).mp hvalue
    exact ⟨name, value, hname, hread, hselect⟩

/-- What is read from a record is a field of its row. -/
theorem Engine.field_of_read {record : Record α} {name : String} {value : G}
    (h : engine.read record name = some value) : engine.field record.row name = some value := by
  unfold Engine.read at h
  split at h
  · exact h
  · split_ifs at h
    exact h

/-- The conditions of a query on one row. -/
theorem Engine.selects_append (conditions conditions' : List (Condition G)) (row : α) :
    engine.selects (conditions ++ conditions') row =
      (engine.selects conditions row && engine.selects conditions' row) :=
  all_append

/-- A cursor selects what exceeds it. -/
theorem Engine.selects_afterCursor (column : String) (value : G) (row : α) :
    engine.selects (afterCursor column (some value)) row = engine.exceeds column value row :=
  Bool.and_true _

/-- **A cursor reached from another one selects less.** -/
theorem Pagination.Shape.narrows (hshape : pagination.Shape ingestion)
    (htransitive : ∀ column name, pagination.order = some column → pagination.read = some name →
      engine.Transitive column name) {value : Option G} {x y : α} {value' : G}
    (hx : engine.selects (pagination.conditions value) x)
    (hvalue : (pagination.keyset engine).cursor x = some value')
    (hy : engine.selects (pagination.conditions (some value')) y) :
    engine.selects (pagination.conditions value) y := by
  obtain ⟨name, hname, hread⟩ := Option.bind_eq_some_iff.mp hvalue
  have hfield := Engine.field_of_read hread
  cases hshape with
  | @postgres column horder _ hconditions =>
    have ht := htransitive column name horder hname
    rw [hconditions] at hx hy ⊢
    unfold postgresConditions at hx hy ⊢
    rw [Engine.selects_append, Bool.and_eq_true] at hx hy ⊢
    refine ⟨?_, hy.2⟩
    have hafter : engine.exceeds column value' y = true := by simpa [Engine.selects] using hy.1
    cases value with
    | some value =>
      have hbefore : engine.exceeds column value x = true := by
        simpa [Engine.selects] using hx.1
      simpa [Engine.selects] using ht.exceeds value x value' y hbefore hfield hafter
    | none =>
      replace hx : engine.selects (startCondition column ingestion) x = true := hx.1
      unfold startCondition at hx ⊢
      cases ingestion with
      | none => rfl
      | some ingestion =>
        dsimp only at hx ⊢
        split_ifs at hx ⊢ with hmode
        · have hstart : engine.atLeast column ingestion.backfillStart x = true := by
            simpa [Engine.selects] using hx
          simpa [Engine.selects] using
            ht.atLeast ingestion.backfillStart x value' y hstart hfield hafter
        · rfl
  | @cursor column _ horder _ hconditions =>
    have ht := htransitive column name horder hname
    rw [hconditions] at hx hy ⊢
    rw [Engine.selects_afterCursor] at hy
    cases value with
    | some value =>
      rw [Engine.selects_afterCursor] at hx ⊢
      exact ht.exceeds value x value' y hx hfield hy
    | none => rfl
  | plain _ hread' _ =>
    rw [hname] at hread'
    cases hread'

/-- Rows can be told apart by their records. -/
theorem regular (hshape : pagination.Shape ingestion)
    (htransitive : ∀ column name, pagination.order = some column → pagination.read = some name →
      engine.Transitive column name) : (pagination.keyset engine).Regular table where
  narrows _ _ _ _ _ _ hx hvalue hy := hshape.narrows htransitive hx hvalue hy
  rank _ _ _ _ hemit := congrArg _ (congrArg Record.row hemit)
  cursor _ _ _ _ hemit := congrArg _ (congrArg Record.row hemit)
  select _ _ _ _ _ hemit := congrArg _ (congrArg Record.row hemit)

/-- **Readable values that differ from row to row** separate the boundaries, whatever the size of a
page. -/
theorem separated_of_unique
    (hread : ∀ x ∈ pagination.rows engine table, ∃ name value, pagination.read = some name ∧
      engine.read ⟨x, pagination.columns⟩ name = some value ∧ ∀ y ∈ table,
        (engine.selects (pagination.conditions (some value)) y = true ↔
          engine.selects (pagination.conditions none) y = true ∧
            engine.place pagination.order x < engine.place pagination.order y))
    (hunique : (pagination.rows engine table).Pairwise fun x y =>
      engine.place pagination.order x ≠ engine.place pagination.order y) :
    pagination.Separated engine table := by
  intro before row after hperm hsorted _ _
  have hrow : row ∈ pagination.rows engine table :=
    hperm.subset (mem_append_right before mem_cons_self)
  obtain ⟨name, value, hname, hvalue, hselects⟩ := hread row hrow
  refine ⟨name, value, hname, hvalue, ?_⟩
  have hfilter : table.filter (engine.selects (pagination.conditions (some value))) =
      (pagination.rows engine table).filter fun y =>
        engine.place pagination.order row < engine.place pagination.order y := by
    rw [Pagination.rows, filter_filter]
    apply filter_congr
    intro y hy
    rw [Bool.eq_iff_iff, hselects y hy, Bool.and_eq_true, decide_eq_true_iff, and_comm]
  rw [hfilter]
  refine (hperm.symm.filter _).trans (List.Perm.of_eq ?_)
  have hdistinct := (hperm.pairwise_iff fun h => Ne.symm h).mpr hunique
  rw [pairwise_append, pairwise_cons] at hsorted hdistinct
  have hbefore : before.filter (fun y =>
      engine.place pagination.order row < engine.place pagination.order y) = [] := by
    rw [filter_eq_nil_iff]
    intro y hy
    rw [decide_eq_true_iff, not_lt]
    exact hsorted.2.2 y hy row mem_cons_self
  have hafter : after.filter (fun y =>
      engine.place pagination.order row < engine.place pagination.order y) = after := by
    rw [filter_eq_self]
    intro y hy
    rw [decide_eq_true_iff]
    exact lt_of_le_of_ne (hsorted.2.1.1 y hy) (hdistinct.2.1.1 y hy)
  rw [filter_append, hbefore, filter_cons_of_neg (by simp), hafter, nil_append]

/-- **Nothing is lost iff the boundaries are separated.** A source with an accepted configuration,
called from the empty cursor until there is no more, on a table that does not change: if at every page
boundary the value read from the row before it is exceeded by exactly the rows after it, every
iteration ends and returns every row exactly once; and where comparing is transitive this is the only
way.

Source: `databases.go` `postgresFetch`, `mysqlFetch`, `mongoFetch`, `snowflakeFetch` -/
theorem lossless_iff_separated
    (h : source.pagination conversions config ingestion = .ok pagination) :
    (pagination.Separated engine table →
      Lossless (fetches engine conversions source config ingestion table) []
        ((pagination.rows engine table).map fun row => ⟨row, pagination.columns⟩)) ∧
    ((∀ column name, pagination.order = some column → pagination.read = some name →
        engine.Transitive column name) →
      (Lossless (fetches engine conversions source config ingestion table) []
          ((pagination.rows engine table).map fun row => ⟨row, pagination.columns⟩) ↔
        pagination.Separated engine table)) := by
  obtain ⟨hpage, -, hshape⟩ := DatabaseSource.accepted h
  rw [lossless_fetches_iff h, pagination.value_nil, separated_iff_separates]
  refine ⟨fun hseparates => Keyset.lossless_of_separates hpage hseparates, fun htransitive => ?_⟩
  exact Keyset.lossless_iff_separates (regular hshape htransitive) hpage

end engine

/-! ## A collection of orders -/

/-- Orders with an id and a number, in a database that compares numbers. -/
def exampleEngine : Engine (ℕ × ℕ) ℕ ℕ where
  rank column order := if column = "created" then order.2 else order.1
  exceeds column value order := decide (value < if column = "created" then order.2 else order.1)
  atLeast _ _ _ := true
  below _ _ _ := true
  field order name := some (if name = "created" then order.2 else order.1)

/-- Conversions for values that are strings or numbers already. -/
def exampleConversions : Conversions where
  sprint _ := ""
  scanFloat _ := 0
  parseFloat _ := 0
  quote text := text

/-- Pages of one order. -/
def exampleConfig : JsonMap :=
  [("collection", .string "orders"), ("cursorField", .string "created"), ("pageSize", .number 1)]

/-- How the collection is paged through. -/
def examplePagination : Pagination ℕ where
  table := "orders"
  conditions := afterCursor "created"
  order := some "created"
  read := some "created"
  page := 1

theorem pagination_exampleConfig :
    DatabaseSource.mongo.pagination exampleConversions exampleConfig none =
      .ok examplePagination := by
  have hfield : firstString exampleConversions.toFormatting
      [JsonMap.get exampleConfig "cursorField", .string "_id"] = "created" := by decide +kernel
  have htable :
      stringValue exampleConversions.toFormatting (JsonMap.get exampleConfig "collection") =
      "orders" := by decide +kernel
  have hpage : boundedPageSize exampleConversions [JsonMap.get exampleConfig "pageSize"] = 1 := by
    decide +kernel
  show Except.ok (mongoPagination exampleConversions exampleConfig) = _
  rw [mongoPagination, hfield, htable, hpage]
  rfl

/-- What is after an order. -/
theorem selects_examplePagination (value : ℕ) (order : ℕ × ℕ) :
    exampleEngine.selects (examplePagination.conditions (some value)) order =
      decide (value < order.2) :=
  exampleEngine.selects_afterCursor "created" value order

/-- Two orders with different numbers: both are returned. -/
theorem lossless_iff_separated_two_numbers :
    Lossless (fetches exampleEngine exampleConversions .mongo exampleConfig none [(1, 5), (2, 6)]) []
      [⟨(1, 5), none⟩, ⟨(2, 6), none⟩] := by
  refine (lossless_iff_separated pagination_exampleConfig).1 (separated_of_unique ?_ (by decide))
  intro order _
  refine ⟨"created", order.2, rfl, rfl, fun other _ => ?_⟩
  rw [selects_examplePagination, decide_eq_true_iff]
  exact WithBot.coe_lt_coe.symm.trans (and_iff_right rfl).symm

/-- Two orders with one number: nothing is after the first one. -/
theorem tied_row_lost :
    ¬ Lossless (fetches exampleEngine exampleConversions .mongo exampleConfig none [(1, 5), (2, 5)]) []
      [⟨(1, 5), none⟩, ⟨(2, 5), none⟩] := by
  have htransitive : ∀ column name, examplePagination.order = some column →
      examplePagination.read = some name → exampleEngine.Transitive column name := by
    rintro column name ⟨⟩ ⟨⟩
    constructor
    · intro value x value' y hx hvalue hy
      cases hvalue
      exact decide_eq_true ((of_decide_eq_true hx).trans (of_decide_eq_true hy))
    · exact fun _ _ _ _ _ _ _ => rfl
  intro h
  have hseparates := Keyset.separates_of_lossless
    (regular (DatabaseSource.accepted pagination_exampleConfig).2.2 htransitive) Nat.one_pos
    ((lossless_fetches_iff pagination_exampleConfig _ _).mp h)
  obtain ⟨value, hvalue, hselect⟩ := hseparates [] (1, 5) [(2, 5)] (by decide)
    (by unfold Keyset.Sorted; decide) (cons_ne_nil _ _) (by decide)
  cases hvalue
  exact absurd hselect.length_eq (by decide)

end Dataflow.Connectors
