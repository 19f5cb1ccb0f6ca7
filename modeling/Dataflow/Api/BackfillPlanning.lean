import Dataflow.Connectors.Databases
import Dataflow.Library.Intervals

/-!
# The plan of a backfill

The range of a backfill is cut into partitions of some days. Each of them is a row of
`backfill_partitions`, and its run is the pipeline with the bounds of the row in its sources.

* `Times`: what is made of times outside this repository.
* `planBackfill`, `validateBackfillSources`, `backfillCreate`: what the creation endpoint accepts,
  and the rows it writes.
* `dispatchNode`: the sources of the run of a partition.
* `tiles_backfillCreate`: **main result**: the rows of an accepted backfill tile its range, as it
  is stored.

Source: `backfills.go`, `routes_pipelines.go`, `016_backfills.sql`
-/

namespace Dataflow.Api.BackfillPlanning

open Activities Connectors Library Model List

/-! ## Times -/

/-- A time of Go: its instant in nanoseconds, and the location that days are counted in. -/
structure GoTime where
  instant : ℤ
  location : String

/-- Go's package `time`, and the column type `timestamptz`: `parse` is `time.Parse(time.RFC3339,
…)`, `addDays` is `AddDate(0, 0, …)`, `format` is `Format(time.RFC3339Nano)`, and `timestamptz` is
what a column keeps of an instant, which is a whole number of microseconds. -/
structure Times where
  parse : String → Option GoTime
  addDays : GoTime → ℤ → GoTime
  format : ℤ → String
  timestamptz : ℤ → ℤ

section create

variable (times : Times) (formatting : Formatting)

/-! ## Planning -/

/-- Source: `auth.go` `stringValue`; `fmt.Sprint(nil)` is a text, too. -/
def stringValue : Json → String
  | .null => "<nil>"
  | .string text => text
  | value => formatting.sprint value

/-- Source: `backfills.go` `numberValue`. -/
def numberValue (value : Json) (fallback : ℚ) : ℚ :=
  match value with
  | .number value => value
  | _ => fallback

/-- Source: `backfills.go` `backfillPlan`; `PartitionCount` and `EstimatedExecutions` are the number
of partitions. -/
structure BackfillPlan where
  rangeStart : ℤ
  rangeEnd : ℤ
  partitionDays : ℤ
  maxConcurrency : ℤ
  partitions : List (ℤ × ℤ)
  deriving DecidableEq

/-- The loop of `planBackfill`, with the number of partitions that are still allowed. -/
def partitionsFrom (rangeEnd days : ℤ) : ℕ → GoTime → Except String (List (ℤ × ℤ))
  | 0, cursor =>
    if cursor.instant < rangeEnd then .error "backfill exceeds the 366 partition limit" else .ok []
  | left + 1, cursor =>
    if cursor.instant < rangeEnd then
      let next := times.addDays cursor days
      (partitionsFrom rangeEnd days left next).map fun rest =>
        (cursor.instant, min next.instant rangeEnd) :: rest
    else .ok []

/-- Source: `backfills.go` `planBackfill`. -/
def planBackfill (input : JsonMap) : Except String BackfillPlan :=
  match times.parse (stringValue formatting (input.get "from")),
    times.parse (stringValue formatting (input.get "to")) with
  | some start, some stop =>
    if ¬ start.instant < stop.instant then
      .error "from and to must be valid ISO timestamps with from before to"
    else
      let partitionDays := truncate (numberValue (input.get "partitionDays") 1)
      let maxConcurrency := truncate (numberValue (input.get "maxConcurrency") 1)
      if partitionDays < 1 ∨ 31 < partitionDays then
        .error "partitionDays must be an integer between 1 and 31"
      else if maxConcurrency < 1 ∨ 5 < maxConcurrency then
        .error "maxConcurrency must be an integer between 1 and 5"
      else
        (partitionsFrom times stop.instant partitionDays 366 start).map fun partitions =>
          { rangeStart := start.instant, rangeEnd := stop.instant, partitionDays, maxConcurrency
            partitions }
  | _, _ => .error "from and to must be valid ISO timestamps with from before to"

/-- The body of the loop of `validateBackfillSources`. -/
def validateBackfillSource (node : Node) : Except String Unit :=
  let field :=
    if node.activityType = "mongodb.fetch" then JsonMap.get node.config "cursorField"
    else JsonMap.get node.config "cursorColumn"
  if node.activityType ∉ ["postgres.fetch", "mysql.fetch", "mongodb.fetch"] then
    .error (node.activityType ++
      ": partitioned backfill is supported only for PostgreSQL, MySQL, and MongoDB cursor sources")
  else if JsonMap.get node.config "syncMode" ≠ .string "cursor" then
    .error (node.activityType ++ ": partitioned backfills require cursor mode")
  else if JsonMap.get node.config "cursorType" ≠ .string "date" then
    .error (node.activityType ++ ": partitioned backfills require cursorType=date")
  else if stringValue formatting field = "" then
    .error (node.activityType ++ ": partitioned backfills require a cursor field")
  else .ok ()

/-- Source: `backfills.go` `validateBackfillSources`. -/
def validateBackfillSources (definition : PipelineDefinition) : Except String Unit :=
  let sources := definition.nodes.filter fun node => node.type = .source
  (forM sources (validateBackfillSource formatting)).bind fun _ =>
    if sources.isEmpty then .error "pipeline has no source" else .ok ()

/-! ## The rows -/

/-- The range of a row of `backfill_partitions`. -/
structure BackfillPartition where
  id : String
  rangeStart : ℤ
  rangeEnd : ℤ
  deriving DecidableEq

/-- The rows that a plan is written to; `ids` are the identifiers that are minted. -/
def partitionRows (ids : ℕ → String) (plan : BackfillPlan) : List BackfillPartition :=
  plan.partitions.zipIdx.map fun (range, ordinal) =>
    { id := ids ordinal, rangeStart := times.timestamptz range.1
      rangeEnd := times.timestamptz range.2 }

/-- The pipeline has been loaded; an error of the last kind is one of the database.
Source: `routes_pipelines.go` `backfillCreate`, `016_backfills.sql` -/
def backfillCreate (maxBackfillPartitions : ℤ) (ids : ℕ → String) (definition : PipelineDefinition)
    (body : JsonMap) : Except String (BackfillPlan × List BackfillPartition) :=
  (planBackfill times formatting body).bind fun plan =>
    if maxBackfillPartitions < plan.partitions.length then
      .error ("backfill has " ++ toString plan.partitions.length ++
        " partitions, exceeding the limit of " ++ toString maxBackfillPartitions)
    else
      (validateBackfillSources formatting definition).bind fun _ =>
        let rows := partitionRows times ids plan
        if rows.all fun row => row.rangeStart < row.rangeEnd then .ok (plan, rows)
        else .error "new row violates check constraint"

/-! ## The run of a partition -/

/-- Source: `backfills.go` `dispatchBackfills`. -/
def backfillIngestion (row : BackfillPartition) (ingestion : Option IngestionConfig) :
    IngestionConfig :=
  let ingestion := ingestion.getD {}
  { ingestion with
    mode := "backfill"
    backfillStart := times.format row.rangeStart
    backfillEnd := times.format row.rangeEnd
    stateKey := row.id
    pageSize := max ingestion.pageSize 10000 }

/-- Source: `backfills.go` `dispatchBackfills`. -/
def dispatchNode (row : BackfillPartition) (node : Node) : Node :=
  if node.type = .source then
    { node with ingestion := some (backfillIngestion times row node.ingestion) }
  else node

end create

/-! ## What is accepted -/

variable {times : Times} {formatting : Formatting}

/-- What the loop gives, as it is stored, leads from its start to the end of the range. -/
theorem tiles_partitionsFrom {rangeEnd days : ℤ} {left : ℕ} {cursor : GoTime}
    {partitions : List (ℤ × ℤ)}
    (h : partitionsFrom times rangeEnd days left cursor = .ok partitions)
    (hcheck : ∀ range ∈ partitions, times.timestamptz range.1 < times.timestamptz range.2) :
    Tiles (times.timestamptz (min cursor.instant rangeEnd)) (times.timestamptz rangeEnd)
      (partitions.map fun range => (times.timestamptz range.1, times.timestamptz range.2)) := by
  induction left generalizing cursor partitions with
  | zero =>
    unfold partitionsFrom at h
    split_ifs at h with hlt
    cases h
    rw [min_eq_right (not_lt.mp hlt)]
    exact .nil _
  | succ left ih =>
    unfold partitionsFrom at h
    split_ifs at h with hlt
    · dsimp only at h
      cases hrest : partitionsFrom times rangeEnd days left (times.addDays cursor days) with
      | error err =>
        rw [hrest] at h
        cases h
      | ok rest =>
        rw [hrest] at h
        cases h
        rw [forall_mem_cons] at hcheck
        rw [min_eq_left hlt.le, map_cons]
        exact .cons hcheck.1 (ih hrest hcheck.2)
    · cases h
      rw [min_eq_right (not_lt.mp hlt)]
      exact .nil _

variable {plan : BackfillPlan}

/-- What a plan consists of. -/
theorem planBackfill_ok {input : JsonMap} (h : planBackfill times formatting input = .ok plan) :
    plan.rangeStart < plan.rangeEnd ∧ ∃ start : GoTime, start.instant = plan.rangeStart ∧
      partitionsFrom times plan.rangeEnd plan.partitionDays 366 start = .ok plan.partitions := by
  unfold planBackfill at h
  split at h
  · rename_i start stop _ _
    dsimp only at h
    split_ifs at h with hlt
    cases hpartitions : partitionsFrom times stop.instant
        (truncate (numberValue (input.get "partitionDays") 1)) 366 start with
    | error err =>
      rw [hpartitions] at h
      cases h
    | ok partitions =>
      rw [hpartitions] at h
      cases h
      exact ⟨hlt, start, rfl, hpartitions⟩
  · cases h

variable {definition : PipelineDefinition} {rows : List BackfillPartition}
  {maxBackfillPartitions : ℤ} {ids : ℕ → String}

/-- What an accepted backfill consists of. -/
theorem backfillCreate_ok
    {body : JsonMap}
    (h : backfillCreate times formatting maxBackfillPartitions ids definition body =
      .ok (plan, rows)) :
    planBackfill times formatting body = .ok plan ∧
      validateBackfillSources formatting definition = .ok () ∧ rows = partitionRows times ids plan ∧
      ∀ row ∈ rows, row.rangeStart < row.rangeEnd := by
  unfold backfillCreate at h
  cases hplan : planBackfill times formatting body with
  | error err =>
    rw [hplan] at h
    cases h
  | ok plan' =>
    cases hsources : validateBackfillSources formatting definition with
    | error err =>
      rw [hplan, hsources] at h
      dsimp only [Except.bind] at h
      split_ifs at h
    | ok _ =>
      rw [hplan, hsources] at h
      dsimp only [Except.bind] at h
      split_ifs at h with _ hcheck
      cases h
      refine ⟨rfl, rfl, rfl, fun row hrow => ?_⟩
      exact of_decide_eq_true (all_eq_true.mp hcheck row hrow)

/-- The source of an accepted backfill is one of three connectors. -/
theorem exists_source (h : validateBackfillSources formatting definition = .ok ()) {node : Node}
    (hnode : node ∈ definition.nodes) (htype : node.type = .source) :
    ∃ source : DatabaseSource, node.activityType = source.activityType ∧ source ≠ .snowflake := by
  have hforM : ∀ nodes : List Node, forM nodes (validateBackfillSource formatting) = .ok () →
      ∀ node ∈ nodes, validateBackfillSource formatting node = .ok () := by
    intro nodes
    induction nodes with
    | nil => exact fun _ node hnode => absurd hnode not_mem_nil
    | cons first nodes ih =>
      intro hall
      rw [forM_cons] at hall
      cases hfirst : validateBackfillSource formatting first with
      | error err =>
        rw [hfirst] at hall
        cases hall
      | ok _ =>
        rw [hfirst] at hall
        rw [forall_mem_cons]
        exact ⟨hfirst, ih hall⟩
  unfold validateBackfillSources at h
  dsimp only at h
  cases hsources : forM (definition.nodes.filter fun node => node.type = .source)
      (validateBackfillSource formatting) with
  | error err =>
    rw [hsources] at h
    cases h
  | ok _ =>
    have hvalid := hforM _ hsources node (mem_filter.mpr ⟨hnode, decide_eq_true htype⟩)
    unfold validateBackfillSource at hvalid
    dsimp only at hvalid
    by_cases hsupported : node.activityType ∈ ["postgres.fetch", "mysql.fetch", "mongodb.fetch"]
    swap
    · rw [if_pos hsupported] at hvalid
      cases hvalid
    rw [mem_cons, mem_cons, mem_singleton] at hsupported
    rcases hsupported with hactivity | hactivity | hactivity
    · exact ⟨.postgres, hactivity, by decide⟩
    · exact ⟨.mysql, hactivity, by decide⟩
    · exact ⟨.mongo, hactivity, by decide⟩

/-- The ranges of the rows are those of the plan. -/
theorem map_partitionRows (times : Times) (ids : ℕ → String) (plan : BackfillPlan) :
    (partitionRows times ids plan).map (fun row => (row.rangeStart, row.rangeEnd)) =
      plan.partitions.map fun range => (times.timestamptz range.1, times.timestamptz range.2) := by
  rw [partitionRows, map_map]
  calc plan.partitions.zipIdx.map _
      = (plan.partitions.zipIdx.map Prod.fst).map
          fun range => (times.timestamptz range.1, times.timestamptz range.2) := by
        rw [map_map]
        rfl
    _ = _ := by rw [zipIdx_map_fst]

/-- There is a partition at least. -/
theorem backfillCreate_ne_nil
    {body : JsonMap}
    (h : backfillCreate times formatting maxBackfillPartitions ids definition body =
      .ok (plan, rows)) : rows ≠ [] := by
  obtain ⟨hplan, -, rfl, -⟩ := backfillCreate_ok h
  obtain ⟨hlt, start, hstart, hpartitions⟩ := planBackfill_ok hplan
  intro hnil
  have hempty : plan.partitions = [] := by
    have hmap := map_partitionRows times ids plan
    rw [hnil] at hmap
    exact map_eq_nil_iff.mp hmap.symm
  unfold partitionsFrom at hpartitions
  rw [if_pos (hstart ▸ hlt), hempty] at hpartitions
  dsimp only at hpartitions
  cases hrest : partitionsFrom times plan.rangeEnd plan.partitionDays 365
      (times.addDays start plan.partitionDays) with
  | error err =>
    rw [hrest] at hpartitions
    cases hpartitions
  | ok rest =>
    rw [hrest] at hpartitions
    cases hpartitions

/-- **The rows of an accepted backfill tile its range**, as it is stored. -/
theorem tiles_backfillCreate
    {body : JsonMap}
    (h : backfillCreate times formatting maxBackfillPartitions ids definition body =
      .ok (plan, rows)) :
    Tiles (times.timestamptz plan.rangeStart) (times.timestamptz plan.rangeEnd)
      (rows.map fun row => (row.rangeStart, row.rangeEnd)) := by
  obtain ⟨hplan, -, rfl, hcheck⟩ := backfillCreate_ok h
  obtain ⟨hlt, start, hstart, hpartitions⟩ := planBackfill_ok hplan
  rw [map_partitionRows]
  have htiles := tiles_partitionsFrom hpartitions ?_
  · rwa [hstart, min_eq_left hlt.le] at htiles
  · intro range hrange
    have hmem := mem_map_of_mem
      (f := fun range => (times.timestamptz range.1, times.timestamptz range.2)) hrange
    rw [← map_partitionRows times ids plan] at hmem
    obtain ⟨row, hrow, heq⟩ := mem_map.mp hmem
    have hlt := hcheck row hrow
    rwa [(Prod.mk.inj heq).1, (Prod.mk.inj heq).2] at hlt

end Dataflow.Api.BackfillPlanning
