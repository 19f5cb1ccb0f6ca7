import Dataflow.Api.BackfillPlanning
import Dataflow.Connectors.DatabasePaging

/-!
# What a backfill reads

The run of a partition reads its source page by page, up to 50 pages. PostgreSQL is asked for the
rows of the partition; MySQL and MongoDB are asked for all rows, whatever the bounds.

* `Backfill`: an accepted backfill with one of its sources, and the table that is read.
* `Backfill.ReadsWindow`: every run ends, and together they return the rows of the range, each as
  often as it is there.
* `Backfill.AllRead`, `Backfill.Covered`: the runs lose nothing of what they ask for, and what they
  ask for is the range.
* **`readsWindow_iff`**: the range is read iff both hold.
* `range_read_twice`: a table in MySQL, and a range of two days.

Source: `backfills.go`, `databases.go`, `dynamic_dag.go`
-/

set_option linter.unusedSectionVars false

namespace Dataflow.Api.BackfillReads

open Api.BackfillPlanning Connectors Library Library.Paging List
open Model Workflows

variable {α G K : Type} [LinearOrder K]

/-! ## Pages of rows -/

/-- The rows of a page. -/
def rowPages (engine : Engine α G K) (conversions : Conversions) (source : DatabaseSource)
    (config : JsonMap) (ingestion : Option IngestionConfig) (table : List α) :
    PageStep (Fields G) α :=
  fun cursor page more cursor' => ∃ records,
    fetches engine conversions source config ingestion table cursor records more cursor' ∧
      page = records.map Record.row

/-- A pagination that returns rows. -/
def rowKeyset (engine : Engine α G K) (pagination : Pagination G) : Keyset α α G (WithBot K) where
  rank := (pagination.keyset engine).rank
  cursor := (pagination.keyset engine).cursor
  select := (pagination.keyset engine).select
  emit := id

section pages

variable {engine : Engine α G K} {conversions : Conversions} {source : DatabaseSource}
  {config : JsonMap} {ingestion : Option IngestionConfig} {pagination : Pagination G}
    {table : List α}

/-- A page of rows, seen from the keyset reader. -/
theorem rowPages_forward (h : source.pagination conversions config ingestion = .ok pagination)
    (cursor : Fields G) (page : List α) (more : Bool) (cursor' : Fields G)
    (hstep : rowPages engine conversions source config ingestion table cursor page more cursor') :
    (rowKeyset engine pagination).step table pagination.page (pagination.value cursor) page more
      (pagination.value cursor') := by
  obtain ⟨records, hfetches, rfl⟩ := hstep
  obtain ⟨full, hfull, rfl, hmore, hnext⟩ := fetches_forward h _ _ _ _ hfetches
  refine ⟨full, hfull, ?_, hmore, hnext⟩
  rw [map_map]
  rfl

/-- A step of the keyset reader, seen from the pages of rows. -/
theorem rowPages_back (h : source.pagination conversions config ingestion = .ok pagination)
    (cursor : Fields G) (page : List α) (more : Bool) (value : Option G)
    (hstep : (rowKeyset engine pagination).step table pagination.page (pagination.value cursor) page
      more value) :
    ∃ cursor', rowPages engine conversions source config ingestion table cursor page more cursor' ∧
      pagination.value cursor' = value := by
  obtain ⟨full, hfull, rfl, hmore, hnext⟩ := hstep
  obtain ⟨cursor', hfetches, hvalue⟩ := fetches_back h cursor _ more value
    ⟨full, hfull, rfl, hmore, hnext⟩
  refine ⟨cursor', ⟨_, hfetches, ?_⟩, hvalue⟩
  rw [map_map]
  rfl

/-- Without a configuration that is accepted there are no pages. -/
theorem exists_pagination {cursor cursor' : Fields G} {page : List α} {more : Bool}
    (h : rowPages engine conversions source config ingestion table cursor page more cursor') :
    ∃ pagination : Pagination G,
      source.pagination conversions config ingestion = .ok pagination := by
  obtain ⟨records, ⟨database, result, -, hfetch, -⟩, -⟩ := h
  cases hpagination : source.pagination (G := G) conversions config ingestion with
  | ok pagination => exact ⟨pagination, rfl⟩
  | error err =>
    rw [DatabaseSource.fetch_bind, hpagination] at hfetch
    cases hfetch

/-- The boundaries do not depend on the form in which rows are returned. -/
theorem separates_rowKeyset : (rowKeyset engine pagination).Separates table pagination.page ↔
      pagination.Separated engine table :=
  (separated_iff_separates pagination table).symm

/-- **Separated boundaries**: the pages return the rows that are asked for, and their number is
known. -/
theorem lossless_rowPages (h : source.pagination conversions config ingestion = .ok pagination)
    (hseparated : pagination.Separated engine table) :
    Lossless (rowPages engine conversions source config ingestion table) []
        (pagination.rows engine table) ∧
      ∀ n, 0 < n → (EndsWithin (rowPages engine conversions source config ingestion table) n [] ↔
          (pagination.rows engine table).length ≤ n * pagination.page) := by
  have hpage := (DatabaseSource.accepted h).1
  have hvalue := pagination.value_nil
  have hseparates := separates_rowKeyset.mpr hseparated
  constructor
  · rw [lossless_iff_of_simulation (rowPages_forward h) (rowPages_back h), hvalue]
    have hlossless := Keyset.lossless_of_separates hpage hseparates
    rwa [show (rowKeyset engine pagination).emit = id from rfl, map_id] at hlossless
  · intro n hn
    rw [endsWithin_iff_of_simulation (rowPages_forward h) (rowPages_back h), hvalue]
    exact Keyset.endsWithin_iff hpage hseparates hn

/-- Rows that look alike are alike. -/
theorem regular_rowKeyset (hshape : pagination.Shape ingestion)
    (htransitive : ∀ column name, pagination.order = some column → pagination.read = some name →
      engine.Transitive column name) : (rowKeyset engine pagination).Regular table where
  narrows _ _ _ _ _ _ hx hvalue hy := hshape.narrows htransitive hx hvalue hy
  rank _ _ _ _ hemit := congrArg _ hemit
  cursor _ _ _ _ hemit := congrArg _ hemit
  select _ _ _ _ _ hemit := congrArg _ hemit

end pages

/-! ## The page loop of a run -/

section loop

variable {C β : Type} {step : PageStep C β} {represents : JsonMap → C → Prop}
  {state : Activities.ConnectorState} {input : WorkflowInput} {node : Node} {ok : Results → Prop}
  {made : List NodeCall}

/-- The replies to calls for pages are pages of a reader: `represents` says for which of its cursors
a checkpoint stands. Merges succeed. -/
def PageReplies (step : PageStep C β) (represents : JsonMap → C → Prop)
    (state : Activities.ConnectorState) : ∀ call, NodeReply call → Prop
  | .fetchSourcePage params, reply => ∀ c, represents (Activities.fetchCursor state params) c →
      ∃ page records checkpoint c', reply = .ok page ∧ step c records page.hasMore c' ∧
        page.checkpoint = some checkpoint ∧ represents checkpoint c'
  | .mergeRefs _, reply => ∃ merged, reply = .ok merged
  | .evalEdgeCondition _, _ => True
  | .dispatchNode _, _ => True

/-- After the last page the source succeeds. -/
theorem guarantees_finishSource_success (progress : SourceProgress) :
    (finishSource input node progress).Guarantees (PageReplies step represents state) ok
      (fun _ result => result.status = .success) made := by
  unfold finishSource
  rcases progress.refs with _ | ⟨ref, _ | ⟨ref', refs⟩⟩
  · exact rfl
  · exact rfl
  · rintro reply s ⟨merged, rfl⟩ _
    exact rfl

/-- **A run whose reader ends within its pages succeeds.** -/
theorem guarantees_readPages_success {pagesLeft : ℕ} {c : C} {progress : SourceProgress}
    (hends : EndsWithin step (pagesLeft + 1) c)
    (hc : represents (Activities.fetchCursor state (fetchParams input node progress)) c) :
    (readPages input node pagesLeft progress).Guarantees (PageReplies step represents state) ok
      (fun _ result => result.status = .success) made := by
  induction pagesLeft generalizing c progress made with
  | zero =>
      intro reply s hreply _
      obtain ⟨page, records, checkpoint, c', rfl, hstep, -, -⟩ := hreply c hc
      unfold afterPage
      dsimp only
      cases hmore : page.hasMore with
      | false => exact guarantees_finishSource_success _
      | true => exact (hends.2 records c' (hmore ▸ hstep)).elim
  | succ pagesLeft ih =>
      intro reply s hreply _
      obtain ⟨page, records, checkpoint, c', rfl, hstep, hcheckpoint, hc'⟩ := hreply c hc
      unfold afterPage
      dsimp only
      cases hmore : page.hasMore with
      | false => exact guarantees_finishSource_success _
      | true =>
          apply ih (hends.2 records c' (hmore ▸ hstep))
          show represents (((page.checkpoint.orElse fun _ => progress.checkpoint).orElse _).getD []) c'
          rw [hcheckpoint]
          exact hc'

end loop

/-! ## Backfills -/

/-- The database reads a text as an instant: it is the bound of a column with instants. -/
structure ReadsInstant (engine : Engine α G K) (column text : String) (instant : α → Option ℤ)
    (t : ℤ) : Prop where
  ne_empty : text ≠ ""
  atLeast : ∀ x, engine.atLeast column text x = true ↔ ∃ v, instant x = some v ∧ t ≤ v
  below : ∀ x, engine.below column text x = true ↔ ∃ v, instant x = some v ∧ v < t

/-- **An accepted backfill** with one of its sources, and the table that is read: `instant` is the
value of the cursor column, and the database reads the bounds of a partition as instants. -/
structure Backfill (α G K : Type) [LinearOrder K] where
  times : Times
  conversions : Conversions
  maxBackfillPartitions : ℤ
  ids : ℕ → String
  definition : PipelineDefinition
  body : JsonMap
  plan : BackfillPlan
  partitions : List BackfillPartition
  node : Node
  source : DatabaseSource
  engine : Engine α G K
  table : List α
  instant : α → Option ℤ
  accepted : backfillCreate times conversions.toFormatting maxBackfillPartitions ids definition body =
    .ok (plan, partitions)
  mem : node ∈ definition.nodes
  isSource : node.type = .source
  activity : node.activityType = source.activityType
  dated : ∀ partition ∈ partitions, ∀ pagination : Pagination G, ∀ column,
    source.pagination conversions node.config
        (some (backfillIngestion times partition node.ingestion)) = .ok pagination →
      pagination.order = some column → ∀ t ∈ [partition.rangeStart, partition.rangeEnd],
        ReadsInstant engine column (times.format t) instant t

namespace Backfill

variable (b : Backfill α G K)

/-- The source node as the run of a partition has it. -/
def run (partition : BackfillPartition) : Node := dispatchNode b.times partition b.node

/-- The pages of the run of a partition. -/
def reader (partition : BackfillPartition) : PageStep (Fields G) α :=
  rowPages b.engine b.conversions b.source (b.run partition).config (b.run partition).ingestion b.table

/-- The rows whose cursor column is in the range of the backfill. -/
def window : List α := b.table.filter (within b.instant (b.plan.rangeStart, b.plan.rangeEnd))

/-- **The backfill reads its range**: the run of every partition comes to its end within the pages
that are allowed, and together they return the rows of the range, each as often as it is there. -/
def ReadsWindow : Prop := LosslessTogether b.reader b.partitions maxSourcePages [] b.window

/-- The run of a partition loses nothing of what it asks for: the connector accepts its
configuration, the page boundaries are separated, and the pages are enough. -/
def PartitionRead (partition : BackfillPartition) : Prop :=
  ∃ pagination, b.source.pagination b.conversions (b.run partition).config
      (b.run partition).ingestion = .ok pagination ∧
    pagination.Separated b.engine b.table ∧
    (pagination.rows b.engine b.table).length ≤ maxSourcePages * pagination.page

/-- The runs of all partitions lose nothing of what they ask for. -/
def AllRead : Prop := ∀ partition ∈ b.partitions, b.PartitionRead partition

/-- **What the runs ask for is the range.** In PostgreSQL this is a matter of the microseconds: no
row is between an end of the range and this end as it is stored. Other sources ask for all rows each
time: there is one partition, and no row outside the range, or the table is empty. -/
def Covered : Prop :=
  match b.source with
  | .postgres => ∀ x ∈ b.table,
      within b.instant (b.times.timestamptz b.plan.rangeStart, b.times.timestamptz b.plan.rangeEnd) x =
        within b.instant (b.plan.rangeStart, b.plan.rangeEnd) x
  | _ => ∀ x ∈ b.table, b.partitions.length = 1 ∧
      within b.instant (b.plan.rangeStart, b.plan.rangeEnd) x = true

/-- The database compares the values of the cursor column as it orders the rows. -/
structure Consistent : Prop where
  transitive : ∀ partition ∈ b.partitions, ∀ pagination : Pagination G, ∀ column name,
    b.source.pagination b.conversions (b.run partition).config (b.run partition).ingestion =
        .ok pagination →
      pagination.order = some column → pagination.read = some name → b.engine.Transitive column name
  forward : ∀ partition ∈ b.partitions, ∀ pagination : Pagination G, ∀ column name value x y,
    b.source.pagination b.conversions (b.run partition).config (b.run partition).ingestion =
        .ok pagination →
      pagination.order = some column → pagination.read = some name →
        x ∈ b.table → y ∈ pagination.rows b.engine b.table → b.engine.field x name = some value →
          b.engine.rank column x < b.engine.rank column y → b.engine.exceeds column value y = true

variable {b}

/-! ## What a partition asks for -/

theorem config_run (partition : BackfillPartition) : (b.run partition).config = b.node.config := by
  rw [run, dispatchNode, if_pos b.isSource]

theorem ingestion_run (partition : BackfillPartition) :
    (b.run partition).ingestion = some (backfillIngestion b.times partition b.node.ingestion) := by
  rw [run, dispatchNode, if_pos b.isSource]

/-- The rows that the run of a partition asks for. -/
def part (b : Backfill α G K) (partition : BackfillPartition) : List α :=
  match b.source with
  | .postgres => b.table.filter (within b.instant (partition.rangeStart, partition.rangeEnd))
  | _ => b.table

/-- There is no backfill of Snowflake. -/
theorem source_ne : b.source ≠ .snowflake := by
  obtain ⟨-, hvalid, -⟩ := backfillCreate_ok b.accepted
  obtain ⟨source, hactivity, hne⟩ := exists_source hvalid b.mem b.isSource
  intro hsource
  rw [b.activity, hsource] at hactivity
  cases source with
  | postgres | mysql | mongo => exact absurd hactivity (by decide)
  | snowflake => exact hne rfl

variable {partition : BackfillPartition}

/-- The conditions of the first page of a backfill. -/
theorem selects_backfill {column : String} (hne : b.times.format partition.rangeEnd ≠ "") (x : α) :
    b.engine.selects (postgresConditions column
        (some (backfillIngestion b.times partition b.node.ingestion)) none) x =
      (b.engine.atLeast column (b.times.format partition.rangeStart) x &&
        b.engine.below column (b.times.format partition.rangeEnd) x) := by
  have hconditions : postgresConditions (G := G) column
      (some (backfillIngestion b.times partition b.node.ingestion)) none =
        [.atLeast column (b.times.format partition.rangeStart)] ++
          [.below column (b.times.format partition.rangeEnd)] := by
    unfold postgresConditions startCondition endCondition
    exact congrArg₂ _ (if_pos rfl) (if_pos hne)
  rw [hconditions, Engine.selects_append]
  simp [Engine.selects]

/-- **The rows a pagination asks for** are the part of the partition. -/
theorem rows_eq_part (hpartition : partition ∈ b.partitions) {pagination : Pagination G}
    (h : b.source.pagination b.conversions (b.run partition).config (b.run partition).ingestion =
      .ok pagination) : pagination.rows b.engine b.table = b.part partition := by
  have hdated := b.dated partition hpartition pagination
  rw [config_run, ingestion_run] at h
  have hall : ∀ column, pagination.conditions = afterCursor column →
      b.table.filter (b.engine.selects (pagination.conditions none)) = b.table := by
    intro column hconditions
    rw [hconditions]
    exact filter_eq_self.mpr fun _ _ => rfl
  unfold Pagination.rows part
  cases hsource : b.source with
  | postgres =>
    rw [hsource] at h hdated
    obtain ⟨column, horder, -, hconditions, -⟩ := postgresPagination_ok h
    have hstart := hdated column h horder partition.rangeStart mem_cons_self
    have hend := hdated column h horder partition.rangeEnd
      (mem_cons_of_mem _ mem_cons_self)
    apply filter_congr
    intro x _
    rw [hconditions, selects_backfill hend.ne_empty, Bool.eq_iff_iff, Bool.and_eq_true,
      hstart.atLeast, hend.below, within_iff]
    constructor
    · rintro ⟨⟨v, hv, hle⟩, v', hv', hlt⟩
      obtain rfl := Option.some.inj (hv.symm.trans hv')
      exact ⟨v, hv, hle, hlt⟩
    · rintro ⟨v, hv, hle, hlt⟩
      exact ⟨⟨v, hv, hle⟩, v, hv, hlt⟩
  | mysql =>
    rw [hsource] at h
    obtain ⟨column, _, -, -, hconditions, -⟩ := mysqlPagination_ok h
    exact hall column hconditions
  | mongo =>
    rw [hsource] at h
    cases h
    exact hall _ rfl
  | snowflake => exact absurd hsource source_ne

/-! ## Reading everything that is asked for -/

/-- The run of a partition that loses nothing of what it asks for. -/
theorem PartitionRead.lossless
    (hpartition : partition ∈ b.partitions) (h : b.PartitionRead partition) :
    EndsWithin (b.reader partition) maxSourcePages [] ∧
      Lossless (b.reader partition) [] (b.part partition) := by
  obtain ⟨pagination, hpagination, hseparated, hlength⟩ := h
  obtain ⟨hlossless, hends⟩ := lossless_rowPages hpagination hseparated
  rw [← rows_eq_part hpartition hpagination]
  exact ⟨(hends maxSourcePages (by decide)).mpr hlength, hlossless⟩

/-- The partitions of the range, as it is stored. -/
theorem tiles (b : Backfill α G K) :
    Tiles (b.times.timestamptz b.plan.rangeStart) (b.times.timestamptz b.plan.rangeEnd)
      (b.partitions.map fun partition => (partition.rangeStart, partition.rangeEnd)) :=
  tiles_backfillCreate b.accepted

/-- **The parts are the range** iff it is covered. -/
theorem parts_perm_iff (b : Backfill α G K) :
    (b.partitions.flatMap b.part).Perm b.window ↔ b.Covered := by
  have hnil : b.partitions ≠ [] := backfillCreate_ne_nil b.accepted
  have hall : (b.partitions.flatMap fun _ => b.table).Perm b.window ↔
      ∀ x ∈ b.table, b.partitions.length = 1 ∧
        within b.instant (b.plan.rangeStart, b.plan.rangeEnd) x = true := by
    constructor
    · intro hperm x hx
      have hpos := length_pos_of_mem hx
      have hle : b.window.length ≤ b.table.length := length_filter_le _ _
      match hpartitions : b.partitions with
      | [] => exact absurd hpartitions hnil
      | [partition] =>
        rw [hpartitions, flatMap_singleton] at hperm
        exact ⟨rfl, length_filter_eq_length_iff.mp hperm.length_eq.symm x hx⟩
      | first :: second :: rest =>
        -- the rows are returned twice at least
        have hlength := hperm.length_eq
        rw [hpartitions, flatMap_cons, flatMap_cons, length_append, length_append] at hlength
        omega
    · intro h
      rcases b.table.eq_nil_or_concat with hempty | ⟨rest, x, hconcat⟩
      · have hparts : (b.partitions.flatMap fun _ => b.table) = [] := by
          rw [flatMap_eq_nil_iff]
          exact fun _ _ => hempty
        rw [hparts, window, hempty]
        exact .nil
      · obtain ⟨hone, -⟩ := h x (by rw [hconcat]; simp)
        obtain ⟨partition, hpartition⟩ := length_eq_one_iff.mp hone
        rw [hpartition, flatMap_singleton, window, filter_eq_self.mpr fun y hy => (h y hy).2]
  unfold Covered
  cases hsource : b.source with
  | postgres =>
    have hpart : b.part = fun partition =>
        b.table.filter (within b.instant (partition.rangeStart, partition.rangeEnd)) := by
      funext partition
      rw [part, hsource]
    have hperm := b.tiles.filter_perm b.instant b.table
    rw [flatMap_map] at hperm
    rw [hpart, hperm.congr_left, window, Lists.filter_perm_iff]
  | mysql | mongo =>
    have hpart : b.part = fun _ => b.table := by
      funext partition
      rw [part, hsource]
    rw [hpart]
    exact hall
  | snowflake => exact absurd hsource source_ne

/-! ## What the range being read comes to -/

/-- A run that ends has an accepted configuration. -/
theorem exists_pagination_run (hends : EndsWithin (b.reader partition) maxSourcePages []) :
    ∃ pagination : Pagination G,
      b.source.pagination b.conversions (b.run partition).config (b.run partition).ingestion =
        .ok pagination := by
  obtain ⟨⟨page, more, cursor', hstep⟩, -⟩ := hends
  exact exists_pagination hstep

/-- A cursor selects all rows of the part that come after its row. -/
theorem Consistent.forward_select (h : b.Consistent)
    (hpartition : partition ∈ b.partitions) {pagination : Pagination G}
    (hpagination : b.source.pagination b.conversions (b.run partition).config
      (b.run partition).ingestion = .ok pagination) {x y : α} {value : G} (hx : x ∈ b.table)
    (hy : y ∈ pagination.rows b.engine b.table)
    (hvalue : (rowKeyset b.engine pagination).cursor x = some value)
    (hlt : b.engine.place pagination.order x < b.engine.place pagination.order y) :
    (rowKeyset b.engine pagination).select (some value) y = true := by
  show b.engine.selects (pagination.conditions (some value)) y = true
  obtain ⟨name, hname, hread⟩ := Option.bind_eq_some_iff.mp hvalue
  have hfield := Engine.field_of_read hread
  have hforward := h.forward partition hpartition pagination
  have hselected := (mem_filter.mp hy).2
  cases (DatabaseSource.accepted hpagination).2.2 with
  | @postgres column horder _ hconditions =>
    rw [horder] at hlt
    have hexceeds := hforward column name value x y hpagination horder hname hx hy hfield
      (WithBot.coe_lt_coe.mp hlt)
    rw [hconditions] at hselected ⊢
    unfold postgresConditions at hselected ⊢
    rw [Engine.selects_append, Bool.and_eq_true] at hselected ⊢
    refine ⟨?_, hselected.2⟩
    simpa [Engine.selects] using hexceeds
  | @cursor column _ horder _ hconditions =>
    rw [horder] at hlt
    rw [hconditions, Engine.selects_afterCursor]
    exact hforward column name value x y hpagination horder hname hx hy hfield
      (WithBot.coe_lt_coe.mp hlt)
  | plain _ hread' _ =>
    rw [hname] at hread'
    cases hread'

/-- **Every row that is asked for** is returned by some run. -/
theorem Consistent.exists_reads (h : b.Consistent) (hpartition : partition ∈ b.partitions)
    (hends : EndsWithin (b.reader partition) maxSourcePages []) {x : α}
    (hx : x ∈ b.part partition) :
    ∃ pages, Reads (b.reader partition) [] pages ∧ x ∈ pages.flatten := by
  obtain ⟨pagination, hpagination⟩ := exists_pagination_run hends
  rw [← rows_eq_part hpartition hpagination] at hx
  have hkeyset := (ends_iff_of_simulation (rowPages_forward hpagination)
    (rowPages_back hpagination) []).mp hends.ends
  rw [pagination.value_nil] at hkeyset
  obtain ⟨pages, hpages, hmem⟩ := Keyset.exists_reads_mem
    (fun x value y hx hy => h.forward_select hpartition hpagination hx hy) hkeyset hx hx
  refine ⟨pages, ?_, hmem⟩
  refine (reads_iff_of_simulation (rowPages_forward hpagination) (rowPages_back hpagination)
    [] pages).mpr ?_
  rwa [pagination.value_nil]

/-- **Only rows that are asked for** are returned. -/
theorem Consistent.mem_part (h : b.Consistent) (hpartition : partition ∈ b.partitions)
    (hends : EndsWithin (b.reader partition) maxSourcePages []) {pages : List (List α)}
    (hpages : Reads (b.reader partition) [] pages) : ∀ x ∈ pages.flatten, x ∈ b.part partition := by
  obtain ⟨pagination, hpagination⟩ := exists_pagination_run hends
  have hkeyset := (reads_iff_of_simulation (rowPages_forward hpagination)
    (rowPages_back hpagination) [] pages).mp hpages
  rw [pagination.value_nil] at hkeyset
  have hregular : (rowKeyset b.engine pagination).Regular b.table :=
    regular_rowKeyset (DatabaseSource.accepted hpagination).2.2 fun column name =>
      h.transitive partition hpartition pagination column name hpagination
  rw [← rows_eq_part hpartition hpagination]
  intro x hx
  obtain ⟨y, hy, rfl⟩ := Keyset.mem_all_of_reads hregular hkeyset x hx
  exact hy

/-- A run that loses nothing has separated boundaries, and few enough pages. -/
theorem Consistent.partitionRead (h : b.Consistent) (hpartition : partition ∈ b.partitions)
    (hends : EndsWithin (b.reader partition) maxSourcePages [])
    (hlossless : Lossless (b.reader partition) [] (b.part partition)) :
    b.PartitionRead partition := by
  obtain ⟨pagination, hpagination⟩ := exists_pagination_run hends
  obtain ⟨hpage, -, hshape⟩ := DatabaseSource.accepted hpagination
  rw [← rows_eq_part hpartition hpagination] at hlossless
  have hkeyset := (lossless_iff_of_simulation (rowPages_forward hpagination)
    (rowPages_back hpagination) [] _).mp hlossless
  rw [pagination.value_nil, ← map_id (pagination.rows b.engine b.table)] at hkeyset
  have hregular : (rowKeyset b.engine pagination).Regular b.table :=
    regular_rowKeyset hshape fun column name =>
      h.transitive partition hpartition pagination column name hpagination
  have hseparated := separates_rowKeyset.mp (Keyset.separates_of_lossless hregular hpage hkeyset)
  refine ⟨pagination, hpagination, hseparated, ?_⟩
  exact ((lossless_rowPages hpagination hseparated).2 maxSourcePages (by decide)).mp hends

/-! ## The range is read -/

/-- The partitions have no row in common. -/
theorem part_disjoint (b : Backfill α G K) : b.partitions.Pairwise fun partition partition' => ∀ x,
      within b.instant (partition.rangeStart, partition.rangeEnd) x = true →
        within b.instant (partition'.rangeStart, partition'.rangeEnd) x = false :=
  pairwise_map.mp b.tiles.disjoint

/-- Without bounds the runs are all the same. -/
theorem reader_eq (hsource : b.source ≠ .postgres) (partition partition' : BackfillPartition) :
    b.reader partition = b.reader partition' := by
  unfold reader
  rw [config_run, config_run]
  cases hs : b.source with
  | postgres => exact absurd hs hsource
  | mysql | mongo | snowflake => rfl

/-- Without bounds the range is covered iff one run is enough. -/
theorem covered_iff (hsource : b.source ≠ .postgres) :
    b.Covered ↔ ∀ x ∈ b.table, b.partitions.length = 1 ∧
      within b.instant (b.plan.rangeStart, b.plan.rangeEnd) x = true := by
  unfold Covered
  cases hs : b.source with
  | postgres => exact absurd hs hsource
  | mysql | mongo | snowflake => exact Iff.rfl

/-- Without bounds every run asks for all rows. -/
theorem part_eq_table (hsource : b.source ≠ .postgres) (partition : BackfillPartition) :
    b.part partition = b.table := by
  unfold part
  cases hs : b.source with
  | postgres => exact absurd hs hsource
  | mysql | mongo | snowflake => rfl

/-- Without bounds a second run returns a row again. -/
theorem Consistent.length_eq_one (h : b.Consistent) (hsource : b.source ≠ .postgres)
    (hnodup : b.table.Nodup) (hreads : b.ReadsWindow) {x : α} (hx : x ∈ b.table) :
    b.partitions.length = 1 := by
  match hpartitions : b.partitions with
  | [] => exact absurd hpartitions (backfillCreate_ne_nil b.accepted)
  | [partition] => rfl
  | first :: second :: rest =>
    exfalso
    have hfirst : first ∈ b.partitions := by rw [hpartitions]; exact mem_cons_self
    obtain ⟨pages, hpages, hmem⟩ := h.exists_reads hfirst (hreads.ends first hfirst)
      ((part_eq_table hsource first).symm ▸ hx)
    have hrest : ∀ partition ∈ rest, EndsWithin (b.reader partition) maxSourcePages [] := by
      intro partition hpartition
      apply hreads.ends
      rw [hpartitions]
      exact mem_cons_of_mem _ (mem_cons_of_mem _ hpartition)
    obtain ⟨outcomes, houtcomes⟩ := exists_outcomes hrest
    have hsecond : Reads (b.reader second) [] pages := reader_eq hsource first second ▸ hpages
    have hperm := hreads.complete (pages :: pages :: outcomes)
      (hpartitions ▸ .cons hpages (.cons hsecond houtcomes))
    have hdistinct := hperm.nodup_iff.mpr (hnodup.filter _)
    rw [flatMap_cons, flatMap_cons, nodup_append] at hdistinct
    exact hdistinct.2.2 x hmem x (mem_append_left _ hmem) rfl

/-- **The range being read**, what the runs ask for is the range. -/
theorem Consistent.covered (h : b.Consistent) (hrows : b.source = .postgres ∨ b.table.Nodup)
    (hreads : b.ReadsWindow) : b.Covered := by
  have hpart : ∀ partition ∈ b.partitions, ∀ x ∈ b.part partition, x ∈ b.window := by
    intro partition hpartition x hx
    obtain ⟨pages, hpages, hmem⟩ := h.exists_reads hpartition (hreads.ends partition hpartition) hx
    exact hreads.mem hpartition hpages hmem
  by_cases hsource : b.source = .postgres
  · unfold Covered
    rw [hsource]
    intro x hx
    have hstored : within b.instant (b.times.timestamptz b.plan.rangeStart,
        b.times.timestamptz b.plan.rangeEnd) x = true ↔
          ∃ partition ∈ b.partitions, x ∈ b.part partition := by
      have hmem := (b.tiles.filter_perm b.instant b.table).mem_iff (a := x)
      rw [mem_filter, and_iff_right hx, flatMap_map, mem_flatMap] at hmem
      rw [← hmem]
      unfold part
      rw [hsource]
    rw [Bool.eq_iff_iff, hstored]
    constructor
    · rintro ⟨partition, hpartition, hmem⟩
      exact (mem_filter.mp (hpart partition hpartition x hmem)).2
    · intro hwithin
      obtain ⟨partition, hpartition, pages, hpages, hmem⟩ :=
        hreads.exists_reads (mem_filter.mpr ⟨hx, hwithin⟩)
      exact ⟨partition, hpartition,
        h.mem_part hpartition (hreads.ends partition hpartition) hpages x hmem⟩
  · rw [covered_iff hsource]
    intro x hx
    have hone := h.length_eq_one hsource (hrows.resolve_left hsource) hreads hx
    obtain ⟨partition, hpartitions⟩ := length_eq_one_iff.mp hone
    have hpartition : partition ∈ b.partitions := by
      rw [hpartitions]
      exact mem_cons_self
    refine ⟨hone, (mem_filter.mp (hpart partition hpartition x ?_)).2⟩
    rw [part_eq_table hsource]
    exact hx

/-- **The range being read**, the runs lose nothing of what they ask for. -/
theorem Consistent.allRead (h : b.Consistent) (hreads : b.ReadsWindow) (hcovered : b.Covered) :
    b.AllRead := by
  have hparts : LosslessTogether b.reader b.partitions maxSourcePages []
      (b.partitions.flatMap b.part) :=
    ⟨hreads.ends, fun outcomes houtcomes =>
      (hreads.complete outcomes houtcomes).trans (b.parts_perm_iff.mpr hcovered).symm⟩
  have hlossless :
      ∀ partition ∈ b.partitions, Lossless (b.reader partition) [] (b.part partition) := by
    by_cases hsource : b.source = .postgres
    · have hpart : ∀ partition, ∀ x ∈ b.part partition,
          within b.instant (partition.rangeStart, partition.rangeEnd) x = true := by
        intro partition x hx
        unfold part at hx
        rw [hsource] at hx
        exact (mem_filter.mp hx).2
      refine hparts.each _ b.part_disjoint ?_ fun partition _ => hpart partition
      intro partition hpartition pages hpages x hx
      exact hpart partition x
        (h.mem_part hpartition (hreads.ends partition hpartition) hpages x hx)
    · rw [covered_iff hsource] at hcovered
      have hmem : ∀ partition ∈ b.partitions, ∀ pages, Reads (b.reader partition) [] pages →
          ∀ x ∈ pages.flatten, x ∈ b.table := by
        intro partition hpartition pages hpages x hx
        rw [← part_eq_table hsource partition]
        exact h.mem_part hpartition (hreads.ends partition hpartition) hpages x hx
      rcases b.table.eq_nil_or_concat with hempty | ⟨rows, x, hconcat⟩
      · -- nothing is anybody's own
        refine hparts.each (fun _ _ => false) ?_ ?_ ?_
        · exact pairwise_of_forall fun _ _ _ _ => rfl
        · intro partition hpartition pages hpages x hx
          have hx := hmem partition hpartition pages hpages x hx
          simp [hempty] at hx
        · intro partition _ x hx
          simp [part_eq_table hsource, hempty] at hx
      · -- everything belongs to the one partition
        obtain ⟨hone, -⟩ := hcovered x (by rw [hconcat]; simp)
        obtain ⟨partition, hpartitions⟩ := length_eq_one_iff.mp hone
        refine hparts.each (fun _ _ => true) ?_ (fun _ _ _ _ _ _ => rfl) fun _ _ _ _ => rfl
        rw [hpartitions]
        exact pairwise_singleton _ _
  exact fun partition hpartition =>
    h.partitionRead hpartition (hreads.ends partition hpartition) (hlossless partition hpartition)

/-- When nothing that is asked for is lost, the range is read iff it is covered. -/
theorem AllRead.readsWindow_iff_covered (h : b.AllRead) : b.ReadsWindow ↔ b.Covered := by
  rw [← parts_perm_iff]
  exact losslessTogether_iff (fun i hi => (PartitionRead.lossless hi (h i hi)).1)
    fun i hi => (PartitionRead.lossless hi (h i hi)).2

/-- **The range is read iff the runs lose nothing of what they ask for, and what they ask for is the
range.** An accepted backfill over PostgreSQL, MySQL or MongoDB, and a table that does not change. When
nothing that is asked for is lost, covering the range decides. In a database that compares values as
it orders them, and tells rows apart where it is asked for all of them, losing something that is asked
for is not made up for, either.

Source: `backfills.go` `planBackfill`, `dispatchBackfills`, `databases.go` -/
theorem readsWindow_iff (b : Backfill α G K) : (b.AllRead → (b.ReadsWindow ↔ b.Covered)) ∧
    (b.Consistent → (b.source = .postgres ∨ b.table.Nodup) →
      (b.ReadsWindow ↔ b.AllRead ∧ b.Covered)) := by
  refine ⟨AllRead.readsWindow_iff_covered, fun hconsistent hrows => ⟨fun hreads => ?_, fun h => ?_⟩⟩
  · have hcovered := hconsistent.covered hrows hreads
    exact ⟨hconsistent.allRead hreads hcovered, hcovered⟩
  · exact h.1.readsWindow_iff_covered.mpr h.2

/-- Parts of one row are read. -/
theorem allRead_of_length
    (h : ∀ partition ∈ b.partitions, (b.source.pagination (G := G) b.conversions
        (b.run partition).config (b.run partition).ingestion).isOk = true ∧
      (b.part partition).length ≤ 1) : b.AllRead := by
  intro partition hpartition
  obtain ⟨hok, hlength⟩ := h partition hpartition
  cases hpagination : b.source.pagination (G := G) b.conversions (b.run partition).config
      (b.run partition).ingestion with
  | error err =>
    rw [hpagination] at hok
    cases hok
  | ok pagination =>
    rw [← rows_eq_part hpartition hpagination] at hlength
    refine ⟨pagination, hpagination, ?_, ?_⟩
    · intro before row after hperm _ hafter _
      have hlen := hperm.length_eq
      have hpos := length_pos_iff.mpr hafter
      rw [length_append, length_cons] at hlen
      omega
    · have hpage := (DatabaseSource.accepted hpagination).1
      exact hlength.trans (Nat.mul_pos (by decide) hpage)

end Backfill

/-! ## Orders of two days -/

/-- The first and the second of January 2024, and the third. -/
def exampleDays : List (String × ℤ) :=
  [("2024-01-01T00:00:00Z", 1704067200000000000), ("2024-01-02T00:00:00Z", 1704153600000000000),
    ("2024-01-03T00:00:00Z", 1704240000000000000)]

/-- Times at the beginning of these days. -/
def exampleTimes : Times where
  parse text := (exampleDays.lookup text).map fun instant => ⟨instant, "UTC"⟩
  addDays time days := { time with instant := time.instant + days * 86400000000000 }
  format t := ((exampleDays.find? fun day => day.2 = t).map Prod.fst).getD ""
  timestamptz t := (t + 500) / 1000 * 1000

/-- Orders with an id and an instant. -/
def exampleEngine : Engine (ℕ × ℤ) ℤ ℤ where
  rank _ order := order.2
  exceeds _ value order := value < order.2
  atLeast _ text order := (exampleDays.lookup text).any (· ≤ order.2)
  below _ text order := (exampleDays.lookup text).any (order.2 < ·)
  field order _ := some order.2

/-- The database reads the beginnings of these days as instants. -/
theorem readsInstant_exampleEngine (column : String) {t : ℤ} (ht : t ∈ exampleDays.map Prod.snd) :
    ReadsInstant exampleEngine column (exampleTimes.format t) (fun order => some order.2) t := by
  have hlookup : exampleTimes.format t ≠ "" ∧
      exampleDays.lookup (exampleTimes.format t) = some t := by
    have hall : ∀ t ∈ exampleDays.map Prod.snd, exampleTimes.format t ≠ "" ∧
        exampleDays.lookup (exampleTimes.format t) = some t := by decide +kernel
    exact hall t ht
  refine ⟨hlookup.1, fun order => ?_, fun order => ?_⟩
  · show ((exampleDays.lookup (exampleTimes.format t)).any fun t => decide (t ≤ order.2)) = true ↔ _
    rw [hlookup.2]
    simp
  · show ((exampleDays.lookup (exampleTimes.format t)).any fun t => decide (order.2 < t)) = true ↔ _
    rw [hlookup.2]
    simp

/-- A source node for the orders. -/
def exampleNode (source : DatabaseSource) : Node where
  id := "orders"
  type := .source
  activityType := source.activityType
  config := [("syncMode", .string "cursor"), ("cursorType", .string "date"),
    ("table", .string "orders"), ("cursorColumn", .string "created")]

/-- A backfill of two days. -/
def exampleBody : JsonMap :=
  [("from", .string "2024-01-01T00:00:00Z"), ("to", .string "2024-01-03T00:00:00Z")]

/-- Its plan. -/
def examplePlan : BackfillPlan where
  rangeStart := 1704067200000000000
  rangeEnd := 1704240000000000000
  partitionDays := 1
  maxConcurrency := 1
  partitions := [(1704067200000000000, 1704153600000000000),
    (1704153600000000000, 1704240000000000000)]

/-- Its partitions. -/
def examplePartitions : List BackfillPartition :=
  [⟨"0", 1704067200000000000, 1704153600000000000⟩, ⟨"1", 1704153600000000000, 1704240000000000000⟩]

/-- The backfill of a table of orders. -/
def exampleBackfill (source : DatabaseSource) (table : List (ℕ × ℤ))
    (accepted : backfillCreate exampleTimes exampleConversions.toFormatting 10000 toString
      { nodes := [exampleNode source] } exampleBody = .ok (examplePlan, examplePartitions)) :
    Backfill (ℕ × ℤ) ℤ ℤ where
  times := exampleTimes
  conversions := exampleConversions
  maxBackfillPartitions := 10000
  ids := toString
  definition := { nodes := [exampleNode source] }
  body := exampleBody
  plan := examplePlan
  partitions := examplePartitions
  node := exampleNode source
  source := source
  engine := exampleEngine
  table := table
  instant order := some order.2
  accepted := accepted
  mem := mem_cons_self
  isSource := rfl
  activity := rfl
  dated partition hpartition _ column _ _ t ht := by
    apply readsInstant_exampleEngine
    have hall : ∀ partition ∈ examplePartitions, ∀ t ∈ [partition.rangeStart, partition.rangeEnd],
        t ∈ exampleDays.map Prod.snd := by decide
    exact hall partition hpartition t ht

/-- An order of each day, in PostgreSQL. -/
def examplePostgres : Backfill (ℕ × ℤ) ℤ ℤ :=
  exampleBackfill .postgres [(1, 1704067200000000000), (2, 1704153600000000000)] (by decide +kernel)

/-- An order of the first day, in MySQL. -/
def exampleMysql : Backfill (ℕ × ℤ) ℤ ℤ :=
  exampleBackfill .mysql [(1, 1704067200000000000)] (by decide +kernel)

theorem allRead_examplePostgres : examplePostgres.AllRead :=
  Backfill.allRead_of_length (by decide +kernel)

theorem allRead_exampleMysql : exampleMysql.AllRead :=
  Backfill.allRead_of_length (by decide +kernel)

/-- In PostgreSQL the orders of the two days are read. -/
theorem readsWindow_iff_two_days : examplePostgres.ReadsWindow := by
  refine ((Backfill.readsWindow_iff examplePostgres).1 allRead_examplePostgres).mpr ?_
  have hstored : ∀ x ∈ examplePostgres.table,
      within examplePostgres.instant (examplePostgres.times.timestamptz examplePostgres.plan.rangeStart,
          examplePostgres.times.timestamptz examplePostgres.plan.rangeEnd) x =
        within examplePostgres.instant
          (examplePostgres.plan.rangeStart, examplePostgres.plan.rangeEnd) x := by decide +kernel
  exact hstored

/-- In MySQL the order of the first day is read once for each day. -/
theorem range_read_twice : ¬ exampleMysql.ReadsWindow := by
  intro h
  have hcovered := allRead_exampleMysql.readsWindow_iff_covered.mp h
  rw [Backfill.covered_iff (by decide)] at hcovered
  obtain ⟨hone, -⟩ := hcovered (1, 1704067200000000000) mem_cons_self
  exact absurd hone (by decide)

end Dataflow.Api.BackfillReads
