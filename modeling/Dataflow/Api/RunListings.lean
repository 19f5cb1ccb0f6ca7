import Dataflow.Api.ExecutionList
import Dataflow.Api.PipelineValidation
import Dataflow.Connectors.Values

/-!
# The lists of pipelines and of runs

`GET /api/pipelines` lists the versions of the pipelines, `GET /api/lineage/runtime/runs` the
executions that started in a window of time. Both ask for one row more than the page has.

* `pipelineList`: the list of pipelines.
* `parseRuntimeWindow`, `parseRuntimeFilters`, `runtimeLineageRuns`: the list of runs. A bound of
  the window that the request does not give is counted from the time of the request.
* `pipelinePages`, `runPages`: the lists as readers of pages; a reader of runs may wait between two
  requests, up to a time.
* `SteadyWindow`: the window selects the same rows at every later time.
* `listings_list_all`: both lists are complete, that of the runs with a steady window.

Source: `routes_pipelines.go`, `routes_lineage_runtime.go`
-/

set_option linter.unusedSectionVars false

namespace Dataflow.Api

open Connectors Library Library.Paging

/-! ## The list of pipelines -/

/-- The last run of a pipeline, as the lateral join finds it. -/
structure LastRun where
  phase : String
  startedAt : ℤ
  id : String

/-- A row of `pipelines` without its definition; `triggerType` is read out of it. -/
structure PipelineSummary (Id : Type) where
  id : Id
  pipelineKey : String := ""
  version : ℤ := 0
  name : String := ""
  status : String := ""
  environment : String := ""
  promotedFromVersion : Option ℤ := none
  createdAt : ℤ
  triggerType : Option String := none
  lastRun : Option LastRun := none

/-- The pipelines of a tenant; an id is there once, as it is the primary key. -/
structure PipelineTable (Id : Type) where
  rows : List (PipelineSummary Id)
  nodup : (rows.map PipelineSummary.id).Nodup

/-- The parameters of a request; a parameter that is absent is empty. -/
structure PipelineQuery where
  search : String := ""
  stage : String := ""
  trigger : String := ""
  limit : String := ""
  cursor : String := ""

/-- `ORDER BY p.created_at DESC,p.id DESC`. -/
def pipelineKey {Id : Type} (row : PipelineSummary Id) : ListKey Id := toLex (row.createdAt, row.id)

/-- The rows of a stage; any other word is no condition. -/
def stageMatches {Id : Type} (stage : String) (row : PipelineSummary Id) : Bool :=
  match stage with
  | "production" => row.status = "active" && row.environment = "prod"
  | "testing" => row.status = "active" && row.environment = "test"
  | "draft" => !(row.status = "active" && (row.environment = "prod" || row.environment = "test"))
  | _ => true

section pipelines

variable {Id : Type} [LinearOrder Id] (texts : CursorTexts Id) (ilike : String → String → Bool)
  (maxPipelineListPageSize : ℤ)

/-- The conditions on the rows, without that of the cursor; `ilike name search` is
`name ILIKE '%'||search||'%'`. -/
def pipelineWhere (query : PipelineQuery) (row : PipelineSummary Id) : Bool :=
  (trimSpace query.search = "" || ilike row.name (trimSpace query.search)) &&
    stageMatches query.stage row &&
    (query.trigger = "" || row.triggerType = some query.trigger)

/-- The limit of a request. -/
def pipelineLimit (query : PipelineQuery) : ℕ :=
  pageLimit query.limit 50
    (if maxPipelineListPageSize ≤ 0 ∨ 200 < maxPipelineListPageSize then 200
      else maxPipelineListPageSize)

/-- Source: `routes_pipelines.go` `pipelineList`. -/
def pipelineList (table : PipelineTable Id) (query : PipelineQuery) :
    Except ListError (ListReply (PipelineSummary Id)) := do
  let limit := pipelineLimit maxPipelineListPageSize query
  let c ← cursorKey texts "createdAt" "pipeline" query.cursor
  return pageReply texts "createdAt" pipelineKey limit
    (selectRows pipelineKey table.rows (pipelineWhere ilike query) c (limit + 1))

/-- The list of pipelines as a reader of pages. -/
def pipelinePages (table : PipelineTable Id) (query : PipelineQuery) :
    PageStep (Option String) (PipelineSummary Id) :=
  pages fun cursor =>
    pipelineList texts ilike maxPipelineListPageSize table { query with cursor := cursor }

variable {texts ilike maxPipelineListPageSize}

theorem pipelineLimit_pos (query : PipelineQuery) :
    0 < pipelineLimit maxPipelineListPageSize query := by
  apply pageLimit_pos
  · decide
  · split_ifs with h <;> omega

/-- **The list of pipelines is complete**: every row that matches, once, newest first. -/
theorem pipelineList_lists (table : PipelineTable Id) (query : PipelineQuery) :
    Lists pipelineKey (pipelinePages texts ilike maxPipelineListPageSize table query) none
      (table.rows.filter (pipelineWhere ilike query)) := by
  have hkeys : (table.rows.map pipelineKey).Nodup := by
    have hids := table.nodup
    rw [List.Nodup, List.pairwise_map] at hids ⊢
    refine hids.imp fun {x y} hne heq => hne ?_
    exact congrArg (fun k => (ofLex k).2) heq
  have hhandler : ∀ cursor, pipelineList texts ilike maxPipelineListPageSize table
      { query with cursor := cursor } =
      (cursorKey texts "createdAt" "pipeline" cursor).map fun c =>
        pageReply texts "createdAt" pipelineKey (pipelineLimit maxPipelineListPageSize query)
          (selectRows pipelineKey table.rows (pipelineWhere ilike query) c
            (pipelineLimit maxPipelineListPageSize query + 1)) := by
    intro cursor
    rw [pipelineList]
    cases cursorKey texts "createdAt" "pipeline" cursor <;> rfl
  exact lists_pages (pipelineLimit_pos query) hkeys hhandler

end pipelines

/-! ## The list of runs -/

/-- `7 * 24 * time.Hour`, in nanoseconds. -/
def maxRuntimeWindow : ℤ := 604800000000000

/-- A minute, in nanoseconds. -/
def minute : ℤ := 60000000000

/-- The parameters of a request; a parameter that is absent is empty. -/
structure RunQuery where
  windowFrom : String := ""
  windowTo : String := ""
  environment : String := ""
  status : String := ""
  layer : String := ""
  pipeline : String := ""
  query : String := ""
  limit : String := ""
  cursor : String := ""

/-- Source: `routes_lineage_runtime.go` `runtimeFilters`; times are nanoseconds since 1970. -/
structure RuntimeFilters where
  windowFrom : ℤ
  windowTo : ℤ
  environment : String
  pipelineKey : String
  status : String
  layer : String

/-- The reply: the window, as `time.RFC3339` prints it, the rows, and the next cursor. -/
structure RunReply (Row : Type) where
  windowFrom : String
  windowTo : String
  items : List Row
  nextCursor : Option String

/-- The executions of a tenant, and the ids and keys of its pipelines. -/
structure RunTable (Id : Type) extends ExecutionTable Id where
  pipelines : List (String × String) := []

/-- `CursorTexts` with `time.Parse` and `Format` for the layout `time.RFC3339`. -/
structure RunTexts (Id : Type) extends CursorTexts Id where
  parseRfc3339 : String → Option ℤ
  formatRfc3339 : ℤ → String

section runs

variable {Id : Type} [LinearOrder Id] (texts : RunTexts Id) (now : ℤ)

/-- A bound of the window: the one that the request gives, or the default. -/
def windowBound (value : String) (fallback : ℤ) (message : String) : Except ListError ℤ :=
  if value = "" then .ok fallback
  else match texts.parseRfc3339 value with
    | some time => .ok time
    | none => .error (.badRequest message)

/-- Source: `routes_lineage_runtime.go` `parseRuntimeWindow`; a request reads the clock once. -/
def parseRuntimeWindow (query : RunQuery) : Except ListError (ℤ × ℤ) := do
  let windowTo ← windowBound texts query.windowTo now "to must be an RFC3339 UTC timestamp"
  let windowFrom ← windowBound texts query.windowFrom (windowTo - 60 * minute)
    "from must be an RFC3339 UTC timestamp"
  if windowTo ≤ windowFrom then .error (.badRequest "from must be before to")
  else if maxRuntimeWindow < windowTo - windowFrom then
    .error (.badRequest "time range cannot exceed 7 days")
  else if windowFrom < now - maxRuntimeWindow - minute then
    .error (.badRequest "time range must fall within the last 7 days")
  else .ok (windowFrom, windowTo)

/-- The key of the pipeline that the request names by its id or its key. -/
def resolvePipeline (pipelines : List (String × String)) (pipeline : String) :
    Except ListError String :=
  if pipeline = "" then .ok ""
  else match pipelines.find? fun (id, key) => id = pipeline || key = pipeline with
    | some (_, key) => .ok key
    | none => .error (.notFound "pipeline not found")

/-- Source: `routes_lineage_runtime.go` `parseRuntimeFilters`. -/
def parseRuntimeFilters (pipelines : List (String × String)) (query : RunQuery) :
    Except ListError RuntimeFilters := do
  let (windowFrom, windowTo) ← parseRuntimeWindow texts now query
  if query.environment ∉ ["", "test", "prod"] then
    .error (.badRequest "environment must be test or prod")
  else if query.status ∉ ["", "running", "completed", "failed", "cancelled"] then
    .error (.badRequest "status must be running, completed, failed, or cancelled")
  else if query.layer ∉ ["", "external", "bronze", "silver", "gold"] then
    .error (.badRequest "layer must be external, bronze, silver, or gold")
  else do
    let key ← resolvePipeline pipelines query.pipeline
    return { windowFrom := windowFrom, windowTo := windowTo, environment := query.environment
             pipelineKey := key, status := query.status, layer := query.layer }

/-- The window of the filters, which the database compares to the microsecond. -/
def inWindow (filters : RuntimeFilters) (row : ListedExecution Id) : Bool :=
  filters.windowFrom / 1000 ≤ row.startedAt && row.startedAt < filters.windowTo / 1000

/-- The conditions that do not depend on the window. -/
def steadyWhere (filters : RuntimeFilters) (query : RunQuery) (row : ListedExecution Id) : Bool :=
  (filters.environment = "" || row.environment = filters.environment) &&
    (filters.pipelineKey = "" || row.pipelineKey = filters.pipelineKey) &&
    (filters.status = "" || row.phase = filters.status) &&
    (filters.layer = "" || filters.layer ∈ row.layers) &&
    (trimSpace query.query = "" || texts.idText row.id = trimSpace query.query ||
      row.runId = some (trimSpace query.query) || row.traceId = some (trimSpace query.query))

/-- The conditions on the rows, without that of the cursor. -/
def executionWhereRuntime (filters : RuntimeFilters) (query : RunQuery) (row : ListedExecution Id) :
    Bool :=
  inWindow filters row && steadyWhere texts filters query row

/-- The limit of a request. -/
def runLimit (query : RunQuery) : ℕ := pageLimit query.limit 50 100

/-- Source: `routes_lineage_runtime.go` `runtimeLineageRuns`. -/
def runtimeLineageRuns (table : RunTable Id) (query : RunQuery) :
    Except ListError (RunReply (ListedExecution Id)) := do
  let filters ← parseRuntimeFilters texts now table.pipelines query
  let limit := runLimit query
  let c ← cursorKey texts.toCursorTexts "startedAt" "runs" query.cursor
  let reply := pageReply texts.toCursorTexts "startedAt" executionKey limit
    (selectRows executionKey table.rows (executionWhereRuntime texts filters query) c (limit + 1))
  return { windowFrom := texts.formatRfc3339 filters.windowFrom
           windowTo := texts.formatRfc3339 filters.windowTo
           items := reply.rows, nextCursor := reply.nextCursor }

/-- The list of runs as a reader of pages, which goes on with the cursor of the last reply at any
later time up to the deadline. -/
def runPages (table : RunTable Id) (query : RunQuery) (deadline : ℤ) :
    PageStep (Option String × ℤ) (ListedExecution Id) :=
  fun (c, time) page more (c', time') => time ≤ time' ∧ time' ≤ deadline ∧ ∃ reply,
    runtimeLineageRuns texts time' table { query with cursor := c.getD "" } = .ok reply ∧
      page = reply.items ∧ more = reply.nextCursor.isSome ∧ c' = reply.nextCursor

end runs

/-! ## A steady window -/

section steady

variable {Id : Type} [LinearOrder Id] {texts : RunTexts Id} {now start deadline : ℤ}
  {table : RunTable Id} {query : RunQuery} {filters : RuntimeFilters}

/-- The window of an accepted request. -/
theorem parseRuntimeWindow_eq_ok {bounds : ℤ × ℤ} :
    parseRuntimeWindow texts now query = .ok bounds ↔
      windowBound texts query.windowTo now "to must be an RFC3339 UTC timestamp" = .ok bounds.2 ∧
      windowBound texts query.windowFrom (bounds.2 - 60 * minute)
        "from must be an RFC3339 UTC timestamp" = .ok bounds.1 ∧
      bounds.1 < bounds.2 ∧ bounds.2 - bounds.1 ≤ maxRuntimeWindow ∧
      now - maxRuntimeWindow - minute ≤ bounds.1 := by
  rw [parseRuntimeWindow, bind_eq_ok]
  constructor
  · rintro ⟨windowTo, hto, h⟩
    obtain ⟨windowFrom, hfrom, h⟩ := bind_eq_ok.mp h
    split_ifs at h with horder hlong hold
    cases h
    exact ⟨hto, hfrom, not_le.mp horder, not_lt.mp hlong, not_lt.mp hold⟩
  · rintro ⟨hto, hfrom, horder, hlong, hold⟩
    refine ⟨bounds.2, hto, bind_eq_ok.mpr ⟨bounds.1, hfrom, ?_⟩⟩
    rw [if_neg (not_le.mpr horder), if_neg (not_lt.mpr hlong), if_neg (not_lt.mpr hold)]

/-- The filters of an accepted request. -/
theorem parseRuntimeFilters_eq_ok {pipelines : List (String × String)} :
    parseRuntimeFilters texts now pipelines query = .ok filters ↔
      parseRuntimeWindow texts now query = .ok (filters.windowFrom, filters.windowTo) ∧
      query.environment ∈ ["", "test", "prod"] ∧
      query.status ∈ ["", "running", "completed", "failed", "cancelled"] ∧
      query.layer ∈ ["", "external", "bronze", "silver", "gold"] ∧
      resolvePipeline pipelines query.pipeline = .ok filters.pipelineKey ∧
      filters.environment = query.environment ∧ filters.status = query.status ∧
      filters.layer = query.layer := by
  rw [parseRuntimeFilters, bind_eq_ok]
  constructor
  · rintro ⟨⟨windowFrom, windowTo⟩, hwindow, h⟩
    dsimp only at h
    split_ifs at h with henvironment hstatus hlayer
    obtain ⟨key, hkey, h⟩ := bind_eq_ok.mp h
    cases h
    exact ⟨hwindow, henvironment, hstatus, hlayer, hkey, rfl, rfl, rfl⟩
  · rintro ⟨hwindow, henvironment, hstatus, hlayer, hkey, h₁, h₂, h₃⟩
    refine ⟨_, hwindow, ?_⟩
    dsimp only
    rw [if_neg (not_not.mpr henvironment), if_neg (not_not.mpr hstatus),
      if_neg (not_not.mpr hlayer), bind_eq_ok]
    refine ⟨_, hkey, ?_⟩
    rw [← h₁, ← h₂, ← h₃]
    rfl

/-- From the start on, the window selects the same rows: its end is given, or its beginning is and
no execution starts later. -/
def SteadyWindow (table : RunTable Id) (query : RunQuery) (start : ℤ) : Prop :=
  query.windowTo ≠ "" ∨ query.windowFrom ≠ "" ∧ ∀ row ∈ table.rows, row.startedAt < start / 1000

/-- A bound that is given does not depend on the time. -/
theorem windowBound_of_ne {value message : String} (h : value ≠ "") (fallback fallback' : ℤ) :
    windowBound texts value fallback message = windowBound texts value fallback' message := by
  rw [windowBound, windowBound, if_neg h, if_neg h]

variable {last : RuntimeFilters}

/-- **A steady window**: a request between the start and the deadline is accepted, when one at the
start and one at the deadline are, and it selects the same rows as at the start. -/
theorem filters_of_steady (hsteady : SteadyWindow table query start)
    (hstart : parseRuntimeFilters texts start table.pipelines query = .ok filters)
    (hdeadline : parseRuntimeFilters texts deadline table.pipelines query = .ok last)
    (hnow : start ≤ now) (hbefore : now ≤ deadline) :
    ∃ current, parseRuntimeFilters texts now table.pipelines query = .ok current ∧
      ∀ row ∈ table.rows, executionWhereRuntime texts current query row =
        executionWhereRuntime texts filters query row := by
  obtain ⟨hwindow, hrest⟩ := parseRuntimeFilters_eq_ok.mp hstart
  obtain ⟨hlast, -⟩ := parseRuntimeFilters_eq_ok.mp hdeadline
  obtain ⟨hto, hfrom, horder, hlong, -⟩ := parseRuntimeWindow_eq_ok.mp hwindow
  obtain ⟨hlastTo, hlastFrom, -, hlastLong, hlastOld⟩ := parseRuntimeWindow_eq_ok.mp hlast
  dsimp only at hto hfrom horder hlong hlastTo hlastFrom hlastLong hlastOld
  by_cases hgiven : query.windowTo = ""
  · -- the window grows with the time, by nothing that is there
    obtain ⟨hgivenFrom, hrows⟩ := hsteady.resolve_left fun h => h hgiven
    have htoNow : ∀ time, windowBound texts query.windowTo time
        "to must be an RFC3339 UTC timestamp" = .ok time := by
      intro time
      rw [windowBound, if_pos hgiven]
    rw [htoNow] at hto hlastTo
    obtain rfl := Except.ok.inj hto
    have hdeadlineTo : last.windowTo = deadline := (Except.ok.inj hlastTo).symm
    rw [windowBound_of_ne hgivenFrom _ 0] at hfrom hlastFrom
    rw [hfrom] at hlastFrom
    have hlastFrom' : last.windowFrom = filters.windowFrom := (Except.ok.inj hlastFrom).symm
    refine ⟨{ filters with windowTo := now }, ?_, ?_⟩
    · rw [parseRuntimeFilters_eq_ok]
      refine ⟨parseRuntimeWindow_eq_ok.mpr ⟨htoNow now, ?_, ?_, ?_, ?_⟩, hrest⟩
      · rw [windowBound_of_ne hgivenFrom _ 0]
        exact hfrom
      · dsimp only
        omega
      · dsimp only
        omega
      · dsimp only
        omega
    · intro row hrow
      have hstarted := hrows row hrow
      have hthen : decide (row.startedAt < filters.windowTo / 1000) = true :=
        decide_eq_true hstarted
      have hnow' : decide (row.startedAt < now / 1000) = true := by
        apply decide_eq_true
        omega
      rw [executionWhereRuntime, executionWhereRuntime, inWindow, inWindow, hthen, hnow']
      rfl
  · -- the window does not depend on the time
    rw [windowBound_of_ne hgiven _ 0] at hto hlastTo
    rw [hto] at hlastTo
    have hlastTo' : last.windowTo = filters.windowTo := (Except.ok.inj hlastTo).symm
    rw [hlastTo', hfrom] at hlastFrom
    have hlastFrom' : last.windowFrom = filters.windowFrom := (Except.ok.inj hlastFrom).symm
    refine ⟨filters, ?_, fun _ _ => rfl⟩
    rw [parseRuntimeFilters_eq_ok]
    refine ⟨parseRuntimeWindow_eq_ok.mpr ⟨?_, hfrom, horder, hlong, ?_⟩, hrest⟩
    · rw [windowBound_of_ne hgiven _ 0]
      exact hto
    · omega

/-- What a request with a steady window answers. -/
theorem runtimeLineageRuns_eq (hsteady : SteadyWindow table query start)
    (hstart : parseRuntimeFilters texts start table.pipelines query = .ok filters)
    (hdeadline : parseRuntimeFilters texts deadline table.pipelines query = .ok last)
    (hnow : start ≤ now) (hbefore : now ≤ deadline) {cursor : String} {k : Option (ListKey Id)}
    (hk : cursorKey texts.toCursorTexts "startedAt" "runs" cursor = .ok k) :
    ∃ reply, runtimeLineageRuns texts now table { query with cursor := cursor } = .ok reply ∧
      ({ rows := reply.items, nextCursor := reply.nextCursor } : ListReply (ListedExecution Id)) =
        pageReply texts.toCursorTexts "startedAt" executionKey (runLimit query)
          (selectRows executionKey table.rows (executionWhereRuntime texts filters query) k
            (runLimit query + 1)) := by
  obtain ⟨current, hcurrent, hrows⟩ := filters_of_steady hsteady hstart hdeadline hnow hbefore
  have hsame : table.rows.filter (executionWhereRuntime texts current query) =
      table.rows.filter (executionWhereRuntime texts filters query) := List.filter_congr hrows
  have hcurrent' : parseRuntimeFilters texts now table.pipelines { query with cursor := cursor } =
      .ok current := hcurrent
  rw [runtimeLineageRuns, hcurrent']
  rw [hk]
  have hselect : ∀ limit,
      selectRows executionKey table.rows (executionWhereRuntime texts filters query) k limit =
        selectRows executionKey table.rows (executionWhereRuntime texts current query) k limit := by
    intro limit
    rw [selectRows, selectRows, hsame]
  refine ⟨_, rfl, ?_⟩
  rw [hselect]
  rfl

/-- **The list of runs is complete** with a steady window, up to the time when the window is too
old: every row that matches at the start, once, newest first. -/
theorem runtimeLineageRuns_lists (hsteady : SteadyWindow table query start)
    (hstart : parseRuntimeFilters texts start table.pipelines query = .ok filters)
    (hdeadline : parseRuntimeFilters texts deadline table.pipelines query = .ok last)
    (hbefore : start ≤ deadline) :
    Lists executionKey (runPages texts table query deadline) (none, start)
      (table.rows.filter (executionWhereRuntime texts filters query)) := by
  have hlimit : 0 < runLimit query := pageLimit_pos _ (by decide) (by decide)
  have hmatching : ((table.rows.filter (executionWhereRuntime texts filters query)).map
      executionKey).Nodup := (nodup_executionKey _).sublist (List.filter_sublist.map _)
  refine Lists.of_simulation (R := fun c k => start ≤ c.2 ∧ c.2 ≤ deadline ∧
    cursorKey texts.toCursorTexts "startedAt" "runs" (c.1.getD "") = .ok k) ?_ ?_
    ⟨le_refl _, hbefore, rfl⟩ (lists_listing hlimit hmatching)
  · rintro ⟨c, time⟩ k ⟨hlate, hearly, hk⟩
    obtain ⟨reply, hreply, -⟩ := runtimeLineageRuns_eq hsteady hstart hdeadline hlate hearly hk
    exact ⟨_, _, (_, time), le_refl _, hearly, reply, hreply, rfl, rfl, rfl⟩
  · rintro ⟨c, time⟩ k page more ⟨c', time'⟩ ⟨hlate, -, hk⟩
      ⟨hnext, hearly, reply, hreply, rfl, rfl, rfl⟩
    have hlate' : start ≤ time' := le_trans hlate hnext
    obtain ⟨found, hfound, hpage⟩ :=
      runtimeLineageRuns_eq hsteady hstart hdeadline hlate' hearly hk
    obtain rfl := Except.ok.inj (hreply.symm.trans hfound)
    obtain ⟨k', hlisting, hcursor⟩ := listing_of_pageReply hlimit hpage
    exact ⟨k', hlisting, fun hsome => ⟨hlate', hearly, hcursor hsome⟩⟩

end steady

/-- **The lists of pipelines and of runs are complete**: following the cursors returns every row
that matches, each once and newest first; that of the runs with a steady window, as long as its
requests are not refused because the window is too old. -/
theorem listings_list_all {Id : Type} [LinearOrder Id] (texts : RunTexts Id) :
    (∀ (ilike : String → String → Bool) (maxPipelineListPageSize : ℤ) (table : PipelineTable Id)
        (query : PipelineQuery),
      Lists pipelineKey
        (pipelinePages texts.toCursorTexts ilike maxPipelineListPageSize table query) none
        (table.rows.filter (pipelineWhere ilike query))) ∧
    ∀ (table : RunTable Id) (query : RunQuery) (start deadline : ℤ) (filters last : RuntimeFilters),
      SteadyWindow table query start → start ≤ deadline →
      parseRuntimeFilters texts start table.pipelines query = .ok filters →
      parseRuntimeFilters texts deadline table.pipelines query = .ok last →
      Lists executionKey (runPages texts table query deadline) (none, start)
        (table.rows.filter (executionWhereRuntime texts filters query)) := by
  constructor
  · intro ilike maxPipelineListPageSize table query
    exact pipelineList_lists table query
  · intro table query start deadline filters last hsteady hbefore hstart hdeadline
    exact runtimeLineageRuns_lists hsteady hstart hdeadline hbefore

/-! ## Two runs -/

/-- Texts of times, of which one is read. -/
def plainRunTexts : RunTexts Bool where
  toCursorTexts := plainTexts
  parseRfc3339 text := if text = "1970-01-01T01:00:00Z" then some 3600000000000 else none
  formatRfc3339 time := if time = 3600000000000 then "1970-01-01T01:00:00Z" else ""

/-- Two runs, half a second apart. -/
def twoRuns : RunTable Bool where
  toExecutionTable := twoExecutions

/-- The filters of a request without conditions that ends its window an hour after the beginning of
1970. -/
def firstHour : RuntimeFilters where
  windowFrom := 0
  windowTo := 3600000000000
  environment := ""
  pipelineKey := ""
  status := ""
  layer := ""

/-- Two pipelines that were created at one time. -/
def tiedPipelines : PipelineTable Bool where
  rows := [{ id := true, createdAt := 0 }, { id := false, createdAt := 0 }]
  nodup := by decide

/-- The two pipelines; and two runs in a window with a given end, listed for a quarter of a second. -/
theorem listings_list_all_first_hour :
    Lists pipelineKey (pipelinePages plainTexts (· == ·) 200 tiedPipelines { limit := "1" }) none
        tiedPipelines.rows ∧
      Lists executionKey
        (runPages plainRunTexts twoRuns { windowTo := "1970-01-01T01:00:00Z", limit := "1" }
          3600250000000) (none, 3600000000000)
        (twoRuns.rows.filter (executionWhereRuntime plainRunTexts firstHour
          { windowTo := "1970-01-01T01:00:00Z", limit := "1" })) :=
  ⟨(listings_list_all plainRunTexts).1 (· == ·) 200 tiedPipelines { limit := "1" },
    (listings_list_all plainRunTexts).2 twoRuns
      { windowTo := "1970-01-01T01:00:00Z", limit := "1" } 3600000000000 3600250000000 firstHour
      firstHour (.inl (by decide)) (by decide) rfl rfl⟩

/-- **A window that moves on**: a request without bounds is accepted, two runs match, and the second
page, a quarter of a second later, has left one of them behind. -/
theorem run_left_behind :
    parseRuntimeFilters plainRunTexts 3600000000000 twoRuns.pipelines { limit := "1" } =
        .ok firstHour ∧
      twoRuns.rows.filter (executionWhereRuntime plainRunTexts firstHour { limit := "1" }) =
        twoRuns.rows ∧
      ¬ Lists executionKey (runPages plainRunTexts twoRuns { limit := "1" } 3600250000000)
        (none, 3600000000000) twoRuns.rows := by
  refine ⟨rfl, rfl, ?_⟩
  intro h
  have hfirst : runPages plainRunTexts twoRuns { limit := "1" } 3600250000000
      (none, 3600000000000) [{ id := true, pipelineId := "p", startedAt := 500000 }] true
      (some exampleCursor, 3600000000000) := by
    refine ⟨by decide, by decide, _, rfl, rfl, rfl, rfl⟩
  have hsecond : runPages plainRunTexts twoRuns { limit := "1" } 3600250000000
      (some exampleCursor, 3600000000000) [] false (none, 3600250000000) := by
    refine ⟨by decide, by decide, _, rfl, rfl, rfl, rfl⟩
  have hlen := (h.complete _ (.more hfirst (.last hsecond))).length_eq
  cases hlen

end Dataflow.Api
