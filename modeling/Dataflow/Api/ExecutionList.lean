import Dataflow.Api.Listings

/-!
# The list of executions

`GET /api/executions` lists executions, newest first. With `paged=1` it answers with a page and a
cursor. Its query has the limit of the page in a subquery, and one row more outside of it.

* `executionWhere`, `executionList`: the code.
* `executionPages`: the list as a reader of pages.
* `executionHandler_first`: the first page announces no other one.
* `executionList_lists_iff`: the list is complete where one page is enough.

Source: `routes_executions.go`
-/

set_option linter.unusedSectionVars false

namespace Dataflow.Api

open Library.Paging List

/-! ## The code -/

/-- A row of `executions` with the columns of its pipeline. -/
structure ListedExecution (Id : Type) where
  id : Id
  pipelineId : String
  pipelineKey : String := ""
  name : String := ""
  environment : String := ""
  phase : String := ""
  triggerType : String := ""
  startedAt : ℤ
  completedAt : Option ℤ := none
  runId : Option String := none
  traceId : Option String := none
  retryOf : Option String := none
  /-- `node->'config'->>'layer'` of the nodes of the definition. -/
  layers : List String := []

/-- The executions of a tenant; an id is there once, as it is the primary key. -/
structure ExecutionTable (Id : Type) where
  rows : List (ListedExecution Id)
  nodup : (rows.map ListedExecution.id).Nodup

/-- The parameters of a request; a parameter that is absent is empty. -/
structure ExecutionQuery where
  pipeline : String := ""
  env : String := ""
  phase : String := ""
  status : String := ""
  startFrom : String := ""
  startTo : String := ""
  limit : String := ""
  cursor : String := ""
  paged : String := ""

/-- What is answered: the rows, or a page of them. -/
inductive ExecutionReply (Id : Type) where
  | rows (rows : List (ListedExecution Id))
  | page (reply : ListReply (ListedExecution Id))

/-- `ORDER BY e.started_at DESC,e.id DESC`. -/
def executionKey {Id : Type} (row : ListedExecution Id) : ListKey Id :=
  toLex (row.startedAt, row.id)

section code

variable {Id : Type} [LinearOrder Id] (texts : CursorTexts Id) (parseUuid : String → Option String)

/-- A condition on a parameter that is a text of some type; an empty parameter is no condition, and
a text that is not of the type is an error of the query. -/
def whereParsed {α β : Type} (parse : String → Option α) (value : String) (holds : α → β → Bool) :
    Except ListError (β → Bool) :=
  if value = "" then .ok fun _ => true
  else match parse value with
    | some a => .ok (holds a)
    | none => .error .database

/-- The conditions on the rows, without that of the cursor. -/
def executionWhere (query : ExecutionQuery) : Except ListError (ListedExecution Id → Bool) := do
  let phase := if query.phase = "" then query.status else query.phase
  let pipeline ← whereParsed parseUuid query.pipeline fun id (row : ListedExecution Id) =>
    decide (row.pipelineId = id)
  let startFrom ← whereParsed (castTimestamptz texts.dates) query.startFrom
    fun time (row : ListedExecution Id) => decide (time ≤ row.startedAt)
  let startTo ← whereParsed (castTimestamptz texts.dates) query.startTo
    fun time (row : ListedExecution Id) => decide (row.startedAt ≤ time)
  return fun row => pipeline row && (query.env = "" || row.environment = query.env) &&
    (phase = "" || row.phase = phase) && startFrom row && startTo row

/-- The limit of a request. -/
def executionLimit (query : ExecutionQuery) : ℕ := pageLimit query.limit 100 500

/-- Source: `routes_executions.go` `executionList`. -/
def executionList (table : ExecutionTable Id) (query : ExecutionQuery) :
    Except ListError (ExecutionReply Id) := do
  let limit := executionLimit query
  let c ← cursorKey texts "startedAt" "execution" query.cursor
  let isMatch ← executionWhere texts parseUuid query
  let inner := selectRows executionKey table.rows isMatch c limit
  if query.paged = "1" then
    return .page (pageReply texts "startedAt" executionKey limit (inner.take (limit + 1)))
  else return .rows inner

/-- The list as a handler that answers with a page. -/
def executionHandler (table : ExecutionTable Id) (query : ExecutionQuery) (cursor : String) :
    Except ListError (ListReply (ListedExecution Id)) :=
  (executionList texts parseUuid table { query with cursor := cursor, paged := "1" }).map fun
    | .page reply => reply
    | .rows rows => { rows := rows, nextCursor := none }

/-- The list with `paged=1` as a reader of pages. -/
def executionPages (table : ExecutionTable Id) (query : ExecutionQuery) :
    PageStep (Option String) (ListedExecution Id) :=
  pages (executionHandler texts parseUuid table query)

end code

/-! ## One page and no other -/

section lists

variable {Id : Type} [LinearOrder Id] {texts : CursorTexts Id}
  {parseUuid : String → Option String} {table : ExecutionTable Id} {query : ExecutionQuery}
  {isMatch : ListedExecution Id → Bool}

/-- The keys of the rows are distinct, as their ids are. -/
theorem nodup_executionKey (table : ExecutionTable Id) : (table.rows.map executionKey).Nodup := by
  have hids := table.nodup
  rw [List.Nodup, pairwise_map] at hids ⊢
  refine hids.imp fun {x y} hne heq => hne ?_
  exact congrArg (fun k => (ofLex k).2) heq

/-- **The first page announces no other one**: the subquery never gives a row more than the page
has. -/
theorem executionHandler_first (hwhere : executionWhere texts parseUuid query = .ok isMatch) :
    executionHandler texts parseUuid table query "" = .ok
      { rows := (orderBy executionKey (table.rows.filter isMatch)).take (executionLimit query)
        nextCursor := none } := by
  have hlast : ∀ rows : List (ListedExecution Id), rows.length ≤ executionLimit query →
      pageReply texts "startedAt" executionKey (executionLimit query)
        (rows.take (executionLimit query + 1)) = { rows := rows, nextCursor := none } := by
    intro rows hlen
    rw [take_of_length_le (hlen.trans (Nat.le_succ _)), pageReply, if_neg (not_lt.mpr hlen)]
  have hall : (table.rows.filter isMatch).filter (after executionKey none) =
      table.rows.filter isMatch := filter_eq_self.mpr fun _ _ => rfl
  have hpage := hlast (selectRows executionKey table.rows isMatch none (executionLimit query))
    (length_take_le _ _)
  have hwhere' : executionWhere texts parseUuid
      { query with cursor := "", paged := "1" } = .ok isMatch := hwhere
  show (executionList texts parseUuid table { query with cursor := "", paged := "1" }).map _ = _
  have hlist : executionList texts parseUuid table { query with cursor := "", paged := "1" } =
      .ok (.page (pageReply texts "startedAt" executionKey (executionLimit query)
        ((selectRows executionKey table.rows isMatch none (executionLimit query)).take
          (executionLimit query + 1)))) := by
    rw [executionList, hwhere']
    rfl
  rw [hlist, hpage, selectRows, hall]
  rfl

/-- **When the list of executions is complete**: following the cursors returns every execution that
matches, each once and newest first, if and only if they fit on one page. -/
theorem executionList_lists_iff (hwhere : executionWhere texts parseUuid query = .ok isMatch) :
    Lists executionKey (executionPages texts parseUuid table query) none
        (table.rows.filter isMatch) ↔
      (table.rows.filter isMatch).length ≤ executionLimit query := by
  have hkeys : ((table.rows.filter isMatch).map executionKey).Nodup :=
    (nodup_executionKey table).sublist (filter_sublist.map _)
  have hfirst : executionHandler texts parseUuid table query "" = .ok
      { rows := (orderBy executionKey (table.rows.filter isMatch)).take (executionLimit query)
        nextCursor := none } := executionHandler_first hwhere
  have hperm := orderBy_perm executionKey (table.rows.filter isMatch)
  have hstep : executionPages texts parseUuid table query none
      ((orderBy executionKey (table.rows.filter isMatch)).take (executionLimit query)) false none :=
    ⟨_, hfirst, rfl, rfl, rfl⟩
  rw [lists_iff_of_last hstep]
  · constructor
    · intro h
      have hlen := h.length_eq
      rw [length_take, hperm.length_eq] at hlen
      omega
    · intro hlen
      rw [take_of_length_le (hperm.length_eq.trans_le hlen)]
      exact hperm
  · rintro page more c' ⟨reply, hreply, rfl, rfl, rfl⟩
    rw [Option.getD_none, hfirst] at hreply
    cases hreply
    exact ⟨rfl, rfl⟩
  · exact (descending_orderBy hkeys).sublist (take_sublist _ _)

end lists

/-! ## Two executions -/

/-- Two executions, half a second apart. -/
def twoExecutions : ExecutionTable Bool where
  rows := [{ id := false, pipelineId := "p", startedAt := 0 },
    { id := true, pipelineId := "p", startedAt := 500000 }]
  nodup := by decide

/-- Two executions on one page. -/
theorem executionList_lists_iff_one_page :
    Lists executionKey (executionPages plainTexts some twoExecutions { limit := "2" }) none
        (twoExecutions.rows.filter fun _ => true && true && true && true && true) ↔
      (twoExecutions.rows.filter fun _ => true && true && true && true && true).length ≤
        executionLimit { limit := "2" } := by
  exact executionList_lists_iff rfl

/-- **Two executions on pages of one**: the first page announces no other one. -/
theorem second_execution_left_out :
    executionHandler plainTexts some twoExecutions { limit := "1" } "" =
        .ok { rows := [{ id := true, pipelineId := "p", startedAt := 500000 }], nextCursor := none } ∧
      ¬ Lists executionKey (executionPages plainTexts some twoExecutions { limit := "1" }) none
        twoExecutions.rows := by
  have hfirst : executionHandler plainTexts some twoExecutions { limit := "1" } "" =
      .ok { rows := [{ id := true, pipelineId := "p", startedAt := 500000 }], nextCursor := none } :=
    rfl
  refine ⟨hfirst, ?_⟩
  intro h
  have hlen := (h.complete _ (.last ⟨_, hfirst, rfl, rfl, rfl⟩)).length_eq
  cases hlen

end Dataflow.Api
