import Dataflow.Activities.ConnectorState
import Dataflow.Workflows.Completion
import Dataflow.Workflows.Contracts

/-!
# Source paging over successive executions

A source has finitely many pages, each read from the cursor the page before it has left. `runSource`
follows the pages within one run, up to 50 of them, and a completed run commits the last cursor.

* `PagedSource`: a source with its pages and cursors.
* `Served`, `PagesRead`, `guarantees_source`: the replies of the source, and what a run that starts
  without a committed cursor does with them: up to 50 pages it reads all of them and succeeds, above
  that it fails.
* `Execution`, `Successive`: executions of one pipeline, one after the other, over the table of
  committed cursors.
* `paging_progress_iff`: **main result**: successive executions ingest the source iff it has 50
  pages at most.
-/

namespace Dataflow.Workflows

open Model Library Activities List Option

/-! ## Sources with finitely many pages -/

/-- A source with `pages` pages. `cursor i` is the cursor after `i` pages; `read` is what
`fetchSourcePage` replies to a cursor. -/
structure PagedSource where
  pages : ℕ
  cursor : ℕ → JsonMap
  page : ℕ → SourcePage
  read : JsonMap → Except String SourcePage
  pages_pos : 0 < pages
  cursor_zero : cursor 0 = []
  read_cursor : ∀ i < pages, read (cursor i) = .ok (page i)
  hasMore : ∀ i < pages, (page i).hasMore = decide (i + 1 < pages)
  checkpoint : ∀ i < pages, (page i).checkpoint = some (cursor (i + 1))
  distinct : ∀ i, DistinctOffsets (cursor i)

/-- The reply to a call of the source node: the page at the cursor; conditions and merges
succeed. -/
def Served (source : PagedSource) (state : ConnectorState) : ∀ call, NodeReply call → Prop
  | .fetchSourcePage params, reply => reply = source.read (fetchCursor state params)
  | .evalEdgeCondition _, reply => ∃ verdict, reply = .ok verdict
  | .mergeRefs _, reply => ∃ merged, reply = .ok merged
  | .dispatchNode _, _ => True

/-- The page after `i` pages is fetched. -/
def PageFetched (source : PagedSource) (state : ConnectorState) (calls : List NodeCall) (i : ℕ) :
    Prop :=
  ∃ params, .fetchSourcePage params ∈ calls ∧ fetchCursor state params = source.cursor i

theorem PageFetched.append {source : PagedSource} {state : ConnectorState} {calls : List NodeCall}
    {i : ℕ} (h : PageFetched source state calls i) (calls' : List NodeCall) :
    PageFetched source state (calls ++ calls') i := by
  obtain ⟨params, hmem, hcursor⟩ := h
  exact ⟨params, mem_append_left _ hmem, hcursor⟩

/-- What a run comes to at its source: it is skipped, or it reads all pages, or there are too
many. -/
def PagesRead (source : PagedSource) (state : ConnectorState) (connectionId : String)
    (calls : List NodeCall) (result : NodeResult) : Prop :=
  result.status = .skipped ∨
  (source.pages ≤ maxSourcePages ∧ result.status = .success ∧
    sourceCursor result = some { connectionId, checkpoint := source.cursor source.pages } ∧
    ∀ i < source.pages, PageFetched source state calls i) ∨
  (maxSourcePages < source.pages ∧ result.status = .failed)

/-- The cursor of a successful source is its last checkpoint. -/
theorem sourceCursor_sourceSuccess (input : WorkflowInput) (node : Node)
    {progress : SourceProgress} {checkpoint : JsonMap} (h : progress.checkpoint = some checkpoint)
    (outputRef : Option DataRef) :
    sourceCursor (sourceSuccess input node progress outputRef) =
      some { connectionId := sourceConnectionID input.definition.id node, checkpoint } := by
  rw [sourceCursor, sourceSuccess, h]
  rfl

section source

variable {source : PagedSource} {state : ConnectorState} {input : WorkflowInput} {node : Node}
  {ok : Results → Prop} {made : List NodeCall} {progress : SourceProgress}

/-- `j` pages have been read. -/
structure ReadUpTo (source : PagedSource) (state : ConnectorState) (progress : SourceProgress)
    (made : List NodeCall) (j : ℕ) : Prop where
  checkpoint : progress.checkpoint = if j = 0 then none else some (source.cursor j)
  fetched : ∀ i < j, PageFetched source state made i

/-- The next page is read from the cursor after the pages read so far. -/
theorem fetchCursor_fetchParams {j : ℕ}
    (hstate : state input.tenantId (sourceConnectionID input.definition.id node) = none)
    (h : ReadUpTo source state progress made j) :
    fetchCursor state (fetchParams input node progress) = source.cursor j := by
  show (progress.checkpoint.orElse fun _ => state input.tenantId
    (sourceConnectionID input.definition.id node)).getD [] = source.cursor j
  rw [h.checkpoint, hstate]
  split_ifs with hj
  · rw [hj, source.cursor_zero]
    rfl
  · rfl

/-- One more page. -/
theorem ReadUpTo.add {j : ℕ}
    (hstate : state input.tenantId (sourceConnectionID input.definition.id node) = none)
    (h : ReadUpTo source state progress made j) (hj : j < source.pages) :
    ReadUpTo source state (progress.add (source.page j))
      (made ++ [.fetchSourcePage (fetchParams input node progress)]) (j + 1) where
  checkpoint := by
    rw [SourceProgress.add, source.checkpoint j hj, if_neg (Nat.succ_ne_zero j)]
    rfl
  fetched i hi := by
    rcases Nat.lt_succ_iff_lt_or_eq.mp hi with hi | rfl
    · exact (h.fetched i hi).append _
    · exact ⟨_, mem_append_right _ mem_cons_self, fetchCursor_fetchParams hstate h⟩

/-- All pages are read: the source succeeds with the last cursor. -/
theorem guarantees_finishSource (hpages : source.pages ≤ maxSourcePages)
    (h : ReadUpTo source state progress made source.pages) :
    (finishSource input node progress).Guarantees (Served source state) ok
      (PagesRead source state (sourceConnectionID input.definition.id node)) made := by
  have hcheckpoint : progress.checkpoint = some (source.cursor source.pages) := by
    rw [h.checkpoint, if_neg source.pages_pos.ne']
  have hsuccess : ∀ outputRef calls, PagesRead source state
      (sourceConnectionID input.definition.id node) (made ++ calls)
      (sourceSuccess input node progress outputRef) := by
    intro outputRef calls
    refine .inr (.inl ⟨hpages, rfl, sourceCursor_sourceSuccess input node hcheckpoint outputRef, ?_⟩)
    intro i hi
    exact (h.fetched i hi).append calls
  unfold finishSource
  rcases progress.refs with _ | ⟨ref, _ | ⟨ref', refs⟩⟩
  · exact append_nil made ▸ hsuccess none []
  · exact append_nil made ▸ hsuccess (some ref) []
  · rintro reply s ⟨merged, rfl⟩ _
    exact hsuccess merged.outputRef _

/-- A page has arrived. -/
theorem guarantees_afterPage {j : ℕ} {more : SourceProgress → NodeCoroutine}
    (hstate : state input.tenantId (sourceConnectionID input.definition.id node) = none)
    (h : ReadUpTo source state progress made j) (hj : j < source.pages) (hmax : j < maxSourcePages)
    (hmore : ∀ progress' made', j + 1 < source.pages →
      ReadUpTo source state progress' made' (j + 1) →
      (more progress').Guarantees (Served source state) ok
        (PagesRead source state (sourceConnectionID input.definition.id node)) made')
    {reply : Except String SourcePage}
    (hreply : reply = source.read (fetchCursor state (fetchParams input node progress))) :
    (afterPage input node progress more reply).Guarantees (Served source state) ok
      (PagesRead source state (sourceConnectionID input.definition.id node))
      (made ++ [.fetchSourcePage (fetchParams input node progress)]) := by
  have hadd := ReadUpTo.add hstate h hj
  rw [fetchCursor_fetchParams hstate h, source.read_cursor j hj] at hreply
  subst hreply
  unfold afterPage
  dsimp only
  rw [source.hasMore j hj]
  by_cases hlast : j + 1 < source.pages
  · rw [decide_eq_true hlast, if_pos rfl]
    exact hmore _ _ hlast hadd
  · rw [decide_eq_false hlast, if_neg Bool.false_ne_true]
    have heq : j + 1 = source.pages := by omega
    rw [heq] at hadd
    exact guarantees_finishSource (by omega) hadd

/-- **The page loop**: with `pagesLeft` pages to go after this one, all pages are read or the source
fails. -/
theorem guarantees_readPages {pagesLeft j : ℕ}
    (hstate : state input.tenantId (sourceConnectionID input.definition.id node) = none)
    (h : ReadUpTo source state progress made j) (hj : j < source.pages)
    (hleft : j + pagesLeft + 1 = maxSourcePages) :
    (readPages input node pagesLeft progress).Guarantees (Served source state) ok
      (PagesRead source state (sourceConnectionID input.definition.id node)) made := by
  induction pagesLeft generalizing progress made j with
  | zero =>
    intro reply s hreply _
    refine guarantees_afterPage hstate h hj (by omega) ?_ hreply
    intro progress' made' hmore _
    exact .inr (.inr ⟨by omega, rfl⟩)
  | succ pagesLeft ih =>
    intro reply s hreply _
    refine guarantees_afterPage hstate h hj (by omega) ?_ hreply
    intro progress' made' hmore hread
    exact ih hread hmore (by omega)

/-- **What a source does without a committed cursor.** -/
theorem guarantees_source (hsource : node.type = .source)
    (hstate : state input.tenantId (sourceConnectionID input.definition.id node) = none)
    (inEdges : List Edge) (results : Results) :
    (runNode input node inEdges results).Guarantees (Served source state) (AgreeOn inEdges results)
      (PagesRead source state (sourceConnectionID input.definition.id node)) [] := by
  have hread : ∀ made, (readPages input node (maxSourcePages - 1) {}).Guarantees
      (Served source state) (AgreeOn inEdges results)
      (PagesRead source state (sourceConnectionID input.definition.id node)) made := by
    intro made
    refine guarantees_readPages (j := 0) hstate ⟨rfl, ?_⟩ source.pages_pos (by decide)
    intro i hi
    exact absurd hi (Nat.not_lt_zero i)
  refine guarantees_runNode_of_body (fun _ => True) trivial (fun _ _ _ => trivial) (fun _ => .inl rfl)
    ?_ ?_ fun _ _ => rfl
  · rintro made params err ⟨verdict, hverdict⟩
    cases hverdict
  · intro made results' _ _
    rw [runBody, hsource]
    exact hread made

end source

/-! ## Executions of a pipeline -/

/-- An acyclic pipeline with a source that has finitely many pages. -/
structure PagedPipeline where
  definition : PipelineDefinition
  tenantId : String
  node : Node
  source : PagedSource
  isDag : IsDag definition
  mem : node ∈ definition.nodes
  isSource : node.type = .source

/-- One execution: the table it starts from, its run, and the phase it returns. -/
structure Execution where
  state : ConnectorState
  dag : DynamicDag
  events : List Event
  final : RunState
  phase : Phase

/-- The table after the execution. -/
def Execution.after (formatting : Formatting) (execution : Execution) : ConnectorState :=
  applyCommits formatting execution.final.scheduled execution.state

namespace PagedPipeline

variable (pipeline : PagedPipeline)

/-- The connection of the source. -/
def connectionId : String := sourceConnectionID pipeline.definition.id pipeline.node

/-- The row of the source. -/
def row (state : ConnectorState) : Option JsonMap := state pipeline.tenantId pipeline.connectionId

/-- Nothing is cancelled, the activities that prepare and commit succeed, and the source is
served. -/
def ServedBy (state : ConnectorState) (s : RunState) (event : Event) : Prop :=
  event ≠ .signal .cancel ∧ event.aborts = false ∧ match event with
    | .nodeReply index answer => ∀ node call k,
        s.point.running[index]? = some (node, .await call k) → node = pipeline.node →
          Served pipeline.source state call (answer call)
    | _ => True

/-- An execution in which everything but the source goes well: the other nodes do not fail, the
source is reached, and its connection is its own. -/
structure Healthy (execution : Execution) : Prop where
  definition : execution.dag.request.definition = pipeline.definition
  tenantId : execution.dag.request.tenantId = pipeline.tenantId
  run : execution.dag.Run (fun _ => pipeline.ServedBy execution.state) execution.events
    execution.final
  returned : execution.final.point = .returned (.ok execution.phase)
  others : ∀ id result, execution.final.results.lookup id = some result → id ≠ pipeline.node.id →
    result.status ≠ .failed ∧
      ∀ cursor, sourceCursor result = some cursor → cursor.connectionId ≠ pipeline.connectionId
  reached : ∀ result, execution.final.results.lookup pipeline.node.id = some result →
    result.status ≠ .skipped

/-- Executions one after the other, each over the table the one before has left. -/
def Successive (formatting : Formatting) : ConnectorState → List Execution → Prop
  | _, [] => True
  | state, execution :: rest =>
    execution.state = state ∧ pipeline.Healthy execution ∧
      Successive formatting (execution.after formatting) rest

/-- The table after all executions. -/
def finalState (formatting : Formatting) (state : ConnectorState) (history : List Execution) :
    ConnectorState :=
  history.foldl (fun _ execution => execution.after formatting) state

/-- The execution is completed and has read the page after `i` pages. -/
def Ingests (i : ℕ) (execution : Execution) : Prop :=
  execution.phase = .completed ∧ PageFetched pipeline.source execution.state
    (callsOf execution.final.scheduled pipeline.node.id) i

/-- Every page is ingested by a completed execution, and the committed cursor is the last one. -/
def Done (formatting : Formatting) (state : ConnectorState) (history : List Execution) : Prop :=
  (∀ i < pipeline.source.pages, ∃ execution ∈ history, pipeline.Ingests i execution) ∧
    pipeline.row (finalState formatting state history) =
      some (pipeline.source.cursor pipeline.source.pages)

/-! ## One execution -/

/-- The contract of the source without a committed cursor. -/
def contract (dag : DynamicDag) (state : ConnectorState)
    (hstate : state dag.input.tenantId (sourceConnectionID dag.input.definition.id pipeline.node) =
      none) : dag.NodeContract where
  answers node call reply := node = pipeline.node → Served pipeline.source state call reply
  post node _ calls result := node = pipeline.node → PagesRead pipeline.source state
    (sourceConnectionID dag.input.definition.id pipeline.node) calls result
  congr _ _ _ _ := rfl
  starts node results := by
    by_cases hnode : node = pipeline.node
    · subst hnode
      exact (guarantees_source pipeline.isSource hstate _ results).consequence
        (fun _ _ h => h rfl) (fun _ h => h) (fun _ _ h _ => h)
    · apply Coroutine.guarantees_of_forall
      intro calls result heq
      exact absurd heq hnode

/-- Only the closing calls write to the table. -/
theorem applyCommits_closingLog (formatting : Formatting) (s : RunState) (state : ConnectorState) :
    applyCommits formatting s.scheduled state = applyCommits formatting s.closingLog state := by
  unfold applyCommits RunState.closingLog
  induction s.scheduled generalizing state with
  | nil => rfl
  | cons call calls ih =>
    rw [foldl_cons, ih, filter_cons]
    cases call <;> rfl

variable {pipeline} {result : NodeResult}

/-- The cursors of the results that belong to the source. -/
theorem filter_cursors (dag : DynamicDag) {results : Results}
    (hlookup : results.lookup pipeline.node.id = some result)
    (hothers : ∀ id other, results.lookup id = some other → id ≠ pipeline.node.id →
      ∀ cursor, sourceCursor other = some cursor → cursor.connectionId ≠ pipeline.connectionId)
    {cursor : SourceCursor} (hcursor : sourceCursor result = some cursor)
    (hown : cursor.connectionId = pipeline.connectionId) :
    (dag.cursors results).filter (fun c => c.connectionId = pipeline.connectionId) = [cursor] := by
  have hpick : (results.entries.filterMap fun entry =>
      (sourceCursor entry.2).filter fun c => c.connectionId = pipeline.connectionId) = [cursor] := by
    rw [Lists.filterMap_of_key results.nodupKeys (AList.mem_lookup_iff.mp hlookup)]
    · rw [hcursor, filter_some, if_pos (by simpa using hown)]
      rfl
    · rintro ⟨id, other⟩ hmem hne
      rw [filter_eq_none_iff]
      intro c hc
      simpa using hothers id other (AList.mem_lookup_iff.mpr hmem) hne c hc
  have hperm := ((dag.ranging.perm results).filterMap sourceCursor).filter
    fun c => c.connectionId = pipeline.connectionId
  rw [filterMap_map, filter_filterMap, filter_filterMap] at hperm
  rw [DynamicDag.cursors, ← perm_singleton, ← hpick, filter_filterMap]
  exact hperm

section outcome

variable {formatting : Formatting} {execution : Execution}

/-- An execution completes, or it fails at some node. -/
theorem Healthy.phase (h : pipeline.Healthy execution) :
    execution.final.cancelled = false ∧ execution.phase = execution.final.finalPhase ∧
      ∀ node ∈ pipeline.definition.nodes, node.id ∈ execution.final.results := by
  have hdag : IsDag execution.dag.input.definition := h.definition ▸ pipeline.isDag
  have hcancelled := (DynamicDag.not_cancelled_of_run (fun _ _ _ hok => hok.1) h.run).1
  obtain ⟨hcomplete, hphase⟩ :=
    DynamicDag.complete_of_returned hdag h.run hcancelled h.returned
  refine ⟨hcancelled, hphase, fun node hnode => (hcomplete node.id).mpr ?_⟩
  have hmem : node ∈ execution.dag.request.definition.nodes := h.definition ▸ hnode
  exact List.mem_map_of_mem hmem

/-- The table changes by the commits of the run. -/
theorem Healthy.after_eq (h : pipeline.Healthy execution) : execution.after formatting =
    applyCommits formatting (execution.dag.commitCalls execution.final) execution.state := by
  have hclosed := DynamicDag.closed_of_run h.run
  rw [DynamicDag.Closed, h.returned] at hclosed
  rw [Execution.after, applyCommits_closingLog, hclosed.2, DynamicDag.closingCalls, applyCommits,
    foldl_append]
  rfl

/-- The source keeps its contract. -/
theorem pagesRead_of_run {dag : DynamicDag} {state : ConnectorState} {es : List Event}
    {s : RunState} (hdefinition : dag.input.definition = pipeline.definition)
    (htenant : dag.input.tenantId = pipeline.tenantId) (hrow : pipeline.row state = none)
    (hrun : dag.Run (fun _ => pipeline.ServedBy state) es s)
    (hlookup : s.results.lookup pipeline.node.id = some result) :
    PagesRead pipeline.source state pipeline.connectionId
      (callsOf s.scheduled pipeline.node.id) result := by
  have hdag : IsDag dag.input.definition := hdefinition ▸ pipeline.isDag
  have hmem : pipeline.node ∈ dag.input.definition.nodes := hdefinition ▸ pipeline.mem
  have hstate : state dag.input.tenantId (sourceConnectionID dag.input.definition.id
      pipeline.node) = none := by
    rw [hdefinition, htenant]
    exact hrow
  have hanswered : ∀ (_ : List Event) s event, pipeline.ServedBy state s event →
      (pipeline.contract dag state hstate).Answered s event := by
    intro _ s event hok
    cases event with
    | nodeReply index answer => exact hok.2.2
    | _ => trivial
  have hpost := (pipeline.contract dag state hstate).post_of_run hdag hanswered hrun hmem hlookup
    rfl
  rwa [hdefinition] at hpost

/-- Only the source can fail. -/
theorem Healthy.anyFailed_iff (h : pipeline.Healthy execution)
    (hlookup : execution.final.results.lookup pipeline.node.id = some result) :
    anyFailed execution.final.results = true ↔ result.status = .failed := by
  rw [DynamicDag.anyFailed_iff]
  constructor
  · rintro ⟨id, other, hother, hstatus⟩
    by_cases hid : id = pipeline.node.id
    · subst hid
      rw [hlookup, some.injEq] at hother
      rwa [hother]
    · exact absurd hstatus (h.others id other hother hid).1
  · intro hstatus
    exact ⟨_, result, hlookup, hstatus⟩

/-- A completed execution commits the cursor of its source. -/
theorem Healthy.row_after (h : pipeline.Healthy execution)
    (hrow : pipeline.row execution.state = none)
    (hlookup : execution.final.results.lookup pipeline.node.id = some result)
    (hfinal : execution.final.finalPhase = .completed) {checkpoint : JsonMap}
    (hcursor : sourceCursor result = some { connectionId := pipeline.connectionId, checkpoint })
    (hdistinct : DistinctOffsets checkpoint) :
    pipeline.row (execution.after formatting) = some checkpoint := by
  have hfilter := filter_cursors execution.dag hlookup
    (fun id other hother hid => (h.others id other hother hid).2) hcursor rfl
  have hne : execution.dag.cursors execution.final.results ≠ [] := by
    intro hnil
    simp [hnil] at hfilter
  have hcommit : execution.after formatting = commitSourceCursors formatting pipeline.tenantId
      (execution.dag.cursors execution.final.results) execution.state := by
    rw [h.after_eq, DynamicDag.commitCalls, if_pos hfinal, DynamicDag.cursorCalls, if_neg hne,
      DynamicDag.dedupeCalls, ← h.tenantId]
    split_ifs <;> rfl
  rw [hcommit, row, commitSourceCursors_of_filter execution.state hfilter]
  rw [row] at hrow
  rw [hrow, nextCursor_none formatting hdistinct]

/-- **What one execution without a committed cursor comes to.** -/
theorem Healthy.outcome (formatting : Formatting) (h : pipeline.Healthy execution)
    (hrow : pipeline.row execution.state = none) :
    (pipeline.source.pages ≤ maxSourcePages ∧
      (∀ i < pipeline.source.pages, pipeline.Ingests i execution) ∧
      pipeline.row (execution.after formatting) =
        some (pipeline.source.cursor pipeline.source.pages)) ∨
    (maxSourcePages < pipeline.source.pages ∧ execution.phase = .failed ∧
      execution.after formatting = execution.state) := by
  obtain ⟨hcancelled, hphase, hfinished⟩ := h.phase
  obtain ⟨result, hlookup⟩ := isSome_iff_exists.mp
    (AList.lookup_isSome.mpr (hfinished pipeline.node pipeline.mem))
  have hread := pagesRead_of_run h.definition h.tenantId hrow h.run hlookup
  have hfailed := h.anyFailed_iff hlookup
  rcases hread with hskipped | ⟨hpages, hsuccess, hcursor, hfetched⟩ | ⟨hpages, hstatus⟩
  · exact absurd hskipped (h.reached result hlookup)
  · left
    have hfinal : execution.final.finalPhase = .completed := by
      rw [RunState.finalPhase, hcancelled, if_neg Bool.false_ne_true, if_neg]
      rw [hfailed, hsuccess]
      exact fun h => NodeStatus.noConfusion h
    refine ⟨hpages, fun i hi => ⟨hphase.trans hfinal, hfetched i hi⟩, ?_⟩
    exact h.row_after hrow hlookup hfinal hcursor (pipeline.source.distinct _)
  · right
    have hfinal : execution.final.finalPhase = .failed := by
      rw [RunState.finalPhase, hcancelled, if_neg Bool.false_ne_true, if_pos (hfailed.mpr hstatus)]
    refine ⟨hpages, hphase.trans hfinal, ?_⟩
    rw [h.after_eq, DynamicDag.commitCalls, if_neg (by rw [hfinal]; decide)]
    rfl

end outcome

/-! ## There is an execution -/

section existence

variable (pipeline) (state : ConnectorState)

/-- Every activity succeeds; the source replies its pages, another source has one empty page. -/
def serving : Outcomes :=
  { Outcomes.successful {} with
    fetchSourcePage := fun node params =>
      if node = pipeline.node then pipeline.source.read (fetchCursor state params) else .ok {} }

/-- The replies of `serving` serve the source. -/
theorem served_serving (call : NodeCall) :
    Served pipeline.source state call ((pipeline.serving state).answer pipeline.node call) := by
  cases call with
  | fetchSourcePage params => exact if_pos rfl
  | evalEdgeCondition params =>
    show ∃ verdict, evalEdgeCondition _ params.inputRef = .ok verdict
    cases params.inputRef <;> exact ⟨true, rfl⟩
  | mergeRefs params => exact ⟨_, rfl⟩
  | dispatchNode params => trivial

variable {pipeline state} {input : WorkflowInput} {node : Node}

theorem conditionBlock_serving (upstream : String → Option NodeResult) (inEdges : List Edge) :
    conditionBlock (pipeline.serving state) input node upstream inEdges = none := by
  induction inEdges with
  | nil => rfl
  | cons edge rest ih =>
    have hverdict : conditionVerdict (pipeline.serving state) input node edge
        (upstream edge.source) = .ok true := by
      unfold conditionVerdict
      split_ifs
      · rfl
      · cases (upstream edge.source).bind NodeResult.outputRef <;> rfl
    rw [conditionBlock, hverdict]
    exact ih

/-- A node is skipped, or it runs; it runs when its predecessors succeeded. -/
theorem nodeResult_serving (inEdges : List Edge) (upstream : String → Option NodeResult) :
    ∃ refs, (nodeResult (pipeline.serving state) input node inEdges upstream = skipped node.id ∨
        nodeResult (pipeline.serving state) input node inEdges upstream =
          bodyResult (pipeline.serving state) input node refs) ∧
      ((∀ edge ∈ inEdges, (upstream edge.source).map NodeResult.status = some .success) →
        nodeResult (pipeline.serving state) input node inEdges upstream =
          bodyResult (pipeline.serving state) input node refs) := by
  refine ⟨inEdges.filterMap fun edge => (upstream edge.source).bind NodeResult.outputRef, ?_, ?_⟩
  · unfold nodeResult
    rw [conditionBlock_serving]
    split_ifs
    · exact .inl rfl
    · exact .inr rfl
  · intro h
    unfold nodeResult
    rw [conditionBlock_serving, if_neg]
    · rfl
    · rintro ⟨hne, hfailed⟩
      obtain ⟨edge, he⟩ := exists_mem_of_ne_nil inEdges hne
      exact hfailed edge he (h edge he)

/-- Another node succeeds and has no cursor. -/
theorem bodyResult_serving (hne : node ≠ pipeline.node) (refs : List DataRef) :
    (bodyResult (pipeline.serving state) input node refs).status = .success ∧
      sourceCursor (bodyResult (pipeline.serving state) input node refs) = none := by
  unfold bodyResult
  cases htype : node.type with
  | source =>
    have hpage : (pipeline.serving state).fetchSourcePage node (fetchParams input node {}) =
        .ok {} := if_neg hne
    have hpages : sourcePages (pipeline.serving state) input node (maxSourcePages - 1) {} =
        .ok {} := by
      show sourcePages _ input node (48 + 1) {} = _
      rw [sourcePages, hpage]
      rfl
    rw [sourceResult, hpages]
    exact ⟨rfl, rfl⟩
  | merge | fork | transform | sink | other word => exact ⟨rfl, rfl⟩

/-- A source that runs is not skipped. -/
theorem bodyResult_ne_skipped (outcomes : Outcomes) (hsource : node.type = .source)
    (refs : List DataRef) : (bodyResult outcomes input node refs).status ≠ .skipped := by
  have hmerged : ∀ progress, (mergedPages outcomes input node progress).status ≠ .skipped := by
    intro progress
    unfold mergedPages
    rcases progress.refs with _ | ⟨ref, _ | ⟨ref', refs⟩⟩
    · exact fun h => NodeStatus.noConfusion h
    · exact fun h => NodeStatus.noConfusion h
    · cases outcomes.mergeRefs node (mergePagesParams input node progress) <;>
        exact fun h => NodeStatus.noConfusion h
  rw [bodyResult, hsource]
  unfold sourceResult
  cases sourcePages outcomes input node (maxSourcePages - 1) {} with
  | error err => exact fun h => NodeStatus.noConfusion h
  | ok progress => exact hmerged progress

/-- **Without disturbance there is a healthy execution**, whatever the number of pages. -/
theorem exists_healthy (pipeline : PagedPipeline) (state : ConnectorState) :
    ∃ execution : Execution, execution.state = state ∧ pipeline.Healthy execution := by
  let dag : DynamicDag :=
    { info := {}
      request := { definition := pipeline.definition, tenantId := pipeline.tenantId }
      ranging := .entries }
  have hdag : IsDag dag.input.definition := pipeline.isDag
  have htype : dag.input.trigger.type = "" := rfl
  have hstart : ¬ dag.RowMissing := by
    rintro ⟨hcron, -⟩
    rw [htype] at hcron
    exact absurd hcron (by decide)
  obtain ⟨es, s, phase, hrun, hreturned⟩ :=
    DynamicDag.exists_smooth_run dag (pipeline.serving state) hdag hstart
  have hserved : dag.Run (fun _ => pipeline.ServedBy state) es s := by
    refine hrun.mono fun _ s event hok => ⟨?_, DynamicDag.aborts_of_succeeds hok.2.1, ?_⟩
    · rintro rfl
      cases hok.1
    · cases event with
      | nodeReply index answer =>
        intro node call k hi hnode
        subst hnode
        rw [hok.2.2 pipeline.node call k hi]
        exact served_serving pipeline state call
      | _ => trivial
  have hcancelled := (DynamicDag.not_cancelled_of_run (fun _ _ _ hok => hok.1) hserved).1
  obtain ⟨hcomplete, -⟩ :=
    DynamicDag.complete_of_returned hdag hrun hcancelled hreturned
  have hvalued := DynamicDag.valued_of_run hdag (fun _ _ _ hok => hok.2.2) hrun
  have hvalue : ∀ id result, s.results.lookup id = some result →
      ∃ node ∈ dag.input.definition.nodes, node.id = id ∧ result =
        nodeResult (pipeline.serving state) dag.input node
          (inEdges dag.input.definition.edges id) s.results.lookup := by
    intro id result hlookup
    obtain ⟨node, hnode, rfl⟩ := List.mem_map.mp
      ((hcomplete id).mp (AList.lookup_isSome.mp (by rw [hlookup]; rfl)))
    refine ⟨node, hnode, rfl, ?_⟩
    have hvalue := hvalued.solution.value node.id result hlookup
    rwa [resultAt, nodeAt_of_mem hdag.ids hnode] at hvalue
  have hother : ∀ {node : Node} {result : NodeResult} {inEdges : List Edge}, node ≠ pipeline.node →
      result = nodeResult (pipeline.serving state) dag.input node inEdges s.results.lookup →
      (result.status = .skipped ∨ result.status = .success) ∧ sourceCursor result = none := by
    intro node result inEdges hne hresult
    obtain ⟨refs, hcases, -⟩ :=
      @nodeResult_serving pipeline state dag.input node inEdges s.results.lookup
    rw [hresult]
    rcases hcases with hskipped | hbody
    · rw [hskipped]
      exact ⟨.inl rfl, rfl⟩
    · rw [hbody]
      exact ⟨.inr (bodyResult_serving hne refs).1, (bodyResult_serving hne refs).2⟩
  -- the nodes the source depends on run and succeed
  have hreached : ∀ id, Relation.ReflTransGen (HasEdge dag.input.definition.edges) id
      pipeline.node.id → ∀ result, s.results.lookup id = some result →
      ∃ node ∈ dag.input.definition.nodes, ∃ refs, node.id = id ∧
        result = bodyResult (pipeline.serving state) dag.input node refs := by
    intro id
    induction id using hdag.wellFounded.induction with
    | _ id ih =>
      intro hpath result hlookup
      obtain ⟨node, hnode, rfl, hresult⟩ := hvalue id result hlookup
      obtain ⟨refs, -, hruns⟩ := @nodeResult_serving pipeline state dag.input node
        (inEdges dag.input.definition.edges node.id) s.results.lookup
      refine ⟨node, hnode, refs, rfl, hresult.trans (hruns ?_)⟩
      intro edge he
      obtain ⟨hedge, htarget⟩ := mem_inEdges.mp he
      have hstep : HasEdge dag.input.definition.edges edge.source node.id :=
        ⟨edge, hedge, rfl, htarget⟩
      obtain ⟨upstream, hupstream⟩ := isSome_iff_exists.mp
        (hvalued.solution.closed node.id result hlookup edge.source hstep)
      obtain ⟨other, -, refs', hid, hbody⟩ := ih edge.source hstep (hpath.head hstep) upstream
        hupstream
      have hne : other ≠ pipeline.node := by
        rintro rfl
        apply hdag.acyclic
        exact ⟨_, .head' (hid ▸ hstep) hpath⟩
      rw [hupstream, map_some, hbody, (bodyResult_serving hne refs').1]
  refine ⟨⟨state, dag, es, s, phase⟩, rfl, rfl, rfl, hserved, hreturned, ?_, ?_⟩
  · intro id result hlookup hne
    obtain ⟨node, -, rfl, hresult⟩ := hvalue id result hlookup
    have hnode : node ≠ pipeline.node := by
      rintro rfl
      exact hne rfl
    obtain ⟨hstatus, hcursor⟩ := hother hnode hresult
    refine ⟨?_, fun cursor hsome => ?_⟩
    · rcases hstatus with hstatus | hstatus <;> rw [hstatus] <;>
        exact fun h => NodeStatus.noConfusion h
    · simp [hcursor] at hsome
  · intro result hlookup
    obtain ⟨node, hnode, refs, hid, hbody⟩ := hreached _ .refl result hlookup
    have heq : node = pipeline.node := inj_on_of_nodup_map hdag.ids hnode pipeline.mem hid
    subst heq
    rw [hbody]
    exact bodyResult_ne_skipped _ pipeline.isSource refs

end existence

/-! ## Successive executions -/

section history

variable {formatting : Formatting} {state : ConnectorState} {history : List Execution}

/-- With more than 50 pages no execution completes, and nothing is committed. -/
theorem failed_of_successive (hpages : maxSourcePages < pipeline.source.pages)
    (hrow : pipeline.row state = none) (h : pipeline.Successive formatting state history) :
    (∀ execution ∈ history, execution.phase = .failed) ∧
      finalState formatting state history = state := by
  induction history generalizing state with
  | nil => exact ⟨forall_mem_nil _, rfl⟩
  | cons execution rest ih =>
    obtain ⟨rfl, hhealthy, hrest⟩ := h
    rcases hhealthy.outcome formatting hrow with ⟨hfew, -⟩ | ⟨-, hfailed, hafter⟩
    · exact absurd hpages (by omega)
    · rw [hafter] at hrest
      obtain ⟨hall, hfinal⟩ := ih hrow hrest
      refine ⟨?_, ?_⟩
      · intro other hother
        rcases mem_cons.mp hother with rfl | hother
        · exact hfailed
        · exact hall other hother
      · show finalState formatting (execution.after formatting) rest = execution.state
        rw [hafter]
        exact hfinal

end history

/-- The cursor after `i` pages of the example. -/
def exampleCursor (i : ℕ) : JsonMap := if i = 0 then [] else [("after", .number i)]

/-- How many pages are before the cursor. -/
def exampleIndex (cursor : JsonMap) : ℕ :=
  match cursor.get "after" with
  | .number after => after.num.toNat
  | _ => 0

/-- A source with the given number of pages. -/
def exampleSource (pages : ℕ) (h : 0 < pages) : PagedSource where
  pages := pages
  cursor := exampleCursor
  page i := { hasMore := decide (i + 1 < pages), checkpoint := some (exampleCursor (i + 1)) }
  read cursor :=
    .ok { hasMore := decide (exampleIndex cursor + 1 < pages)
          checkpoint := some (exampleCursor (exampleIndex cursor + 1)) }
  pages_pos := h
  cursor_zero := rfl
  read_cursor i _ := by
    have hindex : exampleIndex (exampleCursor i) = i := by
      unfold exampleCursor
      split_ifs with hi
      · exact hi.symm
      · rfl
    rw [hindex]
  hasMore _ _ := rfl
  checkpoint _ _ := rfl
  distinct i := by
    intro incoming hoffsets
    unfold exampleCursor at hoffsets
    split_ifs at hoffsets <;> cases hoffsets

/-- A pipeline that consists of this source. -/
def examplePaging (pages : ℕ) (h : 0 < pages) : PagedPipeline where
  definition := { nodes := [{ id := "orders", type := .source }] }
  tenantId := "tenant"
  node := { id := "orders", type := .source }
  source := exampleSource pages h
  isDag := by decide
  mem := mem_singleton_self _
  isSource := rfl

end PagedPipeline

end Dataflow.Workflows
