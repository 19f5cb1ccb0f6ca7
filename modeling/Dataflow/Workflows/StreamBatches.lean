import Dataflow.Workflows.StreamDirect

/-!
# The batches of a stream

A batch of a pipeline with one source fetches one page. It ends without an error only if the page
has been fetched and every node has ended as success or skipped, and then its checkpoint is that of
the page.

* `BatchPhase`, `batchProtocol`: where a batch is, and what it may call there.
* `NodeEnds`, `BatchEnds`: what a node, and a batch, ends with.
* `follows_streamBatch`: **a batch keeps to the protocol.**
* `StreamPoint.Fresh`, `fresh_iterate`: where the head of the loop leads.

Source: `ee/workflows/stream_direct.go`
-/

namespace Dataflow.Workflows

open Model Library List

/-! ## The protocol -/

/-- The activities that give a result give one with the status success.
Source: `activities.go` `DispatchNode`, `MergeRefs` -/
def Answered : (call : NodeCall) → NodeReply call → Bool
  | .mergeRefs _, .ok result => result.status = .success
  | .dispatchNode _, .ok result => result.status = .success
  | _, _ => true

/-- The status of a node that does not stop the batch, and that of one that does. -/
def Settled (status : NodeStatus) : Prop := status = .success ∨ status = .skipped

instance (status : NodeStatus) : Decidable (Settled status) := inferInstanceAs (Decidable (_ ∨ _))

/-- Before the page, with the page, after a page that could not be fetched, and after a reply that
no activity gives. -/
inductive BatchPhase where
  | before
  | fetched (page : StreamPage)
  | failed
  | odd

/-- The phase after a reply. -/
def BatchPhase.next : BatchPhase → (call : StreamCall) → StreamReply call → BatchPhase
  | .odd, _, _ => .odd
  | _, .fetchSourcePage _, .ok page => .fetched page
  | _, .fetchSourcePage _, .error _ => .failed
  | phase, .node _ call, reply => if Answered call reply then phase else .odd

/-- The page is fetched once, with the parameters of the source; the other nodes fetch nothing. -/
def batchProtocol (input : WorkflowInput) (source : Node) :
    Coroutine.Protocol StreamCall StreamReply Unit BatchPhase where
  allows phase call :=
    match call with
    | .fetchSourcePage params =>
      (phase = .before ∨ phase = .odd) ∧ params = fetchParams input source {}
    | .node _ (.fetchSourcePage _) => False
    | .node _ _ => True
  next := BatchPhase.next
  sees _ := True

/-- A node has a result that does not stop the batch. -/
def NodeDone (results : Results) (node : Node) : Prop :=
  ∃ result, results.lookup node.id = some result ∧ Settled result.status

/-- What a node ends with. -/
def NodeEnds (phase phase' : BatchPhase) (result : NodeResult) : Prop :=
  phase' = .odd ∨ phase' = phase ∧ (Settled result.status ∨ result.status = .failed)

/-- What a batch without an error ends with: the page, and a result of every node. -/
def BatchEnds (input : WorkflowInput) (source : Node) (nodes : List Node) (phase : BatchPhase)
    (batch : StreamBatch) : Prop :=
  phase = .odd ∨ (batch.error = none → ∃ page, phase = .fetched page ∧
    batch.checkpoint = page.checkpoint ∧
    batch.connectionId = sourceConnectionID input.definition.id source ∧
    ∀ node ∈ nodes, NodeDone batch.results node)

/-! ## Nodes -/

section nodes

variable {input : WorkflowInput} {source node : Node} {nodes : List Node} {phase : BatchPhase}

/-- A coroutine of a node that is not a source: what it calls, and what it ends with. -/
def NodeKeeps : NodeCoroutine → Prop
  | .done result => Settled result.status ∨ result.status = .failed
  | .await call k => (∀ params, call ≠ .fetchSourcePage params) ∧
      ∀ reply results, Answered call reply = true → NodeKeeps (k reply results)

/-- The calls of a coroutine, whatever the replies. -/
def NodeCalls : NodeCoroutine → Prop :=
  Coroutine.OnlyCalls fun call => ∀ params, call ≠ .fetchSourcePage params

theorem nodeKeeps_runBody (hnode : node.type ≠ .source) (inEdges : List Edge) (results : Results) :
    NodeKeeps (runBody input node inEdges results) ∧
      NodeCalls (runBody input node inEdges results) := by
  unfold runBody
  split
  · exact absurd ‹_› hnode
  · refine ⟨⟨nofun, ?_⟩, ⟨nofun, fun _ _ => trivial⟩⟩
    rintro (err | result) _ hanswered
    · exact .inr rfl
    · exact .inl (.inl (of_decide_eq_true hanswered))
  · exact ⟨.inl (.inl rfl), trivial⟩
  all_goals
    refine ⟨⟨nofun, ?_⟩, ⟨nofun, fun _ _ => trivial⟩⟩
    rintro (err | result) _ hanswered
    · exact .inr rfl
    · exact .inl (.inl (of_decide_eq_true hanswered))

theorem nodeKeeps_evalConditions {body : Results → NodeCoroutine}
    (hbody : ∀ results, NodeKeeps (body results) ∧ NodeCalls (body results)) (edges : List Edge)
    (results : Results) : NodeKeeps (evalConditions input node body edges results) ∧
      NodeCalls (evalConditions input node body edges results) := by
  induction edges generalizing results with
  | nil => exact hbody results
  | cons edge edges ih =>
    unfold evalConditions
    split_ifs
    · exact ih results
    · refine ⟨⟨by simp, ?_⟩, ⟨by simp, ?_⟩⟩
      · rintro (err | verdict) results' _
        · exact .inr rfl
        · cases verdict with
          | false => exact .inl (.inr rfl)
          | true => exact (ih results').1
      · rintro (err | verdict) results'
        · exact trivial
        · cases verdict with
          | false => exact trivial
          | true => exact (ih results').2

/-- A node that is not a source ends as success, skipped or failed, and fetches nothing. -/
theorem nodeKeeps_runNode (hnode : node.type ≠ .source) (inEdges : List Edge) (results : Results) :
    NodeKeeps (runNode input node inEdges results) ∧
      NodeCalls (runNode input node inEdges results) := by
  unfold runNode
  dsimp only
  split_ifs
  · exact ⟨.inl (.inr rfl), trivial⟩
  · apply nodeKeeps_evalConditions
    exact nodeKeeps_runBody hnode inEdges

/-- After an odd reply nothing is said of the rest. -/
theorem follows_odd {c : NodeCoroutine} (h : NodeCalls c) (results : Results) (id : String) :
    (batchProtocol input source).Follows (fun phase' _ => phase' = .odd) .odd
      (onResults results id c) := by
  induction c with
  | done result => rfl
  | await call k ih =>
    refine ⟨?_, fun reply _ _ => ih reply results (h.2 reply results)⟩
    cases call with
    | fetchSourcePage params => exact absurd rfl (h.1 params)
    | _ => trivial

theorem next_node (phase : BatchPhase) (id : String) (call : NodeCall) (reply : NodeReply call) :
    phase.next (.node id call) reply = if Answered call reply then phase else .odd := by
  cases phase <;> simp [BatchPhase.next]

/-- **A node keeps to the protocol**, and stays in its phase. -/
theorem follows_onResults {c : NodeCoroutine} (hkeeps : NodeKeeps c) (hcalls : NodeCalls c)
    (results : Results) (id : String) :
    (batchProtocol input source).Follows (NodeEnds phase) phase (onResults results id c) := by
  induction c with
  | done result => exact .inr ⟨rfl, hkeeps⟩
  | await call k ih =>
    refine ⟨?_, ?_⟩
    · cases call with
      | fetchSourcePage params => exact absurd rfl (hkeeps.1 params)
      | _ => trivial
    · intro reply _ _
      have hnext : (batchProtocol input source).next phase (.node id call) reply =
          if Answered call reply then phase else .odd := next_node phase id call reply
      rw [hnext]
      split_ifs with hanswered
      · exact ih reply results (hkeeps.2 reply results hanswered) (hcalls.2 reply results)
      · apply (follows_odd (hcalls.2 reply results) results id).mono
        exact fun _ _ h => .inl h

end nodes

/-! ## Batches -/

section batches

variable {input : WorkflowInput} {source : Node} {nodes rest : List Node} {phase : BatchPhase}
  {batch : StreamBatch} {incoming : String → List Edge}

/-- What holds between two nodes of a batch: the nodes so far are done, and the source is among them
iff the page has been fetched. -/
structure BatchAt (input : WorkflowInput) (source : Node) (nodes rest : List Node)
    (phase : BatchPhase) (batch : StreamBatch) : Prop where
  done : ∀ node ∈ nodes, node ∈ rest ∨ NodeDone batch.results node
  page : (phase = .before ∧ rest.filter (fun node => node.type = .source) = [source]) ∨
    ∃ page, phase = .fetched page ∧ batch.checkpoint = page.checkpoint ∧
      batch.connectionId = sourceConnectionID input.definition.id source ∧
      rest.filter (fun node => node.type = .source) = []

variable {result : NodeResult}

theorem nodeDone_insert_self (results : Results) (node : Node)
    (h : Settled result.status) : NodeDone (results.insert node.id result) node :=
  ⟨result, AList.lookup_insert results, h⟩

/-- A result that is done is kept, or replaced by another one that is. -/
theorem NodeDone.insert {results : Results} {node : Node} (h : NodeDone results node) (id : String)
    (hresult : Settled result.status) :
    NodeDone (results.insert id result) node := by
  obtain ⟨there, hthere, hsettled⟩ := h
  by_cases heq : node.id = id
  · exact ⟨result, heq ▸ AList.lookup_insert results, hresult⟩
  · exact ⟨there, by rw [AList.lookup_insert_ne heq, hthere], hsettled⟩

/-- A node is done. -/
theorem BatchAt.doneInsert {node : Node}
    (h : ∀ other ∈ nodes, other ∈ node :: rest ∨ NodeDone batch.results other)
    (hresult : Settled result.status) :
    ∀ other ∈ nodes, other ∈ rest ∨ NodeDone (batch.results.insert node.id result) other := by
  intro other hother
  rcases h other hother with hmem | hdone
  · rcases mem_cons.mp hmem with rfl | hmem
    · exact .inr (nodeDone_insert_self _ _ hresult)
    · exact .inl hmem
  · exact .inr (hdone.insert node.id hresult)

/-- Nothing is promised in the odd phase. -/
theorem follows_streamNodes_odd (rest : List Node) (batch : StreamBatch)
    (hsource : ∀ node ∈ rest, node.type = .source → node = source) :
    (batchProtocol input source).Follows (BatchEnds input source nodes) .odd
      (streamNodes input incoming rest batch) := by
  induction rest generalizing batch with
  | nil => exact .inl rfl
  | cons node rest ih =>
    have hrest : ∀ node ∈ rest, node.type = .source → node = source :=
      fun other hother => hsource other (mem_cons_of_mem _ hother)
    unfold streamNodes
    split_ifs with htype
    · obtain rfl := hsource node mem_cons_self htype
      refine ⟨⟨.inr rfl, rfl⟩, ?_⟩
      rintro (err | page) _ _
      · exact .inl rfl
      · exact ih _ hrest
    · apply (follows_odd (nodeKeeps_runNode htype _ _).2 _ _).bind
      rintro _ result rfl
      split_ifs
      · exact .inl rfl
      · exact ih _ hrest

/-- **The nodes of a batch keep to the protocol.** -/
theorem follows_streamNodes (h : BatchAt input source nodes rest phase batch) :
    (batchProtocol input source).Follows (BatchEnds input source nodes) phase
      (streamNodes input incoming rest batch) := by
  induction rest generalizing phase batch with
  | nil =>
    right
    intro _
    rcases h.page with ⟨-, hnil⟩ | ⟨page, hphase, hcheckpoint, hconnection, -⟩
    · cases hnil
    · refine ⟨page, hphase, hcheckpoint, hconnection, ?_⟩
      intro node hnode
      exact (h.done node hnode).resolve_left not_mem_nil
  | cons node rest ih =>
    unfold streamNodes
    split_ifs with htype
    · -- the source: it is the only one, so the page has not been fetched yet
      rcases h.page with ⟨rfl, hfilter⟩ | ⟨page, -, -, -, hfilter⟩
      · rw [filter_cons_of_pos (by simpa using htype), cons.injEq] at hfilter
        obtain ⟨rfl, hrest⟩ := hfilter
        refine ⟨⟨.inl rfl, rfl⟩, ?_⟩
        rintro (err | page) _ _
        · exact .inr nofun
        · exact ih ⟨BatchAt.doneInsert h.done (.inl rfl), .inr ⟨page, rfl, rfl, rfl, hrest⟩⟩
      · rw [filter_cons_of_pos (by simpa using htype)] at hfilter
        cases hfilter
    · have hfilter : (node :: rest).filter (fun node => node.type = .source) =
          rest.filter fun node => node.type = .source :=
        filter_cons_of_neg (by simpa using htype)
      have hkeeps : NodeKeeps (runNode input node (incoming node.id) batch.results) ∧
          NodeCalls (runNode input node (incoming node.id) batch.results) :=
        nodeKeeps_runNode htype (incoming node.id) batch.results
      apply (follows_onResults hkeeps.1 hkeeps.2 _ _).bind
      rintro phase' result (rfl | ⟨rfl, hends⟩)
      · split_ifs
        · exact .inl rfl
        · apply follows_streamNodes_odd
          intro other hother hsource
          have hmem : other ∈ (node :: rest).filter fun node => node.type = .source := by
            rw [hfilter]
            exact mem_filter.mpr ⟨hother, by simpa using hsource⟩
          rcases h.page with ⟨-, hone⟩ | ⟨page, -, -, -, hnone⟩
          · rw [hone] at hmem
            exact mem_singleton.mp hmem
          · simp [hnone] at hmem
      · split_ifs with hfailed
        · exact .inr nofun
        · have hsettled : Settled result.status := hends.resolve_right hfailed
          have hpage := h.page
          rw [hfilter] at hpage
          exact ih ⟨BatchAt.doneInsert h.done hsettled, hpage⟩

/-- **A batch keeps to the protocol.** -/
theorem follows_streamBatch {plan : ExecutionPlan}
    (h : plan.levels.flatten.filter (fun node => node.type = .source) = [source]) :
    (batchProtocol input source).Follows (BatchEnds input source plan.levels.flatten) .before
      (streamBatch input plan) :=
  follows_streamNodes ⟨fun _ hnode => .inl hnode, .inl ⟨rfl, h⟩⟩

end batches

/-! ## Where the head of the loop leads -/

/-- A run between two batches, or at the beginning of one. -/
def StreamPoint.Fresh (stream : StreamDirect) (source : Node) : StreamPoint → Prop
  | .batch _ program => (batchProtocol stream.input source).Follows
      (BatchEnds stream.input source stream.plan.levels.flatten) .before program
  | .committing _ _ _ => False
  | _ => True

namespace StreamDirect

variable {stream : StreamDirect} {source : Node} {next : StreamState → StreamState} {left : ℕ}
  {s : StreamState}

theorem fresh_countBatch (hnext : ∀ s, (next s).point.Fresh stream source) (count : ℤ) :
    (countBatch next left count s).point.Fresh stream source := by
  unfold countBatch
  split_ifs
  · trivial
  · exact hnext _

/-- A batch that has failed leads to the next one. -/
theorem fresh_afterBatch_of_error (batch : StreamBatch) (herror : batch.error ≠ none) :
    (afterBatch next left batch s).point.Fresh stream source := by
  unfold afterBatch
  split
  · trivial
  · exact absurd ‹_› herror

variable (hsource : stream.plan.levels.flatten.filter (fun node => node.type = .source) = [source])
include hsource

theorem fresh_enter : (stream.enter next left s).point.Fresh stream source := by
  unfold enter
  split_ifs
  · trivial
  · trivial
  · have hfollows := @follows_streamBatch stream.input _ _ hsource
    cases hprogram : streamBatch stream.input stream.plan with
    | done batch =>
      -- a batch without a page has an error
      rw [hprogram] at hfollows
      apply fresh_afterBatch_of_error
      intro hnone
      rcases hfollows with hodd | hends
      · cases hodd
      · obtain ⟨page, hphase, -⟩ := hends hnone
        cases hphase
    | await call k =>
      rw [hprogram] at hfollows
      exact hfollows

theorem fresh_iterate (left : ℕ) (s : StreamState) :
    (stream.iterate left s).point.Fresh stream source := by
  cases left with
  | zero => trivial
  | succ left => exact fresh_enter hsource

end StreamDirect

end Dataflow.Workflows
