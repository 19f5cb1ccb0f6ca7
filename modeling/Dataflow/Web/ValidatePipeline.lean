import Dataflow.Api.GraphCheck
import Dataflow.Connectors.Values
import Dataflow.Library.Colouring

/-!
# `validatePipeline` of the browser

The browser checks a definition before it is saved. It looks for cycles with a depth-first search
over the edges, of which it keeps one for each text `source→target`.

* `addEdge`, `validatePipeline`: the code.
* `firstEdges`: the edges that are kept.
* `reportsCycle_iff`: which definitions the browser reports as cyclic.
* `rejected_as_cyclic_iff`: which definitions the server does.
* `cycles_agree_iff`: **main result**: the two agree exactly if each cycle passes the checks before
  it and keeps its edges.
* `arrow_in_id`: a cycle that the browser does not see.

Source: `validatePipeline.ts`, `pipeline_validation.go`
-/

namespace Dataflow.Web

open Api Connectors Library Library.Colouring Library.Graph List Function Option
  Dataflow.Model Dataflow.Workflows

/-! ## The code -/

/-- Source: `validatePipeline.ts` `PNode`; a label that is absent is empty. -/
structure PNode where
  id : String
  type : String
  label : String := ""

/-- Source: `validatePipeline.ts` `ValidationError`. -/
structure GraphError where
  type : String
  message : String
  nodeId : Option String := none
  edgeId : Option String := none
  deriving DecidableEq

/-- The state of the loop over the edges. -/
structure EdgeState where
  errs : List GraphError := []
  edgeSet : List String := []
  incoming : String → Option (List String)
  outgoing : String → Option (List String)

/-- `map.get(key)?.push(value)`. -/
def push (map : String → Option (List String)) (key value : String) :
    String → Option (List String) :=
  update map key ((map key).map (· ++ [value]))

/-- The text that stands for an edge. -/
def edgeKey (edge : Edge) : String := edge.source ++ "→" ++ edge.target

/-- One round of the loop over the edges. -/
def addEdge (state : EdgeState) (edge : Edge) : EdgeState :=
  if edge.source = edge.target then
    { state with errs := state.errs ++ [{
        type := "SELF_LOOP"
        message := "Node " ++ quoted quoteMark edge.source ++ " has a self-loop."
        edgeId := some edge.id }] }
  else if edgeKey edge ∈ state.edgeSet then
    { state with errs := state.errs ++ [{
        type := "DUPLICATE_EDGE"
        message := "Duplicate edge " ++ edgeKey edge ++ "."
        edgeId := some edge.id }] }
  else
    { state with
      edgeSet := edgeKey edge :: state.edgeSet
      outgoing := push state.outgoing edge.source edge.target
      incoming := push state.incoming edge.target edge.source }

/-- The maps before the loop. -/
def noEdges (nodes : List PNode) : EdgeState where
  incoming id := if id ∈ nodes.map PNode.id then some [] else none
  outgoing id := if id ∈ nodes.map PNode.id then some [] else none

/-- `map.get(id) ?? []`. -/
def listed (map : String → Option (List String)) (id : String) : List String := (map id).getD []

/-- The node as messages name it. -/
def PNode.shown (node : PNode) : String :=
  quoted quoteMark (if node.label = "" then node.id else node.label)

/-- A loop over the nodes that reports those to which something applies. -/
def nodeErrors (nodes : List PNode) (type : String) (applies : PNode → Bool)
    (message : PNode → String) :
    List GraphError :=
  (nodes.filter applies).map fun node => { type, message := message node, nodeId := some node.id }

section loops

variable (nodes : List PNode) (state : EdgeState)

/-- How many edges end in a node. -/
def indegree (node : PNode) : ℕ := (listed state.incoming node.id).length

/-- How many edges start at a node. -/
def outdegree (node : PNode) : ℕ := (listed state.outgoing node.id).length

/-- The search with three colours. -/
def cycleErrors : List GraphError :=
  if hasCycle (listed state.outgoing) (nodes.map PNode.id) = some true then
    [{ type := "CYCLE", message := "Pipeline contains a cycle — DAGs must be acyclic." }]
  else []

/-- What is reported after the search. -/
def shapeErrors : List GraphError :=
  nodeErrors nodes "SOURCE_HAS_INCOMING" (fun node => node.type = "source" ∧ 0 < indegree state node)
      (fun node => "Source " ++ node.shown ++ " cannot have incoming edges.") ++
    nodeErrors nodes "SINK_HAS_OUTGOING" (fun node => node.type = "sink" ∧ 0 < outdegree state node)
      (fun node => "Sink " ++ node.shown ++ " cannot have outgoing edges.") ++
    (if nodes.any (·.type = "source") then []
      else [{ type := "NO_SOURCE", message := "Pipeline needs at least one source node." }]) ++
    (if nodes.any (·.type = "sink") then []
      else [{ type := "NO_SINK", message := "Pipeline needs at least one sink node." }]) ++
    nodeErrors nodes "FORK_TOO_FEW_OUTPUTS" (fun node => node.type = "fork" ∧ outdegree state node < 2)
      (fun node => "Fork " ++ node.shown ++ " needs ≥2 outgoing edges.") ++
    nodeErrors nodes "MERGE_TOO_FEW_INPUTS" (fun node => node.type = "merge" ∧ indegree state node < 2)
      (fun node => "Merge " ++ node.shown ++ " needs ≥2 incoming edges.") ++
    nodeErrors nodes "ORPHAN" (fun node => indegree state node + outdegree state node = 0)
      (fun node => "Node " ++ node.shown ++ " is not connected.") ++
    nodeErrors nodes "DEAD_END"
      (fun node => node.type ≠ "sink" ∧ outdegree state node = 0 ∧ 0 < indegree state node)
      (fun node => node.shown ++ " (" ++ node.type ++ ") has no outgoing edge — data dropped.")

end loops

/-- Source: `validatePipeline.ts` `validatePipeline`. -/
def validatePipeline (nodes : List PNode) (edges : List Edge) : List GraphError :=
  let state := edges.foldl addEdge (noEdges nodes)
  state.errs ++ cycleErrors nodes state ++ shapeErrors nodes state

/-- The browser reports `CYCLE` or `SELF_LOOP`. -/
def ReportsCycle (errs : List GraphError) : Prop :=
  ∃ err ∈ errs, err.type = "CYCLE" ∨ err.type = "SELF_LOOP"

/-! ## The edges that are kept -/

/-- The edges between different nodes, each the first with its text. -/
def firstEdges : (seen : List String) → List Edge → List Edge
  | _, [] => []
  | seen, edge :: edges =>
    if edge.source = edge.target ∨ edgeKey edge ∈ seen then firstEdges seen edges
    else edge :: firstEdges (edgeKey edge :: seen) edges

/-- A cycle is left: a self-loop, or one of edges that are kept. -/
def LeavesCycle (edges : List Edge) : Prop :=
  (∃ edge ∈ edges, edge.source = edge.target) ∨ Cyclic (HasEdge (firstEdges [] edges))

section edges

variable {edges : List Edge} {state : EdgeState} {nodes : List PNode} {seen : List String}

theorem mem_of_mem_firstEdges {edge : Edge} (h : edge ∈ firstEdges seen edges) : edge ∈ edges := by
  induction edges generalizing seen with
  | nil => cases h
  | cons first edges ih =>
    rw [firstEdges] at h
    split_ifs at h
    · exact mem_cons_of_mem _ (ih h)
    · rcases mem_cons.mp h with rfl | h
      · exact mem_cons_self
      · exact mem_cons_of_mem _ (ih h)

theorem listed_push (map : String → Option (List String)) (key value : String) (id : String) :
    listed (push map key value) id =
      if id = key ∧ (map key).isSome then listed map id ++ [value] else listed map id := by
  unfold listed push
  by_cases hid : id = key
  · subst hid
    rw [update_self]
    cases map id <;> simp
  · rw [update_of_ne hid, if_neg fun h => hid h.1]

theorem isSome_push (map : String → Option (List String)) (key value id : String) :
    (push map key value id).isSome = (map id).isSome := by
  unfold push
  by_cases hid : id = key
  · rw [hid, update_self, isSome_map]
  · rw [update_of_ne hid]

/-- A self-loop and an edge whose text is there leave the map. -/
theorem addEdge_dropped {edge : Edge}
    (h : edge.source = edge.target ∨ edgeKey edge ∈ state.edgeSet) :
    (addEdge state edge).outgoing = state.outgoing ∧
    (addEdge state edge).edgeSet = state.edgeSet := by
  unfold addEdge
  split_ifs with hself hseen
  · exact ⟨rfl, rfl⟩
  · exact ⟨rfl, rfl⟩
  · exact absurd h (not_or.mpr ⟨hself, hseen⟩)

theorem addEdge_kept {edge : Edge}
    (h : ¬ (edge.source = edge.target ∨ edgeKey edge ∈ state.edgeSet)) :
    (addEdge state edge).outgoing = push state.outgoing edge.source edge.target ∧
      (addEdge state edge).edgeSet = edgeKey edge :: state.edgeSet := by
  rw [not_or] at h
  rw [addEdge, if_neg h.1, if_neg h.2]
  exact ⟨rfl, rfl⟩

/-- Which ids the map knows stays. -/
theorem isSome_outgoing (id : String) :
    ((edges.foldl addEdge state).outgoing id).isSome = (state.outgoing id).isSome := by
  induction edges generalizing state with
  | nil => rfl
  | cons edge edges ih =>
    rw [foldl_cons, ih]
    by_cases h : edge.source = edge.target ∨ edgeKey edge ∈ state.edgeSet
    · rw [(addEdge_dropped h).1]
    · rw [(addEdge_kept h).1, isSome_push]

/-- The map has the targets of the edges that are kept. -/
theorem listed_outgoing (id : String) (hid : (state.outgoing id).isSome) :
    listed (edges.foldl addEdge state).outgoing id = listed state.outgoing id ++
      ((firstEdges state.edgeSet edges).filter fun edge => edge.source = id).map Edge.target := by
  induction edges generalizing state with
  | nil => simp [firstEdges]
  | cons edge edges ih =>
    rw [foldl_cons, firstEdges]
    by_cases h : edge.source = edge.target ∨ edgeKey edge ∈ state.edgeSet
    · obtain ⟨hout, hset⟩ := addEdge_dropped h
      rw [if_pos h, ih (by rw [hout, hid]), hout, hset]
    · obtain ⟨hout, hset⟩ := addEdge_kept h
      rw [if_neg h, ih (by rw [hout, isSome_push, hid]), hout, hset, listed_push]
      by_cases hsource : edge.source = id
      · have hknown : id = edge.source ∧ (state.outgoing edge.source).isSome :=
          ⟨hsource.symm, hsource ▸ hid⟩
        rw [if_pos hknown, filter_cons_of_pos (by simpa using hsource), map_cons,
          append_assoc, singleton_append]
      · rw [if_neg fun h => hsource h.1.symm, filter_cons_of_neg (by simpa using hsource)]

/-- The loop over the edges reports the self-loops. -/
theorem reportsCycle_errs_iff : ReportsCycle (edges.foldl addEdge state).errs ↔
      ReportsCycle state.errs ∨ ∃ edge ∈ edges, edge.source = edge.target := by
  induction edges generalizing state with
  | nil => simp
  | cons edge edges ih =>
    rw [foldl_cons, ih]
    unfold addEdge ReportsCycle
    split_ifs with hself hseen
    · simp [hself]
    · simp [hself]
    · simp [hself]

theorem not_reportsCycle_nodeErrors {type : String} (htype : type ≠ "CYCLE" ∧ type ≠ "SELF_LOOP")
    (applies : PNode → Bool) (message : PNode → String) :
    ¬ ReportsCycle (nodeErrors nodes type applies message) := by
  rintro ⟨err, herr, hcycle⟩
  obtain ⟨node, -, rfl⟩ := List.mem_map.mp herr
  rcases hcycle with heq | heq
  · exact htype.1 heq
  · exact htype.2 heq

theorem reportsCycle_append {errs errs' : List GraphError} :
    ReportsCycle (errs ++ errs') ↔ ReportsCycle errs ∨ ReportsCycle errs' := by
  simp only [ReportsCycle, mem_append, or_and_right, exists_or]

/-- What is reported after the search is no cycle. -/
theorem not_reportsCycle_shapeErrors : ¬ ReportsCycle (shapeErrors nodes state) := by
  have hword {p : Prop} [Decidable p] {err : GraphError} (h : err.type ≠ "CYCLE" ∧ err.type ≠ "SELF_LOOP") :
      ¬ ReportsCycle (if p then [] else [err]) := by
    rintro ⟨other, hother, hcycle⟩
    split_ifs at hother
    · cases hother
    · rw [mem_singleton.mp hother] at hcycle
      exact hcycle.elim h.1 h.2
  unfold shapeErrors
  simp only [reportsCycle_append, not_or]
  refine ⟨⟨⟨⟨⟨⟨⟨?_, ?_⟩, ?_⟩, ?_⟩, ?_⟩, ?_⟩, ?_⟩, ?_⟩
  case refine_3 => exact hword (by decide)
  case refine_4 => exact hword (by decide)
  all_goals exact not_reportsCycle_nodeErrors (by decide) _ _

/-- The search goes along the edges that are kept. -/
theorem next_iff (hknown : ∀ edge ∈ edges, edge.source ∈ nodes.map PNode.id) {u v : String} :
    Search.Next (listed (edges.foldl addEdge (noEdges nodes)).outgoing) u v ↔
      HasEdge (firstEdges [] edges) u v := by
  unfold Search.Next
  by_cases hu : u ∈ nodes.map PNode.id
  · have hsome : ((noEdges nodes).outgoing u).isSome := by
      simp only [noEdges, if_pos hu, isSome_some]
    have hempty : listed (noEdges nodes).outgoing u = [] := by
      simp only [listed, noEdges, if_pos hu, getD_some]
    rw [listed_outgoing u hsome, hempty, nil_append]
    simp only [noEdges, List.mem_map, mem_filter, decide_eq_true_eq, HasEdge, and_assoc]
  · have hnone : (edges.foldl addEdge (noEdges nodes)).outgoing u = none := by
      rw [← not_isSome_iff_eq_none, isSome_outgoing]
      simp only [noEdges, if_neg hu, isSome_none, Bool.false_eq_true, not_false_iff]
    constructor
    · intro hv
      simp [listed, hnone] at hv
    · rintro ⟨edge, hedge, rfl, -⟩
      exact absurd (hknown edge (mem_of_mem_firstEdges hedge)) hu

/-- **What the browser reports**: a self-loop, or a cycle of the edges that are kept. -/
theorem reportsCycle_iff (hknown : ∀ edge ∈ edges, edge.source ∈ nodes.map PNode.id ∧
    edge.target ∈ nodes.map PNode.id) :
    ReportsCycle (validatePipeline nodes edges) ↔ LeavesCycle edges := by
  have hnext : Search.Next (listed (edges.foldl addEdge (noEdges nodes)).outgoing) =
      HasEdge (firstEdges [] edges) := by
    funext u v
    exact propext (next_iff fun edge hedge => (hknown edge hedge).1)
  have hsearch : ReportsCycle (cycleErrors nodes (edges.foldl addEdge (noEdges nodes))) ↔
      Cyclic (HasEdge (firstEdges [] edges)) := by
    have hends : ∀ u v, HasEdge (firstEdges [] edges) u v →
        u ∈ nodes.map PNode.id ∧ v ∈ nodes.map PNode.id := by
      rintro u v ⟨edge, hedge, rfl, rfl⟩
      exact hknown edge (mem_of_mem_firstEdges hedge)
    have hempty : ∀ u, u ∉ nodes.map PNode.id →
        listed (edges.foldl addEdge (noEdges nodes)).outgoing u = [] := by
      intro u hu
      rw [eq_nil_iff_forall_not_mem]
      intro v hv
      exact hu (hends u v (hnext ▸ hv)).1
    rw [← hnext]
    unfold cycleErrors
    rcases hasCycle_eq hempty fun u v hv => (hends u v (hnext ▸ hv)).2 with ⟨heq, hcyclic⟩ | ⟨heq, hacyclic⟩
    · simp [heq, hcyclic, ReportsCycle]
    · simp [heq, hacyclic, ReportsCycle]
  unfold validatePipeline LeavesCycle
  rw [reportsCycle_append, reportsCycle_append, reportsCycle_errs_iff, hsearch,
    or_iff_left not_reportsCycle_shapeErrors]
  simp [noEdges, ReportsCycle]

end edges

/-! ## The two sides -/

/-- The node as the browser has it. -/
def typeWord : NodeType → String
  | .source => "source"
  | .transform => "transform"
  | .sink => "sink"
  | .fork => "fork"
  | .merge => "merge"
  | .other word => word

/-- A node of a definition in the browser, with its label. -/
def pNode (label : String → String) (node : Node) : PNode :=
  { id := node.id, type := typeWord node.type, label := label node.id }

/-- The checks that the server makes before it looks at the graph. -/
def PassesFirst (definition : PipelineDefinition) : Prop :=
  checkHeader definition = .ok () ∧ ∃ ids, definition.nodes.foldlM checkNode [] = .ok ids

section agreement

variable {enterprise : Enterprise} {ranging : RangeIds} {definition : PipelineDefinition}

/-- The checks on one node have other errors than a cycle. -/
theorem checkNode_ne_cycle {ids : List String} {node : Node} :
    checkNode ids node ≠ .error .cycle := by
  intro h
  unfold checkNode at h
  by_cases hempty : node.id = ""
  · simp [hempty, bind, Except.bind, throw, throwThe, MonadExceptOf.throw] at h
  by_cases hmem : node.id ∈ ids
  · simp [hempty, hmem, bind, Except.bind, throw, throwThe, MonadExceptOf.throw] at h
  rw [if_neg hempty, if_neg hmem] at h
  rcases bind_eq_error.mp h with hfields | ⟨_, -, h⟩
  · unfold checkFields at hfields
    split at hfields
    · cases hfields
    · split_ifs at hfields
      · cases hfields
      · split at hfields
        · split_ifs at hfields
          cases hfields
        · cases hfields
  · cases h

theorem checkNodes_ne_cycle {nodes : List Node} {ids : List String} :
    nodes.foldlM checkNode ids ≠ .error .cycle := by
  induction nodes generalizing ids with
  | nil => nofun
  | cons node nodes ih =>
    rw [foldlM_cons]
    intro h
    rcases bind_eq_error.mp h with h | ⟨_, -, h⟩
    · exact checkNode_ne_cycle h
    · exact ih h

/-- **What the server rejects as cyclic**: a definition that passes its first checks and has a
cycle. -/
theorem rejected_as_cyclic_iff (hknown : EndpointsKnown definition.nodes definition.edges) :
    Api.validatePipeline enterprise ranging definition = .error .cycle ↔
      PassesFirst definition ∧ Cyclic (HasEdge definition.edges) := by
  unfold Api.validatePipeline
  constructor
  · intro h
    rcases bind_eq_error.mp h with h | ⟨⟨⟩, hheader, h⟩
    · exact absurd trivial (not_ofGraph_of_checkHeader h)
    rcases bind_eq_error.mp h with h | ⟨⟨⟩, -, h⟩
    · have hgraph := h
      rcases bind_eq_error.mp h with h | ⟨ids, hnodes, -⟩
      · exact absurd h checkNodes_ne_cycle
      · refine ⟨⟨hheader, ids, hnodes⟩, ?_⟩
        by_contra hacyclic
        simp [(checkGraph_of_known ranging hnodes hknown).2 hacyclic] at hgraph
    · exact absurd trivial (not_ofGraph_of_validateEngine h)
  · rintro ⟨⟨hheader, ids, hnodes⟩, hcyclic⟩
    rw [hheader, ok_bind, (checkGraph_of_known ranging hnodes hknown).1 hcyclic]
    rfl

/-- What is left of a cycle was there. -/
theorem cyclic_of_leavesCycle {edges : List Edge} (h : LeavesCycle edges) :
    Cyclic (HasEdge edges) := by
  rcases h with ⟨edge, hedge, hself⟩ | ⟨v, hv⟩
  · exact ⟨edge.source, .single ⟨edge, hedge, rfl, hself.symm⟩⟩
  · have hsub : ∀ u w, HasEdge (firstEdges [] edges) u w → HasEdge edges u w := by
      rintro u w ⟨edge, hedge, hsource, htarget⟩
      exact ⟨edge, mem_of_mem_firstEdges hedge, hsource, htarget⟩
    exact ⟨v, Relation.TransGen.mono hsub v v hv⟩

/-- **The two agree exactly if** the definition has no cycle, or passes the server's first checks
and a cycle is left of the edges that the browser keeps, or neither. -/
theorem cycles_agree_iff (enterprise : Enterprise) (ranging : RangeIds) (label : String → String)
    (hknown : EndpointsKnown definition.nodes definition.edges) :
    (ReportsCycle (validatePipeline (definition.nodes.map (pNode label)) definition.edges) ↔
        Api.validatePipeline enterprise ranging definition = .error .cycle) ↔
      (Cyclic (HasEdge definition.edges) → (PassesFirst definition ↔ LeavesCycle definition.edges)) := by
  have hids : (definition.nodes.map (pNode label)).map PNode.id = definition.nodes.map Node.id := by
    rw [List.map_map]
    rfl
  rw [reportsCycle_iff (by rw [hids]; exact hknown), rejected_as_cyclic_iff hknown]
  by_cases hcyclic : Cyclic (HasEdge definition.edges)
  · rw [and_iff_left hcyclic, forall_prop_of_true hcyclic]
    exact Iff.comm
  · have hleaves : ¬ LeavesCycle definition.edges := mt cyclic_of_leavesCycle hcyclic
    simp [hcyclic, hleaves]

end agreement

/-! ## A cycle that is seen, and one that is not -/

/-- A node with an id. -/
def mapNode (id : String) : Node where
  id := id
  type := .transform
  activityType := "transform.map"

/-- Two nodes that wait for each other, one of the edges doubled. -/
def loopDefinition : PipelineDefinition where
  name := "loop"
  triggerType := "manual"
  nodes := [mapNode "a", mapNode "b"]
  edges := [{ id := "e1", source := "a", target := "b" }, { id := "e2", source := "a", target := "b" },
    { id := "e3", source := "b", target := "a" }]

/-- A build in which every SQL text is accepted. -/
def anyEnterprise : Enterprise := ⟨fun _ => .ok (), fun _ _ => .ok (), fun _ => .ok ()⟩

/-- Maps are visited in the order of their keys. -/
def inOrder : RangeIds := ⟨id, .refl⟩

/-- Both sides see the loop. -/
theorem cycles_agree_iff_loop :
    ReportsCycle (validatePipeline (loopDefinition.nodes.map (pNode id)) loopDefinition.edges) ↔
      Api.validatePipeline anyEnterprise inOrder loopDefinition = .error .cycle := by
  have hknown : EndpointsKnown loopDefinition.nodes loopDefinition.edges := by
    unfold EndpointsKnown
    decide
  refine (cycles_agree_iff anyEnterprise inOrder id hknown).mpr fun _ => iff_of_true ⟨rfl, ["a", "b"], rfl⟩ ?_
  exact .inr ⟨"a", .tail (.single ⟨_, .head _, rfl, rfl⟩) ⟨_, .tail _ (.head _), rfl, rfl⟩⟩

/-- Two edges have the text `a→b→c`; the second one is on a cycle. -/
def arrowDefinition : PipelineDefinition where
  name := "arrows"
  triggerType := "manual"
  nodes := [mapNode "a", mapNode "b→c", mapNode "a→b", mapNode "c"]
  edges := [{ id := "e1", source := "a", target := "b→c" }, { id := "e2", source := "a→b", target := "c" },
    { id := "e3", source := "c", target := "a→b" }]

theorem endpointsKnown_arrowDefinition :
    EndpointsKnown arrowDefinition.nodes arrowDefinition.edges := by
  unfold EndpointsKnown
  decide

theorem passesFirst_arrowDefinition : PassesFirst arrowDefinition :=
  ⟨rfl, ["a", "b→c", "a→b", "c"], rfl⟩

/-- **The browser does not see the cycle that the server rejects.** -/
theorem arrow_in_id : (arrowDefinition.nodes.map Node.id).Nodup ∧
    EndpointsKnown arrowDefinition.nodes arrowDefinition.edges ∧
      ¬ ReportsCycle (validatePipeline (arrowDefinition.nodes.map (pNode id)) arrowDefinition.edges) ∧
      ∀ enterprise ranging, Api.validatePipeline enterprise ranging arrowDefinition = .error .cycle := by
  refine ⟨by decide, endpointsKnown_arrowDefinition, ?_, ?_⟩
  · intro hreports
    have hnone :
        ((validatePipeline (arrowDefinition.nodes.map (pNode id)) arrowDefinition.edges).all fun err =>
        err.type ≠ "CYCLE" ∧ err.type ≠ "SELF_LOOP") = true := by decide
    obtain ⟨err, herr, hcycle⟩ := hreports
    have hother := of_decide_eq_true (List.all_eq_true.mp hnone err herr)
    exact hcycle.elim hother.1 hother.2
  · intro enterprise ranging
    refine (rejected_as_cyclic_iff endpointsKnown_arrowDefinition).mpr ⟨passesFirst_arrowDefinition, "c", ?_⟩
    exact .tail (.single ⟨_, .tail _ (.tail _ (.head _)), rfl, rfl⟩) ⟨_, .tail _ (.head _), rfl, rfl⟩

end Dataflow.Web
