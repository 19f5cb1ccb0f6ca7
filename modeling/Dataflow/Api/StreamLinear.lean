import Dataflow.Api.PipelineValidation
import Dataflow.Library.Chains
import Dataflow.Workflows.BuildPlan

/-!
# What `validateStreamDirect` takes for a linear pipeline

The check of the engine `stream-direct` counts: one source, one sink, one edge less than nodes. It
does not look where the edges are.

* `Linear`: the nodes are one path from the source to the sink, and the edges are those of the
  path.
* `Counted`: what the check counts; `Joined`: every node but the source has an edge into it, and
  every node but the sink has an edge out of it.
* `linear_of_counted`: in an acyclic graph both together make a path.
* **`stream_linear_iff`**: the check accepts exactly the linear definitions iff what it counts is
  joined.
* `sideBranch_accepted`: a definition that is accepted, where a node has no way to the sink.

Source: `pipeline_validation.go`
-/

namespace Dataflow.Api

open Library Library.Chains Library.Graph Model Workflows List

section linear

variable {definition : PipelineDefinition} {path : List String}

/-- The edges as pairs of ids. -/
def endpoints (definition : PipelineDefinition) : List (String × String) :=
  definition.edges.map fun edge => (edge.source, edge.target)

/-- **The nodes form one path** from the single source to the single sink, with one edge between
consecutive nodes and no other edge. -/
structure Linear (definition : PipelineDefinition) (path : List String) : Prop where
  nodes : path.Perm (definition.nodes.map Node.id)
  edges : (endpoints definition).Perm (pairs path)
  oneSource : countType definition.nodes .source = 1
  oneSink : countType definition.nodes .sink = 1
  starts : ∃ node ∈ definition.nodes, node.type = .source ∧ path.head? = some node.id
  ends : ∃ node ∈ definition.nodes, node.type = .sink ∧ path.getLast? = some node.id

/-- One source, one sink, one edge less than nodes. -/
def Counted (definition : PipelineDefinition) : Prop :=
  countType definition.nodes .source = 1 ∧ countType definition.nodes .sink = 1 ∧
    (definition.edges.length : ℤ) = definition.nodes.length - 1

/-- Every node but a source has an edge into it, and every node but a sink has an edge out of it. -/
def Joined (definition : PipelineDefinition) : Prop :=
  ∀ node ∈ definition.nodes,
    (node.type ≠ .source → ∃ edge ∈ definition.edges, edge.target = node.id) ∧
    (node.type ≠ .sink → ∃ edge ∈ definition.edges, edge.source = node.id)

instance (definition : PipelineDefinition) : Decidable (Joined definition) :=
  inferInstanceAs (Decidable (∀ node ∈ definition.nodes, _))

/-- The check, where the activities are allowed. -/
theorem validateStreamDirect_eq_ok_iff
    (hallowed : ∀ node ∈ definition.nodes, node.activityType ∈ streamActivities) :
    validateStreamDirect definition = .ok () ↔ Counted definition := by
  have hnone : (definition.nodes.find? fun node => node.activityType ∉ streamActivities) =
      none := by
    rw [find?_eq_none]
    simpa using hallowed
  unfold validateStreamDirect Counted
  rw [hnone]
  split_ifs with hcount
  · refine iff_of_false nofun ?_
    rintro ⟨hsource, hsink, hedges⟩
    rcases hcount with h | h | h
    · exact h hsource
    · exact h hsink
    · exact h hedges
  · push Not at hcount
    exact iff_of_true rfl hcount

theorem mem_endpoints {u v : String} : (u, v) ∈ endpoints definition ↔
    ∃ edge ∈ definition.edges, edge.source = u ∧ edge.target = v := by
  simp [endpoints]

/-- The one node of a type. -/
theorem exists_of_countType {nodes : List Node} {type : NodeType} (h : countType nodes type = 1) :
    ∃ node ∈ nodes, node.type = type ∧ ∀ other ∈ nodes, other.type = type → other = node := by
  have hlength : (nodes.filter fun node => node.type = type).length = 1 := by
    rw [← countP_eq_length_filter]
    exact h
  obtain ⟨node, hnode⟩ := length_eq_one_iff.mp hlength
  have hmem : ∀ other, other ∈ nodes ∧ other.type = type ↔ other = node := by
    intro other
    have hfilter : other ∈ (nodes.filter fun node => node.type = type) ↔ other = node := by
      rw [hnode]
      exact mem_singleton
    rw [← hfilter, mem_filter, decide_eq_true_iff]
  obtain ⟨hnode, htype⟩ := (hmem node).mpr rfl
  exact ⟨node, hnode, htype, fun other hother h => (hmem other).mp ⟨hother, h⟩⟩

/-- **A path has what the check counts.** -/
theorem Linear.counted (h : Linear definition path) : Counted definition := by
  refine ⟨h.oneSource, h.oneSink, ?_⟩
  have hedges := h.edges.length_eq
  have hnodes := h.nodes.length_eq
  rw [length_pairs, endpoints, length_map] at hedges
  rw [length_map] at hnodes
  obtain ⟨node, hnode, -, -⟩ := h.starts
  have := length_pos_of_mem hnode
  omega

/-- **The nodes of a path are joined.** -/
theorem Linear.joined (hids : (definition.nodes.map Node.id).Nodup) (h : Linear definition path) :
    Joined definition := by
  intro node hnode
  have hmem : node.id ∈ path := h.nodes.mem_iff.mpr (mem_map_of_mem hnode)
  constructor
  · intro htype
    have hhead : path.head? ≠ some node.id := by
      obtain ⟨source, hsource, hsourceType, hhead⟩ := h.starts
      rw [hhead]
      intro heq
      have := inj_on_of_nodup_map hids hsource hnode (Option.some.inj heq)
      exact htype (this ▸ hsourceType)
    obtain ⟨u, hu⟩ := exists_mem_pairs_left hmem hhead
    obtain ⟨edge, hedge, -, htarget⟩ := mem_endpoints.mp (h.edges.mem_iff.mpr hu)
    exact ⟨edge, hedge, htarget⟩
  · intro htype
    have hlast : path.getLast? ≠ some node.id := by
      obtain ⟨sink, hsink, hsinkType, hlast⟩ := h.ends
      rw [hlast]
      intro heq
      have := inj_on_of_nodup_map hids hsink hnode (Option.some.inj heq)
      exact htype (this ▸ hsinkType)
    obtain ⟨v, hv⟩ := exists_mem_pairs_right hmem hlast
    obtain ⟨edge, hedge, hsource, -⟩ := mem_endpoints.mp (h.edges.mem_iff.mpr hv)
    exact ⟨edge, hedge, hsource⟩

/-- **What is counted and joined is a path**, where the edges have no cycle. -/
theorem linear_of_counted (hids : (definition.nodes.map Node.id).Nodup)
    (hknown : EndpointsKnown definition.nodes definition.edges)
    (hacyclic : ¬ Cyclic (HasEdge definition.edges)) (hcounted : Counted definition)
    (hjoined : Joined definition) : ∃ path, Linear definition path := by
  obtain ⟨hsources, hsinks, hedges⟩ := hcounted
  obtain ⟨source, hsource, hsourceType, honly⟩ := exists_of_countType hsources
  obtain ⟨sink, hsink, hsinkType, honly'⟩ := exists_of_countType hsinks
  have hjoins : Joins (endpoints definition) = HasEdge definition.edges := by
    funext u v
    exact propext mem_endpoints
  have hin : ∀ v ∈ definition.nodes.map Node.id, v ≠ source.id →
      ∃ u, (u, v) ∈ endpoints definition := by
    intro v hv hne
    obtain ⟨node, hnode, rfl⟩ := mem_map.mp hv
    obtain ⟨edge, hedge, htarget⟩ := (hjoined node hnode).1 fun htype =>
      hne (congrArg Node.id (honly node hnode htype))
    exact ⟨edge.source, mem_endpoints.mpr ⟨edge, hedge, rfl, htarget⟩⟩
  have hout : ∀ v ∈ definition.nodes.map Node.id, v ≠ sink.id →
      ∃ w, (v, w) ∈ endpoints definition := by
    intro v hv hne
    obtain ⟨node, hnode, rfl⟩ := mem_map.mp hv
    obtain ⟨edge, hedge, hedgeSource⟩ := (hjoined node hnode).2 fun htype =>
      hne (congrArg Node.id (honly' node hnode htype))
    exact ⟨edge.target, mem_endpoints.mpr ⟨edge, hedge, hedgeSource, rfl⟩⟩
  have hends : ∀ e ∈ endpoints definition,
      e.1 ∈ definition.nodes.map Node.id ∧ e.2 ∈ definition.nodes.map Node.id := by
    intro e he
    obtain ⟨edge, hedge, rfl⟩ := mem_map.mp he
    exact hknown edge hedge
  have hcount : (endpoints definition).length + 1 = (definition.nodes.map Node.id).length := by
    rw [endpoints, length_map, length_map]
    omega
  obtain ⟨path, hperm, hhead, hlast, hpairs⟩ := exists_chain hids (mem_map_of_mem hsource)
    (mem_map_of_mem hsink) hends (hjoins ▸ hacyclic) hcount hin hout
  exact ⟨path, hperm, hpairs, hsources, hsinks, ⟨source, hsource, hsourceType, hhead⟩,
    sink, hsink, hsinkType, hlast⟩

end linear

/-! ## The check -/

/-- **The check accepts exactly the linear definitions iff what it counts is joined.** -/
theorem stream_linear_iff (definition : PipelineDefinition)
    (hids : (definition.nodes.map Node.id).Nodup)
    (hknown : EndpointsKnown definition.nodes definition.edges)
    (hacyclic : ¬ Cyclic (HasEdge definition.edges))
    (hallowed : ∀ node ∈ definition.nodes, node.activityType ∈ streamActivities) :
    (validateStreamDirect definition = .ok () ↔ ∃ path, Linear definition path) ↔
      (Counted definition → Joined definition) := by
  rw [validateStreamDirect_eq_ok_iff hallowed]
  constructor
  · intro h hcounted
    obtain ⟨path, hlinear⟩ := h.mp hcounted
    exact hlinear.joined hids
  · intro hjoined
    constructor
    · exact fun hcounted => linear_of_counted hids hknown hacyclic hcounted (hjoined hcounted)
    · rintro ⟨path, hlinear⟩
      exact hlinear.counted

/-- A source, a transform and a sink, with an edge to the transform and one to the sink. -/
def threeNodes (next : String) : PipelineDefinition where
  nodes := [{ id := "k", type := .source, activityType := "kafka.fetch" },
    { id := "m", type := .transform, activityType := "transform.map" },
    { id := "s", type := .sink, activityType := "sink.postgres" }]
  edges := [{ source := "k", target := "m" }, { source := next, target := "s" }]

theorem threeNodes_acyclic (next : String) (h : next = "k" ∨ next = "m") :
    ¬ Cyclic (HasEdge (threeNodes next).edges) := by
  refine not_cyclic_of_lt (fun id => if id = "k" then 0 else if id = "m" then 1 else 2) ?_
  rintro u v ⟨edge, hedge, rfl, rfl⟩
  rcases h with rfl | rfl
  · revert edge
    decide
  · revert edge
    decide

/-- The theorem at a pipeline that is joined. -/
theorem stream_linear_iff_threeNodes : Joined (threeNodes "m") ∧
    (validateStreamDirect (threeNodes "m") = .ok () ↔ ∃ path, Linear (threeNodes "m") path) := by
  have hjoined : Joined (threeNodes "m") := by decide
  refine ⟨hjoined, (stream_linear_iff (threeNodes "m") (by decide) ?_ ?_ (by decide)).mpr fun _ => hjoined⟩
  · unfold EndpointsKnown
    decide
  · exact threeNodes_acyclic "m" (.inr rfl)

/-- **A side branch is accepted**: the source has an edge to the transform and one to the sink, and
the transform has none. -/
theorem sideBranch_accepted : ¬ (validateStreamDirect (threeNodes "k") = .ok () ↔
    ∃ path, Linear (threeNodes "k") path) := by
  intro h
  obtain ⟨path, hlinear⟩ := h.mp (by decide)
  have hjoined := hlinear.joined (by decide)
  revert hjoined
  decide

end Dataflow.Api
