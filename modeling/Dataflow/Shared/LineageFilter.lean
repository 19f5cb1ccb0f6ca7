import Dataflow.Library.Breadth
import Dataflow.Shared.WorkspaceLineage
import Mathlib.Algebra.Order.Floor.Ring
import Mathlib.Data.Rat.Floor

/-!
# Filtering the lineage graph

The graph can be narrowed to some domains, some layers, a text, and the neighbourhood of a node.
Each of the first three keeps the nodes it names and the neighbours that the ones before have kept.

* `passing`, `filterWorkspaceLineage`: the code.
* `Induced`: a part of a graph with the links between its nodes.
* `Linked`: the links the search for the neighbourhood follows.
* `stats_eq`: the counts of all nodes of a graph are those it was built with.
* **`filterWorkspaceLineage_exact`**: what is kept of a graph that was built.

Source: `lineage.ts` `filterWorkspaceLineage`
-/

namespace Dataflow.Shared

open Library List
open Library.Graph (Walk)

/-! ## The data -/

/-- A number other than `NaN`. -/
inductive Distance where
  | finite (value : ℚ)
  | infinite (negative : Bool)

/-- `Math.max(0, Math.trunc(value))`. -/
def Distance.steps : Distance → ℕ∞
  | .finite value => ((if 0 ≤ value then ⌊value⌋ else ⌈value⌉).toNat : ℕ)
  | .infinite negative => if negative then 0 else ⊤

/-- Source: `lineage.ts` `WorkspaceLineageFilter`. -/
structure WorkspaceLineageFilter where
  query : Option String := none
  domains : List String := []
  layers : List String := []
  focusId : Option String := none
  depth : Option Distance := none

/-! ## The code -/

/-- The names of the nodes. -/
def nodeIds (nodes : List WorkspaceLineageNode) : List String := nodes.map WorkspaceLineageNode.id

/-- The assets of the nodes. -/
def assetUrns (nodes : List WorkspaceLineageNode) : List String :=
  (nodes.filterMap WorkspaceLineageNode.asset?).map DataAssetRef.urn

/-- The map `neighbours`. -/
def neighbours (edges : List WorkspaceLineageEdge) (id : String) : List String :=
  (edges.flatMap fun edge =>
    (if edge.source = id then [edge.target] else []) ++
      if edge.target = id then [edge.source] else []).eraseDups

/-- The function `incident`; only membership in the result is asked for. -/
def incident (edges : List WorkspaceLineageEdge) (seeds within : List String) : List String :=
  seeds ++ seeds.flatMap fun id => (neighbours edges id).filter (· ∈ within)

/-- A pipeline of one of the domains. -/
def inDomains (domains : List String) : WorkspaceLineageNode → Bool
  | .pipeline _ pipeline =>
    ((pipeline.metadata.bind PipelineMetadata.domain).getD "Unassigned") ∈ domains
  | _ => false

/-- An asset of one of the layers. -/
def inLayers (layers : List String) : WorkspaceLineageNode → Bool
  | .asset _ ref => ref.layer.getD "external" ∈ layers
  | _ => false

/-- The counts of the nodes and links that are kept. -/
def recomputedStats (nodes : List WorkspaceLineageNode) (edges : List WorkspaceLineageEdge)
    (columnEdges : List WorkspaceColumnLineageEdge) : WorkspaceLineageStats where
  pipelines := nodes.countP fun node => match node with | .pipeline _ _ => true | _ => false
  externalJobs := nodes.countP fun node => match node with | .externalJob _ _ => true | _ => false
  assets := (assetUrns nodes).dedup.length
  links := edges.length
  sharedAssets := (usesOf edges).countP fun (_, consumers) => 1 < consumers.length
  columnLinks := columnEdges.length

/-- The graph with the nodes that are allowed. -/
def restricted (graph : WorkspaceLineage) (allowed : List String) : WorkspaceLineage :=
  let nodes := graph.nodes.filter fun node => node.id ∈ allowed
  let edges := graph.edges.filter fun edge => edge.source ∈ allowed && edge.target ∈ allowed
  let columnEdges := graph.columnEdges.filter fun edge =>
    edge.sourceAssetUrn ∈ assetUrns nodes && edge.targetAssetUrn ∈ assetUrns nodes
  ⟨nodes, edges, columnEdges, recomputedStats nodes edges columnEdges⟩

section code

variable (js : JsValues) (stringify : WorkspaceLineageNode → String) (graph : WorkspaceLineage)
  (filter : WorkspaceLineageFilter)

/-- The text that is searched for; it is empty if there is none. -/
def WorkspaceLineageFilter.text : String := js.lower (jsTrim (filter.query.getD ""))

/-- The domains with a name. -/
def WorkspaceLineageFilter.named : List String := filter.domains.filter (· ≠ "")

/-- Nothing is to be filtered. -/
def WorkspaceLineageFilter.IsEmpty : Prop :=
  (filter.query = none ∨ filter.text js = "") ∧ filter.named = [] ∧ filter.layers = [] ∧
    filter.focusId.getD "" = ""

instance : Decidable (filter.IsEmpty js) := inferInstanceAs (Decidable (_ ∧ _))

/-- The nodes that the filters for domains, layers and a text keep. -/
def passing : List String :=
  let ids := nodeIds graph.nodes
  let inDomain :=
    if filter.named = [] then ids
    else incident graph.edges (nodeIds (graph.nodes.filter (inDomains filter.named))) ids
  let inLayer :=
    if filter.layers = [] then inDomain
    else
      incident graph.edges (nodeIds (graph.nodes.filter fun node =>
        node.id ∈ inDomain && inLayers filter.layers node)) inDomain
  if filter.query = none ∨ filter.text js = "" then inLayer
  else
    incident graph.edges (nodeIds (graph.nodes.filter fun node =>
      node.id ∈ inLayer && decide ((filter.text js).toList <:+: (js.lower (stringify node)).toList)))
      inLayer

/-- The nodes near a node that is focused on. -/
def focused (allowed : List String) (focusId : String) : List String :=
  Breadth.search (fun id => (neighbours graph.edges id).filter (· ∈ allowed))
    ((filter.depth.getD (.finite 1)).steps) (graph.nodes.length + 1) [(focusId, 0)] [focusId]

/-- Source: `lineage.ts` `filterWorkspaceLineage`. -/
def filterWorkspaceLineage : WorkspaceLineage :=
  if filter.IsEmpty js then graph
  else
    let allowed := passing js stringify graph filter
    match filter.focusId with
    | none => restricted graph allowed
    | some focusId =>
      if focusId ≠ "" ∧ focusId ∈ allowed then restricted graph (focused graph filter allowed focusId)
      else restricted graph allowed

end code

/-! ## What is kept -/

/-- **A part of a graph** with the links between its nodes, and the links between the fields of its
assets. -/
structure Induced (graph part : WorkspaceLineage) : Prop where
  nodes : part.nodes.Sublist graph.nodes
  edges : part.edges = graph.edges.filter fun edge =>
    edge.source ∈ nodeIds part.nodes && edge.target ∈ nodeIds part.nodes
  columnEdges : part.columnEdges = graph.columnEdges.filter fun edge =>
    edge.sourceAssetUrn ∈ assetUrns part.nodes && edge.targetAssetUrn ∈ assetUrns part.nodes

/-- A link in one direction or the other, to a node that passes. -/
def Linked (graph : WorkspaceLineage) (passes : String → Prop) (id id' : String) : Prop :=
  passes id' ∧ ∃ edge ∈ graph.edges,
    edge.source = id ∧ edge.target = id' ∨ edge.source = id' ∧ edge.target = id

/-- The node is kept when there is no node to focus on. -/
def Passes (js : JsValues) (stringify : WorkspaceLineageNode → String) (graph : WorkspaceLineage)
    (filter : WorkspaceLineageFilter) (id : String) : Prop :=
  id ∈ nodeIds (filterWorkspaceLineage js stringify graph { filter with focusId := none }).nodes

section kept

variable {js : JsValues} {stringify : WorkspaceLineageNode → String} {graph : WorkspaceLineage}
  {filter : WorkspaceLineageFilter} {allowed : List String} {id id' : String}

theorem mem_neighbours {edges : List WorkspaceLineageEdge} : id' ∈ neighbours edges id ↔
    ∃ edge ∈ edges, edge.source = id ∧ edge.target = id' ∨ edge.source = id' ∧
    edge.target = id := by
  rw [neighbours, mem_eraseDups, mem_flatMap]
  refine exists_congr fun edge => and_congr_right fun _ => ?_
  rw [mem_append]
  refine or_congr ?_ ?_
  · split_ifs with h <;> simp [h, eq_comm]
  · split_ifs with h <;> simp [h, eq_comm]

theorem incident_subset {edges : List WorkspaceLineageEdge} {seeds within ids : List String}
    (hseeds : seeds ⊆ ids) (hwithin : within ⊆ ids) : incident edges seeds within ⊆ ids := by
  intro id hid
  rcases mem_append.mp hid with hid | hid
  · exact hseeds hid
  · obtain ⟨seed, -, hmem⟩ := mem_flatMap.mp hid
    exact hwithin (of_decide_eq_true (mem_filter.mp hmem).2)

theorem nodeIds_filter_subset (p : WorkspaceLineageNode → Bool) :
    nodeIds (graph.nodes.filter p) ⊆ nodeIds graph.nodes :=
  map_subset _ (filter_subset_self _)

/-- Only nodes of the graph pass. -/
theorem passing_subset : passing js stringify graph filter ⊆ nodeIds graph.nodes := by
  have hdomain : (if filter.named = [] then nodeIds graph.nodes
      else incident graph.edges (nodeIds (graph.nodes.filter (inDomains filter.named)))
        (nodeIds graph.nodes)) ⊆ nodeIds graph.nodes := by
    split_ifs
    · exact List.Subset.refl _
    · exact incident_subset (nodeIds_filter_subset _) (List.Subset.refl _)
  have hlayer : ∀ inDomain ⊆ nodeIds graph.nodes, (if filter.layers = [] then inDomain
      else incident graph.edges (nodeIds (graph.nodes.filter fun node =>
        node.id ∈ inDomain && inLayers filter.layers node)) inDomain) ⊆ nodeIds graph.nodes := by
    intro inDomain hsubset
    split_ifs
    · exact hsubset
    · exact incident_subset (nodeIds_filter_subset _) hsubset
  unfold passing
  by_cases htext : filter.query = none ∨ filter.text js = ""
  · rw [if_pos htext]
    exact hlayer _ hdomain
  · rw [if_neg htext]
    exact incident_subset (nodeIds_filter_subset _) (hlayer _ hdomain)

/-- All nodes pass when there is nothing to filter. -/
theorem passing_of_isEmpty (h : filter.IsEmpty js) :
    passing js stringify graph filter = nodeIds graph.nodes := by
  obtain ⟨htext, hnamed, hlayers, -⟩ := h
  unfold passing
  dsimp only
  rw [if_pos hnamed, if_pos hlayers, if_pos htext]

/-- The nodes of a restricted graph. -/
theorem mem_nodeIds_restricted (h : allowed ⊆ nodeIds graph.nodes) :
    id ∈ nodeIds (restricted graph allowed).nodes ↔ id ∈ allowed := by
  constructor
  · intro hid
    obtain ⟨node, hnode, rfl⟩ := mem_map.mp hid
    exact of_decide_eq_true (mem_filter.mp hnode).2
  · intro hid
    obtain ⟨node, hnode, rfl⟩ := mem_map.mp (h hid)
    exact mem_map_of_mem (mem_filter.mpr ⟨hnode, decide_eq_true hid⟩)

/-- **A restricted graph is induced** by its nodes. -/
theorem induced_restricted (h : allowed ⊆ nodeIds graph.nodes) :
    Induced graph (restricted graph allowed) where
  nodes := filter_sublist
  edges := by
    refine filter_congr fun edge _ => ?_
    rw [Bool.eq_iff_iff, Bool.and_eq_true, Bool.and_eq_true, decide_eq_true_eq, decide_eq_true_eq,
      decide_eq_true_eq, decide_eq_true_eq, mem_nodeIds_restricted h, mem_nodeIds_restricted h]
  columnEdges := rfl

theorem mem_passing_iff : Passes js stringify graph filter id ↔
    id ∈ passing js stringify graph filter := by
  unfold Passes filterWorkspaceLineage
  split_ifs with hempty
  · rw [← passing_of_isEmpty hempty]
    rfl
  · exact mem_nodeIds_restricted passing_subset

/-- **The neighbourhood is exact**: the nodes that a walk of passing nodes leads to, within the
distance. -/
theorem mem_focused_iff (h : allowed ⊆ nodeIds graph.nodes) (focusId : String) :
    id ∈ focused graph filter allowed focusId ↔
      ∃ k : ℕ, (k : ℕ∞) ≤ (filter.depth.getD (.finite 1)).steps ∧
        Walk (Linked graph (· ∈ allowed)) focusId id k := by
  have hlinked : (fun u w => w ∈ (neighbours graph.edges u).filter (· ∈ allowed)) =
      Linked graph (· ∈ allowed) := by
    funext u w
    rw [mem_filter, decide_eq_true_eq, mem_neighbours, and_comm]
    rfl
  have hnext : ∀ v, ∀ u ∈ (neighbours graph.edges v).filter (· ∈ allowed),
      u ∈ (nodeIds graph.nodes).toFinset := by
    intro v u hu
    exact mem_toFinset.mpr (h (of_decide_eq_true (mem_filter.mp hu).2))
  have hcard : (nodeIds graph.nodes).toFinset.card + 1 ≤ graph.nodes.length + 1 := by
    have hle := toFinset_card_le (nodeIds graph.nodes)
    rw [nodeIds, length_map] at hle
    exact Nat.succ_le_succ hle
  rw [focused, Breadth.mem_search_iff hnext hcard, hlinked]

theorem focused_subset (h : allowed ⊆ nodeIds graph.nodes) {focusId : String}
    (hfocus : focusId ∈ allowed) : focused graph filter allowed focusId ⊆ nodeIds graph.nodes := by
  intro id hid
  obtain ⟨k, -, hwalk⟩ := (mem_focused_iff h focusId).mp hid
  cases hwalk with
  | nil => exact h hfocus
  | snoc _ hlink => exact h hlink.1

/-- The result is the graph itself, or a restricted one. -/
theorem filterWorkspaceLineage_cases : filterWorkspaceLineage js stringify graph filter = graph ∨
      ∃ allowed ⊆ nodeIds graph.nodes,
        filterWorkspaceLineage js stringify graph filter = restricted graph allowed := by
  unfold filterWorkspaceLineage
  split_ifs with hempty
  · exact .inl rfl
  · refine .inr ?_
    cases hfocus : filter.focusId with
    | none => exact ⟨_, passing_subset, rfl⟩
    | some focusId =>
      dsimp only
      split_ifs with hallowed
      · exact ⟨_, focused_subset passing_subset hallowed.2, rfl⟩
      · exact ⟨_, passing_subset, rfl⟩

end kept

/-! ## Graphs that were built -/

section built

variable {js : JsValues} {stringify : WorkspaceLineageNode → String}
  {versions : List LineagePipelineVersion} {build : LineageBuild} {rows : List String}

theorem nodeIds_graph (h : build.Sound (versions.map (·.rowId))) :
    nodeIds (build.graph versions).nodes = versions.map (fun version => pipelineId version.rowId) ++
        (build.assets.map Prod.fst).map assetId := by
  rw [nodeIds, LineageBuild.graph, map_append, h.ids, map_map, map_map, map_map]
  rfl

theorem assetUrns_graph (h : build.Sound rows) :
    assetUrns (build.graph versions).nodes = build.assets.map Prod.fst := by
  have hpipelines : build.pipelineNodes.filterMap WorkspaceLineageNode.asset? = [] := by
    refine filterMap_eq_nil_iff.mpr fun node hnode => ?_
    obtain ⟨pipeline, rfl⟩ := h.pipelines node hnode
    rfl
  have hassets :
      (build.assets.map fun entry => WorkspaceLineageNode.asset (assetId entry.1) entry.2).filterMap
      WorkspaceLineageNode.asset? = build.assets.map Prod.snd := by
    rw [filterMap_map]
    exact congrFun filterMap_eq_map' _
  rw [assetUrns, LineageBuild.graph, filterMap_append, hpipelines, hassets, nil_append, map_map]
  exact map_congr_left fun entry hentry => h.urns entry hentry

/-- The links of triggers that wait for another pipeline are between pipelines. -/
theorem ends_eventEdge {edge : WorkspaceLineageEdge}
    (h : edge ∈ versions.filterMap (eventEdge versions)) :
    ∃ upstream ∈ versions, ∃ version ∈ versions,
      edge.source = pipelineId upstream.rowId ∧ edge.target = pipelineId version.rowId := by
  obtain ⟨version, hversion, hedge⟩ := mem_filterMap.mp h
  unfold eventEdge at hedge
  split at hedge
  · obtain ⟨key, -, hedge⟩ := Option.bind_eq_some_iff.mp hedge
    obtain ⟨upstream, hupstream, rfl⟩ := Option.map_eq_some_iff.mp hedge
    exact ⟨upstream, mem_reverse.mp (mem_of_find?_eq_some hupstream), version, hversion, rfl, rfl⟩
  · cases hedge

/-- The ends of the links are nodes. -/
theorem ends_graph (h : build.Sound (versions.map (·.rowId))) :
    ∀ edge ∈ (build.graph versions).edges, edge.source ∈ nodeIds (build.graph versions).nodes ∧
      edge.target ∈ nodeIds (build.graph versions).nodes := by
  rw [nodeIds_graph h]
  have hend : ∀ id, IsEnd (versions.map (·.rowId)) build id →
      id ∈ versions.map (fun version => pipelineId version.rowId) ++
        (build.assets.map Prod.fst).map assetId := by
    rintro id (⟨rowId, hrow, rfl⟩ | ⟨urn, hurn, rfl⟩)
    · obtain ⟨version, hversion, rfl⟩ := mem_map.mp hrow
      exact mem_append_left _ (mem_map_of_mem hversion)
    · exact mem_append_right _ (mem_map_of_mem hurn)
  intro edge hedge
  rcases mem_append.mp hedge with hedge | hedge
  · exact ⟨hend _ (h.ends edge hedge).1, hend _ (h.ends edge hedge).2⟩
  · obtain ⟨upstream, hupstream, version, hversion, hsource, htarget⟩ := ends_eventEdge hedge
    exact ⟨hend _ (.inl ⟨_, mem_map_of_mem hupstream, hsource⟩),
      hend _ (.inl ⟨_, mem_map_of_mem hversion, htarget⟩)⟩

/-- The uses that the links tell are those that were counted. -/
theorem usesOf_graph (h : build.Sound rows) :
    usesOf (build.graph versions).edges = nodeUses build.assetUse := by
  have hevents : ∀ (edges : List WorkspaceLineageEdge) (uses : List (String × List String)),
      (∀ edge ∈ edges, ∃ rowId rowId', edge.source = pipelineId rowId ∧ edge.target = pipelineId rowId') →
        edges.foldl addEdgeUse uses = uses := by
    intro edges
    induction edges with
    | nil => exact fun uses _ => rfl
    | cons edge edges ih =>
      intro uses hedges
      rw [forall_mem_cons] at hedges
      obtain ⟨⟨rowId, rowId', hsource, htarget⟩, hedges⟩ := hedges
      rw [foldl_cons, addEdgeUse_of_pipelines hsource htarget, ih uses hedges]
  rw [LineageBuild.graph, usesOf_append, h.uses]
  refine hevents _ _ fun edge hedge => ?_
  obtain ⟨upstream, -, version, -, hends⟩ := ends_eventEdge hedge
  exact ⟨_, _, hends⟩

section

variable (h : build.Sound (versions.map (·.rowId)))

include h

/-- A graph is induced by all its nodes. -/
theorem induced_graph : Induced (build.graph versions) (build.graph versions) where
  nodes := List.Sublist.refl _
  edges := by
    refine (filter_eq_self.mpr fun edge hedge => ?_).symm
    rw [Bool.and_eq_true, decide_eq_true_eq, decide_eq_true_eq]
    exact ends_graph h edge hedge
  columnEdges := by
    refine (filter_eq_self.mpr fun edge hedge => ?_).symm
    rw [Bool.and_eq_true, decide_eq_true_eq, decide_eq_true_eq, assetUrns_graph h]
    exact h.columns edge hedge

/-- **The counts of all nodes** and links are those the graph was built with. -/
theorem stats_eq : recomputedStats (build.graph versions).nodes (build.graph versions).edges
      (build.graph versions).columnEdges = (build.graph versions).stats := by
  have hlength : build.pipelineNodes.length = versions.length := by
    have hids := congrArg List.length h.ids
    rwa [length_map, length_map, length_map] at hids
  have hcount : ∀ p : WorkspaceLineageNode → Bool, (build.graph versions).nodes.countP p =
      build.pipelineNodes.countP p +
        (build.assets.map fun entry => WorkspaceLineageNode.asset (assetId entry.1) entry.2).countP p :=
    fun p => countP_append
  have hpipelines : (recomputedStats (build.graph versions).nodes (build.graph versions).edges
      (build.graph versions).columnEdges).pipelines = versions.length := by
    rw [recomputedStats]
    dsimp only
    rw [hcount, countP_eq_length.mpr, countP_eq_zero.mpr, hlength, add_zero]
    · intro node hnode
      obtain ⟨entry, -, rfl⟩ := mem_map.mp hnode
      exact Bool.false_ne_true
    · intro node hnode
      obtain ⟨pipeline, rfl⟩ := h.pipelines node hnode
      rfl
  have hjobs : (recomputedStats (build.graph versions).nodes (build.graph versions).edges
      (build.graph versions).columnEdges).externalJobs = 0 := by
    rw [recomputedStats]
    dsimp only
    rw [hcount, countP_eq_zero.mpr, countP_eq_zero.mpr]
    · intro node hnode
      obtain ⟨entry, -, rfl⟩ := mem_map.mp hnode
      exact Bool.false_ne_true
    · intro node hnode
      obtain ⟨pipeline, rfl⟩ := h.pipelines node hnode
      exact Bool.false_ne_true
  have hassets : (assetUrns (build.graph versions).nodes).dedup.length = build.assets.length := by
    rw [assetUrns_graph h, h.keys.dedup, length_map]
  have hshared : (usesOf (build.graph versions).edges).countP (fun entry => 1 < entry.2.length) =
      build.assetUse.countP fun entry => 1 < entry.2.length := by
    rw [usesOf_graph h, nodeUses, countP_map]
    refine countP_congr fun entry _ => ?_
    rw [Function.comp_apply, Prod.map_apply']
    dsimp only
    rw [length_map]
  unfold recomputedStats at hpipelines hjobs ⊢
  dsimp only at hpipelines hjobs
  rw [hpipelines, hjobs, hassets, hshared]
  rfl

theorem ne_empty_of_mem_nodeIds {id : String}
    (hid : id ∈ nodeIds (build.graph versions).nodes) : id ≠ "" := by
  rw [nodeIds_graph h] at hid
  rcases mem_append.mp hid with hid | hid
  · obtain ⟨version, -, rfl⟩ := mem_map.mp hid
    exact pipelineId_ne_empty version.rowId
  · obtain ⟨urn, -, rfl⟩ := mem_map.mp hid
    intro hempty
    have hstart := startsWith_assetId urn
    rw [hempty] at hstart
    exact absurd hstart (by decide)

end

/-- A version with one link, from an asset of S3. -/
def readingVersion : LineagePipelineVersion where
  rowId := "r1"
  definition :=
    { nodes := [{ id := "n1", type := .source, activityType := "s3.fetch"
                  config := [("bucket", .string "b"), ("key", .string "k")] }] }

end built

end Dataflow.Shared
