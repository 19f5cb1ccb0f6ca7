import Dataflow.Api.ContractExtraction
import Dataflow.Api.StreamLinear
import Dataflow.Model.Sprint
import Dataflow.Model.Unmarshal

/-!
# The lineage of a workspace

The lineage graph has a node for each pipeline and for each asset that a source or a sink names, a
link between both, and the fields that go from an asset to another one. It is built from the newest
version of each pipeline.

* `buildWorkspaceLineage`: the code. It follows one way through the nodes of a pipeline, from the
  first node without an edge into it along the last edge out of each node.
* `OnePath`: the shape the code is made for; `walkNodes_path`: the way then has each node once.
* `Tracks`, `tracks_visitNode`: what holds of the graph while it is built.
* `Exact`: the assets and the links are those the nodes name, as far as their configs have all
  three values.
* **`buildWorkspaceLineage_exact`**: the lineage of pipelines that are paths is exact.
* `second_sink_lost`: a pipeline with two sinks behind one source.

Source: `routes_pipelines.go`
-/

namespace Dataflow.Api

open Library Library.Chains Model List Function Option

/-! ## The data -/

/-- A stored definition with the records about it that the graph shows. -/
structure WorkspaceDefinition extends PipelineDefinition where
  metadata : Option Json := none
  slo : Option Json := none

/-- A row of the query. `id` is its text, and `definition` what the stored definition decodes to. -/
structure LineageRow where
  id : String
  pipelineKey : Json := .null
  name : Json := .null
  version : Json := .null
  status : Json := .null
  environment : Json := .null
  definition : Option WorkspaceDefinition

/-- Source: `routes_pipelines.go` `fieldOrigin`. -/
structure FieldOrigin where
  assetURN : String
  field : String
  fieldType : String
  nullable : Bool
  transformNodeID : String

/-- Source: `routes_pipelines.go` `lineageField`. -/
structure LineageField where
  fieldType : String
  nullable : Bool

/-- The record about a pipeline. -/
structure PipelineItem where
  rowId : String
  pipelineKey : Json
  name : Json
  version : Json
  status : Json
  environment : Json
  metadata : Option Json
  slo : Option Json

/-- What `assetURN` reads from a config. -/
structure NamedAsset where
  urn : String
  namespaceName : String
  name : String
  layer : String
  deriving DecidableEq

/-- The record about an asset. -/
structure AssetItem extends NamedAsset where
  id : String
  platform : String := "s3"
  type : String := "file"
  schema : List (String × LineageField) := []

/-- A node of the graph. -/
inductive LineageNode where
  | pipeline (id : String) (item : PipelineItem)
  | asset (item : AssetItem)

/-- A link between an asset and a pipeline. -/
structure AssetLink where
  id : String
  source : String
  target : String
  pipelineRowId : String
  nodeId : String
  deriving DecidableEq

/-- A link between two fields; `transformNodeId` is empty where it is not set. -/
structure ColumnLink where
  id : String
  pipelineRowId : String
  sourceAssetUrn : String
  sourceField : String
  targetAssetUrn : String
  targetField : String
  transformNodeId : String

/-- The counts of the graph. -/
structure LineageStats where
  pipelines : ℕ
  assets : ℕ
  links : ℕ
  sharedAssets : ℕ
  columnLinks : ℕ
  externalJobs : ℕ

/-- The graph. -/
structure WorkspaceLineage where
  nodes : List LineageNode
  edges : List AssetLink
  columnEdges : List ColumnLink
  stats : LineageStats

/-- The maps and lists that are filled. -/
structure LineageBuild where
  nodes : List LineageNode := []
  edges : List AssetLink := []
  columnEdges : List ColumnLink := []
  assetSchemas : AList (fun _ : String => AList fun _ : String => LineageField) := ∅
  assetTouchedBy : String → List String := fun _ => []
  assetOrder : List String := []

/-- What is carried from node to node. -/
structure LineageWalk where
  build : LineageBuild
  schema : AList (fun _ : String => FieldOrigin) := ∅
  upstreamAssetURN : String := ""

/-! ## The code -/

/-- `\w`. -/
def isWord (c : Char) : Bool := c.isAlphanum || c = '_'

/-- `\s`. -/
def isBlank (c : Char) : Bool := c ∈ [' ', '\t', '\n', '\x0c', '\r']

/-- A match of `(\w+)\s*:\s*r\.(\w+)` at the start of a text, and what is behind it. -/
def matchField (text : List Char) : Option ((String × String) × List Char) :=
  let newField := text.takeWhile isWord
  match (text.dropWhile isWord).dropWhile isBlank with
  | ':' :: rest =>
    match rest.dropWhile isBlank with
    | 'r' :: '.' :: rest =>
      let oldField := rest.takeWhile isWord
      if newField = [] ∨ oldField = [] then none
      else some ((.ofList newField, .ofList oldField), rest.dropWhile isWord)
    | _ => none
  | _ => none

/-- `mapFieldPattern.FindAllStringSubmatch`, in a text with less characters than `fuel`. -/
def fieldMatches : (fuel : ℕ) → List Char → List (String × String)
  | 0, _ => []
  | _ + 1, [] => []
  | fuel + 1, c :: text =>
    match matchField (c :: text) with
    | some (found, rest) => found :: fieldMatches fuel rest
    | none => fieldMatches fuel text

section code

variable (codec : NumberCodec) (ranging : RangeIds)

/-- Source: `routes_pipelines.go` `assetURN`. -/
def assetURN (config : JsonMap) : Option NamedAsset :=
  let bucket := sprint codec.toNumberTexts (config.get "bucket")
  let key := sprint codec.toNumberTexts (config.get "key")
  let layer := sprint codec.toNumberTexts (config.get "layer")
  if bucket = "" ∨ key = "" ∨ layer = "" then none
  else some ⟨"s3://" ++ bucket ++ "/" ++ key, bucket, key, layer⟩

/-- Source: `routes_pipelines.go` `lineageContractSchema`. -/
def lineageContractSchema : Json → Option JsonMap
  | .object fields => some fields
  | .string text => (unmarshal codec text.toList).bind Json.asObject?
  | _ => none

/-- `ensureAsset`, without the id it returns. -/
def ensureAsset (named : NamedAsset) (build : LineageBuild) : LineageBuild :=
  let id := "asset:" ++ named.urn
  if id ∈ build.assetSchemas then build
  else
    { build with
      assetSchemas := build.assetSchemas.insert id ∅
      assetTouchedBy := update build.assetTouchedBy id []
      assetOrder := build.assetOrder ++ [id]
      nodes := build.nodes ++ [.asset { named with id }] }

/-- The asset is touched by the row, and the link is added. -/
def addLink (named : NamedAsset) (link : AssetLink) (build : LineageBuild) : LineageBuild :=
  let build := ensureAsset named build
  let id := "asset:" ++ named.urn
  { build with
    assetTouchedBy :=
      update build.assetTouchedBy id ((build.assetTouchedBy id).insert link.pipelineRowId)
    edges := build.edges ++ [link] }

/-- The link of a source. -/
def sourceLink (rowID nodeID urn : String) : AssetLink :=
  ⟨"edge:" ++ rowID ++ ":" ++ nodeID ++ ":source", "asset:" ++ urn, "pipeline:" ++ rowID, rowID, nodeID⟩

/-- The link of a sink. -/
def sinkLink (rowID nodeID urn : String) : AssetLink :=
  ⟨"edge:" ++ rowID ++ ":" ++ nodeID ++ ":sink", "pipeline:" ++ rowID, "asset:" ++ urn, rowID, nodeID⟩

/-- The branch for a source. -/
def visitSource (rowID : String) (node : Node) (walk : LineageWalk) : LineageWalk :=
  if node.type = .source then
    match assetURN codec node.config with
    | some named =>
      { walk with
        build := addLink named (sourceLink rowID node.id named.urn) walk.build
        upstreamAssetURN := named.urn }
    | none => walk
  else walk

/-- The type of a field, and whether its text ends with a question mark. -/
def contractField (rawType : Json) : LineageField :=
  let text := (sprint codec.toNumberTexts rawType).toList
  let nullable := text.getLast? = some '?'
  let fieldType := if nullable then text.dropLast else text
  ⟨if fieldType = [] then "unknown" else .ofList fieldType, nullable⟩

/-- The branch for a contract. -/
def visitContract (node : Node) (walk : LineageWalk) : LineageWalk :=
  if node.activityType = "transform.contract" then
    match lineageContractSchema codec (node.config.get "schemaJson") with
    | some fields =>
      { walk with
        schema := fields.foldl (fun schema entry =>
          let field := contractField codec entry.2
          schema.insert entry.1
            ⟨walk.upstreamAssetURN, entry.1, field.fieldType, field.nullable, node.id⟩) walk.schema }
    | none => walk
  else walk

/-- The branch for a map. -/
def visitMap (node : Node) (walk : LineageWalk) : LineageWalk :=
  if node.activityType = "transform.map" then
    match node.config.get "expression" with
    | .string expression =>
      let next : AList fun _ : String => FieldOrigin :=
        (fieldMatches (expression.length + 1) expression.toList).foldl (fun next found =>
          match walk.schema.lookup found.2 with
          | some origin => next.insert found.1 { origin with transformNodeID := node.id }
          | none => next) ∅
      if next.keys = [] then walk else { walk with schema := next }
    | _ => walk
  else walk

/-- One field at a sink. -/
def addColumn (rowID nodeID urn : String) (build : LineageBuild) (renamed : String)
    (origin : FieldOrigin) : LineageBuild :=
  let fields := (build.assetSchemas.lookup ("asset:" ++ urn)).getD ∅
  { build with
    assetSchemas := build.assetSchemas.insert ("asset:" ++ urn)
      (fields.insert renamed ⟨origin.fieldType, origin.nullable⟩)
    columnEdges :=
      if origin.assetURN = "" then build.columnEdges
      else build.columnEdges ++
        [⟨"column:" ++ rowID ++ ":" ++ nodeID ++ ":" ++ origin.field ++ ":" ++ renamed, rowID,
          origin.assetURN, origin.field, urn, renamed, origin.transformNodeID⟩] }

/-- The loop over the fields at a sink. -/
def addColumns (rowID nodeID urn : String) (schema : AList fun _ : String => FieldOrigin)
    (build : LineageBuild) : LineageBuild :=
  (ranging.order schema.keys).foldl (fun build renamed =>
    match schema.lookup renamed with
    | some origin => addColumn rowID nodeID urn build renamed origin
    | none => build) build

/-- The branch for a sink. -/
def visitSink (rowID : String) (node : Node) (walk : LineageWalk) : LineageWalk :=
  if node.type = .sink then
    match assetURN codec node.config with
    | some named =>
      { walk with
        build := addColumns ranging rowID node.id named.urn walk.schema
          (addLink named (sinkLink rowID node.id named.urn) walk.build) }
    | none => walk
  else walk

/-- One round of the loop over the nodes. -/
def visitNode (rowID : String) (walk : LineageWalk) (node : Node) : LineageWalk :=
  visitSink codec ranging rowID node
    (visitMap node (visitContract codec node (visitSource codec rowID node walk)))

/-- The map `byID`. -/
def byID (nodes : List Node) : String → Node :=
  nodes.foldl (fun map node => update map node.id node) fun _ => default

/-- The map `indegree`. -/
def indegree (edges : List Edge) : String → ℕ :=
  edges.foldl (fun map edge => update map edge.target (map edge.target + 1)) fun _ => 0

/-- The map `outgoing`: of several edges out of a node the last one counts. -/
def outgoing (edges : List Edge) : String → String :=
  edges.foldl (fun map edge => update map edge.source edge.target) fun _ => ""

/-- Where the way starts. -/
def firstNode (definition : PipelineDefinition) : String :=
  ((definition.nodes.find? fun node => indegree definition.edges node.id = 0).map Node.id).getD ""

/-- The loop `for current != ""`, for at most `rounds` rounds. -/
def walkNodes (next : String → String) (visit : LineageWalk → String → LineageWalk) :
    (rounds : ℕ) → String → LineageWalk → Option LineageWalk
  | 0, current, walk => if current = "" then some walk else none
  | rounds + 1, current, walk =>
    if current = "" then some walk else walkNodes next visit rounds (next current) (visit walk current)

/-- The node of a pipeline. -/
def pipelineNode (row : LineageRow) : LineageNode :=
  .pipeline ("pipeline:" ++ row.id)
    { rowId := row.id, pipelineKey := row.pipelineKey, name := row.name, version := row.version
      status := row.status, environment := row.environment
      metadata := row.definition.bind WorkspaceDefinition.metadata
      slo := row.definition.bind WorkspaceDefinition.slo }

/-- One round of the loop over the rows. A way that comes to a node again does not end; it has come
to each node with an edge out of it after as many rounds as there are edges. -/
def addRow (build : LineageBuild) (row : LineageRow) : Option LineageBuild :=
  let build := { build with nodes := build.nodes ++ [pipelineNode row] }
  match row.definition with
  | none => some build
  | some definition =>
    if definition.nodes = [] then some build
    else
      (walkNodes (outgoing definition.edges)
        (fun walk current => visitNode codec ranging row.id walk (byID definition.nodes current))
        (definition.edges.length + 1) (firstNode definition.toPipelineDefinition) { build }).map
          LineageWalk.build

/-- The schema of an asset is added to its record. -/
def showSchema (schemas : AList fun _ : String => AList fun _ : String => LineageField) :
    LineageNode → LineageNode
  | .pipeline id item => .pipeline id item
  | .asset item =>
    let fields := (schemas.lookup item.id).getD ∅
    .asset { item with
      schema := (ranging.order fields.keys).filterMap fun name =>
        (fields.lookup name).map fun field => (name, field) }

/-- Source: `routes_pipelines.go` `buildWorkspaceLineage`. -/
def buildWorkspaceLineage (rows : List LineageRow) : Option WorkspaceLineage :=
  (rows.foldlM (addRow codec ranging) {}).map fun build =>
    { nodes := build.nodes.map (showSchema ranging build.assetSchemas)
      edges := build.edges
      columnEdges := build.columnEdges
      stats :=
        { pipelines := rows.length
          assets := build.assetOrder.length
          links := build.edges.length
          sharedAssets := build.assetOrder.countP fun id => 2 ≤ (build.assetTouchedBy id).length
          columnLinks := build.columnEdges.length
          externalJobs := 0 } }

end code

/-! ## Exact lineage -/

/-- The record of an asset. -/
def LineageNode.asset? : LineageNode → Option AssetItem
  | .pipeline _ _ => none
  | .asset item => some item

/-- The assets of the graph. -/
def assets (nodes : List LineageNode) : List AssetItem := nodes.filterMap LineageNode.asset?

/-- A source or a sink. -/
def AtEnd (node : Node) : Prop := node.type = .source ∨ node.type = .sink

instance (node : Node) : Decidable (AtEnd node) := inferInstanceAs (Decidable (_ ∨ _))

/-- The fields that name an asset. -/
def assetFields : List String := ["bucket", "key", "layer"]

/-- The fields have values, which may be empty. -/
def Stated (config : JsonMap) : Prop := ∀ field ∈ assetFields, config.get field ≠ .null

/-- The fields have values that are not empty. -/
def Names (config : JsonMap) : Prop :=
  ∀ field ∈ assetFields, config.get field ≠ .null ∧ config.get field ≠ .string ""

instance (config : JsonMap) : Decidable (Stated config) := inferInstanceAs (Decidable (∀ _ ∈ _, _))

instance (config : JsonMap) : Decidable (Names config) := inferInstanceAs (Decidable (∀ _ ∈ _, _))

section exact

variable (codec : NumberCodec)

/-- The asset a config names. -/
def assetOf (config : JsonMap) : NamedAsset :=
  let text := fun field => sprint codec.toNumberTexts (config.get field)
  ⟨"s3://" ++ text "bucket" ++ "/" ++ text "key", text "bucket", text "key", text "layer"⟩

/-- From the asset to the pipeline for a source, and from the pipeline to the asset for a sink. -/
def linkOf (rowID : String) (node : Node) : AssetLink :=
  if node.type = .source then sourceLink rowID node.id (assetOf codec node.config).urn
  else sinkLink rowID node.id (assetOf codec node.config).urn

/-- The node is one of the pipeline of the row. -/
def InRow (row : LineageRow) (node : Node) : Prop :=
  ∃ definition, row.definition = some definition ∧ node ∈ definition.nodes

/-- **The graph has the assets and the links that the nodes name.** Of a node whose config has no
value for one of the three fields nothing is said. -/
structure Exact (rows : List LineageRow) (graph : WorkspaceLineage) : Prop where
  links : ∀ row ∈ rows, ∀ node, InRow row node → AtEnd node → Stated node.config →
    (graph.edges.filter fun link => link.pipelineRowId = row.id ∧ link.nodeId = node.id) =
      if Names node.config then [linkOf codec row.id node] else []
  owned : ∀ link ∈ graph.edges, ∃ row ∈ rows, ∃ node, InRow row node ∧ AtEnd node ∧
    link = linkOf codec row.id node
  named : ∀ row ∈ rows, ∀ node, InRow row node → AtEnd node → Names node.config →
    ∃ item ∈ assets graph.nodes, item.urn = (assetOf codec node.config).urn
  only : ∀ item ∈ assets graph.nodes, ∃ row ∈ rows, ∃ node, InRow row node ∧ AtEnd node ∧
    (Stated node.config → Names node.config) ∧ item.toNamedAsset = assetOf codec node.config
  once : ((assets graph.nodes).map fun item => item.urn).Nodup

/-- **The nodes form one path**: one edge, or several, between consecutive nodes, and no other
edge. -/
def OnePath (definition : PipelineDefinition) (path : List String) : Prop :=
  path.Perm (definition.nodes.map Node.id) ∧ ∀ e, e ∈ endpoints definition ↔ e ∈ pairs path

end exact

/-! ## The asset of a node -/

section names

variable {codec : NumberCodec} {config : JsonMap} {node : Node} {rowID : String}

/-- What the code reads from a config. -/
theorem assetURN_eq : assetURN codec config =
    if ∀ field ∈ assetFields, config.get field ≠ .string "" then some (assetOf codec config) else none := by
  simp only [assetURN, assetFields, sprint_eq_empty_iff, forall_mem_cons, not_mem_nil,
    false_imp_iff, implies_true, and_true, assetOf]
  split_ifs with hempty hfull hfull
  · exact absurd hempty (by tauto)
  · rfl
  · rfl
  · exact absurd hempty (by tauto)

/-- A source or a sink from whose config the code reads an asset: none of its fields is the empty
text. -/
def Marked (node : Node) : Prop :=
  AtEnd node ∧ ∀ field ∈ assetFields, node.config.get field ≠ .string ""

instance (node : Node) : Decidable (Marked node) := inferInstanceAs (Decidable (_ ∧ _))

theorem assetURN_of_marked (h : Marked node) :
    assetURN codec node.config = some (assetOf codec node.config) := by
  rw [assetURN_eq, if_pos h.2]

theorem assetURN_of_not_marked (hend : AtEnd node) (h : ¬ Marked node) :
    assetURN codec node.config = none := by
  rw [assetURN_eq, if_neg fun hfields => h ⟨hend, hfields⟩]

/-- Where the fields have values, the code reads an asset iff the config names one. -/
theorem marked_iff_names (hend : AtEnd node) (hstated : Stated node.config) :
    Marked node ↔ Names node.config := by
  constructor
  · exact fun h field hfield => ⟨hstated field hfield, h.2 field hfield⟩
  · exact fun h => ⟨hend, fun field hfield => (h field hfield).2⟩

theorem Names.stated (h : Names config) : Stated config := fun field hfield => (h field hfield).1

theorem linkOf_pipelineRowId : (linkOf codec rowID node).pipelineRowId = rowID := by
  rw [linkOf]
  split_ifs <;> rfl

theorem linkOf_nodeId : (linkOf codec rowID node).nodeId = node.id := by
  rw [linkOf]
  split_ifs <;> rfl

end names

/-! ## One node -/

section step

variable {codec : NumberCodec} {ranging : RangeIds} {done : List (String × Node)}
  {build : LineageBuild} {rowID : String} {node : Node}

/-- **What holds of the graph** when these nodes of these rows were visited. -/
structure Tracks (codec : NumberCodec) (done : List (String × Node)) (build : LineageBuild) :
    Prop where
  edges : build.edges =
    (done.filter fun entry => Marked entry.2).map fun entry => linkOf codec entry.1 entry.2
  known : ∀ id, id ∈ build.assetSchemas ↔ id ∈ (assets build.nodes).map AssetItem.id
  ids : ∀ item ∈ assets build.nodes, item.id = "asset:" ++ item.urn
  once : ((assets build.nodes).map AssetItem.id).Nodup
  sound : ∀ item ∈ assets build.nodes, ∃ entry ∈ done, Marked entry.2 ∧
    item.toNamedAsset = assetOf codec entry.2.config
  complete : ∀ entry ∈ done, Marked entry.2 →
    "asset:" ++ (assetOf codec entry.2.config).urn ∈ (assets build.nodes).map AssetItem.id

theorem tracks_empty : Tracks codec [] {} where
  edges := rfl
  known id := by simp [assets]
  ids := by simp [assets]
  once := nodup_nil
  sound := by simp [assets]
  complete := by simp

/-- The schemas, and what is not in the graph, do not matter. -/
theorem Tracks.congr {build' : LineageBuild} (h : Tracks codec done build)
    (hedges : build'.edges = build.edges) (hassets : assets build'.nodes = assets build.nodes)
    (hknown : ∀ id, id ∈ build'.assetSchemas ↔ id ∈ build.assetSchemas) :
    Tracks codec done build' where
  edges := hedges.trans h.edges
  known id := by rw [hknown, hassets, h.known]
  ids := by rw [hassets]; exact h.ids
  once := by rw [hassets]; exact h.once
  sound := by rw [hassets]; exact h.sound
  complete := by rw [hassets]; exact h.complete

/-- A node that adds nothing. -/
theorem Tracks.skip (h : Tracks codec done build) (hnode : ¬ Marked node) :
    Tracks codec (done ++ [(rowID, node)]) build where
  edges := by
    rw [filter_append, filter_singleton]
    simpa [hnode] using h.edges
  known := h.known
  ids := h.ids
  once := h.once
  sound item hitem := by
    obtain ⟨entry, hentry, hrest⟩ := h.sound item hitem
    exact ⟨entry, mem_append_left _ hentry, hrest⟩
  complete entry hentry hmarked := by
    rcases mem_append.mp hentry with hentry | hentry
    · exact h.complete entry hentry hmarked
    · rw [mem_singleton.mp hentry] at hmarked
      exact absurd hmarked hnode

/-- The assets when one is ensured. -/
theorem assets_ensureAsset (named : NamedAsset) : assets (ensureAsset named build).nodes =
    if "asset:" ++ named.urn ∈ build.assetSchemas then assets build.nodes
    else assets build.nodes ++ [{ named with id := "asset:" ++ named.urn }] := by
  unfold ensureAsset
  dsimp only
  split_ifs
  · rfl
  · simp [assets, LineageNode.asset?]

theorem mem_ensureAsset (named : NamedAsset) (id : String) :
    id ∈ (ensureAsset named build).assetSchemas ↔ id = "asset:" ++ named.urn ∨
    id ∈ build.assetSchemas := by
  unfold ensureAsset
  dsimp only
  split_ifs with hmem
  · constructor
    · exact .inr
    · rintro (rfl | hid)
      · exact hmem
      · exact hid
  · exact AList.mem_insert _

theorem edges_ensureAsset (named : NamedAsset) : (ensureAsset named build).edges = build.edges := by
  unfold ensureAsset
  dsimp only
  split_ifs <;> rfl

/-- **A link and its asset.** -/
theorem Tracks.addLink (h : Tracks codec done build) (hnode : Marked node) :
    Tracks codec (done ++ [(rowID, node)])
      (addLink (assetOf codec node.config) (linkOf codec rowID node) build) := by
  have hassets := @assets_ensureAsset build (assetOf codec node.config)
  have hnew : ∀ entry ∈ [(rowID, node)], entry = (rowID, node) := fun entry => mem_singleton.mp
  constructor
  case edges =>
    show (ensureAsset _ build).edges ++ _ = _
    rw [edges_ensureAsset, h.edges, filter_append, map_append, filter_singleton]
    simp [hnode]
  case known =>
    intro id
    show id ∈ (ensureAsset _ build).assetSchemas ↔ id ∈ (assets (ensureAsset _ build).nodes).map _
    rw [mem_ensureAsset, hassets]
    split_ifs with hmem
    · rw [← h.known]
      constructor
      · rintro (rfl | hid)
        · exact hmem
        · exact hid
      · exact .inr
    · rw [h.known, map_append, mem_append, map_singleton, mem_singleton]
      exact or_comm
  case ids =>
    intro item hitem
    change item ∈ assets (ensureAsset _ build).nodes at hitem
    rw [hassets] at hitem
    split_ifs at hitem with hmem
    · exact h.ids item hitem
    · rcases mem_append.mp hitem with hitem | hitem
      · exact h.ids item hitem
      · rw [mem_singleton.mp hitem]
  case once =>
    show ((assets (ensureAsset _ build).nodes).map _).Nodup
    rw [hassets]
    split_ifs with hmem
    · exact h.once
    · rw [map_append, map_singleton, ← concat_eq_append, nodup_concat]
      rw [h.known] at hmem
      exact ⟨hmem, h.once⟩
  case sound =>
    intro item hitem
    change item ∈ assets (ensureAsset _ build).nodes at hitem
    have hold : item ∈ assets build.nodes → ∃ entry ∈ done ++ [(rowID, node)], Marked entry.2 ∧
        item.toNamedAsset = assetOf codec entry.2.config := by
      intro hitem
      obtain ⟨entry, hentry, hrest⟩ := h.sound item hitem
      exact ⟨entry, mem_append_left _ hentry, hrest⟩
    rw [hassets] at hitem
    split_ifs at hitem with hmem
    · exact hold hitem
    · rcases mem_append.mp hitem with hitem | hitem
      · exact hold hitem
      · rw [mem_singleton.mp hitem]
        exact ⟨(rowID, node), mem_append_right _ (mem_singleton_self _), hnode, rfl⟩
  case complete =>
    intro entry hentry hmarked
    show _ ∈ (assets (ensureAsset _ build).nodes).map _
    rw [hassets]
    rcases mem_append.mp hentry with hentry | hentry
    · have hmem := h.complete entry hentry hmarked
      split_ifs
      · exact hmem
      · rw [map_append]
        exact mem_append_left _ hmem
    · rw [hnew entry hentry]
      split_ifs with hmem
      · exact (h.known _).mp hmem
      · rw [map_append]
        exact mem_append_right _ (mem_singleton_self _)

theorem visitContract_build (walk : LineageWalk) :
    (visitContract codec node walk).build = walk.build := by
  unfold visitContract
  split_ifs
  · split <;> rfl
  · rfl

theorem visitMap_build (walk : LineageWalk) : (visitMap node walk).build = walk.build := by
  unfold visitMap
  split_ifs
  · split
    · dsimp only
      split_ifs <;> rfl
    · rfl
  · rfl

/-- The fields at a sink change the schema of its asset only. -/
theorem addColumns_spec {nodeID urn : String} {schema : AList fun _ : String => FieldOrigin}
    (hknown : "asset:" ++ urn ∈ build.assetSchemas) :
    (addColumns ranging rowID nodeID urn schema build).edges = build.edges ∧
      (addColumns ranging rowID nodeID urn schema build).nodes = build.nodes ∧
      ∀ id, id ∈ (addColumns ranging rowID nodeID urn schema build).assetSchemas ↔
        id ∈ build.assetSchemas := by
  unfold addColumns
  induction ranging.order schema.keys generalizing build with
  | nil => exact ⟨rfl, rfl, fun _ => Iff.rfl⟩
  | cons renamed keys ih =>
    rw [foldl_cons]
    cases schema.lookup renamed with
    | none => exact ih hknown
    | some origin =>
      have hids : ∀ id, id ∈ (addColumn rowID nodeID urn build renamed origin).assetSchemas ↔
          id ∈ build.assetSchemas := by
        intro id
        rw [addColumn, AList.mem_insert]
        constructor
        · rintro (rfl | hid)
          · exact hknown
          · exact hid
        · exact .inr
      obtain ⟨hedges, hnodes, hschemas⟩ := ih ((hids _).mpr hknown)
      exact ⟨hedges, hnodes, fun id => (hschemas id).trans (hids id)⟩

variable {walk : LineageWalk}

theorem tracks_visitSource (h : Tracks codec done walk.build) (hsource : node.type = .source) :
    Tracks codec (done ++ [(rowID, node)]) (visitSource codec rowID node walk).build := by
  rw [visitSource, if_pos hsource]
  by_cases hmarked : Marked node
  · rw [assetURN_of_marked hmarked]
    have hlink := @Tracks.addLink _ _ _ rowID _ h hmarked
    rwa [linkOf, if_pos hsource] at hlink
  · rw [assetURN_of_not_marked (.inl hsource) hmarked]
    exact h.skip hmarked

theorem tracks_visitSink (h : Tracks codec done walk.build) (hsink : node.type = .sink) :
    Tracks codec (done ++ [(rowID, node)]) (visitSink codec ranging rowID node walk).build := by
  have hsource : node.type ≠ .source := by
    rw [hsink]
    decide
  rw [visitSink, if_pos hsink]
  by_cases hmarked : Marked node
  · rw [assetURN_of_marked hmarked]
    have hlink := @Tracks.addLink _ _ _ rowID _ h hmarked
    rw [linkOf, if_neg hsource] at hlink
    have hknown := (hlink.known _).mpr
      (hlink.complete _ (mem_append_right _ (mem_singleton_self _)) hmarked)
    obtain ⟨hedges, hnodes, hschemas⟩ := @addColumns_spec ranging _ rowID node.id _ walk.schema hknown
    exact hlink.congr hedges (congrArg assets hnodes) hschemas
  · rw [assetURN_of_not_marked (.inr hsink) hmarked]
    exact h.skip hmarked

/-- **One node** adds what it names. -/
theorem tracks_visitNode (h : Tracks codec done walk.build) :
    Tracks codec (done ++ [(rowID, node)]) (visitNode codec ranging rowID walk node).build := by
  have hbetween : ∀ between : LineageWalk,
      (visitMap node (visitContract codec node between)).build = between.build := fun between =>
    (visitMap_build _).trans (visitContract_build between)
  unfold visitNode
  by_cases hsource : node.type = .source
  · have hsink : node.type ≠ .sink := by
      rw [hsource]
      decide
    rw [visitSink, if_neg hsink, hbetween]
    exact tracks_visitSource h hsource
  · rw [show visitSource codec rowID node walk = walk from if_neg hsource]
    have hwalk : Tracks codec done (visitMap node (visitContract codec node walk)).build := by
      rw [hbetween]
      exact h
    by_cases hsink : node.type = .sink
    · exact tracks_visitSink hwalk hsink
    · rw [visitSink, if_neg hsink]
      refine hwalk.skip ?_
      rintro ⟨hend | hend, -⟩
      · exact hsource hend
      · exact hsink hend

end step

/-! ## The way through the nodes -/

section way

theorem byID_eq {nodes : List Node} (hids : (nodes.map Node.id).Nodup) {node : Node}
    (hnode : node ∈ nodes) :
    byID nodes node.id = node := by
  have hkeep : ∀ (nodes : List Node) (map : String → Node) (id : String), id ∉ nodes.map Node.id →
      nodes.foldl (fun map node => update map node.id node) map id = map id := by
    intro nodes
    induction nodes with
    | nil => exact fun _ _ _ => rfl
    | cons other nodes ih =>
      intro map id hid
      rw [map_cons, mem_cons, not_or] at hid
      rw [foldl_cons, ih _ id hid.2, update_of_ne hid.1]
  unfold byID
  generalize (fun _ : String => (default : Node)) = map
  induction nodes generalizing map with
  | nil => cases hnode
  | cons other nodes ih =>
    obtain ⟨hnew, hids⟩ := nodup_cons.mp hids
    rw [foldl_cons]
    rcases mem_cons.mp hnode with rfl | hnode
    · rw [hkeep nodes _ node.id hnew, update_self]
    · exact ih hids hnode _

theorem indegree_eq (edges : List Edge) (id : String) :
    indegree edges id = edges.countP fun edge => edge.target = id := by
  have hcount : ∀ (edges : List Edge) (map : String → ℕ),
      edges.foldl (fun map edge => update map edge.target (map edge.target + 1)) map id =
        map id + edges.countP fun edge => edge.target = id := by
    intro edges
    induction edges with
    | nil => exact fun _ => rfl
    | cons edge edges ih =>
      intro map
      rw [foldl_cons, ih, countP_cons]
      by_cases htarget : edge.target = id
      · rw [htarget, update_self, if_pos (by simp)]
        omega
      · rw [update_of_ne (Ne.symm htarget), if_neg (by simpa using htarget)]
        omega
  rw [indegree, hcount, zero_add]

theorem indegree_eq_zero {edges : List Edge} {id : String} :
    indegree edges id = 0 ↔ ∀ edge ∈ edges, edge.target ≠ id := by
  rw [indegree_eq, countP_eq_zero]
  simp

/-- Where all edges out of a node go to one. -/
theorem outgoing_eq {edges : List Edge} {a b : String}
    (h : ∀ edge ∈ edges, edge.source = a → edge.target = b) :
    outgoing edges a = if ∃ edge ∈ edges, edge.source = a then b else "" := by
  have hlast : ∀ (edges : List Edge) (map : String → String),
      (∀ edge ∈ edges, edge.source = a → edge.target = b) →
      edges.foldl (fun map edge => update map edge.source edge.target) map a =
        if ∃ edge ∈ edges, edge.source = a then b else map a := by
    intro edges
    induction edges with
    | nil => simp
    | cons edge edges ih =>
      intro map h
      obtain ⟨hedge, hrest⟩ := forall_mem_cons.mp h
      rw [foldl_cons, ih _ hrest]
      simp only [mem_cons, exists_eq_or_imp]
      by_cases hsource : edge.source = a
      · rw [if_pos (Or.inl hsource), ← hsource, update_self, hedge hsource, ite_self]
      · rw [update_of_ne (Ne.symm hsource)]
        exact if_congr (by simp [hsource]) rfl rfl
  exact hlast edges _ h

variable {next : String → String} {visit : LineageWalk → String → LineageWalk} {path : List String}

theorem walkNodes_empty (rounds : ℕ) (walk : LineageWalk) :
    walkNodes next visit rounds "" walk = some walk := by
  cases rounds <;> exact if_pos rfl

/-- **The loop goes along a path.** -/
theorem walkNodes_path {rounds : ℕ} (hrounds : path.length ≤ rounds) (hids : ∀ id ∈ path, id ≠ "")
    (hnext : ∀ e ∈ pairs path, next e.1 = e.2)
    (hlast : ∀ last, path.getLast? = some last → next last = "") {first : String}
    (hfirst : path.head? = some first) (walk : LineageWalk) :
    walkNodes next visit rounds first walk = some (path.foldl visit walk) := by
  induction path generalizing rounds first walk with
  | nil => cases hfirst
  | cons a path ih =>
    cases hfirst
    obtain ⟨rounds, rfl⟩ : ∃ n, rounds = n + 1 := Nat.exists_eq_succ_of_ne_zero (by
      rw [length_cons] at hrounds
      omega)
    rw [walkNodes, if_neg (hids a mem_cons_self), foldl_cons]
    cases path with
    | nil =>
      rw [hlast a rfl, walkNodes_empty]
      rfl
    | cons b path =>
      rw [hnext (a, b) mem_cons_self]
      refine ih (Nat.le_of_succ_le_succ hrounds) ?_ ?_ ?_ rfl (visit walk a)
      · exact fun id hid => hids id (mem_cons_of_mem _ hid)
      · exact fun e he => hnext e (mem_cons_of_mem _ he)
      · exact fun last h => hlast last (getLast?_cons_cons.trans h)

variable {definition : PipelineDefinition}

/-- The next node of a path. -/
theorem outgoing_of_onePath (hnodup : path.Nodup) (h : OnePath definition path)
    {e : String × String} (he : e ∈ pairs path) : outgoing definition.edges e.1 = e.2 := by
  obtain ⟨edge, hedge, hsource, htarget⟩ := mem_endpoints.mp ((h.2 e).mpr he)
  rw [@outgoing_eq _ e.1 e.2, if_pos ⟨edge, hedge, hsource⟩]
  intro other hother heq
  have hmem := (h.2 (e.1, other.target)).mp (mem_endpoints.mpr ⟨other, hother, heq, rfl⟩)
  exact pairs_right_unique hnodup hmem he

/-- The last node of a path. -/
theorem outgoing_last_of_onePath (hnodup : path.Nodup) (h : OnePath definition path) {last : String}
    (hlast : path.getLast? = some last) : outgoing definition.edges last = "" := by
  have hnone : ∀ edge ∈ definition.edges, edge.source ≠ last := by
    intro edge hedge heq
    have hmem := (h.2 (last, edge.target)).mp (mem_endpoints.mpr ⟨edge, hedge, heq, rfl⟩)
    exact not_mem_pairs_getLast hnodup hlast _ hmem
  rw [@outgoing_eq _ last "" fun edge hedge heq => absurd heq (hnone edge hedge), ite_self]

/-- The first node of a path is the one without an edge into it. -/
theorem firstNode_of_onePath (hnodup : path.Nodup) (h : OnePath definition path) {first : String}
    (hfirst : path.head? = some first) : firstNode definition = first := by
  have hzero : ∀ node ∈ definition.nodes, indegree definition.edges node.id = 0 ↔
      node.id = first := by
    intro node hnode
    rw [indegree_eq_zero]
    constructor
    · intro hnone
      by_contra hne
      have hmem : node.id ∈ path := h.1.mem_iff.mpr (List.mem_map_of_mem hnode)
      obtain ⟨u, hu⟩ := exists_mem_pairs_left hmem fun heq =>
        hne (some.inj (heq.symm.trans hfirst))
      obtain ⟨edge, hedge, -, htarget⟩ := mem_endpoints.mp ((h.2 _).mpr hu)
      exact hnone edge hedge htarget
    · intro heq edge hedge htarget
      have hmem := (h.2 (edge.source, edge.target)).mp (mem_endpoints.mpr ⟨edge, hedge, rfl, rfl⟩)
      rw [htarget, heq] at hmem
      exact not_mem_pairs_head hnodup hfirst _ hmem
  obtain ⟨node, hnode, hid⟩ := List.mem_map.mp (h.1.mem_iff.mp (mem_of_mem_head? hfirst))
  unfold firstNode
  cases hfind : definition.nodes.find? fun node => indegree definition.edges node.id = 0 with
  | none =>
    rw [find?_eq_none] at hfind
    exact absurd (decide_eq_true ((hzero node hnode).mpr hid)) (hfind node hnode)
  | some found =>
    have hfound := find?_some hfind
    exact (hzero found (mem_of_find?_eq_some hfind)).mp (of_decide_eq_true hfound)

/-- A path is not longer than the loop. -/
theorem length_le_of_onePath (hnodup : path.Nodup) (h : OnePath definition path) :
    path.length ≤ definition.edges.length + 1 := by
  have hsub : pairs path ⊆ endpoints definition := fun e he => (h.2 e).mpr he
  have hlength := (subperm_of_subset (nodup_pairs hnodup) hsub).length_le
  rw [length_pairs, endpoints, length_map] at hlength
  omega

end way

/-! ## All rows -/

section rows

variable {codec : NumberCodec} {ranging order : RangeIds} {enterprise : Enterprise}
  {done : List (String × Node)} {build : LineageBuild} {rows : List LineageRow}

theorem tracks_foldl {rowID : String} (nodes : List Node) {walk : LineageWalk}
    (h : Tracks codec done walk.build) :
    Tracks codec (done ++ nodes.map fun node => (rowID, node))
      (nodes.foldl (visitNode codec ranging rowID) walk).build := by
  induction nodes generalizing done walk with
  | nil => simpa using h
  | cons node nodes ih =>
    have hnext := ih (@tracks_visitNode _ ranging _ rowID node _ h)
    rwa [append_assoc, singleton_append] at hnext

/-- The node of a pipeline is added. -/
theorem Tracks.pipelineNode (h : Tracks codec done build) (row : LineageRow) :
    Tracks codec done { build with nodes := build.nodes ++ [Api.pipelineNode row] } := by
  refine h.congr rfl ?_ fun _ => Iff.rfl
  rw [assets, filterMap_append]
  exact append_nil _

/-- The nodes of the pipeline of a row. -/
def rowNodes (row : LineageRow) : List Node :=
  (row.definition.map fun definition => definition.nodes).getD []

variable {row : LineageRow}

theorem mem_rowNodes {node : Node} : node ∈ rowNodes row ↔ InRow row node := by
  unfold rowNodes InRow
  cases row.definition <;> simp

/-- The nodes of a row, with its id. -/
def rowEntries (row : LineageRow) : List (String × Node) :=
  (rowNodes row).map fun node => (row.id, node)

/-- The definition of the row is accepted, and its nodes form one path. -/
def Walkable (enterprise : Enterprise) (order : RangeIds) (row : LineageRow) : Prop :=
  ∀ definition, row.definition = some definition →
    Accepted enterprise order definition.toPipelineDefinition ∧
      ∃ path, OnePath definition.toPipelineDefinition path

/-- **The round of a row** visits the nodes of the path one after the other. -/
theorem addRow_path {definition : WorkspaceDefinition} {path : List String}
    (hdefinition : row.definition = some definition) (hids : (definition.nodes.map Node.id).Nodup)
    (hnamed : ∀ node ∈ definition.nodes, node.id ≠ "")
    (hpath : OnePath definition.toPipelineDefinition path) (hnil : definition.nodes ≠ []) :
    addRow codec ranging build row =
      some ((path.map (byID definition.nodes)).foldl (visitNode codec ranging row.id)
        { build := { build with nodes := build.nodes ++ [pipelineNode row] } }).build := by
  have hnodup : path.Nodup := hpath.1.nodup_iff.mpr hids
  obtain ⟨first, hfirst⟩ : ∃ first, path.head? = some first := by
    obtain ⟨node, hnode⟩ := exists_mem_of_ne_nil _ hnil
    have hmem : node.id ∈ path := hpath.1.mem_iff.mpr (List.mem_map_of_mem hnode)
    exact ⟨path.head (ne_nil_of_mem hmem), head?_eq_some_head _⟩
  have hnonempty : ∀ id ∈ path, id ≠ "" := by
    intro id hid
    obtain ⟨node, hnode, rfl⟩ := List.mem_map.mp (hpath.1.mem_iff.mp hid)
    exact hnamed node hnode
  unfold addRow
  rw [hdefinition]
  dsimp only
  rw [if_neg hnil, firstNode_of_onePath hnodup hpath hfirst,
    walkNodes_path (length_le_of_onePath hnodup hpath) hnonempty
    (fun e he => outgoing_of_onePath hnodup hpath he)
    (fun last hlast => outgoing_last_of_onePath hnodup hpath hlast) hfirst, foldl_map]
  rfl

/-- **One row** adds what its nodes name. -/
theorem tracks_addRow (hrow : Walkable enterprise order row)
    (h : Tracks codec done build) : ∃ build' visited, addRow codec ranging build row = some build' ∧
      visited.Perm (rowEntries row) ∧ Tracks codec (done ++ visited) build' := by
  have hbegin := h.pipelineNode row
  unfold rowEntries rowNodes
  cases hdefinition : row.definition with
  | none => exact ⟨_, [], by rw [addRow, hdefinition], List.Perm.refl _, by simpa using hbegin⟩
  | some definition =>
    obtain ⟨haccepted, path, hpath⟩ := hrow definition hdefinition
    have hids := nodup_of_accepted haccepted
    by_cases hnil : definition.nodes = []
    · refine ⟨_, [], ?_, by simp [hnil], by simpa using hbegin⟩
      rw [addRow, hdefinition]
      exact if_pos hnil
    · have hvisited : (path.map (byID definition.nodes)).Perm definition.nodes := by
        refine (hpath.1.map _).trans (.of_eq ?_)
        rw [List.map_map]
        exact (map_congr_left fun node hnode => byID_eq hids hnode).trans (List.map_id _)
      refine ⟨_, (path.map (byID definition.nodes)).map fun node => (row.id, node),
        addRow_path hdefinition hids (fun node => id_ne_of_accepted haccepted) hpath hnil,
        hvisited.map _, tracks_foldl _ hbegin⟩

/-- **All rows.** -/
theorem tracks_rows (hrows : ∀ row ∈ rows, Walkable enterprise order row)
    (h : Tracks codec done build) :
    ∃ build' visited, rows.foldlM (addRow codec ranging) build = some build' ∧
      visited.Perm (rows.flatMap rowEntries) ∧ Tracks codec (done ++ visited) build' := by
  induction rows generalizing done build with
  | nil => exact ⟨build, [], rfl, List.Perm.refl _, by simpa using h⟩
  | cons row rows ih =>
    obtain ⟨hrow, hrest⟩ := forall_mem_cons.mp hrows
    obtain ⟨build₁, visited, hadd, hperm, htracks⟩ := @tracks_addRow codec ranging _ _ _ _ _ hrow h
    obtain ⟨build₂, others, hfold, hperm', htracks'⟩ := ih hrest htracks
    refine ⟨build₂, visited ++ others, ?_, hperm.append hperm', ?_⟩
    · rw [foldlM_cons, hadd]
      exact hfold
    · rwa [← append_assoc]

/-- The rows and nodes have distinct ids. -/
theorem nodup_entries (hids : (rows.map LineageRow.id).Nodup)
    (hrows : ∀ row ∈ rows, Walkable enterprise order row) :
    ((rows.flatMap rowEntries).map fun entry => (entry.1, entry.2.id)).Nodup := by
  have hkeys : ∀ row : LineageRow, (rowEntries row).map (fun entry => (entry.1, entry.2.id)) =
      ((rowNodes row).map Node.id).map fun id => (row.id, id) := by
    intro row
    rw [rowEntries, List.map_map, List.map_map]
    rfl
  rw [map_flatMap, nodup_flatMap]
  constructor
  · intro row hrow
    rw [hkeys]
    refine List.Nodup.map (fun a b heq => (Prod.mk.inj heq).2) ?_
    unfold rowNodes
    cases hdefinition : row.definition with
    | none => exact nodup_nil
    | some definition => exact nodup_of_accepted (hrows row hrow definition hdefinition).1
  · refine (pairwise_map.mp hids).imp ?_
    intro row other hne key hkey hkey'
    dsimp only at hkey hkey'
    rw [hkeys, List.mem_map] at hkey hkey'
    obtain ⟨id, -, rfl⟩ := hkey
    obtain ⟨id', -, heq⟩ := hkey'
    exact hne (Prod.mk.inj heq).1.symm

theorem assets_showSchema (schemas : AList fun _ : String => AList fun _ : String => LineageField)
    (nodes : List LineageNode) :
    (assets (nodes.map (showSchema ranging schemas))).map AssetItem.toNamedAsset =
      (assets nodes).map AssetItem.toNamedAsset := by
  induction nodes with
  | nil => rfl
  | cons node nodes ih =>
    cases node with
    | pipeline id item => exact ih
    | asset item => exact congrArg (item.toNamedAsset :: ·) ih

theorem mem_entries {entry : String × Node} : entry ∈ rows.flatMap rowEntries ↔
    ∃ row ∈ rows, entry.1 = row.id ∧ InRow row entry.2 := by
  obtain ⟨id, node⟩ := entry
  rw [mem_flatMap]
  refine exists_congr fun row => and_congr_right fun _ => ?_
  rw [rowEntries, List.mem_map, ← mem_rowNodes]
  constructor
  · rintro ⟨node, hnode, heq⟩
    cases heq
    exact ⟨rfl, hnode⟩
  · rintro ⟨rfl, hnode⟩
    exact ⟨node, hnode, rfl⟩

/-- **The links of a node.** -/
theorem filter_links {id : String} {node : Node} (h : Tracks codec done build)
    (hnodup : (done.map fun entry => (entry.1, entry.2.id)).Nodup) (hentry : (id, node) ∈ done) :
    (build.edges.filter fun link => link.pipelineRowId = id ∧ link.nodeId = node.id) =
      if Marked node then [linkOf codec id node] else [] := by
  have hkey : ∀ entry : String × Node, (decide ((linkOf codec entry.1 entry.2).pipelineRowId = id ∧
      (linkOf codec entry.1 entry.2).nodeId = node.id)) = decide ((entry.1, entry.2.id) = (id, node.id)) := by
    intro entry
    rw [linkOf_pipelineRowId, linkOf_nodeId]
    simp
  rw [h.edges, List.filter_map]
  simp only [comp_def, hkey]
  rw [filter_comm, Lists.filter_key_eq hnodup hentry, filter_singleton]
  by_cases hmarked : Marked node
  · simp [hmarked]
  · simp [hmarked]

/-- What was tracked is exact. -/
theorem exact_of_tracks {graph : WorkspaceLineage}
    (h : Tracks codec done build) (hnodup : (done.map fun entry => (entry.1, entry.2.id)).Nodup)
    (hmem : ∀ entry, entry ∈ done ↔ ∃ row ∈ rows, entry.1 = row.id ∧ InRow row entry.2)
    (hedges : graph.edges = build.edges)
    (hassets : (assets graph.nodes).map AssetItem.toNamedAsset =
      (assets build.nodes).map AssetItem.toNamedAsset) : Exact codec rows graph := by
  constructor
  case links =>
    intro row hrow node hnode hend hstated
    rw [hedges, filter_links h hnodup ((hmem (row.id, node)).mpr ⟨row, hrow, rfl, hnode⟩)]
    exact if_congr (marked_iff_names hend hstated) rfl rfl
  case owned =>
    intro link hlink
    rw [hedges, h.edges, List.mem_map] at hlink
    obtain ⟨entry, hentry, rfl⟩ := hlink
    obtain ⟨hentry, hmarked⟩ := mem_filter.mp hentry
    obtain ⟨row, hrow, hid, hnode⟩ := (hmem entry).mp hentry
    rw [hid]
    exact ⟨row, hrow, entry.2, hnode, (of_decide_eq_true hmarked).1, rfl⟩
  case named =>
    intro row hrow node hnode hend hnames
    have hmarked := (marked_iff_names hend hnames.stated).mpr hnames
    have hasset := h.complete (row.id, node) ((hmem _).mpr ⟨row, hrow, rfl, hnode⟩) hmarked
    obtain ⟨item, hitem, hid⟩ := List.mem_map.mp hasset
    rw [h.ids item hitem] at hid
    have hshown : item.toNamedAsset ∈ (assets graph.nodes).map AssetItem.toNamedAsset := by
      rw [hassets]
      exact List.mem_map_of_mem hitem
    obtain ⟨shown, hmemShown, heq⟩ := List.mem_map.mp hshown
    refine ⟨shown, hmemShown, ?_⟩
    rw [heq]
    exact String.append_right_inj _ |>.mp hid
  case only =>
    intro shown hshown
    have hitem : shown.toNamedAsset ∈ (assets build.nodes).map AssetItem.toNamedAsset := by
      rw [← hassets]
      exact List.mem_map_of_mem hshown
    obtain ⟨item, hitem, heq⟩ := List.mem_map.mp hitem
    obtain ⟨entry, hentry, hmarked, hasset⟩ := h.sound item hitem
    obtain ⟨row, hrow, -, hnode⟩ := (hmem entry).mp hentry
    refine ⟨row, hrow, entry.2, hnode, hmarked.1, fun hstated => ?_, heq ▸ hasset⟩
    exact (marked_iff_names hmarked.1 hstated).mp hmarked
  case once =>
    have hurns : ∀ items : List AssetItem, items.map (fun item => item.urn) =
        (items.map AssetItem.toNamedAsset).map NamedAsset.urn := by
      intro items
      rw [List.map_map]
      rfl
    have hids : ((assets build.nodes).map fun item => item.urn).map (fun urn => "asset:" ++ urn) =
        (assets build.nodes).map AssetItem.id := by
      rw [List.map_map]
      exact map_congr_left fun item hitem => (h.ids item hitem).symm
    rw [hurns, hassets, ← hurns]
    refine List.Nodup.of_map (fun urn => "asset:" ++ urn) ?_
    rw [hids]
    exact h.once

/-- **The lineage of pipelines that are paths is exact**: the assets are those the sources and sinks
name, and each of them has one link.
Source: `routes_pipelines.go` `buildWorkspaceLineage` -/
theorem buildWorkspaceLineage_exact (codec : NumberCodec) (ranging order : RangeIds)
    (enterprise : Enterprise) (rows : List LineageRow) (hids : (rows.map LineageRow.id).Nodup)
    (hrows : ∀ row ∈ rows, ∀ definition, row.definition = some definition →
      Accepted enterprise order definition.toPipelineDefinition ∧
        ∃ path, OnePath definition.toPipelineDefinition path) :
    ∃ graph, buildWorkspaceLineage codec ranging rows = some graph ∧ Exact codec rows graph := by
  obtain ⟨build, visited, hfold, hperm, htracks⟩ := @tracks_rows codec ranging order enterprise [] {} rows
    hrows tracks_empty
  rw [nil_append] at htracks
  have hnodup :=
    ((hperm.map fun entry => (entry.1, entry.2.id)).nodup_iff).mpr (nodup_entries hids hrows)
  refine ⟨_, by rw [buildWorkspaceLineage, hfold]; rfl, ?_⟩
  exact exact_of_tracks htracks hnodup (fun entry => hperm.mem_iff.trans mem_entries) rfl
    (assets_showSchema _ _)

/-- A config that names an asset of a bucket. -/
def inBucket (bucket layer : String) : JsonMap :=
  [("bucket", .string bucket), ("key", .string "orders.json"), ("layer", .string layer)]

/-- A source and two sinks, with an edge to the first sink and an edge to the second one. -/
def twoSinks (before : String) : LineageRow where
  id := "1"
  definition := some
    { name := "orders", triggerType := "manual"
      nodes := [{ id := "in", type := .source, activityType := "s3.fetch", config := inBucket "raw" "bronze" },
        { id := "silver", type := .sink, activityType := "sink.s3", config := inBucket "curated" "silver" },
        { id := "gold", type := .sink, activityType := "sink.s3", config := inBucket "marts" "gold" }]
      edges := [{ source := "in", target := "silver" }, { source := before, target := "gold" }] }

theorem twoSinks_accepted {before : String} (h : before = "in" ∨ before = "silver")
    (hrow : row ∈ [twoSinks before]) {definition : WorkspaceDefinition}
    (hdefinition : row.definition = some definition) :
    Accepted plainEnterprise plainRanging definition.toPipelineDefinition := by
  rw [mem_singleton.mp hrow] at hdefinition
  cases hdefinition
  rcases h with rfl | rfl
  · decide +kernel
  · decide +kernel

/-- The theorem at a pipeline where the second sink is behind the first one. -/
theorem buildWorkspaceLineage_exact_path :
    ∃ graph, buildWorkspaceLineage countedTexts plainRanging [twoSinks "silver"] = some graph ∧
      Exact countedTexts [twoSinks "silver"] graph := by
  refine buildWorkspaceLineage_exact countedTexts plainRanging plainRanging plainEnterprise _ (by decide) ?_
  intro row hrow definition hdefinition
  refine ⟨twoSinks_accepted (.inr rfl) hrow hdefinition, ["in", "silver", "gold"], ?_⟩
  rw [mem_singleton.mp hrow] at hdefinition
  cases hdefinition
  exact ⟨List.Perm.refl _, fun e => Iff.rfl⟩

/-- **The asset of one of two sinks is lost** where both are behind the source. -/
theorem second_sink_lost : ¬ ∀ rows : List LineageRow, (rows.map LineageRow.id).Nodup →
      (∀ row ∈ rows, ∀ definition, row.definition = some definition →
        Accepted plainEnterprise plainRanging definition.toPipelineDefinition) →
      ∃ graph, buildWorkspaceLineage countedTexts plainRanging rows = some graph ∧
        Exact countedTexts rows graph := by
  intro h
  obtain ⟨graph, hgraph, hexact⟩ := h [twoSinks "in"] (by decide) fun row hrow definition hdefinition =>
    twoSinks_accepted (.inl rfl) hrow hdefinition
  have hedges : (buildWorkspaceLineage countedTexts plainRanging [twoSinks "in"]).map (fun graph =>
      graph.edges.map AssetLink.nodeId) = some ["in", "gold"] := by decide +kernel
  rw [hgraph, map_some, some.injEq] at hedges
  have hlinks := hexact.links (twoSinks "in") mem_cons_self
    { id := "silver", type := .sink, activityType := "sink.s3", config := inBucket "curated" "silver" }
    ⟨_, rfl, by simp⟩ (.inr rfl) (by decide)
  rw [if_pos (by decide)] at hlinks
  have hlink : linkOf countedTexts (twoSinks "in").id _ ∈ graph.edges :=
    mem_of_mem_filter (hlinks ▸ mem_singleton_self _)
  have hnode := List.mem_map_of_mem (f := AssetLink.nodeId) hlink
  rw [hedges, linkOf_nodeId] at hnode
  revert hnode
  decide

end rows

end Dataflow.Api
