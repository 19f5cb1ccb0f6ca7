import Dataflow.Shared.Lineage

/-!
# The lineage graph of the browser

The graph of a workspace has a node for each pipeline and for each asset of a pipeline, links
between them, and links between the fields of an asset that is read and one that is written.

* `buildWorkspaceLineage`: the code.
* `LineageBuild.Sound`: what holds while the graph is built: the ends of the links and the assets
  of the fields are there, and the uses of the assets are those of the links.
* `addVersion_sound`: each version keeps it.
* **`sound_buildWorkspaceLineage`**: it holds of every graph that is built.

Source: `lineage.ts` `buildWorkspaceLineage`
-/

namespace Dataflow.Shared

open Library List Function
open Model (Json JsonMap)

/-! ## The data -/

/-- A version of a pipeline without its definition. -/
structure LineagePipeline where
  rowId : String
  pipelineKey : String := ""
  name : String := ""
  version : ℚ := 0
  status : String := ""
  environment : String := ""
  metadata : Option PipelineMetadata := none
  slo : Json := .null

/-- Source: `lineage.ts` `LineagePipelineVersion`. -/
structure LineagePipelineVersion extends LineagePipeline where
  definition : PipelineDefinition

/-- Source: `lineage.ts` `ExternalLineageJob`. -/
structure ExternalLineageJob where
  namespaceName : String
  name : String
  environment : String
  eventTime : String
  inputs : List (String × String)
  outputs : List (String × String)

/-- Source: `lineage.ts` `WorkspaceLineageNode`. -/
inductive WorkspaceLineageNode where
  | pipeline (id : String) (pipeline : LineagePipeline)
  | externalJob (id : String) (externalJob : ExternalLineageJob)
  | asset (id : String) (asset : DataAssetRef)

/-- The name of a node. -/
def WorkspaceLineageNode.id : WorkspaceLineageNode → String
  | .pipeline id _ => id
  | .externalJob id _ => id
  | .asset id _ => id

/-- The asset of a node. -/
def WorkspaceLineageNode.asset? : WorkspaceLineageNode → Option DataAssetRef
  | .asset _ ref => some ref
  | _ => none

/-- Source: `lineage.ts` `WorkspaceLineageEdge`. -/
structure WorkspaceLineageEdge where
  id : String
  source : String
  target : String
  pipelineRowId : String
  nodeId : String
  deriving DecidableEq

/-- Source: `lineage.ts` `WorkspaceColumnLineageEdge`. -/
structure WorkspaceColumnLineageEdge where
  id : String
  pipelineRowId : String
  sourceAssetUrn : String
  sourceField : String
  targetAssetUrn : String
  targetField : String
  transformNodeId : Option String
  deriving DecidableEq

/-- The counts of a graph. -/
structure WorkspaceLineageStats where
  pipelines : ℕ
  assets : ℕ
  links : ℕ
  sharedAssets : ℕ
  columnLinks : ℕ
  externalJobs : ℕ
  deriving DecidableEq

/-- Source: `lineage.ts` `WorkspaceLineage`. -/
structure WorkspaceLineage where
  nodes : List WorkspaceLineageNode
  edges : List WorkspaceLineageEdge
  columnEdges : List WorkspaceColumnLineageEdge
  stats : WorkspaceLineageStats

/-- The maps and lists that are filled. -/
structure LineageBuild where
  pipelineNodes : List WorkspaceLineageNode := []
  assets : List (String × DataAssetRef) := []
  assetUse : List (String × List String) := []
  edges : List WorkspaceLineageEdge := []
  columnEdges : List WorkspaceColumnLineageEdge := []

/-! ## The code -/

/-- `set.add(value)`. -/
def addTo (set : List String) (value : String) : List String :=
  if value ∈ set then set else set ++ [value]

/-- A value is added to the set of a key, which is empty at first. -/
def addUse (uses : List (String × List String)) (key value : String) :
    List (String × List String) :=
  OrderedMap.set uses key (addTo ((uses.lookup key).getD []) value)

/-- The name of the node of a pipeline. -/
def pipelineId (rowId : String) : String := "pipeline:" ++ rowId

/-- The name of the node of an asset. -/
def assetId (urn : String) : String := "asset:" ++ urn

/-- The link of a binding. -/
def bindingEdge (rowId : String) (binding : AssetBinding) : WorkspaceLineageEdge where
  id := pipelineId rowId ++ ":" ++ binding.nodeId ++ ":" ++ binding.direction.word ++ ":" ++ binding.port
  source := if binding.direction = .input then assetId binding.asset.urn else pipelineId rowId
  target := if binding.direction = .input then pipelineId rowId else assetId binding.asset.urn
  pipelineRowId := rowId
  nodeId := binding.nodeId

/-- One round of the loop over the bindings. -/
def addBinding (rowId : String) (build : LineageBuild) (binding : AssetBinding) : LineageBuild :=
  { build with
    assets := OrderedMap.set build.assets binding.asset.urn binding.asset
    edges := build.edges ++ [bindingEdge rowId binding]
    assetUse := addUse build.assetUse binding.asset.urn rowId }

/-- A match of `/^([a-z][a-z0-9+.-]*):/i`. -/
def urnScheme (urn : String) : Option String :=
  let scheme := urn.toList.takeWhile fun c => c.isAlphanum || c ∈ ['+', '.', '-']
  if scheme.head?.any Char.isAlpha ∧ (urn.toList.drop scheme.length).head? = some ':' then
    some (.ofList scheme)
  else none

/-- The asset that a trigger waits for, as far as its name tells. -/
def triggerAsset (urn : String) : DataAssetRef :=
  let parts := (urn.toList.splitOn '/').filter (· ≠ [])
  let name := (parts.getLast?.map String.ofList).getD urn
  asset urn ((urnScheme urn).getD "data") "trigger" name "stream" none

/-- The link of a trigger that waits for an asset. -/
def triggerEdge (rowId urn : String) : WorkspaceLineageEdge where
  id := "asset-trigger:" ++ pipelineId rowId ++ ":" ++ urn
  source := assetId urn
  target := pipelineId rowId
  pipelineRowId := rowId
  nodeId := "trigger"

/-- The branch for a trigger that waits for an asset. -/
def addTrigger (rowId : String) (trigger : TriggerConfig) (build : LineageBuild) : LineageBuild :=
  match trigger with
  | .asset urn =>
    { build with
      assets := if urn ∈ build.assets.map Prod.fst then build.assets
        else OrderedMap.set build.assets urn (triggerAsset urn)
      edges := if build.edges.any fun edge =>
          edge.source = assetId urn && edge.target = pipelineId rowId then build.edges
        else build.edges ++ [triggerEdge rowId urn]
      assetUse := addUse build.assetUse urn rowId }
  | _ => build

/-- Every field of a schema as it is. -/
def sameFields (fields : List SchemaField) : List MapFieldLineage :=
  fields.map fun field => ⟨field.name, [field.name]⟩

section code

variable (js : JsValues)

/-- The fields behind a node that renames them: the new names, and the other fields of the
output. -/
def renameLineage (rename : PipelineNode) (fields : List SchemaField) :
    Option (List MapFieldLineage) :=
  (parsed js (JsonMap.get rename.config "mapping")).map fun mapping =>
    let entries := objectEntries mapping
    entries.map (fun (old, new) => ⟨jsString js new, [old]⟩) ++
      sameFields (fields.filter fun field => .string field.name ∉ entries.map Prod.snd)

/-- `String(maps[0].config?.expression ?? '')`. -/
def expressionText (node : PipelineNode) : String :=
  match JsonMap.get node.config "expression" with
  | .null => ""
  | expression => jsString js expression

/-- Which fields go into which, and the node that says so. -/
def columnMapping (nodes : List PipelineNode) (fields : List SchemaField) :
    Except String (Option String × List MapFieldLineage) :=
  let maps := nodes.filter fun node => node.activityType = "transform.map"
  let renames := nodes.filter fun node => node.activityType = "transform.rename"
  match maps, renames with
  | [map], _ =>
    (deriveMapFieldLineage (expressionText js map)).map fun mapping => (some map.id, mapping)
  | [], [rename] =>
    match renameLineage js rename fields with
    | some mapping => .ok (some rename.id, mapping)
    | none => .ok (none, [])
  | [], [] => .ok (none, sameFields fields)
  | _, _ => .ok (none, [])

/-- The links between the fields of two assets. -/
def columnLinks (rowId : String) (input output : AssetBinding)
    (mapping : Option String × List MapFieldLineage) : List WorkspaceColumnLineageEdge :=
  mapping.2.flatMap fun field => field.inputFields.map fun inputField =>
    { id := rowId ++ ":" ++ inputField ++ ":" ++ field.outputField
      pipelineRowId := rowId
      sourceAssetUrn := input.asset.urn
      sourceField := inputField
      targetAssetUrn := output.asset.urn
      targetField := field.outputField
      transformNodeId := mapping.1.filter (· ≠ "") }

/-- The links between fields, if one asset is read and one is written. -/
def addColumns (version : LineagePipelineVersion) (bindings : List AssetBinding)
    (build : LineageBuild) : Except String LineageBuild :=
  match bindings.filter (·.direction = .input), bindings.filter (·.direction = .output) with
  | [input], [output] =>
    (columnMapping js version.definition.nodes output.asset.fields).map fun mapping =>
      { build with
        columnEdges := build.columnEdges ++ columnLinks version.rowId input output mapping }
  | _, _ => .ok build

/-- One round of the loop over the versions. -/
def addVersion (build : LineageBuild) (version : LineagePipelineVersion) :
    Except String LineageBuild :=
  let bindings := deriveAssetBindings js version.definition
  let build :=
    { build with
      pipelineNodes := build.pipelineNodes ++
        [.pipeline (pipelineId version.rowId) version.toLineagePipeline] }
  addColumns js version bindings
    (addTrigger version.rowId version.definition.trigger
      (bindings.foldl (addBinding version.rowId) build))

/-- A match of `/^pipeline\.(?:completed|failed|cancelled)\.(.+)$/`. -/
def upstreamKey (topic : String) : Option String :=
  (["pipeline.completed.", "pipeline.failed.", "pipeline.cancelled."].find? fun start =>
    start.toList <+: topic.toList).bind fun start =>
      let key := topic.toList.drop start.length
      if key ≠ [] ∧ key.all (· ∉ ['\n', '\r', '\u2028', '\u2029']) then some (.ofList key) else none

/-- The link of a trigger that waits for another pipeline. -/
def eventEdge (versions : List LineagePipelineVersion) (version : LineagePipelineVersion) :
    Option WorkspaceLineageEdge :=
  match version.definition.trigger with
  | .event topic =>
    (upstreamKey topic).bind fun key =>
      (versions.reverse.find? fun other =>
        other.pipelineKey ++ ":" ++ other.environment = key ++ ":" ++ version.environment).map
          fun upstream =>
            { id := "pipeline-event:" ++ pipelineId upstream.rowId ++ ":" ++ pipelineId version.rowId
              source := pipelineId upstream.rowId
              target := pipelineId version.rowId
              pipelineRowId := version.rowId
              nodeId := "trigger" }
  | _ => none

/-- The graph of what has been filled. -/
def LineageBuild.graph (build : LineageBuild) (versions : List LineagePipelineVersion) :
    WorkspaceLineage :=
  let edges := build.edges ++ versions.filterMap (eventEdge versions)
  { nodes := build.pipelineNodes ++ build.assets.map fun (urn, ref) => .asset (assetId urn) ref
    edges
    columnEdges := build.columnEdges
    stats :=
      { pipelines := versions.length
        assets := build.assets.length
        links := edges.length
        sharedAssets := build.assetUse.countP fun (_, uses) => 1 < uses.length
        columnLinks := build.columnEdges.length
        externalJobs := 0 } }

/-- Source: `lineage.ts` `buildWorkspaceLineage`. -/
def buildWorkspaceLineage (versions : List LineagePipelineVersion) :
    Except String WorkspaceLineage :=
  (versions.foldlM (addVersion js) {}).map fun build => build.graph versions

end code

/-! ## The uses that the links tell -/

/-- `text.startsWith(start)`. -/
def startsWith (text start : String) : Bool := start.toList <+: text.toList

/-- The asset at an end of a link. -/
def assetEnd (edge : WorkspaceLineageEdge) : Option String :=
  if startsWith edge.source "asset:" then some edge.source
  else if startsWith edge.target "asset:" then some edge.target
  else none

/-- One round of the loop over the links. -/
def addEdgeUse (uses : List (String × List String)) (edge : WorkspaceLineageEdge) :
    List (String × List String) :=
  match assetEnd edge with
  | none => uses
  | some asset =>
    let consumer := if edge.source = asset then edge.target else edge.source
    if consumer = "" then uses else addUse uses asset consumer

/-- The pipelines at the links of each asset. Source: `lineage.ts` `filterWorkspaceLineage` -/
def usesOf (edges : List WorkspaceLineageEdge) : List (String × List String) :=
  edges.foldl addEdgeUse []

section uses

variable {uses : List (String × List String)} {edge : WorkspaceLineageEdge}
  {edges : List WorkspaceLineageEdge} {urn rowId key value : String}

theorem startsWith_assetId (urn : String) : startsWith (assetId urn) "asset:" = true := by
  rw [startsWith, decide_eq_true_eq, assetId, String.toList_append]
  exact prefix_append _ _

theorem startsWith_pipelineId (rowId : String) :
    startsWith (pipelineId rowId) "asset:" = false := by
  rw [startsWith, decide_eq_false_iff_not, pipelineId, String.toList_append]
  intro h
  exact absurd (cons_prefix_cons.mp h).1 (by decide)

theorem assetId_injective : Injective assetId := fun a b h => by
  simpa [assetId] using h

theorem pipelineId_injective : Injective pipelineId := fun a b h => by
  simpa [pipelineId] using h

theorem pipelineId_ne_assetId (rowId urn : String) : pipelineId rowId ≠ assetId urn := by
  intro h
  have heq := startsWith_pipelineId rowId
  simp [h, startsWith_assetId] at heq

theorem pipelineId_ne_empty (rowId : String) : pipelineId rowId ≠ "" := by
  intro h
  have hlist := congrArg String.toList h
  simp [pipelineId, String.toList_append] at hlist

/-- A link between an asset and a pipeline is a use. -/
theorem addEdgeUse_of_ends (h : edge.source = assetId urn ∧ edge.target = pipelineId rowId ∨
      edge.source = pipelineId rowId ∧ edge.target = assetId urn) :
    addEdgeUse uses edge = addUse uses (assetId urn) (pipelineId rowId) := by
  unfold addEdgeUse assetEnd
  rcases h with ⟨hsource, htarget⟩ | ⟨hsource, htarget⟩
  · rw [hsource, htarget, startsWith_assetId, if_pos rfl]
    dsimp only
    rw [if_pos rfl, if_neg (pipelineId_ne_empty rowId)]
  · rw [hsource, htarget, startsWith_pipelineId, startsWith_assetId, if_neg (by decide), if_pos rfl]
    dsimp only
    rw [if_neg (pipelineId_ne_assetId rowId urn), if_neg (pipelineId_ne_empty rowId)]

/-- A link between pipelines is none. -/
theorem addEdgeUse_of_pipelines {rowId' : String} (hsource : edge.source = pipelineId rowId)
    (htarget : edge.target = pipelineId rowId') : addEdgeUse uses edge = uses := by
  unfold addEdgeUse assetEnd
  rw [hsource, htarget, startsWith_pipelineId, startsWith_pipelineId, if_neg (by decide),
    if_neg (by decide)]

theorem usesOf_append (edges edges' : List WorkspaceLineageEdge) :
    usesOf (edges ++ edges') = edges'.foldl addEdgeUse (usesOf edges) :=
  foldl_append

theorem mem_addTo {set : List String} {member : String} :
    member ∈ addTo set value ↔ member ∈ set ∨ member = value := by
  unfold addTo
  split_ifs with h
  · exact (or_iff_left_of_imp fun heq => heq ▸ h).symm
  · rw [mem_append, mem_singleton]

theorem map_addTo {f : String → String} (hf : Injective f) (set : List String)
    (value : String) : (addTo set value).map f = addTo (set.map f) (f value) := by
  have hmem := mem_map_of_injective hf (a := value) (l := set)
  unfold addTo
  by_cases h : value ∈ set
  · rw [if_pos h, if_pos (hmem.mpr h)]
  · rw [if_neg h, if_neg fun hnot => h (hmem.mp hnot), map_append, map_singleton]

/-- Assets and pipelines with the names of their nodes. -/
def nodeUses (uses : List (String × List String)) : List (String × List String) :=
  uses.map (Prod.map assetId (List.map pipelineId))

theorem nodeUses_addUse : nodeUses (addUse uses urn rowId) =
    addUse (nodeUses uses) (assetId urn) (pipelineId rowId) := by
  unfold nodeUses addUse
  rw [OrderedMap.map_set assetId_injective, OrderedMap.lookup_map assetId_injective,
    map_addTo pipelineId_injective]
  cases uses.lookup urn <;> rfl

/-- A use that is known. -/
def Known (uses : List (String × List String)) (key value : String) : Prop :=
  ∃ set, uses.lookup key = some set ∧ value ∈ set

theorem addUse_of_known (h : Known uses key value) : addUse uses key value = uses := by
  obtain ⟨set, hlookup, hmem⟩ := h
  unfold addUse
  rw [hlookup, Option.getD_some, addTo, if_pos hmem]
  exact OrderedMap.set_of_lookup hlookup

theorem known_addUse (uses : List (String × List String)) (key value : String) :
    Known (addUse uses key value) key value := by
  refine ⟨addTo ((uses.lookup key).getD []) value, ?_, mem_addTo.mpr (.inr rfl)⟩
  rw [addUse, OrderedMap.lookup_set, if_pos rfl]

theorem Known.addUse {key' value' : String} (h : Known uses key value) :
    Known (addUse uses key' value') key value := by
  obtain ⟨set, hlookup, hmem⟩ := h
  unfold Shared.addUse
  by_cases hkey : key = key'
  · subst hkey
    rw [hlookup, Option.getD_some]
    exact ⟨addTo set value', by rw [OrderedMap.lookup_set, if_pos rfl], mem_addTo.mpr (.inl hmem)⟩
  · exact ⟨set, by rw [OrderedMap.lookup_set, if_neg hkey, hlookup], hmem⟩

theorem Known.addEdgeUse (h : Known uses key value) (edge : WorkspaceLineageEdge) :
    Known (addEdgeUse uses edge) key value := by
  unfold Shared.addEdgeUse
  cases assetEnd edge with
  | none => exact h
  | some asset =>
    dsimp only
    split_ifs <;> first | exact h | exact h.addUse

theorem Known.foldl (h : Known uses key value) (edges : List WorkspaceLineageEdge) :
    Known (edges.foldl Shared.addEdgeUse uses) key value := by
  induction edges generalizing uses with
  | nil => exact h
  | cons edge edges ih => exact ih (h.addEdgeUse edge)

/-- **A link between an asset and a pipeline** makes its use known. -/
theorem known_usesOf (hedge : edge ∈ edges) (hsource : edge.source = assetId urn)
    (htarget : edge.target = pipelineId rowId) :
    Known (usesOf edges) (assetId urn) (pipelineId rowId) := by
  obtain ⟨before, after, rfl⟩ := append_of_mem hedge
  rw [usesOf_append, foldl_cons, addEdgeUse_of_ends (.inl ⟨hsource, htarget⟩)]
  exact (known_addUse _ _ _).foldl after

end uses

/-! ## What holds while the graph is built -/

/-- The node of a pipeline of these rows or of an asset. -/
def IsEnd (rows : List String) (build : LineageBuild) (id : String) : Prop :=
  (∃ rowId ∈ rows, id = pipelineId rowId) ∨ ∃ urn ∈ build.assets.map Prod.fst, id = assetId urn

/-- **The graph is sound**: its nodes, links and uses fit each other. -/
structure LineageBuild.Sound (rows : List String) (build : LineageBuild) : Prop where
  pipelines : ∀ node ∈ build.pipelineNodes, ∃ pipeline, node = .pipeline (pipelineId pipeline.rowId) pipeline
  ids : build.pipelineNodes.map WorkspaceLineageNode.id = rows.map pipelineId
  keys : (build.assets.map Prod.fst).Nodup
  urns : ∀ entry ∈ build.assets, entry.2.urn = entry.1
  ends : ∀ edge ∈ build.edges, IsEnd rows build edge.source ∧ IsEnd rows build edge.target
  columns : ∀ edge ∈ build.columnEdges, edge.sourceAssetUrn ∈ build.assets.map Prod.fst ∧
    edge.targetAssetUrn ∈ build.assets.map Prod.fst
  uses : usesOf build.edges = nodeUses build.assetUse

section sound

variable {js : JsValues} {rows : List String} {build : LineageBuild} {rowId : String}
  {build' : LineageBuild}

theorem sound_empty : LineageBuild.Sound [] {} where
  pipelines := fun _ h => absurd h not_mem_nil
  ids := rfl
  keys := nodup_nil
  urns := fun _ h => absurd h not_mem_nil
  ends := fun _ h => absurd h not_mem_nil
  columns := fun _ h => absurd h not_mem_nil
  uses := rfl

/-- What is added to the assets leaves the ends of the links. -/
theorem IsEnd.mono {rows' : List String} {id : String}
    (h : IsEnd rows build id) (hrows : rows ⊆ rows')
    (hassets : build.assets.map Prod.fst ⊆ build'.assets.map Prod.fst) : IsEnd rows' build' id := by
  rcases h with ⟨rowId, hmem, rfl⟩ | ⟨urn, hmem, rfl⟩
  · exact .inl ⟨rowId, hrows hmem, rfl⟩
  · exact .inr ⟨urn, hassets hmem, rfl⟩

section

variable (h : build.Sound rows)

include h

/-- A pipeline is added. -/
theorem LineageBuild.Sound.pipeline (pipeline : LineagePipeline) :
    LineageBuild.Sound (rows ++ [pipeline.rowId]) { build with
        pipelineNodes := build.pipelineNodes ++
          [.pipeline (pipelineId pipeline.rowId) pipeline] } where
  pipelines := by
    intro node hnode
    rcases mem_append.mp hnode with hnode | hnode
    · exact h.pipelines node hnode
    · exact ⟨pipeline, mem_singleton.mp hnode⟩
  ids := by
    rw [map_append, map_append, h.ids]
    rfl
  keys := h.keys
  urns := h.urns
  ends := fun edge hedge => ⟨(h.ends edge hedge).1.mono (subset_append_left _ _) fun _ => id,
    (h.ends edge hedge).2.mono (subset_append_left _ _) fun _ => id⟩
  columns := h.columns
  uses := h.uses

/-- **A use is added**: an asset, and a link between it and the pipeline unless there is one. -/
theorem LineageBuild.Sound.use (hrow : rowId ∈ rows) {urn : String}
    {assets : List (String × DataAssetRef)} {edges : List WorkspaceLineageEdge}
    (hkeys : (assets.map Prod.fst).Nodup)
    (hurns : ∀ entry ∈ assets, entry ∈ build.assets ∨ entry.2.urn = entry.1)
    (hassets : ∀ key, key ∈ assets.map Prod.fst ↔ key ∈ build.assets.map Prod.fst ∨ key = urn)
    (hedges : edges = build.edges ∧ Known (usesOf build.edges) (assetId urn) (pipelineId rowId) ∨
      ∃ edge : WorkspaceLineageEdge, edges = build.edges ++ [edge] ∧
        (edge.source = assetId urn ∧ edge.target = pipelineId rowId ∨
          edge.source = pipelineId rowId ∧ edge.target = assetId urn)) :
    LineageBuild.Sound rows
      { build with assets, edges, assetUse := addUse build.assetUse urn rowId } := by
  have hmono : build.assets.map Prod.fst ⊆ assets.map Prod.fst :=
    fun key hkey => (hassets key).mpr (.inl hkey)
  have hurn : urn ∈ assets.map Prod.fst := (hassets urn).mpr (.inr rfl)
  constructor
  case pipelines => exact h.pipelines
  case ids => exact h.ids
  case keys => exact hkeys
  case urns => exact fun entry hentry => (hurns entry hentry).elim (h.urns entry) id
  case columns =>
    exact fun edge hedge => ⟨hmono (h.columns edge hedge).1, hmono (h.columns edge hedge).2⟩
  case ends =>
    intro edge hedge
    have hold : ∀ edge ∈ build.edges,
        IsEnd rows { build with assets, edges, assetUse := addUse build.assetUse urn rowId } edge.source ∧
          IsEnd rows { build with assets, edges, assetUse := addUse build.assetUse urn rowId } edge.target :=
      fun edge hedge => ⟨(h.ends edge hedge).1.mono (fun _ => id) hmono,
        (h.ends edge hedge).2.mono (fun _ => id) hmono⟩
    rcases hedges with ⟨rfl, -⟩ | ⟨new, rfl, hends⟩
    · exact hold edge hedge
    · rcases mem_append.mp hedge with hedge | hedge
      · exact hold edge hedge
      · obtain rfl := mem_singleton.mp hedge
        rcases hends with ⟨hsource, htarget⟩ | ⟨hsource, htarget⟩
        · exact ⟨.inr ⟨urn, hurn, hsource⟩, .inl ⟨rowId, hrow, htarget⟩⟩
        · exact ⟨.inl ⟨rowId, hrow, hsource⟩, .inr ⟨urn, hurn, htarget⟩⟩
  case uses =>
    rw [nodeUses_addUse, ← h.uses]
    rcases hedges with ⟨rfl, hknown⟩ | ⟨new, rfl, hends⟩
    · exact (addUse_of_known hknown).symm
    · rw [usesOf_append]
      exact addEdgeUse_of_ends hends

theorem LineageBuild.Sound.binding (hrow : rowId ∈ rows)
    (binding : AssetBinding) : (addBinding rowId build binding).Sound rows := by
  refine h.use hrow (OrderedMap.nodup_set h.keys _ _) ?_ (fun key => OrderedMap.mem_map_fst_set)
    (.inr ⟨_, rfl, ?_⟩)
  · intro entry hentry
    rcases OrderedMap.mem_of_mem_set hentry with rfl | hmem
    · exact .inr rfl
    · exact .inl hmem
  · unfold bindingEdge
    cases binding.direction with
    | input => exact .inl ⟨rfl, rfl⟩
    | output => exact .inr ⟨rfl, rfl⟩

theorem LineageBuild.Sound.bindings (hrow : rowId ∈ rows)
    (bindings : List AssetBinding) : (bindings.foldl (addBinding rowId) build).Sound rows := by
  induction bindings generalizing build with
  | nil => exact h
  | cons binding bindings ih => exact ih (h.binding hrow binding)

theorem LineageBuild.Sound.trigger (hrow : rowId ∈ rows)
    (trigger : TriggerConfig) : (addTrigger rowId trigger build).Sound rows := by
  cases trigger with
  | cron _ | webhook _ _ | event _ | manual => exact h
  | asset urn =>
    refine h.use hrow ?_ ?_ ?_ ?_
    · split_ifs
      · exact h.keys
      · exact OrderedMap.nodup_set h.keys _ _
    · intro entry hentry
      split_ifs at hentry
      · exact .inl hentry
      · rcases OrderedMap.mem_of_mem_set hentry with rfl | hmem
        · exact .inr rfl
        · exact .inl hmem
    · intro key
      split_ifs with hmem
      · exact (or_iff_left_of_imp fun heq => heq ▸ hmem).symm
      · exact OrderedMap.mem_map_fst_set
    · split_ifs with hedge
      · obtain ⟨edge, hmem, hends⟩ := any_eq_true.mp hedge
        rw [Bool.and_eq_true, decide_eq_true_eq, decide_eq_true_eq] at hends
        exact .inl ⟨rfl, known_usesOf hmem hends.1 hends.2⟩
      · exact .inr ⟨_, rfl, .inl ⟨rfl, rfl⟩⟩

end

/-- The assets of the bindings are there. -/
theorem mem_assets_of_binding {bindings : List AssetBinding} {binding : AssetBinding}
    (h : binding ∈ bindings) :
    binding.asset.urn ∈ (bindings.foldl (addBinding rowId) build).assets.map Prod.fst := by
  have hkept : ∀ (bindings : List AssetBinding) (build : LineageBuild) (key : String),
      key ∈ build.assets.map Prod.fst →
        key ∈ (bindings.foldl (addBinding rowId) build).assets.map Prod.fst := by
    intro bindings
    induction bindings with
    | nil => exact fun build key hkey => hkey
    | cons first bindings ih =>
      exact fun build key hkey => ih _ key (OrderedMap.mem_map_fst_set.mpr (.inl hkey))
  induction bindings generalizing build with
  | nil => exact absurd h not_mem_nil
  | cons first bindings ih =>
    rcases mem_cons.mp h with rfl | h
    · exact hkept bindings _ _ (OrderedMap.mem_map_fst_set.mpr (.inr rfl))
    · exact ih h

/-- A trigger leaves the assets. -/
theorem subset_addTrigger (trigger : TriggerConfig) (build : LineageBuild) :
    build.assets.map Prod.fst ⊆ (addTrigger rowId trigger build).assets.map Prod.fst := by
  intro key hkey
  cases trigger with
  | cron _ | webhook _ _ | event _ | manual => exact hkey
  | asset urn =>
    unfold addTrigger
    dsimp only
    split_ifs
    · exact hkey
    · exact OrderedMap.mem_map_fst_set.mpr (.inl hkey)

/-- Links between fields of assets that are there are added. -/
theorem LineageBuild.Sound.columnEdges (h : build.Sound rows)
    {columnEdges : List WorkspaceColumnLineageEdge}
    (hcolumns : ∀ edge ∈ columnEdges, edge.sourceAssetUrn ∈ build.assets.map Prod.fst ∧
      edge.targetAssetUrn ∈ build.assets.map Prod.fst) :
    LineageBuild.Sound rows { build with columnEdges := build.columnEdges ++ columnEdges } :=
  { h with
    columns := fun edge hedge => (mem_append.mp hedge).elim (h.columns edge) (hcolumns edge) }

theorem LineageBuild.Sound.addColumns (h : build.Sound rows) {version : LineagePipelineVersion}
    {bindings : List AssetBinding}
    (hbindings : ∀ binding ∈ bindings, binding.asset.urn ∈ build.assets.map Prod.fst)
    (hadd : Shared.addColumns js version bindings build = .ok build') : build'.Sound rows := by
  unfold Shared.addColumns at hadd
  split at hadd
  next input output hinputs houtputs =>
    cases hmapping : columnMapping js version.definition.nodes output.asset.fields with
    | error err =>
      rw [hmapping] at hadd
      cases hadd
    | ok mapping =>
      rw [hmapping] at hadd
      cases hadd
      refine h.columnEdges fun edge hedge => ?_
      obtain ⟨field, -, hedge⟩ := mem_flatMap.mp hedge
      obtain ⟨inputField, -, rfl⟩ := mem_map.mp hedge
      have hinput : input ∈ bindings.filter (·.direction = .input) :=
        hinputs ▸ mem_singleton_self input
      have houtput : output ∈ bindings.filter (·.direction = .output) :=
        houtputs ▸ mem_singleton_self output
      exact ⟨hbindings input (mem_of_mem_filter hinput),
        hbindings output (mem_of_mem_filter houtput)⟩
  next =>
    cases hadd
    exact h

/-- **A version** keeps the graph sound. -/
theorem addVersion_sound (h : build.Sound rows) {version : LineagePipelineVersion}
    (hadd : addVersion js build version = .ok build') :
    build'.Sound (rows ++ [version.rowId]) := by
  have hrow : version.rowId ∈ rows ++ [version.rowId] :=
    mem_append_right rows (mem_singleton_self _)
  have hpipeline := h.pipeline version.toLineagePipeline
  have hbindings := hpipeline.bindings hrow (deriveAssetBindings js version.definition)
  refine (hbindings.trigger hrow version.definition.trigger).addColumns ?_ hadd
  exact fun binding hbinding => subset_addTrigger _ _ (mem_assets_of_binding hbinding)

theorem foldlM_sound (h : build.Sound rows) {versions : List LineagePipelineVersion}
    (hfold : versions.foldlM (addVersion js) build = .ok build') :
    build'.Sound (rows ++ versions.map (·.rowId)) := by
  induction versions generalizing rows build with
  | nil =>
    cases hfold
    rwa [map_nil, append_nil]
  | cons version versions ih =>
    rw [foldlM_cons] at hfold
    cases hadd : addVersion js build version with
    | error err =>
      rw [hadd] at hfold
      cases hfold
    | ok build₁ =>
      rw [hadd] at hfold
      have hsound := ih (addVersion_sound h hadd) hfold
      rw [append_assoc, singleton_append] at hsound
      exact hsound

/-- **What has been filled is sound**, whatever the versions are. -/
theorem sound_buildWorkspaceLineage {versions : List LineagePipelineVersion}
    {graph : WorkspaceLineage} (h : buildWorkspaceLineage js versions = .ok graph) :
    ∃ build, LineageBuild.Sound (versions.map (·.rowId)) build ∧ graph = build.graph versions := by
  unfold buildWorkspaceLineage at h
  cases hfold : versions.foldlM (addVersion js) {} with
  | error err =>
    rw [hfold] at h
    cases h
  | ok build =>
    rw [hfold] at h
    cases h
    exact ⟨build, foldlM_sound sound_empty hfold, rfl⟩

end sound

end Dataflow.Shared
