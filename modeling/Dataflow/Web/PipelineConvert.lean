import Dataflow.Library.Float64
import Dataflow.Web.ValidatePipeline

/-!
# Opening and saving a definition in the editor

The editor shows a definition as a graph of nodes and edges, and makes a definition of the graph
when it is saved. What the graph has no place for is lost.

* `SavedNode`, `SavedDefinition`: definitions with the fields that the server keeps.
* `JsNode`, `receivedNode`: what the browser gets of a node.
* `definitionToFlow`, `flowToDefinition`: the code.
* `saved`: what the server makes of what the browser sends.
* `savedNode_eq_ok_iff`: which nodes come back as they were.
* `round_trip_iff`: **main result**: which definitions do.
* `timeout_lost`: a definition that is accepted and does not.

Source: `pipelineConvert.ts`, `types.go`
-/

namespace Dataflow.Web.PipelineConvert

open Api Library Library.Float64 Model List

/-! ## Definitions -/

/-- Source: `types.go` `RetryConfig`. -/
structure RetryConfig where
  maximumAttempts : ℤ := 0
  deriving DecidableEq

/-- Source: `types.go` `DataAssetRef`; `namespaceName` is its `Namespace`. -/
structure DataAssetRef where
  urn : String := ""
  platform : String := ""
  namespaceName : String := ""
  name : String := ""
  type : String := ""
  layer : String := ""
  schema : JsonMap := []
  owner : String := ""
  tags : List String := []
  deriving DecidableEq

/-- Source: `types.go` `Node`, with the fields that only the activities read. -/
structure SavedNode extends Node where
  label : String := ""
  timeoutSec : ℤ := 0
  retry : Option RetryConfig := none
  inputAssets : List DataAssetRef := []
  outputAssets : List DataAssetRef := []
  deriving DecidableEq

/-- Source: `types.go` `Trigger`. -/
structure Trigger where
  type : String := ""
  schedule : String := ""
  path : String := ""
  secret : String := ""
  topic : String := ""
  assetUrn : String := ""
  deriving DecidableEq

/-- Source: `types.go` `PipelineDefinition`; `maxParallelNodes` is `Concurrency.MaxParallelNodes`
behind its optional record, and `metadata`, `slo` and `notifications` are nil or an object. -/
structure SavedDefinition where
  id : String := ""
  version : ℤ := 0
  name : String := ""
  tenantId : String := ""
  trigger : Trigger := {}
  nodes : List SavedNode := []
  edges : List Edge := []
  maxParallelNodes : Option ℤ := none
  metadata : Json := .null
  slo : Json := .null
  notifications : Json := .null
  execution : Option ExecutionConfig := none

/-- The definition that `validatePipeline` checks. -/
def SavedDefinition.checked (definition : SavedDefinition) : PipelineDefinition where
  id := definition.id
  version := definition.version
  name := definition.name
  tenantId := definition.tenantId
  triggerType := definition.trigger.type
  nodes := definition.nodes.map SavedNode.toNode
  edges := definition.edges
  maxParallelNodes := definition.maxParallelNodes
  execution := definition.execution
  triggerSchedule := definition.trigger.schedule

/-! ## What the browser receives -/

/-- A node as an object; what is absent is `undefined`. -/
structure JsNode where
  id : String
  type : Option NodeType := none
  activityType : String := ""
  label : Option String := none
  config : JsonMap := []
  ingestion : Option IngestionConfig := none
  timeoutSec : Option ℤ := none
  retry : Option RetryConfig := none
  mergeStrategy : Option String := none
  joinKey : Option String := none
  inputAssets : Option (List DataAssetRef) := none
  outputAssets : Option (List DataAssetRef) := none

/-- An edge as an object. -/
structure JsEdge where
  id : Option String := none
  source : String
  target : String
  condition : Option String := none

/-- A value with `omitempty`. -/
def omitEmpty {α : Type} [DecidableEq α] (empty value : α) : Option α :=
  if value = empty then none else some value

/-- The settings of the ingestion, whose numbers are read as floating-point numbers. -/
def readIngestion (ingestion : IngestionConfig) : IngestionConfig :=
  { ingestion with pageSize := roundInt ingestion.pageSize }

/-- A node of the server in the browser. -/
def receivedNode (node : SavedNode) : JsNode where
  id := node.id
  type := some node.type
  activityType := node.activityType
  label := omitEmpty "" node.label
  config := node.config
  ingestion := node.ingestion.map readIngestion
  timeoutSec := (omitEmpty 0 node.timeoutSec).map roundInt
  retry := node.retry
  mergeStrategy := omitEmpty "" node.mergeStrategy
  joinKey := omitEmpty "" node.joinKey
  inputAssets := omitEmpty [] node.inputAssets
  outputAssets := omitEmpty [] node.outputAssets

/-- An edge of the server in the browser. -/
def receivedEdge (edge : Edge) : JsEdge where
  id := some edge.id
  source := edge.source
  target := edge.target
  condition := omitEmpty "" edge.condition

/-! ## The graph -/

/-- `data` of a node of the graph. -/
structure NodeData where
  activityType : String
  nodeType : Option NodeType
  label : Option String
  ingestion : Option IngestionConfig
  config : JsonMap

/-- A node of the graph. -/
structure FlowNode where
  id : String
  type : String
  position : ℕ × ℕ
  data : NodeData

/-- An edge of the graph; a colour that is absent is that of the theme. -/
structure FlowEdge where
  id : String
  source : String
  target : String
  condition : Option String
  label : Option String
  animated : Bool
  stroke : Option String
  labelFill : Option String

/-- `...(value ? { [key]: value } : {})`. -/
def spread (config : JsonMap) (key : String) : Option String → JsonMap
  | none => config
  | some value => if value = "" then config else config.set key (.string value)

/-- `value || undefined`. -/
def orUndefined (value : Option String) : Option String := value.filter fun text => text ≠ ""

section code

variable (byType : String → Option NodeType) (now : String)

/-- One round of the loop over the nodes. -/
def flowNode (i : ℕ) (node : JsNode) : FlowNode where
  id := node.id
  type := "flowNode"
  position := (80 + i * 60, 80 + i % 5 * 100)
  data := {
    activityType := node.activityType
    nodeType := node.type.or (byType node.activityType)
    label := node.label
    ingestion := node.ingestion
    config := spread (spread node.config "mergeStrategy" node.mergeStrategy) "joinKey" node.joinKey }

/-- One round of the loop over the edges. -/
def flowEdge (edge : JsEdge) : FlowEdge :=
  let shown := orUndefined edge.condition
  { id := edge.id.getD ("e" ++ now ++ "-" ++ edge.source ++ "-" ++ edge.target)
    source := edge.source
    target := edge.target
    condition := edge.condition
    label := shown
    animated := shown.isSome
    stroke := shown.map fun _ => "#f5b342"
    labelFill := shown.map fun _ => "#f5b342" }

/-- Source: `pipelineConvert.ts` `definitionToFlow`. -/
def definitionToFlow (nodes : List JsNode) (edges : List JsEdge) : List FlowNode × List FlowEdge :=
  (nodes.mapIdx (flowNode byType), edges.map (flowEdge now))

end code

/-! ## What is saved -/

/-- What the editor keeps beside the graph. -/
structure Meta where
  name : String
  trigger : Trigger
  pipelineKey : Option String
  metadata : Json
  slo : Json
  notifications : Json
  execution : Option ExecutionConfig

/-- A node that is sent; the last two settings have whatever the configuration has. -/
structure SentNode where
  id : String
  type : Option NodeType
  activityType : String
  label : Option String
  config : JsonMap
  ingestion : Option IngestionConfig
  mergeStrategy : Json
  joinKey : Json

/-- The definition that is sent. -/
structure SentDefinition where
  id : String
  version : ℤ
  name : String
  tenantId : String
  trigger : Trigger
  metadata : Json
  slo : Json
  notifications : Json
  execution : Option ExecutionConfig
  nodes : List SentNode
  edges : List JsEdge

/-- A node of the graph as it is sent. -/
def sentNode (node : FlowNode) : SentNode where
  id := node.id
  type := node.data.nodeType
  activityType := node.data.activityType
  label := node.data.label
  config := node.data.config
  ingestion := node.data.ingestion
  mergeStrategy := node.data.config.get "mergeStrategy"
  joinKey := node.data.config.get "joinKey"

/-- An edge of the graph as it is sent. -/
def sentEdge (edge : FlowEdge) : JsEdge where
  id := some edge.id
  source := edge.source
  target := edge.target
  condition := orUndefined edge.condition

/-- Source: `pipelineConvert.ts` `flowToDefinition`. -/
def flowToDefinition (nodes : List FlowNode) (edges : List FlowEdge) (settings : Meta) :
    SentDefinition where
  id := settings.pipelineKey.getD ""
  version := 0
  name := settings.name
  tenantId := "default"
  trigger := settings.trigger
  metadata := settings.metadata
  slo := settings.slo
  notifications := settings.notifications
  execution := settings.execution
  nodes := nodes.map sentNode
  edges := edges.map sentEdge

/-! ## What the server reads -/

/-- A text is read from a text or from `null`. -/
def readText (key : String) : Json → Except String String
  | .null => .ok ""
  | .string value => .ok value
  | _ => .error ("json: cannot unmarshal into Go struct field Node." ++ key ++ " of type string")

/-- An `int` is read from the digits that the browser writes. -/
def readInt (value : ℤ) : Except String ℤ :=
  if -2 ^ 63 ≤ shortestInt value ∧ shortestInt value < 2 ^ 63 then .ok (shortestInt value)
  else .error "json: cannot unmarshal number into Go value of type int"

/-- The settings of the ingestion. -/
def savedIngestion : Option IngestionConfig → Except String (Option IngestionConfig)
  | none => .ok none
  | some ingestion =>
    (readInt ingestion.pageSize).map fun pageSize => some { ingestion with pageSize }

/-- A node that is sent, as the server reads it. -/
def savedNode (node : SentNode) : Except String SavedNode := do
  let ingestion ← savedIngestion node.ingestion
  let mergeStrategy ← readText "mergeStrategy" node.mergeStrategy
  let joinKey ← readText "joinKey" node.joinKey
  return {
    id := node.id
    type := node.type.getD (.other "")
    activityType := node.activityType
    label := node.label.getD ""
    config := node.config
    ingestion, mergeStrategy, joinKey }

/-- An edge that is sent, as the server reads it. -/
def savedEdge (edge : JsEdge) : Edge where
  id := edge.id.getD ""
  source := edge.source
  target := edge.target
  condition := edge.condition.getD ""

/-- The definition that is sent, as the server reads it. -/
def saved (definition : SentDefinition) : Except String SavedDefinition := do
  let nodes ← definition.nodes.mapM savedNode
  return {
    id := definition.id
    version := definition.version
    name := definition.name
    tenantId := definition.tenantId
    trigger := definition.trigger
    metadata := definition.metadata
    slo := definition.slo
    notifications := definition.notifications
    execution := definition.execution
    nodes
    edges := definition.edges.map savedEdge }

/-- What the editor is given beside the graph. -/
def SavedDefinition.settings (definition : SavedDefinition) : Meta where
  name := definition.name
  trigger := definition.trigger
  pipelineKey := some definition.id
  metadata := definition.metadata
  slo := definition.slo
  notifications := definition.notifications
  execution := definition.execution

/-- A definition that is opened and saved. -/
def roundTrip (byType : String → Option NodeType) (now : String) (definition : SavedDefinition) :
    Except String SavedDefinition :=
  let flow := definitionToFlow byType now (definition.nodes.map receivedNode)
    (definition.edges.map receivedEdge)
  saved (flowToDefinition flow.1 flow.2 definition.settings)

/-! ## What comes back -/

/-- The two have the same nodes, edges and concurrency. -/
def Unchanged (definition definition' : SavedDefinition) : Prop :=
  definition'.nodes = definition.nodes ∧ definition'.edges = definition.edges ∧
    definition'.maxParallelNodes = definition.maxParallelNodes

/-- The configuration has a setting of the node, too; it has none where the node has none. -/
def SettingKept (config : JsonMap) (key value : String) : Prop :=
  if value = "" then config.get key = .null ∨ config.get key = .string ""
  else config.lookup key = some (.string value)

/-- The node has nothing that the graph has no place for. -/
structure NodeKept (node : SavedNode) : Prop where
  timeoutSec : node.timeoutSec = 0
  retry : node.retry = none
  inputAssets : node.inputAssets = []
  outputAssets : node.outputAssets = []
  mergeStrategy : SettingKept node.config "mergeStrategy" node.mergeStrategy
  joinKey : SettingKept node.config "joinKey" node.joinKey
  pageSize : ∀ ingestion, node.ingestion = some ingestion →
    readInt (roundInt ingestion.pageSize) = .ok ingestion.pageSize

/-- The definition has nothing that the graph has no place for. -/
def Kept (definition : SavedDefinition) : Prop :=
  definition.maxParallelNodes = none ∧ ∀ node ∈ definition.nodes, NodeKept node

/-! ## The settings of a node -/

section settings

variable {config : JsonMap} {key other value : String}

theorem spread_omitEmpty (config : JsonMap) (key value : String) :
    spread config key (omitEmpty "" value) =
      if value = "" then config else config.set key (.string value) := by
  unfold omitEmpty
  split_ifs with h
  · rfl
  · rw [spread, if_neg h]

theorem lookup_spread_of_ne (h : other ≠ key) :
    (spread config key (omitEmpty "" value)).lookup other = config.lookup other := by
  rw [spread_omitEmpty]
  split_ifs
  · rfl
  · rw [JsonMap.lookup_set, if_neg h]

/-- A setting that is written into a configuration leaves it if it is there. -/
theorem spread_eq_self_iff : spread config key (omitEmpty "" value) = config ↔
    value ≠ "" → config.lookup key = some (.string value) := by
  rw [spread_omitEmpty]
  split_ifs with h
  · simp [h]
  · constructor
    · intro heq _
      rw [← heq, JsonMap.lookup_set, if_pos rfl]
    · intro hlookup
      exact JsonMap.set_lookup (hlookup h)

theorem readText_eq_ok_iff {json : Json} : readText key json = .ok value ↔
    json = .string value ∨ (json = .null ∧ value = "") := by
  unfold readText
  split
  · simp [eq_comm]
  · simp
  · rename_i hnull htext
    constructor
    · intro h
      cases h
    · rintro (heq | ⟨heq, -⟩)
      · exact absurd heq (htext value)
      · exact absurd heq hnull

/-- **A setting is kept** if the configuration stays and the setting is read back from it. -/
theorem settingKept_iff : SettingKept config key value ↔
    spread config key (omitEmpty "" value) = config ∧
    readText key (config.get key) = .ok value := by
  rw [spread_eq_self_iff, readText_eq_ok_iff]
  unfold SettingKept
  split_ifs with h
  · rw [h]
    simp [or_comm]
  · constructor
    · intro hlookup
      refine ⟨fun _ => hlookup, .inl ?_⟩
      rw [JsonMap.get, hlookup]
      rfl
    · rintro ⟨hlookup, -⟩
      exact hlookup h

/-- The configuration in the editor. -/
def editedConfig (node : SavedNode) : JsonMap :=
  spread (spread node.config "mergeStrategy" (omitEmpty "" node.mergeStrategy)) "joinKey"
    (omitEmpty "" node.joinKey)

/-- The two settings of a node come back if both are kept. -/
theorem settings_kept_iff {node : SavedNode} : (editedConfig node = node.config ∧
        readText "mergeStrategy" ((editedConfig node).get "mergeStrategy") = .ok node.mergeStrategy ∧
        readText "joinKey" ((editedConfig node).get "joinKey") = .ok node.joinKey) ↔
      SettingKept node.config "mergeStrategy" node.mergeStrategy ∧
        SettingKept node.config "joinKey" node.joinKey := by
  rw [settingKept_iff, settingKept_iff]
  constructor
  · rintro ⟨hconfig, hmerge, hjoin⟩
    rw [hconfig] at hmerge hjoin
    have hfirst : spread node.config "mergeStrategy" (omitEmpty "" node.mergeStrategy) =
        node.config := by
      rw [spread_eq_self_iff]
      intro hne
      rw [← hconfig, editedConfig, lookup_spread_of_ne (by decide), spread_omitEmpty, if_neg hne,
        JsonMap.lookup_set, if_pos rfl]
    rw [editedConfig, hfirst] at hconfig
    exact ⟨⟨hfirst, hmerge⟩, hconfig, hjoin⟩
  · rintro ⟨⟨hfirst, hmerge⟩, hsecond, hjoin⟩
    have hconfig : editedConfig node = node.config := by rw [editedConfig, hfirst, hsecond]
    rw [hconfig]
    exact ⟨rfl, hmerge, hjoin⟩

end settings

/-! ## Nodes and edges -/

section parts

variable {byType : String → Option NodeType} {now : String}

/-- The ingestion comes back if its page size does. -/
theorem savedIngestion_eq_ok_iff {ingestion : Option IngestionConfig} :
    savedIngestion (ingestion.map readIngestion) = .ok ingestion ↔
      ∀ settings, ingestion = some settings → readInt (roundInt settings.pageSize) = .ok settings.pageSize := by
  cases ingestion with
  | none => simp [savedIngestion]
  | some settings =>
    simp only [Option.map_some, savedIngestion, readIngestion, map_eq_ok, Option.some.injEq]
    constructor
    · rintro ⟨pageSize, hread, heq⟩ _ rfl
      have hsize := congrArg IngestionConfig.pageSize heq
      dsimp only at hsize
      rw [hread, hsize]
    · intro h
      exact ⟨settings.pageSize, h settings rfl, rfl⟩

theorem getD_omitEmpty {α : Type} [DecidableEq α] (empty value : α) :
    (omitEmpty empty value).getD empty = value := by
  unfold omitEmpty
  split_ifs with h
  · exact h.symm
  · rfl

/-- **A node comes back** if the graph has a place for all that it has. -/
theorem savedNode_eq_ok_iff {node : SavedNode} {i : ℕ} :
    savedNode (sentNode (flowNode byType i (receivedNode node))) = .ok node ↔ NodeKept node := by
  constructor
  · intro h
    obtain ⟨ingestion, hingestion, h⟩ := bind_eq_ok.mp h
    obtain ⟨mergeStrategy, hmerge, h⟩ := bind_eq_ok.mp h
    obtain ⟨joinKey, hjoin, h⟩ := bind_eq_ok.mp h
    have heq := Except.ok.inj h
    have hconfig : editedConfig node = node.config := congrArg (·.config) heq
    obtain rfl : ingestion = node.ingestion := congrArg (·.ingestion) heq
    obtain rfl : mergeStrategy = node.mergeStrategy := congrArg (·.mergeStrategy) heq
    obtain rfl : joinKey = node.joinKey := congrArg (·.joinKey) heq
    obtain ⟨hmergeKept, hjoinKept⟩ := settings_kept_iff.mp ⟨hconfig, hmerge, hjoin⟩
    exact {
      timeoutSec := (congrArg SavedNode.timeoutSec heq).symm
      retry := (congrArg SavedNode.retry heq).symm
      inputAssets := (congrArg SavedNode.inputAssets heq).symm
      outputAssets := (congrArg SavedNode.outputAssets heq).symm
      mergeStrategy := hmergeKept
      joinKey := hjoinKept
      pageSize := savedIngestion_eq_ok_iff.mp hingestion }
  · intro h
    obtain ⟨hconfig, hmerge, hjoin⟩ := settings_kept_iff.mpr ⟨h.mergeStrategy, h.joinKey⟩
    refine bind_eq_ok.mpr ⟨node.ingestion, savedIngestion_eq_ok_iff.mpr h.pageSize, ?_⟩
    refine bind_eq_ok.mpr ⟨node.mergeStrategy, hmerge, bind_eq_ok.mpr ⟨node.joinKey, hjoin, ?_⟩⟩
    refine congrArg Except.ok ?_
    obtain ⟨base, label, timeoutSec, retry, inputAssets, outputAssets⟩ := node
    obtain ⟨rfl, rfl, rfl, rfl⟩ : timeoutSec = 0 ∧ retry = none ∧ inputAssets = [] ∧ outputAssets = [] :=
      ⟨h.timeoutSec, h.retry, h.inputAssets, h.outputAssets⟩
    change SavedNode.mk { base with config := editedConfig ⟨base, label, 0, none, [], []⟩ }
      ((omitEmpty "" label).getD "") 0 none [] [] = _
    rw [hconfig, getD_omitEmpty]

/-- **An edge comes back.** -/
theorem savedEdge_sentEdge (edge : Edge) :
    savedEdge (sentEdge (flowEdge now (receivedEdge edge))) = edge := by
  have hcondition : (orUndefined (omitEmpty "" edge.condition)).getD "" = edge.condition := by
    unfold omitEmpty orUndefined
    by_cases h : edge.condition = ""
    · simp [h]
    · simp [h, Option.filter]
  unfold savedEdge sentEdge flowEdge receivedEdge
  simp [hcondition]

/-- The nodes of a definition, one by one: where they are shown does not matter. -/
theorem mapM_savedNode (nodes : List SavedNode) :
    ((((nodes.map receivedNode).mapIdx (flowNode byType)).map sentNode).mapM savedNode =
      .ok nodes) ↔
      ∀ node ∈ nodes, NodeKept node := by
  have hsent : (((nodes.map receivedNode).mapIdx (flowNode byType)).map sentNode) =
      nodes.map fun node => sentNode (flowNode byType 0 (receivedNode node)) := by
    apply ext_getElem
    · simp
    · intro i _ _
      simp only [getElem_map, getElem_mapIdx]
      rfl
  have heach :
      (nodes.mapM fun node => savedNode (sentNode (flowNode byType 0 (receivedNode node)))) =
      .ok (nodes.map id) ↔
        ∀ node ∈ nodes, savedNode (sentNode (flowNode byType 0 (receivedNode node))) = .ok node :=
    mapM_eq_ok_map_iff
  rw [map_id] at heach
  rw [hsent, mapM_map]
  refine heach.trans (forall₂_congr fun node _ => ?_)
  exact savedNode_eq_ok_iff

/-- **Which definitions come back as they were**: those whose nodes all do, and which have no
concurrency. -/
theorem round_trip_iff (byType : String → Option NodeType) (now : String)
    (definition : SavedDefinition) :
    (∃ definition', roundTrip byType now definition = .ok definition' ∧
      Unchanged definition definition') ↔
      Kept definition := by
  have hedges :
      (((definition.edges.map receivedEdge).map (flowEdge now)).map sentEdge).map savedEdge =
      definition.edges := by
    rw [map_map, map_map, map_map]
    exact map_id'' savedEdge_sentEdge definition.edges
  unfold Kept
  rw [← mapM_savedNode]
  constructor
  · rintro ⟨definition', h, hnodes, -, hconcurrency⟩
    obtain ⟨nodes, hsaved, h⟩ := bind_eq_ok.mp h
    obtain rfl := Except.ok.inj h
    obtain rfl : nodes = definition.nodes := hnodes
    exact ⟨hconcurrency.symm, hsaved⟩
  · rintro ⟨hconcurrency, hsaved⟩
    exact ⟨_, bind_eq_ok.mpr ⟨definition.nodes, hsaved, rfl⟩, rfl, hedges, hconcurrency.symm⟩

end parts

/-! ## Two definitions -/

/-- A source and a sink; the source may have a time limit. -/
def copyDefinition (timeoutSec : ℤ) : SavedDefinition where
  id := "copy"
  name := "copy"
  trigger := { type := "manual" }
  nodes := [{ id := "in", type := .source, activityType := "http.fetch", timeoutSec },
    { id := "out", type := .sink, activityType := "sink.records" }]
  edges := [{ id := "e1", source := "in", target := "out" }]

/-- **A definition that is accepted loses its time limit.** -/
theorem timeout_lost : Accepted anyEnterprise inOrder (copyDefinition 30).checked ∧
      ¬ ∃ definition', roundTrip (fun _ => none) "0" (copyDefinition 30) = .ok definition' ∧
        Unchanged (copyDefinition 30) definition' := by
  refine ⟨by rfl, ?_⟩
  rintro ⟨definition', heq, hnodes, -⟩
  obtain rfl := Except.ok.inj heq
  exact absurd hnodes (by decide)

end Dataflow.Web.PipelineConvert
