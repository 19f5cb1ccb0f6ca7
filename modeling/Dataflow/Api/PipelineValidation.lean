import Mathlib.Data.List.Induction
import Mathlib.Logic.Function.Basic
import Dataflow.Library.Results
import Dataflow.Model.Types

/-!
# `validatePipeline`: which definitions are accepted

The API accepts a definition after checks on the definition itself, on each node and each edge, a
topological walk that finds cycles, and the checks of the chosen engine.

* `checkNode`, `checkEdge`, `visitedCount`, `validatePipeline`: the code. The checks of the
  enterprise build on SQL texts and Flink deployments are the parameter `Enterprise`; `RangeIds` is
  the order in which `range indegree` visits the ids.
* `nodup_of_accepted`: the nodes of an accepted definition have different ids.
-/

namespace Dataflow.Api

open Library Model List Function

/-! ## The errors -/

/-- The errors of `validatePipeline`, in the order of the checks. -/
inductive ValidationError where
  | nameRequired
  | noNodes
  | triggerTypeRequired
  | unsupportedEngine (engine : String)
  | nodeIdRequired
  | duplicateNodeId (id : String)
  | invalidType (id word : String)
  | activityTypeRequired (id : String)
  | invalidLayer (id : String) (layer : Json)
  | unknownNode (edgeId : String)
  | cycle
  | streamActivity (activityType : String)
  | streamNotLinear
  | sparkSource (activityType : String)
  | sparkSink (activityType : String)
  | sparkTransform
  | sparkEnds
  | flinkSource
  | flinkSink
  | flinkTransform
  | flinkEnds
  | enterprise (text : String)
  deriving DecidableEq

/-- The texts of the errors; `formatValue` is the verb `%v` for a decoded value. -/
def ValidationError.message (formatValue : Json → String) : ValidationError → String
  | .nameRequired => "pipeline name is required"
  | .noNodes => "pipeline must contain at least one node"
  | .triggerTypeRequired => "trigger.type is required"
  | .unsupportedEngine engine => "unsupported execution engine " ++ engine.quote
  | .nodeIdRequired => "node id is required"
  | .duplicateNodeId id => "duplicate node id " ++ id.quote
  | .invalidType id word => "node " ++ id ++ " has invalid type " ++ word.quote
  | .activityTypeRequired id => "node " ++ id ++ " activityType is required"
  | .invalidLayer id layer =>
    "node " ++ id ++ " has invalid layer " ++ formatValue layer ++
      " (must be bronze, silver, or gold)"
  | .unknownNode edgeId => "edge " ++ edgeId ++ " references an unknown node"
  | .cycle => "pipeline contains a cycle"
  | .streamActivity activityType => "stream-direct does not support " ++ activityType
  | .streamNotLinear => "stream-direct requires one linear source-to-sink graph"
  | .sparkSource activityType => "spark-sql does not support source " ++ activityType
  | .sparkSink activityType => "spark-sql does not support sink " ++ activityType
  | .sparkTransform => "spark-sql uses execution.transformSql instead of transform nodes"
  | .sparkEnds => "spark-sql requires one source and one sink"
  | .flinkSource => "flink-sql requires Kafka/CDC input"
  | .flinkSink => "flink-sql requires ClickHouse output"
  | .flinkTransform => "flink-sql uses execution.transformSql instead of transform nodes"
  | .flinkEnds => "flink-sql requires one source and one sink"
  | .enterprise text => text

/-! ## The code -/

/-- The checks of package `enterprise`, which has one implementation for each build. -/
structure Enterprise where
  validateFlinkSelect : String → Except String Unit
  validateFlinkDeployment : PipelineDefinition → (executionId : String) → Except String Unit
  validateSparkSelect : String → Except String Unit

/-- The order in which `range` visits the keys of a map. -/
structure RangeIds where
  order : List String → List String
  perm : ∀ ids, (order ids).Perm ids

/-- `strings.TrimSpace(value) == ""`. -/
def blank (value : String) : Bool := value.toList.all isSpace

/-- The engines a definition may name. -/
def engines : List String := ["", "workflow", "stream-direct", "spark-sql", "flink-sql"]

/-- The layer a node may carry. -/
def validLayer (layer : Json) : Bool :=
  layer ∈ [Json.string "bronze", .string "silver", .string "gold"]

/-- The type of the node needs no activity. -/
def NeedsNoActivity (type : NodeType) : Prop := type = .fork ∨ type = .merge

instance (type : NodeType) : Decidable (NeedsNoActivity type) :=
  inferInstanceAs (Decidable (_ ∨ _))

/-- The checks on the fields of one node, after those on its id. -/
def checkFields (node : Node) : Except ValidationError Unit :=
  match node.type with
  | .other word => .error (.invalidType node.id word)
  | type =>
    if ¬ NeedsNoActivity type ∧ node.activityType = "" then .error (.activityTypeRequired node.id)
    else
      match node.config.lookup "layer" with
      | some layer => if validLayer layer then .ok () else .error (.invalidLayer node.id layer)
      | none => .ok ()

/-- One round of the loop over the nodes; `ids` are the ids seen so far. -/
def checkNode (ids : List String) (node : Node) : Except ValidationError (List String) := do
  if node.id = "" then throw .nodeIdRequired
  if node.id ∈ ids then throw (.duplicateNodeId node.id)
  checkFields node
  return ids ++ [node.id]

/-- The maps the loop over the edges fills. -/
structure GraphMaps where
  indegree : String → ℤ := fun _ => 0
  outgoing : String → List String := fun _ => []

/-- One round of the loop over the edges. -/
def checkEdge (ids : List String) (maps : GraphMaps) (edge : Edge) :
    Except ValidationError GraphMaps :=
  if edge.source ∉ ids ∨ edge.target ∉ ids then .error (.unknownNode edge.id)
  else .ok
    { indegree := update maps.indegree edge.target (maps.indegree edge.target + 1)
      outgoing := update maps.outgoing edge.source
        (maps.outgoing edge.source ++ [edge.target]) }

/-- Decrement the counter of a target and queue it when the counter reaches zero. -/
def releaseTarget (acc : (String → ℤ) × List String) (target : String) :
    (String → ℤ) × List String :=
  let indegree := update acc.1 target (acc.1 target - 1)
  (indegree, if indegree target = 0 then acc.2 ++ [target] else acc.2)

/-- The loop `for len(queue) > 0`, for at most `rounds` rounds; it counts the visited ids. -/
def visit (outgoing : String → List String) : ℕ → (String → ℤ) → List String → ℕ
  | 0, _, _ => 0
  | _ + 1, _, [] => 0
  | rounds + 1, indegree, id :: queue =>
    let released := (outgoing id).foldl releaseTarget (indegree, queue)
    visit outgoing rounds released.1 released.2 + 1

/-- The topological walk: how many ids it visits. -/
def visitedCount (ranging : RangeIds) (ids : List String) (maps : GraphMaps) : ℕ :=
  let queue := (ranging.order ids).filter fun id => maps.indegree id = 0
  visit maps.outgoing (ids.length + 1) maps.indegree queue

/-- How many nodes have a type. -/
def countType (nodes : List Node) (type : NodeType) : ℕ := nodes.countP fun node => node.type = type

/-- The activities `stream-direct` supports. -/
def streamActivities : List String :=
  ["kafka.fetch", "transform.map", "transform.filter", "transform.rename", "transform.parse",
    "transform.contract", "sink.postgres", "sink.mysql", "sink.mongodb", "sink.clickhouse"]

/-- Source: `pipeline_validation.go` `validateStreamDirect`. -/
def validateStreamDirect (definition : PipelineDefinition) : Except ValidationError Unit :=
  match definition.nodes.find? fun node => node.activityType ∉ streamActivities with
  | some node => .error (.streamActivity node.activityType)
  | none =>
    if countType definition.nodes .source ≠ 1 ∨ countType definition.nodes .sink ≠ 1 ∨
        (definition.edges.length : ℤ) ≠ definition.nodes.length - 1 then .error .streamNotLinear
    else .ok ()

/-- `execution.transformSql`. -/
def transformSql (definition : PipelineDefinition) : String :=
  (definition.execution.map ExecutionConfig.transformSql).getD ""

/-- An error of package `enterprise`. -/
def enterpriseCheck : Except String Unit → Except ValidationError Unit
  | .ok () => .ok ()
  | .error text => .error (.enterprise text)

/-- The check of `validateSparkSQL` on one node. -/
def checkSparkNode (node : Node) : Except ValidationError Unit :=
  match node.type with
  | .source =>
    if node.activityType ∈ ["s3.fetch", "iceberg.fetch"] then .ok ()
    else .error (.sparkSource node.activityType)
  | .sink =>
    if node.activityType ∈ ["sink.iceberg", "sink.clickhouse"] then .ok ()
    else .error (.sparkSink node.activityType)
  | .transform => .error .sparkTransform
  | _ => .ok ()

/-- Source: `pipeline_validation.go` `validateSparkSQL`. -/
def validateSparkSQL (enterprise : Enterprise) (definition : PipelineDefinition) :
    Except ValidationError Unit := do
  enterpriseCheck (enterprise.validateSparkSelect (transformSql definition))
  definition.nodes.forM checkSparkNode
  if countType definition.nodes .source ≠ 1 ∨ countType definition.nodes .sink ≠ 1 then
    throw .sparkEnds

/-- The check of `validateFlinkSQL` on one node. -/
def checkFlinkNode (node : Node) : Except ValidationError Unit :=
  match node.type with
  | .source => if node.activityType = "kafka.fetch" then .ok () else .error .flinkSource
  | .sink => if node.activityType = "sink.clickhouse" then .ok () else .error .flinkSink
  | .transform => .error .flinkTransform
  | _ => .ok ()

/-- Source: `pipeline_validation.go` `validateFlinkSQL`. -/
def validateFlinkSQL (enterprise : Enterprise) (definition : PipelineDefinition) :
    Except ValidationError Unit := do
  enterpriseCheck (enterprise.validateFlinkSelect (transformSql definition))
  definition.nodes.forM checkFlinkNode
  if countType definition.nodes .source ≠ 1 ∨ countType definition.nodes .sink ≠ 1 then
    throw .flinkEnds
  enterpriseCheck (enterprise.validateFlinkDeployment definition "validation")

/-- The check of the engine the definition names. -/
def validateEngine (enterprise : Enterprise) (definition : PipelineDefinition) :
    Except ValidationError Unit :=
  match definition.execution.map ExecutionConfig.engine with
  | some "stream-direct" => validateStreamDirect definition
  | some "spark-sql" => validateSparkSQL enterprise definition
  | some "flink-sql" => validateFlinkSQL enterprise definition
  | _ => .ok ()

/-- The checks on the nodes and edges as a graph. -/
def checkGraph (ranging : RangeIds) (definition : PipelineDefinition) :
    Except ValidationError Unit := do
  let ids ← definition.nodes.foldlM checkNode []
  let maps ← definition.edges.foldlM (checkEdge ids) {}
  if visitedCount ranging ids maps ≠ definition.nodes.length then throw .cycle

/-- The checks on the definition's own fields. -/
def checkHeader (definition : PipelineDefinition) : Except ValidationError Unit := do
  if blank definition.name then throw .nameRequired
  if definition.nodes = [] then throw .noNodes
  if definition.triggerType = "" then throw .triggerTypeRequired
  if let some execution := definition.execution then
    if execution.engine ∉ engines then throw (.unsupportedEngine execution.engine)

/-- Source: `pipeline_validation.go` `validatePipeline`. -/
def validatePipeline (enterprise : Enterprise) (ranging : RangeIds)
    (definition : PipelineDefinition) : Except ValidationError Unit := do
  checkHeader definition
  checkGraph ranging definition
  validateEngine enterprise definition

/-- The definition is accepted. -/
def Accepted (enterprise : Enterprise) (ranging : RangeIds) (definition : PipelineDefinition) :
    Prop :=
  validatePipeline enterprise ranging definition = .ok ()

instance (enterprise : Enterprise) (ranging : RangeIds) (definition : PipelineDefinition) :
    Decidable (Accepted enterprise ranging definition) :=
  match h : validatePipeline enterprise ranging definition with
  | .ok () => isTrue h
  | .error err => isFalse fun hok => by
    simp [Accepted, h] at hok

/-! ## What an accepted definition satisfies -/

/-- A node passes: its id is new and it is added to the ids. -/
theorem checkNode_eq_ok {ids ids' : List String} {node : Node} (h : checkNode ids node = .ok ids') :
    node.id ≠ "" ∧ node.id ∉ ids ∧ checkFields node = .ok () ∧ ids' = ids ++ [node.id] := by
  unfold checkNode at h
  by_cases hempty : node.id = ""
  · simp [hempty, bind, Except.bind, throw, throwThe, MonadExceptOf.throw] at h
  by_cases hmem : node.id ∈ ids
  · simp [hempty, hmem, bind, Except.bind, throw, throwThe, MonadExceptOf.throw] at h
  rw [if_neg hempty, if_neg hmem] at h
  obtain ⟨⟨⟩, hfields, h⟩ := bind_eq_ok.mp h
  cases h
  exact ⟨hempty, hmem, hfields, rfl⟩

/-- The loop over the nodes passes: the ids are new and distinct. -/
theorem checkNodes_eq_ok {nodes : List Node} {ids ids' : List String}
    (h : nodes.foldlM checkNode ids = .ok ids') :
    ids' = ids ++ nodes.map Node.id ∧ (ids.Nodup → ids'.Nodup) ∧
      ∀ node ∈ nodes, node.id ≠ "" ∧ checkFields node = .ok () := by
  induction nodes generalizing ids with
  | nil =>
    cases h
    refine ⟨by simp, fun hids => hids, ?_⟩
    simp
  | cons node nodes ih =>
    rw [foldlM_cons] at h
    obtain ⟨seen, hnode, hrest⟩ := bind_eq_ok.mp h
    obtain ⟨hempty, hnew, hfields, rfl⟩ := checkNode_eq_ok hnode
    obtain ⟨rfl, hnodup, hall⟩ := ih hrest
    refine ⟨by simp, fun hids => hnodup ?_, ?_⟩
    · rw [nodup_append]
      refine ⟨hids, by simp, fun a ha b hb heq => ?_⟩
      rw [mem_singleton.mp hb] at heq
      exact hnew (heq ▸ ha)
    · intro other hother
      rcases mem_cons.mp hother with rfl | hother
      · exact ⟨hempty, hfields⟩
      · exact hall other hother

/-- The loop over the edges passes: the end points are known. -/
theorem checkEdges_eq_ok {ids : List String} {edges : List Edge} {maps maps' : GraphMaps}
    (h : edges.foldlM (checkEdge ids) maps = .ok maps') :
    ∀ edge ∈ edges, edge.source ∈ ids ∧ edge.target ∈ ids := by
  induction edges generalizing maps with
  | nil => simp
  | cons edge edges ih =>
    rw [foldlM_cons] at h
    obtain ⟨next, hedge, hrest⟩ := bind_eq_ok.mp h
    intro other hother
    rcases mem_cons.mp hother with rfl | hother
    · unfold checkEdge at hedge
      split_ifs at hedge with hunknown
      rwa [not_or, not_not, not_not] at hunknown
    · exact ih hrest other hother

section accepted

variable {enterprise : Enterprise} {ranging : RangeIds} {definition : PipelineDefinition}

variable (h : Accepted enterprise ranging definition)

include h

/-- The checks on the graph passed. -/
theorem checkGraph_of_accepted : checkGraph ranging definition = .ok () := by
  obtain ⟨-, -, h⟩ := bind_eq_ok.mp h
  obtain ⟨⟨⟩, hgraph, -⟩ := bind_eq_ok.mp h
  exact hgraph

/-- **The nodes of an accepted definition have distinct ids.** -/
theorem nodup_of_accepted : (definition.nodes.map Node.id).Nodup := by
  obtain ⟨ids, hnodes, -⟩ := bind_eq_ok.mp (checkGraph_of_accepted h)
  obtain ⟨rfl, hnodup, -⟩ := checkNodes_eq_ok hnodes
  exact hnodup nodup_nil

/-- The nodes of an accepted definition have ids that are not empty. -/
theorem id_ne_of_accepted {node : Node} (hnode : node ∈ definition.nodes) : node.id ≠ "" := by
  obtain ⟨ids, hnodes, -⟩ := bind_eq_ok.mp (checkGraph_of_accepted h)
  obtain ⟨-, -, hall⟩ := checkNodes_eq_ok hnodes
  exact (hall node hnode).1

/-- The check of the engine passed. -/
theorem validateEngine_of_accepted : validateEngine enterprise definition = .ok () := by
  obtain ⟨-, -, h⟩ := bind_eq_ok.mp h
  obtain ⟨-, -, h⟩ := bind_eq_ok.mp h
  exact h

/-- **A definition for the engine `stream-direct` has one source.** -/
theorem countType_source_of_stream
    (hengine : definition.execution.map ExecutionConfig.engine = some "stream-direct") :
    countType definition.nodes .source = 1 := by
  have hvalid := validateEngine_of_accepted h
  unfold validateEngine at hvalid
  rw [hengine] at hvalid
  simp only [validateStreamDirect] at hvalid
  split at hvalid
  · cases hvalid
  · split_ifs at hvalid with hlinear
    rw [not_or, not_not] at hlinear
    exact hlinear.1

end accepted

end Dataflow.Api
