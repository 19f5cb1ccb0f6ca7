import Dataflow.Api.DataContracts
import Dataflow.Api.PipelineValidation
import Dataflow.Library.Search

/-!
# The data contracts of a definition

The contract of a sink is the schema of a contract transform upstream of it. The nodes upstream are
searched in depth; the first contract transform whose schema is a map ends the search.

* `findContract`, `extractContracts`: the code.
* `ContractAncestor`: a contract transform upstream of a sink, with the schema it has when it runs.
* `ExtractionComplete`: every sink with such an ancestor has the schema of one of them.
* `extractContracts_complete_iff`: the extraction knows the schemas that are maps, and overlooks
  those that are texts.

Source: `routes_pipelines.go`
-/

namespace Dataflow.Api

open Connectors Library Library.Lists Library.Search List
open Model Workflows

/-! ## The code -/

/-- `incoming[nodeID]`: the sources of the edges to a node, in the order of the edges. -/
def incomingSources (edges : List Edge) (nodeId : String) : List String :=
  (edges.filter fun edge => edge.target = nodeId).map Edge.source

/-- The schema of a node that is a contract transform with a map for its schema. -/
def contractAt (nodeMap : String → Option Node) (nodeId : String) : Option JsonMap :=
  match nodeMap nodeId with
  | some node =>
    if node.activityType = "transform.contract" then (node.config.get "schemaJson").asObject?
    else none
  | none => none

/-- Source: `routes_pipelines.go` `findContract`; no more rounds than there are edges, and two, are
needed. -/
def findContract (definition : PipelineDefinition) (nodeId : String) : Option JsonMap :=
  (search (incomingSources definition.edges) (contractAt (registerNodes definition.nodes))
    (definition.edges.length + 2) [] nodeId).2

/-- What the loop over the nodes finds for one of them. -/
def sinkContract (definition : PipelineDefinition) (node : Node) : Option JsonMap :=
  if node.type = .sink then findContract definition node.id else none

/-- Source: `routes_pipelines.go` `extractContracts`. -/
def extractContracts (definition : PipelineDefinition) : DataContracts :=
  definition.nodes.filterMap fun node =>
    (sinkContract definition node).map fun contract => (node.id, contract)

/-! ## The search -/

variable {definition : PipelineDefinition} {nodeId : String} {contract : JsonMap}

/-- The nodes that the search meets: the one it starts from, and the sources of the edges. -/
def searchedIds (definition : PipelineDefinition) (nodeId : String) : List String :=
  nodeId :: definition.edges.map Edge.source

theorem mem_searchedIds (nodeId v : String) : ∀ u ∈ incomingSources definition.edges v,
    u ∈ searchedIds definition nodeId := by
  intro u hu
  obtain ⟨edge, hedge, rfl⟩ := mem_map.mp hu
  exact mem_cons_of_mem _ (mem_map_of_mem (mem_of_mem_filter hedge))

/-- Upstream along the edges. -/
theorem transGen_incoming {u v : String} :
    Relation.TransGen (Next (incomingSources definition.edges)) v u ↔
      Relation.TransGen (HasEdge definition.edges) u v := by
  have hswap : Next (incomingSources definition.edges) =
      Function.swap (HasEdge definition.edges) := by
    funext v u
    simp [Next, incomingSources, HasEdge, Function.swap, and_comm, and_assoc]
  rw [hswap, Relation.transGen_swap]

/-- What `contractAt` finds. -/
theorem contractAt_eq_some (hids : (definition.nodes.map Node.id).Nodup) :
    contractAt (registerNodes definition.nodes) nodeId = some contract ↔
      ∃ node ∈ definition.nodes, node.id = nodeId ∧ node.activityType = "transform.contract" ∧
        node.config.get "schemaJson" = .object contract := by
  constructor
  · intro h
    have hmem : nodeId ∈ definition.nodes.map Node.id := by
      by_contra hmissing
      simp [contractAt, registerNodes_eq_none.mpr hmissing] at h
    obtain ⟨node, hnode, rfl⟩ := mem_map.mp hmem
    rw [contractAt, registerNodes_of_mem hids hnode] at h
    dsimp only at h
    split_ifs at h with hactivity
    refine ⟨node, hnode, rfl, hactivity, ?_⟩
    cases hschema : node.config.get "schemaJson" with
    | object fields =>
      rw [hschema] at h
      cases h
      rfl
    | null | bool _ | number _ | string _ | array _ =>
      rw [hschema] at h
      cases h
  · rintro ⟨node, hnode, rfl, hactivity, hschema⟩
    rw [contractAt, registerNodes_of_mem hids hnode]
    dsimp only
    rw [if_pos hactivity, hschema]
    rfl

/-- The contract of a sink is the one that the search finds. -/
theorem lookup_extractContracts (hids : (definition.nodes.map Node.id).Nodup) {sink : Node}
    (hsink : sink ∈ definition.nodes) (htype : sink.type = .sink) :
    (extractContracts definition).lookup sink.id = findContract definition sink.id := by
  have hlookup : (extractContracts definition).lookup sink.id = sinkContract definition sink := by
    apply lookup_filterMap hsink
    intro other hother hid
    rw [inj_on_of_nodup_map hids hother hsink hid]
  rw [hlookup, sinkContract, if_pos htype]

/-! ## When the extraction is complete -/

variable (ops : ContractOps) {enterprise : Enterprise} {ranging : RangeIds} {sink : Node}

/-- The node is upstream of the sink, and a contract transform. -/
structure ContractNode (definition : PipelineDefinition) (sink node : Node) : Prop where
  mem : node ∈ definition.nodes
  activity : node.activityType = "transform.contract"
  upstream : Relation.TransGen (HasEdge definition.edges) node.id sink.id

/-- A contract transform upstream of the sink, with the schema it has when it runs. -/
def ContractAncestor (definition : PipelineDefinition) (sink node : Node) (schema : JsonMap) :
    Prop :=
  ContractNode definition sink node ∧ contractSchema ops node.config = .ok schema

/-- Every sink that has contract transforms upstream, with a schema that they accept when they run,
has the schema of one of them for its contract. -/
def ExtractionComplete (definition : PipelineDefinition) : Prop :=
  ∀ sink ∈ definition.nodes, sink.type = .sink →
    (∃ node schema, ContractAncestor ops definition sink node schema) →
    ∃ contract, (extractContracts definition).lookup sink.id = some contract ∧
      ∃ node, ContractAncestor ops definition sink node contract

variable {ops}

/-- What is extracted is the schema, a map, of a contract transform upstream. -/
theorem exists_of_findContract (hids : (definition.nodes.map Node.id).Nodup)
    (h : findContract definition sink.id = some contract) :
    ∃ node, ContractNode definition sink node ∧
      node.config.get "schemaJson" = .object contract := by
  obtain ⟨u, hreach, hfound⟩ := search_sound (Prod.ext rfl h)
  obtain ⟨node, hnode, rfl, hactivity, hschema⟩ := (contractAt_eq_some hids).mp hfound
  exact ⟨node, ⟨hnode, hactivity, transGen_incoming.mp hreach⟩, hschema⟩

/-- A contract transform upstream with a map for its schema is enough to find one. -/
theorem findContract_ne_none (hids : (definition.nodes.map Node.id).Nodup) {node : Node}
    (hnode : ContractNode definition sink node)
    (hschema : node.config.get "schemaJson" = .object contract) :
    findContract definition sink.id ≠ none := by
  intro hnone
  have hnothing : contractAt (registerNodes definition.nodes) node.id = none := by
    apply search_complete (mem_searchedIds sink.id) mem_cons_self _ (Prod.ext rfl hnone)
      (transGen_incoming.mpr hnode.upstream)
    rw [searchedIds, length_cons, length_map]
    omega
  simp [(contractAt_eq_some hids).mpr ⟨node, hnode.mem, rfl, hnode.activity, hschema⟩] at hnothing

/-- A map is a schema when the transform runs. -/
theorem contractSchema_of_object {config : JsonMap}
    (h : config.get "schemaJson" = .object contract) :
    contractSchema ops config = .ok contract := by
  rw [contractSchema, h]

/-- **When the extraction is complete**: in an accepted definition, if and only if every sink with a
contract transform upstream that accepts its schema when it runs has one upstream whose schema is a
map. -/
theorem extractContracts_complete_iff (haccepted : Accepted enterprise ranging definition) :
    ExtractionComplete ops definition ↔ ∀ sink ∈ definition.nodes, sink.type = .sink →
      (∃ node schema, ContractAncestor ops definition sink node schema) →
      ∃ node schema, ContractNode definition sink node ∧
        node.config.get "schemaJson" = .object schema := by
  have hids := nodup_of_accepted haccepted
  constructor
  · intro hcomplete sink hsink htype hancestor
    obtain ⟨contract, hcontract, -⟩ := hcomplete sink hsink htype hancestor
    rw [lookup_extractContracts hids hsink htype] at hcontract
    obtain ⟨node, hnode, hschema⟩ := exists_of_findContract hids hcontract
    exact ⟨node, contract, hnode, hschema⟩
  · intro hobject sink hsink htype hancestor
    obtain ⟨node, schema, hnode, hschema⟩ := hobject sink hsink htype hancestor
    rw [lookup_extractContracts hids hsink htype]
    cases hfound : findContract definition sink.id with
    | none => exact absurd hfound (findContract_ne_none hids hnode hschema)
    | some contract =>
      obtain ⟨found, hfoundNode, hfoundSchema⟩ := exists_of_findContract hids hfound
      exact ⟨contract, rfl, found, hfoundNode, contractSchema_of_object hfoundSchema⟩

/-! ## A schema in two forms -/

/-- Operations that decode one text, a schema with one field. -/
def schemaTextOps : ContractOps where
  toFormatting := plainContractOps.toFormatting
  unmarshalObject text :=
    if text = "\x7b\"f\":\"string\"\x7d" then .ok [("f", .string "string")]
    else plainContractOps.unmarshalObject text
  isRfc3339 := plainContractOps.isRfc3339
  newYear := plainContractOps.newYear

/-- A definition with a contract transform before its sink. -/
def contractPipeline (schemaJson : Json) : PipelineDefinition where
  name := "orders"
  triggerType := "manual"
  nodes :=
    [{ id := "in", type := .source, activityType := "http.fetch" },
      { id := "check", type := .transform, activityType := "transform.contract"
        config := [("schemaJson", schemaJson)] },
      { id := "out", type := .sink, activityType := "sink.postgres" }]
  edges := [{ source := "in", target := "check" }, { source := "check", target := "out" }]

/-- A build without enterprise checks, and the order in which ids were added. -/
def plainEnterprise : Enterprise := ⟨fun _ => .ok (), fun _ _ => .ok (), fun _ => .ok ()⟩

def plainRanging : RangeIds := ⟨id, List.Perm.refl⟩

/-- The definition with a map. -/
def objectPipeline : PipelineDefinition := contractPipeline (.object [("f", .string "string")])

/-- The definition with the text of the map. -/
def textPipeline : PipelineDefinition :=
  contractPipeline (.string "\x7b\"f\":\"string\"\x7d")

/-- The theorem at a definition with a map. -/
theorem extractContracts_complete_iff_object :
    ExtractionComplete schemaTextOps objectPipeline ↔ ∀ sink ∈ objectPipeline.nodes,
      sink.type = .sink →
      (∃ node schema, ContractAncestor schemaTextOps objectPipeline sink node schema) →
      ∃ node schema, ContractNode objectPipeline sink node ∧
        node.config.get "schemaJson" = .object schema := by
  have haccepted : Accepted plainEnterprise plainRanging objectPipeline := by decide +kernel
  exact extractContracts_complete_iff haccepted

/-- **A schema that is a text**: the definition is accepted, the transform reads the schema, and
nothing is extracted. -/
theorem text_schema_overlooked : Accepted plainEnterprise plainRanging textPipeline ∧
      ¬ ExtractionComplete schemaTextOps textPipeline := by
  refine ⟨by decide +kernel, ?_⟩
  intro hcomplete
  have hupstream : HasEdge textPipeline.edges "check" "out" :=
    ⟨_, mem_cons_of_mem _ mem_cons_self, rfl, rfl⟩
  have hnode : ContractNode textPipeline
      { id := "out", type := .sink, activityType := "sink.postgres" }
      { id := "check", type := .transform, activityType := "transform.contract"
        config := [("schemaJson", .string "\x7b\"f\":\"string\"\x7d")] } :=
    ⟨mem_cons_of_mem _ mem_cons_self, rfl, .single hupstream⟩
  obtain ⟨contract, hcontract, -⟩ := hcomplete
    { id := "out", type := .sink, activityType := "sink.postgres" } (by decide) rfl
    ⟨_, [("f", .string "string")], hnode, rfl⟩
  have hnothing : (extractContracts textPipeline).lookup "out" = none := by
    decide +kernel
  rw [hnothing] at hcontract
  cases hcontract

end Dataflow.Api
