import Dataflow.Library.OrderedMap
import Dataflow.Model.Types
import Dataflow.Shared.SafeExpression

/-!
# The assets of a pipeline

The lineage of the browser is derived from the definitions. A node reads or writes the assets that
it names, or else the one that its config stands for, and a sink writes what the nearest contract in
front of it promises.

* `PipelineDefinition`, `DataAssetRef`: what is read of a definition. What is absent is `none`, and
  a list that is absent is empty.
* `JsValues`: what the language makes of texts and numbers.
* `infer`, `upstreamContract`, `deriveAssetBindings`: the code.
* `distinct_searchContract`: the fields of a contract have distinct names.

Source: `lineage.ts`, `types.ts`
-/

namespace Dataflow.Shared

open Library List Option
open Model (Edge Json JsonMap Node)

/-! ## Definitions -/

/-- A field of a schema. -/
structure SchemaField where
  name : String
  type : String
  nullable : Bool := false
  deriving DecidableEq

/-- Source: `types.ts` `DataAssetRef`; `namespaceName` is its `namespace`, and `schema` the `fields`
of its schema. -/
structure DataAssetRef where
  urn : String
  platform : String := ""
  namespaceName : String := ""
  name : String := ""
  type : String := ""
  layer : Option String := none
  schema : Option (List SchemaField) := none
  owner : Option String := none
  tags : List String := []
  deriving DecidableEq

/-- The fields of the schema. -/
def DataAssetRef.fields (asset : DataAssetRef) : List SchemaField := asset.schema.getD []

/-- Source: `types.ts` `PipelineNode`. -/
structure PipelineNode extends Node where
  inputAssets : List DataAssetRef := []
  outputAssets : List DataAssetRef := []

/-- Source: `types.ts` `TriggerConfig`. -/
inductive TriggerConfig where
  | cron (schedule : String)
  | webhook (path secret : String)
  | event (topic : String)
  | asset (assetUrn : String)
  | manual
  deriving DecidableEq

/-- Source: `types.ts` `PipelineMetadata`. -/
structure PipelineMetadata where
  owner : Option String := none
  domain : Option String := none
  tags : List String := []

/-- Source: `types.ts` `PipelineDefinition`. -/
structure PipelineDefinition where
  trigger : TriggerConfig := .manual
  nodes : List PipelineNode := []
  edges : List Edge := []
  metadata : Option PipelineMetadata := none

/-- The parts of a URL. -/
structure Url where
  protocol : String
  host : String
  pathname : String

/-- `JSON.parse`, `new URL`, `String` of a number and `toLowerCase`; a function that throws gives
none. -/
structure JsValues where
  parse : String → Option Json
  url : String → Option Url
  numberText : ℚ → String
  lower : String → String

/-! ## Values -/

section values

variable (js : JsValues)

mutual

/-- `String(value)`, of a value without a `toString` of its own. -/
def jsString : Json → String
  | .null => "null"
  | .bool value => if value then "true" else "false"
  | .number value => js.numberText value
  | .string value => value
  | .array items => jsItems items
  | .object _ => "[object Object]"

/-- The items of an array between commas; nothing stands for `null`. -/
def jsItems : List Json → String
  | [] => ""
  | item :: items => (if item = .null then "" else jsString item) ++ jsMoreItems items

/-- The items after the first one. -/
def jsMoreItems : List Json → String
  | [] => ""
  | item :: items => "," ++ (if item = .null then "" else jsString item) ++ jsMoreItems items

end

/-- `Object.entries(value)`, of an object, an array or a text. The fields of an object are in the
order of the language. -/
def objectEntries : Json → List (String × Json)
  | .object fields => OrderedMap.ofEntries fields
  | .array items => items.zipIdx.map fun (item, i) => (toString i, item)
  | .string text => text.toList.zipIdx.map fun (c, i) => (toString i, .string c.toString)
  | _ => []

/-- A text, or what it is parsed to. -/
def parsed : Json → Option Json
  | .string text => js.parse text
  | value => some value

end values

/-- Source: `lineage.ts` `value`. -/
def value (node : PipelineNode) (key : String) : Option String :=
  match JsonMap.get node.config key with
  | .string text => if jsTrim text = "" then none else some (jsTrim text)
  | _ => none

/-- Source: `lineage.ts` `layer`. -/
def layer (node : PipelineNode) : Option String :=
  (value node "layer").filter fun layer => layer ∈ ["bronze", "silver", "gold"]

/-- Source: `lineage.ts` `asset`. -/
def asset (urn platform namespaceName name type : String) (layer : Option String) : DataAssetRef :=
  { urn, platform, namespaceName, name, type, layer }

/-! ## Assets that a config stands for -/

/-- A table, a collection or another thing behind a connection. -/
def connectedAsset (scheme key type : String) (node : PipelineNode) : Option DataAssetRef :=
  let connection := (value node "connectionId").getD "default"
  (value node key).map fun name =>
    asset (scheme ++ "://" ++ connection ++ "/" ++ name) scheme connection name type (layer node)

/-- Source: `lineage.ts` `httpAsset`. -/
def httpAsset (js : JsValues) (raw : String) (layer : Option String) : Option DataAssetRef :=
  (js.url raw).map fun url =>
    let stripped := String.ofList (url.pathname.toList.rdropWhile (· = '/'))
    let path := if stripped = "" then "/" else stripped
    asset (url.protocol ++ "//" ++ url.host ++ path) "http" url.host path "api" layer

/-- Source: `lineage.ts` `infer`. -/
def infer (js : JsValues) (node : PipelineNode) : Option DataAssetRef :=
  let l := layer node
  let connection := (value node "connectionId").getD "default"
  match node.activityType with
  | "zendesk.fetch" =>
    ((value node "subdomain").or (value node "connectionId")).map fun subdomain =>
      let resource := (value node "resource").getD "records"
      asset ("zendesk://" ++ subdomain ++ "/" ++ resource) "zendesk" subdomain resource "collection" l
  | "gsheets.fetch" | "sink.gsheets" =>
    (value node "spreadsheetId").map fun book =>
      let sheet := ((value node "sheetName").or (value node "range")).getD "Sheet1"
      asset ("gsheets://" ++ book ++ "/" ++ sheet) "google-sheets" book sheet "table" l
  | "gdrive.fetch" =>
    let folder := (value node "folderId").getD "root"
    some (asset ("gdrive://" ++ folder ++ "/files") "google-drive" folder "files" "file" l)
  | "excel.fetch" =>
    let drive := (value node "driveId").getD "default"
    let sheet := (value node "sheetName").getD "Sheet1"
    (value node "itemId").map fun item =>
      asset ("excel://" ++ drive ++ "/" ++ item ++ "/" ++ sheet) "excel" (drive ++ "/" ++ item) sheet
        "table" l
  | "http.fetch" | "sink.webhook" => (value node "url").bind fun url => httpAsset js url l
  | "postgres.fetch" | "sink.postgres" => connectedAsset "postgres" "table" "table" node
  | "mysql.fetch" | "sink.mysql" => connectedAsset "mysql" "table" "table" node
  | "mongodb.fetch" | "sink.mongodb" => connectedAsset "mongodb" "collection" "collection" node
  | "s3.fetch" | "sink.s3" =>
    (value node "bucket").bind fun bucket => (value node "key").map fun key =>
      asset ("s3://" ++ bucket ++ "/" ++ key) "s3" bucket key "file" l
  | "sftp.fetch" | "sink.sftp" =>
    (value node "path").map fun path =>
      let slash := if path.toList.head? = some '/' then "" else "/"
      asset ("sftp://" ++ connection ++ slash ++ path) "sftp" connection path "file" l
  | "snowflake.fetch" | "sink.snowflake" => connectedAsset "snowflake" "table" "table" node
  | "iceberg.fetch" | "sink.iceberg" =>
    let name := ".".intercalate ([value node "namespace", value node "table"].filterMap id)
    if name = "" then none
    else some (asset ("iceberg://" ++ connection ++ "/" ++ name) "iceberg" connection name "table" l)
  | "kafka.fetch" | "sink.kafka" =>
    let cluster := ((value node "cluster").or (value node "connectionId")).getD "default"
    (value node "topic").map fun topic =>
      asset ("kafka://" ++ cluster ++ "/" ++ topic) "kafka" cluster topic "topic" l
  | "sink.records" =>
    (value node "collection").map fun collection =>
      asset ("dataflow://records/" ++ collection) "dataflow" "records" collection "collection" l
  | "sink.clickhouse" => connectedAsset "clickhouse" "table" "table" node
  | _ => none

/-! ## Contracts -/

section contracts

variable (js : JsValues)

/-- A field of a contract: its type, and whether the text of the type ends with a question mark. -/
def contractField (name : String) (spec : Json) : SchemaField :=
  let text := (jsString js spec).toList
  if text.getLast? = some '?' then { name, type := .ofList text.dropLast, nullable := true }
  else { name, type := .ofList text }

/-- The fields that a contract promises: none if its text is not read, and `some none` if it is no
object. -/
def contractSchema (node : PipelineNode) : Option (Option (List SchemaField)) :=
  (parsed js (JsonMap.get node.config "schemaJson")).map fun schema =>
    match schema with
    | .object fields =>
      some ((objectEntries (.object fields)).map fun (name, spec) => contractField js name spec)
    | _ => none

/-- The sources of the edges into a node. -/
def incoming (edges : List Edge) (id : String) : List String :=
  (edges.filter fun edge => edge.target = id).map Edge.source

/-- The loop over the queue, for at most so many rounds. -/
def searchContract (definition : PipelineDefinition) :
    (rounds : ℕ) → (queue seen : List String) → Option (List SchemaField)
  | 0, _, _ => none
  | _ + 1, [], _ => none
  | rounds + 1, id :: queue, seen =>
    if id ∈ seen then searchContract definition rounds queue seen
    else
      let seen := id :: seen
      let queue := queue ++ incoming definition.edges id
      match definition.nodes.reverse.find? fun node => node.id = id with
      | none => searchContract definition rounds queue seen
      | some node =>
        if node.activityType = "transform.contract" then
          match contractSchema js node with
          | none => none
          | some (some fields) => some fields
          | some none => searchContract definition rounds queue seen
        else searchContract definition rounds queue seen

/-- Every edge is in the queue twice at most: at the start, and when its target is taken from the
queue for the first time. Source: `lineage.ts` `upstreamContract` -/
def upstreamContract (definition : PipelineDefinition) (nodeId : String) :
    Option (List SchemaField) :=
  searchContract js definition (2 * definition.edges.length + 1) (incoming definition.edges nodeId) []

end contracts

/-! ## Bindings -/

/-- Source: `lineage.ts` `AssetBinding`. -/
inductive Direction where
  | input
  | output
  deriving DecidableEq

/-- The word for a direction. -/
def Direction.word : Direction → String
  | .input => "input"
  | .output => "output"

/-- Source: `lineage.ts` `AssetBinding`. -/
structure AssetBinding where
  nodeId : String
  direction : Direction
  port : String
  asset : DataAssetRef

/-- The asset with the schema of a contract. -/
def DataAssetRef.promised (asset : DataAssetRef) (contract : Option (List SchemaField)) :
    DataAssetRef :=
  match contract with
  | none => asset
  | some fields => { asset with schema := some fields }

/-- The assets that a node names. -/
def explicitBindings (contract : Option (List SchemaField)) (node : PipelineNode) :
    List AssetBinding :=
  (node.inputAssets.zipIdx.map fun (asset, i) =>
    { nodeId := node.id, direction := .input, port := "input-" ++ toString i, asset }) ++
  node.outputAssets.zipIdx.map fun (asset, i) =>
    { nodeId := node.id, direction := .output, port := "output-" ++ toString i
      asset := if asset.schema.isSome then asset else asset.promised contract }

/-- The contract of a sink. -/
def sinkContract (js : JsValues) (definition : PipelineDefinition) (node : PipelineNode) :
    Option (List SchemaField) :=
  if node.type = .sink then upstreamContract js definition node.id else none

/-- The bindings of a node. -/
def nodeBindings (js : JsValues) (definition : PipelineDefinition) (node : PipelineNode) :
    List AssetBinding :=
  let contract := sinkContract js definition node
  if node.inputAssets ≠ [] ∨ node.outputAssets ≠ [] then explicitBindings contract node
  else
    match infer js node with
    | none => []
    | some asset =>
      let direction := if node.type = .sink then .output else .input
      [{ nodeId := node.id, direction, port := direction.word, asset := asset.promised contract }]

/-- Source: `lineage.ts` `deriveAssetBindings`. -/
def deriveAssetBindings (js : JsValues) (definition : PipelineDefinition) : List AssetBinding :=
  definition.nodes.flatMap (nodeBindings js definition)

/-! ## Names of fields -/

/-- The fields have distinct names. -/
def DataAssetRef.Distinct (asset : DataAssetRef) : Prop := (asset.fields.map SchemaField.name).Nodup

/-- The schemas that the nodes name have fields with distinct names. -/
def PipelineDefinition.DistinctFields (definition : PipelineDefinition) : Prop :=
  ∀ node ∈ definition.nodes, ∀ asset ∈ node.inputAssets ++ node.outputAssets, asset.Distinct

section names

variable {js : JsValues} {definition : PipelineDefinition}

theorem distinct_contractSchema {node : PipelineNode} {fields : List SchemaField}
    (h : contractSchema js node = some (some fields)) : (fields.map SchemaField.name).Nodup := by
  obtain ⟨schema, -, hschema⟩ := map_eq_some_iff.mp h
  cases schema with
  | object entries =>
    cases hschema
    have hnames : ((objectEntries (.object entries)).map fun (name, spec) =>
        contractField js name spec).map SchemaField.name =
          (OrderedMap.ofEntries entries).map Prod.fst := by
      rw [List.map_map, objectEntries]
      refine map_congr_left fun entry _ => ?_
      rw [Function.comp_apply]
      unfold contractField
      dsimp only
      split_ifs <;> rfl
    rw [hnames]
    exact OrderedMap.nodup_ofEntries entries
  | null | bool _ | number _ | string _ | array _ => cases hschema

/-- **The fields of a contract** have distinct names: they are the keys of an object. -/
theorem distinct_searchContract {rounds : ℕ} {queue seen : List String} {fields : List SchemaField}
    (h : searchContract js definition rounds queue seen = some fields) :
    (fields.map SchemaField.name).Nodup := by
  fun_induction searchContract js definition rounds queue seen with
  | case1 | case2 | case5 => cases h
  | case3 rounds id queue seen hseen ih => exact ih h
  | case4 rounds id queue seen hseen seen' queue' hnode ih => exact ih h
  | case6 rounds id queue seen hseen node hnode hcontract found hfound =>
    cases h
    exact distinct_contractSchema hfound
  | case7 rounds id queue seen hseen seen' queue' node hnode hcontract hfound ih => exact ih h
  | case8 rounds id queue seen hseen seen' queue' node hnode hcontract ih => exact ih h

theorem distinct_promised {asset : DataAssetRef} {contract : Option (List SchemaField)}
    (hasset : asset.Distinct) (h : ∀ fields, contract = some fields →
      (fields.map SchemaField.name).Nodup) : (asset.promised contract).Distinct := by
  cases contract with
  | none => exact hasset
  | some fields => exact h fields rfl

theorem infer_schema {node : PipelineNode} {asset : DataAssetRef} (h : infer js node = some asset) :
    asset.schema = none := by
  have hmap : ∀ {α : Type} {value : Option α} {f : α → DataAssetRef}, (∀ a, (f a).schema = none) →
      value.map f = some asset → asset.schema = none := by
    intro α value f hf hsome
    obtain ⟨a, -, rfl⟩ := map_eq_some_iff.mp hsome
    exact hf a
  unfold infer at h
  dsimp only at h
  split at h
  all_goals try exact hmap (fun _ => rfl) h
  · cases h
    rfl
  · obtain ⟨url, -, hurl⟩ := bind_eq_some_iff.mp h
    exact hmap (fun _ => rfl) hurl
  · obtain ⟨url, -, hurl⟩ := bind_eq_some_iff.mp h
    exact hmap (fun _ => rfl) hurl
  · obtain ⟨bucket, -, hbucket⟩ := bind_eq_some_iff.mp h
    exact hmap (fun _ => rfl) hbucket
  · obtain ⟨bucket, -, hbucket⟩ := bind_eq_some_iff.mp h
    exact hmap (fun _ => rfl) hbucket
  · split_ifs at h
    cases h
    rfl
  · split_ifs at h
    cases h
    rfl
  · cases h

/-- **The assets of the bindings** have fields with distinct names. -/
theorem distinct_deriveAssetBindings (h : definition.DistinctFields) {binding : AssetBinding}
    (hbinding : binding ∈ deriveAssetBindings js definition) : binding.asset.Distinct := by
  obtain ⟨node, hnode, hbinding⟩ := mem_flatMap.mp hbinding
  have hcontract : ∀ fields, sinkContract js definition node = some fields →
      (fields.map SchemaField.name).Nodup := by
    intro fields hfields
    unfold sinkContract at hfields
    split_ifs at hfields
    exact distinct_searchContract hfields
  unfold nodeBindings at hbinding
  dsimp only at hbinding
  by_cases hexplicit : node.inputAssets ≠ [] ∨ node.outputAssets ≠ []
  · rw [if_pos hexplicit] at hbinding
    rcases mem_append.mp hbinding with hmem | hmem
    · obtain ⟨entry, hentry, rfl⟩ := List.mem_map.mp hmem
      exact h node hnode _ (mem_append_left _ (fst_mem_of_mem_zipIdx hentry))
    · obtain ⟨entry, hentry, rfl⟩ := List.mem_map.mp hmem
      have hasset := h node hnode _ (mem_append_right _ (fst_mem_of_mem_zipIdx hentry))
      dsimp only
      split_ifs
      · exact hasset
      · exact distinct_promised hasset hcontract
  · rw [if_neg hexplicit] at hbinding
    cases hinfer : infer js node with
    | none =>
      simp [hinfer] at hbinding
    | some asset =>
      rw [hinfer] at hbinding
      obtain rfl := mem_singleton.mp hbinding
      refine distinct_promised ?_ hcontract
      rw [DataAssetRef.Distinct, DataAssetRef.fields, infer_schema hinfer]
      exact nodup_nil

end names

end Dataflow.Shared
