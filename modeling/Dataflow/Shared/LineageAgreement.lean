import Dataflow.Api.LineageColumns
import Dataflow.Shared.WorkspaceLineage

/-!
# The two lineages of a chain

The server and the browser both make a lineage graph of the pipelines of a workspace. The server
follows the nodes and carries fields; the browser looks at the ends, the nearest contract and the
single map. For chains between two objects in buckets they are compared here.

* `ChainPipeline`: such a pipeline, as both sides have it.
* `Agree`: the same assets, links of assets and links of fields.
* `searchContract_chain`: the contract that the browser finds.
* `Filled`: what the browser fills in for a list of versions.
* `ChainPipeline.Alike`: the ends are named alike, and so are the fields.
* **`lineages_agree_iff`**: the graphs agree iff every pipeline is alike.
* `second_field_lost`: a map with a field that is the sum of two.

Source: `routes_pipelines.go`, `lineage.ts` `buildWorkspaceLineage`
-/

namespace Dataflow.Shared

open Api (RangeIds)
open Library Library.Chains List
open Model (Json JsonMap Node NumberCodec)

/-! ## Chains -/

/-- The nodes are these, one behind the other. -/
structure Chain (definition : PipelineDefinition) (path : List PipelineNode) : Prop where
  nodes : definition.nodes.Perm path
  edges : (definition.edges.map fun edge => (edge.source, edge.target)).Perm (pairs (path.map (·.id)))
  ids : (path.map (·.id)).Nodup

section chain

variable {js : JsValues} {definition : PipelineDefinition} {path : List PipelineNode}
  {node : PipelineNode}

theorem eq_toList_of_perm {α : Type} {l : List α} {o : Option α} (h : l.Perm o.toList) :
    l = o.toList := by
  cases o with
  | none => exact h.eq_nil
  | some a => exact perm_singleton.mp h

/-- One edge goes into a node, from the node before it. -/
theorem incoming_chain (h : Chain definition path) {before after : List PipelineNode}
    (hpath : path = before ++ node :: after) :
    incoming definition.edges node.id = (before.getLast?.map (·.id)).toList := by
  have hfilter : ((pairs (path.map (·.id))).filter fun e => e.2 = node.id) =
      (before.getLast?.map (·.id)).toList.map fun id => (id, node.id) := by
    have hids := h.ids
    rw [hpath, map_append, map_cons] at hids ⊢
    rw [filter_snd_pairs hids, getLast?_map]
  have hperm := ((h.edges.filter fun e => e.2 = node.id).map Prod.fst)
  rw [hfilter, filter_map, map_map, map_map] at hperm
  refine eq_toList_of_perm (hperm.trans (.of_eq ?_))
  exact map_id _

/-- The fields of the first contract that is read, on the way back. -/
def nearestContract (js : JsValues) : List PipelineNode → Option (List SchemaField)
  | [] => none
  | node :: nodes =>
    if node.activityType = "transform.contract" then
      match contractSchema js node with
      | none => none
      | some (some fields) => some fields
      | some none => nearestContract js nodes
    else nearestContract js nodes

theorem find?_chain (h : Chain definition path) (hnode : node ∈ path) :
    definition.nodes.reverse.find? (fun other => other.id = node.id) = some node := by
  have hids : (definition.nodes.map (·.id)).Nodup := (h.nodes.map _).nodup_iff.mpr h.ids
  rw [← head?_filter, filter_reverse, Lists.filter_key_eq hids (h.nodes.mem_iff.mpr hnode)]
  rfl

/-- **The search goes back along the chain.** -/
theorem searchContract_chain (h : Chain definition path) {front back : List PipelineNode}
    {rounds : ℕ} {seen : List String} (hpath : path = front ++ back)
    (hrounds : front.length + 1 ≤ rounds) (hseen : ∀ node ∈ front, node.id ∉ seen) :
    searchContract js definition rounds (front.getLast?.map (·.id)).toList seen =
      nearestContract js front.reverse := by
  obtain ⟨rounds, rfl⟩ := Nat.exists_eq_succ_of_ne_zero (show rounds ≠ 0 by omega)
  induction front using reverseRecOn generalizing back rounds seen with
  | nil => rw [getLast?_nil, Option.map_none, Option.toList_none, searchContract]; rfl
  | append_singleton front node ih =>
    rw [append_assoc, singleton_append] at hpath
    rw [length_append, length_singleton] at hrounds
    obtain ⟨rounds, rfl⟩ := Nat.exists_eq_succ_of_ne_zero (show rounds ≠ 0 by omega)
    have hnew : ∀ other ∈ front, other.id ∉ node.id :: seen := by
      intro other hother hmem
      rcases mem_cons.mp hmem with heq | hmem
      · have hids := h.ids
        rw [hpath, map_append, map_cons] at hids
        exact (nodup_append.mp hids).2.2 _ (mem_map_of_mem hother) _ mem_cons_self heq
      · exact hseen other (mem_append_left _ hother) hmem
    have hrest := ih hpath hnew rounds (by omega)
    rw [getLast?_concat, Option.map_some, Option.toList_some, reverse_append,
      reverse_singleton, singleton_append, searchContract,
      if_neg (hseen node (mem_append_right _ (mem_singleton_self _)))]
    dsimp only
    rw [find?_chain h (hpath ▸ mem_append_right _ mem_cons_self), nil_append,
      incoming_chain h hpath, hrest]
    rfl

end chain

/-! ## What the browser fills in -/

/-- What a link between fields connects, and for which pipeline. -/
def WorkspaceColumnLineageEdge.key (edge : WorkspaceColumnLineageEdge) :
    String × String × String × String × String :=
  (edge.pipelineRowId, edge.sourceAssetUrn, edge.sourceField, edge.targetAssetUrn, edge.targetField)

/-- A link with these ends. -/
def HasLink (edges : List WorkspaceLineageEdge) (source target : String) : Prop :=
  ∃ edge ∈ edges, edge.source = source ∧ edge.target = target

section filled

variable (js : JsValues)

/-- The links between fields of a version. -/
def versionColumns (version : LineagePipelineVersion) :
    Except String (List WorkspaceColumnLineageEdge) :=
  let bindings := deriveAssetBindings js version.definition
  match bindings.filter (·.direction = .input), bindings.filter (·.direction = .output) with
  | [input], [output] =>
    (columnMapping js version.definition.nodes output.asset.fields).map
      (columnLinks version.rowId input output)
  | _, _ => .ok []

/-- A link of a binding or of the trigger. -/
def LinkedBy (version : LineagePipelineVersion) (source target : String) : Prop :=
  (∃ binding ∈ deriveAssetBindings js version.definition,
    (bindingEdge version.rowId binding).source = source ∧
      (bindingEdge version.rowId binding).target = target) ∨
  ∃ urn, version.definition.trigger = .asset urn ∧ source = assetId urn ∧
    target = pipelineId version.rowId

/-- An asset of a binding or of the trigger. -/
def NamedBy (version : LineagePipelineVersion) (urn : String) : Prop :=
  (∃ binding ∈ deriveAssetBindings js version.definition, binding.asset.urn = urn) ∨
    version.definition.trigger = .asset urn

/-- **What the versions add.** -/
structure Filled (versions : List LineagePipelineVersion) (build build' : LineageBuild) : Prop where
  links : ∀ source target, HasLink build'.edges source target ↔
    HasLink build.edges source target ∨ ∃ version ∈ versions, LinkedBy js version source target
  assets : ∀ urn, urn ∈ build'.assets.map Prod.fst ↔
    urn ∈ build.assets.map Prod.fst ∨ ∃ version ∈ versions, NamedBy js version urn
  columns : ∀ link, link ∈ build'.columnEdges ↔ link ∈ build.columnEdges ∨
    ∃ version ∈ versions, ∃ columns, versionColumns js version = .ok columns ∧ link ∈ columns

variable {js} {build build' : LineageBuild} {rowId source target urn : String}
  {version : LineagePipelineVersion} {versions : List LineagePipelineVersion}

theorem hasLink_append {edges others : List WorkspaceLineageEdge} :
    HasLink (edges ++ others) source target ↔ HasLink edges source target ∨
    HasLink others source target := by
  simp only [HasLink, mem_append, or_and_right, exists_or]

theorem foldl_addBinding (bindings : List AssetBinding) :
    (bindings.foldl (addBinding rowId) build).edges =
      build.edges ++ bindings.map (bindingEdge rowId) ∧
      (bindings.foldl (addBinding rowId) build).columnEdges = build.columnEdges ∧
      ∀ urn, urn ∈ (bindings.foldl (addBinding rowId) build).assets.map Prod.fst ↔
        urn ∈ build.assets.map Prod.fst ∨ ∃ binding ∈ bindings, binding.asset.urn = urn := by
  induction bindings generalizing build with
  | nil => simp
  | cons binding bindings ih =>
    obtain ⟨hedges, hcolumns, hassets⟩ := @ih (addBinding rowId build binding)
    rw [foldl_cons, hedges, hcolumns]
    refine ⟨by simp [addBinding], rfl, fun urn => (hassets urn).trans ?_⟩
    rw [addBinding, OrderedMap.mem_map_fst_set, or_assoc]
    simp only [mem_cons, exists_eq_or_imp]
    exact or_congr_right (or_congr_left eq_comm)

theorem addTrigger_spec (trigger : TriggerConfig) :
    (∀ source target, HasLink (addTrigger rowId trigger build).edges source target ↔
      HasLink build.edges source target ∨
        ∃ urn, trigger = .asset urn ∧ source = assetId urn ∧ target = pipelineId rowId) ∧
    (addTrigger rowId trigger build).columnEdges = build.columnEdges ∧
    ∀ urn, urn ∈ (addTrigger rowId trigger build).assets.map Prod.fst ↔
      urn ∈ build.assets.map Prod.fst ∨ trigger = .asset urn := by
  cases trigger with
  | cron _ | webhook _ _ | event _ | manual => simp [addTrigger]
  | asset named =>
    unfold addTrigger
    dsimp only
    refine ⟨fun source target => ?_, rfl, fun urn => ?_⟩
    · split_ifs with hany
      · refine (or_iff_left_of_imp ?_).symm
        rintro ⟨urn, heq, rfl, rfl⟩
        cases heq
        obtain ⟨edge, hedge, hends⟩ := any_eq_true.mp hany
        exact ⟨edge, hedge, by simpa using hends⟩
      · rw [hasLink_append]
        simp [HasLink, triggerEdge, eq_comm]
    · split_ifs with hmem
      · refine (or_iff_left_of_imp ?_).symm
        rintro ⟨⟩
        exact hmem
      · rw [OrderedMap.mem_map_fst_set]
        simp [eq_comm]

theorem addColumns_eq : addColumns js version (deriveAssetBindings js version.definition) build =
    (versionColumns js version).map fun columns =>
      { build with columnEdges := build.columnEdges ++ columns } := by
  have hnone : build = { build with columnEdges := build.columnEdges ++ [] } := by
    rw [append_nil]
  unfold addColumns versionColumns
  dsimp only
  generalize (deriveAssetBindings js version.definition).filter (·.direction = .input) = inputs
  generalize (deriveAssetBindings js version.definition).filter (·.direction = .output) = outputs
  rcases inputs with _ | ⟨input, _ | _⟩
  · exact congrArg _ hnone
  · rcases outputs with _ | ⟨output, _ | _⟩
    · exact congrArg _ hnone
    · dsimp only
      cases columnMapping js version.definition.nodes output.asset.fields <;> rfl
    · exact congrArg _ hnone
  · exact congrArg _ hnone

/-- **One version.** -/
theorem addVersion_spec : ∃ filled : LineageBuild, addVersion js build version =
    (versionColumns js version).map (fun columns =>
      { filled with columnEdges := build.columnEdges ++ columns }) ∧
    (∀ source target, HasLink filled.edges source target ↔
      HasLink build.edges source target ∨ LinkedBy js version source target) ∧
    ∀ urn, urn ∈ filled.assets.map Prod.fst ↔
      urn ∈ build.assets.map Prod.fst ∨ NamedBy js version urn := by
  unfold addVersion
  dsimp only
  generalize hbegun : ({ build with
    pipelineNodes := build.pipelineNodes ++ [.pipeline (pipelineId version.rowId) version.toLineagePipeline] } :
      LineageBuild) = begun
  obtain ⟨hedges, hcolumns, hassets⟩ :=
    @foldl_addBinding begun version.rowId (deriveAssetBindings js version.definition)
  generalize (deriveAssetBindings js version.definition).foldl (addBinding version.rowId) begun = bound at *
  obtain ⟨htrigger, hkept, hnamed⟩ := @addTrigger_spec bound version.rowId version.definition.trigger
  generalize addTrigger version.rowId version.definition.trigger bound = filled at *
  rw [hcolumns, ← hbegun] at hkept
  refine ⟨filled, ?_, fun source target => ?_, fun urn => ?_⟩
  · rw [addColumns_eq, hkept]
  · rw [htrigger, hedges, hasLink_append, or_assoc, ← hbegun]
    simp [LinkedBy, HasLink]
  · rw [hnamed, hassets, or_assoc, ← hbegun, NamedBy]

theorem pipelineRowId_of_versionColumns {columns : List WorkspaceColumnLineageEdge}
    (h : versionColumns js version = .ok columns) {link : WorkspaceColumnLineageEdge}
    (hlink : link ∈ columns) : link.pipelineRowId = version.rowId := by
  unfold versionColumns at h
  dsimp only at h
  split at h
  next input output _ _ =>
    cases hmapping : columnMapping js version.definition.nodes output.asset.fields with
    | error err =>
      rw [hmapping] at h
      cases h
    | ok mapping =>
      rw [hmapping] at h
      cases h
      obtain ⟨field, -, hlink⟩ := mem_flatMap.mp hlink
      obtain ⟨inputField, -, rfl⟩ := mem_map.mp hlink
      rfl
  next =>
    cases h
    cases hlink

/-- **All versions**, if none is refused. -/
theorem filled_of_foldlM (h : versions.foldlM (addVersion js) build = .ok build') :
    Filled js versions build build' ∧
      ∀ version ∈ versions, ∃ columns, versionColumns js version = .ok columns := by
  induction versions generalizing build with
  | nil =>
    cases h
    exact ⟨⟨by simp, by simp, by simp⟩, by simp⟩
  | cons version versions ih =>
    obtain ⟨filled, hadd, hlinks, hassets⟩ := @addVersion_spec js build version
    rw [foldlM_cons, hadd] at h
    cases hcolumns : versionColumns js version with
    | error err =>
      rw [hcolumns] at h
      cases h
    | ok columns =>
      rw [hcolumns] at h
      obtain ⟨hfilled, hrest⟩ := ih h
      refine ⟨⟨fun source target => ?_, fun urn => ?_, fun link => ?_⟩,
        forall_mem_cons.mpr ⟨⟨columns, hcolumns⟩, hrest⟩⟩
      · rw [hfilled.links, hlinks, or_assoc]
        simp
      · rw [hfilled.assets, hassets, or_assoc]
        simp
      · rw [hfilled.columns, mem_append, or_assoc]
        simp [hcolumns]

theorem exists_foldlM (h : ∀ version ∈ versions, ∃ columns, versionColumns js version = .ok columns) :
    ∃ build', versions.foldlM (addVersion js) build = .ok build' := by
  induction versions generalizing build with
  | nil => exact ⟨build, rfl⟩
  | cons version versions ih =>
    obtain ⟨⟨columns, hcolumns⟩, hrest⟩ := forall_mem_cons.mp h
    obtain ⟨filled, hadd, -⟩ := @addVersion_spec js build version
    rw [foldlM_cons, hadd, hcolumns]
    exact ih hrest

end filled

/-! ## Pipelines -/

/-- A chain from an object in a bucket to another one, as both sides have it: the version that the
browser gets, and the row that the server reads. -/
structure ChainPipeline where
  version : LineagePipelineVersion
  row : Api.LineageRow
  stored : Api.WorkspaceDefinition
  source : PipelineNode
  middle : List PipelineNode
  sink : PipelineNode
  chain : Chain version.definition (source :: (middle ++ [sink]))
  named : ∀ node ∈ version.definition.nodes, node.id ≠ ""
  implicit : ∀ node ∈ version.definition.nodes, node.inputAssets = [] ∧ node.outputAssets = []
  isSource : source.type = .source ∧ source.activityType = "s3.fetch" ∧ Api.Names source.config
  isSink : sink.type = .sink ∧ sink.activityType = "sink.s3" ∧ Api.Names sink.config
  isMiddle : ∀ node ∈ middle, node.type = .transform ∧
    node.activityType ∈ ["transform.contract", "transform.map", "transform.filter"]
  rowId : row.id = version.rowId
  definition : row.definition = some stored
  sameNodes : stored.nodes = version.definition.nodes.map (·.toNode)
  sameEdges : stored.edges = version.definition.edges

namespace ChainPipeline

section ends

variable (p : ChainPipeline) (js : JsValues) (codec : NumberCodec)

/-- The name of the object that is read, as the server writes it. -/
def sourceURN : String := (Api.assetOf codec p.source.config).urn

/-- The name of the object that is written. -/
def sinkURN : String := (Api.assetOf codec p.sink.config).urn

/-- The browser takes the asset for one that is read: the source names it, or the trigger. -/
def Read (urn : String) : Prop :=
  (∃ asset, infer js p.source = some asset ∧ asset.urn = urn) ∨
    p.version.definition.trigger = .asset urn

/-- The browser takes the asset for the one that is written. -/
def Written (urn : String) : Prop := ∃ asset, infer js p.sink = some asset ∧ asset.urn = urn

/-- The value is a text without blanks around it. -/
def Trimmed (config : JsonMap) (field : String) : Prop :=
  ∃ text, config.get field = .string text ∧ jsTrim text = text

/-- **The source is named alike**: by trimmed texts, and the trigger waits for no other asset. Where
the browser cannot name the source, the trigger waits for what the server calls it. -/
def SourceAlike : Prop :=
  (Trimmed p.source.config "bucket" ∧ Trimmed p.source.config "key" ∧
    ∀ urn, p.version.definition.trigger = .asset urn → urn = p.sourceURN codec) ∨
  (infer js p.source = none ∧ p.version.definition.trigger = .asset (p.sourceURN codec))

/-- The sink is named alike. -/
def SinkAlike : Prop := Trimmed p.sink.config "bucket" ∧ Trimmed p.sink.config "key"

variable {p js codec} {node : PipelineNode}

theorem sublist_jsTrimChars (text : List Char) : (jsTrimChars text).Sublist text :=
  ( rdropWhile_prefix _ _).sublist.trans (dropWhile_sublist _)

theorem jsTrim_eq_of_length {text : String} (h : text.toList.length ≤ (jsTrim text).toList.length) :
    jsTrim text = text := by
  rw [jsTrim, String.toList_ofList] at h
  rw [jsTrim, (sublist_jsTrimChars text.toList).eq_of_length_le h, String.ofList_toList]

theorem length_jsTrim_le (text : String) : (jsTrim text).toList.length ≤ text.toList.length := by
  rw [jsTrim, String.toList_ofList]
  exact (sublist_jsTrimChars text.toList).length_le

theorem value_eq_some {key text : String} : value node key = some text ↔
    ∃ raw, JsonMap.get node.config key = .string raw ∧ jsTrim raw = text ∧ text ≠ "" := by
  unfold value
  split
  next raw hraw =>
    rw [hraw]
    split_ifs with hempty
    · simp [hempty, eq_comm]
    · simp only [Option.some.injEq, Json.string.injEq, exists_eq_left']
      exact ⟨fun h => ⟨h, h ▸ hempty⟩, fun h => h.1⟩
  next hother => simpa using fun raw hraw => absurd hraw (hother raw)

/-- **Both names of an object** are one iff the texts are trimmed. -/
theorem urn_eq_iff (hactivity : node.activityType = "s3.fetch" ∨ node.activityType = "sink.s3")
    (hset : Api.Names node.config) :
    (∃ asset, infer js node = some asset ∧ asset.urn = (Api.assetOf codec node.config).urn) ↔
      Trimmed node.config "bucket" ∧ Trimmed node.config "key" := by
  have hinfer : infer js node = (value node "bucket").bind fun bucket =>
      (value node "key").map fun key =>
        asset ("s3://" ++ bucket ++ "/" ++ key) "s3" bucket key "file" (layer node) := by
    rcases hactivity with h | h <;> simp only [infer, h]
  constructor
  · rintro ⟨asset, hasset, hurn⟩
    rw [hinfer] at hasset
    obtain ⟨bucket, hbucket, hasset⟩ := Option.bind_eq_some_iff.mp hasset
    obtain ⟨key, hkey, rfl⟩ := Option.map_eq_some_iff.mp hasset
    obtain ⟨rawBucket, hrawBucket, rfl, -⟩ := value_eq_some.mp hbucket
    obtain ⟨rawKey, hrawKey, rfl, -⟩ := value_eq_some.mp hkey
    have hlength := congrArg (fun urn => urn.toList.length) hurn
    simp only [Shared.asset, Api.assetOf, hrawBucket, hrawKey, Model.sprint_string,
      String.toList_append, length_append] at hlength
    have hle := length_jsTrim_le rawBucket
    have hle' := length_jsTrim_le rawKey
    exact ⟨⟨rawBucket, hrawBucket, jsTrim_eq_of_length (by omega)⟩, rawKey, hrawKey,
      jsTrim_eq_of_length (by omega)⟩
  · rintro ⟨⟨bucket, hbucket, htrimmed⟩, key, hkey, htrimmed'⟩
    have hvalue : ∀ {field text : String}, field ∈ Api.assetFields →
        node.config.get field = .string text → jsTrim text = text → value node field = some text := by
      intro field text hfield hget htrim
      refine value_eq_some.mpr ⟨text, hget, htrim, ?_⟩
      rintro rfl
      exact (hset field hfield).2 hget
    rw [hinfer, hvalue (by decide) hbucket htrimmed, hvalue (by decide) hkey htrimmed']
    refine ⟨_, rfl, ?_⟩
    simp only [Shared.asset, Api.assetOf, hbucket, hkey, Model.sprint_string]

/-- **The links of the source** are those of the server. -/
theorem read_iff_sourceAlike : (∀ urn, urn = p.sourceURN codec ↔ p.Read js urn) ↔
    p.SourceAlike js codec := by
  have htrimmed := @urn_eq_iff js codec p.source (.inl p.isSource.2.1) p.isSource.2.2
  rw [SourceAlike, ← and_assoc, ← htrimmed]
  unfold Read sourceURN
  cases infer js p.source with
  | none =>
    simp only [reduceCtorEq, false_and, exists_false, false_or, true_and]
    constructor
    · exact fun h => (h _).mp rfl
    · intro h urn
      rw [h, TriggerConfig.asset.injEq, eq_comm]
  | some asset =>
    simp only [Option.some.injEq, exists_eq_left', reduceCtorEq, false_and, or_false]
    constructor
    · exact fun h => ⟨(h _).mpr (.inl rfl), fun urn htrigger => (h urn).mpr (.inr htrigger)⟩
    · rintro ⟨hurn, htrigger⟩ urn
      constructor
      · exact fun heq => .inl (hurn.trans heq.symm)
      · exact fun h => h.elim (fun heq => heq.symm.trans hurn) (htrigger urn)

theorem written_iff_sinkAlike :
    (∀ urn, urn = p.sinkURN codec ↔ p.Written js urn) ↔ p.SinkAlike := by
  have htrimmed := @urn_eq_iff js codec p.sink (.inr p.isSink.2.1) p.isSink.2.2
  rw [SinkAlike, ← htrimmed]
  unfold Written sinkURN
  cases infer js p.sink with
  | none => simp
  | some asset =>
    simp only [Option.some.injEq, exists_eq_left']
    constructor
    · exact fun h => (h _).mp rfl
    · exact fun h urn => by rw [h, eq_comm]

end ends

/-! ### The bindings of a chain -/

section bindings

variable (p : ChainPipeline) (js : JsValues) (codec : NumberCodec)

/-- The contract that the browser finds. -/
def contract : Option (List SchemaField) := nearestContract js (p.source :: p.middle).reverse

/-- What is read. -/
def input : Option AssetBinding :=
  (infer js p.source).map fun asset =>
    { nodeId := p.source.id, direction := .input, port := "input", asset }

/-- What is written. -/
def output : Option AssetBinding :=
  (infer js p.sink).map fun asset =>
    { nodeId := p.sink.id, direction := .output, port := "output"
      asset := asset.promised (p.contract js) }

variable {p js codec}

theorem upstreamContract_sink :
    upstreamContract js p.version.definition p.sink.id = p.contract js := by
  have hpath : p.source :: (p.middle ++ [p.sink]) = (p.source :: p.middle) ++ p.sink :: [] := by
    simp
  have hlength := p.chain.edges.length_eq
  rw [length_map, length_pairs, length_map, hpath, length_append, length_singleton] at hlength
  rw [upstreamContract, incoming_chain p.chain hpath, contract]
  exact searchContract_chain p.chain hpath (by omega) fun _ _ => not_mem_nil

theorem mem_nodes {node : PipelineNode} (h : node ∈ p.source :: (p.middle ++ [p.sink])) :
    node.inputAssets = [] ∧ node.outputAssets = [] :=
  p.implicit node (p.chain.nodes.mem_iff.mpr h)

theorem bindings_perm : (deriveAssetBindings js p.version.definition).Perm
    ((p.input js).toList ++ (p.output js).toList) := by
  have hmiddle : p.middle.flatMap (nodeBindings js p.version.definition) = [] := by
    rw [flatMap_eq_nil_iff]
    intro node hnode
    obtain ⟨hinput, houtput⟩ := p.mem_nodes (mem_cons_of_mem _ (mem_append_left _ hnode))
    have hinfer : infer js node = none := by
      have hactivity := (p.isMiddle node hnode).2
      simp only [mem_cons, not_mem_nil, or_false] at hactivity
      rcases hactivity with h | h | h <;> (simp only [infer, h]; rfl)
    rw [nodeBindings, hinfer]
    simp [hinput, houtput]
  have hsource : nodeBindings js p.version.definition p.source = (p.input js).toList := by
    obtain ⟨hinput, houtput⟩ := p.mem_nodes mem_cons_self
    have htype : p.source.type ≠ .sink := by rw [p.isSource.1]; decide
    rw [nodeBindings, sinkContract, if_neg htype]
    rw [if_neg (by simp [hinput, houtput]), input, if_neg htype]
    cases infer js p.source <;> rfl
  have hsink : nodeBindings js p.version.definition p.sink = (p.output js).toList := by
    obtain ⟨hinput, houtput⟩ :=
      p.mem_nodes (mem_cons_of_mem _ (mem_append_right _ (mem_singleton_self p.sink)))
    rw [nodeBindings, sinkContract, if_pos p.isSink.1, upstreamContract_sink]
    rw [if_neg (by simp [hinput, houtput]), output, if_pos p.isSink.1]
    cases infer js p.sink <;> rfl
  refine (p.chain.nodes.flatMap_right _).trans (.of_eq ?_)
  rw [flatMap_cons, flatMap_append, hmiddle, flatMap_singleton, hsource, hsink, nil_append]

theorem urn_promised (asset : DataAssetRef) (contract : Option (List SchemaField)) :
    (asset.promised contract).urn = asset.urn := by
  cases contract <;> rfl

/-- The links of the browser. -/
theorem linkedBy_iff {source target : String} : LinkedBy js p.version source target ↔
    (∃ urn, p.Read js urn ∧ source = assetId urn ∧ target = pipelineId p.version.rowId) ∨
      ∃ urn, p.Written js urn ∧ source = pipelineId p.version.rowId ∧ target = assetId urn := by
  unfold LinkedBy Read Written
  simp only [bindings_perm.mem_iff, mem_append, or_and_right, exists_or, Option.mem_toList]
  rw [or_right_comm]
  refine or_congr (or_congr ?_ Iff.rfl) ?_
  · cases hinfer : infer js p.source <;> simp [input, hinfer, bindingEdge, eq_comm]
  · cases hinfer : infer js p.sink <;> simp [output, hinfer, bindingEdge, urn_promised, eq_comm]

theorem namedBy_iff {urn : String} :
    NamedBy js p.version urn ↔ p.Read js urn ∨ p.Written js urn := by
  unfold NamedBy Read Written
  simp only [bindings_perm.mem_iff, mem_append, or_and_right, exists_or, Option.mem_toList]
  rw [or_right_comm]
  refine or_congr (or_congr_left ?_) ?_
  · cases hinfer : infer js p.source <;> simp [input, hinfer]
  · cases hinfer : infer js p.sink <;> simp [output, hinfer, urn_promised]

end bindings

/-! ### The fields of a chain -/

/-- A map. -/
def isMap (node : PipelineNode) : Bool := node.activityType = "transform.map"

/-- The fields of the contracts among nodes, as the server reads them. -/
def namesOf (codec : NumberCodec) (nodes : List PipelineNode) : List String :=
  (nodes.map (·.toNode)).flatMap (Api.contractNames codec)

section columns

variable (p : ChainPipeline) (js : JsValues) (codec : NumberCodec)

/-- What the server makes of the fields of the contracts in front of a single map and behind it. -/
def renamed (map : PipelineNode) : Api.FieldTypes := fun name =>
  if name ∈ namesOf codec (p.middle.dropWhile fun node => !isMap node).tail then some name
  else Api.renameFields (Api.mapMatches map.toNode) (fun name =>
    if name ∈ namesOf codec (p.middle.takeWhile fun node => !isMap node) then some name else none) name

/-- **The fields are named alike.** Without a map the nearest contract that the browser reads has
the fields of all contracts; a single map has the lineage that the server makes of it; otherwise no
contract has fields. -/
def FieldsAlike : Prop :=
  match infer js p.source, p.middle.filter isMap with
  | some _, [] => ∀ name,
      name ∈ ((p.contract js).getD []).map SchemaField.name ↔ name ∈ namesOf codec p.middle
  | some _, [map] => ∃ mapping, deriveMapFieldLineage (expressionText js map) = .ok mapping ∧
      ∀ old new, (∃ field ∈ mapping, field.outputField = new ∧ old ∈ field.inputFields) ↔
        p.renamed codec map new = some old
  | _, _ => namesOf codec p.middle = []

/-- The fields that the server carries to the sink. -/
def carried : Api.FieldTypes := (p.middle.map (·.toNode)).foldl (Api.carryFields codec) fun _ => none

/-- Which fields go into which for the browser. -/
def mapping : Except String (List MapFieldLineage) :=
  match p.middle.filter isMap with
  | [] => .ok (sameFields ((p.contract js).getD []))
  | [map] => deriveMapFieldLineage (expressionText js map)
  | _ => .ok []

/-- A link between fields of the browser. -/
def Column (source old target new : String) : Prop :=
  ∃ columns, versionColumns js p.version = .ok columns ∧
    (p.version.rowId, source, old, target, new) ∈ columns.map WorkspaceColumnLineageEdge.key

variable {p js codec}

theorem columnMapping_eq : ∃ id, columnMapping js p.version.definition.nodes
    ((p.contract js).getD []) = (p.mapping js).map fun mapping => (id, mapping) := by
  have hmaps :
      (p.version.definition.nodes.filter fun node => node.activityType = "transform.map").Perm
      (p.middle.filter isMap) := by
    refine (p.chain.nodes.filter _).trans (.of_eq ?_)
    rw [filter_cons_of_neg (by rw [p.isSource.2.1]; decide), filter_append,
      filter_singleton, p.isSink.2.1]
    exact append_nil _
  have hrenames :
      p.version.definition.nodes.filter (fun node => node.activityType = "transform.rename") =
      [] := by
    rw [filter_eq_nil_iff]
    intro node hnode hrename
    have hactivity :
        node.activityType ∈ ["s3.fetch", "sink.s3", "transform.contract", "transform.map", "transform.filter"] := by
      rcases mem_cons.mp (p.chain.nodes.mem_iff.mp hnode) with rfl | hmem
      · simp [p.isSource.2.1]
      · rcases mem_append.mp hmem with hmem | hmem
        · exact mem_cons_of_mem _ (mem_cons_of_mem _ (p.isMiddle node hmem).2)
        · simp [mem_singleton.mp hmem, p.isSink.2.1]
    rw [of_decide_eq_true hrename] at hactivity
    exact absurd hactivity (by decide)
  unfold columnMapping mapping
  rw [hrenames]
  generalize p.version.definition.nodes.filter (fun node => node.activityType = "transform.map") = maps at hmaps
  rcases hmiddle : p.middle.filter isMap with _ | ⟨map, _ | ⟨other, rest⟩⟩
  · rw [hmiddle] at hmaps
    exact ⟨none, by rw [hmaps.eq_nil]; rfl⟩
  · rw [hmiddle] at hmaps
    exact ⟨some map.id, by rw [perm_singleton.mp hmaps]⟩
  · have hlength := hmaps.length_eq
    rw [hmiddle, length_cons, length_cons] at hlength
    rcases maps with _ | ⟨first, _ | _⟩
    · cases hlength
    · rw [length_singleton] at hlength
      omega
    · exact ⟨none, rfl⟩

theorem versionColumns_eq : versionColumns js p.version = match p.input js, p.output js with
    | some input, some output =>
        (columnMapping js p.version.definition.nodes output.asset.fields).map
        (columnLinks p.version.rowId input output)
    | _, _ => .ok [] := by
  have hfilter : ∀ direction, ((deriveAssetBindings js p.version.definition).filter
      (·.direction = direction)).Perm (((p.input js).toList ++ (p.output js).toList).filter
        (·.direction = direction)) := fun direction => bindings_perm.filter _
  have hinputs : (deriveAssetBindings js p.version.definition).filter (·.direction = .input) =
      (p.input js).toList := by
    refine eq_toList_of_perm ((hfilter _).trans (.of_eq ?_))
    unfold input output
    cases infer js p.source <;> cases infer js p.sink <;> rfl
  have houtputs : (deriveAssetBindings js p.version.definition).filter (·.direction = .output) =
      (p.output js).toList := by
    refine eq_toList_of_perm ((hfilter _).trans (.of_eq ?_))
    unfold input output
    cases infer js p.source <;> cases infer js p.sink <;> rfl
  unfold versionColumns
  dsimp only
  rw [hinputs, houtputs]
  cases p.input js <;> cases p.output js <;> rfl

theorem mem_columnLinks {rowId source old target new : String} {input output : AssetBinding}
    {mapping : Option String × List MapFieldLineage} : (rowId, source, old, target, new) ∈
      (columnLinks rowId input output mapping).map WorkspaceColumnLineageEdge.key ↔
    source = input.asset.urn ∧ target = output.asset.urn ∧
      ∃ field ∈ mapping.2, field.outputField = new ∧ old ∈ field.inputFields := by
  simp only [columnLinks, map_flatMap, map_map, mem_flatMap, mem_map,
    Function.comp_apply, WorkspaceColumnLineageEdge.key, Prod.mk.injEq, true_and]
  constructor
  · rintro ⟨field, hfield, inputField, hinput, rfl, rfl, rfl, rfl⟩
    exact ⟨rfl, rfl, field, hfield, rfl, hinput⟩
  · rintro ⟨rfl, rfl, field, hfield, rfl, hinput⟩
    exact ⟨field, hfield, old, hinput, rfl, rfl, rfl, rfl⟩

/-- Where both ends are named, the links are those of the mapping. -/
theorem versionColumns_of_named {read written : DataAssetRef}
    (hread : infer js p.source = some read) (hwritten : infer js p.sink = some written) :
    ∃ links : List MapFieldLineage → _, versionColumns js p.version = (p.mapping js).map links ∧
      ∀ mapping source old target new, (p.version.rowId, source, old, target, new) ∈
          (links mapping).map WorkspaceColumnLineageEdge.key ↔ source = read.urn ∧
        target = written.urn ∧ ∃ field ∈ mapping, field.outputField = new ∧ old ∈ field.inputFields := by
  have hfields : (written.promised (p.contract js)).fields = (p.contract js).getD [] := by
    cases p.contract js with
    | none => exact congrArg (fun schema => Option.getD schema []) (infer_schema hwritten)
    | some fields => rfl
  obtain ⟨id, hmapping⟩ := @columnMapping_eq p js
  have hmap : ∀ links : Option String × List MapFieldLineage → List WorkspaceColumnLineageEdge,
      Except.map links (Except.map (fun mapping => (id, mapping)) (p.mapping js)) =
        (p.mapping js).map fun mapping => links (id, mapping) := by
    intro links
    cases p.mapping js <;> rfl
  rw [versionColumns_eq, input, output, hread, hwritten]
  dsimp only [Option.map_some]
  rw [hfields, hmapping, hmap]
  refine ⟨_, rfl, fun mapping source old target new => ?_⟩
  rw [mem_columnLinks, urn_promised]

theorem exists_sameFields_iff {fields : List SchemaField} {old new : String} :
    (∃ field ∈ sameFields fields, field.outputField = new ∧ old ∈ field.inputFields) ↔
      old = new ∧ new ∈ fields.map SchemaField.name := by
  simp only [sameFields, mem_map, exists_exists_and_eq_and, mem_singleton]
  constructor
  · rintro ⟨field, hfield, rfl, rfl⟩
    exact ⟨rfl, field, hfield, rfl⟩
  · rintro ⟨rfl, field, hfield, rfl⟩
    exact ⟨field, hfield, rfl, rfl⟩

theorem carried_eq_none_iff : p.carried codec = (fun _ => none) ↔ namesOf codec p.middle = [] :=
  Api.carryFields_eq_none_iff.trans (and_iff_right rfl)

/-- The server, where nothing is mapped. -/
theorem foldl_of_no_map {nodes : List PipelineNode} (h : nodes.filter isMap = [])
    (fields : Api.FieldTypes) (name : String) :
    (nodes.map (·.toNode)).foldl (Api.carryFields codec) fields name =
      if name ∈ namesOf codec nodes then some name else fields name := by
  refine Api.foldl_carryFields_of_no_map ?_ name
  intro node hnode
  obtain ⟨node, hmem, rfl⟩ := mem_map.mp hnode
  simpa [isMap] using filter_eq_nil_iff.mp h node hmem

/-- The server, with a single map. -/
theorem carried_of_map {map : PipelineNode} (h : p.middle.filter isMap = [map]) (name : String) :
    p.carried codec name = p.renamed codec map name := by
  have hsplit := @takeWhile_append_dropWhile _ (fun node => !isMap node) p.middle
  have hbefore : (p.middle.takeWhile fun node => !isMap node).filter isMap = [] := by
    refine filter_eq_nil_iff.mpr fun node hnode => ?_
    simpa using mem_takeWhile_imp hnode
  rw [← hsplit, filter_append, hbefore, nil_append] at h
  cases hdrop : p.middle.dropWhile fun node => !isMap node with
  | nil =>
    simp [hdrop] at h
  | cons first after =>
    have hfirst : isMap first = true := by
      have hnot := head?_dropWhile_not (fun node => !isMap node) p.middle
      rw [hdrop] at hnot
      simpa using hnot
    rw [hdrop, filter_cons_of_pos hfirst, cons.injEq] at h
    obtain ⟨rfl, hafter⟩ := h
    have hcarried : p.carried codec name = ((p.middle.takeWhile (fun node => !isMap node) ++
        first :: after).map (·.toNode)).foldl (Api.carryFields codec) (fun _ => none) name := by
      rw [carried, ← hdrop, hsplit]
    rw [hcarried, renamed, hdrop, tail_cons, map_append, map_cons, foldl_append,
      foldl_cons, foldl_of_no_map hafter, Api.carryFields, if_pos (of_decide_eq_true hfirst),
      funext (foldl_of_no_map hbefore _)]

/-- **The links between fields** are those of the server. -/
theorem columns_iff_fieldsAlike (hsource : p.SourceAlike js codec) (hsink : p.SinkAlike) :
    ((∃ columns, versionColumns js p.version = .ok columns) ∧ ∀ source old target new,
      (source = p.sourceURN codec ∧ target = p.sinkURN codec ∧ p.carried codec new = some old ↔
        p.Column js source old target new)) ↔ p.FieldsAlike js codec := by
  obtain ⟨written, hwritten, htarget⟩ := ((@written_iff_sinkAlike p js codec).mpr hsink _).mp rfl
  have hread := read_iff_sourceAlike.mpr hsource
  have hnone : (∀ new old, p.carried codec new ≠ some old) ↔ namesOf codec p.middle = [] := by
    rw [← carried_eq_none_iff, funext_iff]
    exact forall_congr' fun name => Option.eq_none_iff_forall_ne_some.symm
  unfold FieldsAlike Column
  cases hinfer : infer js p.source with
  | none =>
    have hcolumns : versionColumns js p.version = .ok [] := by
      rw [versionColumns_eq, input, hinfer]
      cases p.output js <;> rfl
    rw [hcolumns]
    rw [← hnone]
    constructor
    · rintro ⟨-, h⟩ new old hfield
      obtain ⟨columns, hok, hmem⟩ := (h _ _ _ _).mp ⟨rfl, rfl, hfield⟩
      cases hok
      cases hmem
    · refine fun h => ⟨⟨[], rfl⟩, fun source old target new => iff_of_false ?_ ?_⟩
      · exact fun hfield => h new old hfield.2.2
      · rintro ⟨columns, hok, hmem⟩
        cases hok
        cases hmem
  | some read =>
    have hurn : read.urn = p.sourceURN codec := (hread _).mpr (.inl ⟨read, hinfer, rfl⟩)
    obtain ⟨links, hlinks, hmem⟩ := versionColumns_of_named hinfer hwritten
    have hall : ((∃ columns, versionColumns js p.version = .ok columns) ∧ ∀ source old target new,
        (source = p.sourceURN codec ∧ target = p.sinkURN codec ∧ p.carried codec new = some old ↔
          ∃ columns, versionColumns js p.version = .ok columns ∧
            (p.version.rowId, source, old, target, new) ∈ columns.map WorkspaceColumnLineageEdge.key)) ↔
        ∃ mapping, p.mapping js = .ok mapping ∧ ∀ old new,
          ((∃ field ∈ mapping, field.outputField = new ∧ old ∈ field.inputFields) ↔
            p.carried codec new = some old) := by
      rw [hlinks]
      cases p.mapping js with
      | error err => simp [Except.map]
      | ok mapping =>
        simp only [Except.map, Except.ok.injEq, exists_eq', true_and, exists_eq_left', hmem, hurn,
          htarget]
        constructor
        · intro h old new
          have hpair := h (p.sourceURN codec) old (p.sinkURN codec) new
          simpa using hpair.symm
        · intro h source old target new
          rw [h]
    rw [hall]
    unfold mapping
    rcases hmaps : p.middle.filter isMap with _ | ⟨map, _ | ⟨other, rest⟩⟩
    · have hsame : ∀ old new, (if new ∈ namesOf codec p.middle then some new else none) = some old ↔
          old = new ∧ new ∈ namesOf codec p.middle := by
        intro old new
        split_ifs with hnew <;> simp [hnew, eq_comm]
      simp only [Except.ok.injEq, exists_eq_left', carried, foldl_of_no_map hmaps,
        exists_sameFields_iff, hsame]
      constructor
      · intro h name
        simpa using h name name
      · intro h old new
        rw [h]
    · simp only [carried_of_map hmaps]
    · simp only [Except.ok.injEq, exists_eq_left', ← hnone, not_mem_nil, false_and,
        exists_false, false_iff]
      exact forall_comm

end columns

/-! ### The graph of the server -/

section server

variable {p : ChainPipeline} {codec : NumberCodec} {ranging : RangeIds}
  {done : List (String × Node)} {build : Api.LineageBuild}

/-- The nodes of the chain, with the id of the row. -/
def entries (p : ChainPipeline) : List (String × Node) :=
  ((p.source :: (p.middle ++ [p.sink])).map (·.toNode)).map fun node => (p.row.id, node)

/-- A link between fields of the server. -/
def Carried (p : ChainPipeline) (codec : NumberCodec) (source old target new : String) : Prop :=
  source = p.sourceURN codec ∧ target = p.sinkURN codec ∧ p.carried codec new = some old

/-- **The round of a row.** -/
theorem addRow_chain (h : Api.Tracks codec done build) :
    ∃ build', Api.addRow codec ranging build p.row = some build' ∧
      Api.Tracks codec (done ++ p.entries) build' ∧
      ∀ rowId source old target new,
        (rowId, source, old, target, new) ∈ build'.columnEdges.map Api.ColumnLink.key ↔
          (rowId, source, old, target, new) ∈ build.columnEdges.map Api.ColumnLink.key ∨
            (p.version.rowId = rowId ∧ p.Carried codec source old target new) := by
  have hnodes := p.chain.nodes.map PipelineNode.toNode
  rw [← p.sameNodes] at hnodes
  have hpath : Api.OnePath p.stored.toPipelineDefinition
      ((p.source :: (p.middle ++ [p.sink])).map (·.id)) := by
    constructor
    · have hids := (hnodes.map Node.id).symm
      rwa [map_map] at hids
    · intro e
      rw [Api.endpoints, p.sameEdges]
      exact p.chain.edges.mem_iff
  have hids : (p.stored.nodes.map Node.id).Nodup := hpath.1.nodup_iff.mp p.chain.ids
  have hnamed : ∀ node ∈ p.stored.nodes, node.id ≠ "" := by
    rw [p.sameNodes]
    exact forall_mem_map.mpr p.named
  have hnil : p.stored.nodes ≠ [] := ne_nil_of_mem (hnodes.mem_iff.mpr mem_cons_self)
  have hway : ((p.source :: (p.middle ++ [p.sink])).map (·.id)).map (Api.byID p.stored.nodes) =
      (p.source :: (p.middle ++ [p.sink])).map (·.toNode) := by
    rw [map_map]
    refine map_congr_left fun node hnode => ?_
    exact Api.byID_eq hids (hnodes.mem_iff.mpr (mem_map_of_mem hnode))
  refine ⟨_, Api.addRow_path p.definition hids hnamed hpath hnil, ?_, ?_⟩
  · rw [hway]
    exact Api.tracks_foldl _ (h.pipelineNode p.row)
  · intro rowId source old target new
    rw [hway, map_cons, map_append, map_singleton, Api.mem_columnEdges_chain p.isSource p.isSink]
    · refine or_congr_right ?_
      rw [p.rowId]
      constructor
      · rintro ⟨name, field, hfield, heq⟩
        cases heq
        exact ⟨rfl, rfl, rfl, hfield⟩
      · rintro ⟨rfl, rfl, rfl, hfield⟩
        exact ⟨new, old, hfield, rfl⟩
    · intro node hnode
      obtain ⟨node, hmem, rfl⟩ := mem_map.mp hnode
      rw [(p.isMiddle node hmem).1]
      decide

theorem foldlM_addRow {pipelines : List ChainPipeline} (h : Api.Tracks codec done build) :
    ∃ build', (pipelines.map row).foldlM (Api.addRow codec ranging) build = some build' ∧
      Api.Tracks codec (done ++ pipelines.flatMap entries) build' ∧
      ∀ rowId source old target new,
        (rowId, source, old, target, new) ∈ build'.columnEdges.map Api.ColumnLink.key ↔
          (rowId, source, old, target, new) ∈ build.columnEdges.map Api.ColumnLink.key ∨
            ∃ p ∈ pipelines, p.version.rowId = rowId ∧ p.Carried codec source old target new := by
  induction pipelines generalizing done build with
  | nil => exact ⟨build, rfl, by simpa using h, by simp⟩
  | cons p pipelines ih =>
    obtain ⟨next, hadd, htracks, hcolumns⟩ := @addRow_chain p codec ranging done build h
    obtain ⟨build', hfold, htracks', hcolumns'⟩ := ih htracks
    refine ⟨build', ?_, ?_, fun rowId source old target new => ?_⟩
    · rw [map_cons, foldlM_cons, hadd]
      exact hfold
    · rwa [flatMap_cons, ← append_assoc]
    · rw [hcolumns', hcolumns, or_assoc]
      simp

/-- The nodes that name assets are the ends. -/
theorem exists_entry_iff {P : String → Node → Prop} :
    (∃ entry ∈ p.entries, Api.Marked entry.2 ∧ P entry.1 entry.2) ↔
      P p.version.rowId p.source.toNode ∨ P p.version.rowId p.sink.toNode := by
  have hsource : Api.Marked p.source.toNode :=
    ⟨.inl p.isSource.1, fun field hfield => (p.isSource.2.2 field hfield).2⟩
  have hsink : Api.Marked p.sink.toNode :=
    ⟨.inr p.isSink.1, fun field hfield => (p.isSink.2.2 field hfield).2⟩
  have hmiddle : ∀ node ∈ p.middle, ¬ Api.Marked node.toNode := by
    rintro node hnode ⟨hend | hend, -⟩ <;>
      · simp [(p.isMiddle node hnode).1] at hend
  simp only [entries, map_cons, map_append, map_map, mem_cons, mem_append,
    mem_map, not_mem_nil, or_false, Function.comp_apply, p.rowId, map_nil]
  constructor
  · rintro ⟨entry, rfl | ⟨node, hnode, rfl⟩ | rfl, hmarked, hP⟩
    · exact .inl hP
    · exact absurd hmarked (hmiddle node hnode)
    · exact .inr hP
  · rintro (hP | hP)
    · exact ⟨_, .inl rfl, hsource, hP⟩
    · exact ⟨_, .inr (.inr rfl), hsink, hP⟩

end server

end ChainPipeline

/-! ## Both graphs -/

/-- The fields of a link between fields. -/
abbrev ColumnKey := String × String × String × String × String

/-- **What a graph shows of pipelines**: the assets that each reads and writes, and which field goes
into which. -/
structure Shows (pipelines : List ChainPipeline) (reads writes : ChainPipeline → String → Prop)
    (columns : ChainPipeline → String → String → String → String → Prop) (asset : String → Prop)
    (link : String → String → Prop) (column : ColumnKey → Prop) : Prop where
  assets : ∀ urn, asset urn ↔ ∃ p ∈ pipelines, reads p urn ∨ writes p urn
  reads : ∀ urn rowId, link (assetId urn) (pipelineId rowId) ↔
    ∃ p ∈ pipelines, p.version.rowId = rowId ∧ reads p urn
  writes : ∀ urn rowId, link (pipelineId rowId) (assetId urn) ↔
    ∃ p ∈ pipelines, p.version.rowId = rowId ∧ writes p urn
  columns : ∀ rowId source old target new, column (rowId, source, old, target, new) ↔
    ∃ p ∈ pipelines, p.version.rowId = rowId ∧ columns p source old target new

/-- **Both graphs agree**: on the assets, on the links between assets and pipelines, and on the
links between fields. -/
structure Agree (server : Api.WorkspaceLineage) (browser : WorkspaceLineage) : Prop where
  assets : ∀ urn, (∃ item ∈ Api.assets server.nodes, item.urn = urn) ↔
    ∃ node ∈ browser.nodes, ∃ ref, node.asset? = some ref ∧ ref.urn = urn
  reads : ∀ urn rowId, (∃ link ∈ server.edges, link.source = assetId urn ∧
      link.target = pipelineId rowId) ↔ HasLink browser.edges (assetId urn) (pipelineId rowId)
  writes : ∀ urn rowId, (∃ link ∈ server.edges, link.source = pipelineId rowId ∧
      link.target = assetId urn) ↔ HasLink browser.edges (pipelineId rowId) (assetId urn)
  columns : ∀ key, key ∈ server.columnEdges.map Api.ColumnLink.key ↔
    key ∈ browser.columnEdges.map WorkspaceColumnLineageEdge.key

/-- Both sides give a graph, and the graphs agree. -/
def LineagesAgree (js : JsValues) (codec : NumberCodec) (ranging : RangeIds)
    (pipelines : List ChainPipeline) : Prop :=
  ∃ server browser,
    Api.buildWorkspaceLineage codec ranging (pipelines.map ChainPipeline.row) = some server ∧
      buildWorkspaceLineage js (pipelines.map ChainPipeline.version) = .ok browser ∧ Agree server browser

section graphs

variable {js : JsValues} {codec : NumberCodec} {ranging : RangeIds} {pipelines : List ChainPipeline}

/-- What the server shows. -/
theorem exists_server : ∃ server,
    Api.buildWorkspaceLineage codec ranging (pipelines.map ChainPipeline.row) = some server ∧
      Shows pipelines (fun p urn => urn = p.sourceURN codec) (fun p urn => urn = p.sinkURN codec)
        (fun p => p.Carried codec) (fun urn => ∃ item ∈ Api.assets server.nodes, item.urn = urn)
        (fun source target => ∃ link ∈ server.edges, link.source = source ∧ link.target = target)
        fun key => key ∈ server.columnEdges.map Api.ColumnLink.key := by
  obtain ⟨build, hfold, htracks, hcolumns⟩ :=
    @ChainPipeline.foldlM_addRow codec ranging [] {} pipelines Api.tracks_empty
  rw [nil_append] at htracks
  have hentry : ∀ P : String → Node → Prop, (∃ entry ∈ pipelines.flatMap ChainPipeline.entries,
      Api.Marked entry.2 ∧ P entry.1 entry.2) ↔ ∃ p ∈ pipelines,
        P p.version.rowId p.source.toNode ∨ P p.version.rowId p.sink.toNode := by
    intro P
    simp only [← ChainPipeline.exists_entry_iff, mem_flatMap]
    exact ⟨fun ⟨entry, ⟨p, hp, hentry⟩, h⟩ => ⟨p, hp, entry, hentry, h⟩,
      fun ⟨p, hp, entry, hentry, h⟩ => ⟨entry, ⟨p, hp, hentry⟩, h⟩⟩
  have hlink :
      ∀ source target, (∃ link ∈ build.edges, link.source = source ∧ link.target = target) ↔
      ∃ p ∈ pipelines, (assetId (p.sourceURN codec) = source ∧ pipelineId p.version.rowId = target) ∨
        (pipelineId p.version.rowId = source ∧ assetId (p.sinkURN codec) = target) := by
    intro source target
    have hends := hentry fun rowId node => (Api.linkOf codec rowId node).source = source ∧
      (Api.linkOf codec rowId node).target = target
    have hlinks : ∀ p : ChainPipeline, Api.linkOf codec p.version.rowId p.source.toNode =
          Api.sourceLink p.version.rowId p.source.id (p.sourceURN codec) ∧
        Api.linkOf codec p.version.rowId p.sink.toNode =
          Api.sinkLink p.version.rowId p.sink.id (p.sinkURN codec) :=
      fun p => ⟨if_pos p.isSource.1, if_neg (by rw [p.isSink.1]; decide)⟩
    simp only [hlinks] at hends
    rw [htracks.edges]
    refine Iff.trans ⟨?_, ?_⟩ hends
    · rintro ⟨link, hmem, hlink⟩
      obtain ⟨entry, hentry, rfl⟩ := mem_map.mp hmem
      obtain ⟨hmem, hmarked⟩ := mem_filter.mp hentry
      exact ⟨entry, hmem, of_decide_eq_true hmarked, hlink⟩
    · rintro ⟨entry, hmem, hmarked, hlink⟩
      exact ⟨_, mem_map_of_mem (mem_filter.mpr ⟨hmem, decide_eq_true hmarked⟩), hlink⟩
  refine ⟨_, by rw [Api.buildWorkspaceLineage, hfold]; rfl, ?_, ?_, ?_, fun rowId source old target new => ?_⟩
  · intro urn
    refine Iff.trans ?_ (hentry fun _ node => urn = (Api.assetOf codec node.config).urn)
    have hshown :
        (∃ item ∈ Api.assets (build.nodes.map (Api.showSchema ranging build.assetSchemas)),
        item.urn = urn) ↔ ∃ item ∈ Api.assets build.nodes, item.urn = urn := by
      have hmap := congrArg (fun assets => urn ∈ assets.map Api.NamedAsset.urn)
        (@Api.assets_showSchema ranging build.assetSchemas build.nodes)
      simpa using hmap
    rw [hshown]
    constructor
    · rintro ⟨item, hitem, rfl⟩
      obtain ⟨entry, hmem, hmarked, hasset⟩ := htracks.sound item hitem
      exact ⟨entry, hmem, hmarked, congrArg Api.NamedAsset.urn hasset⟩
    · rintro ⟨entry, hmem, hmarked, rfl⟩
      obtain ⟨item, hitem, hid⟩ := mem_map.mp (htracks.complete entry hmem hmarked)
      rw [htracks.ids item hitem] at hid
      exact ⟨item, hitem, assetId_injective hid⟩
  · intro urn rowId
    refine (hlink _ _).trans (exists_congr fun p => and_congr_right fun _ => ?_)
    simp only [assetId_injective.eq_iff, pipelineId_injective.eq_iff, pipelineId_ne_assetId,
      false_and, or_false]
    exact and_comm.trans (and_congr_right fun _ => eq_comm)
  · intro urn rowId
    refine (hlink _ _).trans (exists_congr fun p => and_congr_right fun _ => ?_)
    simp only [assetId_injective.eq_iff, pipelineId_injective.eq_iff,
      (pipelineId_ne_assetId _ _).symm, false_and, false_or]
    exact and_congr_right fun _ => eq_comm
  · refine (hcolumns rowId source old target new).trans (or_iff_right ?_)
    exact not_mem_nil

/-- What the browser shows, if it shows something. -/
theorem shows_browser {browser : WorkspaceLineage}
    (h : buildWorkspaceLineage js (pipelines.map ChainPipeline.version) = .ok browser) :
    (∀ p ∈ pipelines, ∃ columns, versionColumns js p.version = .ok columns) ∧
      Shows pipelines (fun p => p.Read js) (fun p => p.Written js) (fun p => p.Column js)
        (fun urn => ∃ node ∈ browser.nodes, ∃ ref, node.asset? = some ref ∧ ref.urn = urn)
        (HasLink browser.edges) fun key => key ∈ browser.columnEdges.map WorkspaceColumnLineageEdge.key := by
  unfold buildWorkspaceLineage at h
  cases hfold : (pipelines.map ChainPipeline.version).foldlM (addVersion js) {} with
  | error err =>
    rw [hfold] at h
    cases h
  | ok build =>
    rw [hfold] at h
    cases h
    obtain ⟨hfilled, hcolumns⟩ := filled_of_foldlM hfold
    have hsound := foldlM_sound sound_empty hfold
    have hevent : ∀ (versions : List LineagePipelineVersion) (source target : String),
        HasLink (versions.filterMap (eventEdge versions)) source target →
        (∃ rowId, source = pipelineId rowId) ∧ ∃ rowId, target = pipelineId rowId := by
      rintro versions source target ⟨edge, hedge, rfl, rfl⟩
      obtain ⟨version, -, hversion⟩ := mem_filterMap.mp hedge
      unfold eventEdge at hversion
      split at hversion
      · obtain ⟨key, -, hkey⟩ := Option.bind_eq_some_iff.mp hversion
        obtain ⟨upstream, -, rfl⟩ := Option.map_eq_some_iff.mp hkey
        exact ⟨⟨_, rfl⟩, _, rfl⟩
      · cases hversion
    have hlink : ∀ {source target : String}, (∃ urn, source = assetId urn ∨ target = assetId urn) →
        (HasLink (build.graph (pipelines.map ChainPipeline.version)).edges source target ↔
          ∃ p ∈ pipelines, LinkedBy js p.version source target) := by
      rintro source target ⟨urn, hurn⟩
      refine hasLink_append.trans ((or_iff_left fun h => ?_).trans ?_)
      · obtain ⟨⟨rowId, hsource⟩, rowId', htarget⟩ := hevent _ _ _ h
        rcases hurn with hurn | hurn
        · exact pipelineId_ne_assetId _ _ (hsource.symm.trans hurn)
        · exact pipelineId_ne_assetId _ _ (htarget.symm.trans hurn)
      · rw [hfilled.links]
        simp [HasLink]
    refine ⟨fun p hp => hcolumns _ (mem_map_of_mem hp), ⟨?_, ?_, ?_, ?_⟩⟩
    · intro urn
      have hnamed := hfilled.assets urn
      simp only [map_nil, not_mem_nil, false_or, mem_map, exists_exists_and_eq_and,
        ChainPipeline.namedBy_iff] at hnamed
      rw [← hnamed]
      constructor
      · rintro ⟨node, hnode, ref, href, rfl⟩
        rcases mem_append.mp hnode with hnode | hnode
        · obtain ⟨pipeline, rfl⟩ := hsound.pipelines node hnode
          cases href
        · obtain ⟨entry, hentry, rfl⟩ := mem_map.mp hnode
          cases href
          exact ⟨entry, hentry, (hsound.urns entry hentry).symm⟩
      · rintro ⟨entry, hentry, rfl⟩
        exact ⟨_, mem_append_right _ (mem_map_of_mem hentry), _, rfl, hsound.urns entry hentry⟩
    · intro urn rowId
      rw [hlink ⟨urn, .inl rfl⟩]
      refine exists_congr fun p => and_congr_right fun _ => ?_
      simp only [ChainPipeline.linkedBy_iff, assetId_injective.eq_iff, pipelineId_injective.eq_iff,
        (pipelineId_ne_assetId _ _).symm, false_and, and_false, exists_false, or_false]
      exact ⟨fun ⟨_, hread, heq, hrow⟩ => ⟨hrow.symm, heq ▸ hread⟩,
        fun ⟨hrow, hread⟩ => ⟨urn, hread, rfl, hrow.symm⟩⟩
    · intro urn rowId
      rw [hlink ⟨urn, .inr rfl⟩]
      refine exists_congr fun p => and_congr_right fun _ => ?_
      simp only [ChainPipeline.linkedBy_iff, assetId_injective.eq_iff, pipelineId_injective.eq_iff,
        pipelineId_ne_assetId, false_and, and_false, exists_false, false_or]
      exact ⟨fun ⟨_, hwritten, hrow, heq⟩ => ⟨hrow.symm, heq ▸ hwritten⟩,
        fun ⟨hrow, hwritten⟩ => ⟨urn, hwritten, hrow.symm, rfl⟩⟩
    · intro rowId source old target new
      constructor
      · intro hkey
        obtain ⟨link, hlink, hkey⟩ := mem_map.mp hkey
        obtain ⟨version, hversion, columns, hok, hmem⟩ :=
          ((hfilled.columns link).mp hlink).resolve_left not_mem_nil
        obtain ⟨p, hp, rfl⟩ := mem_map.mp hversion
        obtain rfl : p.version.rowId = rowId :=
          (pipelineRowId_of_versionColumns hok hmem).symm.trans (Prod.mk.inj hkey).1
        exact ⟨p, hp, rfl, columns, hok, hkey ▸ mem_map_of_mem hmem⟩
      · rintro ⟨p, hp, rfl, columns, hok, hmem⟩
        obtain ⟨link, hlink, hkey⟩ := mem_map.mp hmem
        rw [← hkey]
        exact mem_map_of_mem
          ((hfilled.columns link).mpr (.inr ⟨_, mem_map_of_mem hp, columns, hok, hlink⟩))

/-- The pipelines of both graphs can be compared one by one. -/
theorem per_row_iff {α : Type} {P Q : ChainPipeline → α → Prop}
    (hids : (pipelines.map fun p => p.version.rowId).Nodup) :
    (∀ rowId a, (∃ p ∈ pipelines, p.version.rowId = rowId ∧ P p a) ↔
      ∃ p ∈ pipelines, p.version.rowId = rowId ∧ Q p a) ↔ ∀ p ∈ pipelines, ∀ a, P p a ↔ Q p a := by
  have hone : ∀ {R : ChainPipeline → α → Prop} {p : ChainPipeline} {a : α}, p ∈ pipelines →
      ((∃ other ∈ pipelines, other.version.rowId = p.version.rowId ∧ R other a) ↔ R p a) := by
    intro R p a hp
    constructor
    · rintro ⟨other, hother, heq, hR⟩
      exact inj_on_of_nodup_map hids hother hp heq ▸ hR
    · exact fun hR => ⟨p, hp, rfl, hR⟩
  constructor
  · intro h p hp a
    exact (hone hp).symm.trans ((h _ a).trans (hone hp))
  · intro h rowId a
    refine exists_congr fun p => and_congr_right fun hp => and_congr_right fun _ => h p hp a

end graphs

/-- **A pipeline is alike for both sides.** -/
structure ChainPipeline.Alike (p : ChainPipeline) (js : JsValues) (codec : NumberCodec) : Prop where
  source : p.SourceAlike js codec
  sink : p.SinkAlike
  fields : p.FieldsAlike js codec

/-- **The lineages of chains agree** iff every pipeline is alike for both sides: the bucket and the
key of both ends are trimmed texts, no trigger waits for an asset that is not read, and the
contracts and maps in between say the same of the fields. -/
theorem lineages_agree_iff (js : JsValues) (codec : NumberCodec) (ranging : RangeIds)
    (pipelines : List ChainPipeline) (hids : (pipelines.map fun p => p.version.rowId).Nodup) :
    LineagesAgree js codec ranging pipelines ↔ ∀ p ∈ pipelines, p.Alike js codec := by
  obtain ⟨server, hserver, hshown⟩ := @exists_server codec ranging pipelines
  constructor
  · rintro ⟨server', browser, hserver', hbrowser, hagree⟩ p hp
    obtain rfl : server = server' := Option.some.inj (hserver.symm.trans hserver')
    obtain ⟨hcolumns, hshown'⟩ := shows_browser hbrowser
    have hreads := (per_row_iff hids).mp fun rowId urn =>
      (hshown.reads urn rowId).symm.trans ((hagree.reads urn rowId).trans (hshown'.reads urn rowId))
    have hwrites := (per_row_iff hids).mp fun rowId urn =>
      (hshown.writes urn rowId).symm.trans ((hagree.writes urn rowId).trans (hshown'.writes urn rowId))
    have hfields := (per_row_iff (P := fun p (key : String × String × String × String) =>
      p.Carried codec key.1 key.2.1 key.2.2.1 key.2.2.2) hids).mp fun rowId key =>
        (hshown.columns rowId _ _ _ _).symm.trans ((hagree.columns _).trans (hshown'.columns rowId _ _ _ _))
    have hsource := ChainPipeline.read_iff_sourceAlike.mp (hreads p hp)
    have hsink := ChainPipeline.written_iff_sinkAlike.mp (hwrites p hp)
    exact ⟨hsource, hsink, (ChainPipeline.columns_iff_fieldsAlike hsource hsink).mp
      ⟨hcolumns p hp, fun source old target new => hfields p hp (source, old, target, new)⟩⟩
  · intro h
    have hreads := fun p hp => ChainPipeline.read_iff_sourceAlike.mpr (h p hp).source
    have hwrites := fun p hp => (@ChainPipeline.written_iff_sinkAlike p js codec).mpr (h p hp).sink
    have hfields := fun p hp =>
      (ChainPipeline.columns_iff_fieldsAlike (h p hp).source (h p hp).sink).mpr (h p hp).fields
    obtain ⟨build, hbuild⟩ := @exists_foldlM js {} (pipelines.map ChainPipeline.version)
      (forall_mem_map.mpr fun p hp => (hfields p hp).1)
    have hbrowser : buildWorkspaceLineage js (pipelines.map ChainPipeline.version) =
        .ok (build.graph (pipelines.map ChainPipeline.version)) := by
      rw [buildWorkspaceLineage, hbuild]
      rfl
    obtain ⟨-, hshown'⟩ := shows_browser hbrowser
    refine ⟨server, _, hserver, hbrowser, ?_, ?_, ?_, ?_⟩
    · intro urn
      rw [hshown.assets, hshown'.assets]
      exact exists_congr fun p => and_congr_right fun hp => or_congr (hreads p hp urn) (hwrites p hp urn)
    · intro urn rowId
      rw [hshown.reads, hshown'.reads]
      exact (per_row_iff hids).mpr hreads rowId urn
    · intro urn rowId
      rw [hshown.writes, hshown'.writes]
      exact (per_row_iff hids).mpr hwrites rowId urn
    · rintro ⟨rowId, source, old, target, new⟩
      rw [hshown.columns, hshown'.columns]
      exact exists_congr fun p => and_congr_right fun hp => and_congr_right fun _ =>
        (hfields p hp).2 source old target new

/-- The orders of a bucket: a contract with two fields, and a step behind it. -/
def orderSteps (activityType : String) (config : JsonMap) : List PipelineNode :=
  [{ id := "contract", type := .transform, activityType := "transform.contract"
     config := [("schemaJson", .object [("net", .string "number"), ("tax", .string "number")])] },
    { id := "step", type := .transform, activityType, config }]

/-- The same with both ends. -/
def ordersChain (activityType : String) (config : JsonMap)
    (h : activityType ∈ ["transform.contract", "transform.map", "transform.filter"]) :
    ChainPipeline :=
  let source : PipelineNode :=
    { id := "in", type := .source, activityType := "s3.fetch", config := Api.inBucket "raw" "bronze" }
  let sink : PipelineNode :=
    { id := "out", type := .sink, activityType := "sink.s3", config := Api.inBucket "curated" "silver" }
  let nodes := source :: (orderSteps activityType config ++ [sink])
  let edges : List Model.Edge :=
    [{ source := "in", target := "contract" }, { source := "contract", target := "step" },
      { source := "step", target := "out" }]
  let stored : Api.WorkspaceDefinition := { nodes := nodes.map (·.toNode), edges }
  { version := { rowId := "1", definition := { nodes, edges } }
    row := { id := "1", definition := some stored }
    stored, source, middle := orderSteps activityType config, sink
    chain := ⟨.refl _, .refl _, by simp [orderSteps, source, sink]⟩
    named := by simp [nodes, orderSteps, source, sink]
    implicit := by simp [nodes, orderSteps, source, sink]
    isSource := ⟨rfl, rfl, by decide⟩
    isSink := ⟨rfl, rfl, by decide⟩
    isMiddle := by
      intro node hnode
      rcases mem_pair.mp hnode with rfl | rfl
      · exact ⟨rfl, mem_cons_self⟩
      · exact ⟨rfl, h⟩
    rowId := rfl, definition := rfl, sameNodes := rfl, sameEdges := rfl }

/-- A browser that reads contracts as objects only. -/
def plainValues : JsValues := ⟨fun _ => none, fun _ => none, fun _ => "", id⟩

/-- The theorem at a chain with a filter. -/
theorem lineages_agree_iff_filter : LineagesAgree plainValues Model.countedTexts Api.plainRanging
      [ordersChain "transform.filter" [] (by decide)] := by
  refine (lineages_agree_iff _ _ _ _ (by decide)).mpr (forall_mem_singleton.mpr ?_)
  refine ⟨.inl ⟨⟨"raw", rfl, by decide⟩, ⟨"orders.json", rfl, by decide⟩, nofun⟩,
    ⟨⟨"curated", rfl, by decide⟩, "orders.json", rfl, by decide⟩, fun name => ?_⟩
  exact Iff.rfl

/-- A map with a sum. -/
def sumChain : ChainPipeline :=
  ordersChain "transform.map" [("expression", .string "\x7btotal: r.net + r.tax\x7d")] (by decide)

/-- **The second field of a sum is lost** on the server. -/
theorem second_field_lost :
    ¬ ∀ pipelines : List ChainPipeline, (pipelines.map fun p => p.version.rowId).Nodup →
      LineagesAgree plainValues Model.countedTexts Api.plainRanging pipelines := by
  intro h
  obtain ⟨server, browser, hserver, hbrowser, hagree⟩ := h [sumChain] (by decide)
  have hfields : (Api.buildWorkspaceLineage Model.countedTexts Api.plainRanging [sumChain.row]).map
      (fun graph => graph.columnEdges.map Api.ColumnLink.key) =
        some [("1", "s3://raw/orders.json", "net", "s3://curated/orders.json", "total")] := by
    decide +kernel
  have hfields' : (buildWorkspaceLineage plainValues [sumChain.version]).map
      (fun graph => graph.columnEdges.map WorkspaceColumnLineageEdge.key) =
        .ok [("1", "s3://raw/orders.json", "net", "s3://curated/orders.json", "total"),
          ("1", "s3://raw/orders.json", "tax", "s3://curated/orders.json", "total")] := by
    decide +kernel
  rw [map_singleton] at hserver hbrowser
  rw [hserver, Option.map_some, Option.some.injEq] at hfields
  rw [hbrowser, Except.map, Except.ok.injEq] at hfields'
  have hcolumns :=
    hagree.columns ("1", "s3://raw/orders.json", "tax", "s3://curated/orders.json", "total")
  rw [hfields, hfields'] at hcolumns
  revert hcolumns
  decide +kernel

end Dataflow.Shared
