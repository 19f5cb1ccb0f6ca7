import Dataflow.Connectors.Values
import Dataflow.Library.Results
import Dataflow.Model.Sprint

/-!
# The grounding of a generated definition

A generated definition is checked against the catalog of activities and the connector instances of
the tenant. A node may name a connection by the id of an instance or by its name; a name is replaced
by the id.

* `CatalogEntry`, `ConnectorInstance`: what the definition is checked against.
* `validateAIField`, `connectorRequirement`, `groundNode`, `validateAIGrounding`: the code.
* `Grounded`, `Sound`: what a definition that passes should satisfy.
* `groundConnection_cases`: where the stored connection of a node comes from.
* `sound_iff`: **main result**: what passes is sound exactly if the ids in it are written exactly.
* `spaced_id_passes`: an id between blanks.

Source: `ai_grounding.go` `validateAIGrounding`, `validateAIField`, `connectorRequirement`,
`types.go`
-/

namespace Dataflow.Api.AiGrounding

open Connectors Library Model List

/-! ## The catalog and the instances -/

/-- Source: `types.go` `CatalogField`, without its texts for a user. -/
structure CatalogField where
  key : String
  type : String
  required : Bool := false
  options : List Json := []

/-- Source: `types.go` `CatalogEntry`, without its texts for a user. -/
structure CatalogEntry where
  nodeType : NodeType := .other ""
  fields : List CatalogField := []

/-- The keys of the fields. -/
def CatalogEntry.keys (entry : CatalogEntry) : List String := entry.fields.map CatalogField.key

/-- `map[string]model.CatalogEntry`. -/
abbrev Catalog := (activityType : String) → Option CatalogEntry

/-- A row of `connector_instances`, whose id is the text of a UUID.
Source: `routes_ai.go` `aiConnectorInstance`. -/
structure ConnectorInstance where
  id : String
  kind : String
  provider : String
  name : String
  id_trimmed : trimSpace id = id
  id_ne : id ≠ ""

/-! ## The code -/

/-- What the standard library makes of values and texts: `fmt.Sprint` of numbers, the verb `%q`,
`json.Valid`, and the order in which `range` visits a map. -/
structure Texts extends NumberTexts where
  quote : String → String
  jsonValid : String → Bool
  range : JsonMap → JsonMap
  range_perm : ∀ fields, (range fields).Perm fields

/-- `strings.HasSuffix` and `strings.TrimSuffix`. -/
def withoutSuffix? (suffix text : String) : Option String :=
  if suffix.toList <:+ text.toList then some (.ofList (text.toList.take (text.length - suffix.length)))
  else none

/-- `strings.HasPrefix` and `strings.TrimPrefix`. -/
def withoutPrefix? (start text : String) : Option String :=
  if start.toList <+: text.toList then some (.ofList (text.toList.drop start.length)) else none

/-- The provider and the kind that an activity requires; none where the text is empty.
Source: `ai_grounding.go` `connectorRequirement`. -/
def connectorRequirement (activityType : String) : String × String :=
  if activityType = "zendesk.fetch" then ("zendesk", "oauth")
  else if activityType ∈ ["gsheets.fetch", "gdrive.fetch", "sink.gsheets"] then ("google", "oauth")
  else if activityType = "excel.fetch" then ("microsoft", "oauth")
  else if activityType = "sink.webhook" then ("http", "credential")
  else
    match withoutSuffix? ".fetch" activityType with
    | some provider => (provider, "credential")
    | none =>
      match withoutPrefix? "sink." activityType with
      | some provider => (provider, "credential")
      | none => ("", "")

section code

variable (texts : Texts)

/-- The switch of `validateAIField`. -/
def hasType (type : String) (value : Json) : Bool :=
  if type ∈ ["text", "string", "textarea", "select", "oauth-picker", "instance-picker"] then
    value.asString?.isSome
  else if type = "number" then value matches .number _
  else if type ∈ ["checkbox", "boolean"] then value matches .bool _
  else if type = "object" then value.asObject?.isSome
  else if type = "json" then value.asObject?.isSome || (value.asString?.any texts.jsonValid)
  else if type = "array" then value matches .array _
  else true

/-- Source: `ai_grounding.go` `validateAIField`. -/
def validateAIField (nodeID : String) (field : CatalogField) (value : Json) : Except String Unit :=
  let place := "node " ++ nodeID ++ " config." ++ field.key
  if hasType texts field.type value = false then .error (place ++ " must have type " ++ field.type)
  else if field.options ≠ [] ∧
      ∀ option ∈ field.options, sprint texts.toNumberTexts option ≠ sprint texts.toNumberTexts value then
    .error (place ++ " must be one of " ++ sprint texts.toNumberTexts (.array field.options))
  else .ok ()

/-- The text of a setting without white space around it; empty for nil. -/
def setting (config : JsonMap) (key : String) : String :=
  match config.get key with
  | .null => ""
  | value => trimSpace (sprint texts.toNumberTexts value)

/-- The node as errors name it. -/
def place (node : Node) : String := "node " ++ node.id ++ " (" ++ node.activityType ++ ")"

/-- One round of the loop over the fields of the catalog. -/
def checkField (node : Node) (field : CatalogField) : Except String Unit :=
  if field.required ∧ setting texts node.config field.key = "" then
    .error (place node ++ " requires config." ++ field.key)
  else if node.config.get field.key = .null then .ok ()
  else validateAIField texts node.id field (node.config.get field.key)

/-- The loop over the keys of the node. -/
def checkKeys (node : Node) (entry : CatalogEntry) : Except String Unit :=
  match (texts.range node.config).keys.find? fun key => key ∉ entry.keys with
  | some key => .error (place node ++ " contains unsupported config." ++ key)
  | none => .ok ()

variable (instances : List ConnectorInstance)

/-- The instance is of the provider and the kind that the activity requires. -/
def Fits (activityType : String) (candidate : ConnectorInstance) : Prop :=
  ((connectorRequirement activityType).1 = "" ∨ candidate.provider = (connectorRequirement activityType).1) ∧
    ((connectorRequirement activityType).2 = "" ∨ candidate.kind = (connectorRequirement activityType).2)

instance (activityType : String) (candidate : ConnectorInstance) :
    Decidable (Fits activityType candidate) := inferInstanceAs (Decidable (_ ∧ _))

/-- The last two checks on the instance of a node. -/
def checkRequirement (node : Node) (connectionID : String) (found : ConnectorInstance) :
    Except String Unit :=
  let (provider, kind) := connectorRequirement node.activityType
  if provider ≠ "" ∧ found.provider ≠ provider then
    .error (place node ++ " requires provider " ++ provider ++ ", but connector " ++
      texts.quote connectionID ++ " uses " ++ found.provider)
  else if kind ≠ "" ∧ found.kind ≠ kind then
    .error (place node ++ " requires connector kind " ++ kind ++ ", but connector " ++
      texts.quote connectionID ++ " is " ++ found.kind)
  else .ok ()

/-- `byID[connectionID]`: of two instances with one id the last one. -/
def byID (connectionID : String) : Option ConnectorInstance :=
  instances.reverse.find? fun candidate => candidate.id = connectionID

/-- The instances with a name that fit the node. -/
def byName (node : Node) (name : String) : List ConnectorInstance :=
  instances.filter fun candidate => candidate.name = name ∧ Fits node.activityType candidate

/-- The end of the loop: the connection of a node. -/
def groundConnection (node : Node) : Except String Node :=
  let connectionID := setting texts node.config "connectionId"
  if node.activityType = "sink.webhook" ∧ connectionID = "" ∧ setting texts node.config "url" = "" then
    .error ("node " ++ node.id ++ " (sink.webhook) requires config.url or config.connectionId")
  else if connectionID = "" then .ok node
  else
    match byID instances connectionID with
    | some found => do
        checkRequirement texts node connectionID found
        return node
    | none =>
      match byName instances node connectionID with
      | [] => .error ("node " ++ node.id ++ " references unknown tenant connector instance " ++
          texts.quote connectionID)
      | [found] => do
          -- The name is replaced before the checks, which a match by name passes.
          let node := { node with config := node.config.set "connectionId" (.string found.id) }
          checkRequirement texts node connectionID found
          return node
      | _ => .error ("node " ++ node.id ++ " connector name " ++ texts.quote connectionID ++
          " is ambiguous; select a specific saved connection")

variable (catalog : Catalog)

/-- One round of the loop over the nodes; it gives the node that is left. -/
def groundNode (node : Node) : Except String Node :=
  match catalog node.activityType with
  | none => .error ("unknown activityType " ++ node.activityType)
  | some entry => do
      entry.fields.forM (checkField texts node)
      checkKeys texts node entry
      groundConnection texts instances node

/-- Source: `ai_grounding.go` `validateAIGrounding`; it gives the definition that is left. -/
def validateAIGrounding (definition : PipelineDefinition) : Except String PipelineDefinition := do
  let nodes ← definition.nodes.mapM (groundNode texts instances catalog)
  return { definition with nodes }

/-! ## What should hold -/

/-- The node agrees with its catalog entry, and its connection is one of the instances. -/
structure Grounded (node : Node) : Prop where
  entry : ∃ entry, catalog node.activityType = some entry ∧ (∀ key ∈ node.config.keys, key ∈ entry.keys) ∧
    ∀ field ∈ entry.fields, field.required → setting texts node.config field.key ≠ ""
  connection : node.config.get "connectionId" ≠ .null → node.config.get "connectionId" ≠ .string "" →
    ∃ candidate ∈ instances, node.config.get "connectionId" = .string candidate.id ∧
      Fits node.activityType candidate

/-- All nodes do. -/
def Sound (definition : PipelineDefinition) : Prop :=
  ∀ node ∈ definition.nodes, Grounded texts instances catalog node

/-- No text of white space is given for a connection, and what is the id of an instance up to white
space around it is this id. -/
def Exact (node : Node) : Prop :=
  (setting texts node.config "connectionId" = "" →
      node.config.get "connectionId" = .null ∨ node.config.get "connectionId" = .string "") ∧
    ∀ candidate ∈ instances, setting texts node.config "connectionId" = candidate.id →
      node.config.get "connectionId" = .string candidate.id

end code

/-! ## What a node passes -/

section passes

variable {texts : Texts} {instances : List ConnectorInstance} {catalog : Catalog}
  {node node' : Node}

theorem setting_eq {config : JsonMap} {key : String} (h : config.get key ≠ .null) :
    setting texts config key = trimSpace (sprint texts.toNumberTexts (config.get key)) := by
  unfold setting
  split
  · contradiction
  · rfl

theorem get_ne_null {config : JsonMap} {key : String} (h : setting texts config key ≠ "") :
    config.get key ≠ .null := by
  intro hnull
  rw [setting, hnull] at h
  exact h rfl

/-- A setting that is written. -/
theorem setting_set (config : JsonMap) (key other text : String) :
    setting texts (config.set key (.string text)) other =
      if other = key then trimSpace text else setting texts config other := by
  split_ifs with hkey
  · have hget : (config.set key (.string text)).get other = .string text := by
      rw [JsonMap.get_set, if_pos hkey]
    rw [setting_eq (by simp [hget]), hget, sprint_string]
  · rw [setting, JsonMap.get_set, if_neg hkey]
    rfl

theorem checkField_eq_ok {field : CatalogField} (h : checkField texts node field = .ok ()) :
    field.required → setting texts node.config field.key ≠ "" := by
  intro hrequired hempty
  rw [checkField, if_pos ⟨hrequired, hempty⟩] at h
  cases h

theorem checkKeys_eq_ok {entry : CatalogEntry} (h : checkKeys texts node entry = .ok ()) :
    ∀ key ∈ node.config.keys, key ∈ entry.keys := by
  intro key hkey
  unfold checkKeys at h
  split at h
  · cases h
  · rename_i hfind
    have hrange : key ∈ (texts.range node.config).keys :=
      ((texts.range_perm node.config).map Prod.fst).mem_iff.mpr hkey
    simpa using find?_eq_none.mp hfind key hrange

theorem checkRequirement_eq_ok {connectionID : String} {found : ConnectorInstance}
    (h : checkRequirement texts node connectionID found = .ok ()) :
    Fits node.activityType found := by
  unfold checkRequirement at h
  dsimp only at h
  split_ifs at h with hprovider hkind
  rw [not_and_or, not_not, not_not] at hprovider hkind
  exact ⟨hprovider, hkind⟩

theorem mem_of_byID {connectionID : String} {found : ConnectorInstance}
    (h : byID instances connectionID = some found) : found ∈ instances ∧ found.id = connectionID :=
  ⟨mem_reverse.mp (mem_of_find?_eq_some h), by simpa using find?_some h⟩

/-- The connection of a node that passes is none, an instance with this id, or an instance with this
name, whose id is stored. -/
theorem groundConnection_cases (h : groundConnection texts instances node = .ok node') :
    (setting texts node.config "connectionId" = "" ∧ node' = node) ∨
      (∃ found ∈ instances, setting texts node.config "connectionId" = found.id ∧
        Fits node.activityType found ∧ setting texts node.config "connectionId" ≠ "" ∧ node' = node) ∨
      (∃ found ∈ instances, Fits node.activityType found ∧
        setting texts node.config "connectionId" ≠ "" ∧
        (∀ candidate ∈ instances, setting texts node.config "connectionId" ≠ candidate.id) ∧
        node' = { node with config := node.config.set "connectionId" (.string found.id) }) := by
  unfold groundConnection at h
  dsimp only at h
  split_ifs at h with hwebhook hempty
  · cases h
    exact .inl ⟨hempty, rfl⟩
  · split at h
    · rename_i found hfound
      obtain ⟨⟨⟩, hcheck, h⟩ := bind_eq_ok.mp h
      obtain ⟨hmem, hid⟩ := mem_of_byID hfound
      exact .inr (.inl ⟨found, hmem, hid.symm, checkRequirement_eq_ok hcheck, hempty, (Except.ok.inj h).symm⟩)
    · rename_i hnone
      split at h
      · cases h
      · rename_i found hfound
        obtain ⟨⟨⟩, -, h⟩ := bind_eq_ok.mp h
        have hmem : found ∈ byName instances node (setting texts node.config "connectionId") := by
          rw [hfound]
          exact mem_singleton_self _
        obtain ⟨hmem, hprop⟩ := mem_filter.mp hmem
        refine .inr (.inr ⟨found, hmem, (of_decide_eq_true hprop).2, hempty, ?_, (Except.ok.inj h).symm⟩)
        intro candidate hcandidate heq
        have hother := find?_eq_none.mp hnone candidate (mem_reverse.mpr hcandidate)
        exact hother (decide_eq_true heq.symm)
      · cases h

/-- The keys and the required settings of a node stay when an id is stored in it. -/
theorem groundNode_entry (h : groundNode texts instances catalog node = .ok node') :
    (∃ entry, catalog node'.activityType = some entry ∧
      (∀ key ∈ node'.config.keys, key ∈ entry.keys) ∧
      ∀ field ∈ entry.fields, field.required → setting texts node'.config field.key ≠ "") ∧
      groundConnection texts instances node = .ok node' := by
  unfold groundNode at h
  split at h
  · cases h
  rename_i entry hentry
  obtain ⟨⟨⟩, hfields, h⟩ := bind_eq_ok.mp h
  obtain ⟨⟨⟩, hkeys, h⟩ := bind_eq_ok.mp h
  have hkeys := checkKeys_eq_ok hkeys
  have hrequired : ∀ field ∈ entry.fields, field.required →
      setting texts node.config field.key ≠ "" :=
    fun field hfield => checkField_eq_ok (forM_eq_ok_iff.mp hfields field hfield)
  refine ⟨?_, h⟩
  rcases groundConnection_cases h with ⟨-, rfl⟩ | ⟨found, -, -, -, -, rfl⟩ | ⟨found, -, -, hfilled, -, rfl⟩
  · exact ⟨entry, hentry, hkeys, hrequired⟩
  · exact ⟨entry, hentry, hkeys, hrequired⟩
  · have hmem : "connectionId" ∈ node.config.keys := by
      by_contra hmem
      refine get_ne_null hfilled ?_
      rw [JsonMap.get, JsonMap.lookup_eq_none.mpr hmem]
      rfl
    refine ⟨entry, hentry, ?_, ?_⟩
    · rw [JsonMap.keys_set, if_pos hmem]
      exact hkeys
    · intro field hfield hrequires
      rw [setting_set]
      split_ifs
      · rw [found.id_trimmed]
        exact found.id_ne
      · exact hrequired field hfield hrequires

/-- **A node that passes** is grounded exactly if the id in it is written exactly. -/
theorem grounded_iff (h : groundNode texts instances catalog node = .ok node') :
    Grounded texts instances catalog node' ↔ Exact texts instances node := by
  obtain ⟨hentry, hconnection⟩ := groundNode_entry h
  rcases groundConnection_cases hconnection with
    ⟨hempty, rfl⟩ | ⟨found, hfound, hid, hfits, hfilled, rfl⟩ | ⟨found, hfound, hfits, hfilled, hother, rfl⟩
  · constructor
    · intro hgrounded
      refine ⟨?_, ?_⟩
      · intro _
        by_contra hvalue
        rw [not_or] at hvalue
        obtain ⟨candidate, -, heq, -⟩ := hgrounded.connection hvalue.1 hvalue.2
        rw [setting_eq hvalue.1, heq, sprint_string, candidate.id_trimmed] at hempty
        exact candidate.id_ne hempty
      · intro candidate _ heq
        rw [hempty] at heq
        exact absurd heq.symm candidate.id_ne
    · intro hexact
      refine ⟨hentry, ?_⟩
      intro hnull htext
      rcases hexact.1 hempty with heq | heq
      · exact absurd heq hnull
      · exact absurd heq htext
  · constructor
    · intro hgrounded
      have hnull := get_ne_null hfilled
      refine ⟨fun hempty => absurd hempty hfilled, ?_⟩
      intro candidate _ hid'
      have htext : node'.config.get "connectionId" ≠ .string "" := by
        intro heq
        rw [setting_eq hnull, heq, sprint_string] at hfilled
        exact hfilled rfl
      obtain ⟨stored, -, heq, -⟩ := hgrounded.connection hnull htext
      rw [setting_eq hnull, heq, sprint_string, stored.id_trimmed] at hid'
      rw [heq, hid']
    · intro hexact
      exact ⟨hentry, fun _ _ => ⟨found, hfound, hexact.2 found hfound hid, hfits⟩⟩
  · constructor
    · intro _
      exact ⟨fun hempty => absurd hempty hfilled, fun candidate hcandidate heq =>
        absurd heq (hother candidate hcandidate)⟩
    · intro _
      refine ⟨hentry, fun _ _ => ⟨found, hfound, ?_, hfits⟩⟩
      rw [JsonMap.get_set, if_pos rfl]

/-- **What passes is sound exactly if the ids in it are written exactly.** -/
theorem sound_iff {definition definition' : PipelineDefinition}
    (h : validateAIGrounding texts instances catalog definition = .ok definition') :
    Sound texts instances catalog definition' ↔
      ∀ node ∈ definition.nodes, Exact texts instances node := by
  obtain ⟨nodes, hnodes, h⟩ := bind_eq_ok.mp h
  obtain rfl := Except.ok.inj h
  have hgrounded := Lists.forall_mem_iff_of_forall₂ (forall₂_of_mapM hnodes)
    fun _ _ hnode => (grounded_iff hnode).symm
  exact hgrounded.symm

end passes

/-! ## An id between blanks -/

/-- Texts whose quoting and order nothing below depends on. -/
def plainTexts : Texts where
  toNumberTexts := quotientTexts
  quote := id
  jsonValid := fun _ => false
  range := id
  range_perm := fun _ => List.Perm.refl _

/-- The saved connection of a tenant. -/
def bucketInstance : ConnectorInstance where
  id := "7d3f4a54-7b0e-4b57-9d6a-0f4be0a1c001"
  kind := "credential"
  provider := "s3"
  name := "exports"
  id_trimmed := by decide
  id_ne := by decide

/-- The entry of `sink.s3` in the catalog. -/
def bucketCatalog : Catalog := fun activityType =>
  if activityType = "sink.s3" then
    some { nodeType := .sink
           fields := [⟨"connectionId", "text", true, []⟩, ⟨"bucket", "text", true, []⟩, ⟨"key", "text", true, []⟩] }
  else none

/-- A definition of one node that writes to the bucket. -/
def bucketDefinition (connectionId : String) : PipelineDefinition where
  nodes := [{ id := "n1", type := .sink, activityType := "sink.s3"
              config := [("connectionId", .string connectionId), ("bucket", .string "b"), ("key", .string "k")] }]

/-- The id as it is, and the name, are written exactly; the name is replaced by the id. -/
theorem sound_iff_name :
    validateAIGrounding plainTexts [bucketInstance] bucketCatalog (bucketDefinition "exports") =
        .ok (bucketDefinition bucketInstance.id) ∧
      (Sound plainTexts [bucketInstance] bucketCatalog (bucketDefinition bucketInstance.id) ↔
        ∀ node ∈ (bucketDefinition "exports").nodes, Exact plainTexts [bucketInstance] node) := by
  have h :
      validateAIGrounding plainTexts [bucketInstance] bucketCatalog (bucketDefinition "exports") =
      .ok (bucketDefinition bucketInstance.id) := by rfl
  exact ⟨h, sound_iff h⟩

/-- An id between blanks passes and is stored with the blanks. -/
theorem spaced_id_passes :
    ∃ definition', validateAIGrounding plainTexts [bucketInstance] bucketCatalog
        (bucketDefinition " 7d3f4a54-7b0e-4b57-9d6a-0f4be0a1c001 ") = .ok definition' ∧
      ¬ Sound plainTexts [bucketInstance] bucketCatalog definition' := by
  refine ⟨bucketDefinition " 7d3f4a54-7b0e-4b57-9d6a-0f4be0a1c001 ", by rfl, ?_⟩
  intro hsound
  have hstored := hsound _ (mem_singleton_self _)
  obtain ⟨candidate, hcandidate, heq, -⟩ := hstored.connection (by decide) (by decide)
  rw [mem_singleton.mp hcandidate] at heq
  exact absurd heq (by decide)

end Dataflow.Api.AiGrounding
