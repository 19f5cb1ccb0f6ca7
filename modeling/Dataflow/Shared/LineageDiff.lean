import Dataflow.Library.Lists
import Dataflow.Shared.Lineage

/-!
# What a new version changes

Two comparisons of a published definition with a new one: the issues that stop a version from being
published, and the changes that the editor shows, some of which are breaking.

* `diffPipelineLineage`, `comparePublishedContracts`: the code.
* `lookup_outputs`: both look at the same bindings: the last one of each output asset.
* `fieldIssue`, `breaking_of_fieldIssue`: what the first comparison finds wrong with a field is a
  breaking change of the second one.
* **`diff_covers_issues`**: every issue comes with a breaking change of the asset and the field.

Source: `lineage.ts` `diffPipelineLineage`, `comparePublishedContracts`
-/

namespace Dataflow.Shared

open Library List Option

/-! ## The data -/

/-- Source: `lineage.ts` `ContractCompatibilityIssue`. -/
inductive IssueKind where
  | assetRemoved
  | contractRemoved
  | fieldRemoved
  | typeChanged
  | nullableWeakened
  deriving DecidableEq

/-- Source: `lineage.ts` `ContractCompatibilityIssue`. -/
structure ContractCompatibilityIssue where
  assetUrn : String
  kind : IssueKind
  field : Option String := none
  message : String

/-- Source: `lineage.ts` `PipelineLineageChange`. -/
inductive ChangeKind where
  | assetAdded
  | assetRemoved
  | layerChanged
  | fieldAdded
  | fieldRemoved
  | fieldTypeChanged
  | fieldNullabilityChanged
  | triggerChanged
  | ownerChanged
  | domainChanged
  deriving DecidableEq

/-- Source: `lineage.ts` `PipelineLineageChange`. -/
inductive Severity where
  | info
  | warning
  | breaking
  deriving DecidableEq

/-- The place of a severity in the order of the changes. -/
def Severity.rank : Severity → ℕ
  | .breaking => 0
  | .warning => 1
  | .info => 2

/-- Source: `lineage.ts` `PipelineLineageChange`. -/
structure PipelineLineageChange where
  kind : ChangeKind
  severity : Severity
  message : String
  assetUrn : Option String := none
  direction : Option Direction := none
  field : Option String := none
  before : Option String := none
  after : Option String := none

/-! ## The code -/

section code

variable (js : JsValues)

/-- The bindings under their direction and their asset. -/
def bindings (definition : PipelineDefinition) : List (String × AssetBinding) :=
  OrderedMap.ofEntries ((deriveAssetBindings js definition).map fun binding =>
    (binding.direction.word ++ ":" ++ binding.asset.urn, binding))

/-- `new Map(fields.map(field => [field.name, field]))`. -/
def fieldsByName (fields : List SchemaField) : List (String × SchemaField) :=
  OrderedMap.ofEntries (fields.map fun field => (field.name, field))

/-- The severity of a change that breaks the readers of an output. -/
def removalSeverity (binding : AssetBinding) : Severity :=
  if binding.direction = .output then .breaking else .warning

/-- The change of a binding that is gone. -/
def removedChange (binding : AssetBinding) : PipelineLineageChange where
  kind := .assetRemoved
  severity := removalSeverity binding
  message := binding.direction.word ++ " asset removed: " ++ binding.asset.urn
  assetUrn := some binding.asset.urn
  direction := some binding.direction

/-- The change of a binding that is new. -/
def addedChange (binding : AssetBinding) : PipelineLineageChange where
  kind := .assetAdded
  severity := .info
  message := binding.direction.word ++ " asset added: " ++ binding.asset.urn
  assetUrn := some binding.asset.urn
  direction := some binding.direction

/-- The change of the layer. -/
def layerChange (prior binding : AssetBinding) : List PipelineLineageChange :=
  if prior.asset.layer ≠ binding.asset.layer then
    let before := prior.asset.layer.getD "external"
    let after := binding.asset.layer.getD "external"
    [{ kind := .layerChanged, severity := .warning
       message := binding.asset.urn ++ ": layer changed " ++ before ++ " → " ++ after
       assetUrn := some binding.asset.urn, direction := some binding.direction
       before := some before, after := some after }]
  else []

/-- The words for a nullable field and another one. -/
def nullability (field : SchemaField) : String := if field.nullable then "nullable" else "required"

/-- The change of a field that was there. -/
def fieldChange (binding : AssetBinding) (newFields : List (String × SchemaField)) (name : String)
    (field : SchemaField) : Option PipelineLineageChange :=
  let change : PipelineLineageChange :=
    { kind := .fieldRemoved, severity := removalSeverity binding
      message := binding.asset.urn ++ ": field removed: " ++ name
      assetUrn := some binding.asset.urn, direction := some binding.direction, field := some name
      before := some field.type }
  match newFields.lookup name with
  | none => some change
  | some replacement =>
    if field.type ≠ replacement.type then
      some
        { change with
          kind := .fieldTypeChanged
          message := binding.asset.urn ++ ": " ++ name ++ " changed " ++ field.type ++ " → " ++
            replacement.type
          after := some replacement.type }
    else if field.nullable ≠ replacement.nullable then
      some
        { change with
          kind := .fieldNullabilityChanged
          severity := if binding.direction = .output ∧ field.nullable = false ∧
            replacement.nullable = true then .breaking else .warning
          message := binding.asset.urn ++ ": " ++ name ++ " changed " ++ nullability field ++ " → " ++
            nullability replacement
          before := some (nullability field)
          after := some (nullability replacement) }
    else none

/-- The change of a field that is new. -/
def fieldAddedChange (binding : AssetBinding) (name : String) (field : SchemaField) :
    PipelineLineageChange where
  kind := .fieldAdded
  severity := .info
  message := binding.asset.urn ++ ": field added: " ++ name
  assetUrn := some binding.asset.urn
  direction := some binding.direction
  field := some name
  after := some field.type

/-- The changes of a binding that was there. -/
def bindingChanges (prior binding : AssetBinding) : List PipelineLineageChange :=
  let oldFields := fieldsByName prior.asset.fields
  let newFields := fieldsByName binding.asset.fields
  layerChange prior binding ++
    oldFields.filterMap (fun (name, field) => fieldChange binding newFields name field) ++
    newFields.filterMap fun (name, field) =>
      if (oldFields.lookup name).isNone then some (fieldAddedChange binding name field) else none

/-- The function `scalar`. -/
def scalarChange (kind : ChangeKind) (label : String) (oldValue newValue : Option String) :
    List PipelineLineageChange :=
  if oldValue.getD "" ≠ newValue.getD "" then
    let text := fun value : Option String => (value.filter (· ≠ "")).getD "Unassigned"
    [{ kind, severity := .info, before := oldValue, after := newValue
       message := label ++ " changed " ++ text oldValue ++ " → " ++ text newValue }]
  else []

/-- The change of the trigger; `stringify` is `JSON.stringify`. -/
def triggerChange (stringify : TriggerConfig → String) (previous : Option PipelineDefinition)
    (candidate : PipelineDefinition) : List PipelineLineageChange :=
  match previous with
  | none => []
  | some previous =>
    let before := stringify previous.trigger
    let after := stringify candidate.trigger
    if before ≠ after then
      [{ kind := .triggerChanged, severity := .warning, before := some before, after := some after
         message := "Pipeline trigger changed" }]
    else []

/-- Source: `lineage.ts` `diffPipelineLineage`. -/
def diffPipelineLineage (stringify : TriggerConfig → String) (previous : Option PipelineDefinition)
    (candidate : PipelineDefinition) : List PipelineLineageChange :=
  let before := (previous.map (bindings js)).getD []
  let after := bindings js candidate
  let metadata := fun field : PipelineMetadata → Option String =>
    ((previous.bind PipelineDefinition.metadata).bind field, candidate.metadata.bind field)
  let changes :=
    before.filterMap (fun (key, binding) =>
      if (after.lookup key).isNone then some (removedChange binding) else none) ++
    after.flatMap (fun (key, binding) =>
      match before.lookup key with
      | none => [addedChange binding]
      | some prior => bindingChanges prior binding) ++
    scalarChange .ownerChanged "Owner" (metadata PipelineMetadata.owner).1
      (metadata PipelineMetadata.owner).2 ++
    scalarChange .domainChanged "Domain" (metadata PipelineMetadata.domain).1
      (metadata PipelineMetadata.domain).2 ++
    triggerChange stringify previous candidate
  changes.mergeSort fun a b => a.severity.rank ≤ b.severity.rank

/-- The schemas of the output assets. -/
def outputs (definition : PipelineDefinition) : List (String × Option (List SchemaField)) :=
  OrderedMap.ofEntries (((deriveAssetBindings js definition).filter
    fun binding => binding.direction = .output).map
      fun binding => (binding.asset.urn, binding.asset.schema))

/-- The issue with a field. -/
def fieldIssue (assetUrn : String) (nextFields : List (String × SchemaField))
    (field : SchemaField) :
    Option ContractCompatibilityIssue :=
  match nextFields.lookup field.name with
  | none =>
    some ⟨assetUrn, .fieldRemoved, some field.name, assetUrn ++ ": field removed: " ++ field.name⟩
  | some replacement =>
    if js.lower (jsTrim replacement.type) ≠ js.lower (jsTrim field.type) then
      some ⟨assetUrn, .typeChanged, some field.name, assetUrn ++ ": " ++ field.name ++ " changed " ++
        field.type ++ " → " ++ replacement.type⟩
    else if field.nullable = false ∧ replacement.nullable = true then
      some ⟨assetUrn, .nullableWeakened, some field.name,
        assetUrn ++ ": " ++ field.name ++ " became nullable"⟩
    else none

/-- The issues with an asset. -/
def assetIssues (after : List (String × Option (List SchemaField))) (assetUrn : String)
    (schema : Option (List SchemaField)) : List ContractCompatibilityIssue :=
  let fields := schema.getD []
  if fields = [] then []
  else
    match after.lookup assetUrn with
    | none => [⟨assetUrn, .assetRemoved, none, "Published asset removed: " ++ assetUrn⟩]
    | some next =>
      if next.getD [] = [] then
        [⟨assetUrn, .contractRemoved, none, "Data contract removed: " ++ assetUrn⟩]
      else fields.filterMap (fieldIssue js assetUrn (fieldsByName (next.getD [])))

/-- Source: `lineage.ts` `comparePublishedContracts`. -/
def comparePublishedContracts (previous candidate : PipelineDefinition) :
    List ContractCompatibilityIssue :=
  let after := outputs js candidate
  (outputs js previous).flatMap fun (assetUrn, schema) => assetIssues js after assetUrn schema

end code

/-! ## The same bindings -/

section covers

variable {js : JsValues} {definition previous candidate : PipelineDefinition} {urn : String}
  {binding : AssetBinding}

theorem key_eq_output_iff : "output:" ++ urn = binding.direction.word ++ ":" ++ binding.asset.urn ↔
      binding.direction = .output ∧ binding.asset.urn = urn := by
  cases hdirection : binding.direction with
  | input =>
    refine iff_of_false (fun h => ?_) (fun h => by cases h.1)
    have hlist := congrArg String.toList h
    rw [String.toList_append, String.toList_append, String.toList_append] at hlist
    cases hlist
  | output =>
    have hkey : Direction.output.word ++ ":" = "output:" := rfl
    rw [hkey, String.append_right_inj]
    simp [eq_comm]

/-- **Both comparisons look at the last binding** of an output asset. -/
theorem lookup_outputs : (outputs js definition).lookup urn =
    ((bindings js definition).lookup ("output:" ++ urn)).map fun binding => binding.asset.schema := by
  rw [outputs, bindings, OrderedMap.lookup_ofEntries, OrderedMap.lookup_ofEntries,
    ← map_reverse, ← map_reverse, ← filter_reverse]
  induction (deriveAssetBindings js definition).reverse with
  | nil => rfl
  | cons binding rest ih =>
    rw [map_cons, lookup_cons, filter_cons]
    by_cases hkey : "output:" ++ urn = binding.direction.word ++ ":" ++ binding.asset.urn
    · obtain ⟨hdirection, rfl⟩ := key_eq_output_iff.mp hkey
      rw [if_pos (decide_eq_true hdirection), map_cons, lookup_cons,
        beq_self_eq_true, hkey, beq_self_eq_true]
      rfl
    · rw [beq_false_of_ne hkey]
      by_cases hdirection : binding.direction = .output
      · have hurn : urn ≠ binding.asset.urn := fun h =>
          hkey (key_eq_output_iff.mpr ⟨hdirection, h.symm⟩)
        rw [if_pos (decide_eq_true hdirection), map_cons, lookup_cons, beq_false_of_ne hurn]
        exact ih
      · rw [if_neg (by simpa using hdirection)]
        exact ih

/-- A binding that is looked up as an output is an output of the definition with this asset. -/
theorem of_lookup_bindings (h : (bindings js definition).lookup ("output:" ++ urn) = some binding) :
    binding ∈ deriveAssetBindings js definition ∧ binding.direction = .output ∧
      binding.asset.urn = urn := by
  rw [bindings, OrderedMap.lookup_ofEntries] at h
  have hmem := Lists.mem_of_lookup h
  rw [mem_reverse, List.mem_map] at hmem
  obtain ⟨binding', hbinding, heq⟩ := hmem
  obtain ⟨hkey, rfl⟩ := Prod.mk.inj heq
  exact ⟨hbinding, key_eq_output_iff.mp hkey.symm⟩

/-! ## Breaking changes -/

/-- **The change breaks** the readers of an output asset, at a field if one is given. -/
structure Breaks (urn : String) (field : Option String) (change : PipelineLineageChange) :
    Prop where
  severity : change.severity = .breaking
  assetUrn : change.assetUrn = some urn
  direction : change.direction = some .output
  field : ∀ name, field = some name → change.field = some name

/-- A change of a binding that is still there is among the changes. -/
theorem mem_diff_of_mem_bindingChanges (stringify : TriggerConfig → String)
    {prior binding : AssetBinding} {change : PipelineLineageChange}
    (hprior : (bindings js previous).lookup ("output:" ++ urn) = some prior)
    (hbinding : (bindings js candidate).lookup ("output:" ++ urn) = some binding)
    (h : change ∈ bindingChanges prior binding) :
    change ∈ diffPipelineLineage js stringify (some previous) candidate := by
  have hmem : ("output:" ++ urn, binding) ∈ bindings js candidate :=
    (OrderedMap.mem_iff_lookup (OrderedMap.nodup_ofEntries _)).mpr hbinding
  unfold diffPipelineLineage
  rw [mem_mergeSort]
  refine mem_append_left _ (mem_append_left _ (mem_append_left _
    (mem_append_right _ (mem_flatMap.mpr ⟨_, hmem, ?_⟩))))
  dsimp only
  rw [map_some, getD_some, hprior]
  exact h

/-- The change of a field that was there is among those of the binding. -/
theorem mem_bindingChanges {prior binding : AssetBinding} {field : SchemaField}
    {change : PipelineLineageChange} (hdistinct : prior.asset.Distinct)
    (hfield : field ∈ prior.asset.fields)
    (h : fieldChange binding (fieldsByName binding.asset.fields) field.name field = some change) :
    change ∈ bindingChanges prior binding := by
  have hfields : fieldsByName prior.asset.fields =
      prior.asset.fields.map fun field => (field.name, field) := by
    refine OrderedMap.ofEntries_of_nodup ?_
    rw [List.map_map]
    exact hdistinct
  refine mem_append_left _ (mem_append_right _ (mem_filterMap.mpr ⟨(field.name, field), ?_, h⟩))
  rw [hfields]
  exact List.mem_map_of_mem hfield

/-- **What is wrong with a field** is a breaking change of it. -/
theorem breaking_of_fieldIssue {newFields : List (String × SchemaField)}
    {field : SchemaField} {issue : ContractCompatibilityIssue}
    (hdirection : binding.direction = .output) (hurn : binding.asset.urn = urn)
    (h : fieldIssue js urn newFields field = some issue) :
    ∃ change, fieldChange binding newFields field.name field = some change ∧
      Breaks issue.assetUrn issue.field change := by
  have hseverity : removalSeverity binding = .breaking := if_pos hdirection
  unfold fieldIssue at h
  unfold fieldChange
  cases hlookup : newFields.lookup field.name with
  | none =>
    rw [hlookup] at h
    cases h
    exact ⟨_, rfl, hseverity, congrArg some hurn, congrArg some hdirection, fun _ hname => hname⟩
  | some replacement =>
    rw [hlookup] at h
    dsimp only at h ⊢
    by_cases htype : field.type = replacement.type
    · rw [htype, if_neg (not_not.mpr rfl)] at h
      split_ifs at h with hnullable
      cases h
      have hne : field.nullable ≠ replacement.nullable := by
        rw [hnullable.1, hnullable.2]
        decide
      rw [if_neg (not_not.mpr htype), if_pos hne]
      exact ⟨_, rfl, if_pos ⟨hdirection, hnullable⟩, congrArg some hurn, congrArg some hdirection,
        fun _ hname => hname⟩
    · rw [if_pos htype]
      -- whatever the issue is, the types differ as texts
      have hissue : issue.assetUrn = urn ∧ issue.field = some field.name := by
        split_ifs at h <;> cases h <;> exact ⟨rfl, rfl⟩
      refine ⟨_, rfl, hseverity, ?_, congrArg some hdirection, ?_⟩
      · rw [hissue.1]
        exact congrArg some hurn
      · rw [hissue.2]
        exact fun _ hname => hname

/-- A contract that is gone loses its fields. -/
theorem breaking_of_removed (hdirection : binding.direction = .output)
    (hurn : binding.asset.urn = urn) (field : SchemaField) :
    ∃ change, fieldChange binding [] field.name field = some change ∧ Breaks urn none change :=
  ⟨_, rfl, if_pos hdirection, congrArg some hurn, congrArg some hdirection, fun _ h => by cases h⟩

/-- **The changes cover the issues.** Every issue with an output asset comes with a breaking change
of the same asset and, if the issue names a field, of the same field. -/
theorem diff_covers_issues (js : JsValues) (stringify : TriggerConfig → String)
    {previous : PipelineDefinition} (hprevious : previous.DistinctFields)
    (candidate : PipelineDefinition) :
    ∀ issue ∈ comparePublishedContracts js previous candidate,
      ∃ change ∈ diffPipelineLineage js stringify (some previous) candidate,
        Breaks issue.assetUrn issue.field change := by
  intro issue hissue
  obtain ⟨⟨urn, schema⟩, hmem, hissue⟩ := mem_flatMap.mp hissue
  have hlookup := (OrderedMap.mem_iff_lookup (OrderedMap.nodup_ofEntries _)).mp hmem
  change (outputs js previous).lookup urn = some schema at hlookup
  rw [lookup_outputs, map_eq_some_iff] at hlookup
  obtain ⟨prior, hprior, rfl⟩ := hlookup
  obtain ⟨hderived, hdirection, hurn⟩ := of_lookup_bindings hprior
  have hdistinct := distinct_deriveAssetBindings hprevious hderived
  dsimp only at hissue
  unfold assetIssues at hissue
  dsimp only at hissue
  split_ifs at hissue with hfields
  · cases hissue
  rw [lookup_outputs] at hissue
  cases hafter : (bindings js candidate).lookup ("output:" ++ urn) with
  | none =>
    rw [hafter] at hissue
    obtain rfl := mem_singleton.mp hissue
    refine ⟨removedChange prior, ?_, if_pos hdirection, congrArg some hurn, congrArg some hdirection,
      fun _ h => by cases h⟩
    have hentry : ("output:" ++ urn, prior) ∈ bindings js previous :=
      (OrderedMap.mem_iff_lookup (OrderedMap.nodup_ofEntries _)).mpr hprior
    unfold diffPipelineLineage
    dsimp only
    rw [mem_mergeSort]
    refine mem_append_left _ (mem_append_left _ (mem_append_left _
      (mem_append_left _ (mem_filterMap.mpr ⟨_, hentry, ?_⟩))))
    dsimp only
    rw [hafter]
    rfl
  | some binding =>
    rw [hafter] at hissue
    obtain ⟨-, hdirection', hurn'⟩ := of_lookup_bindings hafter
    -- a change of a field of the prior binding is among the changes
    have hcovers : ∀ field ∈ prior.asset.fields, ∀ change,
        fieldChange binding (fieldsByName binding.asset.fields) field.name field = some change →
          change ∈ diffPipelineLineage js stringify (some previous) candidate :=
      fun field hfield change hchange => mem_diff_of_mem_bindingChanges stringify hprior hafter
        (mem_bindingChanges hdistinct hfield hchange)
    rw [map_some] at hissue
    dsimp only at hissue
    split_ifs at hissue with hnext
    · obtain rfl := mem_singleton.mp hissue
      obtain ⟨field, rest, hcons⟩ := exists_cons_of_ne_nil hfields
      obtain ⟨change, hchange, hbreaks⟩ := breaking_of_removed hdirection' hurn' field
      refine ⟨change, hcovers field ?_ change ?_, hbreaks⟩
      · rw [DataAssetRef.fields, hcons]
        exact mem_cons_self
      · rw [DataAssetRef.fields, hnext]
        exact hchange
    · obtain ⟨field, hfield, hfieldIssue⟩ := mem_filterMap.mp hissue
      obtain ⟨change, hchange, hbreaks⟩ := breaking_of_fieldIssue hdirection' hurn' hfieldIssue
      exact ⟨change, hcovers field hfield change hchange, hbreaks⟩

/-- A definition that publishes an asset with a field of the given type. -/
def publishing (type : String) : PipelineDefinition where
  nodes := [{ id := "sink", type := .sink, activityType := "sink.postgres"
              outputAssets := [{ urn := "orders", schema := some [⟨"id", type, false⟩] }] }]

theorem diff_covers_issues_type :
    let js : JsValues := ⟨fun _ => none, fun _ => none, fun _ => "0", id⟩
    (publishing "number").DistinctFields ∧
      comparePublishedContracts js (publishing "number") (publishing "string") ≠ [] ∧
      ∀ issue ∈ comparePublishedContracts js (publishing "number") (publishing "string"),
        ∃ change ∈ diffPipelineLineage js (fun _ => "manual") (some (publishing "number"))
          (publishing "string"), Breaks issue.assetUrn issue.field change := by
  have hdistinct : (publishing "number").DistinctFields := by
    intro node hnode asset hasset
    obtain rfl := mem_singleton.mp hnode
    obtain rfl := mem_singleton.mp hasset
    exact nodup_singleton "id"
  refine ⟨hdistinct, ?_, diff_covers_issues _ _ hdistinct _⟩
  intro h
  have hlength := congrArg List.length h
  revert hlength
  decide +kernel

end covers

end Dataflow.Shared
