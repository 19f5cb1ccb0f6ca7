import Dataflow.Api.PipelineVersions
import Dataflow.Model.Sprint

/-!
# The features a node needs

The API saves a definition if all features that it uses are enabled for the tenant. An activity asks
again before it runs, and for one feature: the last one that it finds.

* `requiredFeature`, `requireEntitlement`: the code.
* `UsesRealtime`, `UsesState`, `UsesAdvanced`: what makes a node use a feature.
* `mem_pipelineFeatures_iff`: what the API finds for a node.
* **`entitlements_agree_iff`**: both agree iff no feature is enabled that hides another one which
  is not.
* `cdc_into_snowflake`: a node that runs and could not be saved.

Source: `activities.go`
-/

namespace Dataflow.Activities

open Api Model List

/-! ## The code -/

/-- The activities of the advanced connectors. -/
def advancedConnectors : List String :=
  ["sftp.fetch", "sink.sftp", "snowflake.fetch", "sink.snowflake", "iceberg.fetch", "sink.iceberg"]

/-- `tenant_feature_entitlements`: the column `enabled` for each tenant and feature. -/
abbrev Entitlements := (tenantId : String) → (feature : String) → Option Bool

section code

variable (numbers : NumberTexts) (scanFloat : String → ℚ)

/-- `Formatting` with the texts of `fmt.Sprint`. -/
def goFormatting : Formatting := { sprint := sprint numbers, scanFloat }

/-- The feature that `requireEntitlement` asks for, empty without one. -/
def requiredFeature (activityType : String) (config : JsonMap) : String :=
  let feature := ""
  let feature :=
    if activityType = "kafka.fetch" ∨ activityType = "sink.kafka" ∨
        stringValue (goFormatting numbers scanFloat) (config.get "syncMode") = "cdc" ∨
        stringValue (goFormatting numbers scanFloat) (config.get "writeMode") = "apply-cdc" then
      "realtime"
    else feature
  let feature :=
    if activityType = "transform.dedupe" ∧
        stringValue (goFormatting numbers scanFloat) (config.get "scope") = "pipeline" then
      "statefulProcessing"
    else feature
  advancedConnectors.foldl
    (fun feature advanced => if activityType = advanced then "advancedConnectors" else feature) feature

/-- Source: `activities.go` `requireEntitlement`. -/
def requireEntitlement (entitlements : Entitlements) (tenantId activityType : String)
    (config : JsonMap) : Except String Unit :=
  let feature := requiredFeature numbers scanFloat activityType config
  if feature = "" then .ok ()
  else
    match entitlements tenantId feature with
    | some true => .ok ()
    | _ => .error (feature ++ " is not enabled for this workspace")

end code

/-! ## The features of a node -/

/-- A node of a stream. -/
def UsesRealtime (node : Node) : Prop :=
  node.activityType = "kafka.fetch" ∨ node.activityType = "sink.kafka" ∨
    node.config.get "syncMode" = .string "cdc" ∨ node.config.get "writeMode" = .string "apply-cdc"

/-- A node that keeps what it has seen over the runs of its pipeline. -/
def UsesState (node : Node) : Prop :=
  node.activityType = "transform.dedupe" ∧ node.config.get "scope" = .string "pipeline"

/-- A node of an advanced connector. -/
def UsesAdvanced (node : Node) : Prop := node.activityType ∈ advancedConnectors

instance (node : Node) : Decidable (UsesRealtime node) := inferInstanceAs (Decidable (_ ∨ _))

instance (node : Node) : Decidable (UsesState node) := inferInstanceAs (Decidable (_ ∧ _))

instance (node : Node) : Decidable (UsesAdvanced node) := inferInstanceAs (Decidable (_ ∈ _))

section features

variable {numbers : NumberTexts} {scanFloat : String → ℚ} {node : Node} {feature : String}

/-- A node uses a feature. -/
inductive Uses (node : Node) : String → Prop
  | realtime (h : UsesRealtime node) : Uses node "realtime"
  | statefulProcessing (h : UsesState node) : Uses node "statefulProcessing"
  | advancedConnectors (h : UsesAdvanced node) : Uses node "advancedConnectors"

/-- **What the API finds** for a node alone. -/
theorem mem_pipelineFeatures_iff :
    feature ∈ pipelineFeatures { nodes := [node] } ↔ Uses node feature := by
  have hfeatures : pipelineFeatures { nodes := [node] } =
      (if UsesRealtime node then ["realtime"] else []) ++
        (if UsesState node then ["statefulProcessing"] else []) ++
          (if UsesAdvanced node then ["advancedConnectors"] else []) := by
    show [] ++ [] ++ [] ++ List.flatMap _ [node] = _
    rw [flatMap_singleton]
    rfl
  rw [hfeatures, mem_append, mem_append]
  constructor
  · rintro ((h | h) | h)
    · obtain ⟨huses, hmem⟩ := mem_ite_nil_right.mp h
      rw [mem_singleton.mp hmem]
      exact .realtime huses
    · obtain ⟨huses, hmem⟩ := mem_ite_nil_right.mp h
      rw [mem_singleton.mp hmem]
      exact .statefulProcessing huses
    · obtain ⟨huses, hmem⟩ := mem_ite_nil_right.mp h
      rw [mem_singleton.mp hmem]
      exact .advancedConnectors huses
  · intro h
    cases h with
    | realtime h | statefulProcessing h | advancedConnectors h => simp [h]

/-- A text of the configuration is compared as a value. -/
theorem stringValue_eq_iff {value : Json} {word : String} {c : Char} {rest : List Char}
    (hword : word.toList = c :: rest) (hstart : startsValue c = false) :
    stringValue (goFormatting numbers scanFloat) value = word ↔ value = .string word := by
  have hsprint : sprint numbers value = word ↔ value = .string word :=
    eq_string_of_sprint (by simp [hword, hstart])
  have hne : "" ≠ word := by
    rintro rfl
    cases hword
  cases value with
  | null => simpa [stringValue] using hne
  | string text => simp [stringValue]
  | bool b | number n | array items | object fields => exact hsprint

/-- No advanced connector keeps what it has seen. -/
theorem not_usesState_of_usesAdvanced (h : UsesAdvanced node) : ¬ UsesState node := by
  rintro ⟨htype, -⟩
  rw [UsesAdvanced, htype] at h
  revert h
  decide

/-- **The last feature counts.** -/
theorem requiredFeature_eq : requiredFeature numbers scanFloat node.activityType node.config =
    if UsesAdvanced node then "advancedConnectors"
    else if UsesState node then "statefulProcessing"
    else if UsesRealtime node then "realtime" else "" := by
  have hcdc : stringValue (goFormatting numbers scanFloat) (node.config.get "syncMode") = "cdc" ↔
      node.config.get "syncMode" = .string "cdc" := stringValue_eq_iff rfl (by decide)
  have happly : stringValue (goFormatting numbers scanFloat) (node.config.get "writeMode") =
      "apply-cdc" ↔ node.config.get "writeMode" = .string "apply-cdc" :=
    stringValue_eq_iff rfl (by decide)
  have hscope : stringValue (goFormatting numbers scanFloat) (node.config.get "scope") =
      "pipeline" ↔
      node.config.get "scope" = .string "pipeline" := stringValue_eq_iff rfl (by decide)
  have hfold : ∀ (l : List String) (feature : String), l.foldl (fun feature advanced =>
      if node.activityType = advanced then "advancedConnectors" else feature) feature =
        if node.activityType ∈ l then "advancedConnectors" else feature := by
    intro l
    induction l with
    | nil => simp
    | cons advanced l ih =>
      intro feature
      rw [foldl_cons, ih]
      by_cases h : node.activityType = advanced <;> simp [h]
  simp only [requiredFeature, hcdc, happly, hscope, hfold]
  rfl

end features

/-! ## Saved and run -/

section agree

variable (numbers : NumberTexts) (scanFloat : String → ℚ) (entitlements : Entitlements)
  (tenantId : String) (node : Node)

/-- The feature is enabled. -/
def Enabled (feature : String) : Prop := entitlements tenantId feature = some true

/-- **The node runs iff its features are enabled**, unless it streams and its other feature is
enabled while that of streams is not. -/
theorem entitlements_agree_iff :
    (requireEntitlement numbers scanFloat entitlements tenantId node.activityType node.config =
      .ok () ↔
      ∀ feature ∈ pipelineFeatures { nodes := [node] }, Enabled entitlements tenantId feature) ↔
      (UsesRealtime node → (UsesState node ∧ Enabled entitlements tenantId "statefulProcessing" ∨
        UsesAdvanced node ∧ Enabled entitlements tenantId "advancedConnectors") →
          Enabled entitlements tenantId "realtime") := by
  have hruns :
      requireEntitlement numbers scanFloat entitlements tenantId node.activityType node.config =
      .ok () ↔ requiredFeature numbers scanFloat node.activityType node.config = "" ∨
        Enabled entitlements tenantId
          (requiredFeature numbers scanFloat node.activityType node.config) := by
    unfold requireEntitlement Enabled
    dsimp only
    split_ifs with hnone
    · simp [hnone]
    · split <;> simp_all
  have hsaved :
      (∀ feature ∈ pipelineFeatures { nodes := [node] }, Enabled entitlements tenantId feature) ↔
      (UsesRealtime node → Enabled entitlements tenantId "realtime") ∧
        (UsesState node → Enabled entitlements tenantId "statefulProcessing") ∧
          (UsesAdvanced node → Enabled entitlements tenantId "advancedConnectors") := by
    constructor
    · intro h
      exact ⟨fun huses => h _ (mem_pipelineFeatures_iff.mpr (.realtime huses)),
        fun huses => h _ (mem_pipelineFeatures_iff.mpr (.statefulProcessing huses)),
        fun huses => h _ (mem_pipelineFeatures_iff.mpr (.advancedConnectors huses))⟩
    · rintro ⟨hrealtime, hstate, hadvanced⟩ feature hfeature
      cases mem_pipelineFeatures_iff.mp hfeature with
      | realtime huses => exact hrealtime huses
      | statefulProcessing huses => exact hstate huses
      | advancedConnectors huses => exact hadvanced huses
  rw [hruns, hsaved, requiredFeature_eq]
  by_cases hadvanced : UsesAdvanced node
  · have hstate := not_usesState_of_usesAdvanced hadvanced
    simp only [hadvanced, hstate, if_true]
    simp
    tauto
  · by_cases hstate : UsesState node
    · simp only [hadvanced, hstate, if_true, if_false]
      simp
      tauto
    · by_cases hrealtime : UsesRealtime node
      · simp [hadvanced, hstate, hrealtime]
      · simp [hadvanced, hstate, hrealtime]

/-- **Changes are written to Snowflake without the feature of streams**: the activity asks for the
feature of the connector only. -/
theorem cdc_into_snowflake : let node : Node :=
      { id := "sink", type := .sink, activityType := "sink.snowflake"
        config := [("writeMode", .string "apply-cdc")] }
    let entitlements : Entitlements := fun _ feature => some (feature = "advancedConnectors")
    ¬ (requireEntitlement quotientTexts (fun _ => 0) entitlements "t" node.activityType node.config =
        .ok () ↔
      ∀ feature ∈ pipelineFeatures { nodes := [node] }, Enabled entitlements "t" feature) := by
  intro node entitlements h
  have hruns : requireEntitlement quotientTexts (fun _ => 0) entitlements "t" node.activityType
      node.config = .ok () := by rfl
  have hrealtime := h.mp hruns "realtime" (mem_pipelineFeatures_iff.mpr (.realtime (by decide)))
  revert hrealtime
  unfold Enabled
  decide

end agree

end Dataflow.Activities
