import Dataflow.Connectors.Values
import Mathlib.Data.Finset.Union

/-!
# `dedupe_keys`: the keys a pipeline remembers

A `transform.dedupe` node with pipeline scope lets through the records whose key is not stored yet,
and names the hashes of their keys in its metadata. The workflow stores them when the run has
completed.

* `dedupeHash`, `filterCrossRunDedupe`: the code that filters.
* `DedupeCheckpoint`, `ofJson`, `commitDedupeKeys`: the code that stores. Each checkpoint is a
  statement of its own: an attempt that fails has stored those before.
* `filtered_of_ok`: **what the filter lets through**: records of its input with a hash that the
  checkpoint names, and no hash that the query has delivered.
* `ofJson_checkpointJson`: the activity decodes the checkpoint that the filter has written.
-/

namespace Dataflow.Activities

open Connectors Model Workflows List

/-! ## The code -/

/-- A row of `dedupe_keys`, all of it the primary key. Source: `db/020_cross_run_dedupe.sql` -/
structure DedupeKey where
  tenantId : String
  pipelineId : String
  nodeId : String
  keyHash : String
  deriving DecidableEq

/-- An entry of `CommitDedupeParams`. -/
structure DedupeCheckpoint where
  pipelineId : String
  nodeId : String
  hashes : List String
  deriving DecidableEq

/-- The values of the key fields of a record. -/
def keyValues (keys : List String) (record : JsonMap) : List Json := keys.map record.get

/-- Source: `transforms.go` `DedupeHash`; `digest` is the text of the SHA-256 of the JSON of a
list. -/
def dedupeHash (digest : List Json → String) (keys : List String) (record : JsonMap) : String :=
  digest (keyValues keys record)

/-- The rows of the SELECT of `filterCrossRunDedupe`. -/
def storedHashes (stored : Finset DedupeKey) (tenantId pipelineId nodeId : String)
    (hashes : List String) : List String :=
  hashes.filter fun hash => ⟨tenantId, pipelineId, nodeId, hash⟩ ∈ stored

/-- The checkpoint that goes into the metadata. -/
def checkpointJson (checkpoint : DedupeCheckpoint) : JsonMap :=
  [("pipelineId", .string checkpoint.pipelineId), ("nodeId", .string checkpoint.nodeId),
    ("hashes", .array (checkpoint.hashes.map .string))]

/-- The records of an input. -/
def recordsOf : Json → List JsonMap
  | .array rows => rows.filterMap Json.asObject?
  | _ => []

/-- What a dedupe node hands on: its records and its checkpoint. -/
structure Filtered where
  records : List JsonMap
  checkpoint : DedupeCheckpoint
  deriving DecidableEq

/-- `byHash[hash]`: the last record with the hash. -/
def byHash (hashOf : JsonMap → String) (records : List JsonMap) (hash : String) : Option JsonMap :=
  records.reverse.find? fun record => hashOf record = hash

/-- The part of `filterCrossRunDedupe` after the query; `existing` are the hashes it has
delivered. -/
def filterRecords (hashOf : JsonMap → String) (pipelineId nodeId : String)
    (records : List JsonMap) (existing : List String) : Filtered :=
  let fresh := (records.map hashOf).filter fun hash => hash ∉ existing
  { records := fresh.filterMap (byHash hashOf records)
    checkpoint := ⟨pipelineId, nodeId, fresh⟩ }

/-- `pipeline` is the reply to the query for the pipeline of the execution, `query` the reply to the
query for the stored hashes. The code does not look at the error of a query that breaks off: what it
has delivered until then counts.
Source: `activities.go` `filterCrossRunDedupe` -/
def filterCrossRunDedupe (digest : List Json → String) (formatting : Formatting)
    (params : DispatchParams) (pipeline : Except String String)
    (query : Except String (List String)) (output : Json) : Except String Filtered :=
  match output with
  | .array rows =>
    match pipeline with
    | .error err => .error ("transform.dedupe: execution pipeline not found: " ++ err)
    | .ok pipelineId =>
      match rows.mapM Json.asObject? with
      | none => .error "transform.dedupe: records must be objects"
      | some records =>
        let hashOf := dedupeHash digest (keyFields formatting (params.config.get "key"))
        if records = [] then .ok (filterRecords hashOf pipelineId params.nodeId records [])
        else query.map (filterRecords hashOf pipelineId params.nodeId records)
  | _ => .error "transform.dedupe: input must be an array"

/-- The result of a dedupe node: `dedupeHandler` has no metadata of its own.
Source: `activities.go` `DispatchNode` -/
def dedupeResult (params : DispatchParams) (filtered : Filtered) (outputRef : Option DataRef)
    (durationMs recordCount : ℕ) : NodeResult where
  nodeId := params.nodeId
  status := .success
  outputRef := outputRef
  metadata := [("dedupeCheckpoint", .object (checkpointJson filtered.checkpoint)),
    ("durationMs", .number durationMs)] ++
      if 0 < recordCount then [("recordCount", .number recordCount)] else []

/-- A text of a decoded struct: an absent field is empty. -/
def textField : Json → Option String
  | .null => some ""
  | .string text => some text
  | _ => none

/-- A list of texts of a decoded struct. -/
def textsField : Json → Option (List String)
  | .null => some []
  | .array items => items.mapM textField
  | _ => none

/-- The entry of `CommitDedupeParams` that is decoded from the metadata of a result. -/
def DedupeCheckpoint.ofJson (checkpoint : JsonMap) : Option DedupeCheckpoint := do
  let pipelineId ← textField (checkpoint.get "pipelineId")
  let nodeId ← textField (checkpoint.get "nodeId")
  let hashes ← textsField (checkpoint.get "hashes")
  return { pipelineId, nodeId, hashes }

/-- The rows of a checkpoint. -/
def DedupeCheckpoint.keys (tenantId : String) (checkpoint : DedupeCheckpoint) : Finset DedupeKey :=
  (checkpoint.hashes.map fun hash =>
    (⟨tenantId, checkpoint.pipelineId, checkpoint.nodeId, hash⟩ : DedupeKey)).toFinset

/-- The rows of several checkpoints. -/
def checkpointKeys (tenantId : String) : List DedupeCheckpoint → Finset DedupeKey
  | [] => ∅
  | checkpoint :: rest => checkpoint.keys tenantId ∪ checkpointKeys tenantId rest

/-- An attempt that has executed its first `n` statements, each an `INSERT … ON CONFLICT DO
NOTHING`; one that succeeds has executed them all.
Source: `activities.go` `CommitDedupeKeys` -/
def commitDedupeKeys (tenantId : String) (checkpoints : List DedupeCheckpoint) (n : ℕ)
    (stored : Finset DedupeKey) : Finset DedupeKey :=
  stored ∪ checkpointKeys tenantId (checkpoints.take n)

/-! ## Decoding -/

theorem mapM_textField (texts : List String) :
    (texts.map Json.string).mapM textField = some texts := by
  induction texts with
  | nil => rfl
  | cons text texts ih =>
    rw [map_cons, mapM_cons, ih]
    rfl

/-- **The checkpoint of a filter is decoded as it was written.** -/
theorem ofJson_checkpointJson (checkpoint : DedupeCheckpoint) :
    DedupeCheckpoint.ofJson (checkpointJson checkpoint) = some checkpoint := by
  have hhashes : textsField (.array (checkpoint.hashes.map .string)) = some checkpoint.hashes :=
    mapM_textField checkpoint.hashes
  show (textsField (.array (checkpoint.hashes.map .string))).bind _ = _
  rw [hhashes]
  rfl

/-- The workflow passes on what the filter has found. -/
theorem dedupeCheckpoint_dedupeResult (params : DispatchParams) (filtered : Filtered)
    (outputRef : Option DataRef) (durationMs recordCount : ℕ) :
    (dedupeCheckpoint (dedupeResult params filtered outputRef durationMs recordCount)).bind
      DedupeCheckpoint.ofJson = some filtered.checkpoint :=
  ofJson_checkpointJson filtered.checkpoint

/-! ## What is stored -/

theorem mem_keys {tenantId hash : String} {checkpoint : DedupeCheckpoint} :
    (⟨tenantId, checkpoint.pipelineId, checkpoint.nodeId, hash⟩ : DedupeKey) ∈
      checkpoint.keys tenantId ↔ hash ∈ checkpoint.hashes := by
  rw [DedupeCheckpoint.keys, mem_toFinset, mem_map]
  constructor
  · rintro ⟨other, hother, heq⟩
    obtain rfl : other = hash := congrArg DedupeKey.keyHash heq
    exact hother
  · intro h
    exact ⟨hash, h, rfl⟩

/-- What the SELECT delivers is stored. -/
theorem mem_storedHashes {stored : Finset DedupeKey} {tenantId pipelineId nodeId hash : String}
    {hashes : List String} : hash ∈ storedHashes stored tenantId pipelineId nodeId hashes ↔
      hash ∈ hashes ∧ ⟨tenantId, pipelineId, nodeId, hash⟩ ∈ stored := by
  rw [storedHashes, mem_filter, decide_eq_true_iff]

/-- Nothing stored is lost. -/
theorem subset_commitDedupeKeys (tenantId : String) (checkpoints : List DedupeCheckpoint) (n : ℕ)
    (stored : Finset DedupeKey) : stored ⊆ commitDedupeKeys tenantId checkpoints n stored :=
  Finset.subset_union_left

/-! ## What is let through -/

/-- Every hash of the checkpoint is that of a record of the input, and not an existing one. -/
theorem mem_hashes_filterRecords {hashOf : JsonMap → String} {pipelineId nodeId hash : String}
    {records : List JsonMap} {existing : List String} :
    hash ∈ (filterRecords hashOf pipelineId nodeId records existing).checkpoint.hashes ↔
      (∃ record ∈ records, hashOf record = hash) ∧ hash ∉ existing := by
  show hash ∈ (records.map hashOf).filter _ ↔ _
  rw [mem_filter, mem_map, decide_eq_true_iff]

/-- Every record that is let through has a hash of the checkpoint. -/
theorem hash_mem_of_mem_records {hashOf : JsonMap → String} {pipelineId nodeId : String}
    {records : List JsonMap} {existing : List String} {record : JsonMap}
    (h : record ∈ (filterRecords hashOf pipelineId nodeId records existing).records) :
    hashOf record ∈ (filterRecords hashOf pipelineId nodeId records existing).checkpoint.hashes := by
  obtain ⟨hash, hfresh, hfind⟩ := mem_filterMap.mp h
  obtain rfl : hashOf record = hash := by simpa using find?_some hfind
  exact hfresh

/-- **What a filter lets through**: records whose hash the checkpoint names; these are hashes of the
input that have not been delivered. -/
theorem filtered_of_ok {digest : List Json → String} {formatting : Formatting}
    {params : DispatchParams} {pipeline : Except String String}
    {query : Except String (List String)} {output : Json} {filtered : Filtered}
    (h : filterCrossRunDedupe digest formatting params pipeline query output = .ok filtered) :
    pipeline = .ok filtered.checkpoint.pipelineId ∧ filtered.checkpoint.nodeId = params.nodeId ∧
      (∀ record ∈ filtered.records,
        dedupeHash digest (keyFields formatting (params.config.get "key")) record ∈
          filtered.checkpoint.hashes) ∧
      ∀ hash ∈ filtered.checkpoint.hashes, (∃ record ∈ recordsOf output,
          dedupeHash digest (keyFields formatting (params.config.get "key")) record = hash) ∧
        ∃ existing, query = .ok existing ∧ hash ∉ existing := by
  unfold filterCrossRunDedupe at h
  cases output with
  | array rows =>
    dsimp only at h
    cases pipeline with
    | error err => cases h
    | ok pipelineId =>
      dsimp only at h
      cases hrows : rows.mapM Json.asObject? with
      | none =>
        simp [hrows] at h
      | some records =>
        rw [hrows] at h
        dsimp only at h
        rw [recordsOf, Library.Lists.filterMap_of_mapM hrows]
        split_ifs at h with hnil
        · cases h
          refine ⟨rfl, rfl, fun record hrecord => hash_mem_of_mem_records hrecord, ?_⟩
          intro hash hhash
          obtain ⟨⟨record, hrecord, -⟩, -⟩ := mem_hashes_filterRecords.mp hhash
          simp [hnil] at hrecord
        · cases query with
          | error err => cases h
          | ok existing =>
            cases h
            refine ⟨rfl, rfl, fun record hrecord => hash_mem_of_mem_records hrecord, ?_⟩
            intro hash hhash
            obtain ⟨hrecord, hnot⟩ := mem_hashes_filterRecords.mp hhash
            exact ⟨hrecord, existing, rfl, hnot⟩
  | null | bool value | number value | string value | object fields => cases h

end Dataflow.Activities
