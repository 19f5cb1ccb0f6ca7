import Dataflow.Connectors.Dedupe

/-!
# `transform.dedupe` with pipeline scope: rows are only removed

The rows that the handler keeps are filtered by the hashes of their keys. Without key fields the
handler keeps all rows, but to the filter they have one key.

* `digest`, `pipelineDedupe`: the two parts of the code in a row.
* `OnlyRemoves`: what the node is for: no row is added, and one row is left of each key that is not
  stored.
* **`onlyRemoves_iff`**: with key fields that is so, without only if the rows are equal and their
  hash is not stored.

Source: `activities.go` `DispatchNode`, `filterCrossRunDedupe`, `transforms.go` `dedupeHandler`
-/

namespace Dataflow.Activities

open Connectors Library Library.Dedupe Model Workflows List

/-! ## The node -/

section code

variable (rendering : Rendering) (sha256 : String → String) (params : DispatchParams)

/-- The digest of `DedupeHash`; `sha256` is the hexadecimal text of the SHA-256 of a text. -/
def digest (values : List Json) : String := sha256 (marshal rendering.numbers (.array values))

/-- The key fields of the node. -/
def dedupeFields : List String := keyFields rendering.toFormatting (params.config.get "key")

/-- The hash of a row. -/
def rowHash (keys : List String) (row : JsonMap) : String :=
  dedupeHash (digest rendering sha256) keys row

/-- What `DispatchNode` does with the input of a node with pipeline scope, when the pipeline of the
execution is found and the query for the stored hashes succeeds. -/
def pipelineDedupe (pipelineId : String) (stored : Finset DedupeKey) (input : Json) :
    Except String Filtered :=
  (dedupeHandler rendering params.config input).bind fun output =>
    let hashes := (recordsOf output).map (rowHash rendering sha256 (dedupeFields rendering params))
    filterCrossRunDedupe (digest rendering sha256) rendering.toFormatting params (.ok pipelineId)
      (.ok (storedHashes stored params.tenantId pipelineId params.nodeId hashes)) output

end code

/-! ## What the node is for -/

/-- A row as a JSON value. -/
def rowValue (row : JsonMap) : Json := (Json.object row).normalize

/-- **Rows are only removed.** The records are a sub-multiset of the rows; of each key whose hash is
not stored one row is left, and without key fields every row; the checkpoint has the hashes of the
records. -/
structure OnlyRemoves (keys : List String) (hashOf : JsonMap → String) (stored : String → Prop)
    (rows : List JsonMap) (filtered : Filtered) : Prop where
  subperm : (filtered.records.map rowValue).Subperm (rows.map rowValue)
  once : keys ≠ [] → ∀ row ∈ rows, ¬ stored (hashOf row) →
    (filtered.records.map (keyTuple keys)).count (keyTuple keys row) = 1
  all : keys = [] → (filtered.records.map rowValue).Perm (rows.map rowValue)
  checkpoint : filtered.checkpoint.hashes = filtered.records.map hashOf

section filter

variable {hashOf : JsonMap → String} {pipelineId nodeId : String} {records rows : List JsonMap}
  {existing : List String}

/-! ## The filter -/

/-- Records with distinct hashes are filtered one by one. -/
theorem filterRecords_of_nodup (h : (records.map hashOf).Nodup) :
    (filterRecords hashOf pipelineId nodeId records existing).records =
      records.filter fun record => hashOf record ∉ existing := by
  show ((records.map hashOf).filter fun hash => hash ∉ existing).filterMap (byHash hashOf records) = _
  rw [filter_map, filterMap_map]
  have hsome : ∀ record ∈ records.filter fun record => hashOf record ∉ existing,
      (byHash hashOf records ∘ hashOf) record = some record := by
    intro record hrecord
    exact pick_of_nodup true h (mem_of_mem_filter hrecord)
  have hcongr := filterMap_congr hsome
  rw [filterMap_some] at hcongr
  exact hcongr

/-- **Distinct records** are filtered as they should. -/
theorem checkpoint_of_nodup (h : (records.map hashOf).Nodup) :
    (filterRecords hashOf pipelineId nodeId records existing).checkpoint.hashes =
      (filterRecords hashOf pipelineId nodeId records existing).records.map hashOf := by
  rw [filterRecords_of_nodup h]
  exact filter_map

/-- **Records with one hash**: the last one takes the place of every record. -/
theorem filterRecords_of_const {hash : String} (hconst : ∀ record, hashOf record = hash)
    (last : JsonMap) (hlast : rows.getLast? = some last) :
    filterRecords hashOf pipelineId nodeId rows existing =
      if hash ∈ existing then ⟨[], ⟨pipelineId, nodeId, []⟩⟩
      else ⟨replicate rows.length last, ⟨pipelineId, nodeId, replicate rows.length hash⟩⟩ := by
  have hbyHash : byHash hashOf rows hash = some last := by
    rw [← head?_reverse] at hlast
    rw [byHash]
    cases hrows : rows.reverse with
    | nil =>
      simp [hrows] at hlast
    | cons first rest =>
      rw [hrows, head?_cons, Option.some_inj] at hlast
      rw [find?_cons_of_pos (by simpa using hconst first), hlast]
  have hhashes : rows.map hashOf = replicate rows.length hash := by
    rw [eq_replicate_iff]
    simp [hconst]
  rw [filterRecords, hhashes]
  split_ifs with hmem
  · simp [hmem]
  · simp [hmem, hbyHash]

end filter

section node

variable {rendering : Rendering} {sha256 : String → String} {params : DispatchParams}
  {pipelineId : String} {stored : Finset DedupeKey} {rows : List JsonMap}

/-! ## The node -/

theorem mapM_asObject? (rows : List JsonMap) :
    (rows.map Json.object).mapM Json.asObject? = some rows := by
  induction rows with
  | nil => rfl
  | cons row rows ih =>
    rw [map_cons, mapM_cons, ih]
    rfl

/-- The hash of a row is that of its key. -/
theorem rowHash_eq (keys : List String) (row : JsonMap) : rowHash rendering sha256 keys row =
      sha256 (renderText rendering.numbers (.array (keyTuple keys row))) := by
  rw [rowHash, dedupeHash, digest, marshal, Json.normalize, normalizeItems_eq_map]
  rfl

/-- **What the node gives back**: the handler's rows, filtered. -/
theorem pipelineDedupe_eq {out : List JsonMap}
    (hout : dedupeHandler rendering params.config (.array (rows.map Json.object)) =
      .ok (.array (out.map Json.object))) :
    pipelineDedupe rendering sha256 params pipelineId stored (.array (rows.map Json.object)) =
      .ok (filterRecords (rowHash rendering sha256 (dedupeFields rendering params)) pipelineId params.nodeId out
        (storedHashes stored params.tenantId pipelineId params.nodeId
          (out.map (rowHash rendering sha256 (dedupeFields rendering params))))) := by
  have hrecords : recordsOf (.array (out.map Json.object)) = out :=
    Lists.filterMap_of_mapM (mapM_asObject? out)
  rw [pipelineDedupe, hout]
  dsimp only [Except.bind]
  rw [hrecords, filterCrossRunDedupe]
  rw [mapM_asObject?]
  dsimp only
  split_ifs with hnil
  · rw [hnil]
    rfl
  · rfl

/-- The hash of a record is stored for the node. -/
def Stored (params : DispatchParams) (pipelineId : String) (stored : Finset DedupeKey)
    (hash : String) : Prop :=
  ⟨params.tenantId, pipelineId, params.nodeId, hash⟩ ∈ stored

/-- SHA-256 has no collision among the keys of the rows. -/
def NoCollision (rendering : Rendering) (sha256 : String → String) (keys : List String)
    (rows : List JsonMap) :
    Prop :=
  ∀ row ∈ rows, ∀ other ∈ rows, sha256 (renderText rendering.numbers (.array (keyTuple keys row))) =
        sha256 (renderText rendering.numbers (.array (keyTuple keys other))) →
      renderText rendering.numbers (.array (keyTuple keys row)) =
        renderText rendering.numbers (.array (keyTuple keys other))

/-- **With key fields** rows are only removed. -/
theorem onlyRemoves_of_keys (pipelineId : String) (stored : Finset DedupeKey)
    (hkeys : dedupeFields rendering params ≠ [])
    (hsha : NoCollision rendering sha256 (dedupeFields rendering params) rows) :
    ∃ filtered, pipelineDedupe rendering sha256 params pipelineId stored (.array (rows.map Json.object)) =
        .ok filtered ∧
      OnlyRemoves (dedupeFields rendering params) (rowHash rendering sha256 (dedupeFields rendering params))
        (Stored params pipelineId stored) rows filtered := by
  obtain ⟨out, hout, hlaw⟩ := deduped_dedupeRows rendering (dedupeFields rendering params)
    (params.config.get "keep" = .string "last") rows
  have hhandler : dedupeHandler rendering params.config (.array (rows.map Json.object)) =
      .ok (.array (out.map Json.object)) := by
    rw [← hout]
    exact if_neg hkeys
  have hdistinct : (out.map (rowHash rendering sha256 (dedupeFields rendering params))).Nodup := by
    apply List.Nodup.map_on _ (List.Nodup.of_map _ hlaw.distinct)
    intro row hrow other hother heq
    rw [rowHash_eq, rowHash_eq] at heq
    have htext := hsha row (hlaw.subperm.subset hrow) other (hlaw.subperm.subset hother) heq
    exact inj_on_of_nodup_map hlaw.distinct hrow hother (renderText_array_injective _ htext)
  refine ⟨_, pipelineDedupe_eq hhandler, ?_, ?_, fun hnil => absurd hnil hkeys, checkpoint_of_nodup hdistinct⟩
  · rw [filterRecords_of_nodup hdistinct]
    obtain ⟨sub, hperm, hsub⟩ := List.filter_sublist.subperm.trans hlaw.subperm
    exact ⟨sub.map rowValue, hperm.map rowValue, hsub.map rowValue⟩
  · intro _ row hrow hstored
    rw [filterRecords_of_nodup hdistinct]
    have hkey : keyTuple (dedupeFields rendering params) row ∈
        out.map (keyTuple (dedupeFields rendering params)) :=
      hlaw.mem_map.mpr (mem_map_of_mem hrow)
    obtain ⟨kept, hkept, heq⟩ := mem_map.mp hkey
    have hhash : rowHash rendering sha256 (dedupeFields rendering params) kept =
        rowHash rendering sha256 (dedupeFields rendering params) row := by
      rw [rowHash_eq, rowHash_eq, heq]
    apply count_eq_one_of_mem
    · exact (filter_sublist.map _).nodup hlaw.distinct
    · rw [← heq]
      apply mem_map_of_mem
      rw [mem_filter, decide_eq_true_iff, mem_storedHashes, hhash]
      exact ⟨hkept, fun h => hstored h.2⟩

/-- **Without key fields** every row is there iff there are no rows, or the rows are equal and their
hash is not stored. -/
theorem onlyRemoves_of_noKeys (sha256 : String → String) (pipelineId : String)
    (stored : Finset DedupeKey) (rows : List JsonMap) (hkeys : dedupeFields rendering params = []) :
    ∃ filtered, pipelineDedupe rendering sha256 params pipelineId stored (.array (rows.map Json.object)) =
        .ok filtered ∧
      (OnlyRemoves (dedupeFields rendering params) (rowHash rendering sha256 (dedupeFields rendering params))
          (Stored params pipelineId stored) rows filtered ↔
        rows = [] ∨ ¬ Stored params pipelineId stored (sha256 (renderText rendering.numbers (.array []))) ∧
          ∀ row ∈ rows, ∀ other ∈ rows, rowValue row = rowValue other) := by
  have hhandler : dedupeHandler rendering params.config (.array (rows.map Json.object)) =
      .ok (.array (rows.map Json.object)) := if_pos hkeys
  refine ⟨_, pipelineDedupe_eq hhandler, ?_⟩
  rw [hkeys]
  have hconst : ∀ row, rowHash rendering sha256 [] row =
      sha256 (renderText rendering.numbers (.array [])) :=
    fun row => rowHash_eq [] row
  cases hlast : rows.getLast? with
  | none =>
    rw [getLast?_eq_none_iff] at hlast
    subst hlast
    exact iff_of_true ⟨by simp [filterRecords], nofun, fun _ => by simp [filterRecords], rfl⟩ (.inl rfl)
  | some last =>
    have hmem : last ∈ rows := mem_of_getLast? hlast
    have hne : rows ≠ [] := ne_nil_of_mem hmem
    have hstored : sha256 (renderText rendering.numbers (.array [])) ∈
        storedHashes stored params.tenantId pipelineId params.nodeId
          (rows.map (rowHash rendering sha256 [])) ↔
        Stored params pipelineId stored (sha256 (renderText rendering.numbers (.array []))) := by
      rw [mem_storedHashes, and_iff_right (mem_map.mpr ⟨last, hmem, hconst last⟩)]
      rfl
    rw [filterRecords_of_const hconst last hlast]
    split_ifs with h
    · have hno :
          ¬ OnlyRemoves [] (rowHash rendering sha256 []) (Stored params pipelineId stored) rows
          ⟨[], ⟨pipelineId, params.nodeId, []⟩⟩ := by
        intro hremoves
        have hall := hremoves.all rfl
        simp only [map_nil, nil_perm, map_eq_nil_iff] at hall
        exact hne hall
      apply iff_of_false hno
      rintro (hnil | ⟨hnot, -⟩)
      · exact hne hnil
      · exact hnot (hstored.mp h)
    · have hperm : ((replicate rows.length last).map rowValue).Perm (rows.map rowValue) ↔
          ∀ row ∈ rows, rowValue row = rowValue last := by
        rw [map_replicate, replicate_perm, eq_comm, eq_replicate_iff]
        simp
      have hequal : (∀ row ∈ rows, rowValue row = rowValue last) ↔
          ∀ row ∈ rows, ∀ other ∈ rows, rowValue row = rowValue other :=
        ⟨fun h row hrow other hother => (h row hrow).trans (h other hother).symm,
          fun h row hrow => h row hrow last hmem⟩
      constructor
      · intro hremoves
        exact .inr ⟨fun hmem => h (hstored.mpr hmem), hequal.mp (hperm.mp (hremoves.all rfl))⟩
      · rintro (hnil | ⟨-, hall⟩)
        · exact absurd hnil hne
        · have hpermuted := hperm.mpr (hequal.mpr hall)
          exact ⟨hpermuted.subperm, nofun, fun _ => hpermuted, by simp [hconst]⟩

/-- **Rows are only removed** iff there are key fields, or no rows, or the rows are equal and the
hash that all have is not stored. The hash of no values is that of the text `[]`. -/
theorem onlyRemoves_iff (pipelineId : String) (stored : Finset DedupeKey)
    (hsha : NoCollision rendering sha256 (dedupeFields rendering params) rows) :
    ∃ filtered, pipelineDedupe rendering sha256 params pipelineId stored (.array (rows.map Json.object)) =
        .ok filtered ∧
      (OnlyRemoves (dedupeFields rendering params) (rowHash rendering sha256 (dedupeFields rendering params))
          (Stored params pipelineId stored) rows filtered ↔
        dedupeFields rendering params ≠ [] ∨ rows = [] ∨
          ¬ Stored params pipelineId stored (sha256 (renderText rendering.numbers (.array []))) ∧
            ∀ row ∈ rows, ∀ other ∈ rows, rowValue row = rowValue other) := by
  by_cases hkeys : dedupeFields rendering params = []
  · obtain ⟨filtered, hfiltered, hiff⟩ := onlyRemoves_of_noKeys sha256 pipelineId stored rows hkeys
    exact ⟨filtered, hfiltered, hiff.trans (by simp [hkeys])⟩
  · obtain ⟨filtered, hfiltered, hremoves⟩ := onlyRemoves_of_keys pipelineId stored hkeys hsha
    exact ⟨filtered, hfiltered, iff_of_true hremoves (.inl hkeys)⟩

end node

/-! ## Two rows -/

/-- A dedupe node with pipeline scope. -/
def dedupeParams (config : JsonMap) : DispatchParams where
  activityType := "transform.dedupe"
  config := ("scope", .string "pipeline") :: config
  inputRef := none
  tenantId := "t"
  executionId := "run"
  nodeId := "dedupe"
  pipelineVersion := 1
  encryptedDek := ""

/-- The SHA-256 of the text `["a"]`. -/
def shaOfA : String := "0eb5b8d6f81bc677da8a08567cc4fa9a06a57e9ec8da85ed73a7f62727996002"

/-- The SHA-256 of the text `[]`. -/
def shaOfNothing : String := "4f53cda18c2baa0c0354bb5f9a3ecbe5ed12ab4d8e11ba873c2f11161202b945"

theorem onlyRemoves_iff_oneRow :
    ∃ filtered, pipelineDedupe textRendering (fun _ => shaOfA) (dedupeParams [("key", .string "id")]) "p" ∅
        (.array ([[("id", .string "a")]].map Json.object)) = .ok filtered ∧
      OnlyRemoves (dedupeFields textRendering (dedupeParams [("key", .string "id")]))
        (rowHash textRendering (fun _ => shaOfA)
          (dedupeFields textRendering (dedupeParams [("key", .string "id")])))
        (Stored (dedupeParams [("key", .string "id")]) "p" ∅) [[("id", .string "a")]] filtered := by
  have hsha : NoCollision textRendering (fun _ => shaOfA)
      (dedupeFields textRendering (dedupeParams [("key", .string "id")])) [[("id", .string "a")]] := by
    simp [NoCollision]
  obtain ⟨filtered, hfiltered, hiff⟩ := onlyRemoves_iff "p" ∅ hsha
  exact ⟨filtered, hfiltered, hiff.mpr (.inl (by decide +kernel))⟩

/-- **Without key fields the last of two rows takes the place of the first.** -/
theorem first_row_replaced : ∃ filtered, pipelineDedupe textRendering (fun _ => shaOfNothing)
        (dedupeParams []) "p" ∅
        (.array ([[("id", .string "a")], [("id", .string "b")]].map Json.object)) = .ok filtered ∧
      ¬ OnlyRemoves (dedupeFields textRendering (dedupeParams []))
        (rowHash textRendering (fun _ => shaOfNothing)
          (dedupeFields textRendering (dedupeParams []))) (Stored (dedupeParams []) "p" ∅)
        [[("id", .string "a")], [("id", .string "b")]] filtered := by
  obtain ⟨filtered, hfiltered, hiff⟩ := onlyRemoves_of_noKeys
    (fun _ => shaOfNothing) "p" ∅
    [[("id", .string "a")], [("id", .string "b")]]
    (show dedupeFields textRendering (dedupeParams []) = [] by decide +kernel)
  refine ⟨filtered, hfiltered, ?_⟩
  rw [hiff]
  rintro (hnil | ⟨-, hequal⟩)
  · cases hnil
  · have hvalues := hequal [("id", .string "a")] (by simp) [("id", .string "b")] (by simp)
    exact absurd hvalues (by decide)

end Dataflow.Activities
