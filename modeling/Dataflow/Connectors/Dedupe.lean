import Dataflow.Activities.DedupeKeys
import Dataflow.Connectors.MergeArrays
import Dataflow.Library.Dedupe

/-!
# `transform.dedupe`: one row for each key

The rows of an array are told apart by the values of their key fields, or, in a merge, by all they
have. The code compares the texts of the values.

* `dedupeStep`, `dedupeHandler`: the code.
* `keyTuple`: the values of the key fields, as JSON values.
* `deduped_dedupeRows`, `deduped_unionRows`: what the two loops keep.
* **`dedupeHandler_laws`**: both obey one law.

Source: `transforms.go` `dedupeHandler`, `MergeArrays`
-/

namespace Dataflow.Connectors

open Activities Library Library.Dedupe Model List

/-! ## The code -/

section code

variable (rendering : Rendering) (keys : List String) (last : Bool)

/-- The text of the values of the key fields. What is no map has no values. -/
def keyText (raw : Json) : String :=
  marshal rendering.numbers (.array (keyValues keys (raw.asObject?.getD [])))

/-- The body of the loop, with `byKey` and `order`. -/
def dedupeStep (state : JsonMap × List String) (raw : Json) : JsonMap × List String :=
  let (byKey, order) := state
  let hash := keyText rendering keys raw
  (if last ∨ byKey.get hash = .null then byKey.set hash raw else byKey,
    if (byKey.lookup hash).isSome then order else order ++ [hash])

/-- The loops of `dedupeHandler`. -/
def dedupeRows (rows : List Json) : List Json :=
  let (byKey, order) := rows.foldl (dedupeStep rendering keys last) ([], [])
  order.map byKey.get

/-- Source: `transforms.go` `dedupeHandler`. -/
def dedupeHandler (cfg : JsonMap) : (input : Json) → Except String Json
  | .array rows =>
    let keys := keyFields rendering.toFormatting (cfg.get "key")
    if keys = [] then .ok (.array rows)
    else .ok (.array (dedupeRows rendering keys (cfg.get "keep" = .string "last") rows))
  | _ => .error "input must be an array"

end code

/-! ## Keys as values -/

/-- The values of the key fields of a row, as JSON values. -/
def keyTuple (keys : List String) (row : JsonMap) : List Json :=
  (keyValues keys row).map Json.normalize

/-- The text of values whose maps are in order. -/
def renderText (numbers : NumberTexts) (value : Json) : String := .ofList (value.render numbers)

theorem renderText_injective (numbers : NumberTexts) : Function.Injective (renderText numbers) := by
  intro value value' h
  have hrender : value.render numbers ++ [] = value'.render numbers ++ [] := by
    rw [String.ofList_injective h]
  have hends : EndsValue [] := by simp [EndsValue]
  exact (render_append_inj value value' hends hends hrender).1

theorem renderText_array_injective (numbers : NumberTexts) :
    Function.Injective fun values : List Json => renderText numbers (.array values) := by
  intro values values' h
  exact Json.array.inj (renderText_injective numbers h)

/-- **The text of a key is that of its values.** -/
theorem keyText_object (rendering : Rendering) (keys : List String) (row : JsonMap) :
    keyText rendering keys (.object row) =
      renderText rendering.numbers (.array (keyTuple keys row)) := by
  rw [keyText, marshal, Json.normalize, normalizeItems_eq_map]
  rfl

section laws

variable {rendering : Rendering} {keys : List String} {last : Bool} {rows done : List JsonMap}

/-! ## The loop of the handler -/

/-- **What the loop has** after some rows: their keys in the order in which they occur first, and at
each key the row that is kept. -/
structure DedupeInv (rendering : Rendering) (keys : List String) (last : Bool) (done : List JsonMap)
    (state : JsonMap × List String) : Prop where
  order : state.2 = (done.map fun row => keyText rendering keys (.object row)).eraseDups
  byKey : ∀ hash, state.1.lookup hash =
    (pick last (fun row => keyText rendering keys (.object row)) done hash).map Json.object

/-- **What one row does.** -/
theorem DedupeInv.step {state : JsonMap × List String}
    (h : DedupeInv rendering keys last done state) (row : JsonMap) :
    DedupeInv rendering keys last (done ++ [row]) (dedupeStep rendering keys last state (.object row)) := by
  obtain ⟨byKey, order⟩ := state
  have hsome : (byKey.lookup (keyText rendering keys (.object row))).isSome ↔
      keyText rendering keys (.object row) ∈ done.map fun row => keyText rendering keys (.object row) := by
    rw [h.byKey, Option.isSome_map]
    exact pick_isSome last
  have hnull : byKey.get (keyText rendering keys (.object row)) = .null ↔
      keyText rendering keys (.object row) ∉ done.map fun row => keyText rendering keys (.object row) := by
    rw [← hsome, JsonMap.get, h.byKey]
    cases pick last (fun row => keyText rendering keys (.object row)) done
      (keyText rendering keys (.object row)) <;> simp
  refine ⟨?_, ?_⟩
  · rw [map_append, map_singleton, eraseDups_concat, ← h.order]
    simp only [dedupeStep, hsome]
  · intro hash
    rw [pick_concat]
    simp only [dedupeStep, hnull]
    by_cases hkeep : last = true ∨
        keyText rendering keys (.object row) ∉ done.map fun row => keyText rendering keys (.object row)
    · rw [if_pos hkeep, JsonMap.lookup_set, h.byKey]
      by_cases hhash : hash = keyText rendering keys (.object row)
      · subst hhash
        rw [if_pos rfl, if_pos ⟨rfl, hkeep⟩]
        rfl
      · rw [if_neg hhash, if_neg fun heq => hhash heq.1.symm]
    · rw [if_neg hkeep, h.byKey, if_neg]
      rintro ⟨rfl, hor⟩
      exact hkeep hor

/-- **What all rows do.** -/
theorem dedupeInv_foldl (rows : List JsonMap) {state : JsonMap × List String}
    (h : DedupeInv rendering keys last done state) :
    DedupeInv rendering keys last (done ++ rows)
      ((rows.map Json.object).foldl (dedupeStep rendering keys last) state) := by
  induction rows generalizing done state with
  | nil => simpa using h
  | cons row rows ih =>
    have hstep := ih (h.step row)
    rw [append_assoc] at hstep
    exact hstep

/-- **The rows that the handler keeps.** -/
theorem deduped_dedupeRows (rendering : Rendering) (keys : List String) (last : Bool)
    (rows : List JsonMap) :
    ∃ out : List JsonMap, dedupeRows rendering keys last (rows.map Json.object) =
      out.map Json.object ∧
      Deduped last (keyTuple keys) rows out := by
  have hinit : DedupeInv rendering keys last [] ([], []) := ⟨rfl, fun hash => by cases last <;> rfl⟩
  have hinv := dedupeInv_foldl rows hinit
  rw [nil_append] at hinv
  refine ⟨_, ?_, (deduped_comp_iff (renderText_array_injective rendering.numbers)).mp deduped_filterMap⟩
  have hkey : (fun row => renderText rendering.numbers (.array (keyTuple keys row))) =
      fun row => keyText rendering keys (.object row) := by
    funext row
    rw [keyText_object]
  simp only [hkey]
  rw [dedupeRows]
  dsimp only
  rw [hinv.order]
  have hget : ∀ hashes : List String,
      (∀ hash ∈ hashes, hash ∈ rows.map fun row => keyText rendering keys (.object row)) →
      hashes.map ((rows.map Json.object).foldl (dedupeStep rendering keys last) ([], [])).1.get =
        (hashes.filterMap (pick last (fun row => keyText rendering keys (.object row)) rows)).map Json.object := by
    intro hashes hmem
    induction hashes with
    | nil => rfl
    | cons hash hashes ih =>
      rw [forall_mem_cons] at hmem
      obtain ⟨row, hrow⟩ := Option.isSome_iff_exists.mp ((pick_isSome last).mpr hmem.1)
      rw [map_cons, filterMap_cons_some hrow, map_cons, ih hmem.2, JsonMap.get, hinv.byKey, hrow]
      rfl
  exact hget _ fun hash hhash => mem_eraseDups.mp hhash

/-! ## The loop of the merge -/

theorem map_unionRows (seen : List String) (rows : List Json) :
    (unionRows rendering seen rows).map (marshal rendering.numbers) =
      ((rows.map (marshal rendering.numbers)).filter (· ∉ seen)).eraseDups := by
  induction rows generalizing seen with
  | nil => rfl
  | cons row rows ih =>
    rw [unionRows]
    by_cases hseen : marshal rendering.numbers row ∈ seen
    · rw [if_pos hseen, ih, map_cons, filter_cons_of_neg (by simpa using hseen)]
    · rw [if_neg hseen, map_cons, ih, map_cons,
        filter_cons_of_pos (by simpa using hseen), eraseDups_cons, filter_filter]
      congr 2
      apply filter_congr
      intro text _
      by_cases htext : text = marshal rendering.numbers row
      · simp [htext]
      · simp [htext, beq_eq_false_iff_ne.mpr htext]

theorem find?_unionRows {seen : List String} {rows : List Json} {row : Json}
    (h : row ∈ unionRows rendering seen rows) :
    marshal rendering.numbers row ∉ seen ∧
      rows.find? (fun other => marshal rendering.numbers other = marshal rendering.numbers row) = some row := by
  induction rows generalizing seen with
  | nil => cases h
  | cons first rows ih =>
    rw [unionRows] at h
    by_cases hseen : marshal rendering.numbers first ∈ seen
    · rw [if_pos hseen] at h
      obtain ⟨hnot, hfind⟩ := ih h
      refine ⟨hnot, ?_⟩
      have hne : marshal rendering.numbers first ≠ marshal rendering.numbers row :=
        fun heq => hnot (heq ▸ hseen)
      rw [find?_cons_of_neg (by simpa using hne), hfind]
    · rw [if_neg hseen] at h
      rcases mem_cons.mp h with rfl | h
      · exact ⟨hseen, by simp⟩
      · obtain ⟨hnot, hfind⟩ := ih h
        rw [mem_cons, not_or] at hnot
        refine ⟨hnot.2, ?_⟩
        rw [find?_cons_of_neg (by simpa using Ne.symm hnot.1), hfind]

/-- **The rows that the merge keeps.** -/
theorem deduped_unionRows (rendering : Rendering) (rows : List Json) :
    Deduped false Json.normalize rows (unionRows rendering [] rows) := by
  apply (deduped_comp_iff (renderText_injective rendering.numbers)).mp
  apply Deduped.of_keys
  · show (unionRows rendering [] rows).map (marshal rendering.numbers) =
      (rows.map (marshal rendering.numbers)).eraseDups
    rw [map_unionRows]
    simp
  · intro row hrow
    exact (find?_unionRows hrow).2

/-! ## Both obey one law -/

/-- **The laws of deduplication.** With a key that names a field at least, the handler keeps one row
for each tuple of values, the first or the last one, in the order in which the tuples occur first,
and a second time it changes nothing. The same is true of the union of arrays, with whole rows as
keys. -/
theorem dedupeHandler_laws {cfg : JsonMap}
    (hkeys : keyFields rendering.toFormatting (cfg.get "key") ≠ []) :
    (∀ rows : List JsonMap, ∃ out : List JsonMap,
      dedupeHandler rendering cfg (.array (rows.map Json.object)) = .ok (.array (out.map Json.object)) ∧
      Deduped (cfg.get "keep" = .string "last") (keyTuple (keyFields rendering.toFormatting (cfg.get "key")))
        rows out ∧
      dedupeHandler rendering cfg (.array (out.map Json.object)) = .ok (.array (out.map Json.object))) ∧
    ∀ (arrays : List (List Json)) (joinKey : String), ∃ out : List Json,
      mergeArrays rendering "union" arrays joinKey = .ok out ∧
      Deduped false Json.normalize arrays.flatten out ∧
      mergeArrays rendering "union" [out] joinKey = .ok out := by
  have hhandler : ∀ rows : List JsonMap, ∃ out : List JsonMap,
      dedupeHandler rendering cfg (.array (rows.map Json.object)) = .ok (.array (out.map Json.object)) ∧
      Deduped (cfg.get "keep" = .string "last") (keyTuple (keyFields rendering.toFormatting (cfg.get "key")))
        rows out := by
    intro rows
    obtain ⟨out, hout, hlaw⟩ := deduped_dedupeRows rendering (keyFields rendering.toFormatting (cfg.get "key"))
      (cfg.get "keep" = .string "last") rows
    refine ⟨out, ?_, hlaw⟩
    rw [dedupeHandler, if_neg hkeys, hout]
  refine ⟨?_, ?_⟩
  · intro rows
    obtain ⟨out, hout, hlaw⟩ := hhandler rows
    obtain ⟨out', hout', hlaw'⟩ := hhandler out
    rw [hlaw.idempotent hlaw'] at hout'
    exact ⟨out, hout, hlaw, hout'⟩
  · intro arrays joinKey
    have hlaw := deduped_unionRows rendering arrays.flatten
    have hunion : ∀ arrays, mergeArrays rendering "union" arrays joinKey =
        .ok (unionRows rendering [] arrays.flatten) := fun _ => rfl
    refine ⟨_, hunion arrays, hlaw, ?_⟩
    rw [hunion, flatten_singleton, hlaw.idempotent (deduped_unionRows rendering _)]

end laws

/-- Of two rows with one key the last one. -/
theorem dedupeHandler_laws_last : ∃ out : List JsonMap,
      dedupeHandler textRendering [("key", .string "id"), ("keep", .string "last")]
        (.array ([[("id", .string "a")], [("id", .string "a"), ("v", .null)]].map Json.object)) =
          .ok (.array (out.map Json.object)) ∧
      Deduped true (keyTuple ["id"]) [[("id", .string "a")], [("id", .string "a"), ("v", .null)]] out := by
  have hkeys :
      keyFields textRendering.toFormatting (JsonMap.get [("key", .string "id"), ("keep", .string "last")]
      "key") = ["id"] := by decide +kernel
  have hne :
      keyFields textRendering.toFormatting (JsonMap.get [("key", .string "id"), ("keep", .string "last")]
      "key") ≠ [] := by simp [hkeys]
  obtain ⟨out, hout, hlaw, -⟩ := (dedupeHandler_laws hne).1
    [[("id", .string "a")], [("id", .string "a"), ("v", .null)]]
  rw [hkeys] at hlaw
  exact ⟨out, hout, hlaw⟩

end Dataflow.Connectors
