import Dataflow.Connectors.MergeArrays
import Dataflow.Library.Classes
import Dataflow.Model.GoMaps
import Mathlib.Data.List.Sections

/-!
# The joins of a merge

`MergeArrays` joins its first two inputs through a map from the texts of the join key to rows, which
keeps one row for each text. The relational join takes rows of all inputs, and joins those whose
keys are equal values.

* `combinations`, `expectedRows`: the relational join of all inputs.
* `JoinAgrees`: the code returns the rows of the relational join, in any order.
* `OneRowPerText`: for a text of the key, the relational join has the rows the code can return for
  it; `joinAgrees_of_oneRowPerText`: if this is so for every text, the code agrees with the join.
* `KeyedInputs`: the keys tell the rows of two inputs apart, wherever the code returns rows.
* **`mergeArrays_joins`**: inputs whose keys do so are joined.
* `joined_once`: a row that has two partners.

Source: `transforms.go` `MergeArrays`
-/

namespace Dataflow.Connectors

open Activities Library Model List Option

/-! ## The relational join -/

section relational

variable (joinKey : String)

/-- The join keys of the rows are there, not null, and equal as JSON values. -/
def Agree (rows : List JsonMap) : Prop :=
  ∀ row ∈ rows, row.get joinKey ≠ .null ∧
    ∀ other ∈ rows, (row.get joinKey).normalize = (other.get joinKey).normalize

instance (rows : List JsonMap) : Decidable (Agree joinKey rows) :=
  inferInstanceAs (Decidable (∀ _ ∈ _, _))

/-- One row of each input, such that the rows agree. -/
def combinations (arrays : List (List JsonMap)) : List (List JsonMap) :=
  if arrays = [] then [] else arrays.sections.filter fun rows => Agree joinKey rows

/-- The fields of all rows, those of later rows over those of earlier ones. -/
def mergeAll (rows : List JsonMap) : JsonMap := rows.foldl JsonMap.writeAll []

/-- The row is in no combination. -/
def Unmatched (arrays : List (List JsonMap)) (row : JsonMap) : Prop :=
  ∀ rows ∈ combinations joinKey arrays, row ∉ rows

instance (arrays : List (List JsonMap)) (row : JsonMap) :
    Decidable (Unmatched joinKey arrays row) :=
  inferInstanceAs (Decidable (∀ _ ∈ _, _))

/-- **The rows of the relational join**: every combination, and the unmatched rows of the first
input or of all inputs. -/
def expectedRows (strategy : String) (arrays : List (List JsonMap)) : List JsonMap :=
  (combinations joinKey arrays).map mergeAll ++ (if strategy = "leftJoin" then arrays.getD 0 []
      else if strategy = "outerJoin" then arrays.flatten
      else []).filter fun row => Unmatched joinKey arrays row

end relational

section property

variable (rendering : Rendering) (strategy : String) (arrays : List (List JsonMap))
  (joinKey : String)

/-- **The code returns the rows of the relational join.** -/
def JoinAgrees : Prop :=
  ∃ out, mergeArrays rendering strategy (arrays.map fun rows => rows.map .object) joinKey = .ok out ∧
    (out.map Json.normalize).Perm
      ((expectedRows joinKey strategy arrays).map fun row => (Json.object row).normalize)

/-- The rows whose key has a text. -/
def rowsWith (text : String) (rows : List JsonMap) : List JsonMap :=
  rows.filter fun row => joinText rendering joinKey row = text

/-- How many rows come from rows with a text: as many as the first input has, for an outer join
one. -/
def rowCount (a b : List JsonMap) : ℕ :=
  if strategy = "innerJoin" then if b = [] then 0 else a.length
  else if strategy = "outerJoin" then if a = [] ∧ b = [] then 0 else 1
  else a.length

/-- **One row for a text**: the relational join has as many rows as come from it, and all of them
are the last row with the text of the first input together with the last one of the second input. -/
def OneRowPerText (text : String) : Prop :=
  let first := rowsWith rendering joinKey text (arrays.getD 0 [])
  let second := rowsWith rendering joinKey text (arrays.getD 1 [])
  let expected := rowsWith rendering joinKey text (expectedRows joinKey strategy arrays)
  expected.length = rowCount strategy first second ∧ ∀ row ∈ expected, (Json.object row).normalize =
      (Json.object (mergeAll (first.getLast?.toList ++ second.getLast?.toList))).normalize

/-- **The keys tell the rows apart**: there are two inputs, rows with one text of the key have keys
that are equal and not null, and where the code returns rows for a text, no input has two rows with
it. -/
structure KeyedInputs : Prop where
  inputs : arrays.length = 2
  equal : ∀ l ∈ arrays.getD 0 [], ∀ r ∈ arrays.getD 1 [],
    joinText rendering joinKey l = joinText rendering joinKey r → Agree joinKey [l, r]
  single : ∀ text, let first := rowsWith rendering joinKey text (arrays.getD 0 [])
    let second := rowsWith rendering joinKey text (arrays.getD 1 [])
    rowCount strategy first second ≠ 0 → first.length ≤ 1 ∧ second.length ≤ 1

end property

/-! ## Merged rows -/

section rows

variable {rendering : Rendering} {joinKey text : String} {row : JsonMap}

theorem lookup_writeAll {m entries : JsonMap} (h : entries.keys.Nodup) (key : String) :
    (m.writeAll entries).lookup key = (entries.lookup key).or (m.lookup key) := by
  induction entries generalizing m with
  | nil => rfl
  | cons entry entries ih =>
    obtain ⟨k, v⟩ := entry
    obtain ⟨hnew, hkeys⟩ := nodup_cons.mp h
    rw [JsonMap.writeAll, foldl_cons, ← JsonMap.writeAll, ih hkeys, JsonMap.lookup_set,
      lookup_cons_ite]
    by_cases hkey : key = k
    · rw [if_pos hkey, if_pos hkey, hkey, JsonMap.lookup_eq_none.mpr hnew]
      rfl
    · rw [if_neg hkey, if_neg hkey]

theorem mergeRow_eq (left right : Option JsonMap) :
    mergeRow left right = mergeAll (left.toList ++ right.toList) := by
  cases left <;> cases right <;> rfl

/-- The text of a key depends on its value at the key. -/
theorem joinText_congr {other : JsonMap} (h : row.lookup joinKey = other.lookup joinKey) :
    joinText rendering joinKey row = joinText rendering joinKey other := by
  rw [joinText, joinText, JsonMap.get, JsonMap.get, h]

theorem joinText_writeAll_nil (h : row.keys.Nodup) :
    joinText rendering joinKey (JsonMap.writeAll [] row) = joinText rendering joinKey row := by
  apply joinText_congr
  rw [lookup_writeAll h]
  exact or_none

/-- **Rows with one text** make a row with it. -/
theorem joinText_mergeAll {left right : Option JsonMap} (hsome : left.isSome ∨ right.isSome)
    (hleft : ∀ row ∈ left, row.keys.Nodup ∧ joinText rendering joinKey row = text)
    (hright : ∀ row ∈ right, row.keys.Nodup ∧ joinText rendering joinKey row = text) :
    joinText rendering joinKey (mergeAll (left.toList ++ right.toList)) = text := by
  cases left with
  | none =>
    cases right with
    | none => simp at hsome
    | some r =>
      obtain ⟨hkeys, htext⟩ := hright r rfl
      exact (joinText_writeAll_nil hkeys).trans htext
  | some l =>
    obtain ⟨hkeys, htext⟩ := hleft l rfl
    cases right with
    | none => exact (joinText_writeAll_nil hkeys).trans htext
    | some r =>
      obtain ⟨hkeys', htext'⟩ := hright r rfl
      have hlookup : (mergeAll [l, r]).lookup joinKey =
          (r.lookup joinKey).or (l.lookup joinKey) := by
        show ((JsonMap.writeAll [] l).writeAll r).lookup joinKey = _
        rw [lookup_writeAll hkeys', lookup_writeAll hkeys]
        congr 1
        exact or_none
      cases hr : r.lookup joinKey with
      | some value =>
        rw [← htext']
        apply joinText_congr
        rw [hr]
        exact hlookup.trans (by rw [hr]; rfl)
      | none =>
        rw [← htext]
        apply joinText_congr
        exact hlookup.trans (by rw [hr]; rfl)

/-- The text of the key of a row as a JSON value. -/
def textOf (rendering : Rendering) (joinKey : String) (value : Json) : String :=
  joinText rendering joinKey (value.asObject?.getD [])

theorem textOf_normalize (hsprint : ∀ value : Json, rendering.sprint value.normalize = rendering.sprint value)
    (row : JsonMap) :
    textOf rendering joinKey (Json.object row).normalize = joinText rendering joinKey row := by
  have hget : JsonMap.get (Json.normalizeFields row) joinKey = (row.get joinKey).normalize := by
    rw [JsonMap.get, lookup_normalizeFields, JsonMap.get]
    cases row.lookup joinKey <;> rfl
  show stringValue rendering.toFormatting (JsonMap.get (Json.normalizeFields row) joinKey) = _
  rw [hget, joinText]
  cases hvalue : row.get joinKey with
  | null | string value | bool value | number value => rfl
  | array items => exact hsprint (.array items)
  | object fields => exact hsprint (.object fields)

end rows

/-! ## The rows of the code -/

section code

variable {rendering : Rendering} {strategy joinKey text : String} {a b rows : List JsonMap}

theorem indexRow_eq (rows : List JsonMap) (text : String) :
    indexRow rendering joinKey rows text = (rowsWith rendering joinKey text rows).getLast? :=
  getLast?_filter.symm

theorem rowsWith_ne_nil_iff :
    rowsWith rendering joinKey text rows ≠ [] ↔ text ∈ rows.map (joinText rendering joinKey) := by
  rw [← length_pos_iff, length_pos_iff_exists_mem, List.mem_map]
  refine exists_congr fun row => ?_
  rw [rowsWith, mem_filter, decide_eq_true_iff]

theorem mem_indexKeys : text ∈ indexKeys rendering joinKey rows ↔
    rowsWith rendering joinKey text rows ≠ [] := by
  rw [indexKeys, mem_dedup, rowsWith_ne_nil_iff]

/-- The last row with a text. -/
theorem indexRow_isSome :
    (indexRow rendering joinKey rows text).isSome ↔ rowsWith rendering joinKey text rows ≠ [] := by
  rw [indexRow_eq, getLast?_isSome]

theorem of_mem_indexRow {row : JsonMap} (hkeys : ∀ row ∈ rows, row.keys.Nodup)
    (h : row ∈ indexRow rendering joinKey rows text) :
    row.keys.Nodup ∧ joinText rendering joinKey row = text := by
  rw [indexRow_eq] at h
  obtain ⟨hmem, htext⟩ := mem_filter.mp (mem_of_mem_getLast? h)
  exact ⟨hkeys row hmem, of_decide_eq_true htext⟩

/-- The keys of an outer join, each once. -/
theorem outerKeys_spec : (joinKeys rendering "outerJoin" joinKey a b).Nodup ∧
    (text ∈ joinKeys rendering "outerJoin" joinKey a b ↔
      rowsWith rendering joinKey text a ≠ [] ∨ rowsWith rendering joinKey text b ≠ []) := by
  rw [joinKeys, if_pos rfl]
  have hsort := mergeSort_perm (indexKeys rendering joinKey a ++
    (indexKeys rendering joinKey b).filter fun key => (indexRow rendering joinKey a key).isNone)
      fun key key' => decide (key ≤ key')
  have hnone : ∀ key, (indexRow rendering joinKey a key).isNone = true ↔
      rowsWith rendering joinKey key a = [] := by
    intro key
    rw [indexRow_eq, isNone_iff_eq_none, getLast?_eq_none_iff]
  constructor
  · rw [hsort.nodup_iff, nodup_append]
    refine ⟨nodup_dedup _, (nodup_dedup _).filter _, ?_⟩
    rintro key hkey other hother rfl
    have hempty := (hnone key).mp (mem_filter.mp hother).2
    exact mem_indexKeys.mp hkey hempty
  · rw [hsort.mem_iff, mem_append, mem_filter, hnone, mem_indexKeys, mem_indexKeys]
    tauto

/-- How often a text is among the keys. -/
theorem filter_joinKeys : (joinKeys rendering strategy joinKey a b).filter (fun key => key = text) =
      replicate (if strategy = "outerJoin" then
        if rowsWith rendering joinKey text a = [] ∧ rowsWith rendering joinKey text b = [] then 0 else 1
        else (rowsWith rendering joinKey text a).length) text := by
  by_cases houter : strategy = "outerJoin"
  · subst houter
    obtain ⟨hnodup, hmem⟩ := @outerKeys_spec rendering joinKey text a b
    have heq : (joinKeys rendering "outerJoin" joinKey a b).filter (fun key => key = text) =
        replicate ((joinKeys rendering "outerJoin" joinKey a b).count text) text := by
      rw [← filter_eq]
    rw [heq, hnodup.count, if_pos rfl]
    congr 1
    by_cases hnone : rowsWith rendering joinKey text a = [] ∧ rowsWith rendering joinKey text b = []
    · rw [if_pos hnone, if_neg fun h => (hmem.mp h).elim (· hnone.1) (· hnone.2)]
    · rw [if_neg hnone, if_pos (hmem.mpr (by tauto))]
  · rw [if_neg houter, joinKeys, if_neg houter, List.filter_map, eq_replicate_iff]
    refine ⟨length_map _, ?_⟩
    intro key hkey
    obtain ⟨row, hrow, rfl⟩ := List.mem_map.mp hkey
    exact of_decide_eq_true (mem_filter.mp hrow).2

/-- **The rows of the code for a text**: one row, some times. -/
theorem filter_joinRows (hsprint : ∀ value : Json, rendering.sprint value.normalize = rendering.sprint value)
    (ha : ∀ row ∈ a, row.keys.Nodup) (hb : ∀ row ∈ b, row.keys.Nodup) (text : String) :
    ((joinRows rendering strategy joinKey a b).map Json.normalize).filter
        (fun value => textOf rendering joinKey value = text) =
      replicate
        (rowCount strategy (rowsWith rendering joinKey text a) (rowsWith rendering joinKey text b))
        (Json.object (mergeAll ((rowsWith rendering joinKey text a).getLast?.toList ++
          (rowsWith rendering joinKey text b).getLast?.toList))).normalize := by
  have hclass : ∀ key ∈ joinKeys rendering strategy joinKey a b, ∀ value,
      ((if strategy = "innerJoin" ∧ (indexRow rendering joinKey b key).isNone then none
        else some (Json.object (mergeRow (indexRow rendering joinKey a key)
          (indexRow rendering joinKey b key)))).map Json.normalize) = some value →
      textOf rendering joinKey value = key := by
    intro key hkey value hvalue
    split_ifs at hvalue
    · cases hvalue
    · cases hvalue
      rw [textOf_normalize hsprint, mergeRow_eq]
      refine joinText_mergeAll ?_ (fun row => of_mem_indexRow ha) (fun row => of_mem_indexRow hb)
      rw [indexRow_isSome, indexRow_isSome]
      by_cases houter : strategy = "outerJoin"
      · rw [houter] at hkey
        exact outerKeys_spec.2.mp hkey
      · rw [joinKeys, if_neg houter] at hkey
        exact .inl (rowsWith_ne_nil_iff.mpr hkey)
  have hnone : (indexRow rendering joinKey b text).isNone = true ↔
      rowsWith rendering joinKey text b = [] := by
    rw [indexRow_eq, isNone_iff_eq_none, getLast?_eq_none_iff]
  rw [joinRows, map_filterMap, Classes.filter_filterMap_of_class hclass, filter_joinKeys, rowCount]
  by_cases hinner : strategy = "innerJoin"
  · have houter : strategy ≠ "outerJoin" := by
      rw [hinner]
      decide
    rw [if_neg houter, if_pos hinner]
    by_cases hempty : rowsWith rendering joinKey text b = []
    · rw [filterMap_replicate_of_none (by rw [if_pos ⟨hinner, hnone.mpr hempty⟩]; rfl),
        if_pos hempty]
      rfl
    · rw [filterMap_replicate_of_some (by
        rw [if_neg fun h => hempty (hnone.mp h.2), mergeRow_eq, indexRow_eq,
          indexRow_eq]; rfl), if_neg hempty]
  · rw [if_neg hinner, filterMap_replicate_of_some (by
      rw [if_neg fun h => hinner h.1, mergeRow_eq, indexRow_eq, indexRow_eq]; rfl)]

end code

/-! ## Keys that tell the rows apart -/

section keyed

variable {rendering : Rendering} {strategy joinKey : String} {a b : List JsonMap}

/-- Rows with different texts: one for each. -/
theorem length_rowsWith_le {rows : List JsonMap}
    (h : (rows.map (joinText rendering joinKey)).Nodup) (text : String) :
    (rowsWith rendering joinKey text rows).length ≤ 1 := by
  by_cases hmem : text ∈ rows.map (joinText rendering joinKey)
  · obtain ⟨row, hrow, rfl⟩ := List.mem_map.mp hmem
    rw [rowsWith, Lists.filter_key_eq h hrow, length_singleton]
  · rw [← rowsWith_ne_nil_iff, not_not] at hmem
    rw [hmem]
    exact Nat.zero_le 1

/-- Rows whose keys are equal have one text. -/
theorem joinText_eq_of_agree (hsprint : ∀ value : Json, rendering.sprint value.normalize = rendering.sprint value)
    {l r : JsonMap} (h : Agree joinKey [l, r]) :
    joinText rendering joinKey l = joinText rendering joinKey r := by
  have heq := (h l mem_cons_self).2 r (mem_cons_of_mem _ (mem_singleton_self _))
  have htext : ∀ row : JsonMap, joinText rendering joinKey row =
      stringValue rendering.toFormatting (row.get joinKey).normalize := by
    intro row
    rw [joinText]
    cases row.get joinKey with
    | null | string value | bool value | number value => rfl
    | array items => exact (hsprint (.array items)).symm
    | object fields => exact (hsprint (.object fields)).symm
  rw [htext, htext, heq]

theorem mem_combinations_pair {rows : List JsonMap} : rows ∈ combinations joinKey [a, b] ↔
    ∃ l ∈ a, ∃ r ∈ b, rows = [l, r] ∧ Agree joinKey [l, r] := by
  rw [combinations, if_neg (cons_ne_nil _ _), mem_filter, mem_sections, decide_eq_true_iff]
  constructor
  · rintro ⟨hmem, hagree⟩
    cases hmem with
    | cons hl hmem =>
      cases hmem with
      | cons hr hmem =>
        cases hmem
        exact ⟨_, hl, _, hr, rfl, hagree⟩
  · rintro ⟨l, hl, r, hr, rfl, hagree⟩
    exact ⟨.cons hl (.cons hr .nil), hagree⟩

section fixed

variable (hsprint : ∀ value : Json, rendering.sprint value.normalize = rendering.sprint value)
  (h : ∀ l ∈ a, ∀ r ∈ b, joinText rendering joinKey l = joinText rendering joinKey r →
    Agree joinKey [l, r])
  (hkeys : ∀ row ∈ a ++ b, row.keys.Nodup)

include hsprint h

theorem agree_iff {l r : JsonMap} (hl : l ∈ a) (hr : r ∈ b) :
    Agree joinKey [l, r] ↔ joinText rendering joinKey l = joinText rendering joinKey r := by
  constructor
  · exact joinText_eq_of_agree hsprint
  · exact h l hl r hr

/-- The row of the first input has a partner iff the second input has its text. -/
theorem unmatched_iff {row : JsonMap} {text : String}
    (htext : joinText rendering joinKey row = text) :
    (row ∈ a → (Unmatched joinKey [a, b] row ↔ rowsWith rendering joinKey text b = [])) ∧
      (row ∈ b → (Unmatched joinKey [a, b] row ↔ rowsWith rendering joinKey text a = [])) := by
  have hpartner : ∀ {rows other : List JsonMap}, other ∈ combinations joinKey [a, b] → row ∈ other →
      (rows = a ∨ rows = b) → rowsWith rendering joinKey text rows ≠ [] := by
    intro rows other hother hrow hrows
    obtain ⟨l, hl, r, hr, rfl, hagree⟩ := mem_combinations_pair.mp hother
    have hsame := (agree_iff hsprint h hl hr).mp hagree
    have htexts : joinText rendering joinKey l = text ∧ joinText rendering joinKey r = text := by
      rcases mem_cons.mp hrow with rfl | hrow
      · exact ⟨htext, hsame ▸ htext⟩
      · rw [mem_singleton.mp hrow] at htext
        exact ⟨hsame.trans htext, htext⟩
    rw [rowsWith_ne_nil_iff]
    rcases hrows with rfl | rfl
    · exact List.mem_map.mpr ⟨l, hl, htexts.1⟩
    · exact List.mem_map.mpr ⟨r, hr, htexts.2⟩
  constructor
  · intro hrow
    constructor
    · intro hunmatched
      by_contra hsome
      obtain ⟨r, hr, heq⟩ := List.mem_map.mp (rowsWith_ne_nil_iff.mp hsome)
      refine hunmatched [row, r] (mem_combinations_pair.mpr ⟨row, hrow, r, hr, rfl, ?_⟩) mem_cons_self
      exact (agree_iff hsprint h hrow hr).mpr (htext.trans heq.symm)
    · exact fun hnone other hother hmem => hpartner hother hmem (.inr rfl) hnone
  · intro hrow
    constructor
    · intro hunmatched
      by_contra hsome
      obtain ⟨l, hl, heq⟩ := List.mem_map.mp (rowsWith_ne_nil_iff.mp hsome)
      refine hunmatched [l, row] (mem_combinations_pair.mpr ⟨l, hl, row, hrow, rfl, ?_⟩)
        (mem_cons_of_mem _ (mem_singleton_self _))
      exact (agree_iff hsprint h hl hrow).mpr (heq.trans htext.symm)
    · exact fun hnone other hother hmem => hpartner hother hmem (.inl rfl) hnone

include hkeys

/-- **The pairs with a text.** -/
theorem rowsWith_combinations (text : String) :
    rowsWith rendering joinKey text ((combinations joinKey [a, b]).map mergeAll) =
      (rowsWith rendering joinKey text b).flatMap fun r =>
        (rowsWith rendering joinKey text a).map fun l => mergeAll [l, r] := by
  have hsections : [a, b].sections = b.flatMap fun r => a.map fun l => [l, r] := by
    simp [List.sections, flatMap_map]
  have hpair : ∀ r ∈ b, ((a.map fun l => [l, r]).filter fun rows => Agree joinKey rows).filter
      (fun rows => joinText rendering joinKey (mergeAll rows) = text) =
      if joinText rendering joinKey r = text then
        (rowsWith rendering joinKey text a).map fun l => [l, r] else [] := by
    intro r hr
    rw [List.filter_filter, List.filter_map]
    have hmerged :
        ∀ l ∈ a, (Agree joinKey [l, r] ∧ joinText rendering joinKey (mergeAll [l, r]) = text ↔
        joinText rendering joinKey l = text ∧ joinText rendering joinKey r = text) := by
      intro l hl
      rw [agree_iff hsprint h hl hr]
      have hboth : joinText rendering joinKey l = joinText rendering joinKey r →
          joinText rendering joinKey (mergeAll [l, r]) = joinText rendering joinKey r := by
        intro hsame
        refine @joinText_mergeAll _ _ _ (some l) (some r) (.inl rfl) ?_ ?_
        · rintro _ ⟨⟩
          exact ⟨hkeys l (mem_append_left _ hl), hsame⟩
        · rintro _ ⟨⟩
          exact ⟨hkeys r (mem_append_right _ hr), rfl⟩
      constructor
      · rintro ⟨hsame, htext⟩
        rw [hboth hsame] at htext
        exact ⟨hsame.trans htext, htext⟩
      · rintro ⟨hl, hr⟩
        have hsame := hl.trans hr.symm
        exact ⟨hsame, (hboth hsame).trans hr⟩
    split_ifs with htext
    · congr 1
      refine filter_congr fun l hl => ?_
      have := hmerged l hl
      simp only [Function.comp_apply, ← Bool.decide_and, decide_eq_decide]
      rw [and_comm, this, and_iff_left htext]
    · rw [map_eq_nil_iff, filter_eq_nil_iff]
      intro l hl hboth
      simp only [Function.comp_apply, Bool.and_eq_true, decide_eq_true_eq] at hboth
      exact htext ((hmerged l hl).mp hboth.symm).2
  have hfiltered : ((combinations joinKey [a, b]).filter fun rows =>
      joinText rendering joinKey (mergeAll rows) = text) =
      (rowsWith rendering joinKey text b).flatMap fun r =>
        (rowsWith rendering joinKey text a).map fun l => [l, r] := by
    rw [combinations, if_neg (cons_ne_nil _ _), hsections, filter_flatMap,
      filter_flatMap, flatMap_congr hpair]
    exact (Lists.flatMap_filter _ _ _).symm
  rw [rowsWith, List.filter_map]
  refine (congrArg (List.map mergeAll) hfiltered).trans ?_
  rw [map_flatMap]
  simp only [List.map_map]
  rfl

omit hkeys in
/-- **The unmatched rows with a text.** -/
theorem rowsWith_unmatched (text : String) :
    (rowsWith rendering joinKey text (a.filter fun row => Unmatched joinKey [a, b] row) =
      if rowsWith rendering joinKey text b = [] then rowsWith rendering joinKey text a else []) ∧
    (rowsWith rendering joinKey text (b.filter fun row => Unmatched joinKey [a, b] row) =
      if rowsWith rendering joinKey text a = [] then rowsWith rendering joinKey text b else []) := by
  have hfilter : ∀ {rows : List JsonMap} {none : Prop} [Decidable none], (∀ row ∈ rows,
      joinText rendering joinKey row = text → (Unmatched joinKey [a, b] row ↔ none)) →
      rowsWith rendering joinKey text (rows.filter fun row => Unmatched joinKey [a, b] row) =
        if none then rowsWith rendering joinKey text rows else [] := by
    intro rows none _ hrows
    rw [rowsWith, List.filter_filter]
    split_ifs with hnone
    · refine filter_congr fun row hrow => ?_
      by_cases htext : joinText rendering joinKey row = text
      · simp [htext, (hrows row hrow htext).mpr hnone]
      · simp [htext]
    · rw [filter_eq_nil_iff]
      intro row hrow hboth
      simp only [Bool.and_eq_true, decide_eq_true_eq] at hboth
      exact hnone ((hrows row hrow hboth.1).mp hboth.2)
  exact ⟨hfilter fun row hrow htext => (unmatched_iff hsprint h htext).1 hrow,
    hfilter fun row hrow htext => (unmatched_iff hsprint h htext).2 hrow⟩

/-- **Inputs whose keys tell the rows apart** have one row for each text. -/
theorem oneRowPerText_of_keyed
    (hsingle : ∀ text,
      rowCount strategy (rowsWith rendering joinKey text a) (rowsWith rendering joinKey text b) ≠ 0 →
        (rowsWith rendering joinKey text a).length ≤ 1 ∧ (rowsWith rendering joinKey text b).length ≤ 1)
    (hstrategy : strategy = "innerJoin" ∨ strategy = "leftJoin" ∨ strategy = "outerJoin")
    (text : String) :
    OneRowPerText rendering strategy [a, b] joinKey text := by
  have hself : ∀ row ∈ a ++ b, (Json.object row).normalize =
      (Json.object (mergeAll [row])).normalize := by
    intro row hrow
    refine normalize_object_eq_iff.mpr fun key => ?_
    show _ = ((JsonMap.writeAll [] row).lookup key).map _
    rw [lookup_writeAll (hkeys row hrow)]
    exact congrArg _ or_none.symm
  have happend : ∀ rows rows' : List JsonMap, rowsWith rendering joinKey text (rows ++ rows') =
      rowsWith rendering joinKey text rows ++ rowsWith rendering joinKey text rows' := fun _ _ =>
    filter_append _ _
  obtain ⟨hfirst, hsecond⟩ := rowsWith_unmatched hsprint h text
  have hextra : rowsWith rendering joinKey text (expectedRows joinKey strategy [a, b]) =
      ((rowsWith rendering joinKey text b).flatMap fun r =>
        (rowsWith rendering joinKey text a).map fun l => mergeAll [l, r]) ++
        (if strategy ≠ "innerJoin" ∧ rowsWith rendering joinKey text b = [] then
          rowsWith rendering joinKey text a else []) ++
        (if strategy = "outerJoin" ∧ rowsWith rendering joinKey text a = [] then
          rowsWith rendering joinKey text b else []) := by
    rw [expectedRows, happend, rowsWith_combinations hsprint h hkeys, append_assoc]
    congr 1
    rcases hstrategy with rfl | rfl | rfl
    · rfl
    · rw [if_pos rfl, getD_cons_zero, hfirst]
      simp
    · rw [if_neg (by decide), if_pos rfl, flatten_cons, flatten_cons, flatten_nil,
        append_nil, filter_append, happend, hfirst, hsecond]
      simp
  unfold OneRowPerText
  rw [hextra, getD_cons_zero, getD_cons_succ, getD_cons_zero]
  have hmemA : ∀ row ∈ rowsWith rendering joinKey text a, row ∈ a ++ b :=
    fun row hrow => mem_append_left _ (mem_of_mem_filter hrow)
  have hmemB : ∀ row ∈ rowsWith rendering joinKey text b, row ∈ a ++ b :=
    fun row hrow => mem_append_right _ (mem_of_mem_filter hrow)
  have hlengths := hsingle text
  generalize rowsWith rendering joinKey text a = first at hmemA hlengths ⊢
  generalize rowsWith rendering joinKey text b = second at hmemB hlengths ⊢
  by_cases hcount : rowCount strategy first second = 0
  · -- the code returns no row for the text, so one of the inputs has none that could be joined
    have hnone : (second = [] ∨ first = []) ∧ (strategy ≠ "innerJoin" → first = []) ∧
        (strategy = "outerJoin" → second = []) := by
      unfold rowCount at hcount
      rcases hstrategy with rfl | rfl | rfl
      · rw [if_pos rfl] at hcount
        split_ifs at hcount with hsecond
        · exact ⟨.inl hsecond, fun h => absurd rfl h, fun h => absurd h (by decide)⟩
        · exact ⟨.inr (length_eq_zero_iff.mp hcount), fun h => absurd rfl h,
            fun h => absurd h (by decide)⟩
      · rw [if_neg (by decide), if_neg (by decide)] at hcount
        have hfirst := length_eq_zero_iff.mp hcount
        exact ⟨.inr hfirst, fun _ => hfirst, fun h => absurd h (by decide)⟩
      · rw [if_neg (by decide), if_pos rfl] at hcount
        split_ifs at hcount with hboth
        exact ⟨.inr hboth.1, fun _ => hboth.1, fun _ => hboth.2⟩
    obtain ⟨hpairs, hleft, hright⟩ := hnone
    have hflat : (second.flatMap fun r => first.map fun l => mergeAll [l, r]) = [] := by
      rcases hpairs with rfl | rfl
      · rfl
      · simp
    have hfirst : (if strategy ≠ "innerJoin" ∧ second = [] then first else []) = [] := by
      split_ifs with hif
      · exact hleft hif.1
      · rfl
    have hsecond : (if strategy = "outerJoin" ∧ first = [] then second else []) = [] := by
      split_ifs with hif
      · exact hright hif.1
      · rfl
    rw [hflat, hfirst, hsecond]
    simp [hcount]
  · obtain ⟨hA, hB⟩ := hlengths hcount
    rcases first with _ | ⟨l, _ | ⟨l', first⟩⟩
    · rcases second with _ | ⟨r, _ | ⟨r', second⟩⟩
      · rcases hstrategy with rfl | rfl | rfl
        all_goals exact absurd rfl hcount
      · have hr := hself r (hmemB r mem_cons_self)
        rcases hstrategy with rfl | rfl | rfl
        · exact absurd rfl hcount
        · exact absurd rfl hcount
        · simp [rowCount, hr]
      · simp at hB
    · rcases second with _ | ⟨r, _ | ⟨r', second⟩⟩
      · have hl := hself l (hmemA l mem_cons_self)
        rcases hstrategy with rfl | rfl | rfl
        · exact absurd rfl hcount
        · simp [rowCount, hl]
        · simp [rowCount, hl]
      · rcases hstrategy with rfl | rfl | rfl
        all_goals simp [rowCount]
      · simp at hB
    · simp at hA

end fixed

end keyed

/-! ## The code and the relational join -/

section joins

variable {rendering : Rendering} {strategy joinKey : String} {arrays : List (List JsonMap)}

theorem mapM_asRow (rows : List JsonMap) : (rows.map Json.object).mapM asRow = .ok rows := by
  induction rows with
  | nil => rfl
  | cons row rows ih =>
    rw [map_cons, mapM_cons, ih]
    rfl

theorem getD_map_object (i : ℕ) :
    (arrays.map fun rows => rows.map Json.object).getD i [] = (arrays.getD i []).map .object := by
  rw [getD_eq_getElem?_getD, getD_eq_getElem?_getD, getElem?_map]
  cases arrays[i]? <;> rfl

/-- What the code returns. -/
theorem mergeArrays_join (hstrategy : strategy = "innerJoin" ∨ strategy = "leftJoin" ∨ strategy = "outerJoin") :
    mergeArrays rendering strategy (arrays.map fun rows => rows.map .object) joinKey =
      if joinKey = "" then .error ("merge strategy " ++ rendering.quote strategy ++ " requires a joinKey")
      else .ok (joinRows rendering strategy joinKey (arrays.getD 0 []) (arrays.getD 1 [])) := by
  have hjoin : strategy ≠ "" ∧ strategy ≠ "concat" ∧ strategy ≠ "union" ∧
      strategy ≠ "appendWithSourceTag" := by
    rcases hstrategy with rfl | rfl | rfl
    all_goals decide
  obtain ⟨hempty, hconcat, hunion, htag⟩ := hjoin
  rw [mergeArrays, if_neg hempty, if_neg hconcat, if_neg hunion, if_neg htag]
  by_cases hkey : joinKey = ""
  · rw [if_pos hkey, if_pos hkey]
  · rw [if_neg hkey, if_neg hkey, getD_map_object, getD_map_object, mapM_asRow, mapM_asRow]
    rfl

/-- The rows of the relational join with a text. -/
theorem filter_expected (hsprint : ∀ value : Json, rendering.sprint value.normalize = rendering.sprint value)
    (rows : List JsonMap) (text : String) :
    ((rows.map fun row => (Json.object row).normalize).filter
      fun value => textOf rendering joinKey value = text) =
      (rowsWith rendering joinKey text rows).map fun row => (Json.object row).normalize := by
  rw [List.filter_map, rowsWith]
  congr 1
  refine filter_congr fun row _ => ?_
  exact congrArg (fun found : String => decide (found = text)) (textOf_normalize hsprint row)

/-- **The code agrees with the relational join** where each text of the key makes one row. `fmt.Sprint`
writes the keys of maps in order. -/
theorem joinAgrees_of_oneRowPerText
    (hsprint : ∀ value : Json, rendering.sprint value.normalize = rendering.sprint value)
    (hstrategy : strategy = "innerJoin" ∨ strategy = "leftJoin" ∨ strategy = "outerJoin")
    (hrows : ∀ rows ∈ arrays, ∀ row ∈ rows, row.keys.Nodup) (hkey : joinKey ≠ "")
    (h : ∀ text, OneRowPerText rendering strategy arrays joinKey text) :
    JoinAgrees rendering strategy arrays joinKey := by
  have hinput : ∀ i, ∀ row ∈ arrays.getD i [], row.keys.Nodup := by
    intro i row hrow
    rw [getD_eq_getElem?_getD] at hrow
    cases hi : arrays[i]? with
    | none =>
      rw [hi] at hrow
      cases hrow
    | some rows =>
      rw [hi] at hrow
      exact hrows rows (mem_of_getElem? hi) row hrow
  have hperm := @Classes.perm_iff_of_replicate _ _ _ (textOf rendering joinKey) _
    ((joinRows rendering strategy joinKey (arrays.getD 0 []) (arrays.getD 1 [])).map Json.normalize)
    ((expectedRows joinKey strategy arrays).map fun row => (Json.object row).normalize) _ _
    (filter_joinRows hsprint (hinput 0) (hinput 1))
  unfold JoinAgrees
  rw [mergeArrays_join hstrategy, if_neg hkey]
  refine ⟨_, rfl, hperm.mpr fun text => ?_⟩
  rw [filter_expected hsprint, length_map, List.forall_mem_map]
  exact h text

/-- **Inputs whose keys tell the rows apart are joined**, whatever the strategy. `fmt.Sprint` writes
the keys of maps in order.
Source: `transforms.go` `MergeArrays` -/
theorem mergeArrays_joins (rendering : Rendering)
    (hsprint : ∀ value : Json, rendering.sprint value.normalize = rendering.sprint value)
    (strategy : String) (hstrategy : strategy = "innerJoin" ∨ strategy = "leftJoin" ∨
      strategy = "outerJoin")
    (arrays : List (List JsonMap)) (hrows : ∀ rows ∈ arrays, ∀ row ∈ rows, row.keys.Nodup)
    (joinKey : String) (hkey : joinKey ≠ "")
    (h : KeyedInputs rendering strategy arrays joinKey) :
    JoinAgrees rendering strategy arrays joinKey := by
  refine joinAgrees_of_oneRowPerText hsprint hstrategy hrows hkey fun text => ?_
  obtain ⟨hinputs, hequal, hsingle⟩ := h
  obtain ⟨a, b, rfl⟩ := length_eq_two.mp hinputs
  have hkeys : ∀ row ∈ a ++ b, row.keys.Nodup := by
    intro row hrow
    rcases mem_append.mp hrow with hrow | hrow
    · exact hrows a mem_cons_self row hrow
    · exact hrows b (mem_cons_of_mem _ (mem_singleton_self _)) row hrow
  exact oneRowPerText_of_keyed hsprint hequal hkeys hsingle hstrategy text

/-- Orders, one of them without a customer, and the names of the customers. -/
def orderRows : List JsonMap :=
  [[("id", .string "1"), ("total", .string "5")], [("id", .string "2"), ("total", .string "7")],
    [("total", .string "9")]]

def customerRows : List JsonMap :=
  [[("id", .string "2"), ("name", .string "b")], [("id", .string "3"), ("name", .string "c")]]

/-- The theorem at inputs whose keys tell the rows apart. -/
theorem mergeArrays_joins_orders :
    JoinAgrees textRendering "outerJoin" [orderRows, customerRows] "id" := by
  refine mergeArrays_joins textRendering (fun _ => rfl) "outerJoin" (.inr (.inr rfl))
    [orderRows, customerRows] (by decide) "id" (by decide) ⟨rfl, by decide, ?_⟩
  intro text first second _
  exact ⟨length_rowsWith_le (by decide) text, length_rowsWith_le (by decide) text⟩

/-- **A row with two partners** is joined with one of them. -/
theorem joined_once : ¬ ∀ (strategy : String) (arrays : List (List JsonMap)) (joinKey : String),
    (strategy = "innerJoin" ∨ strategy = "leftJoin" ∨ strategy = "outerJoin") →
    (∀ rows ∈ arrays, ∀ row ∈ rows, row.keys.Nodup) → joinKey ≠ "" →
    JoinAgrees textRendering strategy arrays joinKey := by
  intro h
  obtain ⟨out, hout, hperm⟩ := h "innerJoin" [[[("id", .string "1")]],
    [[("id", .string "1"), ("x", .string "p")], [("id", .string "1"), ("x", .string "q")]]] "id" (.inl rfl)
    (by decide) (by decide)
  have hone : out.length = 1 := by
    rw [mergeArrays_join (.inl rfl), if_neg (by decide)] at hout
    cases hout
    decide
  have htwo := hperm.length_eq
  rw [length_map, hone] at htwo
  revert htwo
  decide

end joins

end Dataflow.Connectors
