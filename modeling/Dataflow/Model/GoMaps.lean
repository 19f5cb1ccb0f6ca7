import Dataflow.Library.Lists
import Dataflow.Model.Marshal

/-!
# Decoded values as Go has them

A map of a decoded value has each key once and no order. A list of fields is such a map if its keys
are distinct, and two lists stand for one map if their normal forms are equal.

* `Json.DistinctKeys`: all maps of a value have each key once.
* `normalize_normalize`: a normal form is its own normal form.
* `normalizeFields_perm`: the normal form of a map has the same fields in another order;
  `normalize_object_eq_of_perm`: two lists of the same fields are equal as JSON values.
* `JsonMap.writeAll`: fields written one after the other; `length_writeAll_iff`: none is lost iff
  their keys are distinct.
-/

namespace Dataflow.Model

open List

/-! ## Distinct keys -/

mutual

/-- All maps of a value have each key once. -/
def Json.DistinctKeys : Json → Prop
  | .array items => Json.DistinctItems items
  | .object fields => (JsonMap.keys fields).Nodup ∧ Json.DistinctFields fields
  | _ => True

/-- All maps of the items have each key once. -/
def Json.DistinctItems : List Json → Prop
  | [] => True
  | item :: items => item.DistinctKeys ∧ Json.DistinctItems items

/-- All maps of the fields have each key once. -/
def Json.DistinctFields : JsonMap → Prop
  | [] => True
  | (_, value) :: fields => value.DistinctKeys ∧ Json.DistinctFields fields

end

/-! ## Normal forms -/

mutual

/-- **A normal form** is its own normal form. -/
theorem normalize_normalize (value : Json) : value.normalize.normalize = value.normalize := by
  match value with
  | .null | .bool _ | .number _ | .string _ => rfl
  | .array items =>
    rw [Json.normalize, Json.normalize, normalize_normalizeItems items]
  | .object fields =>
    show (Json.object (Json.normalizeFields fields)).normalize = (Json.object fields).normalize
    rw [normalize_object_eq_iff]
    intro key
    rw [lookup_normalizeFields, Option.map_map]
    cases hlookup : fields.lookup key with
    | none => rfl
    | some value =>
      exact congrArg some (normalize_normalizeFields fields (key, value) (Library.Lists.mem_of_lookup hlookup))

theorem normalize_normalizeItems (items : List Json) :
    Json.normalizeItems (Json.normalizeItems items) = Json.normalizeItems items := by
  match items with
  | [] => rfl
  | item :: items =>
    rw [Json.normalizeItems, Json.normalizeItems, normalize_normalize item,
      normalize_normalizeItems items]

theorem normalize_normalizeFields (fields : JsonMap) :
    ∀ entry ∈ fields, entry.2.normalize.normalize = entry.2.normalize := by
  match fields with
  | [] => exact fun _ h => absurd h not_mem_nil
  | (key, value) :: fields =>
    intro entry hentry
    rcases mem_cons.mp hentry with rfl | hentry
    · exact normalize_normalize value
    · exact normalize_normalizeFields fields entry hentry

end

/-- A field with its normal form. -/
def normalField (entry : String × Json) : String × Json := (entry.1, entry.2.normalize)

theorem insertField_perm {key : String} {value : Json} {m : JsonMap} (h : key ∉ m.keys) :
    (insertField key value m).Perm ((key, value) :: m) := by
  induction m with
  | nil => exact List.Perm.refl _
  | cons entry m ih =>
    obtain ⟨k, v⟩ := entry
    rw [JsonMap.keys, map_cons, mem_cons, not_or] at h
    rw [insertField]
    split_ifs with hlt hk
    · exact List.Perm.refl _
    · exact absurd hk h.1
    · exact ((ih h.2).cons _).trans (List.Perm.swap _ _ _)

/-- **The normal form of a map** has the normal forms of its fields. -/
theorem normalizeFields_perm {m : JsonMap} (h : m.keys.Nodup) :
    (Json.normalizeFields m).Perm (m.map normalField) := by
  induction m with
  | nil => exact List.Perm.refl _
  | cons entry m ih =>
    obtain ⟨k, v⟩ := entry
    obtain ⟨hnew, hkeys⟩ := nodup_cons.mp h
    rw [Json.normalizeFields, map_cons]
    have hperm := ih hkeys
    have hkey : k ∉ (Json.normalizeFields m).keys := by
      intro hmem
      have hmem' : k ∈ (m.map normalField).map Prod.fst := (hperm.map Prod.fst).mem_iff.mp hmem
      rw [map_map] at hmem'
      exact hnew hmem'
    exact (insertField_perm hkey).trans (hperm.cons _)

theorem nodup_keys_of_perm {m m' : JsonMap} (h : m.keys.Nodup)
    (hperm : (m.map normalField).Perm (m'.map normalField)) : m'.keys.Nodup := by
  have hkeys : ∀ n : JsonMap, (n.map normalField).map Prod.fst = n.keys := by
    intro n
    rw [map_map]
    rfl
  rw [← hkeys m', ← (hperm.map Prod.fst).nodup_iff, hkeys m]
  exact h

/-- **Lists of the same fields** are equal as JSON values. -/
theorem normalize_object_eq_of_perm {m m' : JsonMap} (h : m.keys.Nodup)
    (hperm : (m.map normalField).Perm (m'.map normalField)) :
    (Json.object m).normalize = (Json.object m').normalize := by
  have h' := nodup_keys_of_perm h hperm
  have hnormal := (normalizeFields_perm h).trans (hperm.trans (normalizeFields_perm h').symm)
  rw [Json.normalize, Json.normalize, Json.object.injEq]
  refine hnormal.eq_of_pairwise ?_ (keysInOrder_normalizeFields m) (keysInOrder_normalizeFields m')
  intro a b _ _ hab hba
  exact absurd (hab.trans hba) (lt_irrefl _)

/-! ## Writing fields -/

/-- Fields written to a map one after the other. -/
def JsonMap.writeAll (m entries : JsonMap) : JsonMap :=
  entries.foldl (fun out entry => out.set entry.1 entry.2) m

/-- **Distinct new fields** are all added. -/
theorem JsonMap.writeAll_eq_append {m entries : JsonMap} (h : (m.keys ++ entries.keys).Nodup) :
    m.writeAll entries = m ++ entries := by
  induction entries generalizing m with
  | nil => exact (append_nil m).symm
  | cons entry entries ih =>
    have hnew : entry.1 ∉ m.keys := by
      intro hmem
      exact (nodup_append.mp h).2.2 _ hmem _ mem_cons_self rfl
    rw [writeAll, foldl_cons, set_of_not_mem hnew, ← writeAll, ih]
    · rw [append_assoc, singleton_append]
    · rw [keys, map_append, append_assoc]
      exact h

theorem JsonMap.mem_keys_writeAll {m entries : JsonMap} {key : String} :
    key ∈ (m.writeAll entries).keys ↔ key ∈ m.keys ∨ key ∈ entries.keys := by
  induction entries generalizing m with
  | nil => simp [writeAll, keys]
  | cons entry entries ih =>
    rw [writeAll, foldl_cons, ← writeAll, ih, keys_set]
    rw [show keys (entry :: entries) = entry.1 :: keys entries from rfl, mem_cons]
    by_cases hmem : entry.1 ∈ m.keys
    · rw [if_pos hmem]
      constructor
      · exact fun hkey => hkey.imp_right .inr
      · rintro (hkey | rfl | hkey)
        · exact .inl hkey
        · exact .inl hmem
        · exact .inr hkey
    · rw [if_neg hmem, mem_append, mem_singleton, or_assoc]

theorem JsonMap.nodup_keys_writeAll {m : JsonMap} (entries : JsonMap) (h : m.keys.Nodup) :
    (m.writeAll entries).keys.Nodup := by
  induction entries generalizing m with
  | nil => exact h
  | cons entry entries ih => exact ih (nodup_keys_set h entry.1 entry.2)

/-- **No field is lost** iff their keys are distinct. -/
theorem JsonMap.length_writeAll_iff {entries : JsonMap} :
    (JsonMap.writeAll [] entries).length = entries.length ↔ entries.keys.Nodup := by
  constructor
  · intro hlength
    have hnodup : (JsonMap.writeAll [] entries).keys.Nodup :=
      nodup_keys_writeAll entries nodup_nil
    have hsub : (JsonMap.writeAll [] entries).keys ⊆ entries.keys := by
      intro key hkey
      exact (mem_keys_writeAll.mp hkey).resolve_left not_mem_nil
    have hperm := (subperm_of_subset hnodup hsub).perm_of_length_le (by
      rw [keys, keys, length_map, length_map, hlength])
    exact hperm.nodup_iff.mp hnodup
  · intro h
    rw [@writeAll_eq_append [] entries h, nil_append]

end Dataflow.Model
