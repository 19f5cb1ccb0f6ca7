import Mathlib.Data.List.Basic
import Mathlib.Data.List.Induction
import Mathlib.Data.List.Nodup

/-!
# Maps that keep the order of their keys

A map is the list of its entries. A key that is set again keeps its place and gets the new value; a
new key is added at the end.

* `set`, `ofEntries`: one entry, and the entries of a list from left to right.
* `lookup_ofEntries`: **the last entry of a key counts**.
* `ofEntries_of_nodup`: entries with distinct keys are the map.
* `map_set`, `lookup_map`: a map whose keys are renamed.
-/

namespace Dataflow.Library.OrderedMap

open List

variable {K V W : Type*} [DecidableEq K]

/-- The map with a value for a key. -/
def set : List (K × V) → K → V → List (K × V)
  | [], key, value => [(key, value)]
  | (k, v) :: map, key, value =>
    if k = key then (k, value) :: map else (k, v) :: set map key value

/-- The map of entries that are set one after the other. -/
def ofEntries (entries : List (K × V)) : List (K × V) :=
  entries.foldl (fun map entry => set map entry.1 entry.2) []

variable {map entries : List (K × V)} {key k : K} {value v : V}

theorem ofEntries_append (entries : List (K × V)) (entry : K × V) :
    ofEntries (entries ++ [entry]) = set (ofEntries entries) entry.1 entry.2 := by
  rw [ofEntries, foldl_append]
  rfl

theorem lookup_set :
    (set map key value).lookup k = if k = key then some value else map.lookup k := by
  induction map with
  | nil =>
    rw [set, lookup_cons, lookup_nil]
    split_ifs with h
    · rw [h, beq_self_eq_true]
    · rw [beq_false_of_ne h]
  | cons entry map ih =>
    obtain ⟨k', v'⟩ := entry
    rw [set]
    by_cases hkey : k' = key
    · subst hkey
      rw [if_pos rfl, lookup_cons, lookup_cons]
      split_ifs with h
      · rw [h, beq_self_eq_true]
      · rw [beq_false_of_ne h]
    · rw [if_neg hkey, lookup_cons, lookup_cons, ih]
      by_cases h : k = k'
      · subst h
        rw [beq_self_eq_true]
        exact (if_neg hkey).symm
      · rw [beq_false_of_ne h]

/-- **The last entry of a key counts.** -/
theorem lookup_ofEntries : (ofEntries entries).lookup k = entries.reverse.lookup k := by
  induction entries using reverseRecOn with
  | nil => rfl
  | append_singleton entries entry ih =>
    rw [ofEntries_append, lookup_set, ih, reverse_append, reverse_singleton,
      singleton_append, lookup_cons]
    split_ifs with h
    · rw [h, beq_self_eq_true]
    · rw [beq_false_of_ne h]

theorem map_fst_set : (set map key value).map Prod.fst =
    if key ∈ map.map Prod.fst then map.map Prod.fst else map.map Prod.fst ++ [key] := by
  induction map with
  | nil => rfl
  | cons entry map ih =>
    obtain ⟨k', v'⟩ := entry
    rw [set, map_cons]
    by_cases h : k' = key
    · subst h
      rw [if_pos rfl, if_pos mem_cons_self, map_cons]
    · rw [if_neg h, map_cons, ih]
      by_cases hmem : key ∈ map.map Prod.fst
      · rw [if_pos hmem, if_pos (mem_cons_of_mem k' hmem)]
      · have hnot : key ∉ k' :: map.map Prod.fst :=
          not_mem_cons_of_ne_of_not_mem (Ne.symm h) hmem
        rw [if_neg hmem, if_neg hnot, cons_append]

theorem nodup_set (h : (map.map Prod.fst).Nodup) (key : K) (value : V) :
    ((set map key value).map Prod.fst).Nodup := by
  rw [map_fst_set]
  split_ifs with hmem
  · exact h
  · exact h.append (nodup_singleton _) (disjoint_singleton.mpr hmem)

theorem mem_map_fst_set : k ∈ (set map key value).map Prod.fst ↔
    k ∈ map.map Prod.fst ∨ k = key := by
  rw [map_fst_set]
  split_ifs with hmem
  · exact (or_iff_left_of_imp fun heq => heq ▸ hmem).symm
  · rw [mem_append, mem_singleton]

/-- An entry of a map with one value more is this one or an entry of the map. -/
theorem mem_of_mem_set {entry : K × V} (h : entry ∈ set map key value) :
    entry = (key, value) ∨ entry ∈ map := by
  induction map with
  | nil => exact .inl (mem_singleton.mp h)
  | cons first map ih =>
    obtain ⟨k', v'⟩ := first
    rw [set] at h
    split_ifs at h with hkey
    · rcases mem_cons.mp h with rfl | hmem
      · exact .inl (by rw [hkey])
      · exact .inr (mem_cons_of_mem _ hmem)
    · rcases mem_cons.mp h with rfl | hmem
      · exact .inr mem_cons_self
      · exact (ih hmem).imp_right (mem_cons_of_mem _)

/-- A value that is there already changes nothing. -/
theorem set_of_lookup (h : map.lookup key = some value) : set map key value = map := by
  induction map with
  | nil => cases h
  | cons entry map ih =>
    obtain ⟨k', v'⟩ := entry
    rw [lookup_cons] at h
    rw [set]
    by_cases hkey : k' = key
    · subst hkey
      rw [beq_self_eq_true] at h
      rw [if_pos rfl, Option.some.inj h]
    · rw [beq_false_of_ne (Ne.symm hkey)] at h
      rw [if_neg hkey, ih h]

/-- No key occurs twice. -/
theorem nodup_ofEntries (entries : List (K × V)) : ((ofEntries entries).map Prod.fst).Nodup := by
  induction entries using reverseRecOn with
  | nil => exact nodup_nil
  | append_singleton entries entry ih =>
    rw [ofEntries_append]
    exact nodup_set ih _ _

theorem mem_iff_lookup (hnodup : (map.map Prod.fst).Nodup) :
    (k, v) ∈ map ↔ map.lookup k = some v := by
  induction map with
  | nil => exact iff_of_false not_mem_nil fun h => by cases h
  | cons entry map ih =>
    obtain ⟨k', v'⟩ := entry
    rw [map_cons, nodup_cons] at hnodup
    rw [mem_cons, lookup_cons, ih hnodup.2, Prod.mk.injEq]
    by_cases h : k = k'
    · subst h
      rw [beq_self_eq_true, Option.some.injEq]
      have hnone : map.lookup k ≠ some v := fun hlookup =>
        hnodup.1 (mem_map.mpr ⟨_, (ih hnodup.2).mpr hlookup, rfl⟩)
      simp [hnone, eq_comm]
    · rw [beq_false_of_ne h]
      simp [h]

/-- Entries with distinct keys are the map. -/
theorem ofEntries_of_nodup (h : (entries.map Prod.fst).Nodup) : ofEntries entries = entries := by
  have hset : ∀ (map : List (K × V)) (entry : K × V), entry.1 ∉ map.map Prod.fst →
      set map entry.1 entry.2 = map ++ [entry] := by
    intro map entry hentry
    induction map with
    | nil => rfl
    | cons first map ih =>
      rw [map_cons, mem_cons, not_or] at hentry
      rw [set, if_neg (Ne.symm hentry.1), ih hentry.2, cons_append]
  induction entries using reverseRecOn with
  | nil => rfl
  | append_singleton entries entry ih =>
    rw [map_append, nodup_append] at h
    rw [ofEntries_append, ih h.1, hset entries entry]
    intro hmem
    exact h.2.2 _ hmem _ (mem_singleton_self _) rfl

/-! ## Renamed keys -/

section rename

variable {K' V' : Type*} [DecidableEq K'] {f : K → K'} (hf : Function.Injective f) (g : V → V')

include hf

theorem lookup_map : (map.map (Prod.map f g)).lookup (f k) = (map.lookup k).map g := by
  induction map with
  | nil => rfl
  | cons entry map ih =>
    obtain ⟨k', v'⟩ := entry
    rw [map_cons, Prod.map_apply, lookup_cons, lookup_cons, ih]
    by_cases h : k = k'
    · rw [h, beq_self_eq_true, beq_self_eq_true]
      rfl
    · rw [beq_false_of_ne h, beq_false_of_ne (hf.ne h)]

theorem map_set : (set map key value).map (Prod.map f g) =
    set (map.map (Prod.map f g)) (f key) (g value) := by
  induction map with
  | nil => rfl
  | cons entry map ih =>
    obtain ⟨k', v'⟩ := entry
    rw [set, map_cons, Prod.map_apply, set]
    by_cases h : k' = key
    · rw [if_pos h, if_pos (congrArg f h), map_cons, Prod.map_apply]
    · rw [if_neg h, if_neg (hf.ne h), map_cons, ih, Prod.map_apply]

end rename

end Dataflow.Library.OrderedMap
