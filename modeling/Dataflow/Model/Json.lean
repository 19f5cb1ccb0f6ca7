import Mathlib.Data.Rat.Defs

/-!
# Loose JSON values

The Go code passes node configs, cursors and result metadata around as `map[string]interface{}`
decoded from JSON. `Json` is such a decoded value and `JsonMap` such a map.

* Numbers are rationals: a decoded number is a `float64`, hence rational. Where the rounding of
  `float64` matters the module that uses the number says so.
* A map is its list of fields, read with `JsonMap.get`; reading an absent key gives the nil
  interface, which is also what the JSON `null` decodes to, so both are `Json.null`.
-/

namespace Dataflow.Model

open List

/-- Go's `unicode.IsSpace`. -/
def isSpace (c : Char) : Bool :=
  c.toNat ∈ [0x09, 0x0A, 0x0B, 0x0C, 0x0D, 0x20, 0x85, 0xA0, 0x1680, 0x2028, 0x2029, 0x202F, 0x205F,
    0x3000] || (0x2000 ≤ c.toNat && c.toNat ≤ 0x200A)

/-- A decoded JSON value (`interface{}` holding the result of `json.Unmarshal`). A number is its value:
`-0`, which the decoder keeps apart, is `0` here. -/
inductive Json where
  | null
  | bool (value : Bool)
  | number (value : ℚ)
  | string (value : String)
  | array (items : List Json)
  | object (fields : List (String × Json))
  deriving Inhabited

/-- A decoded JSON object (`map[string]interface{}`). -/
abbrev JsonMap := List (String × Json)

/-! ## Equality is decidable -/

mutual

/-- Equality test of two values. -/
def Json.decEq (a b : Json) : Decidable (a = b) :=
  match a, b with
  | .null, .null => isTrue rfl
  | .bool x, .bool y => decidable_of_iff (x = y) (by simp)
  | .number x, .number y => decidable_of_iff (x = y) (by simp)
  | .string x, .string y => decidable_of_iff (x = y) (by simp)
  | .array xs, .array ys =>
    match Json.decEqItems xs ys with
    | isTrue h => isTrue (congrArg Json.array h)
    | isFalse h => isFalse fun he => h (Json.array.inj he)
  | .object xs, .object ys =>
    match Json.decEqFields xs ys with
    | isTrue h => isTrue (congrArg Json.object h)
    | isFalse h => isFalse fun he => h (Json.object.inj he)
  | .null, .bool _ | .null, .number _ | .null, .string _ | .null, .array _ | .null, .object _
  | .bool _, .null | .bool _, .number _ | .bool _, .string _ | .bool _, .array _
  | .bool _, .object _ | .number _, .null | .number _, .bool _ | .number _, .string _
  | .number _, .array _ | .number _, .object _ | .string _, .null | .string _, .bool _
  | .string _, .number _ | .string _, .array _ | .string _, .object _ | .array _, .null
  | .array _, .bool _ | .array _, .number _ | .array _, .string _ | .array _, .object _
  | .object _, .null | .object _, .bool _ | .object _, .number _ | .object _, .string _
  | .object _, .array _ => isFalse (by simp)

/-- Equality test of two arrays, item by item. -/
def Json.decEqItems (xs ys : List Json) : Decidable (xs = ys) :=
  match xs, ys with
  | [], [] => isTrue rfl
  | x :: xs, y :: ys =>
    match Json.decEq x y, Json.decEqItems xs ys with
    | isTrue h, isTrue hs => isTrue (by rw [h, hs])
    | isFalse h, _ => isFalse fun he => h (cons.inj he).1
    | _, isFalse hs => isFalse fun he => hs (cons.inj he).2
  | [], _ :: _ | _ :: _, [] => isFalse (by simp)

/-- Equality test of two field lists, field by field. -/
def Json.decEqFields (xs ys : JsonMap) : Decidable (xs = ys) :=
  match xs, ys with
  | [], [] => isTrue rfl
  | (k, x) :: xs, (l, y) :: ys =>
    match (inferInstance : Decidable (k = l)), Json.decEq x y, Json.decEqFields xs ys with
    | isTrue hk, isTrue h, isTrue hs => isTrue (by rw [hk, h, hs])
    | isFalse hk, _, _ => isFalse fun he => hk (Prod.mk.inj (cons.inj he).1).1
    | _, isFalse h, _ => isFalse fun he => h (Prod.mk.inj (cons.inj he).1).2
    | _, _, isFalse hs => isFalse fun he => hs (cons.inj he).2
  | [], _ :: _ | _ :: _, [] => isFalse (by simp)

end

instance : DecidableEq Json := Json.decEq

/-! ## Maps -/

/-- `m[key]`: the nil interface for an absent key. -/
def JsonMap.get (m : JsonMap) (key : String) : Json := (m.lookup key).getD .null

/-- `m[key] = value`. -/
def JsonMap.set : JsonMap → String → Json → JsonMap
  | [], key, value => [(key, value)]
  | (k, v) :: m, key, value =>
    if k = key then (k, value) :: m else (k, v) :: JsonMap.set m key value

/-- The keys of a map. -/
def JsonMap.keys (m : JsonMap) : List String := m.map Prod.fst

/-- The type assertion `value.(map[string]interface{})`. -/
def Json.asObject? : Json → Option JsonMap
  | .object fields => some fields
  | _ => none

/-- The type assertion `value.(string)`. -/
def Json.asString? : Json → Option String
  | .string s => some s
  | _ => none

/-! ## Reading and writing -/

/-- A new key is added at the end. -/
theorem JsonMap.set_of_not_mem {m : JsonMap} {key : String} (h : key ∉ m.keys) (value : Json) :
    m.set key value = m ++ [(key, value)] := by
  induction m with
  | nil => rfl
  | cons entry m ih =>
    obtain ⟨k, v⟩ := entry
    rw [JsonMap.keys, map_cons, mem_cons, not_or] at h
    rw [JsonMap.set, if_neg (Ne.symm h.1), ih h.2, cons_append]

/-- An absent key. -/
theorem JsonMap.lookup_eq_none {m : JsonMap} {key : String} :
    m.lookup key = none ↔ key ∉ m.keys := by
  induction m with
  | nil => simp [JsonMap.keys]
  | cons entry m ih =>
    obtain ⟨k, v⟩ := entry
    rw [JsonMap.keys] at ih ⊢
    rw [map_cons, mem_cons, not_or, ← ih, lookup_cons]
    by_cases h : key = k
    · simp [h]
    · simp [h, beq_eq_false_iff_ne.mpr h]

/-- What is read after a write. -/
theorem JsonMap.lookup_set (m : JsonMap) (key other : String) (value : Json) :
    (m.set key value).lookup other = if other = key then some value else m.lookup other := by
  induction m with
  | nil =>
    rw [JsonMap.set, lookup_cons]
    split_ifs with h
    · rw [h, beq_self_eq_true]
    · rw [beq_eq_false_iff_ne.mpr h]
  | cons entry m ih =>
    obtain ⟨k, v⟩ := entry
    rw [JsonMap.set]
    by_cases hk : k = key
    · subst hk
      rw [if_pos rfl, lookup_cons, lookup_cons]
      split_ifs with h
      · rw [h, beq_self_eq_true]
      · rw [beq_eq_false_iff_ne.mpr h]
    · rw [if_neg hk, lookup_cons, lookup_cons, ih]
      by_cases h : other = k
      · rw [h, if_neg hk, if_neg hk]
      · rw [beq_eq_false_iff_ne.mpr h]

/-- What is read after a write; the nil interface for an absent key. -/
theorem JsonMap.get_set (m : JsonMap) (key other : String) (value : Json) :
    (m.set key value).get other = if other = key then value else m.get other := by
  rw [JsonMap.get, JsonMap.lookup_set]
  split_ifs
  · rfl
  · rfl

/-- Writing back what is there changes nothing. -/
theorem JsonMap.set_lookup {m : JsonMap} {key : String} {value : Json}
    (h : m.lookup key = some value) : m.set key value = m := by
  induction m with
  | nil => cases h
  | cons entry m ih =>
    obtain ⟨k, v⟩ := entry
    rw [lookup_cons] at h
    rw [JsonMap.set]
    by_cases hk : key = k
    · rw [hk, beq_self_eq_true] at h
      cases h
      rw [if_pos hk.symm]
    · rw [beq_eq_false_iff_ne.mpr hk] at h
      rw [if_neg (Ne.symm hk), ih h]

theorem JsonMap.set_ne_nil (m : JsonMap) (key : String) (value : Json) : m.set key value ≠ [] := by
  cases m with
  | nil => exact cons_ne_nil _ _
  | cons entry m =>
    rw [JsonMap.set]
    split_ifs <;> exact cons_ne_nil _ _

/-- The entries after a write. -/
theorem JsonMap.mem_set {m : JsonMap} {key : String} {value : Json} {entry : String × Json}
    (h : entry ∈ m.set key value) : entry = (key, value) ∨ entry ∈ m := by
  induction m with
  | nil => exact .inl (mem_singleton.mp h)
  | cons first m ih =>
    rw [JsonMap.set] at h
    split_ifs at h with hkey
    · rcases mem_cons.mp h with rfl | h
      · exact .inl (by rw [hkey])
      · exact .inr (mem_cons_of_mem _ h)
    · rcases mem_cons.mp h with rfl | h
      · exact .inr mem_cons_self
      · exact (ih h).imp id (mem_cons_of_mem _)

/-- The keys after a write. -/
theorem JsonMap.keys_set (m : JsonMap) (key : String) (value : Json) :
    (m.set key value).keys = if key ∈ m.keys then m.keys else m.keys ++ [key] := by
  induction m with
  | nil => rfl
  | cons first m ih =>
    obtain ⟨k, v⟩ := first
    rw [JsonMap.keys] at ih ⊢
    rw [JsonMap.set]
    by_cases hk : k = key
    · rw [if_pos hk, JsonMap.keys, map_cons, map_cons, hk, if_pos mem_cons_self]
    · rw [if_neg hk, map_cons, ih, JsonMap.keys, JsonMap.keys, map_cons]
      have hmem : key ∈ k :: m.map Prod.fst ↔ key ∈ m.map Prod.fst :=
        mem_cons.trans (or_iff_right (Ne.symm hk))
      by_cases hkey : key ∈ m.map Prod.fst
      · rw [if_pos hkey, if_pos (hmem.mpr hkey)]
      · rw [if_neg hkey, if_neg (fun h => hkey (hmem.mp h)), cons_append]

/-- Keys stay distinct. -/
theorem JsonMap.nodup_keys_set {m : JsonMap} (h : m.keys.Nodup) (key : String) (value : Json) :
    (m.set key value).keys.Nodup := by
  rw [JsonMap.keys_set]
  split_ifs with hkey
  · exact h
  · exact nodup_append.mpr ⟨h, by simp, fun a ha b hb => by
      rw [mem_singleton.mp hb]
      exact fun heq => hkey (heq ▸ ha)⟩

/-- In a map with distinct keys every entry is read. -/
theorem JsonMap.lookup_eq_some_iff {m : JsonMap} (h : m.keys.Nodup) {key : String} {value : Json} :
    m.lookup key = some value ↔ (key, value) ∈ m := by
  induction m with
  | nil =>
    constructor
    · intro hlookup
      cases hlookup
    · intro hmem
      cases hmem
  | cons first m ih =>
    obtain ⟨k, v⟩ := first
    rw [JsonMap.keys, map_cons, nodup_cons] at h
    rw [lookup_cons, mem_cons]
    by_cases hk : key = k
    · rw [hk, beq_self_eq_true]
      constructor
      · intro heq
        cases heq
        exact .inl rfl
      · rintro (heq | hmem)
        · cases heq
          rfl
        · exact absurd (mem_map_of_mem (f := Prod.fst) hmem) h.1
    · rw [beq_eq_false_iff_ne.mpr hk, ih h.2, or_iff_right]
      exact fun heq => hk (Prod.mk.inj heq).1

/-- A key that reads as a map is there. -/
theorem JsonMap.lookup_of_asObject? {m : JsonMap} {key : String} {fields : JsonMap}
    (h : (m.get key).asObject? = some fields) : m.lookup key = some (.object fields) := by
  unfold JsonMap.get at h
  cases hv : m.lookup key with
  | none =>
    rw [hv] at h
    cases h
  | some value =>
    rw [hv] at h
    cases value <;> cases h
    rfl

end Dataflow.Model
