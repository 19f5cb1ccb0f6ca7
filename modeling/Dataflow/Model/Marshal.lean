import Dataflow.Library.Decimal
import Dataflow.Model.Json
import Mathlib.Data.String.Basic
import Mathlib.Tactic.IntervalCases

/-!
# `json.Marshal` of decoded values

The text of a decoded value has no blanks, and the keys of a map in order. A map has no order of its
own, so two lists of fields may stand for one map.

* `Json.normalize`: a value with its maps in order; two values with one normal form are equal as
  JSON values (`normalize_object_eq_iff`).
* `escapeChar`, `Json.render`, `marshal`: the code.
* `render_append_inj`: a text is read in one way.
* **`marshal_eq_iff`**: two values have one text iff they are equal as JSON values.

Source: Go's `encoding/json`, as `Payloads.Write`, `MergeArrays`, `dedupeHandler` and `DedupeHash`
use it
-/

namespace Dataflow.Model

open Library List

/-! ## Normal forms -/

/-- A field of a map whose fields are in order. -/
def insertField (key : String) (value : Json) : JsonMap → JsonMap
  | [] => [(key, value)]
  | (k, v) :: m =>
    if key < k then (key, value) :: (k, v) :: m
    else if key = k then (key, value) :: m
    else (k, v) :: insertField key value m

mutual

/-- A value with the fields of its maps in order. -/
def Json.normalize : Json → Json
  | .array items => .array (Json.normalizeItems items)
  | .object fields => .object (Json.normalizeFields fields)
  | .null => .null
  | .bool value => .bool value
  | .number value => .number value
  | .string text => .string text

/-- The items of an array. -/
def Json.normalizeItems : List Json → List Json
  | [] => []
  | item :: items => item.normalize :: Json.normalizeItems items

/-- The fields of a map; of two with one key the first one counts, as in `JsonMap.get`. -/
def Json.normalizeFields : JsonMap → JsonMap
  | [] => []
  | (key, value) :: fields => insertField key value.normalize (Json.normalizeFields fields)

end

section normalize

variable {key other : String} {value : Json} {m : JsonMap}

theorem normalizeItems_eq_map (items : List Json) :
    Json.normalizeItems items = items.map Json.normalize := by
  induction items with
  | nil => rw [Json.normalizeItems, map_nil]
  | cons item items ih => rw [Json.normalizeItems, ih, map_cons]

theorem lookup_cons_ite :
    List.lookup other ((key, value) :: m) = if other = key then some value else m.lookup other := by
  rw [lookup_cons]
  by_cases h : other = key
  · simp [h]
  · simp [h, beq_eq_false_iff_ne.mpr h]

theorem lookup_insertField : (insertField key value m).lookup other = if other =
      key then some value else m.lookup other := by
  induction m with
  | nil => rw [insertField, lookup_cons_ite]
  | cons entry m ih =>
    obtain ⟨k, v⟩ := entry
    rw [insertField]
    by_cases hlt : key < k
    · rw [if_pos hlt, lookup_cons_ite]
    · rw [if_neg hlt]
      by_cases hk : key = k
      · rw [if_pos hk, lookup_cons_ite, lookup_cons_ite, ← hk]
        split_ifs <;> rfl
      · rw [if_neg hk, lookup_cons_ite, lookup_cons_ite, ih]
        by_cases h : other = k
        · rw [if_pos h, if_pos h, if_neg fun heq => hk (heq.symm.trans h)]
        · rw [if_neg h, if_neg h]

/-- What a normal form has at a key. -/
theorem lookup_normalizeFields :
    (Json.normalizeFields m).lookup key = (m.lookup key).map Json.normalize := by
  induction m with
  | nil => rw [Json.normalizeFields]; rfl
  | cons entry m ih =>
    obtain ⟨k, v⟩ := entry
    rw [Json.normalizeFields, lookup_insertField, lookup_cons, ih]
    by_cases h : key = k
    · rw [if_pos h, h, beq_self_eq_true]
      rfl
    · rw [if_neg h, beq_eq_false_iff_ne.mpr h]

/-- The fields are in order, each key once. -/
def KeysInOrder (m : JsonMap) : Prop := m.Pairwise fun entry next => entry.1 < next.1

theorem mem_insertField {entry : String × Json} (h : entry ∈ insertField key value m) :
    entry = (key, value) ∨ entry ∈ m := by
  induction m with
  | nil => exact .inl (mem_singleton.mp h)
  | cons first m ih =>
    obtain ⟨k, v⟩ := first
    rw [insertField] at h
    split_ifs at h
    · exact mem_cons.mp h
    · exact (mem_cons.mp h).imp id (mem_cons_of_mem _)
    · rcases mem_cons.mp h with rfl | h
      · exact .inr mem_cons_self
      · exact (ih h).imp id (mem_cons_of_mem _)

theorem KeysInOrder.insertField (h : KeysInOrder m) : KeysInOrder (insertField key value m) := by
  induction m with
  | nil => exact pairwise_singleton _ _
  | cons first m ih =>
    obtain ⟨k, v⟩ := first
    obtain ⟨hfirst, hrest⟩ := pairwise_cons.mp h
    rw [Model.insertField]
    split_ifs with hlt hk
    · refine pairwise_cons.mpr ⟨?_, h⟩
      intro entry hentry
      rcases mem_cons.mp hentry with rfl | hentry
      · exact hlt
      · exact hlt.trans (hfirst entry hentry)
    · exact pairwise_cons.mpr ⟨fun entry hentry => hk ▸ hfirst entry hentry, hrest⟩
    · refine pairwise_cons.mpr ⟨?_, ih hrest⟩
      intro entry hentry
      rcases mem_insertField hentry with rfl | hentry
      · exact lt_of_le_of_ne (not_lt.mp hlt) (Ne.symm hk)
      · exact hfirst entry hentry

theorem keysInOrder_normalizeFields (m : JsonMap) : KeysInOrder (Json.normalizeFields m) := by
  induction m with
  | nil => rw [Json.normalizeFields]; exact List.Pairwise.nil
  | cons entry m ih =>
    obtain ⟨k, v⟩ := entry
    rw [Json.normalizeFields]
    exact ih.insertField

/-- Below its first key a map has nothing. -/
theorem KeysInOrder.lookup_of_lt (h : KeysInOrder ((key, value) :: m)) (hlt : other < key) :
    List.lookup other ((key, value) :: m) = none := by
  rw [JsonMap.lookup_eq_none, JsonMap.keys, map_cons, mem_cons, not_or]
  refine ⟨hlt.ne, ?_⟩
  intro hmem
  obtain ⟨entry, hentry, rfl⟩ := mem_map.mp hmem
  exact absurd ((pairwise_cons.mp h).1 entry hentry) (not_lt.mpr hlt.le)

/-- **Maps in order** are equal when they have the same at every key. -/
theorem KeysInOrder.ext {m' : JsonMap} (h : KeysInOrder m) (h' : KeysInOrder m')
    (heq : ∀ key, m.lookup key = m'.lookup key) : m = m' := by
  induction m generalizing m' with
  | nil =>
    cases m' with
    | nil => rfl
    | cons entry m' =>
      have hentry := heq entry.1
      rw [lookup_cons, beq_self_eq_true] at hentry
      cases hentry
  | cons entry m ih =>
    obtain ⟨k, v⟩ := entry
    cases m' with
    | nil =>
      have hentry := heq k
      rw [lookup_cons, beq_self_eq_true] at hentry
      cases hentry
    | cons entry' m' =>
      obtain ⟨k', v'⟩ := entry'
      have hk : k = k' := by
        rcases lt_trichotomy k k' with hlt | hk | hlt
        · have hnone := heq k
          rw [h'.lookup_of_lt hlt, lookup_cons, beq_self_eq_true] at hnone
          cases hnone
        · exact hk
        · have hnone := heq k'
          rw [h.lookup_of_lt hlt, lookup_cons, beq_self_eq_true] at hnone
          cases hnone
      subst hk
      have hv := heq k
      rw [lookup_cons, lookup_cons, beq_self_eq_true] at hv
      cases hv
      rw [ih (pairwise_cons.mp h).2 (pairwise_cons.mp h').2]
      intro key
      by_cases hkey : key = k
      · have hnot : ∀ n : JsonMap, KeysInOrder ((k, v) :: n) → n.lookup k = none := by
          intro n hn
          rw [JsonMap.lookup_eq_none, JsonMap.keys]
          intro hmem
          obtain ⟨entry, hentry, heq⟩ := mem_map.mp hmem
          exact absurd ((pairwise_cons.mp hn).1 entry hentry) (by rw [heq]; exact lt_irrefl k)
        rw [hkey, hnot m h, hnot m' h']
      · have hrest := heq key
        rwa [lookup_cons, lookup_cons, beq_eq_false_iff_ne.mpr hkey] at hrest

/-- **Maps are equal as JSON values** when they have equal values at every key. -/
theorem normalize_object_eq_iff {m m' : JsonMap} :
    (Json.object m).normalize = (Json.object m').normalize ↔
      ∀ key, (m.lookup key).map Json.normalize = (m'.lookup key).map Json.normalize := by
  rw [Json.normalize, Json.normalize, Json.object.injEq]
  constructor
  · intro h key
    rw [← lookup_normalizeFields, h, lookup_normalizeFields]
  · intro h
    apply (keysInOrder_normalizeFields m).ext (keysInOrder_normalizeFields m')
    intro key
    rw [lookup_normalizeFields, lookup_normalizeFields, h]

end normalize

/-! ## Texts -/

/-- The quotation mark. -/
def quoteChar : Char := .ofNat 34

/-- The backslash. -/
def reverseSolidus : Char := .ofNat 92

/-- A digit of a number with base 16. -/
def hexDigit (n : ℕ) : Char := if n < 10 then .ofNat (48 + n) else .ofNat (87 + n)

/-- The number of a digit. -/
def hexValue (c : Char) : ℕ := if c.toNat < 58 then c.toNat - 48 else c.toNat - 87

/-- The characters with a short escape. -/
def shortEscapes : List (Char × Char) :=
  [(quoteChar, quoteChar), (reverseSolidus, reverseSolidus), (.ofNat 8, 'b'), (.ofNat 12, 'f'), (.ofNat 10, 'n'),
    (.ofNat 13, 'r'), (.ofNat 9, 't')]

/-- A character in a text: control characters, those of HTML and the two line separators are
escaped. -/
def escapeChar (c : Char) : List Char :=
  match shortEscapes.lookup c with
  | some short => [reverseSolidus, short]
  | none =>
    if c.toNat < 32 ∨ c ∈ ['<', '>', '&'] ∨ c.toNat ∈ [0x2028, 0x2029] then
      [reverseSolidus, 'u', hexDigit (c.toNat / 4096 % 16), hexDigit (c.toNat / 256 % 16),
        hexDigit (c.toNat / 16 % 16), hexDigit (c.toNat % 16)]
    else [c]

/-- A text in quotation marks. -/
def renderString (text : String) : List Char :=
  quoteChar :: (text.toList.flatMap escapeChar ++ [quoteChar])

/-- A character of a number. -/
def isNumberChar (c : Char) : Bool := c.isDigit || c ∈ ['+', '-', '.', 'e']

/-- The texts of numbers: the shortest decimal fraction that is read as the `float64`. -/
structure NumberTexts where
  text : ℚ → String
  injective : Function.Injective text
  nonempty : ∀ value, text value ≠ ""
  chars : ∀ value, ∀ c ∈ (text value).toList, isNumberChar c = true

section render

variable (numbers : NumberTexts)

mutual

/-- The text of a value whose maps are in order. -/
def Json.render : Json → List Char
  | .null => "null".toList
  | .bool true => "true".toList
  | .bool false => "false".toList
  | .number value => (numbers.text value).toList
  | .string text => renderString text
  | .array items => '[' :: Json.renderItems items
  | .object fields => '{' :: Json.renderFields fields

/-- The items of an array and the bracket after them. -/
def Json.renderItems : List Json → List Char
  | [] => [']']
  | item :: items => item.render ++ Json.renderMoreItems items

/-- The items after the first one. -/
def Json.renderMoreItems : List Json → List Char
  | [] => [']']
  | item :: items => ',' :: (item.render ++ Json.renderMoreItems items)

/-- The fields of a map and the brace after them. -/
def Json.renderFields : JsonMap → List Char
  | [] => ['}']
  | (key, value) :: fields =>
    renderString key ++ ':' :: (value.render ++ Json.renderMoreFields fields)

/-- The fields after the first one. -/
def Json.renderMoreFields : JsonMap → List Char
  | [] => ['}']
  | (key, value) :: fields =>
    ',' :: (renderString key ++ ':' :: (value.render ++ Json.renderMoreFields fields))

end

/-- Source: `json.Marshal`. -/
def marshal (value : Json) : String := .ofList (value.normalize.render numbers)

end render

/-! ## Texts are read in one way -/

/-- One character of a text, and what follows it. -/
def unescape : List Char → Option (Char × List Char)
  | [] => none
  | c :: rest =>
    if c = reverseSolidus then
      match rest with
      | d :: rest =>
        if d = 'u' then
          match rest with
          | h₃ :: h₂ :: h₁ :: h₀ :: rest =>
            some (.ofNat (((hexValue h₃ * 16 + hexValue h₂) * 16 + hexValue h₁) * 16 + hexValue h₀), rest)
          | _ => none
        else (shortEscapes.find? fun escape => escape.2 = d).map fun escape => (escape.1, rest)
      | [] => none
    else some (c, rest)

theorem hexValue_hexDigit {n : ℕ} (h : n < 16) : hexValue (hexDigit n) = n := by
  interval_cases n <;> rfl

/-- **An escaped character is read as the character.** -/
theorem unescape_escapeChar (c : Char) (rest : List Char) :
    unescape (escapeChar c ++ rest) = some (c, rest) := by
  unfold escapeChar
  cases hshort : shortEscapes.lookup c with
  | some short =>
    obtain ⟨before, after, hsplit, -⟩ := lookup_eq_some_iff.mp hshort
    have hmem : (c, short) ∈ shortEscapes := hsplit ▸ mem_append_right _ mem_cons_self
    simp only [shortEscapes, mem_cons, Prod.mk.injEq, not_mem_nil, or_false] at hmem
    rcases hmem with ⟨rfl, rfl⟩ | ⟨rfl, rfl⟩ | ⟨rfl, rfl⟩ | ⟨rfl, rfl⟩ | ⟨rfl, rfl⟩ | ⟨rfl, rfl⟩ |
      ⟨rfl, rfl⟩ <;> rfl
  | none =>
    have hback : c ≠ reverseSolidus := by
      rintro rfl
      cases hshort
    split_ifs with hcode
    · have hlt : c.toNat < 65536 := by
        rcases hcode with h | h | h
        · omega
        · simp only [mem_cons, not_mem_nil, or_false] at h
          rcases h with rfl | rfl | rfl <;> decide
        · simp only [mem_cons, not_mem_nil, or_false] at h
          omega
      have hvalue : ((hexValue (hexDigit (c.toNat / 4096 % 16)) * 16 +
          hexValue (hexDigit (c.toNat / 256 % 16))) * 16 + hexValue (hexDigit (c.toNat / 16 % 16))) * 16 +
            hexValue (hexDigit (c.toNat % 16)) = c.toNat := by
        rw [hexValue_hexDigit (Nat.mod_lt _ (by decide)),
          hexValue_hexDigit (Nat.mod_lt _ (by decide)),
          hexValue_hexDigit (Nat.mod_lt _ (by decide)),
          hexValue_hexDigit (Nat.mod_lt _ (by decide))]
        omega
      rw [cons_append, cons_append, unescape.eq_def]
      dsimp only
      rw [if_pos rfl, if_pos rfl]
      simp only [cons_append, nil_append]
      rw [hvalue, Char.ofNat_toNat]
    · rw [singleton_append, unescape.eq_def]
      exact if_neg hback

/-- No escaped character starts with a quotation mark. -/
theorem escapeChar_head (c : Char) : ∃ d rest, escapeChar c = d :: rest ∧ d ≠ quoteChar := by
  unfold escapeChar
  cases hshort : shortEscapes.lookup c with
  | some short => exact ⟨_, _, rfl, by decide⟩
  | none =>
    split_ifs
    · exact ⟨_, _, rfl, by decide⟩
    · refine ⟨_, _, rfl, ?_⟩
      rintro rfl
      cases hshort

/-- The characters up to a quotation mark. -/
theorem flatMap_escapeChar_inj {cs ds rest rest' : List Char}
    (h : cs.flatMap escapeChar ++ quoteChar :: rest = ds.flatMap escapeChar ++ quoteChar :: rest') :
    cs = ds ∧ rest = rest' := by
  induction cs generalizing ds with
  | nil =>
    cases ds with
    | nil => exact ⟨rfl, (cons.inj h).2⟩
    | cons d ds =>
      obtain ⟨e, tail, heq, hne⟩ := escapeChar_head d
      rw [flatMap_cons, heq] at h
      exact absurd (cons.inj h).1.symm hne
  | cons c cs ih =>
    cases ds with
    | nil =>
      obtain ⟨e, tail, heq, hne⟩ := escapeChar_head c
      rw [flatMap_cons, heq] at h
      exact absurd (cons.inj h).1 hne
    | cons d ds =>
      rw [flatMap_cons, flatMap_cons, append_assoc, append_assoc] at h
      have hread := congrArg unescape h
      rw [unescape_escapeChar, unescape_escapeChar] at hread
      obtain ⟨rfl, hrest⟩ := Prod.mk.inj (Option.some.inj hread)
      obtain ⟨rfl, rfl⟩ := ih hrest
      exact ⟨rfl, rfl⟩

theorem renderString_append_inj {text text' : String} {rest rest' : List Char}
    (h : renderString text ++ rest = renderString text' ++ rest') :
    text = text' ∧ rest = rest' := by
  rw [renderString, renderString, cons_append, cons_append, append_assoc, append_assoc] at h
  have hquoted := (cons.inj h).2
  obtain ⟨heq, hrest⟩ := flatMap_escapeChar_inj hquoted
  exact ⟨String.toList_inj.mp heq, hrest⟩

/-! ## Values are read in one way -/

section inj

variable {numbers : NumberTexts}

/-- What may follow a value. -/
def EndsValue (rest : List Char) : Prop := ∀ c ∈ rest.head?, isNumberChar c = false

/-- **A number** ends where no further character of a number follows. -/
theorem number_append_inj {a b : ℚ} {rest rest' : List Char} (hrest : EndsValue rest)
    (hrest' : EndsValue rest')
    (h : (numbers.text a).toList ++ rest = (numbers.text b).toList ++ rest') :
    a = b ∧ rest = rest' := by
  have htake : ∀ (value : ℚ) (rest : List Char), EndsValue rest →
      ((numbers.text value).toList ++ rest).takeWhile isNumberChar = (numbers.text value).toList := by
    intro value rest hrest
    rw [takeWhile_append_of_pos (numbers.chars value)]
    cases rest with
    | nil => rw [takeWhile_nil, append_nil]
    | cons c rest => rw [takeWhile_cons_of_neg (by simp [hrest c rfl]), append_nil]
  have htexts := congrArg (List.takeWhile isNumberChar) h
  rw [htake a rest hrest, htake b rest' hrest'] at htexts
  obtain rfl := numbers.injective (String.toList_inj.mp htexts)
  exact ⟨rfl, append_cancel_left h⟩

/-- The kind of a value. -/
def Json.kind : Json → ℕ
  | .null => 0
  | .bool true => 1
  | .bool false => 2
  | .number _ => 3
  | .string _ => 4
  | .array _ => 5
  | .object _ => 6

/-- The kind of the value that starts with a character. -/
def kindOf (c : Char) : Option ℕ :=
  if isNumberChar c then some 3
  else [('n', 0), ('t', 1), ('f', 2), (quoteChar, 4), ('[', 5), ('\x7b', 6)].lookup c

/-- **The first character** of a value tells its kind. -/
theorem kindOf_render (numbers : NumberTexts) (value : Json) :
    ∃ c rest, value.render numbers = c :: rest ∧ kindOf c = some value.kind := by
  cases value with
  | null => exact ⟨'n', _, rfl, rfl⟩
  | bool value => cases value <;> exact ⟨_, _, rfl, rfl⟩
  | number value =>
    obtain ⟨c, rest, heq⟩ := exists_cons_of_ne_nil
      (fun hnil => numbers.nonempty value (String.toList_eq_nil_iff.mp hnil))
    refine ⟨c, rest, heq, ?_⟩
    rw [kindOf, if_pos (numbers.chars value c (heq ▸ mem_cons_self))]
    rfl
  | string text => exact ⟨quoteChar, _, rfl, show kindOf quoteChar = some 4 by decide⟩
  | array items => exact ⟨'[', _, rfl, show kindOf '[' = some 5 by decide⟩
  | object fields => exact ⟨'\x7b', _, rfl, show kindOf '\x7b' = some 6 by decide⟩

/-- Texts that start alike are of one kind. -/
theorem kind_eq_of_append {value value' : Json} {rest rest' : List Char}
    (h : value.render numbers ++ rest = value'.render numbers ++ rest') :
    value.kind = value'.kind := by
  obtain ⟨c, tail, heq, hkind⟩ := kindOf_render numbers value
  obtain ⟨c', tail', heq', hkind'⟩ := kindOf_render numbers value'
  rw [heq, heq'] at h
  obtain rfl : c = c' := (cons.inj h).1
  exact Option.some.inj (hkind.symm.trans hkind')

/-- No value starts with a bracket that closes. -/
theorem render_ne_bracket {value : Json} {rest rest' : List Char} :
    value.render numbers ++ rest ≠ ']' :: rest' := by
  obtain ⟨c, tail, heq, hkind⟩ := kindOf_render numbers value
  intro h
  rw [heq] at h
  obtain rfl : c = ']' := (cons.inj h).1
  have hnone : kindOf ']' = none := by decide
  simp [hnone] at hkind

/-- What follows a value in an array or a map ends it. -/
theorem endsValue_renderMoreItems (items : List Json) (rest : List Char) :
    EndsValue (Json.renderMoreItems numbers items ++ rest) := by
  cases items with
  | nil | cons item items => rw [Json.renderMoreItems]; rintro c ⟨⟩; decide

theorem endsValue_renderMoreFields (fields : JsonMap) (rest : List Char) :
    EndsValue (Json.renderMoreFields numbers fields ++ rest) := by
  cases fields with
  | nil | cons entry fields => rw [Json.renderMoreFields]; rintro c ⟨⟩; decide

mutual

/-- **A text is read in one way.** -/
theorem render_append_inj (value value' : Json) {rest rest' : List Char} (hrest : EndsValue rest)
    (hrest' : EndsValue rest') (h : value.render numbers ++ rest = value'.render numbers ++ rest') :
    value = value' ∧ rest = rest' := by
  have hkind := kind_eq_of_append h
  match value, value' with
  | .null, .null => exact ⟨rfl, append_cancel_left h⟩
  | .bool true, .bool true => exact ⟨rfl, append_cancel_left h⟩
  | .bool false, .bool false => exact ⟨rfl, append_cancel_left h⟩
  | .number a, .number b =>
    obtain ⟨rfl, rfl⟩ := number_append_inj hrest hrest' h
    exact ⟨rfl, rfl⟩
  | .string text, .string text' =>
    obtain ⟨rfl, rfl⟩ := renderString_append_inj h
    exact ⟨rfl, rfl⟩
  | .array items, .array items' =>
    obtain ⟨rfl, rfl⟩ := renderItems_append_inj items items' (cons.inj h).2
    exact ⟨rfl, rfl⟩
  | .object fields, .object fields' =>
    obtain ⟨rfl, rfl⟩ := renderFields_append_inj fields fields' (cons.inj h).2
    exact ⟨rfl, rfl⟩
  | .null, .bool b | .bool b, .null => cases b <;> cases hkind
  | .bool true, .bool false | .bool false, .bool true => cases hkind
  | .bool b, .number _ | .bool b, .string _ | .bool b, .array _ | .bool b, .object _
  | .number _, .bool b | .string _, .bool b | .array _, .bool b | .object _, .bool b =>
    cases b <;> cases hkind
  | .null, .number _ | .null, .string _ | .null, .array _ | .null, .object _
  | .number _, .null | .number _, .string _ | .number _, .array _ | .number _, .object _
  | .string _, .null | .string _, .number _ | .string _, .array _ | .string _, .object _
  | .array _, .null | .array _, .number _ | .array _, .string _ | .array _, .object _
  | .object _, .null | .object _, .number _ | .object _, .string _ | .object _, .array _ =>
    cases hkind

theorem renderItems_append_inj (items items' : List Json) {rest rest' : List Char}
    (h : Json.renderItems numbers items ++ rest = Json.renderItems numbers items' ++ rest') :
    items = items' ∧ rest = rest' := by
  match items, items' with
  | [], [] =>
    rw [Json.renderItems] at h
    exact ⟨rfl, (cons.inj h).2⟩
  | [], item :: items =>
    rw [Json.renderItems, Json.renderItems, append_assoc] at h
    exact absurd h.symm render_ne_bracket
  | item :: items, [] =>
    rw [Json.renderItems, Json.renderItems, append_assoc] at h
    exact absurd h render_ne_bracket
  | item :: items, item' :: items' =>
    rw [Json.renderItems, Json.renderItems, append_assoc, append_assoc] at h
    obtain ⟨rfl, hmore⟩ := render_append_inj item item' (endsValue_renderMoreItems items rest)
      (endsValue_renderMoreItems items' rest') h
    obtain ⟨rfl, rfl⟩ := renderMoreItems_append_inj items items' hmore
    exact ⟨rfl, rfl⟩

theorem renderMoreItems_append_inj (items items' : List Json) {rest rest' : List Char}
    (h : Json.renderMoreItems numbers items ++ rest =
      Json.renderMoreItems numbers items' ++ rest') :
    items = items' ∧ rest = rest' := by
  match items, items' with
  | [], [] =>
    rw [Json.renderMoreItems] at h
    exact ⟨rfl, (cons.inj h).2⟩
  | [], item :: items =>
    rw [Json.renderMoreItems, Json.renderMoreItems] at h
    exact absurd (cons.inj h).1 (by decide)
  | item :: items, [] =>
    rw [Json.renderMoreItems, Json.renderMoreItems] at h
    exact absurd (cons.inj h).1 (by decide)
  | item :: items, item' :: items' =>
    rw [Json.renderMoreItems, Json.renderMoreItems, cons_append, cons_append,
      append_assoc, append_assoc] at h
    obtain ⟨rfl, hmore⟩ := render_append_inj item item' (endsValue_renderMoreItems items rest)
      (endsValue_renderMoreItems items' rest') (cons.inj h).2
    obtain ⟨rfl, rfl⟩ := renderMoreItems_append_inj items items' hmore
    exact ⟨rfl, rfl⟩

theorem renderFields_append_inj (fields fields' : JsonMap) {rest rest' : List Char}
    (h : Json.renderFields numbers fields ++ rest = Json.renderFields numbers fields' ++ rest') :
    fields = fields' ∧ rest = rest' := by
  match fields, fields' with
  | [], [] =>
    rw [Json.renderFields] at h
    exact ⟨rfl, (cons.inj h).2⟩
  | [], (key, value) :: fields =>
    rw [Json.renderFields, Json.renderFields] at h
    exact absurd (cons.inj h).1 (by decide)
  | (key, value) :: fields, [] =>
    rw [Json.renderFields, Json.renderFields] at h
    exact absurd (cons.inj h).1 (by decide)
  | (key, value) :: fields, (key', value') :: fields' =>
    rw [Json.renderFields, Json.renderFields, append_assoc, append_assoc] at h
    obtain ⟨rfl, hvalue⟩ := renderString_append_inj h
    rw [cons_append, cons_append, append_assoc, append_assoc] at hvalue
    obtain ⟨rfl, hmore⟩ := render_append_inj value value' (endsValue_renderMoreFields fields rest)
      (endsValue_renderMoreFields fields' rest') (cons.inj hvalue).2
    obtain ⟨rfl, rfl⟩ := renderMoreFields_append_inj fields fields' hmore
    exact ⟨rfl, rfl⟩

theorem renderMoreFields_append_inj (fields fields' : JsonMap) {rest rest' : List Char}
    (h : Json.renderMoreFields numbers fields ++ rest =
      Json.renderMoreFields numbers fields' ++ rest') :
    fields = fields' ∧ rest = rest' := by
  match fields, fields' with
  | [], [] =>
    rw [Json.renderMoreFields] at h
    exact ⟨rfl, (cons.inj h).2⟩
  | [], (key, value) :: fields =>
    rw [Json.renderMoreFields, Json.renderMoreFields] at h
    exact absurd (cons.inj h).1 (by decide)
  | (key, value) :: fields, [] =>
    rw [Json.renderMoreFields, Json.renderMoreFields] at h
    exact absurd (cons.inj h).1 (by decide)
  | (key, value) :: fields, (key', value') :: fields' =>
    rw [Json.renderMoreFields, Json.renderMoreFields, cons_append, cons_append,
      append_assoc, append_assoc] at h
    obtain ⟨rfl, hvalue⟩ := renderString_append_inj (cons.inj h).2
    rw [cons_append, cons_append, append_assoc, append_assoc] at hvalue
    obtain ⟨rfl, hmore⟩ := render_append_inj value value' (endsValue_renderMoreFields fields rest)
      (endsValue_renderMoreFields fields' rest') (cons.inj hvalue).2
    obtain ⟨rfl, rfl⟩ := renderMoreFields_append_inj fields fields' hmore
    exact ⟨rfl, rfl⟩

end

/-- **Two values have one text** iff they are equal as JSON values. -/
theorem marshal_eq_iff {value value' : Json} :
    marshal numbers value = marshal numbers value' ↔ value.normalize = value'.normalize := by
  constructor
  · intro h
    have hrender : value.normalize.render numbers = value'.normalize.render numbers :=
      String.ofList_injective h
    have hends : EndsValue [] := nofun
    have happend : value.normalize.render numbers ++ [] =
        value'.normalize.render numbers ++ [] := by
      rw [hrender]
    exact (render_append_inj _ _ hends hends happend).1
  · intro h
    rw [marshal, marshal, h]

end inj

/-! ## Texts of numbers -/

theorem isNumberChar_repr {n : ℤ} {c : Char} (hc : c ∈ n.repr.toList) :
    c.isDigit = true ∨ c = '-' := by
  rw [Int.repr_eq_if] at hc
  split_ifs at hc
  · rw [Nat.toList_repr] at hc
    exact .inl (Nat.isDigit_of_mem_toDigits (by omega) (by omega) hc)
  · rw [String.toList_append, Nat.toList_repr] at hc
    rcases mem_append.mp hc with hc | hc
    · exact .inr (mem_singleton.mp hc)
    · exact .inl (Nat.isDigit_of_mem_toDigits (by omega) (by omega) hc)

/-- Numerator and denominator, which tell all numbers apart. -/
def quotientText (value : ℚ) : String :=
  .ofList (value.num.repr.toList ++ 'e' :: (value.den : ℤ).repr.toList)

/-- Texts of numbers that tell them apart. -/
def quotientTexts : NumberTexts where
  text := quotientText
  injective := by
    intro a b h
    have hlists := String.ofList_injective h
    have htake : ∀ (n : ℤ) (rest : List Char),
        (n.repr.toList ++ 'e' :: rest).takeWhile (· ≠ 'e') = n.repr.toList := by
      intro n rest
      rw [takeWhile_append_of_pos, takeWhile_cons_of_neg (by decide), append_nil]
      intro c hc
      rcases isNumberChar_repr hc with hdigit | rfl
      · apply decide_eq_true
        rintro rfl
        cases hdigit
      · decide
    have hnum := congrArg (List.takeWhile (· ≠ 'e')) hlists
    rw [htake, htake] at hnum
    rw [hnum] at hlists
    have hden := (cons.inj (append_cancel_left hlists)).2
    apply Rat.ext
    · exact Decimal.repr_int_injective (String.toList_inj.mp hnum)
    · exact_mod_cast Decimal.repr_int_injective (String.toList_inj.mp hden)
  nonempty value h := by
    have hlist := congrArg String.toList h
    rw [quotientText, String.toList_ofList] at hlist
    simp at hlist
  chars value c hc := by
    rw [quotientText, String.toList_ofList, mem_append, mem_cons] at hc
    have hrepr : ∀ {n : ℤ}, c ∈ n.repr.toList → isNumberChar c = true := by
      intro n hmem
      rcases isNumberChar_repr hmem with hdigit | rfl
      · rw [isNumberChar, hdigit]
        rfl
      · decide
    rcases hc with hc | rfl | hc
    · exact hrepr hc
    · decide
    · exact hrepr hc

end Dataflow.Model
