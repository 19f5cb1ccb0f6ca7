import Dataflow.Model.GoMaps
import Mathlib.Data.Rat.Encodable

/-!
# `json.Unmarshal` of texts

A text is read from left to right, with white space between its parts. Arrays and maps are nested up
to a limit.

* `NumberCodec`: the texts of numbers with `strconv.ParseFloat`.
* `readText`, `readValue`, `unmarshal`: the code.
* `readText_escape`: an escaped text is read as the text.
* `readValue_render`: the text of a value whose maps have each key once is read as the value.
* **`unmarshal_marshal`**: what `json.Marshal` writes is read as the value with its maps in order.

Source: Go's `encoding/json`, as `decodeRecords` uses it
-/

namespace Dataflow.Model

open List Option

/-! ## Texts -/

/-- White space between the parts of a JSON text. -/
def isJsonSpace (c : Char) : Bool := c.toNat ∈ [32, 9, 10, 13]

/-- What follows white space. -/
def skipSpace (text : List Char) : List Char := text.dropWhile isJsonSpace

/-- A digit of a number with base 16, in either case. -/
def hexOf (c : Char) : Option ℕ :=
  if '0' ≤ c ∧ c ≤ '9' then some (c.toNat - 48)
  else if 'a' ≤ c ∧ c ≤ 'f' then some (c.toNat - 87)
  else if 'A' ≤ c ∧ c ≤ 'F' then some (c.toNat - 55)
  else none

/-- Four digits, `getu4`. -/
def readCode : List Char → Option (ℕ × List Char)
  | h₃ :: h₂ :: h₁ :: h₀ :: rest => do
      let d₃ ← hexOf h₃
      let d₂ ← hexOf h₂
      let d₁ ← hexOf h₁
      let d₀ ← hexOf h₀
      return (((d₃ * 16 + d₂) * 16 + d₁) * 16 + d₀, rest)
  | _ => none

/-- A code that follows another one. -/
def readNextCode : List Char → Option (ℕ × List Char)
  | c :: d :: rest => if c = reverseSolidus ∧ d = 'u' then readCode rest else none
  | _ => none

/-- The characters that are escaped by another one. -/
def textEscapes : List (Char × Char) :=
  [(quoteChar, quoteChar), (reverseSolidus, reverseSolidus), ('/', '/'), ('b', .ofNat 8), ('f', .ofNat 12),
    ('n', .ofNat 10), ('r', .ofNat 13), ('t', .ofNat 9)]

/-- What follows a backslash. Half of a surrogate pair without the other half is replaced. -/
def readEscape : List Char → Option (Char × List Char)
  | [] => none
  | c :: rest =>
    if c = 'u' then
      match readCode rest with
      | none => none
      | some (code, rest) =>
        if 0xD800 ≤ code ∧ code < 0xE000 then
          match readNextCode rest with
          | some (low, after) =>
            if code < 0xDC00 ∧ 0xDC00 ≤ low ∧ low < 0xE000 then
              some (.ofNat (0x10000 + (code - 0xD800) * 1024 + (low - 0xDC00)), after)
            else some (.ofNat 0xFFFD, rest)
          | none => some (.ofNat 0xFFFD, rest)
        else some (.ofNat code, rest)
    else (textEscapes.lookup c).map fun d => (d, rest)

/-- The characters up to a quotation mark. -/
def readText : (fuel : ℕ) → List Char → Option (List Char × List Char)
  | 0, _ => none
  | _ + 1, [] => none
  | fuel + 1, c :: rest =>
    if c = quoteChar then some ([], rest)
    else if c = reverseSolidus then
      (readEscape rest).bind fun (d, rest) => (readText fuel rest).map fun (text, rest) => (d :: text, rest)
    else if c.toNat < 32 then none
    else (readText fuel rest).map fun (text, rest) => (c :: text, rest)

/-! ## Values -/

/-- The texts of numbers, and how they are read; a text that is no number is not read. -/
structure NumberCodec extends NumberTexts where
  parse : List Char → Option ℚ
  parse_text : ∀ value, parse (text value).toList = some value

/-- A character of a number that is read. -/
def isNumberInput (c : Char) : Bool := isNumberChar c || c = 'E'

/-- The three words. -/
def readWord (text : List Char) : Option (Json × List Char) :=
  if "null".toList <+: text then some (.null, text.drop 4)
  else if "true".toList <+: text then some (.bool true, text.drop 4)
  else if "false".toList <+: text then some (.bool false, text.drop 5)
  else none

section read

variable (codec : NumberCodec)

mutual

/-- A value; `depth` is how many arrays and maps may be nested. -/
def readValue : (fuel depth : ℕ) → List Char → Option (Json × List Char)
  | 0, _, _ => none
  | fuel + 1, depth, text =>
    match skipSpace text with
    | [] => none
    | c :: rest =>
      if c = quoteChar then
        (readText (rest.length + 1) rest).map fun (text, rest) => (.string (.ofList text), rest)
      else if c = '[' then
        if depth = 0 then none
        else if (skipSpace rest).head? = some ']' then some (.array [], (skipSpace rest).tail)
        else (readItems fuel (depth - 1) rest).map fun (items, rest) => (.array items, rest)
      else if c = '\x7b' then
        if depth = 0 then none
        else if (skipSpace rest).head? = some '\x7d' then some (.object [], (skipSpace rest).tail)
        else (readFields fuel (depth - 1) [] rest).map fun (fields, rest) => (.object fields, rest)
      else if isNumberInput c then
        (codec.parse (c :: rest.takeWhile isNumberInput)).map fun value =>
          (.number value, rest.dropWhile isNumberInput)
      else readWord (c :: rest)

/-- The items of an array, and the bracket after them. -/
def readItems : (fuel depth : ℕ) → List Char → Option (List Json × List Char)
  | 0, _, _ => none
  | fuel + 1, depth, text =>
    match readValue fuel depth text with
    | none => none
    | some (item, rest) =>
      match skipSpace rest with
      | [] => none
      | c :: rest =>
        if c = ',' then (readItems fuel depth rest).map fun (items, rest) => (item :: items, rest)
        else if c = ']' then some ([item], rest)
        else none

/-- The fields of a map after others, and the brace after them; of two with one key the last one
counts. -/
def readFields : (fuel depth : ℕ) → JsonMap → List Char → Option (JsonMap × List Char)
  | 0, _, _, _ => none
  | fuel + 1, depth, fields, text =>
    match skipSpace text with
    | [] => none
    | c :: rest =>
      if c ≠ quoteChar then none
      else match readText (rest.length + 1) rest with
        | none => none
        | some (key, rest) =>
          match skipSpace rest with
          | [] => none
          | c :: rest =>
            if c ≠ ':' then none
            else match readValue fuel depth rest with
              | none => none
              | some (value, rest) =>
                match skipSpace rest with
                | [] => none
                | c :: rest =>
                  if c = ',' then readFields fuel depth (fields.set (.ofList key) value) rest
                  else if c = '\x7d' then some (fields.set (.ofList key) value, rest)
                  else none

end

/-- `maxNestingDepth`. -/
def maxNestingDepth : ℕ := 10000

/-- Source: `json.Unmarshal` into an empty interface. -/
def unmarshal (text : List Char) : Option Json :=
  match readValue codec (text.length + 1) maxNestingDepth text with
  | some (value, rest) => if skipSpace rest = [] then some value else none
  | none => none

end read

/-! ## Escaped texts -/

section text

theorem hexOf_hexDigit {n : ℕ} (h : n < 16) : hexOf (hexDigit n) = some n := by
  interval_cases n <;> decide

theorem readCode_hexDigits {a b c d : ℕ} (ha : a < 16) (hb : b < 16) (hc : c < 16) (hd : d < 16)
    (rest : List Char) : readCode (hexDigit a :: hexDigit b :: hexDigit c :: hexDigit d :: rest) =
      some (((a * 16 + b) * 16 + c) * 16 + d, rest) := by
  rw [readCode, hexOf_hexDigit ha, hexOf_hexDigit hb, hexOf_hexDigit hc, hexOf_hexDigit hd]
  rfl

/-- A character is written as it is, or as an escape that is read as it. -/
theorem escapeChar_cases (c : Char) :
    (escapeChar c = [c] ∧ c ≠ quoteChar ∧ c ≠ reverseSolidus ∧ 32 ≤ c.toNat) ∨
      ∃ escape, escapeChar c = reverseSolidus :: escape ∧
        ∀ rest, readEscape (escape ++ rest) = some (c, rest) := by
  unfold escapeChar
  cases hshort : shortEscapes.lookup c with
  | some short =>
    refine .inr ⟨[short], rfl, ?_⟩
    obtain ⟨before, after, hsplit, -⟩ := lookup_eq_some_iff.mp hshort
    have hmem : (c, short) ∈ shortEscapes := hsplit ▸ mem_append_right _ mem_cons_self
    simp only [shortEscapes, mem_cons, Prod.mk.injEq, not_mem_nil, or_false] at hmem
    rcases hmem with ⟨rfl, rfl⟩ | ⟨rfl, rfl⟩ | ⟨rfl, rfl⟩ | ⟨rfl, rfl⟩ | ⟨rfl, rfl⟩ | ⟨rfl, rfl⟩ |
      ⟨rfl, rfl⟩ <;> exact fun _ => rfl
  | none =>
    split_ifs with hcode
    · refine .inr ⟨_, rfl, ?_⟩
      intro rest
      have hsmall : c.toNat < 0xD800 := by
        rcases hcode with h | h | h
        · omega
        · simp only [mem_cons, not_mem_nil, or_false] at h
          rcases h with rfl | rfl | rfl <;> decide
        · simp only [mem_cons, not_mem_nil, or_false] at h
          omega
      have hvalue :
          ((c.toNat / 4096 % 16 * 16 + c.toNat / 256 % 16) * 16 + c.toNat / 16 % 16) * 16 +
          c.toNat % 16 = c.toNat := by omega
      simp only [cons_append, nil_append]
      rw [readEscape, if_pos rfl,
        readCode_hexDigits (Nat.mod_lt _ (by decide)) (Nat.mod_lt _ (by decide))
        (Nat.mod_lt _ (by decide)) (Nat.mod_lt _ (by decide)), hvalue]
      dsimp only
      rw [if_neg (by omega), Char.ofNat_toNat]
    · refine .inl ⟨rfl, ?_, ?_, ?_⟩
      · rintro rfl
        cases hshort
      · rintro rfl
        cases hshort
      · rw [not_or] at hcode
        omega

theorem escapeChar_ne_nil (c : Char) : escapeChar c ≠ [] := by
  obtain ⟨d, rest, heq, -⟩ := escapeChar_head c
  rw [heq]
  exact cons_ne_nil _ _

/-- **An escaped text is read as the text.** -/
theorem readText_escape {text : List Char} {fuel : ℕ} (h : (text.flatMap escapeChar).length < fuel)
    (rest : List Char) :
    readText fuel (text.flatMap escapeChar ++ quoteChar :: rest) = some (text, rest) := by
  induction text generalizing fuel with
  | nil =>
    obtain ⟨fuel, rfl⟩ := Nat.exists_eq_add_one_of_ne_zero (ne_of_gt (Nat.zero_lt_of_lt h))
    rw [flatMap_nil, nil_append, readText, if_pos rfl]
  | cons c text ih =>
    obtain ⟨fuel, rfl⟩ := Nat.exists_eq_add_one_of_ne_zero (ne_of_gt (Nat.zero_lt_of_lt h))
    have hpos : 0 < (escapeChar c).length := length_pos_iff.mpr (escapeChar_ne_nil c)
    rw [flatMap_cons, length_append] at h
    have hrest := @ih fuel (by omega)
    rw [flatMap_cons, append_assoc]
    rcases escapeChar_cases c with ⟨heq, hquote, hback, hcode⟩ | ⟨escape, heq, hread⟩
    · rw [heq, singleton_append, readText, if_neg hquote, if_neg hback, if_neg (by omega), hrest]
      rfl
    · rw [heq, cons_append, readText, if_neg (by decide), if_pos rfl, hread, bind_some]
      dsimp only
      rw [hrest]
      rfl

/-- What follows the quotation mark of a text. -/
theorem readText_renderString (text : String) (rest : List Char) :
    ∃ tail, renderString text ++ rest = quoteChar :: tail ∧
      readText (tail.length + 1) tail = some (text.toList, rest) := by
  refine ⟨text.toList.flatMap escapeChar ++ quoteChar :: rest, ?_, ?_⟩
  · rw [renderString, cons_append, append_assoc]
    rfl
  · apply readText_escape
    rw [length_append]
    omega

end text

/-! ## Values -/

mutual

/-- How deep arrays and maps are nested in a value. -/
def Json.nesting : Json → ℕ
  | .array items => Json.nestingItems items + 1
  | .object fields => Json.nestingFields fields + 1
  | _ => 0

/-- How deep they are nested in the items. -/
def Json.nestingItems : List Json → ℕ
  | [] => 0
  | item :: items => max item.nesting (Json.nestingItems items)

/-- How deep they are nested in the fields. -/
def Json.nestingFields : JsonMap → ℕ
  | [] => 0
  | (_, value) :: fields => max value.nesting (Json.nestingFields fields)

end

section values

variable {codec : NumberCodec}

/-- What may follow a value that is read. -/
def EndsInput (rest : List Char) : Prop := ∀ c ∈ rest.head?, isNumberInput c = false

theorem skipSpace_of_head {c : Char} {text : List Char} (h : isJsonSpace c = false) :
    skipSpace (c :: text) = c :: text := dropWhile_cons_of_neg (by simp [h])

/-- A value starts with no white space. -/
theorem isJsonSpace_of_kindOf {c : Char} {kind : ℕ} (h : kindOf c = some kind) :
    isJsonSpace c = false := by
  by_contra hspace
  rw [Bool.not_eq_false, isJsonSpace, decide_eq_true_iff] at hspace
  have hc : c = .ofNat 32 ∨ c = .ofNat 9 ∨ c = .ofNat 10 ∨ c = .ofNat 13 := by
    simp only [mem_cons, not_mem_nil, or_false] at hspace
    rcases hspace with hcode | hcode | hcode | hcode
    all_goals rw [← Char.ofNat_toNat c, hcode]; simp
  rcases hc with rfl | rfl | rfl | rfl <;> cases h

theorem skipSpace_render (value : Json) (rest : List Char) :
    skipSpace (value.render codec.toNumberTexts ++ rest) =
      value.render codec.toNumberTexts ++ rest := by
  obtain ⟨c, tail, heq, hkind⟩ := kindOf_render codec.toNumberTexts value
  rw [heq, cons_append, skipSpace_of_head (isJsonSpace_of_kindOf hkind)]

theorem readWord_null (rest : List Char) :
    readWord ("null".toList ++ rest) = some (.null, rest) := by
  simp [readWord]

theorem readWord_bool (value : Bool) (rest : List Char) :
    readWord ((if value then "true".toList else "false".toList) ++ rest) =
      some (.bool value, rest) := by
  cases value <;> simp [readWord]

/-- The digits of a number are read up to what follows it. -/
theorem span_number {digits rest : List Char} (hchars : ∀ c ∈ digits, isNumberChar c = true)
    (hrest : EndsInput rest) :
    (digits ++ rest).takeWhile isNumberInput = digits ∧
    (digits ++ rest).dropWhile isNumberInput = rest := by
  have hall : ∀ c ∈ digits, isNumberInput c = true := by
    intro c hc
    rw [isNumberInput, hchars c hc, Bool.true_or]
  rw [takeWhile_append_of_pos hall, dropWhile_append_of_pos hall]
  cases rest with
  | nil => simp
  | cons c rest => simp [hrest c rfl]

/-- The digits of a number are read as what they are parsed as. -/
theorem readValue_digits {fuel depth : ℕ} {digits rest : List Char} {value : ℚ} (hne : digits ≠ [])
    (hchars : ∀ c ∈ digits, isNumberChar c = true) (hparse : codec.parse digits = some value)
    (hrest : EndsInput rest) :
    readValue codec (fuel + 1) depth (digits ++ rest) = some (.number value, rest) := by
  obtain ⟨htake, hdrop⟩ := span_number hchars hrest
  obtain ⟨c, tail, rfl⟩ := exists_cons_of_ne_nil hne
  have hc : isNumberChar c = true := hchars c mem_cons_self
  have hinput : isNumberInput c = true := by rw [isNumberInput, hc, Bool.true_or]
  have hkind : kindOf c = some 3 := by rw [kindOf, if_pos hc]
  have hother : ∀ d, isNumberChar d = false → c ≠ d := by
    rintro d hd rfl
    simp [hd] at hc
  rw [cons_append] at htake hdrop ⊢
  rw [takeWhile_cons_of_pos hinput] at htake
  rw [dropWhile_cons_of_pos hinput] at hdrop
  rw [readValue, skipSpace_of_head (isJsonSpace_of_kindOf hkind)]
  dsimp only
  rw [if_neg (hother _ (by decide)), if_neg (hother _ (by decide)), if_neg (hother _ (by decide)),
    if_pos hinput, htake, hdrop, hparse]
  rfl

theorem readValue_number {fuel depth : ℕ} (value : ℚ) {rest : List Char} (hrest : EndsInput rest) :
    readValue codec (fuel + 1) depth ((codec.text value).toList ++ rest) =
      some (.number value, rest) :=
  readValue_digits (fun hnil => codec.nonempty value (String.toList_eq_nil_iff.mp hnil)) (codec.chars value)
    (codec.parse_text value) hrest

theorem readValue_word {fuel depth : ℕ} {c : Char} {text : List Char}
    (hspace : isJsonSpace c = false)
    (h : c ≠ quoteChar ∧ c ≠ '[' ∧ c ≠ '\x7b' ∧ isNumberInput c = false) :
    readValue codec (fuel + 1) depth (c :: text) = readWord (c :: text) := by
  obtain ⟨hquote, hbracket, hbrace, hnumber⟩ := h
  rw [readValue, skipSpace_of_head hspace]
  dsimp only
  rw [if_neg hquote, if_neg hbracket, if_neg hbrace, if_neg (by simp [hnumber])]

theorem readValue_string {fuel depth : ℕ} (text : String) (rest : List Char) :
    readValue codec (fuel + 1) depth (renderString text ++ rest) = some (.string text, rest) := by
  obtain ⟨tail, heq, hread⟩ := readText_renderString text rest
  rw [heq, readValue, skipSpace_of_head (by decide)]
  dsimp only
  rw [if_pos rfl, hread, map_some, String.ofList_toList]

/-- What follows an item or a field. -/
theorem endsInput_of_head {c : Char} {rest : List Char} (h : isNumberInput c = false) :
    EndsInput (c :: rest) := by
  rintro d hd
  obtain rfl : c = d := some.inj hd
  exact h

/-- An array or a map has a character for each level. -/
theorem render_ne_nil (value : Json) : value.render codec.toNumberTexts ≠ [] := by
  obtain ⟨c, tail, heq, -⟩ := kindOf_render codec.toNumberTexts value
  rw [heq]
  exact cons_ne_nil _ _

/-- One item, and what follows it. -/
theorem readItems_item {text : List Char} {item : Json} {fuel depth : ℕ} {c : Char}
    {rest : List Char} (hspace : isJsonSpace c = false)
    (hitem : readValue codec fuel depth (text ++ c :: rest) = some (item, c :: rest)) :
    readItems codec (fuel + 1) depth (text ++ c :: rest) =
      if c = ',' then (readItems codec fuel depth rest).map fun (items, rest) => (item :: items, rest)
      else if c = ']' then some ([item], rest)
      else none := by
  rw [readItems, hitem]
  dsimp only
  rw [skipSpace_of_head hspace]

/-- One field, and what follows it. -/
theorem readFields_field {key : String} {text : List Char} {value : Json} {done : JsonMap}
    {fuel depth : ℕ} {c : Char} {rest : List Char} (hspace : isJsonSpace c = false)
    (hnew : key ∉ done.keys)
    (hvalue : readValue codec fuel depth (text ++ c :: rest) = some (value, c :: rest)) :
    readFields codec (fuel + 1) depth done (renderString key ++ ':' :: (text ++ c :: rest)) =
      if c = ',' then readFields codec fuel depth (done ++ [(key, value)]) rest
      else if c = '\x7d' then some (done ++ [(key, value)], rest)
      else none := by
  obtain ⟨tail, heq, hkey⟩ := readText_renderString key (':' :: (text ++ c :: rest))
  rw [heq, readFields, skipSpace_of_head (by decide)]
  dsimp only
  rw [if_neg (by simp), hkey]
  dsimp only
  rw [skipSpace_of_head (by decide)]
  dsimp only
  rw [if_neg (by simp), hvalue]
  dsimp only
  rw [skipSpace_of_head hspace, String.ofList_toList, JsonMap.set_of_not_mem hnew]

theorem not_mem_keys_of_nodup {done fields : JsonMap} {entry : String × Json}
    (h : (done ++ entry :: fields).keys.Nodup) : entry.1 ∉ done.keys := by
  rw [JsonMap.keys, map_append] at h
  exact fun hmem => (nodup_append.mp h).2.2 _ hmem _ mem_cons_self rfl

mutual

/-- **The text of a value is read as the value.** -/
theorem readValue_render (value : Json) {fuel depth : ℕ} {rest : List Char}
    (hkeys : value.DistinctKeys) (hfuel : (value.render codec.toNumberTexts).length ≤ fuel)
    (hdepth : value.nesting ≤ depth) (hrest : EndsInput rest) :
    readValue codec fuel depth (value.render codec.toNumberTexts ++ rest) = some (value, rest) := by
  have hpos : 0 < (value.render codec.toNumberTexts).length :=
    length_pos_iff.mpr (render_ne_nil value)
  obtain ⟨fuel, rfl⟩ := Nat.exists_eq_add_one_of_ne_zero (show fuel ≠ 0 by omega)
  match value with
  | .null => exact (readValue_word (by decide) (by decide)).trans (readWord_null rest)
  | .bool true => exact (readValue_word (by decide) (by decide)).trans (readWord_bool true rest)
  | .bool false => exact (readValue_word (by decide) (by decide)).trans (readWord_bool false rest)
  | .number value => exact readValue_number value hrest
  | .string text => exact readValue_string text rest
  | .array [] =>
    rw [Json.nesting] at hdepth
    rw [Json.render, Json.renderItems, cons_append, readValue, skipSpace_of_head (by decide)]
    dsimp only
    rw [if_neg (by decide), if_pos rfl, if_neg (by omega), singleton_append,
      skipSpace_of_head (by decide), head?_cons, if_pos rfl, tail_cons]
  | .array (item :: items) =>
    rw [Json.nesting] at hdepth
    rw [Json.render, length_cons] at hfuel
    have hitems :
        readItems codec fuel (depth - 1) (Json.renderItems codec.toNumberTexts (item :: items) ++ rest) =
        some (item :: items, rest) :=
      readItems_render (item :: items) (cons_ne_nil _ _) hkeys (by omega) (by omega)
    have hbracket :
        (skipSpace (Json.renderItems codec.toNumberTexts (item :: items) ++ rest)).head? ≠ some ']' := by
      rw [Json.renderItems, append_assoc, skipSpace_render]
      intro h
      obtain ⟨tail, htail⟩ := head?_eq_some_iff.mp h
      exact render_ne_bracket htail
    rw [Json.render, cons_append, readValue, skipSpace_of_head (by decide)]
    dsimp only
    rw [if_neg (by decide), if_pos rfl, if_neg (by omega), if_neg hbracket, hitems]
    rfl
  | .object [] =>
    rw [Json.nesting] at hdepth
    rw [Json.render, Json.renderFields, cons_append, readValue, skipSpace_of_head (by decide)]
    dsimp only
    rw [if_neg (by decide), if_neg (by decide), if_pos rfl, if_neg (by omega),
      singleton_append, skipSpace_of_head (by decide), head?_cons, if_pos rfl,
      tail_cons]
  | .object ((key, value) :: fields) =>
    rw [Json.nesting] at hdepth
    rw [Json.render, length_cons] at hfuel
    have hfields : readFields codec fuel (depth - 1) []
        (Json.renderFields codec.toNumberTexts ((key, value) :: fields) ++ rest) =
          some ((key, value) :: fields, rest) :=
      readFields_render ((key, value) :: fields) (cons_ne_nil _ _) [] hkeys.1 hkeys.2 (by omega) (by omega)
    have hbrace :
        (skipSpace (Json.renderFields codec.toNumberTexts ((key, value) :: fields) ++ rest)).head? ≠
        some '\x7d' := by
      obtain ⟨tail, heq, -⟩ := readText_renderString key
        (':' :: (value.render codec.toNumberTexts ++ Json.renderMoreFields codec.toNumberTexts fields) ++ rest)
      rw [Json.renderFields, append_assoc, heq, skipSpace_of_head (by decide), head?_cons]
      decide
    rw [Json.render, cons_append, readValue, skipSpace_of_head (by decide)]
    dsimp only
    rw [if_neg (by decide), if_neg (by decide), if_pos rfl, if_neg (by omega), if_neg hbrace,
      hfields]
    rfl

theorem readItems_render (items : List Json) (hne : items ≠ []) {fuel depth : ℕ} {rest : List Char}
    (hkeys : Json.DistinctItems items)
    (hfuel : (Json.renderItems codec.toNumberTexts items).length ≤ fuel)
    (hdepth : Json.nestingItems items ≤ depth) :
    readItems codec fuel depth (Json.renderItems codec.toNumberTexts items ++ rest) =
      some (items, rest) := by
  match items, hne with
  | [item], _ =>
    rw [Json.renderItems, Json.renderMoreItems] at hfuel ⊢
    rw [length_append, length_singleton] at hfuel
    rw [Json.nestingItems] at hdepth
    obtain ⟨fuel, rfl⟩ := Nat.exists_eq_add_one_of_ne_zero (show fuel ≠ 0 by omega)
    have hends : EndsInput (']' :: rest) := endsInput_of_head (by decide)
    have hitem :=
      readValue_render item hkeys.1 (show _ ≤ fuel by omega) (show _ ≤ depth by omega) hends
    rw [append_assoc, singleton_append, readItems_item (by decide) hitem,
      if_neg (by decide), if_pos rfl]
  | item :: next :: items, _ =>
    have hmore : Json.renderItems codec.toNumberTexts (item :: next :: items) =
        item.render codec.toNumberTexts ++ ',' :: Json.renderItems codec.toNumberTexts (next :: items) := rfl
    rw [hmore] at hfuel ⊢
    rw [length_append, length_cons] at hfuel
    rw [Json.nestingItems] at hdepth
    obtain ⟨fuel, rfl⟩ := Nat.exists_eq_add_one_of_ne_zero (show fuel ≠ 0 by omega)
    have hends :
        EndsInput (',' :: (Json.renderItems codec.toNumberTexts (next :: items) ++ rest)) :=
      endsInput_of_head (by decide)
    have hitem :=
      readValue_render item hkeys.1 (show _ ≤ fuel by omega) (show _ ≤ depth by omega) hends
    have hrest :
        readItems codec fuel depth (Json.renderItems codec.toNumberTexts (next :: items) ++ rest) =
        some (next :: items, rest) :=
      readItems_render (next :: items) (cons_ne_nil _ _) hkeys.2 (by omega) (by omega)
    rw [append_assoc, cons_append, readItems_item (by decide) hitem, if_pos rfl, hrest]
    rfl

theorem readFields_render (fields : JsonMap) (hne : fields ≠ []) (done : JsonMap) {fuel depth : ℕ}
    {rest : List Char} (hkeys : (done ++ fields).keys.Nodup)
    (hdistinct : Json.DistinctFields fields)
    (hfuel : (Json.renderFields codec.toNumberTexts fields).length ≤ fuel)
    (hdepth : Json.nestingFields fields ≤ depth) :
    readFields codec fuel depth done (Json.renderFields codec.toNumberTexts fields ++ rest) =
      some (done ++ fields, rest) := by
  match fields, hne with
  | [(key, value)], _ =>
    have hmore : Json.renderFields codec.toNumberTexts [(key, value)] =
        renderString key ++ ':' :: (value.render codec.toNumberTexts ++ ['\x7d']) := rfl
    rw [hmore] at hfuel ⊢
    rw [length_append, length_cons, length_append, length_singleton] at hfuel
    rw [Json.nestingFields] at hdepth
    obtain ⟨fuel, rfl⟩ := Nat.exists_eq_add_one_of_ne_zero (show fuel ≠ 0 by omega)
    have hends : EndsInput ('\x7d' :: rest) := endsInput_of_head (by decide)
    have hvalue :=
      readValue_render value hdistinct.1 (show _ ≤ fuel by omega) (show _ ≤ depth by omega) hends
    rw [append_assoc, cons_append, append_assoc, singleton_append,
      readFields_field (by decide) (not_mem_keys_of_nodup hkeys) hvalue, if_neg (by decide), if_pos rfl]
  | (key, value) :: next :: fields, _ =>
    have hmore : Json.renderFields codec.toNumberTexts ((key, value) :: next :: fields) =
        renderString key ++ ':' :: (value.render codec.toNumberTexts ++
          ',' :: Json.renderFields codec.toNumberTexts (next :: fields)) := rfl
    rw [hmore] at hfuel ⊢
    rw [length_append, length_cons, length_append, length_cons] at hfuel
    rw [Json.nestingFields] at hdepth
    obtain ⟨fuel, rfl⟩ := Nat.exists_eq_add_one_of_ne_zero (show fuel ≠ 0 by omega)
    have hends :
        EndsInput (',' :: (Json.renderFields codec.toNumberTexts (next :: fields) ++ rest)) :=
      endsInput_of_head (by decide)
    have hvalue :=
      readValue_render value hdistinct.1 (show _ ≤ fuel by omega) (show _ ≤ depth by omega) hends
    have hassoc : done ++ (key, value) :: next :: fields =
        done ++ [(key, value)] ++ next :: fields := by simp
    have hrest : readFields codec fuel depth (done ++ [(key, value)])
        (Json.renderFields codec.toNumberTexts (next :: fields) ++ rest) =
          some (done ++ [(key, value)] ++ next :: fields, rest) :=
      readFields_render (next :: fields) (cons_ne_nil _ _) _ (hassoc ▸ hkeys) hdistinct.2 (by omega) (by omega)
    rw [append_assoc, cons_append, append_assoc, cons_append,
      readFields_field (by decide) (not_mem_keys_of_nodup hkeys) hvalue, if_pos rfl, hrest, hassoc]

end

end values

/-! ## Normal forms -/

section normal

theorem distinctFields_insertField {key : String} {value : Json} {m : JsonMap}
    (hvalue : value.DistinctKeys) (h : Json.DistinctFields m) :
    Json.DistinctFields (insertField key value m) := by
  induction m with
  | nil => exact ⟨hvalue, trivial⟩
  | cons entry m ih =>
    obtain ⟨k, v⟩ := entry
    rw [insertField]
    split_ifs
    · exact ⟨hvalue, h⟩
    · exact ⟨hvalue, h.2⟩
    · exact ⟨h.1, ih h.2⟩

theorem nestingFields_insertField_le (key : String) (value : Json) (m : JsonMap) :
    Json.nestingFields (insertField key value m) ≤ max value.nesting (Json.nestingFields m) := by
  induction m with
  | nil => exact le_refl _
  | cons entry m ih =>
    obtain ⟨k, v⟩ := entry
    rw [insertField]
    split_ifs
    · exact le_refl _
    · rw [Json.nestingFields, Json.nestingFields]
      omega
    · rw [Json.nestingFields, Json.nestingFields]
      omega

mutual

/-- A normal form has each key once. -/
theorem distinctKeys_normalize (value : Json) : value.normalize.DistinctKeys := by
  match value with
  | .null | .bool _ | .number _ | .string _ => exact trivial
  | .array items => exact distinctItems_normalizeItems items
  | .object fields =>
    refine ⟨?_, distinctFields_normalizeFields fields⟩
    rw [JsonMap.keys, List.Nodup, pairwise_map]
    exact (keysInOrder_normalizeFields fields).imp fun hlt => ne_of_lt hlt

theorem distinctItems_normalizeItems (items : List Json) :
    Json.DistinctItems (Json.normalizeItems items) := by
  match items with
  | [] => exact trivial
  | item :: items => exact ⟨distinctKeys_normalize item, distinctItems_normalizeItems items⟩

theorem distinctFields_normalizeFields (fields : JsonMap) :
    Json.DistinctFields (Json.normalizeFields fields) := by
  match fields with
  | [] => exact trivial
  | (key, value) :: fields =>
    exact distinctFields_insertField (distinctKeys_normalize value) (distinctFields_normalizeFields fields)

end

mutual

/-- A normal form is not nested deeper. -/
theorem nesting_normalize_le (value : Json) : value.normalize.nesting ≤ value.nesting := by
  match value with
  | .null | .bool _ | .number _ | .string _ => exact le_refl _
  | .array items => exact Nat.succ_le_succ (nestingItems_normalizeItems_le items)
  | .object fields => exact Nat.succ_le_succ (nestingFields_normalizeFields_le fields)

theorem nestingItems_normalizeItems_le (items : List Json) :
    Json.nestingItems (Json.normalizeItems items) ≤ Json.nestingItems items := by
  match items with
  | [] => exact le_refl _
  | item :: items =>
    rw [Json.normalizeItems, Json.nestingItems, Json.nestingItems]
    exact max_le_max (nesting_normalize_le item) (nestingItems_normalizeItems_le items)

theorem nestingFields_normalizeFields_le (fields : JsonMap) :
    Json.nestingFields (Json.normalizeFields fields) ≤ Json.nestingFields fields := by
  match fields with
  | [] => exact le_refl _
  | (key, value) :: fields =>
    rw [Json.normalizeFields, Json.nestingFields]
    refine (nestingFields_insertField_le key value.normalize _).trans ?_
    exact max_le_max (nesting_normalize_le value) (nestingFields_normalizeFields_le fields)

end

/-- **What `json.Marshal` writes is read as the value**, with its maps in order. -/
theorem unmarshal_marshal (codec : NumberCodec) {value : Json}
    (h : value.nesting ≤ maxNestingDepth) :
    unmarshal codec (marshal codec.toNumberTexts value).toList = some value.normalize := by
  rw [marshal, String.toList_ofList, unmarshal]
  have hends : EndsInput [] := fun c hc => absurd hc (Option.not_mem_none c)
  have hread := @readValue_render codec value.normalize
    ((value.normalize.render codec.toNumberTexts).length + 1) maxNestingDepth [] (distinctKeys_normalize value)
    (by omega) ((nesting_normalize_le value).trans h) hends
  rw [append_nil] at hread
  rw [hread]
  exact if_pos rfl

/-- Numbers written as so many ones as tell them apart. -/
def countedTexts : NumberCodec where
  text value := .ofList (replicate (Encodable.encode value + 1) '1')
  injective a b h := by
    have hlength := congrArg List.length (String.ofList_injective h)
    rw [length_replicate, length_replicate] at hlength
    exact Encodable.encode_injective (by omega)
  nonempty value h := by
    have hlist := congrArg String.toList h
    simp [String.toList_ofList] at hlist
  chars value c hc := by
    rw [String.toList_ofList] at hc
    rw [eq_of_mem_replicate hc]
    decide
  parse text := Encodable.decode (text.length - 1)
  parse_text value := by
    rw [String.toList_ofList, length_replicate, Nat.add_sub_cancel, Encodable.encodek]

end normal

end Dataflow.Model
