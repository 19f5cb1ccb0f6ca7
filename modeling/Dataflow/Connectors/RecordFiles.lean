import Dataflow.Model.Unmarshal

/-!
# Files of records

The file connectors write records as a JSON array, or as lines with one JSON value each, and read
both.

* `encodeRecords`: the code that writes them.
* `decodeLines`, `decodeRecords`: the code that reads them; a line has at most as many bytes as the
  buffer of the scanner.
* `code_render`: a JSON text has no line breaks in it.
* `decodeRecords_encodeRecords_json`, `decodeRecords_encodeRecords_jsonl`: both formats.
* **`decodeRecords_encodeRecords`**: what is written is read again, unless a line is longer than
  the buffer.
* `long_record`: a record with a long text.

Source: `files.go`
-/

namespace Dataflow.Connectors

open Model List

/-! ## The code -/

/-- The end of a line. -/
def newline : Char := .ofNat 10

/-- The buffer of the scanner, `10<<20`. -/
def maxLineBytes : ℕ := 10 * 2 ^ 20

/-- How many bytes a text has. -/
def textBytes (text : List Char) : ℕ := (text.map Char.utf8Size).sum

/-- `bufio.ScanLines` takes a carriage return at the end of a line away. -/
def dropReturn (line : List Char) : List Char :=
  if line.getLast? = some (.ofNat 13) then line.dropLast else line

/-- `bufio.ErrTooLong`. -/
def tooLong : String := "bufio.Scanner: token too long"

section code

variable (codec : NumberCodec) (message : List Char → String)

/-- The values of lines. The last line has no end, and counts for nothing if it is empty. A line and
its end must fit into the buffer, and the last line must leave room in it. -/
def decodeLines : List (List Char) → Except String (List Json)
  | [] => .ok []
  | [last] =>
    if last = [] then .ok []
    else if maxLineBytes ≤ textBytes last then .error tooLong
    else match unmarshal codec (dropReturn last) with
      | some value => .ok [value]
      | none => .error (message (dropReturn last))
  | line :: next :: lines =>
    if maxLineBytes < textBytes line + 1 then .error tooLong
    else match unmarshal codec (dropReturn line) with
      | some value => (decodeLines (next :: lines)).map fun values => value :: values
      | none => .error (message (dropReturn line))

/-- Source: `files.go` `decodeRecords`; `message` is the text of an error of `json.Unmarshal`. -/
def decodeRecords (body : List Char) (format : String) : Except String (List Json) :=
  if format = "jsonl" then decodeLines codec message (body.splitOn newline)
  else match unmarshal codec body with
    | none => .error (message body)
    | some (.array values) => .ok values
    | some value => .ok [value]

/-- Source: `files.go` `encodeRecords`, which finds no error in decoded values. -/
def encodeRecords (rows : List Json) (format : String) : List Char :=
  if format = "jsonl" then rows.flatMap fun row => (marshal codec.toNumberTexts row).toList ++ [newline]
  else (marshal codec.toNumberTexts (.array rows)).toList

end code

/-! ## JSON texts are lines -/

section lines

variable {numbers : NumberTexts}

theorem code_escapeChar {c d : Char} (h : d ∈ escapeChar c) : 32 ≤ d.toNat := by
  have hdigit : ∀ n < 16, 32 ≤ (hexDigit n).toNat := by decide
  unfold escapeChar at h
  cases hshort : shortEscapes.lookup c with
  | some short =>
    obtain ⟨before, after, hsplit, -⟩ := lookup_eq_some_iff.mp hshort
    have hmem : (c, short) ∈ shortEscapes := hsplit ▸ mem_append_right _ mem_cons_self
    have hcode : ∀ entry ∈ shortEscapes, 32 ≤ entry.2.toNat := by decide
    rw [hshort] at h
    rcases mem_cons.mp h with rfl | h
    · decide
    · rw [mem_singleton.mp h]
      exact hcode (c, short) hmem
  | none =>
    rw [hshort] at h
    dsimp only at h
    split_ifs at h with hcode
    · simp only [mem_cons, not_mem_nil, or_false] at h
      rcases h with rfl | rfl | rfl | rfl | rfl | rfl
      · decide
      · decide
      all_goals exact hdigit _ (Nat.mod_lt _ (by decide))
    · rw [not_or] at hcode
      rw [mem_singleton.mp h]
      omega

theorem code_renderString {text : String} {d : Char} (h : d ∈ renderString text) :
    32 ≤ d.toNat := by
  rw [renderString] at h
  rcases mem_cons.mp h with rfl | h
  · decide
  · rcases mem_append.mp h with h | h
    · obtain ⟨c, -, hd⟩ := mem_flatMap.mp h
      exact code_escapeChar hd
    · rw [mem_singleton.mp h]
      decide

theorem code_of_all {text : List Char} (h : text.all (fun c => decide (32 ≤ c.toNat)) = true) :
    ∀ c ∈ text, 32 ≤ c.toNat := by
  simpa using h

mutual

/-- **A JSON text** has no control characters, and so no line breaks. -/
theorem code_render (value : Json) : ∀ c ∈ value.render numbers, 32 ≤ c.toNat := by
  match value with
  | .null => exact @code_of_all "null".toList (by decide)
  | .bool true => exact @code_of_all "true".toList (by decide)
  | .bool false => exact @code_of_all "false".toList (by decide)
  | .number value =>
    intro c hc
    have hnumber := numbers.chars value c hc
    by_contra hcode
    have hall : ∀ n < 32, isNumberChar (.ofNat n) = false := by decide
    rw [← Char.ofNat_toNat c, hall _ (by omega)] at hnumber
    cases hnumber
  | .string text => exact fun c hc => code_renderString hc
  | .array items => exact forall_mem_cons.mpr ⟨by decide, code_renderItems items⟩
  | .object fields => exact forall_mem_cons.mpr ⟨by decide, code_renderFields fields⟩

theorem code_renderItems (items : List Json) :
    ∀ c ∈ Json.renderItems numbers items, 32 ≤ c.toNat := by
  match items with
  | [] => exact @code_of_all [']'] (by decide)
  | item :: items => exact forall_mem_append.mpr ⟨code_render item, code_renderMoreItems items⟩

theorem code_renderMoreItems (items : List Json) :
    ∀ c ∈ Json.renderMoreItems numbers items, 32 ≤ c.toNat := by
  match items with
  | [] => exact @code_of_all [']'] (by decide)
  | item :: items =>
    exact forall_mem_cons.mpr ⟨by decide,
      forall_mem_append.mpr ⟨code_render item, code_renderMoreItems items⟩⟩

theorem code_renderFields (fields : JsonMap) :
    ∀ c ∈ Json.renderFields numbers fields, 32 ≤ c.toNat := by
  match fields with
  | [] => exact @code_of_all ['\x7d'] (by decide)
  | (key, value) :: fields =>
    exact forall_mem_append.mpr ⟨fun c hc => code_renderString hc, forall_mem_cons.mpr ⟨by decide,
      forall_mem_append.mpr ⟨code_render value, code_renderMoreFields fields⟩⟩⟩

theorem code_renderMoreFields (fields : JsonMap) :
    ∀ c ∈ Json.renderMoreFields numbers fields, 32 ≤ c.toNat := by
  match fields with
  | [] => exact @code_of_all ['\x7d'] (by decide)
  | (key, value) :: fields =>
    exact forall_mem_cons.mpr ⟨by decide, forall_mem_append.mpr ⟨fun c hc => code_renderString hc,
      forall_mem_cons.mpr ⟨by decide,
        forall_mem_append.mpr ⟨code_render value, code_renderMoreFields fields⟩⟩⟩⟩

end

/-- The text of a value has no character of a line's end. -/
theorem not_mem_marshal {c : Char} (h : c.toNat < 32) (value : Json) :
    c ∉ (marshal numbers value).toList := by
  rw [marshal, String.toList_ofList]
  intro hc
  have hcode := code_render value.normalize c hc
  omega

theorem dropReturn_marshal (value : Json) :
    dropReturn (marshal numbers value).toList = (marshal numbers value).toList := by
  rw [dropReturn, if_neg]
  intro hlast
  exact not_mem_marshal (by decide) value (mem_of_getLast? hlast)

/-- Lines with their ends. -/
theorem splitOn_lines {lines : List (List Char)} (h : ∀ line ∈ lines, newline ∉ line) :
    (lines.flatMap fun line => line ++ [newline]).splitOn newline = lines ++ [[]] := by
  have hjoin : lines.flatMap (fun line => line ++ [newline]) =
      [newline].intercalate (lines ++ [[]]) := by
    clear h
    induction lines with
    | nil => simp
    | cons line lines ih =>
      obtain ⟨next, rest, hrest⟩ := exists_cons_of_ne_nil
        (show lines ++ [[]] ≠ [] from append_ne_nil_of_right_ne_nil _ (cons_ne_nil _ _))
      rw [flatMap_cons, ih, cons_append, hrest, intercalate_cons_cons]
  rw [hjoin, splitOn_intercalate]
  · intro line hline
    rcases mem_append.mp hline with hline | hline
    · exact h line hline
    · rw [mem_singleton.mp hline]
      exact not_mem_nil
  · exact append_ne_nil_of_right_ne_nil _ (cons_ne_nil _ _)

end lines

/-! ## What is written is read -/

section roundTrip

variable {codec : NumberCodec} {message : List Char → String} {rows : List Json}

/-- **Lines are read** up to the first one that does not fit into the buffer. -/
theorem decodeLines_marshal (h : ∀ row ∈ rows, row.nesting ≤ maxNestingDepth) :
    decodeLines codec message ((rows.map fun row => (marshal codec.toNumberTexts row).toList) ++ [[]]) =
      if ∃ row ∈ rows, maxLineBytes ≤ textBytes (marshal codec.toNumberTexts row).toList then .error tooLong
      else .ok (rows.map Json.normalize) := by
  induction rows with
  | nil => rfl
  | cons row rows ih =>
    obtain ⟨next, rest, hrest⟩ := exists_cons_of_ne_nil
      (show (rows.map fun row => (marshal codec.toNumberTexts row).toList) ++ [[]] ≠ [] from
        append_ne_nil_of_right_ne_nil _ (cons_ne_nil _ _))
    have hmore := ih fun r hr => h r (mem_cons_of_mem _ hr)
    rw [map_cons, cons_append, hrest, decodeLines, ← hrest, hmore, dropReturn_marshal,
      unmarshal_marshal codec (h row mem_cons_self)]
    simp only [mem_cons, exists_eq_or_imp]
    by_cases hlong : maxLineBytes ≤ textBytes (marshal codec.toNumberTexts row).toList
    · rw [if_pos (by omega), if_pos (.inl hlong)]
    · rw [if_neg (by omega)]
      by_cases hothers : ∃ r ∈ rows, maxLineBytes ≤ textBytes (marshal codec.toNumberTexts r).toList
      · rw [if_pos hothers, if_pos (.inr hothers)]
        rfl
      · rw [if_neg hothers, if_neg (not_or.mpr ⟨hlong, hothers⟩)]
        rfl

theorem decodeRecords_encodeRecords_jsonl (h : ∀ row ∈ rows, row.nesting ≤ maxNestingDepth) :
    decodeRecords codec message (encodeRecords codec rows "jsonl") "jsonl" =
      if ∃ row ∈ rows, maxLineBytes ≤ textBytes (marshal codec.toNumberTexts row).toList then .error tooLong
      else .ok (rows.map Json.normalize) := by
  rw [decodeRecords, if_pos rfl, encodeRecords, if_pos rfl, ← decodeLines_marshal h]
  rw [← splitOn_lines, flatMap_map]
  intro line hline
  obtain ⟨row, -, rfl⟩ := mem_map.mp hline
  exact not_mem_marshal (by decide) row

theorem nestingItems_le {n : ℕ} (h : ∀ row ∈ rows, row.nesting ≤ n) :
    Json.nestingItems rows ≤ n := by
  induction rows with
  | nil => exact Nat.zero_le n
  | cons row rows ih =>
    rw [Json.nestingItems]
    exact max_le (h row mem_cons_self) (ih fun r hr => h r (mem_cons_of_mem _ hr))

theorem decodeRecords_encodeRecords_json {format : String}
    (hformat : format ≠ "jsonl") (h : ∀ row ∈ rows, row.nesting < maxNestingDepth) :
    decodeRecords codec message (encodeRecords codec rows format) format =
      .ok (rows.map Json.normalize) := by
  have hnesting : (Json.array rows).nesting ≤ maxNestingDepth :=
    Nat.succ_le_succ (nestingItems_le fun row hrow => Nat.le_pred_of_lt (h row hrow))
  rw [decodeRecords, if_neg hformat, encodeRecords, if_neg hformat,
    unmarshal_marshal codec hnesting, Json.normalize, normalizeItems_eq_map]

/-- **What is written is read again**, each record with its maps in order, unless a line of JSON and
its end do not fit into the buffer of the scanner. Records are nested less deeply than
`json.Unmarshal` reads, as those are that come from an array it has read.
Source: `files.go` `encodeRecords`, `decodeRecords` -/
theorem decodeRecords_encodeRecords (codec : NumberCodec) (message : List Char → String)
    (rows : List JsonMap) (format : String)
    (h : ∀ row ∈ rows, (Json.object row).nesting < maxNestingDepth) :
    decodeRecords codec message (encodeRecords codec (rows.map .object) format) format =
      if format = "jsonl" ∧
          ∃ row ∈ rows, maxLineBytes < textBytes (marshal codec.toNumberTexts (.object row)).toList + 1 then
        .error tooLong
      else .ok (rows.map fun row => (Json.object row).normalize) := by
  have hrows : ∀ row ∈ rows.map Json.object, row.nesting < maxNestingDepth :=
    forall_mem_map.mpr h
  by_cases hformat : format = "jsonl"
  · rw [hformat, decodeRecords_encodeRecords_jsonl fun row hrow => (hrows row hrow).le]
    simp only [mem_map, exists_exists_and_eq_and, map_map, true_and, Nat.lt_succ_iff]
    rfl
  · rw [decodeRecords_encodeRecords_json hformat hrows, if_neg fun hlong => hformat hlong.1,
      map_map]
    rfl

/-- Two records, one with a line break in a text and with its fields in another order. -/
theorem decodeRecords_encodeRecords_two :
    decodeRecords countedTexts (fun _ => "") (encodeRecords countedTexts
        [.object [("b", .string (.ofList ['x', newline])), ("a", .null)], .object []] "jsonl") "jsonl" =
      .ok [.object [("a", .null), ("b", .string (.ofList ['x', newline]))], .object []] :=
  (decodeRecords_encodeRecords countedTexts (fun _ => "")
    [[("b", .string (.ofList ['x', newline])), ("a", .null)], []] "jsonl" (by decide)).trans (by decide +kernel)

/-! ## A record that is not read -/

theorem length_le_textBytes (text : List Char) : text.length ≤ textBytes text := by
  induction text with
  | nil => exact le_refl _
  | cons c text ih =>
    have hsize := c.utf8Size_pos
    rw [textBytes] at ih ⊢
    rw [map_cons, sum_cons, length_cons]
    omega

theorem length_le_renderString (text : String) :
    text.toList.length ≤ (renderString text).length := by
  have hflat : ∀ cs : List Char, cs.length ≤ (cs.flatMap escapeChar).length := by
    intro cs
    induction cs with
    | nil => exact le_refl _
    | cons c cs ih =>
      have hpos := length_pos_iff.mpr (escapeChar_ne_nil c)
      rw [flatMap_cons, length_append, length_cons]
      omega
  have hall := hflat text.toList
  rw [renderString, length_cons, length_append]
  omega

/-- A record with a text as long as the buffer. -/
theorem decodeRecords_long {n : ℕ} (hlong : maxLineBytes ≤ n) :
    decodeRecords countedTexts (fun _ => "") (encodeRecords countedTexts
      [.object [("a", .string (.ofList (replicate n 'x')))]] "jsonl") "jsonl" = .error tooLong := by
  rw [decodeRecords_encodeRecords_jsonl (by simp [Json.nesting, Json.nestingFields, maxNestingDepth]), if_pos]
  refine ⟨_, mem_cons_self, ?_⟩
  refine le_trans ?_ (length_le_textBytes _)
  rw [marshal, String.toList_ofList]
  have htext := length_le_renderString (.ofList (replicate n 'x'))
  rw [String.toList_ofList, length_replicate] at htext
  simp only [Json.normalize, Json.normalizeFields, insertField, Json.render, Json.renderFields,
    Json.renderMoreFields, length_cons, length_append]
  omega

/-- **A record with a long text** is written and not read. -/
theorem long_record : ¬ ∀ rows : List JsonMap, decodeRecords countedTexts (fun _ => "")
      (encodeRecords countedTexts (rows.map .object) "jsonl") "jsonl" =
        .ok (rows.map fun row => (Json.object row).normalize) := by
  intro h
  -- how long the text is must not be computed
  obtain ⟨n, hn⟩ : ∃ n, maxLineBytes ≤ n := ⟨_, Nat.le_refl _⟩
  have hrow := h [[("a", .string (.ofList (replicate n 'x')))]]
  rw [map_singleton, decodeRecords_long hn] at hrow
  cases hrow

end roundTrip

end Dataflow.Connectors
