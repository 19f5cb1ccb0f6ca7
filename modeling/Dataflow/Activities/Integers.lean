import Dataflow.Activities.ConnectorState
import Dataflow.Activities.Payloads
import Dataflow.Library.Float64
import Dataflow.Model.Reading

/-!
# Integers of a database on their way to a sink

A database driver returns integers of 64 bits. `json.Marshal` writes all of their digits, and
`json.Unmarshal`, which reads the payload for the next node, makes floating-point numbers of them.

* `ColumnValue`, `Row`: what a driver returns; `pgRow`: the code that makes rows of it.
* `ColumnValue.decoded`, `decodedPage`: what is left of it after `json.Unmarshal`.
* `exists_readsAs_pageText`: a page is read as that.
* `Delivers`: what a sink receives, after any nodes that copy it.
* `cursorReadBack`: a cursor from one page of a source to the next run.
* **`integers_survive_iff`**: the integers that arrive as they were.

Source: `payloads.go`, `databases.go` `pgRows`, `activities.go` `FetchSourcePage`, `DispatchNode`,
`CommitSourceCursors`
-/

namespace Dataflow.Activities.Integers

open Library Library.Base64 Library.Float64 Model Workflows List Option

/-! ## Rows of a database -/

/-- What a driver returns for a column: an integer, a value that `json.Marshal` writes as it does
decoded values (a text, a floating-point number, a column of type `jsonb`), or an array. -/
inductive ColumnValue where
  | int (value : Int64)
  | plain (value : Json)
  | array (items : List ColumnValue)

/-- `map[string]interface{}` of columns. -/
abbrev Row := AList fun _ : String => ColumnValue

/-- The body of the loop over the rows; `names` are the names of the columns.
Source: `databases.go` `pgRows` -/
def pgRow (names : List String) (values : List ColumnValue) : Row :=
  (names.zip values).foldl (fun row entry => row.insert entry.1 entry.2) ∅

/-- The value in an array, and in arrays in it. -/
def ColumnValue.at? : List ℕ → ColumnValue → Option ColumnValue
  | [], value => some value
  | i :: path, .array items => items[i]?.bind (ColumnValue.at? path)
  | _ :: _, _ => none

/-- The fields of a row in the order of their names. -/
def sortedFields (row : Row) : List (String × ColumnValue) :=
  (row.entries.map fun entry => (entry.1, entry.2)).mergeSort fun field field' => decide (field.1 ≤ field'.1)

section text

variable (numbers : NumberTexts)

mutual

/-- The text of a value: all digits of an integer. -/
def ColumnValue.text : ColumnValue → List Char
  | .int value => value.toInt.repr.toList
  | .plain value => (marshal numbers value).toList
  | .array items => '[' :: ([','].intercalate (ColumnValue.texts items) ++ [']'])

/-- The texts of items. -/
def ColumnValue.texts : List ColumnValue → List (List Char)
  | [] => []
  | item :: items => item.text :: ColumnValue.texts items

end

/-- The text of a row. -/
def rowText (row : Row) : List Char :=
  '\x7b' :: ([','].intercalate (((sortedFields row).map fun field => (field.1, field.2.text numbers)).map fieldText)
    ++ ['\x7d'])

/-- The text of a page of rows. Source: `payloads.go` `Payloads.Write`, `json.Marshal(data)` -/
def pageText (rows : List Row) : List Char :=
  '[' :: ([','].intercalate (rows.map (rowText numbers)) ++ [']'])

end text

/-! ## What they are read as -/

mutual

/-- A value after `json.Unmarshal`: an integer is the nearest floating-point number. -/
def ColumnValue.decoded : ColumnValue → Json
  | .int value => .number (roundInt value.toInt)
  | .plain value => value.normalize
  | .array items => .array (ColumnValue.decodedItems items)

/-- Items after it. -/
def ColumnValue.decodedItems : List ColumnValue → List Json
  | [] => []
  | item :: items => item.decoded :: ColumnValue.decodedItems items

end

/-- A row after `json.Unmarshal`. -/
def decodedRow (row : Row) : JsonMap :=
  (sortedFields row).map fun field => (field.1, field.2.decoded)

/-- A page after it. -/
def decodedPage (rows : List Row) : Json := .array (rows.map fun row => .object (decodedRow row))

/-- **An integer is read as the nearest floating-point number.** -/
def RoundsIntegers (codec : NumberCodec) : Prop :=
  ∀ value : Int64, codec.parse value.toInt.repr.toList = some (roundInt value.toInt : ℚ)

section reads

variable {codec : NumberCodec}

theorem keys_decodedRow_nodup (row : Row) : (decodedRow row).keys.Nodup := by
  have hkeys : (decodedRow row).keys = (sortedFields row).map Prod.fst := by
    rw [JsonMap.keys, decodedRow, List.map_map]
    rfl
  have hperm : ((sortedFields row).map Prod.fst).Perm row.keys := by
    refine ((mergeSort_perm _ _).map Prod.fst).trans (.of_eq ?_)
    rw [List.map_map]
    rfl
  rw [hkeys]
  exact hperm.nodup_iff.mpr (AList.keys_nodup row)

/-- The digits of an integer are read as the nearest floating-point number. -/
theorem readsAs_int (hcodec : RoundsIntegers codec) (n : Int64) :
    ReadsAs codec 0 n.toInt.repr.toList (.number (roundInt n.toInt)) := by
  refine readsAs_digits ?_ ?_ (hcodec n)
  · exact fun hnil => Decimal.repr_int_ne_empty _ (String.toList_eq_nil_iff.mp hnil)
  · intro c hc
    rcases isNumberChar_repr hc with hdigit | rfl
    · rw [isNumberChar, hdigit, Bool.true_or]
    · decide

mutual

/-- A value is read as it is decoded. -/
theorem exists_readsAs_text (hcodec : RoundsIntegers codec) (value : ColumnValue) :
    ∃ nesting, ReadsAs codec nesting (value.text codec.toNumberTexts) value.decoded := by
  match value with
  | .int value => exact ⟨0, readsAs_int hcodec value⟩
  | .plain value => exact ⟨_, readsAs_marshal value⟩
  | .array items =>
    obtain ⟨nesting, h⟩ := exists_readsAs_texts hcodec items
    exact ⟨nesting + 1, .array h⟩

theorem exists_readsAs_texts (hcodec : RoundsIntegers codec) (items : List ColumnValue) :
    ∃ nesting, Forall₂ (ReadsAs codec nesting) (ColumnValue.texts codec.toNumberTexts items)
      (ColumnValue.decodedItems items) := by
  match items with
  | [] => exact ⟨0, .nil⟩
  | item :: items =>
    obtain ⟨nesting, h⟩ := exists_readsAs_text hcodec item
    obtain ⟨nesting', h'⟩ := exists_readsAs_texts hcodec items
    exact ⟨max nesting nesting', .cons (h.mono (Nat.le_max_left _ _))
      (h'.imp fun _ _ hitem => hitem.mono (Nat.le_max_right _ _))⟩

end

/-- A list of texts is read if each of them is. -/
theorem exists_forall₂_readsAs {α β : Type} (R : ℕ → α → β → Prop)
    (hmono : ∀ {nesting nesting' : ℕ} {a : α} {b : β}, nesting ≤ nesting' → R nesting a b →
      R nesting' a b)
    {γ : Type} (f : γ → α) (g : γ → β) (h : ∀ c, ∃ nesting, R nesting (f c) (g c)) (l : List γ) :
    ∃ nesting, Forall₂ (R nesting) (l.map f) (l.map g) := by
  induction l with
  | nil => exact ⟨0, .nil⟩
  | cons c l ih =>
    obtain ⟨nesting, hfirst⟩ := h c
    obtain ⟨nesting', hrest⟩ := ih
    exact ⟨max nesting nesting', .cons (hmono (Nat.le_max_left _ _) hfirst)
      (hrest.imp fun _ _ hitem => hmono (Nat.le_max_right _ _) hitem)⟩

/-- A row is read as it is decoded. -/
theorem exists_readsAs_rowText (hcodec : RoundsIntegers codec) (row : Row) :
    ∃ nesting, ReadsAs codec nesting (rowText codec.toNumberTexts row) (.object (decodedRow row)) := by
  have hmono : ∀ {nesting nesting' : ℕ} {entry : String × List Char} {field : String × Json},
      nesting ≤ nesting' → FieldReadsAs codec nesting entry field → FieldReadsAs codec nesting' entry field :=
    fun hle h => ⟨h.1, h.2.mono hle⟩
  have hfield : ∀ field : String × ColumnValue, ∃ nesting, FieldReadsAs codec nesting
      (field.1, field.2.text codec.toNumberTexts) (field.1, field.2.decoded) :=
    fun field => (exists_readsAs_text hcodec field.2).imp fun _ h => ⟨rfl, h⟩
  obtain ⟨nesting, h⟩ := exists_forall₂_readsAs (FieldReadsAs codec) hmono
    (fun field : String × ColumnValue => (field.1, field.2.text codec.toNumberTexts))
    (fun field => (field.1, field.2.decoded)) hfield (sortedFields row)
  exact ⟨nesting + 1, .object h (keys_decodedRow_nodup row)⟩

/-- **A page is read as it is decoded.** -/
theorem exists_readsAs_pageText (hcodec : RoundsIntegers codec) (rows : List Row) :
    ∃ nesting, ReadsAs codec nesting (pageText codec.toNumberTexts rows) (decodedPage rows) := by
  obtain ⟨nesting, h⟩ := exists_forall₂_readsAs (ReadsAs codec) (fun hle h => h.mono hle)
    (rowText codec.toNumberTexts) (fun row => Json.object (decodedRow row)) (exists_readsAs_rowText hcodec) rows
  exact ⟨nesting + 1, .array h⟩

end reads

/-! ## Where an integer is -/

/-- A step into a value: a field of a map, or an item of an array. -/
inductive Step where
  | field (key : String)
  | item (i : ℕ)

/-- The value at the end of a path. -/
def valueAt : List Step → Json → Option Json
  | [], value => some value
  | .item i :: path, .array items => items[i]?.bind (valueAt path)
  | .field key :: path, .object fields => (fields.lookup key).bind (valueAt path)
  | _ :: _, _ => none

/-- The path of a value in a page: the row, the column, and the places in arrays. -/
def pagePath (i : ℕ) (column : String) (path : List ℕ) : List Step :=
  .item i :: .field column :: path.map .item

section paths

variable {rows : List Row} {row : Row} {i : ℕ} {column : String} {value found : ColumnValue}
  {path : List ℕ}

theorem decodedItems_eq_map (items : List ColumnValue) :
    ColumnValue.decodedItems items = items.map ColumnValue.decoded := by
  induction items with
  | nil => rw [ColumnValue.decodedItems, map_nil]
  | cons item items ih => rw [ColumnValue.decodedItems, ih, map_cons]

/-- What is in a value is in what it is read as. -/
theorem valueAt_decoded (h : value.at? path = some found) :
    valueAt (path.map .item) value.decoded = some found.decoded := by
  induction path generalizing value with
  | nil =>
    obtain rfl : value = found := some.inj h
    rfl
  | cons i path ih =>
    cases value with
    | int n | plain v => cases h
    | array items =>
      obtain ⟨item, hitem, hfound⟩ := bind_eq_some_iff.mp h
      rw [map_cons, ColumnValue.decoded, valueAt, decodedItems_eq_map, getElem?_map, hitem]
      exact ih hfound

theorem lookup_decodedRow (h : row.lookup column = some value) :
    (decodedRow row).lookup column = some value.decoded := by
  rw [JsonMap.lookup_eq_some_iff (keys_decodedRow_nodup row)]
  have hentry : (column, value) ∈ sortedFields row := by
    rw [sortedFields, mem_mergeSort]
    exact List.mem_map.mpr ⟨⟨column, value⟩, AList.mem_lookup_iff.mp h, rfl⟩
  exact List.mem_map.mpr ⟨(column, value), hentry, rfl⟩

/-- **What is in a page is in what it is read as.** -/
theorem valueAt_decodedPage (hrow : rows[i]? = some row) (hcolumn : row.lookup column = some value)
    (hfound : value.at? path = some found) :
    valueAt (pagePath i column path) (decodedPage rows) = some found.decoded := by
  rw [pagePath, decodedPage, valueAt, getElem?_map, hrow, map_some, bind_some,
    valueAt, lookup_decodedRow hcolumn]
  exact valueAt_decoded hfound

/-- The order of fields does not matter. -/
theorem valueAt_normalize (path : List Step) (value : Json) :
    valueAt path value.normalize = (valueAt path value).map Json.normalize := by
  induction path generalizing value with
  | nil => rfl
  | cons step path ih =>
    cases step with
    | item i =>
      cases value with
      | array items =>
        rw [Json.normalize, normalizeItems_eq_map, valueAt, valueAt, getElem?_map]
        cases items[i]? with
        | none => rfl
        | some item => exact ih item
      | _ => rfl
    | field key =>
      cases value with
      | object fields =>
        rw [Json.normalize, valueAt, valueAt, lookup_normalizeFields]
        cases fields.lookup key with
        | none => rfl
        | some value => exact ih value
      | _ => rfl

end paths

/-! ## Payloads -/

/-- The text of bytes. -/
def bytesText? (bytes : Bytes) : Option String :=
  String.fromUTF8? ⟨(bytes.map UInt8.ofBitVec).toArray⟩

theorem bytesText?_textBytes (text : String) : bytesText? (textBytes text) = some text := by
  have hbytes : (⟨((textBytes text).map UInt8.ofBitVec).toArray⟩ : ByteArray) =
      text.toByteArray := by
    rw [textBytes, List.map_map, show UInt8.ofBitVec ∘ UInt8.toBitVec = id from rfl, List.map_id]
  rw [bytesText?, hbytes, String.fromUTF8?, dif_pos text.isValidUTF8]
  rfl

/-- `json.Unmarshal` of bytes. -/
def unmarshalBytes (codec : NumberCodec) (bytes : Bytes) : Except String Json :=
  match (bytesText? bytes).bind fun text => unmarshal codec text.toList with
  | some value => .ok value
  | none => .error "invalid character"

theorem unmarshalBytes_eq_ok {codec : NumberCodec} {text : List Char} {value : Json} :
    unmarshalBytes codec (textBytes (.ofList text)) = .ok value ↔
      unmarshal codec text = some value := by
  rw [unmarshalBytes, bytesText?_textBytes, bind_some, String.toList_ofList]
  cases unmarshal codec text with
  | none | some value => simp

/-- The codec of payloads. -/
def payloadCodec (codec : NumberCodec) : JsonCodec where
  numbers := codec.toNumberTexts
  unmarshal := unmarshalBytes codec
  unmarshal_string text := by
    rw [← String.ofList_toList (s := marshal codec.toNumberTexts (.string text)),
      unmarshalBytes_eq_ok]
    exact unmarshal_marshal codec (Nat.zero_le _)

section payloads

variable (gcm : GCM) (codec : NumberCodec) (p : Payloads) (sources : PayloadSources)
  (tenantId : String) (dek : Bytes)

/-- The write of a page of rows. Source: `activities.go` `FetchSourcePage` -/
def writePage (replies : WriteReplies) (rows : List Row) :
    Except String (DataRef × PayloadEffect) :=
  payloadsWriteBody gcm (payloadCodec codec) p replies (textBytes (.ofList (pageText codec.toNumberTexts rows)))
    rows.length tenantId dek

/-- **What a sink receives** of the value at a path of a payload: it reads the payload, or a node
before it does, copies the value to a path of its output and writes that, and the stores keep what
is written.
Source: `activities.go` `DispatchNode` -/
inductive Delivers : DataRef → List Step → Json → Prop
  | sink {ref : DataRef} {path : List Step} {input value : Json}
      (hread : payloadsRead gcm (payloadCodec codec) p sources (some ref) dek = .ok input)
      (hvalue : valueAt path input = some value) : Delivers ref path value
  | transform {ref ref' : DataRef} {path path' : List Step} {input output value : Json} {replies : WriteReplies}
      {effect : PayloadEffect}
      (hread : payloadsRead gcm (payloadCodec codec) p sources (some ref) dek = .ok input)
      (hcopy : valueAt path' output = valueAt path input)
      (hwrite : payloadsWrite gcm (payloadCodec codec) p replies output tenantId dek = .ok (ref', effect))
      (hkeeps : Keeps (payloadCodec codec) sources effect) (rest : Delivers ref' path' value) :
      Delivers ref path value

end payloads

section delivery

variable {gcm : GCM} {codec : NumberCodec} {p : Payloads} {sources : PayloadSources}
  {tenantId : String} {dek body : Bytes} {replies : WriteReplies} {recordCount : ℕ} {ref : DataRef}
  {effect : PayloadEffect} {input value : Json} {path : List Step} {q : ℚ}

section

variable (hwrite : payloadsWriteBody gcm (payloadCodec codec) p replies body recordCount tenantId dek = .ok (ref, effect))

include hwrite

/-- What is read of what was written, within the limit. -/
theorem payloadsRead_of_write (hkeeps : Keeps (payloadCodec codec) sources effect)
    (hsize : 0 < p.maxPayloadBytes → (body.length : ℤ) ≤ p.maxPayloadBytes) :
    payloadsRead gcm (payloadCodec codec) p sources (some ref) dek = unmarshalBytes codec body := by
  have hwritten := written_of_write hwrite
  obtain ⟨bytes, hbytes, hdecode⟩ := hwritten.exists_body hkeeps hsize
  rw [payloadsRead, hwritten.sizeBytes, if_neg fun h => absurd (hsize h.1) (not_le.mpr h.2), hbytes]
  exact hdecode

/-- What is read at all is within the limit. -/
theorem unmarshal_of_read (hkeeps : Keeps (payloadCodec codec) sources effect)
    (hread : payloadsRead gcm (payloadCodec codec) p sources (some ref) dek = .ok input) :
    unmarshalBytes codec body = .ok input := by
  have hsize : 0 < p.maxPayloadBytes → (body.length : ℤ) ≤ p.maxPayloadBytes := by
    intro hmax
    by_contra hlt
    rw [payloadsRead, (written_of_write hwrite).sizeBytes, if_pos ⟨hmax, not_le.mp hlt⟩] at hread
    cases hread
  rw [← payloadsRead_of_write hwrite hkeeps hsize, hread]

end

/-- The payload has the number at the path, whenever it is read. -/
def HoldsNumber (gcm : GCM) (codec : NumberCodec) (p : Payloads) (sources : PayloadSources)
    (dek : Bytes) (ref : DataRef) (path : List Step) (q : ℚ) : Prop :=
  ∀ input, payloadsRead gcm (payloadCodec codec) p sources (some ref) dek = .ok input →
    valueAt path input = some (.number q)

/-- A decoded value is written and read with the number. -/
theorem HoldsNumber.of_write {output : Json}
    (hwrite : payloadsWrite gcm (payloadCodec codec) p replies output tenantId dek =
      .ok (ref, effect))
    (hkeeps : Keeps (payloadCodec codec) sources effect)
    (hvalue : valueAt path output = some (.number q)) :
    HoldsNumber gcm codec p sources dek ref path q := by
  intro input hread
  have htext := unmarshal_of_read hwrite hkeeps hread
  rw [← String.ofList_toList (s := marshal _ output), unmarshalBytes_eq_ok] at htext
  obtain rfl : input = output.normalize := (readsAs_marshal output).of_unmarshal htext
  rw [valueAt_normalize, hvalue]
  rfl

/-- **Nodes that copy a number deliver it.** -/
theorem HoldsNumber.of_delivers (h : HoldsNumber gcm codec p sources dek ref path q)
    (hdelivers : Delivers gcm codec p sources tenantId dek ref path value) : value = .number q := by
  induction hdelivers with
  | sink hread hvalue => exact some.inj (hvalue.symm.trans (h _ hread))
  | transform hread hcopy hwrite hkeeps _ ih =>
    exact ih (.of_write hwrite hkeeps (hcopy.trans (h _ hread)))

/-- A page is written and read with the nearest floating-point number. -/
theorem HoldsNumber.of_writePage (hcodec : RoundsIntegers codec) {rows : List Row} {row : Row}
    {i : ℕ} {column : String} {found : ColumnValue} {places : List ℕ} {n : Int64}
    (hrow : rows[i]? = some row) (hcolumn : row.lookup column = some found)
    (hint : found.at? places = some (.int n))
    (hwrite : writePage gcm codec p tenantId dek replies rows = .ok (ref, effect))
    (hkeeps : Keeps (payloadCodec codec) sources effect) :
    HoldsNumber gcm codec p sources dek ref (pagePath i column places) (roundInt n.toInt) := by
  intro input hread
  have htext := unmarshalBytes_eq_ok.mp (unmarshal_of_read hwrite hkeeps hread)
  obtain ⟨nesting, hpage⟩ := exists_readsAs_pageText hcodec rows
  obtain rfl : input = decodedPage rows := hpage.of_unmarshal htext
  exact valueAt_decodedPage hrow hcolumn hint

end delivery

/-! ## Cursors -/

section cursor

variable (codec : NumberCodec) (formatting : Formatting) (state : ConnectorState)
  (tenantId connectionId : String)

/-- A map that is sent to an activity, returned by it, or stored in a column of type `jsonb`, where
it arrives. -/
def arriving (text : List Char) : Option JsonMap := (unmarshal codec text).bind Json.asObject?

/-- A cursor on its way from one page to the next run: the workflow gets it as a result of
`fetchSourcePage`, sends it to `commitSourceCursors`, and the row is read when a run has no cursor
yet. -/
def cursorReadBack (checkpoint : Row) : Option JsonMap := do
  let received ← arriving codec (rowText codec.toNumberTexts checkpoint)
  let sent ← arriving codec (marshal codec.toNumberTexts (.object received)).toList
  let stored := commitSourceCursors formatting tenantId [{ connectionId, checkpoint := sent }] state
  let cursor ← stored tenantId connectionId
  arriving codec (marshal codec.toNumberTexts (.object cursor)).toList

end cursor

section cursor

variable {codec : NumberCodec} {formatting : Formatting} {state : ConnectorState}
  {tenantId connectionId : String} {checkpoint : Row} {cursor : JsonMap} {key : String}
    {value : Json}

/-- A decoded map arrives with what it has at a key. -/
theorem lookup_arriving_marshal {m : JsonMap}
    (h : arriving codec (marshal codec.toNumberTexts (.object m)).toList = some cursor) :
    cursor.lookup key = (m.lookup key).map Json.normalize := by
  obtain ⟨value, hread, hobject⟩ := bind_eq_some_iff.mp h
  obtain rfl : value = (Json.object m).normalize := (readsAs_marshal _).of_unmarshal hread
  obtain rfl : Json.normalizeFields m = cursor := some.inj hobject
  exact lookup_normalizeFields

/-- A cursor that is committed keeps what it has at other keys than `offsets`. -/
theorem lookup_nextCursor (existing : Option JsonMap) (m : JsonMap) (hkey : key ≠ "offsets") :
    (nextCursor formatting existing m).lookup key = m.lookup key := by
  unfold nextCursor
  split
  · rfl
  · rw [JsonMap.lookup_set, if_neg hkey]

/-- **A cursor arrives** with what it was decoded as at first. -/
theorem lookup_cursorReadBack (hcodec : RoundsIntegers codec) {n : Int64}
    (hcheckpoint : checkpoint.lookup key = some (.int n)) (hkey : key ≠ "offsets")
    (h : cursorReadBack codec formatting state tenantId connectionId checkpoint = some cursor) :
    cursor.lookup key = some (.number (roundInt n.toInt)) := by
  obtain ⟨received, hreceived, h⟩ := bind_eq_some_iff.mp h
  obtain ⟨sent, hsent, h⟩ := bind_eq_some_iff.mp h
  obtain ⟨stored, hstored, h⟩ := bind_eq_some_iff.mp h
  have hfirst : received.lookup key = some (.number (roundInt n.toInt)) := by
    obtain ⟨value, hread, hobject⟩ := bind_eq_some_iff.mp hreceived
    obtain ⟨nesting, hrow⟩ := exists_readsAs_rowText hcodec checkpoint
    obtain rfl : value = .object (decodedRow checkpoint) := hrow.of_unmarshal hread
    obtain rfl : decodedRow checkpoint = received := some.inj hobject
    exact lookup_decodedRow hcheckpoint
  have hcommitted : stored = nextCursor formatting (state tenantId connectionId) sent := by
    rw [commitSourceCursors, foldl_cons, foldl_nil, commitCursor,
      ConnectorState.write_self] at hstored
    exact (some.inj hstored).symm
  rw [lookup_arriving_marshal h, hcommitted, lookup_nextCursor _ _ hkey,
    lookup_arriving_marshal hsent, hfirst]
  rfl

end cursor

/-! ## Integers that arrive as they were -/

/-- **The integers that survive** are those with 53 significant bits: in a row, whatever nodes copy
them on their way to a sink, and in a cursor. -/
theorem integers_survive_iff {gcm : GCM} {codec : NumberCodec} {p : Payloads}
    {sources : PayloadSources} {tenantId connectionId column key : String} {dek : Bytes}
    {replies : WriteReplies} {rows : List Row} {row : Row} {i : ℕ} {found : ColumnValue}
    {places : List ℕ} {n m : Int64} {ref : DataRef} {effect : PayloadEffect} {value : Json}
    {formatting : Formatting} {state : ConnectorState} {checkpoint : Row} {cursor : JsonMap}
    (hcodec : RoundsIntegers codec) (hrow : rows[i]? = some row)
    (hcolumn : row.lookup column = some found) (hint : found.at? places = some (.int n))
    (hwrite : writePage gcm codec p tenantId dek replies rows = .ok (ref, effect))
    (hkeeps : Keeps (payloadCodec codec) sources effect)
    (hdelivers : Delivers gcm codec p sources tenantId dek ref (pagePath i column places) value)
    (hcheckpoint : checkpoint.lookup key = some (.int m)) (hkey : key ≠ "offsets")
    (hcursor : cursorReadBack codec formatting state tenantId connectionId checkpoint =
      some cursor) :
    (value = .number n.toInt ↔ IsDouble n.toInt.natAbs) ∧
      (cursor.get key = .number m.toInt ↔ IsDouble m.toInt.natAbs) := by
  have hnumber :
      ∀ k : Int64, (Json.number (roundInt k.toInt) = .number k.toInt ↔ IsDouble k.toInt.natAbs) := by
    intro k
    rw [← roundInt_eq_self_iff, Json.number.injEq]
    exact Int.cast_inj
  have hvalue : value = .number (roundInt n.toInt) :=
    (HoldsNumber.of_writePage hcodec hrow hcolumn hint hwrite hkeeps).of_delivers hdelivers
  have hget : cursor.get key = .number (roundInt m.toInt) := by
    rw [JsonMap.get, lookup_cursorReadBack hcodec hcheckpoint hkey hcursor, getD_some]
  rw [hvalue, hget]
  exact ⟨hnumber n, hnumber m⟩

/-! ## One row -/

theorem e_not_mem_repr (n : ℤ) : 'e' ∉ n.repr.toList := by
  intro h
  rcases isNumberChar_repr h with hdigit | heq
  · cases hdigit
  · cases heq

/-- Numerator and denominator of a text, or an integer that is rounded. -/
def parseRounded (text : List Char) : Option ℚ :=
  if 'e' ∈ text then do
    let num ← Decimal.parseDecimal (.ofList (text.takeWhile (· ≠ 'e')))
    let den ← Decimal.parseDecimal (.ofList (text.dropWhile (· ≠ 'e')).tail)
    return num / den
  else (Decimal.parseDecimal (.ofList text)).map fun n => roundInt n

/-- The digits of an integer with 53 significant bits; numerator and denominator of another
number. -/
def roundedText (q : ℚ) : String :=
  if q.den = 1 ∧ IsDouble q.num.natAbs then q.num.repr else quotientText q

theorem parseRounded_roundedText (q : ℚ) : parseRounded (roundedText q).toList = some q := by
  unfold roundedText
  split_ifs with h
  · rw [parseRounded, if_neg (e_not_mem_repr _), String.ofList_toList,
      Decimal.parseDecimal_repr_int, map_some, roundInt_eq_self_iff.mpr h.2,
      Rat.coe_int_num_of_den_eq_one h.1]
  · have hall : ∀ c ∈ q.num.repr.toList, decide (c ≠ 'e') = true := by
      intro c hc
      apply decide_eq_true
      rintro rfl
      exact e_not_mem_repr _ hc
    rw [quotientText, String.toList_ofList, parseRounded, if_pos (by simp),
      takeWhile_append_of_pos hall, dropWhile_append_of_pos hall,
      takeWhile_cons_of_neg (by decide), append_nil,
      dropWhile_cons_of_neg (by decide), tail_cons, String.ofList_toList,
      String.ofList_toList, Decimal.parseDecimal_repr_int, Decimal.parseDecimal_repr_int]
    exact congrArg some (by exact_mod_cast Rat.num_div_den q)

/-- A codec that rounds integers. -/
def roundingCodec : NumberCodec where
  text := roundedText
  injective q q' h := by
    have hparse := congrArg (fun text => parseRounded text.toList) h
    rw [parseRounded_roundedText, parseRounded_roundedText] at hparse
    exact some.inj hparse
  nonempty q := by
    unfold roundedText
    split_ifs
    · exact Decimal.repr_int_ne_empty _
    · exact quotientTexts.nonempty q
  chars q c hc := by
    unfold roundedText at hc
    split_ifs at hc
    · rcases isNumberChar_repr hc with hdigit | rfl
      · rw [isNumberChar, hdigit, Bool.true_or]
      · decide
    · exact quotientTexts.chars q c hc
  parse := parseRounded
  parse_text := parseRounded_roundedText

theorem roundsIntegers_roundingCodec : RoundsIntegers roundingCodec := by
  intro value
  change parseRounded value.toInt.repr.toList = _
  rw [parseRounded, if_neg (e_not_mem_repr _), String.ofList_toList, Decimal.parseDecimal_repr_int]
  rfl

/-- A row with one integer. -/
def singleRow (column : String) (n : Int64) : Row := pgRow [column] [.int n]

theorem lookup_singleRow (column : String) (n : Int64) :
    (singleRow column n).lookup column = some (.int n) :=
  AList.lookup_insert _

theorem sortedFields_singleRow (column : String) (n : Int64) :
    sortedFields (singleRow column n) = [(column, .int n)] := mergeSort_singleton _

theorem readsAs_singleRow (column : String) (n : Int64) :
    ReadsAs roundingCodec 1 (rowText roundingCodec.toNumberTexts (singleRow column n))
      (.object [(column, .number (roundInt n.toInt))]) := by
  rw [rowText, sortedFields_singleRow]
  exact .object (.cons ⟨rfl, readsAs_int roundsIntegers_roundingCodec n⟩ .nil) (by simp [JsonMap.keys])

/-- References have payloads of 4 KB at most, in the clear. -/
def smallPayloads : Payloads := ⟨none, [], 4096⟩

/-- Nothing is stored elsewhere. -/
def noSources : PayloadSources := ⟨fun _ _ => .error "", fun _ => .error ""⟩

/-- Nothing can be stored elsewhere. -/
def noReplies : WriteReplies := ⟨replicate 12 0, rfl, "", .error "", .error ""⟩

/-- The text of a page with one row. -/
def singleText (n : Int64) : Bytes :=
  textBytes (.ofList (pageText roundingCodec.toNumberTexts [singleRow "id" n]))

/-- Its reference. -/
def singleRef (n : Int64) : DataRef :=
  { tenantId := "t", sizeBytes := (singleText n).length, recordCount := 1, type := "inline",
    key := stdEncoding.encodeToString (singleText n) }

/-- A page with one row is written into its reference. -/
theorem writePage_single {n : Int64} (hsmall : (singleText n).length ≤ 4 * 1024) :
    writePage tagGCM roundingCodec smallPayloads "t" [] noReplies [singleRow "id" n] =
      .ok (singleRef n, .inline) := by
  rw [writePage, payloadsWriteBody]
  exact (if_pos hsmall).trans (if_neg (by simp [smallPayloads, Payloads.key]))

/-- A sink receives the nearest floating-point number. -/
theorem delivers_single {n : Int64} (hsmall : (singleText n).length ≤ 4 * 1024) :
    Delivers tagGCM roundingCodec smallPayloads noSources "t" [] (singleRef n) (pagePath 0 "id" [])
      (.number (roundInt n.toInt)) := by
  have hpage : ReadsAs roundingCodec 2 (pageText roundingCodec.toNumberTexts [singleRow "id" n])
      (.array [.object [("id", .number (roundInt n.toInt))]]) := .array (.cons (readsAs_singleRow "id" n) .nil)
  have hlimit : 0 < smallPayloads.maxPayloadBytes →
      ((singleText n).length : ℤ) ≤ smallPayloads.maxPayloadBytes := by
    intro _
    rw [show smallPayloads.maxPayloadBytes = ((4 * 1024 : ℕ) : ℤ) from rfl]
    exact_mod_cast hsmall
  have hread :
      payloadsRead tagGCM (payloadCodec roundingCodec) smallPayloads noSources (some (singleRef n)) [] = _ :=
    payloadsRead_of_write (writePage_single hsmall) trivial hlimit
  rw [unmarshalBytes_eq_ok.mpr (hpage.unmarshal (by decide))] at hread
  exact .sink hread rfl

/-- A cursor with one integer. -/
theorem cursorReadBack_single (n : Int64) :
    cursorReadBack roundingCodec ⟨fun _ => "", fun _ => 0⟩ (fun _ _ => none) "t" "c" (singleRow "value" n) =
      some [("value", .number (roundInt n.toInt))] := by
  have harriving :
      arriving roundingCodec (rowText roundingCodec.toNumberTexts (singleRow "value" n)) =
      some [("value", .number (roundInt n.toInt))] := by
    rw [arriving, (readsAs_singleRow "value" n).unmarshal (by decide)]
    rfl
  have hagain : arriving roundingCodec (marshal roundingCodec.toNumberTexts
      (.object [("value", .number (roundInt n.toInt))])).toList = some [("value", .number (roundInt n.toInt))] := by
    rw [arriving,
      unmarshal_marshal roundingCodec (by simp [Json.nesting, Json.nestingFields, maxNestingDepth])]
    rfl
  have hcommitted : commitSourceCursors ⟨fun _ => "", fun _ => 0⟩ "t"
      [{ connectionId := "c", checkpoint := [("value", .number (roundInt n.toInt))] }] (fun _ _ => none) "t" "c" =
        some [("value", .number (roundInt n.toInt))] := by
    rw [commitSourceCursors, foldl_cons, foldl_nil, commitCursor, ConnectorState.write_self]
    rfl
  rw [cursorReadBack, harriving]
  simp only [bind_eq_bind, bind_some, hagain, hcommitted]

theorem integers_survive_iff_small :
    (Json.number (roundInt (7 : Int64).toInt) = .number (7 : Int64).toInt ↔
      IsDouble (7 : Int64).toInt.natAbs) ∧
      (JsonMap.get [("value", .number (roundInt (8 : Int64).toInt))] "value" = .number (8 : Int64).toInt ↔
        IsDouble (8 : Int64).toInt.natAbs) :=
  integers_survive_iff roundsIntegers_roundingCodec rfl (lookup_singleRow "id" 7) rfl
    (writePage_single (by decide +kernel)) trivial (delivers_single (by decide +kernel))
    (lookup_singleRow "value" 8) (by decide) (cursorReadBack_single 8)

/-- **An integer becomes its neighbour**: `2 ^ 53 + 1`, in a row and in a cursor. -/
theorem integer_rounded : ∃ ref value cursor, RoundsIntegers roundingCodec ∧
      writePage tagGCM roundingCodec smallPayloads "t" [] noReplies [singleRow "id" 9007199254740993] =
        .ok (ref, .inline) ∧
      Delivers tagGCM roundingCodec smallPayloads noSources "t" [] ref (pagePath 0 "id" []) value ∧
      value ≠ .number (9007199254740993 : Int64).toInt ∧
      cursorReadBack roundingCodec ⟨fun _ => "", fun _ => 0⟩ (fun _ _ => none) "t" "c"
        (singleRow "value" 9007199254740993) = some cursor ∧
      cursor.get "value" ≠ .number (9007199254740993 : Int64).toInt := by
  have hsmall : (singleText 9007199254740993).length ≤ 4 * 1024 := by decide +kernel
  have hround :
      Json.number (roundInt (9007199254740993 : Int64).toInt) ≠ .number (9007199254740993 : Int64).toInt := by
    decide +kernel
  exact ⟨_, _, _, roundsIntegers_roundingCodec, writePage_single hsmall, delivers_single hsmall, hround,
    cursorReadBack_single _, hround⟩

end Dataflow.Activities.Integers
