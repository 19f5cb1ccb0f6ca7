import Dataflow.Connectors.Interpolation
import Dataflow.Library.Paging
import Mathlib.Data.String.Basic

/-!
# `fetchManifest`: sources that are read over HTTP

A manifest describes an HTTP source: its address, where the records are in the body, how the source
is paged, and how it is asked for new records only. A call makes one request from the cursor it is
given, and the cursor of the next call from the response.

* `dig`: paths into a body. The parameters of an address are filled in as the configuration lists them.
* `ConnectorManifest`, `HttpRequest`, `HttpResponse`, `HttpClient`: the data, and what the code is
  given.
* `manifestQuery`, `manifestRequest`, `manifestResult`, `fetchManifest`: the code.
* `lookup_setParam`, `positionQuery_page`, `nextPosition_page` (and so for the other styles) — what
  is sent, and what comes next.
* `greatestText_spec`, `watermark_nextWatermark`: the new watermark.

Source: `http.go` `dig`, `fetchManifest`, `types.go` `ConnectorManifest`
-/

namespace Dataflow.Connectors

open Activities Library Model List
open Interpolation (interpolate)

/-! ## Data -/

/-- Source: `types.go` `ConnectorManifest`, as far as `fetchManifest` reads it. -/
structure ConnectorManifest where
  url : String := ""
  method : String := ""
  recordsPath : String := ""
  headers : List (String × String) := []
  auth : JsonMap := []
  pagination : JsonMap := []
  incremental : JsonMap := []

/-- The parameters of a query. -/
abbrev QueryParams := List (String × String)

/-- A parsed address: its text, and the parameters in it. -/
structure Endpoint where
  text : String
  query : QueryParams

/-- A request: the address, with the parameters it is sent with, and the headers in the order in
which they are set. -/
structure HttpRequest where
  method : String
  endpoint : Endpoint
  query : QueryParams
  headers : List (String × String)

/-- A response; its body is read and decoded. -/
structure HttpResponse where
  statusCode : ℕ
  body : Except String Json

/-- What the code is given: `url.Parse`, `security.ValidateURL`, the header of `SetBasicAuth`, the
client that sends a request, and the time one hour ago. -/
structure HttpClient where
  parse : String → Except String Endpoint
  validateURL : String → Except String Unit
  basicAuth : (username password : String) → String
  send : HttpRequest → Except String HttpResponse
  anHourAgo : String

/-! ## The code -/

/-- `query.Set(key, value)`. -/
def setParam (query : QueryParams) (key value : String) : QueryParams :=
  query.filter (fun entry => entry.1 ≠ key) ++ [(key, value)]

/-- One field of a path; what is no object has none. -/
def digField (current : Json) (part : String) : Json :=
  match current.asObject? with
  | some object => object.get part
  | none => .null

/-- Source: `http.go` `dig`. -/
def dig (value : Json) (path : String) : Json :=
  ((splitText '.' path).filter (· ≠ "")).foldl digField value

section code

variable (conversions : Conversions)

/-- The name of the position's parameter when the manifest gives none. -/
def defaultParam (style : String) : String :=
  if style = "cursor" ∨ style = "page" ∨ style = "offset" then style else ""

variable (m : ConnectorManifest) (p : JsonSourceParams)

/-- `style`. -/
def pageStyle : String := stringValue conversions.toFormatting (m.pagination.get "style")

/-- `param`. -/
def positionParam : String :=
  firstString conversions.toFormatting
    [m.pagination.get "param", .string (defaultParam (pageStyle conversions m))]

/-- `limit`. -/
def pageLimit : ℤ :=
  match p.ingestion with
  | some ingestion => if 0 < ingestion.pageSize then ingestion.pageSize else configured
  | none => configured
where
  /-- Without a page size of the ingestion. -/
  configured : ℤ := truncate (firstNumber conversions
    [m.pagination.get "limit", .number (number conversions (p.config.get "pageSize")), .number 100])

/-- `firstNumber(p.Cursor["page"], 1)`. -/
def cursorPage (cursor : JsonMap) : ℚ := firstNumber conversions [cursor.get "page", .number 1]

/-- `firstNumber(p.Cursor["offset"], 0)`. -/
def cursorOffset (cursor : JsonMap) : ℚ := firstNumber conversions [cursor.get "offset", .number 0]

/-- The parameters of the address and of the configuration. -/
def baseQuery (endpoint : Endpoint) : QueryParams :=
  (((p.config.get "params").asObject?).getD []).foldl
    (fun query entry => setParam query entry.1 (stringValue conversions.toFormatting entry.2))
    endpoint.query

/-- The parameter of the position. -/
def positionQuery (query : QueryParams) : QueryParams :=
  let style := pageStyle conversions m
  let param := positionParam conversions m
  let query :=
    if style = "cursor" ∧ p.cursor.get "next" ≠ .null then
      setParam query param (stringValue conversions.toFormatting (p.cursor.get "next"))
    else query
  let query :=
    if style = "page" then
      setParam query param
        (stringValue conversions.toFormatting (.number (cursorPage conversions p.cursor)))
    else query
  if style = "offset" then
    setParam query param
      (stringValue conversions.toFormatting (.number (cursorOffset conversions p.cursor)))
  else query

/-- The name of the limit's parameter. -/
def limitParam : String := stringValue conversions.toFormatting (m.pagination.get "limitParam")

/-- The name of the watermark's parameter. -/
def sinceParam : String := stringValue conversions.toFormatting (m.incremental.get "sinceParam")

/-- The watermark of a call: that of its cursor, or the start of a backfill, or an hour ago. -/
def callWatermark (client : HttpClient) : String :=
  let watermark := stringValue conversions.toFormatting (p.cursor.get "watermark")
  let watermark :=
    if watermark = "" then
      match p.ingestion with
      | some ingestion => if ingestion.mode = "backfill" then ingestion.backfillStart else ""
      | none => ""
    else watermark
  if watermark = "" then client.anHourAgo else watermark

/-- The parameters of the request. -/
def manifestQuery (client : HttpClient) (endpoint : Endpoint) : QueryParams :=
  let query := positionQuery conversions m p (baseQuery conversions p endpoint)
  let query :=
    if limitParam conversions m ≠ "" then
      setParam query (limitParam conversions m) (toString (pageLimit conversions m p))
    else query
  if sinceParam conversions m ≠ "" then
    setParam query (sinceParam conversions m) (callWatermark conversions p client)
  else query

/-- The headers of the request. -/
def manifestHeaders (client : HttpClient) : List (String × String) :=
  let text := stringValue conversions.toFormatting
  let auth := ((p.config.get "auth").asObject?).getD m.auth
  [("User-Agent", "DataFlow/1.0")] ++ m.headers ++
    (((p.config.get "headers").asObject?).getD []).map (fun entry => (entry.1, text entry.2)) ++
    if text (auth.get "type") = "bearer" then
      [("Authorization", "Bearer " ++ text (auth.get "token"))]
    else if text (auth.get "type") = "header" then
      [(firstString conversions.toFormatting
        [auth.get "name", auth.get "headerName", .string "Authorization"], text (auth.get "value"))]
    else if text (auth.get "type") = "basic" then
      [("Authorization",
        client.basicAuth (text (auth.get "username")) (text (auth.get "password")))]
    else []

/-- The request. -/
def manifestRequest (client : HttpClient) (endpoint : Endpoint) : HttpRequest where
  method := firstString conversions.toFormatting
    [p.config.get "method", .string m.method, .string "GET"]
  endpoint := endpoint
  query := manifestQuery conversions m p client endpoint
  headers := manifestHeaders conversions m p client

/-- The records of a body. -/
def bodyRecords (decoded : Json) : List Json :=
  match if m.recordsPath ≠ "" then dig decoded m.recordsPath else decoded with
  | .array items => items
  | raw => [raw]

/-- `hasMore`, and the cursor with the position of the next call. -/
def nextPosition (decoded : Json) (records : List Json) : Bool × JsonMap :=
  let style := pageStyle conversions m
  if style = "cursor" then
    let nextCursor := dig decoded (stringValue conversions.toFormatting (m.pagination.get "cursorPath"))
    (decide (nextCursor ≠ .null ∧ stringValue conversions.toFormatting nextCursor ≠ ""),
      p.cursor.set "next" nextCursor)
  else if style = "page" then
    if pageLimit conversions m p ≤ records.length then
      (true, p.cursor.set "page" (.number (truncate (cursorPage conversions p.cursor) + 1)))
    else (false, p.cursor.set "page" (.number 1))
  else if style = "offset" then
    if pageLimit conversions m p ≤ records.length then
      (true, p.cursor.set "offset"
        (.number (truncate (cursorOffset conversions p.cursor) + records.length)))
    else (false, p.cursor.set "offset" (.number 0))
  else (false, p.cursor)

/-- The timestamp of a record. -/
def timestamp (record : Json) : String :=
  stringValue conversions.toFormatting
    (dig record (stringValue conversions.toFormatting (m.incremental.get "recordTimestampPath")))

/-- The last of the sorted texts that are not empty. -/
def greatestText (texts : List String) : Option String :=
  ((texts.filter (· ≠ "")).mergeSort fun a b => decide (a ≤ b)).getLast?

/-- The cursor with the new watermark. -/
def nextWatermark (next : JsonMap) (records : List Json) : JsonMap :=
  if stringValue conversions.toFormatting (m.incremental.get "recordTimestampPath") ≠ "" then
    match greatestText (records.map (timestamp conversions m)) with
    | some watermark => next.set "watermark" (.string watermark)
    | none => next
  else next

/-- What is made of a body. -/
def manifestResult (decoded : Json) : JsonSourceResult :=
  let records := bodyRecords m decoded
  let position := nextPosition conversions m p decoded records
  { records := records
    nextCursor := (nextWatermark conversions m position.2 records).set "backfillDone" (.bool !position.1)
    hasMore := position.1 }

/-- Source: `http.go` `fetchManifest`. -/
def fetchManifest (client : HttpClient) : Except String JsonSourceResult :=
  match client.parse (interpolate conversions.toFormatting
    (firstString conversions.toFormatting [p.config.get "url", .string m.url]) p.config) with
  | .error err => .error err
  | .ok endpoint =>
    match client.validateURL endpoint.text with
    | .error err => .error ("http.fetch: " ++ err)
    | .ok () =>
      match client.send (manifestRequest conversions m p client endpoint) with
      | .error err => .error err
      | .ok response =>
        if response.statusCode = 429 then .error "rate limited"
        else if 400 ≤ response.statusCode then
          .error ("http source " ++ toString response.statusCode)
        else response.body.map (manifestResult conversions m p)

end code

/-! ## What is read -/

/-- A path of one key. -/
theorem dig_key {path key : String} (h : (splitText '.' path).filter (· ≠ "") = [key])
    (fields : JsonMap) : dig (.object fields) path = fields.get key := by
  rw [dig, h]
  rfl

/-! ## What is sent -/

/-- What is read of a query after a parameter is set. -/
theorem lookup_setParam (query : QueryParams) (key value other : String) :
    (setParam query key value).lookup other =
      if other = key then some value else query.lookup other := by
  have hfilter : (query.filter fun entry => entry.1 ≠ key).lookup other =
      if other = key then none else query.lookup other := by
    induction query with
    | nil => exact (ite_self none).symm
    | cons entry query ih =>
      obtain ⟨k, v⟩ := entry
      by_cases hk : k = key
      · subst hk
        rw [filter_cons_of_neg (by simp), ih, lookup_cons]
        split_ifs with hother
        · rfl
        · rw [beq_eq_false_iff_ne.mpr hother]
      · rw [filter_cons_of_pos (by simpa using hk), lookup_cons, lookup_cons, ih]
        by_cases hother : other = k
        · subst hother
          simp only [beq_self_eq_true, if_neg hk]
        · rw [beq_eq_false_iff_ne.mpr hother]
  rw [setParam, lookup_append, hfilter, lookup_cons]
  by_cases hother : other = key
  · rw [hother, if_pos rfl, if_pos rfl, beq_self_eq_true]
    rfl
  · rw [if_neg hother, if_neg hother, beq_eq_false_iff_ne.mpr hother]
    exact Option.or_none

section styles

variable {conversions : Conversions} {m : ConnectorManifest} (p : JsonSourceParams)

/-- By page, the number of the page is sent. -/
theorem positionQuery_page (h : pageStyle conversions m = "page") (query : QueryParams) :
    positionQuery conversions m p query = setParam query (positionParam conversions m)
      (stringValue conversions.toFormatting (.number (cursorPage conversions p.cursor))) := by
  simp [positionQuery, h]

/-- By offset, the offset is sent. -/
theorem positionQuery_offset (h : pageStyle conversions m = "offset") (query : QueryParams) :
    positionQuery conversions m p query = setParam query (positionParam conversions m)
      (stringValue conversions.toFormatting (.number (cursorOffset conversions p.cursor))) := by
  simp [positionQuery, h]

/-- By cursor, the token is sent if there is one. -/
theorem positionQuery_cursor (h : pageStyle conversions m = "cursor") (query : QueryParams) :
    positionQuery conversions m p query = if p.cursor.get "next" ≠ .null then
        setParam query (positionParam conversions m)
          (stringValue conversions.toFormatting (p.cursor.get "next"))
      else query := by
  simp [positionQuery, h]

variable (decoded : Json) (records : List Json)

/-- By page, there is more after a page that is not shorter than the limit. -/
theorem nextPosition_page (h : pageStyle conversions m = "page") :
    nextPosition conversions m p decoded records =
      if pageLimit conversions m p ≤ records.length then
        (true, p.cursor.set "page" (.number (truncate (cursorPage conversions p.cursor) + 1)))
      else (false, p.cursor.set "page" (.number 1)) := by
  simp [nextPosition, h]

/-- By offset, there is more after a page that is not shorter than the limit. -/
theorem nextPosition_offset (h : pageStyle conversions m = "offset") :
    nextPosition conversions m p decoded records =
      if pageLimit conversions m p ≤ records.length then
        (true, p.cursor.set "offset"
          (.number (truncate (cursorOffset conversions p.cursor) + records.length)))
      else (false, p.cursor.set "offset" (.number 0)) := by
  simp [nextPosition, h]

/-- By cursor, there is more if there is a token. -/
theorem nextPosition_cursor (h : pageStyle conversions m = "cursor") {token : Json}
    (htoken : dig decoded (stringValue conversions.toFormatting (m.pagination.get "cursorPath")) =
      token) : nextPosition conversions m p decoded records =
        (decide (token ≠ .null ∧ stringValue conversions.toFormatting token ≠ ""),
          p.cursor.set "next" token) := by
  rw [nextPosition, h, htoken]
  exact if_pos rfl

/-- The other values of a cursor stay. -/
theorem get_nextPosition {key : String} (hnext : key ≠ "next") (hpage : key ≠ "page")
    (hoffset : key ≠ "offset") :
    (nextPosition conversions m p decoded records).2.get key = p.cursor.get key := by
  unfold nextPosition
  dsimp only
  split_ifs
  · exact (JsonMap.get_set ..).trans (if_neg hnext)
  · exact (JsonMap.get_set ..).trans (if_neg hpage)
  · exact (JsonMap.get_set ..).trans (if_neg hpage)
  · exact (JsonMap.get_set ..).trans (if_neg hoffset)
  · exact (JsonMap.get_set ..).trans (if_neg hoffset)
  · rfl

end styles

/-! ## The watermark -/

/-- **The greatest text** is one of those that are not empty, and none of these is greater. -/
theorem greatestText_spec {texts : List String} (h : ∃ text ∈ texts, text ≠ "") :
    ∃ greatest, greatestText texts = some greatest ∧ greatest ∈ texts ∧ greatest ≠ "" ∧
      ∀ text ∈ texts, text ≠ "" → text ≤ greatest := by
  obtain ⟨text, htext, hne⟩ := h
  unfold greatestText
  set sorted := (texts.filter (· ≠ "")).mergeSort fun a b => decide (a ≤ b) with hsorted
  have hmem : ∀ text, text ∈ sorted ↔ text ∈ texts ∧ text ≠ "" := by
    intro text
    rw [hsorted, mem_mergeSort, mem_filter, decide_eq_true_iff]
  have hpairs : sorted.Pairwise fun a b => a ≤ b := by
    refine (pairwise_mergeSort ?_ ?_ _).imp of_decide_eq_true
    · intro a b c hab hbc
      exact decide_eq_true ((of_decide_eq_true hab).trans (of_decide_eq_true hbc))
    · intro a b
      simpa using le_total a b
  rcases eq_nil_or_concat sorted with hnil | ⟨init, greatest, hconcat⟩
  · exact absurd ((hmem text).mpr ⟨htext, hne⟩) (hnil ▸ not_mem_nil)
  · rw [concat_eq_append] at hconcat
    rw [hconcat] at hmem hpairs ⊢
    obtain ⟨hgreatest, hne'⟩ := (hmem greatest).mp (by simp)
    refine ⟨greatest, getLast?_concat, hgreatest, hne', ?_⟩
    intro text htext hne
    have hin := (hmem text).mpr ⟨htext, hne⟩
    rw [mem_append, mem_singleton] at hin
    rw [pairwise_append] at hpairs
    rcases hin with hin | rfl
    · exact hpairs.2.2 text hin greatest (mem_singleton_self _)
    · exact le_rfl

/-- A text that is not empty, with none greater, is the greatest. -/
theorem greatestText_eq {texts : List String} {greatest : String} (hmem : greatest ∈ texts)
    (hne : greatest ≠ "") (h : ∀ text ∈ texts, text ≤ greatest) :
    greatestText texts = some greatest := by
  obtain ⟨found, hfound, hin, -, hle⟩ := greatestText_spec ⟨greatest, hmem, hne⟩
  rw [hfound, le_antisymm (h found hin) (hle greatest hmem hne)]

/-- The other values of a cursor stay. -/
theorem get_nextWatermark {conversions : Conversions} {m : ConnectorManifest} (next : JsonMap)
    (records : List Json) {key : String} (h : key ≠ "watermark") :
    (nextWatermark conversions m next records).get key = next.get key := by
  unfold nextWatermark
  split_ifs
  · cases greatestText (records.map (timestamp conversions m)) with
    | none => rfl
    | some watermark => exact (JsonMap.get_set ..).trans (if_neg h)
  · rfl

/-- **The new watermark** is the greatest timestamp, if there is one. -/
theorem watermark_nextWatermark {conversions : Conversions} {m : ConnectorManifest} (next : JsonMap)
    (records : List Json)
    (h : stringValue conversions.toFormatting (m.incremental.get "recordTimestampPath") ≠ "") :
    stringValue conversions.toFormatting
        ((nextWatermark conversions m next records).get "watermark") =
      (greatestText (records.map (timestamp conversions m))).getD
        (stringValue conversions.toFormatting (next.get "watermark")) := by
  rw [nextWatermark, if_pos h]
  cases greatestText (records.map (timestamp conversions m)) with
  | none => rfl
  | some watermark =>
    rw [JsonMap.get_set, if_pos rfl]
    rfl

/-- Without a text there is none. -/
theorem greatestText_nil : greatestText [] = none := by
  rw [greatestText, filter_nil, mergeSort_nil, getLast?_nil]

end Dataflow.Connectors
