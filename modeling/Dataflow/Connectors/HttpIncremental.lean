import Dataflow.Connectors.HttpManifest
import Dataflow.Library.Decimal
import Dataflow.Library.Watermarks

/-!
# Incremental sources over HTTP

A server returns its records from a timestamp on in a fixed order, a page at a time. `fetchManifest`
sends the watermark of its cursor with every page, and takes the greatest timestamp of each page for
its next watermark. So the server selects among fewer records while the position goes on.

* `PageStyle`, `FeedServer`, `IncrementalSource`: the server, and a source that reads it.
* `fetchPage`: one call of `fetchManifest` as a step of paged reading.
* `reader`, `At`, `bisimilar`: the calls are those of a reader of a feed (`Library/Watermarks`).
* `Ingests`: every record at or after the watermark is returned once, and the watermark of the last
  cursor is the greatest timestamp.
* `Gentle`: no watermark on the way passes over a record that is counted or still to come.
* **`ingests_iff`**: a source is ingested iff its watermarks are gentle.
* `second_page_lost`: three records in the order of their timestamps, two on a page.

Source: `http.go` `fetchManifest`
-/

namespace Dataflow.Connectors.HttpIncremental

open Activities Library Library.Paging Library.Watermarks Model List Option
open Interpolation (interpolate)

/-! ## Servers -/

/-- How a source is paged. -/
inductive PageStyle where
  | page
  | offset
  | cursor
  deriving DecidableEq

/-- The value of `style` in a manifest. -/
def PageStyle.text : PageStyle → String
  | .page => "page"
  | .offset => "offset"
  | .cursor => "cursor"

/-- A server: its records in their order, the order of its timestamps, the size of its pages, what
its tokens mean, how it reads a position, its tokens and the one after the last page, and its
bodies. -/
structure FeedServer where
  records : List Json
  le : String → String → Bool
  total : ∀ a b, le a b = true ∨ le b a = true
  trans : ∀ a b c, le a b = true → le b c = true → le a c = true
  size : ℕ
  size_pos : 0 < size
  tokens : Position
  read : String → ℕ
  token : ℕ → Json
  lastToken : Json
  body : List Json → Json → Json

namespace FeedServer

variable (server : FeedServer) (stamp : Json → String)

/-- The records with their timestamps. -/
def feed : Feed Json String where
  records := server.records
  stamp := stamp
  le := server.le
  total := server.total
  trans := server.trans
  size := server.size
  size_pos := server.size_pos

/-- What a position means. -/
def meaning : PageStyle → Position
  | .page | .offset => .count
  | .cursor => server.tokens

/-- The position a parameter stands for. Pages are counted from one; a source that sends no token,
or an empty one, starts at the beginning. -/
def start (style : PageStyle) (position : Option String) : ℕ :=
  match style with
  | .page => (server.read (position.getD "") - 1) * server.size
  | .offset => server.read (position.getD "")
  | .cursor => if position.getD "" = "" then 0 else server.read (position.getD "")

/-- The position after a page. -/
def next (style : PageStyle) (w : String) (n : ℕ) : ℕ :=
  match style, server.tokens with
  | .page, _ => n + server.size
  | .offset, _ | .cursor, .count => n + ((server.feed stamp).page .count w n).length
  | .cursor, .place =>
    n + passed (fun record => server.le w (stamp record)) server.size (server.records.drop n)

/-- The body with the page at a position, and with the token of the next one if there is more. -/
def bodyAt (style : PageStyle) (w : String) (n : ℕ) : Json :=
  server.body ((server.feed stamp).page (server.meaning style) w n)
    (if (server.feed stamp).rest (server.meaning style) w n = [] then server.lastToken
      else server.token (server.next stamp style w n))

/-- The body for a timestamp and the parameter of a position. -/
def respond (style : PageStyle) (since : String) (position : Option String) : Json :=
  server.bodyAt stamp style since (server.start style position)

end FeedServer

/-- **An incremental source**: a manifest, and a server that does what the manifest says. It reads
the tokens that it is sent and the numbers below 10^6, from where on `fmt.Sprint` writes an
exponent; it finds the position and the timestamp in parameters of
their own, and the records and the next token are where the manifest looks for them. -/
structure IncrementalSource (conversions : Conversions) where
  style : PageStyle
  server : FeedServer
  client : HttpClient
  manifest : ConnectorManifest
  config : JsonMap
  ingestion : Option IngestionConfig
  endpoint : Endpoint
  parsed : client.parse (interpolate conversions.toFormatting (firstString conversions.toFormatting
    [config.get "url", .string manifest.url]) config) = .ok endpoint
  validated : client.validateURL endpoint.text = .ok ()
  served : ∀ request, request.endpoint = endpoint → client.send request =
    .ok { statusCode := 200
          body := .ok (server.respond (timestamp conversions manifest) style
            ((request.query.lookup (sinceParam conversions manifest)).getD "")
            (request.query.lookup (positionParam conversions manifest))) }
  styled : pageStyle conversions manifest = style.text
  sinceNamed : sinceParam conversions manifest ≠ ""
  pathNamed : stringValue conversions.toFormatting (manifest.incremental.get "recordTimestampPath") ≠ ""
  stamped : ∀ record ∈ server.records, timestamp conversions manifest record ≠ ""
  ownPosition : positionParam conversions manifest ≠ sinceParam conversions manifest
  ownLimit : limitParam conversions manifest ≠ "" →
    positionParam conversions manifest ≠ limitParam conversions manifest
  unset : style = .cursor → ∀ cursor, (baseQuery conversions
    { config, cursor, ingestion } endpoint).lookup (positionParam conversions manifest) = none
  recordsAt : ∀ page token, bodyRecords manifest (server.body page token) = page
  tokenAt : style = .cursor → ∀ page token, dig (server.body page token)
    (stringValue conversions.toFormatting (manifest.pagination.get "cursorPath")) = token
  numberRead : style ≠ .cursor → ∀ n : ℕ, n < 1000000 →
    server.read (stringValue conversions.toFormatting (.number n)) = n
  tokenRead : style = .cursor → ∀ n, stringValue conversions.toFormatting (server.token n) ≠ "" ∧
    server.read (stringValue conversions.toFormatting (server.token n)) = n
  lastTokenEmpty : stringValue conversions.toFormatting server.lastToken = ""

namespace IncrementalSource

variable {conversions : Conversions} (source : IncrementalSource conversions)

/-- A call with a cursor. -/
def params (cursor : JsonMap) : JsonSourceParams where
  config := source.config
  cursor := cursor
  ingestion := source.ingestion

@[simp] theorem params_cursor (cursor : JsonMap) : (source.params cursor).cursor = cursor := rfl

/-- `limit`. -/
def limit : ℤ := pageLimit conversions source.manifest (source.params [])

/-- The records with their timestamps. -/
def feed : Feed Json String := source.server.feed (timestamp conversions source.manifest)

/-- What a position means. -/
def meaning : Position := source.server.meaning source.style

/-- **One call**, as a step of paged reading. -/
def fetchPage : PageStep JsonMap Json := fun cursor page more cursor' =>
  fetchManifest conversions source.manifest (source.params cursor) source.client =
    .ok { records := page, nextCursor := cursor', hasMore := more }

/-- The watermark of a cursor. -/
def watermark (_ : IncrementalSource conversions) (cursor : JsonMap) : String :=
  stringValue conversions.toFormatting (cursor.get "watermark")

/-- The cursor is that of a source that starts from its first page. -/
def AtStart (cursor : JsonMap) : Prop :=
  match source.style with
  | .page => cursorPage conversions cursor = 1
  | .offset => cursorOffset conversions cursor = 0
  | .cursor => stringValue conversions.toFormatting (cursor.get "next") = ""

/-- **The source is ingested from a cursor**: an iteration ends, it returns every record at or after
the watermark once, and the watermark of its last cursor is the greatest of the timestamps returned
and the watermark at its start. -/
def Ingests (cursor : JsonMap) : Prop :=
  Lossless source.fetchPage cursor (source.feed.since (source.watermark cursor)) ∧
    ∀ pages final, ReadsTo source.fetchPage cursor pages final →
      (source.watermark final = source.watermark cursor ∨
        ∃ record ∈ pages.flatten, source.watermark final = source.feed.stamp record) ∧
      source.feed.le (source.watermark cursor) (source.watermark final) = true ∧
        ∀ record ∈ pages.flatten,
          source.feed.le (source.feed.stamp record) (source.watermark final) = true

/-- The greatest timestamp of a page, as a text. -/
def pageWatermark (page : List Json) : Option String := greatestText (page.map source.feed.stamp)

/-- **The watermarks are gentle**: pages are not shorter than the limit while there are more; after
every page but the last one the new watermark is at or before the records that are counted, or still
to come; and that of the last page is at or after all. -/
structure Gentle (w : String) : Prop where
  limit_pos : source.style ≠ .cursor → 0 < source.limit
  limit_le : source.style ≠ .cursor → source.feed.size < (source.feed.since w).length →
    source.limit ≤ source.feed.size
  passes : ∀ k, (k + 1) * source.feed.size < (source.feed.since w).length →
    ∀ next ∈ source.pageWatermark (nthPage source.feed.size (source.feed.since w) k),
      ∀ record ∈ source.feed.scope source.meaning w
        (afterPage source.feed.size (source.feed.since w) k),
        source.feed.le next (source.feed.stamp record) = true
  last : ∀ next ∈ source.pageWatermark (lastPage source.feed.size (source.feed.since w)),
    ∀ record ∈ source.feed.since w, source.feed.le (source.feed.stamp record) next = true

/-- The position is sent as a number below 10^6: the number of a page, or an offset. -/
def PositionSendable (n : ℕ) : Prop :=
  match source.style with
  | .page => n ≤ 999998 * source.server.size
  | .offset => n < 1000000
  | .cursor => True

/-- **The positions are below 10^6**: by page there are at most 999998 pages from the watermark on,
and by offset fewer than 10^6 records. -/
def Sendable (w : String) : Prop := source.PositionSendable (source.feed.since w).length

/-! ## The reader -/

/-- The timestamps of some records have a greatest. -/
theorem pageWatermark_spec {page : List Json} (hpage : page ⊆ source.feed.records)
    (hne : page ≠ []) :
    ∃ record ∈ page, source.pageWatermark page = some (source.feed.stamp record) := by
  obtain ⟨record, hrecord⟩ := exists_mem_of_ne_nil page hne
  obtain ⟨greatest, hgreatest, hmem, -⟩ := greatestText_spec
    ⟨_, List.mem_map_of_mem hrecord, source.stamped record (hpage hrecord)⟩
  obtain ⟨other, hother, rfl⟩ := List.mem_map.mp hmem
  exact ⟨other, hother, hgreatest⟩

/-- What the calls make of a feed. -/
def reader : Reader source.feed source.meaning where
  mark page w := (source.pageWatermark page).getD w
  goesOn page rest :=
    match source.style with
    | .cursor => !rest.isEmpty
    | .page | .offset => decide (source.limit ≤ page.length)
  next w n := source.server.next (timestamp conversions source.manifest) source.style w n
  mark_nil w := by
    rw [pageWatermark, map_nil, greatestText_nil]
    rfl
  mark_mem page w hpage hne := by
    obtain ⟨record, hrecord, hmark⟩ := source.pageWatermark_spec hpage hne
    exact ⟨record, hrecord, by rw [hmark]; rfl⟩
  mark_congr page w w' hpage hne := by
    obtain ⟨record, -, hmark⟩ := source.pageWatermark_spec hpage hne
    rw [hmark]
    rfl
  follows w n := by
    unfold meaning FeedServer.meaning FeedServer.next
    cases source.style with
    | page => exact follows_size source.feed w n
    | offset => exact follows_count source.feed w n
    | cursor =>
      cases source.server.tokens with
      | count => exact follows_count source.feed w n
      | place => exact follows_place source.feed w n

/-! ## One call -/

/-- The key of the position in a cursor. -/
def positionKey : String :=
  match source.style with
  | .page => "page"
  | .offset => "offset"
  | .cursor => "next"

/-- The cursor has the position. -/
def PositionAt (cursor : JsonMap) (n : ℕ) : Prop :=
  match source.style with
  | .page => ∃ k : ℕ, cursorPage conversions cursor = k + 1 ∧ n = k * source.server.size
  | .offset => cursorOffset conversions cursor = n
  | .cursor => stringValue conversions.toFormatting (cursor.get "next") = "" ∧ n = 0 ∨
      cursor.get "next" = source.server.token n

/-- The cursor has the watermark and the position. -/
structure At (cursor : JsonMap) (d : String × ℕ) : Prop where
  watermark : source.watermark cursor = d.1
  ne : d.1 ≠ ""
  position : source.PositionAt cursor d.2

/-- The watermark is at or after one that it has started from, and the position can be sent. -/
structure Within (w : String) (d : String × ℕ) : Prop where
  le : source.feed.le w d.1 = true
  position : source.PositionSendable d.2

variable {source} {cursor : JsonMap}

theorem positionAt_page (h : source.style = .page) {n : ℕ} : source.PositionAt cursor n ↔
      ∃ k : ℕ, cursorPage conversions cursor = k + 1 ∧ n = k * source.server.size := by
  rw [PositionAt, h]

theorem positionAt_offset (h : source.style = .offset) {n : ℕ} :
    source.PositionAt cursor n ↔ cursorOffset conversions cursor = n := by
  rw [PositionAt, h]

theorem positionAt_cursor (h : source.style = .cursor) {n : ℕ} : source.PositionAt cursor n ↔
      stringValue conversions.toFormatting (cursor.get "next") = "" ∧ n = 0 ∨
        cursor.get "next" = source.server.token n := by
  rw [PositionAt, h]

/-- Where pages have a limit, the reader goes on after a page that is not shorter. -/
theorem goesOn_limit (h : source.style ≠ .cursor) (page rest : List Json) :
    source.reader.goesOn page rest = decide (source.limit ≤ page.length) := by
  unfold reader
  split
  · exact absurd (by assumption) h
  · rfl
  · rfl

/-- With tokens, the reader goes on while there is more. -/
theorem goesOn_cursor (h : source.style = .cursor) (page rest : List Json) :
    source.reader.goesOn page rest = !rest.isEmpty := by
  unfold reader
  dsimp only
  rw [h]

/-- The position has a key of its own. -/
theorem positionKey_ne (source : IncrementalSource conversions) :
    source.positionKey ≠ "watermark" ∧ source.positionKey ≠ "backfillDone" := by
  unfold positionKey
  cases source.style <;> decide

/-- A watermark is not empty. -/
theorem mark_ne (source : IncrementalSource conversions) {page : List Json} {w : String}
    (hpage : page ⊆ source.feed.records) (hw : w ≠ "") : source.reader.mark page w ≠ "" := by
  by_cases hnil : page = []
  · rw [hnil, source.reader.mark_nil]
    exact hw
  · obtain ⟨record, hrecord, hmark⟩ := source.reader.mark_mem page w hpage hnil
    rw [hmark]
    exact source.stamped record (hpage hrecord)

/-- A position is read from its key. -/
theorem PositionAt.congr {cursor cursor' : JsonMap} {n : ℕ} (h : source.PositionAt cursor n)
    (hkey : cursor'.get source.positionKey = cursor.get source.positionKey) :
    source.PositionAt cursor' n := by
  unfold positionKey at hkey
  unfold PositionAt at h ⊢
  cases hstyle : source.style with
  | page =>
    rw [hstyle] at h hkey
    dsimp only [cursorPage] at h hkey ⊢
    rwa [hkey]
  | offset =>
    rw [hstyle] at h hkey
    dsimp only [cursorOffset] at h hkey ⊢
    rwa [hkey]
  | cursor =>
    rw [hstyle] at h hkey
    dsimp only at h hkey ⊢
    rwa [hkey]

theorem atStart_page (h : source.style = .page) :
    source.AtStart cursor ↔ cursorPage conversions cursor = 1 := by
  rw [AtStart, h]

theorem atStart_offset (h : source.style = .offset) :
    source.AtStart cursor ↔ cursorOffset conversions cursor = 0 := by
  rw [AtStart, h]

theorem atStart_cursor (h : source.style = .cursor) :
    source.AtStart cursor ↔ stringValue conversions.toFormatting (cursor.get "next") = "" := by
  rw [AtStart, h]

/-- The first position can be sent. -/
theorem positionSendable_zero : source.PositionSendable 0 := by
  unfold PositionSendable
  cases source.style with
  | page => exact Nat.zero_le _
  | offset => exact Nat.succ_pos _
  | cursor => trivial

/-- The first page is at the start. -/
theorem positionAt_zero (h : source.AtStart cursor) : source.PositionAt cursor 0 := by
  unfold AtStart at h
  unfold PositionAt
  cases hstyle : source.style with
  | page =>
    rw [hstyle] at h
    exact ⟨0, by rw [h, Nat.cast_zero, zero_add], (zero_mul _).symm⟩
  | offset =>
    rw [hstyle] at h
    exact h.trans Nat.cast_zero.symm
  | cursor =>
    rw [hstyle] at h
    exact .inl ⟨h, rfl⟩

end IncrementalSource

section call

variable {conversions : Conversions}

variable {source : IncrementalSource conversions} {cursor : JsonMap} {d : String × ℕ}

/-- **The watermark is sent.** -/
theorem lookup_since (h : source.At cursor d) :
    (manifestQuery conversions source.manifest (source.params cursor) source.client
      source.endpoint).lookup (sinceParam conversions source.manifest) = some d.1 := by
  unfold manifestQuery
  rw [if_pos source.sinceNamed, lookup_setParam, if_pos rfl, callWatermark]
  have hwatermark : stringValue conversions.toFormatting
      ((source.params cursor).cursor.get "watermark") = d.1 := h.watermark
  rw [hwatermark, if_neg h.ne, if_neg h.ne]

/-- The position's parameter is set before the others. -/
theorem lookup_position (cursor : JsonMap) :
    (manifestQuery conversions source.manifest (source.params cursor) source.client
      source.endpoint).lookup (positionParam conversions source.manifest) =
    (positionQuery conversions source.manifest (source.params cursor)
      (baseQuery conversions (source.params cursor) source.endpoint)).lookup
        (positionParam conversions source.manifest) := by
  unfold manifestQuery
  rw [if_pos source.sinceNamed, lookup_setParam, if_neg source.ownPosition]
  split_ifs with hlimit
  · rw [lookup_setParam, if_neg (source.ownLimit hlimit)]
  · rfl

/-- By cursor, the server finds the token of the cursor. -/
theorem sent_token (hstyle : source.style = .cursor) (cursor : JsonMap) :
    ((positionQuery conversions source.manifest (source.params cursor)
      (baseQuery conversions (source.params cursor) source.endpoint)).lookup
        (positionParam conversions source.manifest)).getD "" =
      stringValue conversions.toFormatting (cursor.get "next") := by
  have hstyled := source.styled
  rw [hstyle] at hstyled
  rw [positionQuery_cursor _ hstyled, source.params_cursor]
  by_cases hnull : cursor.get "next" = .null
  · have hunset : (baseQuery conversions (source.params cursor) source.endpoint).lookup
        (positionParam conversions source.manifest) = none := source.unset hstyle cursor
    rw [if_neg (not_not_intro hnull), hunset, hnull]
    rfl
  · rw [if_pos hnull, lookup_setParam, if_pos rfl, getD_some]

/-- **The position is sent**, as the server reads it. -/
theorem start_of_at (h : source.At cursor d) (hsend : source.PositionSendable d.2) :
    source.server.start source.style
    ((manifestQuery conversions source.manifest (source.params cursor) source.client
      source.endpoint).lookup (positionParam conversions source.manifest)) = d.2 := by
  have hstyled := source.styled
  have hposition := h.position
  rw [lookup_position]
  unfold IncrementalSource.PositionAt at hposition
  unfold IncrementalSource.PositionSendable at hsend
  cases hstyle : source.style with
  | page =>
    rw [hstyle] at hposition hstyled hsend
    obtain ⟨k, hk, hn⟩ := hposition
    have hbound : k + 1 < 1000000 := by
      have hle : k ≤ 999998 := Nat.le_of_mul_le_mul_right (hn ▸ hsend) source.server.size_pos
      omega
    have hcursor : cursorPage conversions (source.params cursor).cursor = ((k + 1 : ℕ) : ℚ) := by
      rw [Nat.cast_add, Nat.cast_one]
      exact hk
    rw [positionQuery_page _ hstyled, lookup_setParam, if_pos rfl, hcursor, FeedServer.start,
      getD_some, source.numberRead (by rw [hstyle]; nofun) _ hbound, Nat.add_sub_cancel, hn]
  | offset =>
    rw [hstyle] at hposition hstyled hsend
    have hcursor : cursorOffset conversions (source.params cursor).cursor = d.2 := hposition
    rw [positionQuery_offset _ hstyled, lookup_setParam, if_pos rfl, hcursor, FeedServer.start,
      getD_some, source.numberRead (by rw [hstyle]; nofun) _ hsend]
  | cursor =>
    rw [hstyle] at hposition
    rw [FeedServer.start, sent_token hstyle]
    rcases hposition with ⟨hempty, hn⟩ | htoken
    · rw [if_pos hempty, hn]
    · obtain ⟨hne, hread⟩ := source.tokenRead hstyle d.2
      rw [htoken, if_neg hne, hread]

/-- **The server answers every call.** -/
theorem fetchManifest_answered (source : IncrementalSource conversions) (cursor : JsonMap) :
    fetchManifest conversions source.manifest (source.params cursor) source.client =
      .ok (manifestResult conversions source.manifest (source.params cursor)
        (source.server.respond (timestamp conversions source.manifest) source.style
          (((manifestQuery conversions source.manifest (source.params cursor) source.client
            source.endpoint).lookup (sinceParam conversions source.manifest)).getD "")
          ((manifestQuery conversions source.manifest (source.params cursor) source.client
            source.endpoint).lookup (positionParam conversions source.manifest)))) := by
  have hparsed : source.client.parse (interpolate conversions.toFormatting (firstString conversions.toFormatting
      [(source.params cursor).config.get "url", .string source.manifest.url])
      (source.params cursor).config) = .ok source.endpoint := source.parsed
  rw [fetchManifest, hparsed]
  dsimp only
  rw [source.validated]
  dsimp only
  rw [source.served (manifestRequest conversions source.manifest (source.params cursor)
    source.client source.endpoint) rfl]
  rfl

/-- What is made of the answer. -/
theorem fetchManifest_eq (h : source.At cursor d) (hsend : source.PositionSendable d.2) :
    fetchManifest conversions source.manifest (source.params cursor) source.client =
      .ok (manifestResult conversions source.manifest (source.params cursor)
        (source.server.bodyAt (timestamp conversions source.manifest) source.style d.1 d.2)) := by
  rw [fetchManifest_answered, FeedServer.respond, lookup_since h, start_of_at h hsend, getD_some]

/-- The answer to a call, and the position that is made of it. -/
def nextOf (source : IncrementalSource conversions) (cursor : JsonMap) (d : String × ℕ) :
    Bool × JsonMap :=
  nextPosition conversions source.manifest (source.params cursor)
    (source.server.bodyAt (timestamp conversions source.manifest) source.style d.1 d.2)
    (source.feed.page source.meaning d.1 d.2)

/-- The position is that of the reader. -/
def Continues (source : IncrementalSource conversions) (d : String × ℕ)
    (position : Bool × JsonMap) :
    Prop :=
  position.1 = source.reader.goesOn (source.feed.page source.meaning d.1 d.2)
      (source.feed.rest source.meaning d.1 d.2) ∧
    source.PositionAt position.2 (source.reader.after d.1 d.2).2

/-- By page: the number of the next page, or of the first one. -/
theorem continues_page (hstyle : source.style = .page) (h : source.At cursor d) :
    Continues source d (nextOf source cursor d) := by
  have hstyled := source.styled
  rw [hstyle] at hstyled
  obtain ⟨k, hk, hn⟩ := (IncrementalSource.positionAt_page hstyle).mp h.position
  have hcursor : cursorPage conversions cursor = ((k + 1 : ℕ) : ℚ) := by
    rw [Nat.cast_add, Nat.cast_one]
    exact hk
  have hnext : source.reader.next d.1 d.2 = (k + 1) * source.server.size := by
    show source.server.next _ source.style d.1 d.2 = _
    rw [hstyle, FeedServer.next, hn, Nat.succ_mul]
  have hlimit : pageLimit conversions source.manifest (source.params cursor) = source.limit := rfl
  rw [Continues, nextOf, nextPosition_page _ _ _ hstyled, hlimit, source.params_cursor, hcursor,
    truncate_natCast, Reader.after, IncrementalSource.goesOn_limit (by rw [hstyle]; nofun),
    IncrementalSource.positionAt_page hstyle]
  split_ifs with hfull hgoes hgoes
  · refine ⟨(decide_eq_true hfull).symm, k + 1, ?_, hnext⟩
    rw [cursorPage, JsonMap.get_set, if_pos rfl, firstNumber_pair, if_pos]
    · push_cast
      ring
    · positivity
  · exact absurd (decide_eq_true hfull) hgoes
  · exact absurd (of_decide_eq_true hgoes) hfull
  · refine ⟨(decide_eq_false hfull).symm, 0, ?_, (zero_mul _).symm⟩
    rw [cursorPage, JsonMap.get_set, if_pos rfl, firstNumber_pair, ite_self, Nat.cast_zero,
      zero_add]

/-- By offset: the number of the records so far, or zero. -/
theorem continues_offset (hstyle : source.style = .offset) (h : source.At cursor d) :
    Continues source d (nextOf source cursor d) := by
  have hstyled := source.styled
  rw [hstyle] at hstyled
  have hcursor : cursorOffset conversions cursor = (d.2 : ℚ) :=
    (IncrementalSource.positionAt_offset hstyle).mp h.position
  have hcount : source.meaning = .count := by
    rw [IncrementalSource.meaning, hstyle, FeedServer.meaning]
  have hnext : source.reader.next d.1 d.2 =
      d.2 + (source.feed.page source.meaning d.1 d.2).length := by
    show source.server.next _ source.style d.1 d.2 = _
    rw [hcount, hstyle, FeedServer.next]
    rfl
  have hlimit : pageLimit conversions source.manifest (source.params cursor) = source.limit := rfl
  rw [Continues, nextOf, nextPosition_offset _ _ _ hstyled, hlimit, source.params_cursor, hcursor,
    truncate_natCast, Reader.after, IncrementalSource.goesOn_limit (by rw [hstyle]; nofun),
    IncrementalSource.positionAt_offset hstyle]
  split_ifs with hfull hgoes hgoes
  · refine ⟨(decide_eq_true hfull).symm, ?_⟩
    rw [cursorOffset, JsonMap.get_set, if_pos rfl, firstNumber_pair, hnext]
    split_ifs with hzero
    · push_cast
      ring
    · rw [not_not] at hzero
      rw [← hzero]
      push_cast
      ring
  · exact absurd (decide_eq_true hfull) hgoes
  · exact absurd (of_decide_eq_true hgoes) hfull
  · refine ⟨(decide_eq_false hfull).symm, ?_⟩
    rw [cursorOffset, JsonMap.get_set, if_pos rfl, firstNumber_pair, ite_self, Nat.cast_zero]

/-- By cursor: the token of the answer. -/
theorem continues_cursor (hstyle : source.style = .cursor) (cursor : JsonMap) (d : String × ℕ) :
    Continues source d (nextOf source cursor d) := by
  have hstyled := source.styled
  rw [hstyle] at hstyled
  have hrest : (source.server.feed (timestamp conversions source.manifest)).rest
      (source.server.meaning source.style) d.1 d.2 = source.feed.rest source.meaning d.1 d.2 := rfl
  rw [Continues, nextOf, FeedServer.bodyAt,
    nextPosition_cursor _ _ _ hstyled (source.tokenAt hstyle _ _), source.params_cursor, Reader.after,
    IncrementalSource.goesOn_cursor hstyle, IncrementalSource.positionAt_cursor hstyle, JsonMap.get_set,
    if_pos rfl, hrest]
  cases hnil : source.feed.rest source.meaning d.1 d.2 with
  | nil =>
    rw [if_pos rfl, source.lastTokenEmpty]
    exact ⟨decide_eq_false fun h => h.2 rfl, .inl ⟨rfl, rfl⟩⟩
  | cons record rest =>
    rw [if_neg (cons_ne_nil _ _)]
    have hne := (source.tokenRead hstyle
      (source.server.next (timestamp conversions source.manifest) source.style d.1 d.2)).1
    refine ⟨decide_eq_true ⟨?_, hne⟩, .inr rfl⟩
    intro hnull
    rw [hnull] at hne
    exact hne rfl

/-- **The position of the next call** is that of the reader. -/
theorem continues_of_at (h : source.At cursor d) : Continues source d (nextOf source cursor d) := by
  cases hstyle : source.style with
  | page => exact continues_page hstyle h
  | offset => exact continues_offset hstyle h
  | cursor => exact continues_cursor hstyle cursor d

/-- **One call** is a page of the reader, and leaves a cursor for the next one. -/
theorem exists_fetchPage (h : source.At cursor d) (hsend : source.PositionSendable d.2) :
    ∃ cursor', source.fetchPage cursor (source.feed.page source.meaning d.1 d.2)
        (source.reader.goesOn (source.feed.page source.meaning d.1 d.2)
          (source.feed.rest source.meaning d.1 d.2)) cursor' ∧
      source.At cursor' (source.reader.after d.1 d.2) := by
  obtain ⟨hgoes, hposition⟩ := continues_of_at h
  have hrecords : bodyRecords source.manifest (source.server.bodyAt
      (timestamp conversions source.manifest) source.style d.1 d.2) =
        source.feed.page source.meaning d.1 d.2 := source.recordsAt _ _
  refine ⟨(nextWatermark conversions source.manifest (nextOf source cursor d).2
      (source.feed.page source.meaning d.1 d.2)).set "backfillDone" (.bool !(nextOf source cursor d).1),
    ?_, ?_, ?_, ?_⟩
  · rw [IncrementalSource.fetchPage, fetchManifest_eq h hsend, manifestResult, hrecords, ← hgoes]
    rfl
  · rw [IncrementalSource.watermark, JsonMap.get_set, if_neg (by decide),
      watermark_nextWatermark _ _ source.pathNamed, nextOf,
      get_nextPosition _ _ _ (by decide) (by decide) (by decide)]
    exact congrArg (Option.getD _) h.watermark
  · exact source.mark_ne page_subset h.ne
  · refine hposition.congr ?_
    obtain ⟨hwatermark, hdone⟩ := source.positionKey_ne
    rw [JsonMap.get_set, if_neg hdone, get_nextWatermark _ _ hwatermark]

/-- A call is one step, and it is the step of the reader. -/
theorem fetchPage_iff (h : source.At cursor d) (hsend : source.PositionSendable d.2)
    {page : List Json} {more : Bool} {cursor' : JsonMap} :
    source.fetchPage cursor page more cursor' →
      pageStep source.reader d page more (source.reader.after d.1 d.2) ∧
        source.At cursor' (source.reader.after d.1 d.2) := by
  intro hstep
  obtain ⟨next, hnext, hat⟩ := exists_fetchPage h hsend
  rw [IncrementalSource.fetchPage] at hstep hnext
  have heq := Except.ok.inj (hstep.symm.trans hnext)
  rw [JsonSourceResult.mk.injEq] at heq
  obtain ⟨rfl, rfl, rfl⟩ := heq
  exact ⟨⟨rfl, rfl, rfl⟩, hat⟩

/-- A later watermark selects no more records. -/
theorem length_since_le {w : String} (h : source.feed.le w d.1 = true) :
    (source.feed.since d.1).length ≤ (source.feed.since w).length := by
  apply Sublist.length_le
  apply monotone_filter_right
  intro record hrecord
  exact source.feed.trans _ _ _ h hrecord

/-- **The next position can be sent** as well: after a page that is not empty there have been no
more records than are selected. -/
theorem within_after {w : String} (hlimit : source.style ≠ .cursor → 0 < source.limit)
    (hw : source.Sendable w) (hat : source.At cursor d) (h : source.Within w d) :
    source.Within w (source.reader.after d.1 d.2) := by
  have hmark : source.feed.le d.1 (source.reader.after d.1 d.2).1 = true :=
    @le_mark _ _ _ _ source.reader _ _
  refine ⟨source.feed.trans _ _ _ h.le hmark, ?_⟩
  have hafter : (source.reader.after d.1 d.2).2 = if source.reader.goesOn
      (source.feed.page source.meaning d.1 d.2) (source.feed.rest source.meaning d.1 d.2) then
        source.reader.next d.1 d.2 else 0 := rfl
  rw [hafter]
  by_cases hstyle : source.style = .cursor
  · unfold IncrementalSource.PositionSendable
    rw [hstyle]
    trivial
  rw [IncrementalSource.goesOn_limit hstyle]
  split_ifs with hgoes
  swap
  · exact IncrementalSource.positionSendable_zero
  have hcount : source.meaning = .count := by
    unfold IncrementalSource.meaning FeedServer.meaning
    cases hposition : source.style with
    | cursor => exact absurd hposition hstyle
    | page | offset => rfl
  have hlength : (source.feed.page source.meaning d.1 d.2).length =
      min source.server.size ((source.feed.since d.1).length - d.2) := by
    rw [hcount, length_page]
    exact congrArg (min _) length_drop
  have hpage : 0 < (source.feed.page source.meaning d.1 d.2).length := by
    have hle := of_decide_eq_true hgoes
    have hpos := hlimit hstyle
    omega
  have hsince := length_since_le h.le
  have hposition := hat.position
  have hnext : source.reader.next d.1 d.2 =
      source.server.next (timestamp conversions source.manifest) source.style d.1 d.2 := rfl
  unfold IncrementalSource.Sendable IncrementalSource.PositionSendable at hw
  unfold IncrementalSource.PositionAt at hposition
  unfold IncrementalSource.PositionSendable
  rw [hnext]
  cases hcase : source.style with
  | cursor => exact absurd hcase hstyle
  | page =>
    rw [hcase] at hw hposition
    obtain ⟨k, -, hk⟩ := hposition
    show d.2 + source.server.size ≤ 999998 * source.server.size
    have hlt : k * source.server.size < 999998 * source.server.size := by
      rw [← hk]
      omega
    have hk' := Nat.lt_of_mul_lt_mul_right hlt
    rw [hk, ← Nat.succ_mul]
    exact Nat.mul_le_mul_right _ hk'
  | offset =>
    rw [hcase] at hw
    show d.2 + (source.feed.page .count d.1 d.2).length < 1000000
    rw [← hcount]
    have hw : (source.feed.since w).length < 1000000 := hw
    omega

/-- **The calls are those of the reader**, as long as the positions can be sent. -/
theorem bisimilar {w : String} (hlimit : source.style ≠ .cursor → 0 < source.limit)
    (hw : source.Sendable w) : Bisimilar source.fetchPage (pageStep source.reader)
      fun cursor d => source.At cursor d ∧ source.Within w d where
  forward cursor d page more cursor' h hstep := by
    obtain ⟨hpage, hat⟩ := fetchPage_iff h.1 h.2.position hstep
    exact ⟨_, hpage, hat, within_after hlimit hw h.1 h.2⟩
  back cursor d page more d' h hstep := by
    obtain ⟨rfl, rfl, rfl⟩ := hstep
    obtain ⟨cursor', hnext, hat⟩ := exists_fetchPage h.1 h.2.position
    exact ⟨cursor', hnext, hat, within_after hlimit hw h.1 h.2⟩

end call

/-! ## Every source -/

section ingestion

variable {conversions : Conversions} {source : IncrementalSource conversions} {w : String}

/-- From the start everything is to come. -/
theorem remaining_zero (feed : Feed Json String) (position : Position) (w : String) :
    feed.remaining position w 0 = feed.since w := by
  cases position with
  | count | place => rfl

/-- A page that is not the last one is full. -/
theorem length_nthPage {size : ℕ} {rows : List Json} {k : ℕ} (h : (k + 1) * size < rows.length) :
    (nthPage size rows k).length = size := by
  rw [Nat.succ_mul] at h
  rw [nthPage, length_take, length_drop]
  omega

/-- **Gentle watermarks are those of a steady reader.** -/
theorem steady_iff (source : IncrementalSource conversions) (w : String) :
    Steady source.reader w (source.feed.since w) ↔
      (source.style ≠ .cursor → source.feed.size < (source.feed.since w).length →
        source.limit ≤ source.feed.size) ∧
      ∀ k, (k + 1) * source.feed.size < (source.feed.since w).length →
        ∀ next ∈ source.pageWatermark (nthPage source.feed.size (source.feed.since w) k),
          ∀ record ∈ source.feed.scope source.meaning w
            (afterPage source.feed.size (source.feed.since w) k),
            source.feed.le next (source.feed.stamp record) = true := by
  have hmark : ∀ k, (k + 1) * source.feed.size < (source.feed.since w).length →
      ∃ next, source.pageWatermark (nthPage source.feed.size (source.feed.since w) k) = some next ∧
        source.reader.mark (nthPage source.feed.size (source.feed.since w) k) w = next := by
    intro k hk
    obtain ⟨record, -, hrecord⟩ := source.pageWatermark_spec
      (List.Subset.trans nthPage_subset (filter_subset_self _))
      (nthPage_ne_nil source.feed.size_pos hk)
    exact ⟨_, hrecord, congrArg (Option.getD · w) hrecord⟩
  constructor
  · intro h
    refine ⟨fun hstyle hmore => ?_, fun k hk next hnext record hrecord => ?_⟩
    · have hgoes := (h 0 (by rwa [zero_add, one_mul])).1
      rw [IncrementalSource.goesOn_limit hstyle,
        length_nthPage (by rwa [zero_add, one_mul])] at hgoes
      exact of_decide_eq_true hgoes
    · obtain ⟨next', hnext', hmark'⟩ := hmark k hk
      obtain rfl : next' = next := some.inj (hnext'.symm.trans hnext)
      have hle := (h k hk).2 record hrecord
      rwa [hmark'] at hle
  · rintro ⟨hlimit, hpasses⟩ k hk
    obtain ⟨next, hnext, hmark'⟩ := hmark k hk
    refine ⟨?_, ?_⟩
    · by_cases hstyle : source.style = .cursor
      · have hne : afterPage source.feed.size (source.feed.since w) k ≠ [] := by
          rw [afterPage, ne_eq, drop_eq_nil_iff]
          omega
        rw [IncrementalSource.goesOn_cursor hstyle, Bool.not_eq_true', isEmpty_eq_false_iff]
        exact hne
      · have hsize : source.feed.size < (source.feed.since w).length := by
          rw [Nat.succ_mul] at hk
          omega
        rw [IncrementalSource.goesOn_limit hstyle, length_nthPage hk]
        exact decide_eq_true (hlimit hstyle hsize)
    · intro record hrecord
      rw [hmark']
      exact hpasses k hk next hnext record hrecord

/-- A positive limit ends the reading at an empty page. -/
theorem goesOn_nil (h : source.style ≠ .cursor → 0 < source.limit) :
    source.reader.goesOn [] [] = false := by
  by_cases hstyle : source.style = .cursor
  · rw [IncrementalSource.goesOn_cursor hstyle]
    rfl
  · rw [IncrementalSource.goesOn_limit hstyle]
    exact decide_eq_false (not_le.mpr (h hstyle))

/-- **Where the limit is not positive the calls do not end**, whatever the server makes of the
positions. -/
theorem not_ends_of_limit (hstyle : source.style ≠ .cursor) (h : ¬ 0 < source.limit)
    (cursor : JsonMap) : ¬ Ends source.fetchPage cursor := by
  apply not_ends_of_more
  intro cursor
  have hstyled := source.styled
  have hlimit : ∀ page : List Json,
      pageLimit conversions source.manifest (source.params cursor) ≤ page.length :=
    fun page => (not_lt.mp h).trans (Int.natCast_nonneg _)
  have hanswered := fetchManifest_answered source cursor
  generalize source.server.respond _ _ _ _ = decoded at hanswered
  have hmore :
      (manifestResult conversions source.manifest (source.params cursor) decoded).hasMore = true := by
    unfold manifestResult
    dsimp only
    cases hcase : source.style with
    | cursor => exact absurd hcase hstyle
    | page =>
      rw [hcase] at hstyled
      rw [nextPosition_page _ _ _ hstyled, if_pos (hlimit _)]
    | offset =>
      rw [hcase] at hstyled
      rw [nextPosition_offset _ _ _ hstyled, if_pos (hlimit _)]
  generalize manifestResult _ _ _ decoded = result at hanswered hmore
  obtain ⟨page, cursor', more⟩ := result
  cases hmore
  exact ⟨page, cursor', hanswered⟩

variable {cursor : JsonMap}

section start

variable (hstart : source.AtStart cursor) (hw : source.watermark cursor ≠ "")
  (hsend : source.Sendable (source.watermark cursor))
include hstart hw hsend

omit hsend in
theorem at_start : source.At cursor (source.watermark cursor, 0) ∧
    source.Within (source.watermark cursor) (source.watermark cursor, 0) := by
  refine ⟨⟨rfl, hw, IncrementalSource.positionAt_zero hstart⟩, ?_,
    IncrementalSource.positionSendable_zero⟩
  exact (source.feed.total _ _).elim id id

section limit

variable (hlimit : source.style ≠ .cursor → 0 < source.limit)
include hlimit

/-- What the calls return is what the reader returns. -/
theorem lossless_iff :
    Lossless source.fetchPage cursor (source.feed.since (source.watermark cursor)) ↔
    Lossless (pageStep source.reader) (source.watermark cursor, 0)
      (source.feed.remaining source.meaning (source.watermark cursor) 0) := by
  rw [remaining_zero]
  exact lossless_iff_of_bisimilar (bisimilar hlimit hsend) (at_start hstart hw) _

/-- **The watermark at the end** is that of the last page. -/
theorem watermark_of_readsTo (hsteady : Steady source.reader (source.watermark cursor)
      (source.feed.since (source.watermark cursor)))
    {pages : List (List Json)} {final : JsonMap} (h : ReadsTo source.fetchPage cursor pages final) :
    source.watermark final = (source.pageWatermark (lastPage source.feed.size
      (source.feed.since (source.watermark cursor)))).getD (source.watermark cursor) := by
  obtain ⟨d, hreads, hat, -⟩ := h.of_bisimilar (bisimilar hlimit hsend) (at_start hstart hw)
  rw [← remaining_zero source.feed source.meaning] at hsteady
  rw [hat.watermark, mark_of_readsTo hsteady hreads, remaining_zero]
  rfl

end limit

/-- **A source that is ingested has gentle watermarks.** -/
theorem gentle_of_ingests (h : source.Ingests cursor) :
    source.Gentle (source.watermark cursor) := by
  obtain ⟨hlossless, hmaximum⟩ := h
  have hlimit : source.style ≠ .cursor → 0 < source.limit := by
    intro hstyle
    by_contra hneg
    exact not_ends_of_limit hstyle hneg _ hlossless.ends
  have hreader := (lossless_iff hstart hw hsend hlimit).mp hlossless
  have hsteady := (lossless_iff_steady (goesOn_nil hlimit) _ _).mp hreader
  rw [remaining_zero] at hsteady
  obtain ⟨hfull, hpasses⟩ := (steady_iff source _).mp hsteady
  refine ⟨hlimit, hfull, hpasses, ?_⟩
  intro next hnext record hrecord
  obtain ⟨pages, hpages⟩ := hlossless.ends.exists_reads
  obtain ⟨final, hfinal⟩ := hpages.exists_readsTo
  have hmem := (hlossless.complete pages hpages).symm.subset hrecord
  have hle := (hmaximum pages final hfinal).2.2 record hmem
  rwa [watermark_of_readsTo hstart hw hsend hlimit hsteady hfinal, hnext, getD_some] at hle

/-- **A source with gentle watermarks is ingested.** -/
theorem ingests_of_gentle (h : source.Gentle (source.watermark cursor)) :
    source.Ingests cursor := by
  have hsteady := (steady_iff source _).mpr ⟨h.limit_le, h.passes⟩
  have hlossless : Lossless source.fetchPage cursor
      (source.feed.since (source.watermark cursor)) := by
    refine (lossless_iff hstart hw hsend h.limit_pos).mpr (lossless_of_steady (goesOn_nil h.limit_pos) ?_)
    rw [remaining_zero]
    exact hsteady
  refine ⟨hlossless, ?_⟩
  intro pages final hfinal
  have hperm := hlossless.complete pages hfinal.reads
  have hwatermark := watermark_of_readsTo hstart hw hsend h.limit_pos hsteady hfinal
  by_cases hnil : source.feed.since (source.watermark cursor) = []
  · rw [hnil] at hperm hwatermark
    have hstays : source.watermark final = source.watermark cursor := by
      rw [hwatermark, lastPage, drop_nil, IncrementalSource.pageWatermark, map_nil,
        greatestText_nil]
      rfl
    rw [hstays, hperm.eq_nil]
    exact ⟨.inl rfl, (source.feed.total _ _).elim id id, forall_mem_nil _⟩
  · have hsubset : lastPage source.feed.size (source.feed.since (source.watermark cursor)) ⊆
        source.feed.since (source.watermark cursor) := drop_subset _ _
    obtain ⟨record, hrecord, hnext⟩ := source.pageWatermark_spec
      (List.Subset.trans hsubset (filter_subset_self _)) (lastPage_ne_nil hnil)
    rw [hnext, getD_some] at hwatermark
    rw [hwatermark]
    refine ⟨.inr ⟨record, hperm.symm.subset (hsubset hrecord), rfl⟩,
      (mem_filter.mp (hsubset hrecord)).2, ?_⟩
    intro other hother
    exact h.last _ hnext other (hperm.subset hother)

end start

/-- **A source is ingested iff its watermarks are gentle.** For every server, every finite list of records
and every stored cursor with a watermark, where the positions that are sent are below 10^6: the iteration
ends, returns every record at or after the watermark once and leaves the greatest timestamp as its
watermark, iff the limit is positive and no page that is not the last is shorter, the watermark of every
page but the last one is at or before the records that the server still counts or has still to send, and
that of the last page is at or after all.

Source: `http.go` `fetchManifest` -/
theorem ingests_iff (source : IncrementalSource conversions) (cursor : JsonMap)
    (hstart : source.AtStart cursor) (hw : source.watermark cursor ≠ "")
    (hsend : source.Sendable (source.watermark cursor)) :
    source.Ingests cursor ↔ source.Gentle (source.watermark cursor) :=
  ⟨gentle_of_ingests hstart hw hsend, ingests_of_gentle hstart hw hsend⟩

end ingestion

/-! ## Days of a feed -/

/-- Whole numbers are written in digits. -/
def feedConversions : Conversions where
  sprint
    | .number value => value.num.repr
    | _ => ""
  scanFloat _ := 0
  parseFloat _ := 0
  quote text := text

/-- A server of records with a timestamp, two on a page, with tokens for places. -/
def feedServer (records : List Json) : FeedServer where
  records := records
  le a b := decide (a ≤ b)
  total a b := by simpa using le_total a b
  trans a b c hab hbc := by
    simp only [decide_eq_true_eq] at hab hbc ⊢
    exact hab.trans hbc
  size := 2
  size_pos := Nat.two_pos
  tokens := .place
  read text := ((Decimal.parseDecimal text).getD 0).toNat
  token n := .string (Int.repr n)
  lastToken := .null
  body page token := .object [("items", .array page), ("next", token)]

theorem items_path : (splitText '.' "items").filter (· ≠ "") = ["items"] := by decide +kernel

/-- What the source of these records is told. -/
def feedManifest (style : PageStyle) : ConnectorManifest where
  url := "https://api.test/records"
  recordsPath := "items"
  pagination := [("style", .string style.text), ("cursorPath", .string "next"), ("limit", .number 2)]
  incremental := [("sinceParam", .string "since"), ("recordTimestampPath", .string "at")]

/-- Their address. -/
def feedEndpoint : Endpoint := { text := "https://api.test/records", query := [] }

/-- A record. -/
def feedRecord (day : String) : Json := .object [("at", .string day)]

/-- The timestamp of a record is its day. -/
theorem timestamp_feedRecord (style : PageStyle) (day : String) :
    timestamp feedConversions (feedManifest style) (feedRecord day) = day := by
  have hpath : (splitText '.' "at").filter (· ≠ "") = ["at"] := by decide +kernel
  show stringValue _ (dig _ "at") = day
  rw [feedRecord, dig_key hpath]
  rfl

/-- A token is read back. -/
theorem read_repr (n : ℕ) : ((Decimal.parseDecimal (Int.repr n)).getD 0).toNat = n := by
  simp [Decimal.parseDecimal_repr_int]

/-- The source of some records. -/
def feedSource (style : PageStyle) (days : List String) (hdays : "" ∉ days) :
    IncrementalSource feedConversions where
  style := style
  server := feedServer (days.map feedRecord)
  client :=
    { parse := fun _ => .ok feedEndpoint
      validateURL := fun _ => .ok ()
      basicAuth := fun _ _ => ""
      send := fun request => .ok
        { statusCode := 200
          body := .ok ((feedServer (days.map feedRecord)).respond
            (timestamp feedConversions (feedManifest style)) style
            ((request.query.lookup (sinceParam feedConversions (feedManifest style))).getD "")
            (request.query.lookup (positionParam feedConversions (feedManifest style)))) }
      anHourAgo := "" }
  manifest := feedManifest style
  config := []
  ingestion := none
  endpoint := feedEndpoint
  parsed := rfl
  validated := rfl
  served _ _ := rfl
  styled := by cases style <;> rfl
  sinceNamed := by cases style <;> decide +kernel
  pathNamed := by cases style <;> decide +kernel
  stamped record hrecord := by
    obtain ⟨day, hday, rfl⟩ := List.mem_map.mp hrecord
    rw [timestamp_feedRecord]
    rintro rfl
    exact hdays hday
  ownPosition := by cases style <;> decide +kernel
  ownLimit hlimit := by
    refine absurd ?_ hlimit
    cases style <;> decide +kernel
  unset _ _ := rfl
  recordsAt page token := by
    have hitems : dig ((feedServer (days.map feedRecord)).body page token)
        (feedManifest style).recordsPath = .array page := (dig_key items_path _).trans rfl
    have hbranch : (feedManifest style).recordsPath ≠ "" := by cases style <;> decide +kernel
    rw [bodyRecords, if_pos hbranch, hitems]
  tokenAt _ page token := by
    have hpath : (splitText '.' "next").filter (· ≠ "") = ["next"] := by decide +kernel
    exact (dig_key hpath _).trans rfl
  numberRead _ n _ := by
    show ((Decimal.parseDecimal (n : ℚ).num.repr).getD 0).toNat = n
    rw [Rat.num_natCast, read_repr]
  tokenRead _ n := ⟨Decimal.repr_int_ne_empty n, read_repr n⟩
  lastTokenEmpty := rfl

/-- The cursor that was stored on some day. -/
def feedCursor (day : String) : JsonMap := [("watermark", .string day)]

variable {days : List String} {style : PageStyle}

section

variable (hdays : "" ∉ days)

include hdays

theorem atStart_feedCursor (day : String) :
    (feedSource style days hdays).AtStart (feedCursor day) := by
  cases style with
  | page => exact (IncrementalSource.atStart_page rfl).mpr rfl
  | offset => exact (IncrementalSource.atStart_offset rfl).mpr rfl
  | cursor => exact (IncrementalSource.atStart_cursor rfl).mpr rfl

theorem watermark_feedCursor (day : String) :
    (feedSource style days hdays).watermark (feedCursor day) = day := rfl

/-- The stamps of the feed are the days. -/
theorem stamp_feedSource (day : String) :
    (feedSource style days hdays).feed.stamp (feedRecord day) = day :=
  timestamp_feedRecord style day

/-- Days are in the order of their texts. -/
theorem le_feedSource (a b : String) :
    (feedSource style days hdays).feed.le a b = decide (a ≤ b) := rfl

/-- What is returned of days. -/
theorem since_feedSource (w : String) : (feedSource style days hdays).feed.since w =
      (days.filter fun day => decide (w ≤ day)).map feedRecord := by
  have hrecords : (feedSource style days hdays).feed.records = days.map feedRecord := rfl
  rw [Feed.since, hrecords, List.filter_map]
  refine congrArg (List.map feedRecord) (filter_congr ?_)
  intro day _
  rw [Function.comp_apply, stamp_feedSource, le_feedSource]

/-- The watermark of a page of days. -/
theorem pageWatermark_feedSource
    {page : List String} {greatest : String} (hmem : greatest ∈ page) (hne : greatest ≠ "")
    (h : ∀ day ∈ page, day ≤ greatest) :
    (feedSource style days hdays).pageWatermark (page.map feedRecord) = some greatest := by
  have hstamps : (page.map feedRecord).map (feedSource style days hdays).feed.stamp = page := by
    rw [List.map_map]
    refine map_id'' ?_ page
    exact stamp_feedSource hdays
  rw [IncrementalSource.pageWatermark, hstamps]
  exact greatestText_eq hmem hne h

end

/-- Three days in their order. -/
def feedDays : List String := ["2024-01-01", "2024-01-02", "2024-01-03"]

theorem feedDays_ne : "" ∉ feedDays := by decide +kernel

theorem since_feedDays (style : PageStyle) : (feedSource style feedDays feedDays_ne).feed.since
    "2024-01-01" = feedDays.map feedRecord := by
  rw [since_feedSource]
  exact congrArg (List.map feedRecord) (by decide +kernel)

/-- With tokens for places the days are ingested: no watermark is after a record that is still to
come. -/
theorem ingests_iff_tokens : (feedSource .cursor feedDays feedDays_ne).Ingests
    (feedCursor "2024-01-01") := by
  have hsend : (feedSource .cursor feedDays feedDays_ne).Sendable "2024-01-01" := trivial
  refine (ingests_iff _ _ (atStart_feedCursor _ _) (by decide +kernel) hsend).mpr
    ⟨fun hstyle => absurd rfl hstyle, fun hstyle => absurd rfl hstyle, ?_, ?_⟩
  · intro k hk next hnext record hrecord
    rw [watermark_feedCursor, since_feedDays] at hk hnext hrecord
    have hk : (k + 1) * 2 < 3 := hk
    obtain rfl : k = 0 := by omega
    have hfirst : (feedSource .cursor feedDays feedDays_ne).pageWatermark
        (["2024-01-01", "2024-01-02"].map feedRecord) = some "2024-01-02" :=
      pageWatermark_feedSource _ (by decide) (by decide) (by decide +kernel)
    obtain rfl : "2024-01-02" = next := some.inj (hfirst.symm.trans hnext)
    obtain rfl : record = feedRecord "2024-01-03" := mem_singleton.mp hrecord
    decide +kernel
  · intro next hnext record hrecord
    rw [watermark_feedCursor, since_feedDays] at hnext hrecord
    have hlast : (feedSource .cursor feedDays feedDays_ne).pageWatermark
        (["2024-01-03"].map feedRecord) = some "2024-01-03" :=
      pageWatermark_feedSource _ (by decide) (by decide) (by decide +kernel)
    obtain rfl : "2024-01-03" = next := some.inj (hlast.symm.trans hnext)
    obtain ⟨day, hday, rfl⟩ := List.mem_map.mp hrecord
    have hle : ∀ day ∈ feedDays, decide (day ≤ "2024-01-03") = true := by decide +kernel
    rw [stamp_feedSource, le_feedSource]
    exact hle day hday

/-- **A page that is lost.** By page, the watermark of the first page hides one of the two records
that the second page skips, so the third one is not returned. -/
theorem second_page_lost :
    (feedSource .page feedDays feedDays_ne).AtStart (feedCursor "2024-01-01") ∧
    (feedSource .page feedDays feedDays_ne).watermark (feedCursor "2024-01-01") = "2024-01-01" ∧
      ¬ (feedSource .page feedDays feedDays_ne).Ingests (feedCursor "2024-01-01") := by
  refine ⟨atStart_feedCursor _ _, rfl, ?_⟩
  intro h
  have hsend : (feedSource .page feedDays feedDays_ne).Sendable "2024-01-01" := by
    unfold IncrementalSource.Sendable
    rw [since_feedDays]
    show 3 ≤ 999998 * 2
    omega
  have hgentle := gentle_of_ingests (atStart_feedCursor _ _) (by decide +kernel) hsend h
  have hpasses := hgentle.passes 0
  rw [watermark_feedCursor, since_feedDays] at hpasses
  have hfirst : (feedSource .page feedDays feedDays_ne).pageWatermark
      (["2024-01-01", "2024-01-02"].map feedRecord) = some "2024-01-02" :=
    pageWatermark_feedSource _ (by decide) (by decide) (by decide +kernel)
  have hle := hpasses (by decide) "2024-01-02" hfirst (feedRecord "2024-01-01") (by
    show _ ∈ (feedSource .page feedDays feedDays_ne).feed.since "2024-01-01"
    rw [since_feedDays]
    exact mem_cons_self)
  exact absurd hle (by decide +kernel)

end Dataflow.Connectors.HttpIncremental
