import Dataflow.Connectors.HttpIncremental

/-!
# The positions that an HTTP source sends

A source that is paged by pages or by offsets has its position in its cursor, as a JSON number. It
is a `float64` when it is read back, and its text has an exponent from a million on.

* `withIntegers`: `fmt.Sprint` of a `float64` that is an integer, as Go writes it.
* `PositionedSource`, `Honours`: a source, and the servers that return the page at each position
  that they are sent in digits.
* `lastPosition`: the position of the last call of an iteration.
* `sent_iff`: what a call sends.
* `exists_fetchPage`, `eq_of_fetchPage`: what a call does at a server that reads its position.
* `ReadsExactly`: all positions of an iteration are sent in digits, and it returns every record
  once.
* **`readsExactly_iff`**: it does iff its last position is below a million.

The numbers of a cursor are exact here. A `float64` is exact below 2^53; from there on the digits
that Go writes are other ones, with the same exponent.

Source: `http.go` `fetchManifest`, `transforms.go` `stringValue`
-/

namespace Dataflow.Connectors.HttpPositions

open Activities Library Library.Decimal Library.Paging List Option
  Dataflow.Model HttpIncremental
open Interpolation (interpolate)

/-! ## Texts of numbers -/

/-- The conversions, where an integer is written as Go writes it. -/
def withIntegers (conversions : Conversions) : Conversions where
  sprint
    | .number value =>
      if value.den = 1 then shortest value.num else conversions.sprint (.number value)
    | value => conversions.sprint value
  scanFloat := conversions.scanFloat
  parseFloat := conversions.parseFloat
  quote := conversions.quote

/-- The text of a position. -/
theorem stringValue_natCast (conversions : Conversions) (n : ℕ) :
    stringValue (withIntegers conversions).toFormatting (.number n) = shortest n := by
  show (if (n : ℚ).den = 1 then shortest (n : ℚ).num else conversions.sprint (.number n)) = _
  rw [Rat.den_natCast, if_pos rfl, Rat.num_natCast]

/-! ## Sources -/

/-- A source that is paged by pages or by offsets. The parameters have names of their own, and the
records of a body are where the manifest looks for them. -/
structure PositionedSource (conversions : Conversions) where
  style : PageStyle
  counted : style ≠ .cursor
  client : HttpClient
  manifest : ConnectorManifest
  config : JsonMap
  ingestion : Option IngestionConfig
  endpoint : Endpoint
  limit : ℕ
  limit_pos : 0 < limit
  body : List Json → Json
  parsed : client.parse (interpolate conversions.toFormatting (firstString conversions.toFormatting
    [config.get "url", .string manifest.url]) config) = .ok endpoint
  validated : client.validateURL endpoint.text = .ok ()
  styled : pageStyle conversions manifest = style.text
  limited : pageLimit conversions manifest { config, ingestion } = limit
  ownSince : sinceParam conversions manifest ≠ "" →
    positionParam conversions manifest ≠ sinceParam conversions manifest ∧
      limitParam conversions manifest ≠ sinceParam conversions manifest
  ownLimit : limitParam conversions manifest ≠ "" →
    positionParam conversions manifest ≠ limitParam conversions manifest
  recordsAt : ∀ page, bodyRecords manifest (body page) = page

namespace PositionedSource

variable {conversions : Conversions} (source : PositionedSource conversions)

/-- A call with a cursor. -/
def params (cursor : JsonMap) : JsonSourceParams where
  config := source.config
  cursor := cursor
  ingestion := source.ingestion

/-- The first record of a position. Pages are counted from one. -/
def offset (position : ℕ) : ℕ :=
  match source.style with
  | .page => (position - 1) * source.limit
  | .offset | .cursor => position

/-- How far the position goes on after a page. -/
def stride : ℕ :=
  match source.style with
  | .page => 1
  | .offset | .cursor => source.limit

/-- The number of full pages from a position on. -/
def fullPages (records : List Json) (position : ℕ) : ℕ :=
  (records.length - source.offset position) / source.limit

/-- The position of the last call of an iteration. -/
def lastPosition (records : List Json) (position : ℕ) : ℕ :=
  position + source.fullPages records position * source.stride

/-- The page at a position. -/
def pageAt (records : List Json) (position : ℕ) : List Json :=
  (records.drop (source.offset position)).take source.limit

/-- The cursor has the position. -/
def At (cursor : JsonMap) (position : ℕ) : Prop :=
  match source.style with
  | .page => cursorPage conversions cursor = position
  | .offset | .cursor => cursorOffset conversions cursor = position

/-- The query of a call. -/
def query (cursor : JsonMap) : QueryParams :=
  manifestQuery conversions source.manifest (source.params cursor) source.client source.endpoint

/-- The position that a call sends. -/
def sent (cursor : JsonMap) : Option String :=
  (source.query cursor).lookup (positionParam conversions source.manifest)

/-- **A server that honours positions and limits**: it returns the page at the position that it is
sent, where this is in digits, and where the limit is sent if it has a name. -/
def Honours (records : List Json) (send : HttpRequest → Except String HttpResponse) : Prop :=
  ∀ request position, request.endpoint = source.endpoint →
    request.query.lookup (positionParam conversions source.manifest) = some (Nat.repr position) →
    (limitParam conversions source.manifest ≠ "" →
      request.query.lookup (limitParam conversions source.manifest) =
        some (toString (source.limit : ℤ))) →
    send request = .ok
      { statusCode := 200, body := .ok (source.body (source.pageAt records position)) }

/-- **One call** to a server, as a step of paged reading. -/
def fetchPage (send : HttpRequest → Except String HttpResponse) : PageStep JsonMap Json :=
  fun cursor page more cursor' =>
    fetchManifest conversions source.manifest (source.params cursor) { source.client with send } =
      .ok { records := page, nextCursor := cursor', hasMore := more }

/-- **The source is read exactly from a position**: the positions up to the last one are sent in
digits, and at every server that honours them an iteration returns the records from there on, each
one once. -/
structure ReadsExactly (records : List Json) (cursor : JsonMap) (position : ℕ) : Prop where
  sent : ∀ k ≤ source.fullPages records position, ∀ cursor',
    source.At cursor' (position + k * source.stride) →
      source.sent cursor' = some (position + k * source.stride).repr
  complete : ∀ send, source.Honours records send →
    Lossless (source.fetchPage send) cursor (records.drop (source.offset position))

end PositionedSource

/-! ## What a call sends -/

section sent

variable {conversions : Conversions} {source : PositionedSource conversions} {cursor : JsonMap}
  {position : ℕ}

/-- Either it is pages or offsets. -/
theorem page_or_offset (source : PositionedSource conversions) :
    source.style = .page ∨ source.style = .offset := by
  have hcounted := source.counted
  cases hstyle : source.style with
  | page => exact .inl rfl
  | offset => exact .inr rfl
  | cursor => exact absurd hstyle hcounted

/-- **The position is sent**, as the text of its number. -/
theorem sent_of_at (h : source.At cursor position) :
    source.sent cursor = some (stringValue conversions.toFormatting (.number position)) := by
  have hquery : source.sent cursor =
      (positionQuery conversions source.manifest (source.params cursor)
      (baseQuery conversions (source.params cursor) source.endpoint)).lookup
        (positionParam conversions source.manifest) := by
    unfold PositionedSource.sent PositionedSource.query manifestQuery
    dsimp only
    split_ifs with hsince hlimit hlimit
    · rw [lookup_setParam, if_neg (source.ownSince hsince).1, lookup_setParam,
        if_neg (source.ownLimit hlimit)]
    · rw [lookup_setParam, if_neg (source.ownSince hsince).1]
    · rw [lookup_setParam, if_neg (source.ownLimit hlimit)]
    · rfl
  have hstyled := source.styled
  unfold PositionedSource.At at h
  rw [hquery]
  rcases page_or_offset source with hstyle | hstyle
  · rw [hstyle] at h hstyled
    rw [positionQuery_page _ hstyled, lookup_setParam, if_pos rfl]
    exact congrArg (fun number => some (stringValue _ (.number number))) h
  · rw [hstyle] at h hstyled
    rw [positionQuery_offset _ hstyled, lookup_setParam, if_pos rfl]
    exact congrArg (fun number => some (stringValue _ (.number number))) h

/-- The limit is sent, if it has a name. -/
theorem lookup_limit (hname : limitParam conversions source.manifest ≠ "") :
    (source.query cursor).lookup (limitParam conversions source.manifest) =
      some (toString (source.limit : ℤ)) := by
  have hlimit : pageLimit conversions source.manifest (source.params cursor) = source.limit :=
    source.limited
  unfold PositionedSource.query manifestQuery
  dsimp only
  rw [if_pos hname, hlimit]
  split_ifs with hsince
  · rw [lookup_setParam, if_neg (source.ownSince hsince).2, lookup_setParam, if_pos rfl]
  · rw [lookup_setParam, if_pos rfl]

/-- **A position is sent in digits iff it is below a million.** -/
theorem sent_iff {source : PositionedSource (withIntegers conversions)}
    (h : source.At cursor position) :
    source.sent cursor = some position.repr ↔ position < 10 ^ 6 := by
  rw [sent_of_at h, some.injEq, stringValue_natCast]
  exact shortest_natCast_iff position

end sent

/-! ## What a call does -/

section call

variable {conversions : Conversions} {source : PositionedSource conversions} {cursor : JsonMap}
  {position : ℕ} {records : List Json} {send : HttpRequest → Except String HttpResponse}

/-- The next position is that of the records behind the page. -/
theorem offset_add_stride (h : source.At cursor position) :
    source.offset (position + source.stride) = source.offset position + source.limit := by
  unfold PositionedSource.At at h
  unfold PositionedSource.offset PositionedSource.stride
  rcases page_or_offset source with hstyle | hstyle
  · rw [hstyle] at h ⊢
    dsimp only at h ⊢
    have hpos : position ≠ 0 := by
      rintro rfl
      rw [cursorPage, firstNumber] at h
      split_ifs at h with hzero
      · exact hzero (by simpa using h)
      · simp [firstNumber, number] at h
    obtain ⟨k, rfl⟩ := Nat.exists_eq_succ_of_ne_zero hpos
    rw [Nat.succ_add_sub_one, Nat.succ_sub_one, Nat.succ_mul]
  · rw [hstyle]

/-- Where there is a full page, one page less is full after it. -/
theorem fullPages_add_stride (h : source.At cursor position)
    (hfull : source.limit ≤ records.length - source.offset position) :
    source.fullPages records (position + source.stride) + 1 =
      source.fullPages records position := by
  unfold PositionedSource.fullPages
  rw [offset_add_stride h, ← Nat.sub_sub, Nat.div_eq_sub_div source.limit_pos hfull]

/-- The last position stays on the way to it. -/
theorem lastPosition_add_stride (h : source.At cursor position)
    (hfull : source.limit ≤ records.length - source.offset position) :
    source.lastPosition records (position + source.stride) =
      source.lastPosition records position := by
  unfold PositionedSource.lastPosition
  rw [← fullPages_add_stride h hfull]
  ring

/-- The length of a page. -/
theorem length_pageAt : (source.pageAt records position).length =
    min source.limit (records.length - source.offset position) := by
  rw [PositionedSource.pageAt, length_take, length_drop]

/-- The cursor of the next call, where the page was a full one. -/
theorem at_nextPosition (h : source.At cursor position) (decoded : Json) (page : List Json)
    (hfull : (page.length : ℤ) = source.limit) {cursor' : JsonMap}
    (hcursor' : ∀ key, key ≠ "watermark" → key ≠ "backfillDone" → cursor'.get key =
      (nextPosition conversions source.manifest (source.params cursor) decoded page).2.get key) :
    source.At cursor' (position + source.stride) := by
  have hlimit : pageLimit conversions source.manifest (source.params cursor) = source.limit :=
    source.limited
  have hstyled := source.styled
  have hpos := source.limit_pos
  unfold PositionedSource.At at h ⊢
  unfold PositionedSource.stride
  rcases page_or_offset source with hstyle | hstyle
  · rw [hstyle] at h hstyled ⊢
    have hpage : cursorPage conversions (source.params cursor).cursor = (position : ℚ) := h
    have hkey := hcursor' "page" (by decide) (by decide)
    rw [nextPosition_page _ _ _ hstyled, hlimit, if_pos hfull.ge, JsonMap.get_set,
      if_pos rfl, hpage, truncate_natCast] at hkey
    rw [cursorPage, hkey, firstNumber_pair, if_pos]
    · push_cast
      ring
    · positivity
  · rw [hstyle] at h hstyled ⊢
    have hoffset : cursorOffset conversions (source.params cursor).cursor = (position : ℚ) := h
    have hkey := hcursor' "offset" (by decide) (by decide)
    rw [nextPosition_offset _ _ _ hstyled, hlimit, if_pos hfull.ge, JsonMap.get_set, if_pos rfl,
      hoffset, truncate_natCast] at hkey
    have hlength : page.length = source.limit := by exact_mod_cast hfull
    rw [cursorOffset, hkey, firstNumber_pair, if_pos, hlength]
    · push_cast
      ring
    · rw [hlength]
      positivity

/-- There is more iff the page is a full one. -/
theorem fst_nextPosition (decoded : Json) :
    (nextPosition conversions source.manifest (source.params cursor) decoded
      (source.pageAt records position)).1 =
        decide (source.limit ≤ records.length - source.offset position) := by
  have hlimit : pageLimit conversions source.manifest (source.params cursor) = source.limit :=
    source.limited
  have hstyled := source.styled
  have hle : (source.limit : ℤ) ≤ (source.pageAt records position).length ↔
      source.limit ≤ records.length - source.offset position := by
    rw [Int.ofNat_le, length_pageAt]
    omega
  rcases page_or_offset source with hstyle | hstyle
  · rw [hstyle] at hstyled
    rw [nextPosition_page _ _ _ hstyled, hlimit]
    split_ifs with hfull
    · exact (decide_eq_true (hle.mp hfull)).symm
    · exact (decide_eq_false fun h => hfull (hle.mpr h)).symm
  · rw [hstyle] at hstyled
    rw [nextPosition_offset _ _ _ hstyled, hlimit]
    split_ifs with hfull
    · exact (decide_eq_true (hle.mp hfull)).symm
    · exact (decide_eq_false fun h => hfull (hle.mpr h)).symm

/-- What is made of a body. -/
theorem manifestResult_eq (source : PositionedSource conversions) (cursor : JsonMap)
    (decoded : Json) :
    manifestResult conversions source.manifest (source.params cursor) decoded =
      { records := bodyRecords source.manifest decoded
        nextCursor := (nextWatermark conversions source.manifest (nextPosition conversions
          source.manifest (source.params cursor) decoded (bodyRecords source.manifest decoded)).2
          (bodyRecords source.manifest decoded)).set "backfillDone" (.bool !(nextPosition conversions
            source.manifest (source.params cursor) decoded (bodyRecords source.manifest decoded)).1)
        hasMore := (nextPosition conversions source.manifest (source.params cursor) decoded
          (bodyRecords source.manifest decoded)).1 } := rfl

/-- **What a call does at a server that reads its position**: it returns the page, it goes on iff
the page is full, and the next cursor has the next position. -/
theorem exists_fetchPage (h : source.At cursor position) (hsend : source.Honours records send)
    (hsent : source.sent cursor = some position.repr) :
    ∃ cursor', source.fetchPage send cursor (source.pageAt records position)
        (decide (source.limit ≤ records.length - source.offset position)) cursor' ∧
      (source.limit ≤ records.length - source.offset position →
        source.At cursor' (position + source.stride)) := by
  have hanswer := hsend (manifestRequest conversions source.manifest (source.params cursor)
    { source.client with send } source.endpoint) position rfl hsent fun hname => lookup_limit hname
  have hparsed : source.client.parse (interpolate conversions.toFormatting (firstString conversions.toFormatting
      [(source.params cursor).config.get "url", .string source.manifest.url])
      (source.params cursor).config) = .ok source.endpoint := source.parsed
  have hfetch : fetchManifest conversions source.manifest (source.params cursor)
      { source.client with send } = .ok (manifestResult conversions source.manifest
        (source.params cursor) (source.body (source.pageAt records position))) := by
    rw [fetchManifest]
    rw [hparsed]
    dsimp only
    rw [source.validated]
    dsimp only
    rw [hanswer]
    rfl
  have hresult := manifestResult_eq source cursor (source.body (source.pageAt records position))
  rw [source.recordsAt, fst_nextPosition] at hresult
  refine ⟨_, hfetch.trans (congrArg Except.ok hresult), fun hfull => ?_⟩
  refine at_nextPosition h (source.body (source.pageAt records position))
    (source.pageAt records position) ?_ ?_
  · rw [length_pageAt, min_eq_left hfull]
  · intro key hwatermark hdone
    rw [JsonMap.get_set, if_neg hdone, get_nextWatermark _ _ hwatermark]

end call

/-! ## The iteration -/

section iteration

variable {conversions : Conversions} {source : PositionedSource conversions} {cursor : JsonMap}
  {position : ℕ} {records : List Json} {send : HttpRequest → Except String HttpResponse}

/-- A call is one step. -/
theorem eq_of_fetchPage (h : source.At cursor position) (hsend : source.Honours records send)
    (hsent : source.sent cursor = some position.repr) {page : List Json} {more : Bool}
    {cursor' : JsonMap} (hstep : source.fetchPage send cursor page more cursor') :
    page = source.pageAt records position ∧
      more = decide (source.limit ≤ records.length - source.offset position) ∧
      (more = true → source.At cursor' (position + source.stride)) := by
  obtain ⟨next, hnext, hat⟩ := exists_fetchPage h hsend hsent
  have heq := Except.ok.inj (hstep.symm.trans hnext)
  rw [JsonSourceResult.mk.injEq] at heq
  obtain ⟨rfl, rfl, rfl⟩ := heq
  exact ⟨rfl, rfl, fun hmore => hat (of_decide_eq_true hmore)⟩

/-- A page, and what is behind it. -/
theorem pageAt_append (h : source.At cursor position) : source.pageAt records position ++
    records.drop (source.offset (position + source.stride)) =
      records.drop (source.offset position) := by
  rw [PositionedSource.pageAt, offset_add_stride h, ← drop_drop, take_append_drop]

/-- **Where its positions are sent in digits, an iteration returns every record once.** -/
theorem lossless_of_sent (hsend : source.Honours records send) (h : source.At cursor position)
    (hsent : ∀ k ≤ source.fullPages records position, ∀ cursor',
      source.At cursor' (position + k * source.stride) →
        source.sent cursor' = some (position + k * source.stride).repr) :
    Lossless (source.fetchPage send) cursor (records.drop (source.offset position)) := by
  refine lossless_of_invariant (fun cursor rows => ∃ position, source.At cursor position ∧
      rows = records.drop (source.offset position) ∧
      ∀ k ≤ source.fullPages records position, ∀ cursor',
        source.At cursor' (position + k * source.stride) →
          source.sent cursor' = some (position + k * source.stride).repr)
    ?_ ?_ ?_ ⟨position, h, rfl, hsent⟩
  · rintro cursor rows ⟨position, h, rfl, hsent⟩
    have hnow := hsent 0 (Nat.zero_le _) cursor (by rwa [zero_mul])
    rw [zero_mul, add_zero] at hnow
    obtain ⟨cursor', hstep, -⟩ := exists_fetchPage h hsend hnow
    exact ⟨_, _, cursor', hstep⟩
  · rintro cursor rows page cursor' ⟨position, h, rfl, hsent⟩ hstep
    have hnow := hsent 0 (Nat.zero_le _) cursor (by rwa [zero_mul])
    rw [zero_mul, add_zero] at hnow
    obtain ⟨rfl, hmore, -⟩ := eq_of_fetchPage h hsend hnow hstep
    have hshort := of_decide_eq_false hmore.symm
    rw [PositionedSource.pageAt, take_of_length_le]
    rw [length_drop]
    omega
  · rintro cursor rows page cursor' ⟨position, h, rfl, hsent⟩ hstep
    have hnow := hsent 0 (Nat.zero_le _) cursor (by rwa [zero_mul])
    rw [zero_mul, add_zero] at hnow
    obtain ⟨rfl, hmore, hat⟩ := eq_of_fetchPage h hsend hnow hstep
    have hfull := of_decide_eq_true hmore.symm
    have hpos := source.limit_pos
    refine ⟨records.drop (source.offset (position + source.stride)), ?_, ?_, position + source.stride,
      hat rfl, rfl, ?_⟩
    · rw [pageAt_append h]
    · rw [length_drop, length_drop, offset_add_stride h]
      omega
    · intro k hk cursor' hat'
      have hassoc : position + source.stride + k * source.stride =
          position + (k + 1) * source.stride := by ring
      rw [hassoc] at hat' ⊢
      refine hsent (k + 1) ?_ cursor' hat'
      rw [← fullPages_add_stride h hfull]
      exact Nat.succ_le_succ hk

/-- The number that a text has as its digits, if there is one. -/
def digitsOf (text : Option String) : Option ℕ :=
  ((text.bind parseDecimal).map Int.toNat).filter fun n => text = some n.repr

theorem digitsOf_eq_some {text : Option String} {n : ℕ} :
    digitsOf text = some n ↔ text = some n.repr := by
  unfold digitsOf
  rw [filter_eq_some_iff, decide_eq_true_iff]
  refine ⟨And.right, ?_⟩
  rintro rfl
  refine ⟨?_, rfl⟩
  rw [bind_some, parseDecimal_repr]
  rfl

/-- A server that refuses positions that are no digits. -/
def strictServer (source : PositionedSource conversions) (records : List Json)
    (request : HttpRequest) : Except String HttpResponse :=
  match digitsOf (request.query.lookup (positionParam conversions source.manifest)) with
  | some position => .ok
      { statusCode := 200, body := .ok (source.body (source.pageAt records position)) }
  | none => .ok { statusCode := 400, body := .error "" }

/-- It honours positions. -/
theorem honours_strictServer : source.Honours records (strictServer source records) := by
  intro request position _ hposition _
  rw [strictServer, digitsOf_eq_some.mpr hposition]

/-- It answers a call only if its position is in digits. -/
theorem sent_of_strictServer (hanswered :
      ∃ page more cursor', source.fetchPage (strictServer source records) cursor page more
      cursor') : ∃ n : ℕ, source.sent cursor = some n.repr := by
  obtain ⟨page, more, cursor', hstep⟩ := hanswered
  cases hdigits : digitsOf (source.sent cursor) with
  | some n => exact ⟨n, digitsOf_eq_some.mp hdigits⟩
  | none =>
    have hparsed : source.client.parse (interpolate conversions.toFormatting
        (firstString conversions.toFormatting
          [(source.params cursor).config.get "url", .string source.manifest.url])
        (source.params cursor).config) = .ok source.endpoint := source.parsed
    have hanswer : strictServer source records (manifestRequest conversions source.manifest
        (source.params cursor) { source.client with send := strictServer source records }
        source.endpoint) = .ok { statusCode := 400, body := .error "" } := by
      have hquery : digitsOf ((manifestRequest conversions source.manifest (source.params cursor)
          { source.client with send := strictServer source records }
          source.endpoint).query.lookup (positionParam conversions source.manifest)) = none := hdigits
      rw [strictServer, hquery]
    unfold PositionedSource.fetchPage fetchManifest at hstep
    dsimp only at hstep
    rw [hparsed] at hstep
    dsimp only at hstep
    rw [source.validated] at hstep
    dsimp only at hstep
    rw [hanswer] at hstep
    simp at hstep

end iteration

/-! ## When it is exact -/

section exact

variable {conversions : Conversions} {source : PositionedSource (withIntegers conversions)}
  {cursor : JsonMap} {position : ℕ} {records : List Json}

/-- **Where the strict server is read to the end, the last position is below a million.** -/
theorem lastPosition_lt_of_ends (h : Ends (source.fetchPage (strictServer source records)) cursor)
    (hat : source.At cursor position) : source.lastPosition records position < 10 ^ 6 := by
  induction h generalizing position with
  | @intro cursor answered _ ih =>
    obtain ⟨n, hn⟩ := sent_of_strictServer answered
    rw [sent_of_at hat, some.injEq, stringValue_natCast] at hn
    have hlt : position < 10 ^ 6 := lt_of_shortest_eq hn
    have hsent := (sent_iff hat).mpr hlt
    obtain ⟨cursor', hstep, hnext⟩ := exists_fetchPage hat honours_strictServer hsent
    by_cases hfull : source.limit ≤ records.length - source.offset position
    · rw [decide_eq_true hfull] at hstep
      rw [← lastPosition_add_stride hat hfull]
      exact ih _ cursor' hstep (hnext hfull)
    · rw [PositionedSource.lastPosition, PositionedSource.fullPages,
        Nat.div_eq_of_lt (not_le.mp hfull), zero_mul]
      exact hlt

/-- **A source is read exactly iff the last position of the iteration is below a million**: from there on
the text of a `float64` has an exponent.

Source: `http.go` `fetchManifest`, `transforms.go` `stringValue` -/
theorem readsExactly_iff (source : PositionedSource (withIntegers conversions))
    (records : List Json) (cursor : JsonMap) (position : ℕ) (hat : source.At cursor position) :
    source.ReadsExactly records cursor position ↔
      source.lastPosition records position < 10 ^ 6 := by
  constructor
  · intro h
    exact lastPosition_lt_of_ends (h.complete _ honours_strictServer).ends hat
  · intro hlast
    have hsent : ∀ k ≤ source.fullPages records position, ∀ cursor',
        source.At cursor' (position + k * source.stride) →
          source.sent cursor' = some (position + k * source.stride).repr := by
      intro k hk cursor' hat'
      refine (sent_iff hat').mpr (lt_of_le_of_lt ?_ hlast)
      exact Nat.add_le_add_left (Nat.mul_le_mul_right _ hk) _
    exact ⟨hsent, fun send hsend => lossless_of_sent hsend hat hsent⟩

end exact

/-! ## A source that is paged by offsets -/

/-- Two items on a page. -/
def itemsManifest : ConnectorManifest where
  url := "https://api.test/items"
  recordsPath := "items"
  pagination := [("style", .string "offset"), ("limit", .number 2), ("limitParam", .string "limit")]

/-- The items of a server. -/
def itemsSource : PositionedSource (withIntegers feedConversions) where
  style := .offset
  counted := nofun
  client :=
    { parse := fun _ => .ok { text := "https://api.test/items", query := [] }
      validateURL := fun _ => .ok ()
      basicAuth := fun _ _ => ""
      send := fun _ => .error "unreachable"
      anHourAgo := "" }
  manifest := itemsManifest
  config := []
  ingestion := none
  endpoint := { text := "https://api.test/items", query := [] }
  limit := 2
  limit_pos := Nat.two_pos
  body page := .object [("items", .array page)]
  parsed := rfl
  validated := rfl
  styled := rfl
  limited := by decide +kernel
  ownSince := by decide +kernel
  ownLimit := by decide +kernel
  recordsAt page := by
    have hitems : dig (.object [("items", .array page)]) itemsManifest.recordsPath = .array page :=
      (dig_key items_path _).trans rfl
    have hbranch : itemsManifest.recordsPath ≠ "" := by decide +kernel
    rw [bodyRecords, if_pos hbranch, hitems]

/-- The theorem at three items. -/
theorem readsExactly_iff_threeItems :
    itemsSource.ReadsExactly [.string "a", .string "b", .string "c"] [] 0 :=
  (readsExactly_iff itemsSource _ [] 0 (show cursorOffset _ [] = _ by decide +kernel)).mpr
    (by decide +kernel)

/-- **A position with an exponent**: the offset of the millionth item. -/
theorem position_with_exponent : itemsSource.At [("offset", .number 1000000)] 1000000 ∧
      itemsSource.sent [("offset", .number 1000000)] = some "1e+06" ∧
      ¬ itemsSource.ReadsExactly [] [("offset", .number 1000000)] 1000000 := by
  have hat : itemsSource.At [("offset", .number 1000000)] 1000000 :=
    show cursorOffset _ _ = _ by decide +kernel
  have htext : itemsSource.sent [("offset", .number 1000000)] = some "1e+06" := by decide +kernel
  refine ⟨hat, htext, fun h => ?_⟩
  have hsent := h.sent 0 (Nat.zero_le _) _ hat
  rw [htext] at hsent
  revert hsent
  decide +kernel

end Dataflow.Connectors.HttpPositions
