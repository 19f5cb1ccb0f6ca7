import Dataflow.Api.Timestamps
import Dataflow.Library.Listing
import Mathlib.Data.Prod.Lex

/-!
# The listings of the API

A listing answers with a page of rows, newest first, and a cursor for the next page: the timestamp
and the id of the last row of this page, as texts. The request for the next page brings the cursor
back.

* `atoi`, `pageLimit`: the limit a request asks for, and the one it gets.
* `CursorTexts`: the texts of ids and cursors, which are given.
* `cursorKey`, `selectRows`, `pageReply`: a cursor that is read, a query with a limit, and a reply.
* `pages`: a handler as a reader of pages.
* `lists_pages`: **main result**: a handler that asks for a row more than its limit, and answers
  with a cursor where there is one, lists all rows that match.

Source: `routes_pipelines.go`, `routes_executions.go`, `routes_lineage_runtime.go`
-/

set_option linter.unusedSectionVars false

namespace Dataflow.Api

open Library.Paging List Option

/-! ## The limit -/

/-- A number in decimal digits. -/
def parseDigits (chars : List Char) : Option ℕ :=
  if chars ≠ [] ∧ chars.all Char.isDigit then some (valueOf (chars.map charDigit)) else none

/-- `strconv.Atoi` of a text, without its error: zero when the text is no number, and the nearest
integer of 64 bits when it is out of range. -/
def atoi (text : String) : ℤ :=
  match text.toList with
  | '-' :: chars => match parseDigits chars with
      | some n => max (-n) (-9223372036854775808)
      | none => 0
  | '+' :: chars => match parseDigits chars with
      | some n => min n 9223372036854775807
      | none => 0
  | chars => match parseDigits chars with
      | some n => min n 9223372036854775807
      | none => 0

/-- The limit that a request gets: the fallback when it asks for less than one row, and never more
than the maximum. -/
def pageLimit (text : String) (fallback maximum : ℤ) : ℕ :=
  let limit := if atoi text < 1 then fallback else atoi text
  (if maximum < limit then maximum else limit).toNat

/-- A page has a row at least. -/
theorem pageLimit_pos (text : String) {fallback maximum : ℤ} (hfallback : 0 < fallback)
    (hmaximum : 0 < maximum) : 0 < pageLimit text fallback maximum := by
  unfold pageLimit
  dsimp only
  split_ifs <;> omega

/-! ## Cursors -/

variable {Id Row : Type} [LinearOrder Id]

/-- The texts of ids, and of cursors: `json.Marshal` of a map with a timestamp, under a name, and an
id, in the encoding `base64.RawURLEncoding`, and the way back. -/
structure CursorTexts (Id : Type) where
  dates : DateTimes
  idText : Id → String
  parseId : String → Option Id
  marshal : (timeField time id : String) → String
  unmarshal : (timeField cursor : String) → Option (String × String)
  parse_idText : ∀ id, parseId (idText id) = some id
  idText_ne : ∀ id, idText id ≠ ""
  unmarshal_marshal : ∀ timeField time id,
    unmarshal timeField (marshal timeField time id) = some (time, id)
  marshal_ne : ∀ timeField time id, marshal timeField time id ≠ ""

/-- Why a listing is refused; `database` is an error of the query. -/
inductive ListError where
  | badRequest (message : String)
  | notFound (message : String)
  | database
  deriving DecidableEq

/-- The order of a listing: by a timestamp, and by the id where timestamps tie. -/
abbrev ListKey (Id : Type) := ℤ ×ₗ Id

section code

variable (texts : CursorTexts Id) (timeField noun : String) (key : Row → ListKey Id)

/-- The cursor of a request as the query reads it; without a cursor there is nothing to read. -/
def cursorKey (cursor : String) : Except ListError (Option (ListKey Id)) :=
  if cursor = "" then .ok none
  else match texts.unmarshal timeField cursor with
    | none => .error (.badRequest ("invalid " ++ noun ++ " cursor"))
    | some (time, id) =>
      if time = "" ∨ id = "" then .error (.badRequest ("invalid " ++ noun ++ " cursor"))
      else match castTimestamptz texts.dates time, texts.parseId id with
        | some time, some id => .ok (some (toLex (time, id)))
        | _, _ => .error .database

/-- A query: the rows that match, and come after the cursor, in their order, up to a limit. -/
def selectRows (rows : List Row) (isMatch : Row → Bool) (c : Option (ListKey Id)) (limit : ℕ) :
    List Row :=
  (orderBy key ((rows.filter isMatch).filter (after key c))).take limit

/-- The rows of a page, and the cursor for the next one. -/
structure ListReply (Row : Type) where
  rows : List Row
  nextCursor : Option String

/-- The cursor that a row leaves. -/
def rowCursor (row : Row) : String :=
  texts.marshal timeField (formatRfc3339Nano texts.dates (ofLex (key row)).1)
    (texts.idText (ofLex (key row)).2)

/-- The reply of a listing with a limit to the rows of its query. -/
def pageReply (limit : ℕ) (rows : List Row) : ListReply Row :=
  if limit < rows.length then
    { rows := rows.take limit
      nextCursor := ((rows.take limit).getLast?).map (rowCursor texts timeField key) }
  else { rows := rows, nextCursor := none }

end code

/-- A handler as a reader of pages: the cursor of a reply goes into the next request. -/
def pages (handler : (cursor : String) → Except ListError (ListReply Row)) :
    PageStep (Option String) Row :=
  fun c page more c' => ∃ reply, handler (c.getD "") = .ok reply ∧ page = reply.rows ∧
    more = reply.nextCursor.isSome ∧ c' = reply.nextCursor

/-! ## What a listing lists -/

variable {texts : CursorTexts Id} {timeField noun : String} {key : Row → ListKey Id}

/-- The text of a timestamp is not empty. -/
theorem formatRfc3339Nano_ne (dates : DateTimes) (time : ℤ) :
    formatRfc3339Nano dates time ≠ "" := by
  intro hempty
  have hchars := congrArg String.toList hempty
  rw [formatRfc3339Nano, String.toList_ofList] at hchars
  simp at hchars

/-- **A cursor is read back** as the timestamp and the id of its row. -/
theorem cursorKey_rowCursor (row : Row) :
    cursorKey texts timeField noun (rowCursor texts timeField key row) = .ok (some (key row)) := by
  rw [cursorKey, rowCursor, if_neg (texts.marshal_ne _ _ _), texts.unmarshal_marshal]
  dsimp only
  rw [if_neg (not_or.mpr ⟨formatRfc3339Nano_ne _ _, texts.idText_ne _⟩), cast_format,
    texts.parse_idText]
  rfl

variable (texts timeField key) in
/-- The reply to a query with a limit one more than that of the page. -/
theorem pageReply_take (limit : ℕ) (full : List Row) :
    (pageReply texts timeField key limit (full.take (limit + 1))).rows = full.take limit ∧
      (limit < full.length →
        (pageReply texts timeField key limit (full.take (limit + 1))).nextCursor =
          ((full.take limit).getLast?).map (rowCursor texts timeField key)) ∧
      (full.length ≤ limit →
        (pageReply texts timeField key limit (full.take (limit + 1))).nextCursor = none) := by
  have htake : (full.take (limit + 1)).take limit = full.take limit := by
    rw [take_take, Nat.min_eq_left (Nat.le_succ limit)]
  rcases lt_or_ge limit full.length with hlong | hshort
  · have hmore : limit < (full.take (limit + 1)).length := by
      rw [length_take]
      omega
    rw [pageReply, if_pos hmore, htake]
    exact ⟨rfl, fun _ => rfl, fun h => absurd h (not_le.mpr hlong)⟩
  · have hall : full.take (limit + 1) = full := take_of_length_le (by omega)
    rw [hall, pageReply, if_neg (not_lt.mpr hshort), take_of_length_le hshort]
    exact ⟨rfl, fun h => absurd h (not_lt.mpr hshort), fun _ => rfl⟩

/-- **One page of a listing** is a page of the rows that match, and its cursor selects the rows
after it. -/
theorem listing_of_pageReply {rows : List Row} {isMatch : Row → Bool} {limit : ℕ}
    (hlimit : 0 < limit) {c : Option (ListKey Id)} {reply : ListReply Row}
    (hreply : reply = pageReply texts timeField key limit
      (selectRows key rows isMatch c (limit + 1))) :
    ∃ c', listing key (rows.filter isMatch) limit c reply.rows reply.nextCursor.isSome c' ∧
      (reply.nextCursor.isSome = true →
        cursorKey texts timeField noun (reply.nextCursor.getD "") = .ok c') := by
  obtain ⟨hrows, hmore, hlast⟩ := pageReply_take texts timeField key limit
    (orderBy key ((rows.filter isMatch).filter (after key c)))
  rw [← selectRows, ← hreply] at hrows hmore hlast
  rcases lt_or_ge limit (orderBy key ((rows.filter isMatch).filter (after key c))).length
    with hlong | hshort
  · cases hrow : ((orderBy key ((rows.filter isMatch).filter (after key c))).take limit).getLast?
      with
    | none =>
      have hnil := congrArg List.length (getLast?_eq_none_iff.mp hrow)
      rw [length_take_of_le hlong.le, length_nil] at hnil
      omega
    | some row =>
      have hcursor := hmore hlong
      rw [hrow, map_some] at hcursor
      refine ⟨some (key row), ⟨hrows, ?_, ?_⟩, ?_⟩
      · rw [hcursor, isSome_some, decide_eq_true hlong]
      · rw [hrow, map_some]
      · intro _
        rw [hcursor, getD_some]
        exact cursorKey_rowCursor row
  · have hnone := hlast hshort
    refine ⟨_, ⟨hrows, ?_, rfl⟩, ?_⟩
    · rw [hnone, isSome_none, decide_eq_false (not_lt.mpr hshort)]
    · intro hsome
      simp [hnone] at hsome

/-- **A handler lists all rows that match**, when it asks for one row more than the page has and
answers with the cursor that its last row leaves. -/
theorem lists_pages {handler : String → Except ListError (ListReply Row)} {rows : List Row}
    {isMatch : Row → Bool} {limit : ℕ} (hlimit : 0 < limit) (hkeys : (rows.map key).Nodup)
    (hhandler : ∀ cursor, handler cursor = (cursorKey texts timeField noun cursor).map fun c =>
      pageReply texts timeField key limit (selectRows key rows isMatch c (limit + 1))) :
    Lists key (pages handler) none (rows.filter isMatch) := by
  have hmatching : ((rows.filter isMatch).map key).Nodup :=
    hkeys.sublist (filter_sublist.map key)
  refine Lists.of_simulation (R := fun c k =>
    cursorKey texts timeField noun (c.getD "") = .ok k) ?_ ?_ rfl (lists_listing hlimit hmatching)
  · intro c k hk
    have hreply := hhandler (c.getD "")
    rw [hk] at hreply
    exact ⟨_, _, _, _, hreply, rfl, rfl, rfl⟩
  · rintro c k page more c' hk ⟨reply, hreply, rfl, rfl, rfl⟩
    rw [hhandler, hk] at hreply
    exact listing_of_pageReply hlimit (Except.ok.inj hreply).symm

/-! ## Texts of two rows -/

/-- Texts of dates: that of the first second of 1970, and a mark for each second at any other. -/
def plainDates : DateTimes where
  text seconds :=
    if seconds = 0 then "1970-01-01T00:00:00"
    else .ofList ((if 0 < seconds then '+' else '-') :: replicate seconds.natAbs '0')
  parse text :=
    if text = "1970-01-01T00:00:00" then some 0
    else match text.toList with
      | '+' :: marks => some marks.length
      | '-' :: marks => some (-marks.length)
      | _ => none
  other _ := none
  parse_text seconds := by
    by_cases hzero : seconds = 0
    · rw [if_pos hzero, if_pos rfl, hzero]
    · rw [if_neg hzero]
      have hne : String.ofList ((if 0 < seconds then '+' else '-') ::
          replicate seconds.natAbs '0') ≠ "1970-01-01T00:00:00" := by
        intro heq
        have hchars := congrArg String.toList heq
        rw [String.toList_ofList] at hchars
        have hfirst := (cons.inj hchars).1
        split_ifs at hfirst <;> exact absurd hfirst (by decide)
      rw [if_neg hne, String.toList_ofList]
      split_ifs with hpos
      · show some ((replicate seconds.natAbs '0').length : ℤ) = some seconds
        rw [length_replicate, some.injEq]
        omega
      · show some (-((replicate seconds.natAbs '0').length : ℤ)) = some seconds
        rw [length_replicate, some.injEq]
        omega
  plain seconds c hc := by
    by_cases hzero : seconds = 0
    · rw [if_pos hzero] at hc
      have hall : ("1970-01-01T00:00:00".toList.all fun c => c ≠ '.' ∧ c ≠ 'Z') = true := by
        decide +kernel
      exact of_decide_eq_true (List.all_eq_true.mp hall c hc)
    · rw [if_neg hzero, String.toList_ofList] at hc
      rcases mem_cons.mp hc with rfl | hc
      · split_ifs <;> decide
      · rw [eq_of_mem_replicate hc]
        decide

/-- The cursor that the row "b" leaves half a second after the beginning of 1970. -/
def exampleCursor : String := "eyJpZCI6ImIiLCJzdGFydGVkQXQiOiIxOTcwLTAxLTAxVDAwOjAwOjAwLjVaIn0"

/-- Texts of two ids, and of cursors: one in its encoding, and any other with the length of its
timestamp in front. -/
def plainTexts : CursorTexts Bool where
  dates := plainDates
  idText id := if id then "b" else "a"
  parseId text := if text = "a" then some false else if text = "b" then some true else none
  marshal timeField time id :=
    if timeField = "startedAt" ∧ time = "1970-01-01T00:00:00.5Z" ∧ id = "b" then exampleCursor
    else .ofList (replicate time.toList.length '1' ++ '0' :: (time.toList ++ id.toList))
  unmarshal timeField cursor :=
    if timeField = "startedAt" ∧ cursor = exampleCursor then some ("1970-01-01T00:00:00.5Z", "b")
    else
      let width := (cursor.toList.takeWhile (· = '1')).length
      let rest := cursor.toList.drop (width + 1)
      some (.ofList (rest.take width), .ofList (rest.drop width))
  parse_idText id := by cases id <;> decide
  idText_ne id := by cases id <;> decide
  unmarshal_marshal timeField time id := by
    by_cases hexample : timeField = "startedAt" ∧ time = "1970-01-01T00:00:00.5Z" ∧ id = "b"
    · obtain ⟨rfl, rfl, rfl⟩ := hexample
      rfl
    · rw [if_neg hexample]
      have hwidth : (replicate time.toList.length '1' ++
          '0' :: (time.toList ++ id.toList)).takeWhile (· = '1') =
            replicate time.toList.length '1' := by
        rw [takeWhile_append_of_pos]
        · rw [takeWhile_cons_of_neg (by decide), append_nil]
        · intro c hc
          rw [eq_of_mem_replicate hc]
          rfl
      have hne : String.ofList (replicate time.toList.length '1' ++
          '0' :: (time.toList ++ id.toList)) ≠ exampleCursor := by
        intro heq
        have hchars := congrArg String.toList heq
        rw [String.toList_ofList] at hchars
        cases hlen : time.toList.length with
        | zero =>
          rw [hlen] at hchars
          exact absurd (cons.inj hchars).1 (by decide)
        | succ n =>
          rw [hlen, replicate_succ] at hchars
          exact absurd (cons.inj hchars).1 (by decide)
      have hdrop : (replicate time.toList.length '1' ++
          '0' :: (time.toList ++ id.toList)).drop (time.toList.length + 1) =
            time.toList ++ id.toList := by
        rw [← drop_drop, drop_left' (length_replicate ..)]
        rfl
      rw [if_neg (fun h => hne h.2), String.toList_ofList, hwidth]
      dsimp only
      rw [length_replicate, hdrop, take_left, drop_left, String.ofList_toList, String.ofList_toList]
  marshal_ne timeField time id := by
    split_ifs
    · decide
    · intro hempty
      have hchars := congrArg String.toList hempty
      rw [String.toList_ofList] at hchars
      simp at hchars

end Dataflow.Api
