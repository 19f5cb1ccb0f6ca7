import Dataflow.Connectors.GoogleDrive
import Dataflow.Library.Decimal

/-!
# From the listing of a drive to its changes

While a backfill lists the files of a drive, the files change. A page shows its part of the drive as
it is when it is served, and the changes feed shows every change since a token was issued.

* `DriveServer`: a drive with its changes, its listing and its feed.
* `DriveServer.Answers`, `Fetches`: one call, in a world in which changes are made at any time.
* `Iterates`, `Follows`: calls until there is no more; the iterations that follow.
* `Handover`: a backfill, and the changes that are read after it.
* `HandsOver`: every change after the first page is reflected in a later page, or returned.
* `NoGap`: every change before the token was issued is ahead of the listing.
* **`handsOver_iff`**: a handover is without loss iff there is no such gap.
* `change_behind_listing_lost`: a file that is changed after its page and before the last one.

Source: `saas.go` `googleDriveFetch`
-/

namespace Dataflow.Connectors.DriveHandover

open Activities Library Library.Coroutine Model List

/-! ## Drives -/

/-- A change of a file: what the file is after it, or nothing if it was removed. -/
structure DriveChange where
  fileId : String
  file : Option JsonMap

/-- The change as the feed shows it. -/
def DriveChange.entry (change : DriveChange) : JsonMap :=
  match change.file with
  | none => [("fileId", .string change.fileId), ("removed", .bool true)]
  | some file =>
    [("fileId", .string change.fileId), ("removed", .bool false), ("file", .object file)]

/-- The record of a change. -/
def DriveChange.record (change : DriveChange) : Json :=
  match change.file with
  | none => .object [("_op", .string "delete"), ("fileId", .string change.fileId)]
  | some file => .object (file.set "_op" (.string "upsert"))

/-- **Every change has a record.** -/
theorem changeRecord_entry (change : DriveChange) :
    changeRecord change.entry = some change.record := by
  obtain ⟨fileId, file⟩ := change
  cases file with
  | none | some file => rfl

/-- A page of a listing: the part of the drive that it is about, and the next token. -/
structure ListPage where
  covers : String → Bool
  nextPageToken : String

/-- A drive: its files at first and the changes that are made, in their order; the page that a
listing shows after some changes, and the files that a query selects; the tokens of the feed with
the number of changes that they stand for, and how many changes it shows on a page. -/
structure DriveServer where
  initial : List (String × JsonMap)
  changes : ℕ → DriveChange
  listing : ℕ → List (String × String) → ListPage
  selects : List (String × String) → JsonMap → Bool
  token : ℕ → String
  position : String → ℕ
  token_ne : ∀ n, token n ≠ ""
  position_token : ∀ n, position (token n) = n
  feedSize : ℕ → ℕ → ℕ
  feedSize_pos : ∀ now start, 0 < feedSize now start

namespace DriveServer

variable (server : DriveServer)

/-- The files after some changes. -/
def filesAt : ℕ → List (String × JsonMap)
  | 0 => server.initial
  | n + 1 => (filesAt n).filter (fun entry => entry.1 ≠ (server.changes n).fileId) ++
      ((server.changes n).file.map fun file => ((server.changes n).fileId, file)).toList

/-- What a page of the listing shows: the files of its part as they are. -/
def listed (now : ℕ) (params : List (String × String)) : List Json :=
  ((server.filesAt now).filter fun entry =>
    (server.listing now params).covers entry.1 && server.selects params entry.2).map
      fun entry => .object entry.2

/-- Where a page of the feed starts. -/
def feedStart (params : List (String × String)) : ℕ :=
  server.position ((params.lookup "pageToken").getD "")

/-- How many changes a page of the feed shows. -/
def feedLength (now : ℕ) (params : List (String × String)) : ℕ :=
  min (server.feedSize now (server.feedStart params)) (now - server.feedStart params)

/-- The changes on a page of the feed. -/
def shown (now : ℕ) (params : List (String × String)) : List ℕ :=
  List.range' (server.feedStart params) (server.feedLength now params)

/-- **The answers of the provider** after some changes. -/
def serve (now : ℕ) : (request : DriveRequest) → request.Body
  | .files params =>
    ({ nextPageToken := (server.listing now params).nextPageToken
       files := server.listed now params } : FilesResponse)
  | .startPageToken => (server.token now : String)
  | .changes params =>
    let last := server.feedStart params + server.feedLength now params
    ({ newStartPageToken := if now ≤ last then server.token now else ""
       nextPageToken := if now ≤ last then "" else server.token last
       changes := (server.shown now params).map fun k => (server.changes k).entry } : ChangesResponse)

end DriveServer

/-! ## Calls -/

/-- How many changes have been made, and what has been served with how many. -/
structure DriveWorld where
  now : ℕ
  served : List (ℕ × DriveRequest)

/-- **A call is answered**, after some more changes: with an answer of the provider, or with any
failure. -/
def DriveServer.Answers (server : DriveServer) (world : DriveWorld) (call : DriveCall)
    (reply : DriveReply call) (world' : DriveWorld) : Prop :=
  world.now ≤ world'.now ∧
    match call, reply with
    | .send _ request, reply =>
      match decodeReply (reply : Except String (DriveResponse request.Body)) with
      | .ok body => body = server.serve world'.now request ∧
          world'.served = world.served ++ [(world'.now, request)]
      | .error _ => world'.served = world.served
    | _, _ => world'.served = world.served

section calls

variable (server : DriveServer) (formatting : Formatting)

/-- A call that does not fail: it starts after `n` changes and ends after `n'`. -/
def Fetches (p : JsonSourceParams) (n : ℕ) (result : JsonSourceResult)
    (served : List (ℕ × DriveRequest)) (n' : ℕ) : Prop :=
  RunsIn server.Answers (googleDriveFetch formatting p) ⟨n, []⟩ (.ok result) ⟨n', served⟩

/-- What a call was served, and what it returned. -/
structure DriveFetch where
  served : List (ℕ × DriveRequest)
  records : List Json

/-- **An iteration**: calls until there is no more. A call that fails leaves the cursor as it is, so
that what is left of it is the time that it took. -/
inductive Iterates (source : JsonSourceParams) :
    JsonMap → ℕ → List DriveFetch → JsonMap → ℕ → Prop
  | last {cursor : JsonMap} {n n' : ℕ} {result : JsonSourceResult} {served : List (ℕ × DriveRequest)}
      (fetch : Fetches server formatting { source with cursor } n result served n')
      (hmore : result.hasMore = false) :
      Iterates source cursor n [⟨served, result.records⟩] result.nextCursor n'
  | next {cursor cursor' : JsonMap} {n n' n'' : ℕ} {result : JsonSourceResult}
      {served : List (ℕ × DriveRequest)} {calls : List DriveFetch}
      (fetch : Fetches server formatting { source with cursor } n result served n')
      (hmore : result.hasMore = true) (rest : Iterates source result.nextCursor n' calls cursor' n'') :
      Iterates source cursor n (⟨served, result.records⟩ :: calls) cursor' n''

/-- Iterations from a stored cursor on, with any configuration and any ingestion. -/
inductive Follows : JsonMap → ℕ → List DriveFetch → JsonMap → ℕ → Prop
  | one {source : JsonSourceParams} {cursor cursor' : JsonMap} {n n' : ℕ} {calls : List DriveFetch}
      (iteration : Iterates server formatting source cursor n calls cursor' n') :
      Follows cursor n calls cursor' n'
  | more {source : JsonSourceParams} {cursor cursor' cursor'' : JsonMap} {n n' n'' : ℕ}
      {calls calls' : List DriveFetch}
      (iteration : Iterates server formatting source cursor n calls cursor' n')
      (rest : Follows cursor' n' calls' cursor'' n'') : Follows cursor n (calls ++ calls') cursor'' n''

end calls

variable {ingestion : IngestionConfig}

/-! ## One call -/

section call

variable {server : DriveServer} {formatting : Formatting} {p : JsonSourceParams}
  {served : List (ℕ × DriveRequest)} {result : JsonSourceResult} {params : List (String × String)}
  {world world' : DriveWorld}

/-- A connection is looked up while changes are made. -/
theorem runsIn_oauthConnection {id : String}
    {connected : Except String OAuthRow}
    (h : RunsIn server.Answers (oauthConnection id) world connected world') :
    world.now ≤ world'.now ∧ world'.served = world.served := by
  obtain ⟨reply, -, w, hstep, hdone⟩ := runsIn_await.mp h
  obtain ⟨-, rfl⟩ := runsIn_done.mp hdone
  exact hstep

/-- A reply with the status 401 has no body. -/
theorem decode_unauthorized {β : Type} {response : DriveResponse β}
    (h : response.statusCode = 401) :
    ∃ err, response.decode = .error err := by
  rw [DriveResponse.decode, if_neg (by omega), if_pos (by omega)]
  exact ⟨_, rfl⟩

/-- What a request comes to: its body is that of the last moment, and it is served once. -/
def Served (server : DriveServer) (request : DriveRequest) (world : DriveWorld)
    (result : Except String request.Body) (world' : DriveWorld) : Prop :=
  world.now ≤ world'.now ∧
    match result with
    | .ok body => body = server.serve world'.now request ∧
        world'.served = world.served ++ [(world'.now, request)]
    | .error _ => world'.served = world.served

/-- **A request** that is sent is served, or fails; also where the access token is refreshed on the
way. -/
theorem runsIn_oauthJSON {row : OAuthRow} {request : DriveRequest}
    {result : Except String request.Body × OAuthRow}
    (h : RunsIn server.Answers (oauthJSON row request) world result world') :
    Served server request world result.1 world' := by
  obtain ⟨reply, -, w, hstep, h⟩ := runsIn_await.mp h
  have hserved : Served server request world (decodeReply reply) w := hstep
  cases reply with
  | error err =>
    obtain ⟨rfl, rfl⟩ := runsIn_done.mp h
    exact hserved
  | ok response =>
    dsimp only at h
    split_ifs at h with hunauthorized
    · obtain ⟨err, herr⟩ := decode_unauthorized hunauthorized.1
      have hfirst : world.now ≤ w.now ∧ w.served = world.served := by
        simpa only [Served, decodeReply, herr] using hserved
      obtain ⟨refreshed, -, w₁, hrefresh, h⟩ := runsIn_await.mp h
      have hsecond : w.now ≤ w₁.now ∧ w₁.served = w.served := hrefresh
      cases refreshed with
      | error err =>
        obtain ⟨rfl, rfl⟩ := runsIn_done.mp h
        exact ⟨hfirst.1.trans hsecond.1, hsecond.2.trans hfirst.2⟩
      | ok token =>
        obtain ⟨again, -, w₂, hagain, h⟩ := runsIn_await.mp h
        obtain ⟨rfl, rfl⟩ := runsIn_done.mp h
        have hthird : Served server request w₁ (decodeReply again) world' := hagain
        obtain ⟨hnow, hlog⟩ := hthird
        refine ⟨hfirst.1.trans (hsecond.1.trans hnow), ?_⟩
        rw [← hfirst.2, ← hsecond.2]
        exact hlog
    · obtain ⟨rfl, rfl⟩ := runsIn_done.mp h
      exact hserved

/-- What follows a request, where the whole does not fail. -/
theorem runsIn_bind_oauthJSON {row : OAuthRow} {request : DriveRequest}
    {f : Except String request.Body × OAuthRow → DriveProgram (Except String JsonSourceResult)}
    (hfail : ∀ err row' w, ¬ RunsIn server.Answers (f (.error err, row')) w (.ok result) world')
    (h : RunsIn server.Answers ((oauthJSON row request).bind f) world (.ok result) world') :
    ∃ m row', world.now ≤ m ∧ RunsIn server.Answers (f (.ok (server.serve m request), row'))
      ⟨m, world.served ++ [(m, request)]⟩ (.ok result) world' := by
  obtain ⟨⟨body, row'⟩, ⟨m, served⟩, hrequest, hrest⟩ := runsIn_bind.mp h
  have hserved := runsIn_oauthJSON hrequest
  cases body with
  | error err => exact absurd hrest (hfail err row' _)
  | ok body =>
    obtain ⟨hnow, rfl, hlog⟩ := hserved
    obtain rfl : served = world.served ++ [(m, request)] := hlog
    exact ⟨m, row', hnow, hrest⟩

/-- A call starts with a connection. -/
theorem fetches_row {n n' : ℕ} (h : Fetches server formatting p n result served n') :
    ∃ row m, n ≤ m ∧ RunsIn server.Answers (match backfilling p with
        | some ingestion => listFiles formatting p ingestion row
        | none =>
          let tokenCursor := stringValue formatting (p.cursor.get "startPageToken")
          if tokenCursor = "" then anchorChanges row else listChanges formatting tokenCursor row)
      ⟨m, []⟩ (.ok result) ⟨n', served⟩ := by
  rw [Fetches, googleDriveFetch, runsIn_bind] at h
  obtain ⟨connected, ⟨m, log⟩, hconnection, h⟩ := h
  obtain ⟨hnow, rfl⟩ := runsIn_oauthConnection hconnection
  cases connected with
  | error err => cases (runsIn_done.mp h).1
  | ok row => exact ⟨row, m, hnow, h⟩

/-- **A call of a backfill** lists a page; and with the last page, if the cursor has no token, a
token is issued, after some more changes. -/
theorem fetches_backfill {n n' : ℕ} (hbackfill : backfilling p = some ingestion)
    (h : Fetches server formatting p n result served n') :
    ∃ m, n ≤ m ∧ m ≤ n' ∧ ∃ params, result.records = server.listed m params ∧
      ∃ next, result.hasMore = decide (next ≠ "") ∧
        ((next = "" ∧ stringValue formatting (p.cursor.get "startPageToken") = "" ∧
            served = [(m, .files params), (n', .startPageToken)] ∧
            result.nextCursor = filesCursor ⟨next, result.records⟩ (.string (server.token n'))) ∨
          (¬ (next = "" ∧ stringValue formatting (p.cursor.get "startPageToken") = "") ∧ n' = m ∧
            served = [(m, .files params)] ∧
            result.nextCursor = filesCursor ⟨next, result.records⟩
              (p.cursor.get "startPageToken"))) := by
  obtain ⟨row, m₀, hm₀, h⟩ := fetches_row h
  rw [hbackfill] at h
  obtain ⟨m, row', hm, h⟩ := runsIn_bind_oauthJSON (fun err row' w hrun => by
    cases (runsIn_done.mp hrun).1) h
  refine ⟨m, hm₀.trans hm, ?_⟩
  dsimp only [DriveServer.serve] at h
  split_ifs at h with hanchor
  · obtain ⟨n₁, row'', hn, h⟩ := runsIn_bind_oauthJSON (fun err row' w hrun => by
      cases (runsIn_done.mp hrun).1) h
    obtain ⟨hresult, hworld⟩ := runsIn_done.mp h
    cases hresult
    cases hworld
    refine ⟨hn, _, rfl, _, ?_, .inl ⟨of_decide_eq_true hanchor.1, hanchor.2, rfl, rfl⟩⟩
    simp
  · obtain ⟨hresult, hworld⟩ := runsIn_done.mp h
    cases hresult
    cases hworld
    refine ⟨le_rfl, _, rfl, _, ?_, .inr ⟨?_, rfl, rfl, rfl⟩⟩
    · simp
    · simpa using hanchor

/-- A page of the feed: its records, and the token of the next page or of the changes to come. -/
theorem serve_changes {t : ℕ} (hstart : server.feedStart params = t) (now : ℕ) :
    ∃ response : ChangesResponse, server.serve now (.changes params) = response ∧
      response.changes.filterMap changeRecord =
        (server.shown now params).map (fun k => (server.changes k).record) ∧
      response.newStartPageToken =
        (if now ≤ t + server.feedLength now params then server.token now else "") ∧
      response.nextPageToken = (if now ≤ t + server.feedLength now params then "" else
        server.token (t + server.feedLength now params)) := by
  refine ⟨_, rfl, ?_, ?_, ?_⟩
  · dsimp only [DriveServer.serve]
    rw [filterMap_map, ← filterMap_eq_map]
    exact filterMap_congr fun k _ => changeRecord_entry (server.changes k)
  · rw [← hstart]
    rfl
  · rw [← hstart]
    rfl

/-- **A call after a backfill** reads a page of the changes. -/
theorem fetches_changes {n n' t : ℕ} (hbackfill : backfilling p = none)
    (htoken : stringValue formatting (p.cursor.get "startPageToken") = server.token t)
    (h : Fetches server formatting p n result served n') :
    ∃ params, server.feedStart params = t ∧ n ≤ n' ∧ served = [(n', .changes params)] ∧
      result.records = (server.shown n' params).map (fun k => (server.changes k).record) ∧
      result.hasMore = decide (¬ n' ≤ t + server.feedLength n' params) ∧
      result.nextCursor = changesCursor (server.token
        (if n' ≤ t + server.feedLength n' params then n' else t + server.feedLength n' params)) := by
  obtain ⟨row, m₀, hm₀, h⟩ := fetches_row h
  rw [hbackfill] at h
  dsimp only at h
  rw [htoken, if_neg (server.token_ne t), listChanges] at h
  obtain ⟨m, row', hm, h⟩ := runsIn_bind_oauthJSON (fun err row' w hrun => by
    cases (runsIn_done.mp hrun).1) h
  have hstart : server.feedStart (changesParams (server.token t)) = t := server.position_token t
  obtain ⟨response, hserve, hrecords, hnew, hnext⟩ := serve_changes hstart m
  rw [hserve] at h
  obtain ⟨hresult, hworld⟩ := runsIn_done.mp h
  cases hresult
  cases hworld
  refine ⟨changesParams (server.token t), hstart, hm₀.trans hm, rfl, hrecords, ?_, ?_⟩
  · rw [hnext]
    split_ifs with hlast
    · simp [hlast]
    · simp [hlast, server.token_ne]
  · rw [hnew, hnext]
    split_ifs with hlast
    · simp [firstString, stringValue, server.token_ne]
    · simp [firstString, stringValue, server.token_ne]

/-! ### Any time is possible -/

/-- A request can be served after any number of changes. -/
theorem runsIn_oauthJSON_of_le (row : OAuthRow) (request : DriveRequest) {world : DriveWorld}
    {m : ℕ} (hm : world.now ≤ m) : RunsIn server.Answers (oauthJSON row request) world
      (.ok (server.serve m request), row) ⟨m, world.served ++ [(m, request)]⟩ := by
  let response : DriveResponse request.Body :=
    { statusCode := 200, retryAfter := "", text := "", body := .ok (server.serve m request) }
  let reply : Except String (DriveResponse request.Body) := .ok response
  exact runsIn_await.mpr ⟨reply, (), _, ⟨hm, rfl, rfl⟩, .done _ _⟩

/-- A connection can be found. -/
theorem fetches_of_row {n n' : ℕ} (h : ∀ row, RunsIn server.Answers (match backfilling p with
        | some ingestion => listFiles formatting p ingestion row
        | none =>
          let tokenCursor := stringValue formatting (p.cursor.get "startPageToken")
          if tokenCursor = "" then anchorChanges row else listChanges formatting tokenCursor row)
      ⟨n, []⟩ (.ok result) ⟨n', served⟩) : Fetches server formatting p n result served n' := by
  let row : OAuthRow := { id := "", provider := "google", accessValue := "token", refreshValue := "" }
  let reply : Except String OAuthRow := .ok row
  rw [Fetches, googleDriveFetch, runsIn_bind]
  refine ⟨.ok row, ⟨n, []⟩, ?_, h row⟩
  exact runsIn_await.mpr ⟨reply, (), _, ⟨le_rfl, rfl⟩, .done _ _⟩

/-- **Every page of a listing** can be served after any number of changes. -/
theorem fetches_page {n m : ℕ} (hbackfill : backfilling p = some ingestion)
    (hparams : filesParams formatting p ingestion = params) (hm : n ≤ m)
    (hnext : (server.listing m params).nextPageToken ≠ "") :
    Fetches server formatting p n
      { records := server.listed m params
        nextCursor := filesCursor ⟨(server.listing m params).nextPageToken, server.listed m params⟩
          (p.cursor.get "startPageToken")
        hasMore := true } [(m, .files params)] m := by
  refine fetches_of_row fun row => ?_
  rw [hbackfill]
  dsimp only [listFiles]
  rw [hparams, runsIn_bind]
  refine ⟨_, _, runsIn_oauthJSON_of_le row _ hm, ?_⟩
  dsimp only [DriveServer.serve]
  rw [if_neg (by simp [hnext]), runsIn_done]
  simp [hnext]

/-- **The last page and the token** can be served after any numbers of changes. -/
theorem fetches_last {n m n' : ℕ} (hbackfill : backfilling p = some ingestion)
    (hparams : filesParams formatting p ingestion = params) (hm : n ≤ m) (hn' : m ≤ n')
    (hnext : (server.listing m params).nextPageToken = "")
    (htoken : stringValue formatting (p.cursor.get "startPageToken") = "") :
    Fetches server formatting p n
      { records := server.listed m params
        nextCursor := filesCursor ⟨"", server.listed m params⟩ (.string (server.token n'))
        hasMore := false } [(m, .files params), (n', .startPageToken)] n' := by
  refine fetches_of_row fun row => ?_
  rw [hbackfill]
  dsimp only [listFiles]
  rw [hparams, runsIn_bind]
  refine ⟨_, _, runsIn_oauthJSON_of_le row _ hm, ?_⟩
  dsimp only [DriveServer.serve]
  rw [if_pos (by simp [hnext, htoken]), runsIn_bind]
  refine ⟨_, _, runsIn_oauthJSON_of_le row _ hn', ?_⟩
  rw [runsIn_done, hnext]
  simp [DriveServer.serve]

/-- **A page of the changes** can be served after any number of changes. -/
theorem fetches_feed {n m t : ℕ} (hbackfill : backfilling p = none)
    (htoken : stringValue formatting (p.cursor.get "startPageToken") = server.token t) (hm : n ≤ m)
    {response : ChangesResponse}
    (hserve : server.serve m (.changes (changesParams (server.token t))) = response) :
    Fetches server formatting p n
      { records := response.changes.filterMap changeRecord
        nextCursor := changesCursor (firstString formatting
          [.string response.newStartPageToken, .string response.nextPageToken,
            .string (server.token t)])
        hasMore := decide (response.nextPageToken ≠ "") }
      [(m, .changes (changesParams (server.token t)))] m := by
  refine fetches_of_row fun row => ?_
  rw [hbackfill]
  rw [htoken, if_neg (server.token_ne t), listChanges, runsIn_bind]
  refine ⟨_, _, runsIn_oauthJSON_of_le row _ hm, ?_⟩
  rw [hserve]
  exact .done _ _

end call

/-! ## Handovers -/

/-- What is served in some calls. -/
def requests (calls : List DriveFetch) : List (ℕ × DriveRequest) := calls.flatMap (·.served)

section handover

variable (server : DriveServer) (formatting : Formatting)

/-- **A backfill, and the changes that are read after it.** It starts from a cursor that has no
token of the feed, or one that was issued before. -/
structure Handover where
  source : JsonSourceParams
  ingestion : IngestionConfig
  ingests : source.ingestion = some ingestion
  mode : ingestion.mode = "backfill"
  notDone : source.cursor.get "backfillDone" ≠ .bool true
  start : ℕ
  anchored : stringValue formatting (source.cursor.get "startPageToken") = "" ∨
    ∃ t ≤ start, stringValue formatting (source.cursor.get "startPageToken") = server.token t
  pages : List DriveFetch
  cursor : JsonMap
  paused : ℕ
  listing : Iterates server formatting source source.cursor start pages cursor paused
  changes : List DriveFetch
  final : JsonMap
  drained : ℕ
  following : Follows server formatting cursor paused changes final drained

/-- A page that is served after a change reflects it: it is about the part of the drive in which the
file is, and it shows this part as it is. -/
def Reflects (page : DriveFetch) (k : ℕ) : Prop :=
  ∃ m params, (m, .files params) ∈ page.served ∧ page.records = server.listed m params ∧
    k < m ∧ (server.listing m params).covers (server.changes k).fileId = true

/-- A page of the feed returns a change. -/
def Returns (call : DriveFetch) (k : ℕ) : Prop :=
  ∃ m params, (m, .changes params) ∈ call.served ∧
    call.records = (server.shown m params).map (fun k => (server.changes k).record) ∧
    k ∈ server.shown m params

namespace Handover

variable {server formatting} (run : Handover server formatting)

/-- How many changes there were when the first page was served. -/
def first : ℕ := ((requests run.pages).map Prod.fst).headD run.start

/-- **Nothing is lost**: every change after the first page, and before the changes were read to
their end, is reflected in a later page or returned. -/
def HandsOver : Prop :=
  ∀ k, run.first ≤ k → k < run.drained →
    (∃ page ∈ run.pages, Reflects server page k) ∨ ∃ call ∈ run.changes, Returns server call k

/-- **There is no gap** before the token that the backfill was issued, if it was: every change after
the first page is ahead of the listing, where a page to come is about its file. -/
def NoGap : Prop :=
  ∀ issued, (issued, .startPageToken) ∈ requests run.pages →
    ∀ k, run.first ≤ k → k < issued → ∃ m params, (m, .files params) ∈ requests run.pages ∧ k < m ∧
      (server.listing m params).covers (server.changes k).fileId = true

end Handover

end handover

/-! ## Iterations -/

section iterations

variable {server : DriveServer} {formatting : Formatting}

/-- What a backfill comes to, from a cursor with some text for a token. -/
structure Listed (server : DriveServer) (formatting : Formatting) (token : String) (n : ℕ)
    (pages : List DriveFetch) (cursor' : JsonMap) (n' : ℕ) : Prop where
  le : n ≤ n'
  le_first : ∃ m, ((requests pages).map Prod.fst).head? = some m ∧ n ≤ m
  records : ∀ page ∈ pages, ∀ m params, (m, .files params) ∈ page.served →
    page.records = server.listed m params
  issued : ∀ m, (m, .startPageToken) ∈ requests pages ↔ token = "" ∧ m = n'
  done : cursor'.get "backfillDone" = .bool true
  token_eq : stringValue formatting (cursor'.get "startPageToken") =
    if token = "" then server.token n' else token

/-- A page, and no token yet. -/
theorem records_of_page {served : List (ℕ × DriveRequest)} {records : List Json} {m : ℕ}
    {params : List (String × String)} (hrecords : records = server.listed m params)
    (hserved : ∀ m' params', (m', DriveRequest.files params') ∈ served → m' = m ∧
      params' = params) :
    ∀ page ∈ [(⟨served, records⟩ : DriveFetch)], ∀ m' params', (m', .files params') ∈ page.served →
      page.records = server.listed m' params' := by
  intro page hpage m' params' hmem
  obtain rfl := mem_singleton.mp hpage
  obtain ⟨rfl, rfl⟩ := hserved m' params' hmem
  exact hrecords

variable {cursor cursor' : JsonMap}

/-- **A backfill** lists pages, and ends with a token: the one of its cursor, or one that is issued
at its end. -/
theorem listed_of_iterates {source : JsonSourceParams}
    (hingests : source.ingestion = some ingestion) (hmode : ingestion.mode = "backfill")
    {n n' : ℕ} {pages : List DriveFetch}
    (h : Iterates server formatting source cursor n pages cursor' n')
    (hnot : cursor.get "backfillDone" ≠ .bool true) :
    Listed server formatting (stringValue formatting (cursor.get "startPageToken")) n pages
      cursor' n' := by
  have hbackfill : ∀ cursor : JsonMap, cursor.get "backfillDone" ≠ .bool true →
      backfilling { source with cursor } = some ingestion := by
    intro cursor hcursor
    simp [backfilling, hingests, hmode, hcursor]
  induction h with
  | @last cursor n n' result served fetch hmore =>
    obtain ⟨m, hm, hmn, params, hrecords, next, hhas, hcase⟩ :=
      fetches_backfill (hbackfill cursor hnot) fetch
    obtain rfl : next = "" := by simpa [hmore] using hhas
    rcases hcase with ⟨-, htoken, rfl, hcursor⟩ | ⟨hneg, rfl, rfl, hcursor⟩
    · refine ⟨hm.trans hmn, ⟨m, rfl, hm⟩, records_of_page hrecords ?_, ?_, ?_, ?_⟩
      · simp
      · simp [requests, htoken]
      · rw [hcursor]
        rfl
      · rw [hcursor, if_pos htoken]
        rfl
    · have htoken : stringValue formatting (cursor.get "startPageToken") ≠ "" :=
        fun hempty => hneg ⟨rfl, hempty⟩
      refine ⟨hm, ⟨n', rfl, hm⟩, records_of_page hrecords ?_, ?_, ?_, ?_⟩
      · simp
      · simp [requests, htoken]
      · rw [hcursor]
        rfl
      · rw [hcursor, if_neg htoken]
        rfl
  | @next cursor cursor' n n' n'' result served calls fetch hmore rest ih =>
    obtain ⟨m, hm, hmn, params, hrecords, next, hhas, hcase⟩ :=
      fetches_backfill (hbackfill cursor hnot) fetch
    have hnext : next ≠ "" := by simpa [hmore] using hhas
    obtain ⟨hempty, -⟩ | ⟨-, rfl, rfl, hcursor⟩ := hcase
    · exact absurd hempty hnext
    · have hstays : result.nextCursor.get "startPageToken" = cursor.get "startPageToken" := by
        rw [hcursor]
        rfl
      have hdone : result.nextCursor.get "backfillDone" = .bool (decide (next = "")) := by
        rw [hcursor]
        rfl
      have hnotDone : result.nextCursor.get "backfillDone" ≠ .bool true := by
        rw [hdone, decide_eq_false hnext]
        nofun
      have hrest := ih hnotDone
      rw [hstays] at hrest
      refine ⟨hm.trans hrest.le, ⟨n', rfl, hm⟩, ?_, ?_, hrest.done, hrest.token_eq⟩
      · intro page hpage
        rcases mem_cons.mp hpage with rfl | hpage
        · exact records_of_page hrecords (by simp) _ (mem_singleton_self _)
        · exact hrest.records page hpage
      · intro issued
        rw [← hrest.issued issued]
        simp [requests]

/-- A cursor that stands for a number of changes. -/
structure ChangesFrom (server : DriveServer) (formatting : Formatting) (cursor : JsonMap) (t : ℕ) :
    Prop where
  done : cursor.get "backfillDone" = .bool true
  token : stringValue formatting (cursor.get "startPageToken") = server.token t

/-- The cursor between pages of changes. -/
theorem changesFrom_changesCursor (t : ℕ) :
    ChangesFrom server formatting (changesCursor (server.token t)) t := ⟨rfl, rfl⟩

/-- What the pages of changes come to: the changes up to the last one. -/
structure Caught (server : DriveServer) (formatting : Formatting) (t n : ℕ)
    (calls : List DriveFetch) (cursor' : JsonMap) (n' : ℕ) : Prop where
  le : n ≤ n'
  returns : ∀ k, (∃ call ∈ calls, Returns server call k) ↔ t ≤ k ∧ k < n'
  next : ChangesFrom server formatting cursor' n'

/-- One page of changes. -/
theorem returns_iff {served : List (ℕ × DriveRequest)} {records : List Json} {m t k : ℕ}
    {params : List (String × String)} (hstart : server.feedStart params = t)
    (hserved : served = [(m, .changes params)])
    (hrecords : records = (server.shown m params).map fun k => (server.changes k).record) :
    Returns server ⟨served, records⟩ k ↔ t ≤ k ∧ k < t + server.feedLength m params := by
  rw [← hstart, ← mem_range'_1]
  constructor
  · rintro ⟨m', params', hmem, -, hk⟩
    rw [hserved, mem_singleton] at hmem
    cases hmem
    exact hk
  · intro hk
    refine ⟨m, params, ?_, hrecords, hk⟩
    rw [hserved]
    exact mem_singleton_self _

/-- **An iteration after a backfill** returns the changes from its token up to its last page. -/
theorem caught_of_iterates {source : JsonSourceParams} {n n' t : ℕ}
    {calls : List DriveFetch} (h : Iterates server formatting source cursor n calls cursor' n')
    (hfrom : ChangesFrom server formatting cursor t) (hle : t ≤ n) :
    Caught server formatting t n calls cursor' n' := by
  have hnone : ∀ (cursor : JsonMap) (t : ℕ), ChangesFrom server formatting cursor t →
      backfilling { source with cursor } = none := by
    intro cursor t hcursor
    rw [backfilling, Option.filter_eq_none_iff]
    intro ingestion _ hdecide
    exact (of_decide_eq_true hdecide).2 hcursor.done
  induction h generalizing t with
  | @last cursor n n' result served fetch hmore =>
    obtain ⟨params, hstart, hn, hserved, hrecords, hhas, hcursor⟩ :=
      fetches_changes (hnone cursor t hfrom) hfrom.token fetch
    have hlast : n' ≤ t + server.feedLength n' params := by simpa [hmore] using hhas
    rw [if_pos hlast] at hcursor
    have hlength : server.feedLength n' params ≤ n' - t := by
      rw [← hstart]
      exact min_le_right _ _
    refine ⟨hn, fun k => ?_, hcursor ▸ changesFrom_changesCursor n'⟩
    simp only [mem_singleton, exists_eq_left]
    rw [returns_iff hstart hserved hrecords]
    omega
  | @next cursor cursor' n n' n'' result served calls fetch hmore rest ih =>
    obtain ⟨params, hstart, hn, hserved, hrecords, hhas, hcursor⟩ :=
      fetches_changes (hnone cursor t hfrom) hfrom.token fetch
    have hmany : ¬ n' ≤ t + server.feedLength n' params := by simpa [hmore] using hhas
    rw [if_neg hmany] at hcursor
    have hrest := ih (hcursor ▸ changesFrom_changesCursor _) (by omega)
    refine ⟨hn.trans hrest.le, fun k => ?_, hrest.next⟩
    simp only [mem_cons, exists_eq_or_imp]
    rw [returns_iff hstart hserved hrecords, hrest.returns]
    have := hrest.le
    omega

/-- **The iterations after a backfill** return the changes from its token up to the last page. -/
theorem caught_of_follows {n n' t : ℕ} {calls : List DriveFetch}
    (h : Follows server formatting cursor n calls cursor' n')
    (hfrom : ChangesFrom server formatting cursor t) (hle : t ≤ n) :
    Caught server formatting t n calls cursor' n' := by
  induction h generalizing t with
  | one iteration => exact caught_of_iterates iteration hfrom hle
  | more iteration rest ih =>
    have hfirst := caught_of_iterates iteration hfrom hle
    have hrest := ih hfirst.next le_rfl
    refine ⟨hfirst.le.trans hrest.le, fun k => ?_, hrest.next⟩
    have hor := or_congr (hfirst.returns k) (hrest.returns k)
    simp only [mem_append, or_and_right, exists_or]
    rw [hor]
    have := hfirst.le
    have := hrest.le
    omega

end iterations

/-! ## Every handover -/

namespace Handover

variable {server : DriveServer} {formatting : Formatting} (run : Handover server formatting)

/-- What the backfill comes to. -/
theorem listed : Listed server formatting
    (stringValue formatting (run.source.cursor.get "startPageToken")) run.start run.pages run.cursor
      run.paused :=
  listed_of_iterates run.ingests run.mode run.listing run.notDone

/-- The first page is served after the start. -/
theorem start_le_first : run.start ≤ run.first := by
  obtain ⟨m, hhead, hle⟩ := run.listed.le_first
  rw [first, headD_eq_head?_getD, hhead]
  exact hle

/-- What is returned, from the number of changes that the token stands for. -/
theorem returns_iff_of_token {t : ℕ} (ht : t ≤ run.paused)
    (htoken : stringValue formatting (run.cursor.get "startPageToken") = server.token t) (k : ℕ) :
    (∃ call ∈ run.changes, Returns server call k) ↔ t ≤ k ∧ k < run.drained :=
  (caught_of_follows run.following ⟨run.listed.done, htoken⟩ ht).returns k

/-- **A backfill that has a token from before** is handed over without loss. -/
theorem handsOver_of_token {t : ℕ} (ht : t ≤ run.start)
    (htoken : stringValue formatting (run.source.cursor.get "startPageToken") = server.token t) :
    run.HandsOver := by
  intro k hfirst hk
  have hne : stringValue formatting (run.source.cursor.get "startPageToken") ≠ "" :=
    htoken ▸ server.token_ne t
  have hcursor := run.listed.token_eq
  rw [if_neg hne, htoken] at hcursor
  refine .inr ((run.returns_iff_of_token (ht.trans run.listed.le) hcursor k).mpr ⟨?_, hk⟩)
  exact (ht.trans run.start_le_first).trans hfirst

/-- **A handover is without loss iff there is no gap before the token.** For every drive, every listing of
it and every order of its changes and the pages: every change after the first page is reflected in a later
page or returned by the pages of changes, iff the cursor had a token at the start, or every change between the
first page and the issue of the token is to a file that a page to come is about.

Source: `saas.go` `googleDriveFetch` -/
theorem handsOver_iff : run.HandsOver ↔ run.NoGap := by
  rcases run.anchored with hempty | ⟨t, ht, htoken⟩
  · have hcursor := run.listed.token_eq
    rw [if_pos hempty] at hcursor
    have hreturns := run.returns_iff_of_token le_rfl hcursor
    have hdrained : run.paused ≤ run.drained :=
      (caught_of_follows run.following ⟨run.listed.done, hcursor⟩ le_rfl).le
    constructor
    · intro h issued hissued k hfirst hk
      obtain rfl : issued = run.paused := ((run.listed.issued issued).mp hissued).2
      rcases h k hfirst (hk.trans_le hdrained) with ⟨page, hpage, m, params, hmem, -, hlt, hcovers⟩ | hback
      · exact ⟨m, params, mem_flatMap.mpr ⟨page, hpage, hmem⟩, hlt, hcovers⟩
      · exact absurd ((hreturns k).mp hback).1 (not_le.mpr hk)
    · intro h k hfirst hk
      rcases Nat.lt_or_ge k run.paused with hbefore | hafter
      · have hissued := (run.listed.issued run.paused).mpr ⟨hempty, rfl⟩
        obtain ⟨m, params, hmem, hlt, hcovers⟩ := h run.paused hissued k hfirst hbefore
        obtain ⟨page, hpage, hserved⟩ := mem_flatMap.mp hmem
        exact .inl ⟨page, hpage, m, params, hserved, run.listed.records page hpage m params hserved,
          hlt, hcovers⟩
      · exact .inr ((hreturns k).mpr ⟨hafter, hk⟩)
  · refine iff_of_true (run.handsOver_of_token ht htoken) ?_
    intro issued hissued
    have hne : stringValue formatting (run.source.cursor.get "startPageToken") ≠ "" :=
      htoken ▸ server.token_ne t
    exact absurd ((run.listed.issued issued).mp hissued).1 hne

end Handover

/-! ## A drive with two files -/

/-- Nothing is written in another way. -/
def driveFormatting : Formatting where
  sprint _ := ""
  scanFloat _ := 0

/-- Two files, one on a page. The first one is renamed, again and again. -/
def driveServer : DriveServer where
  initial := [("a", [("id", .string "a")]), ("b", [("id", .string "b")])]
  changes _ := { fileId := "a", file := some [("id", .string "a"), ("name", .string "renamed")] }
  listing _ params :=
    match params.lookup "pageToken" with
    | none => { covers := fun id => id = "a", nextPageToken := "second" }
    | some _ => { covers := fun id => id = "b", nextPageToken := "" }
  selects _ _ := true
  token n := Nat.repr n
  position text := ((Decimal.parseDecimal text).getD 0).toNat
  token_ne n := Decimal.repr_int_ne_empty n
  position_token n := by simp [Decimal.parseDecimal_repr]
  feedSize _ _ := 100
  feedSize_pos _ _ := by decide

/-- There are no more changes at the token. -/
theorem serve_drained : driveServer.serve 1 (.changes (changesParams (driveServer.token 1))) =
    ({ newStartPageToken := driveServer.token 1, nextPageToken := "", changes := [] } :
      ChangesResponse) := by
  have hstart : driveServer.feedStart (changesParams (driveServer.token 1)) = 1 :=
    driveServer.position_token 1
  have hlength : driveServer.feedLength 1 (changesParams (driveServer.token 1)) = 0 := by
    rw [DriveServer.feedLength, hstart]
    rfl
  simp only [DriveServer.serve, DriveServer.shown, hstart, hlength]
  rfl

/-- A backfill of the drive. -/
def driveSource : JsonSourceParams where
  ingestion := some { mode := "backfill", pageSize := 1 }

/-- The parameters of a page. -/
def drivePage (token : List (String × String)) : List (String × String) :=
  [("pageSize", "1"),
    ("fields", "nextPageToken,files(id,name,mimeType,modifiedTime,size,webViewLink)")] ++ token

/-- The first file is listed, and renamed while the second one is listed. -/
def driveRun : Handover driveServer driveFormatting where
  source := driveSource
  ingestion := { mode := "backfill", pageSize := 1 }
  ingests := rfl
  mode := rfl
  notDone := by decide
  start := 0
  anchored := .inl rfl
  pages := [⟨[(0, .files (drivePage []))], driveServer.listed 0 (drivePage [])⟩,
    ⟨[(1, .files (drivePage [("pageToken", "second")])), (1, .startPageToken)],
      driveServer.listed 1 (drivePage [("pageToken", "second")])⟩]
  cursor := filesCursor ⟨"", driveServer.listed 1 (drivePage [("pageToken", "second")])⟩
    (.string (driveServer.token 1))
  paused := 1
  listing := by
    refine .next (fetches_page rfl ?_ le_rfl (by decide)) rfl
      (.last (fetches_last rfl ?_ (by decide) le_rfl rfl rfl) rfl)
    · decide +kernel
    · decide +kernel
  changes := [⟨[(1, .changes (changesParams (driveServer.token 1)))], []⟩]
  final := changesCursor (driveServer.token 1)
  drained := 1
  following := by
    have hfetch : Fetches driveServer driveFormatting
        { driveSource with cursor := filesCursor ⟨"", driveServer.listed 1
          (drivePage [("pageToken", "second")])⟩ (.string (driveServer.token 1)) } 1
        { records := [], nextCursor := changesCursor (driveServer.token 1), hasMore := false }
        [(1, .changes (changesParams (driveServer.token 1)))] 1 := fetches_feed rfl rfl le_rfl serve_drained
    exact .one (.last hfetch rfl : Iterates driveServer driveFormatting driveSource _ 1 _ _ 1)

/-- **A file that is changed behind the listing**: after its page, and before the token is issued.
Its change is not in a page and not in the feed. -/
theorem change_behind_listing_lost : ¬ driveRun.HandsOver := by
  intro h
  rcases h 0 (by decide) (by decide) with ⟨page, hpage, m, params, hmem, -, hlt, hcovers⟩ |
    ⟨call, hcall, m, params, hmem, -, hk⟩
  · simp only [driveRun, mem_cons, not_mem_nil, or_false] at hpage
    rcases hpage with rfl | rfl
    · obtain ⟨rfl, rfl⟩ : m = 0 ∧ params = drivePage [] := by simpa using hmem
      exact absurd hlt (lt_irrefl 0)
    · obtain ⟨rfl, rfl⟩ : m = 1 ∧ params = drivePage [("pageToken", "second")] := by simpa using hmem
      exact absurd hcovers (by decide)
  · obtain rfl := mem_singleton.mp hcall
    obtain ⟨rfl, rfl⟩ : m = 1 ∧ params = changesParams (driveServer.token 1) := by simpa using hmem
    have hstart : driveServer.feedStart (changesParams (driveServer.token 1)) = 1 :=
      driveServer.position_token 1
    rw [DriveServer.shown, hstart, mem_range'_1] at hk
    omega

end Dataflow.Connectors.DriveHandover
