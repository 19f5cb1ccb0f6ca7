import Dataflow.Connectors.Values

/-!
# `googleDriveFetch`: files and their changes

A backfill lists the files of a drive a page at a time, and takes a start page token with its last
page. After it the changes from the token on are read.

* `OAuthRow`, `DriveRequest`, `FilesResponse`, `ChangesResponse`, `DriveResponse`: the data.
* `DriveCall`, `DriveReply`: what the code asks for.
* `oauthConnection`, `oauthJSON`: a connection, and a request with its access token.
* `listFiles`, `anchorChanges`, `listChanges`, `googleDriveFetch`: the code.

Source: `saas.go` `oauthConnection`, `oauthJSON`, `googleDriveFetch`
-/

namespace Dataflow.Connectors

open Activities Library Model

/-! ## Data -/

/-- A connector instance, as far as it is read for an access token. -/
structure OAuthRow where
  id : String
  provider : String
  accessValue : String
  refreshValue : String

/-- A request to the provider, with its parameters. -/
inductive DriveRequest where
  | files (params : List (String × String))
  | startPageToken
  | changes (params : List (String × String))
  deriving DecidableEq

/-- A page of the listing. -/
structure FilesResponse where
  nextPageToken : String
  files : List Json

/-- A page of the changes. -/
structure ChangesResponse where
  newStartPageToken : String
  nextPageToken : String
  changes : List JsonMap

/-- What the body of a response is decoded into. -/
def DriveRequest.Body : DriveRequest → Type
  | files _ => FilesResponse
  | startPageToken => String
  | changes _ => ChangesResponse

/-- A response: the header `Retry-After`, the body as a text, and as it is decoded. -/
structure DriveResponse (β : Type) where
  statusCode : ℕ
  retryAfter : String
  text : String
  body : Except String β

/-- What is asked for: the row of a connection, with its tokens decrypted, a response of the
provider, and another access token. -/
inductive DriveCall where
  | credential (id : String)
  | send (accessValue : String) (request : DriveRequest)
  | refreshOAuthToken (row : OAuthRow)

/-- The replies. -/
def DriveReply : DriveCall → Type
  | .credential _ => Except String OAuthRow
  | .send _ request => Except String (DriveResponse request.Body)
  | .refreshOAuthToken _ => Except String String

/-- Calls of the provider. -/
abbrev DriveProgram := Coroutine DriveCall DriveReply Unit

/-! ## The code -/

/-- Source: `saas.go` `oauthConnection`. -/
def oauthConnection (id : String) : DriveProgram (Except String OAuthRow) :=
  .await (.credential id) fun reply _ => .done <| match (reply : Except String OAuthRow) with
    | .error err => .error err
    | .ok row =>
      if row.accessValue = "" then .error ("connector " ++ id ++ " has no access token") else .ok row

/-- What is made of a response. -/
def DriveResponse.decode {β : Type} (response : DriveResponse β) : Except String β :=
  if response.statusCode = 429 then
    .error ("provider rate limited; retry after " ++
      (if response.retryAfter = "" then "60" else response.retryAfter) ++ " seconds")
  else if 400 ≤ response.statusCode then
    .error ("provider returned " ++ toString response.statusCode ++ ": " ++ response.text)
  else response.body

/-- What is made of a reply. -/
def decodeReply {β : Type} : Except String (DriveResponse β) → Except String β
  | .error err => .error err
  | .ok response => response.decode

/-- Source: `saas.go` `oauthJSON`; a new access token is kept in the row. -/
def oauthJSON (row : OAuthRow) (request : DriveRequest) :
    DriveProgram (Except String request.Body × OAuthRow) :=
  .await (.send row.accessValue request) fun reply _ =>
    match (reply : Except String (DriveResponse request.Body)) with
    | .error err => .done (.error err, row)
    | .ok response =>
      if response.statusCode = 401 ∧ row.refreshValue ≠ "" then
        .await (.refreshOAuthToken row) fun refreshed _ =>
          match (refreshed : Except String String) with
          | .error err => .done (.error ("token expired and refresh failed: " ++ err), row)
          | .ok token =>
            .await (.send token request) fun reply _ =>
              .done (decodeReply reply, { row with accessValue := token })
      else .done (response.decode, row)

section code

variable (formatting : Formatting) (p : JsonSourceParams)

/-- The parameters of a listing. -/
def filesParams (ingestion : IngestionConfig) : List (String × String) :=
  let query := stringValue formatting (p.config.get "query")
  let page := stringValue formatting (p.cursor.get "pageToken")
  [("pageSize", toString ingestion.pageSize),
    ("fields", "nextPageToken,files(id,name,mimeType,modifiedTime,size,webViewLink)")] ++
    (if query ≠ "" then [("q", query)] else []) ++ (if page ≠ "" then [("pageToken", page)] else [])

/-- The cursor after a page of the listing. -/
def filesCursor (response : FilesResponse) (startPageToken : Json) : JsonMap :=
  [("pageToken", .string response.nextPageToken),
    ("backfillDone", .bool (decide (response.nextPageToken = ""))), ("startPageToken", startPageToken)]

/-- A page of the listing; with the last one goes a start page token, if the cursor has none. -/
def listFiles (ingestion : IngestionConfig) (row : OAuthRow) :
    DriveProgram (Except String JsonSourceResult) :=
  (oauthJSON row (.files (filesParams formatting p ingestion))).bind fun (listed, row) =>
    match (listed : Except String FilesResponse) with
    | .error err => .done (.error err)
    | .ok response =>
      let done := decide (response.nextPageToken = "")
      if done ∧ stringValue formatting (p.cursor.get "startPageToken") = "" then
        (oauthJSON row .startPageToken).bind fun (anchor, _) => .done <|
          match (anchor : Except String String) with
          | .error err => .error err
          | .ok token => .ok
              { records := response.files
                nextCursor := filesCursor response (.string token)
                hasMore := !done }
      else .done <| .ok
        { records := response.files
          nextCursor := filesCursor response (p.cursor.get "startPageToken")
          hasMore := !done }

/-- The cursor between pages of changes. -/
def changesCursor (token : String) : JsonMap :=
  [("startPageToken", .string token), ("backfillDone", .bool true)]

/-- Without a token: the changes from now on. -/
def anchorChanges (row : OAuthRow) : DriveProgram (Except String JsonSourceResult) :=
  (oauthJSON row .startPageToken).bind fun (anchor, _) => .done <|
    match (anchor : Except String String) with
    | .error err => .error err
    | .ok token => .ok { records := [], nextCursor := changesCursor token, hasMore := false }

/-- The record that is made of a change. -/
def changeRecord (change : JsonMap) : Option Json :=
  if change.get "removed" = .bool true then
    some (.object [("_op", .string "delete"), ("fileId", change.get "fileId")])
  else (change.get "file").asObject?.map fun file => .object (file.set "_op" (.string "upsert"))

/-- The parameters of a page of changes. -/
def changesParams (tokenCursor : String) : List (String × String) :=
  [("pageToken", tokenCursor), ("fields", "newStartPageToken,nextPageToken," ++
    "changes(fileId,removed,file(id,name,mimeType,modifiedTime,webViewLink))")]

/-- A page of changes. -/
def listChanges (tokenCursor : String) (row : OAuthRow) :
    DriveProgram (Except String JsonSourceResult) :=
  (oauthJSON row (.changes (changesParams tokenCursor))).bind fun (listed, _) => .done <|
    match (listed : Except String ChangesResponse) with
    | .error err => .error err
    | .ok response => .ok
        { records := response.changes.filterMap changeRecord
          nextCursor := changesCursor (firstString formatting
            [.string response.newStartPageToken, .string response.nextPageToken, .string tokenCursor])
          hasMore := decide (response.nextPageToken ≠ "") }

/-- The ingestion of a backfill that is not done yet. -/
def backfilling : Option IngestionConfig :=
  p.ingestion.filter fun ingestion =>
    decide (ingestion.mode = "backfill" ∧ p.cursor.get "backfillDone" ≠ .bool true)

/-- Source: `saas.go` `googleDriveFetch`. -/
def googleDriveFetch : DriveProgram (Except String JsonSourceResult) :=
  (oauthConnection (stringValue formatting (p.config.get "connectionId"))).bind fun connected =>
    match connected with
    | .error err => .done (.error err)
    | .ok row =>
      match backfilling p with
      | some ingestion => listFiles formatting p ingestion row
      | none =>
        let tokenCursor := stringValue formatting (p.cursor.get "startPageToken")
        if tokenCursor = "" then anchorChanges row else listChanges formatting tokenCursor row

end code

end Dataflow.Connectors
