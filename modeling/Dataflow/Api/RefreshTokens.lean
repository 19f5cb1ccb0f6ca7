import Dataflow.Library.Coroutine
import Dataflow.Library.Transition
import Mathlib.Data.Fintype.Basic
import Mathlib.Data.List.Nodup
import Mathlib.Logic.Function.Basic

/-!
# Refresh tokens

A request for a new access token carries a refresh token in a cookie. The handler reads the row of
the token, revokes it, and inserts the row of a new refresh token, in statements of their own.

* `RefreshToken`, `User`, `Tables`: the rows.
* `AuthCall`, `AuthReply`, `refresh`: the code, as a coroutine that sees the clock.
* `perform`, `exec`: what a statement does to the tables.
* `RefreshSystem`, `State`, `State.step`: the system: each request runs `refresh`, other handlers
  execute statements of their own, and a step is one statement.
* `Stage`, `Invariant`: where a request stands, and what holds then.
* `single_use_of_run`: **main result**: a refresh token is used once in every run in which no
  request passes the check while another one is between its check and its revocation.
* `both_issue`: two requests pass the check before the first revokes the token.

Source: `routes_auth.go` `refresh`, `logout`, `auth.go` `issueRefreshToken`, `db/002_auth.sql`
-/

set_option linter.unusedSectionVars false

namespace Dataflow.Api.RefreshTokens

open Library Library.Transition List Function Option

/-! ## Rows -/

/-- A row of `refresh_tokens`. Times are in microseconds. -/
structure RefreshToken where
  id : String
  userId : String
  tokenHash : String
  revokedAt : Option ℤ := none
  expiresAt : ℤ
  deriving DecidableEq

/-- The columns of `users` that a new access token is made from. -/
structure User where
  id : String
  tenantId : String
  email : String
  role : String
  emailVerified : Bool
  deriving DecidableEq

/-- The tables. -/
structure Tables where
  tokens : List RefreshToken
  users : List User

/-! ## Calls -/

/-- The error of a handler: an answer with status 401, or any other error. -/
inductive AuthError where
  | unauthorized (message : String)
  | other (message : String)
  deriving DecidableEq

/-- A statement. -/
inductive AuthCall where
  | selectToken (tokenHash : String)
  /-- `WHERE user_id=$1 AND revoked_at IS NULL` -/
  | revokeUser (userId : String)
  /-- `WHERE id=$1` -/
  | revokeToken (id : String)
  /-- `WHERE token_hash=$1 AND revoked_at IS NULL`, by `logout` -/
  | revokeHash (tokenHash : String)
  | selectUser (userId : String)
  | insertToken (userId tokenHash : String) (expiresAt : ℤ)
  deriving DecidableEq

/-- What a statement gives back: a row of a token, a row of a user, or nothing. -/
@[reducible] def AuthReply : AuthCall → Type
  | .selectToken _ => Except AuthError (Option RefreshToken)
  | .selectUser _ => Except AuthError (Option User)
  | _ => Except AuthError Unit

/-- A function that executes statements, and sees the clock when a reply arrives. -/
abbrev Program (α : Type) := Coroutine AuthCall AuthReply ℤ α

/-! ## The code -/

/-- The hash function, and the signing of an access token for a user at a time. -/
structure AuthEnv where
  sha256Hex : String → String
  signAccessToken : Option User → ℤ → Except String String

/-- A request, with the random token that is drawn for it. -/
structure RefreshRequest where
  cookie : Option String
  randomToken : String

/-- The answer to a request: the cookie that is set, and the body. -/
structure RefreshReply where
  refreshToken : String
  accessToken : String
  user : Option User
  deriving DecidableEq

/-- `refreshTTLDays` -/
def refreshTTL : ℤ := 30 * 24 * 60 * 60 * 1000000

section code

variable (auth : AuthEnv) (request : RefreshRequest)

/-- Source: `auth.go` `issueRefreshToken`. -/
def issueRefreshToken (token userId : String) (now : ℤ) : Program (Except AuthError String) :=
  .await (.insertToken userId (auth.sha256Hex token) (now + refreshTTL)) fun reply _ =>
    match reply with
    | .error err => .done (.error err)
    | .ok () => .done (.ok token)

/-- The new refresh token, once the access token is signed. -/
def answer (userId access : String) (user : Option User) (now : ℤ) :
    Program (Except AuthError RefreshReply) :=
  (issueRefreshToken auth request.randomToken userId now).bind fun reply =>
    match reply with
    | .error err => .done (.error err)
    | .ok token => .done (.ok ⟨token, access, user⟩)

/-- The tokens for the user, once the old token is revoked. -/
def renew (userId : String) : Program (Except AuthError RefreshReply) :=
  .await (.selectUser userId) fun reply now =>
    match reply with
    | .error err => .done (.error err)
    | .ok user =>
      match auth.signAccessToken user now with
      | .error err => .done (.error (.other err))
      | .ok access => answer auth request userId access user now

/-- What follows the check of a token. -/
def exchange (row : RefreshToken) : Program (Except AuthError RefreshReply) :=
  .await (.revokeToken row.id) fun reply _ =>
    match reply with
    | .error err => .done (.error err)
    | .ok () => renew auth request row.userId

/-- What follows the use of a token that is revoked. -/
def detectReuse (row : RefreshToken) : Program (Except AuthError RefreshReply) :=
  .await (.revokeUser row.userId) fun _ _ =>
    .done (.error (.unauthorized "refresh token reuse detected"))

/-- The check of the row that has been read. -/
def checkToken (reply : Except AuthError (Option RefreshToken)) (now : ℤ) :
    Program (Except AuthError RefreshReply) :=
  match reply with
  | .error _ | .ok none => .done (.error (.unauthorized "invalid refresh token"))
  | .ok (some row) =>
    if row.revokedAt ≠ none then detectReuse row
    else if row.expiresAt < now then .done (.error (.unauthorized "refresh token expired"))
    else exchange auth request row

/-- Source: `routes_auth.go` `refresh`. -/
def refresh : Program (Except AuthError RefreshReply) :=
  match request.cookie with
  | none => .done (.error (.unauthorized "no refresh token"))
  | some token => .await (.selectToken (auth.sha256Hex token)) (checkToken auth request)

end code

/-! ## What a statement does -/

section statements

/-- `UPDATE refresh_tokens SET revoked_at=now()` for the rows that match. -/
def Tables.revoke (tables : Tables) (clock : ℤ) (which : RefreshToken → Prop)
    [DecidablePred which] :
    Tables :=
  { tables with tokens :=
      tables.tokens.map fun row => if which row then { row with revokedAt := some clock } else row }

/-- `INSERT INTO refresh_tokens`, with the id that the database generates. The constraints of the
table may refuse it. -/
def Tables.insertToken (tables : Tables) (row : RefreshToken) : Except AuthError Unit × Tables :=
  if tables.tokens.any fun other => other.id = row.id ∨ other.tokenHash = row.tokenHash then
    (.error (.other "duplicate key value violates unique constraint"), tables)
  else if tables.users.any fun user => user.id = row.userId then
    (.ok (), { tables with tokens := tables.tokens ++ [row] })
  else (.error (.other "insert or update violates foreign key constraint"), tables)

/-- A user is registered or changed. -/
def Tables.saveUser (tables : Tables) (user : User) : Tables :=
  { tables with users := tables.users.filter (fun other => other.id ≠ user.id) ++ [user] }

/-- What goes wrong with a statement: it fails, or it takes effect and its reply is lost. -/
inductive Fault where
  | none
  | fails (err : AuthError)
  | replyLost (err : AuthError)
  deriving DecidableEq

/-- The statement takes effect. -/
def Fault.takesEffect : Fault → Bool
  | .none | .replyLost _ => true
  | .fails _ => false

/-- The reply that reports an error. -/
def AuthReply.error (err : AuthError) : (call : AuthCall) → AuthReply call
  | .selectToken _ | .selectUser _ => Except.error err
  | .revokeUser _ | .revokeToken _ | .revokeHash _ | .insertToken _ _ _ => Except.error err

variable (clock : ℤ) (id : String)

/-- A statement that does not fail; `clock` is the time of the database, and `id` the next id that
it generates. -/
def perform : (call : AuthCall) → Tables → AuthReply call × Tables
  | .selectToken tokenHash, tables =>
    (.ok (tables.tokens.find? fun row => row.tokenHash = tokenHash), tables)
  | .revokeUser userId, tables =>
    (.ok (), tables.revoke clock fun row => row.userId = userId ∧ row.revokedAt = none)
  | .revokeToken tokenId, tables => (.ok (), tables.revoke clock fun row => row.id = tokenId)
  | .revokeHash tokenHash, tables =>
    (.ok (), tables.revoke clock fun row => row.tokenHash = tokenHash ∧ row.revokedAt = none)
  | .selectUser userId, tables => (.ok (tables.users.find? fun user => user.id = userId), tables)
  | .insertToken userId tokenHash expiresAt, tables =>
    tables.insertToken ⟨id, userId, tokenHash, none, expiresAt⟩

/-- A statement, with what goes wrong. -/
def exec (fault : Fault) (call : AuthCall) (tables : Tables) : AuthReply call × Tables :=
  match fault with
  | .none => perform clock id call tables
  | .fails err => (.error err call, tables)
  | .replyLost err => (.error err call, (perform clock id call tables).2)

/-- The statement has inserted the row of a new token. -/
def inserts : (call : AuthCall) → AuthReply call → Bool
  | .insertToken _ _ _, .ok () => true
  | _, _ => false

end statements

/-! ## The system -/

/-- Requests, and the tables that they meet. The hashes of tokens are unique. -/
structure RefreshSystem (ι : Type) where
  auth : AuthEnv
  request : ι → RefreshRequest
  tables : Tables
  hashes : (tables.tokens.map (·.tokenHash)).Nodup

/-- The tables, how far the requests are, and those whose new token has been inserted. -/
structure State (ι : Type) where
  tables : Tables
  programs : ι → Program (Except AuthError RefreshReply)
  issued : List ι := []

/-- An event: a request executes its next statement, with the clocks of the database and the server;
another handler executes one; or a user is registered or changed. -/
inductive Event (ι : Type) where
  | call (i : ι) (fault : Fault) (clock now : ℤ) (id : String)
  | other (statement : AuthCall) (clock : ℤ) (id : String)
  | saveUser (user : User)

section system

variable {ι : Type} [DecidableEq ι] (system : RefreshSystem ι) (s : State ι) (i : ι)

/-- All requests are about to start. -/
def RefreshSystem.initial : State ι :=
  ⟨system.tables, fun i => refresh system.auth (system.request i), []⟩

/-- One statement. -/
def State.step (s : State ι) : Event ι → Option (State ι)
  | .call i fault clock now id =>
    match s.programs i with
    | .done _ => none
    | .await call resume =>
      let result := exec clock id fault call s.tables
      some
        { tables := result.2
          programs := update s.programs i (resume result.1 now)
          issued :=
            if fault.takesEffect ∧ inserts call (perform clock id call s.tables).1 then
              s.issued ++ [i]
            else s.issued }
  | .other statement clock id => some { s with tables := (perform clock id statement s.tables).2 }
  | .saveUser user => some { s with tables := s.tables.saveUser user }

/-- The request issues a new refresh token: its row is inserted, or the answer carries it. -/
def State.Issues : Prop :=
  i ∈ s.issued ∨ ∃ reply, (s.programs i).value? = some (.ok reply)

/-- **Refresh tokens are single use**: one request inserts one row at most, and at most one of the
requests that carry a token issues a new one. -/
structure RefreshSystem.SingleUse : Prop where
  nodup : s.issued.Nodup
  unique : ∀ i j token, (system.request i).cookie = some token →
    (system.request j).cookie = some token → s.Issues i → s.Issues j → i = j

end system

/-! ## The condition -/

/-- The check of a token: its row is there, is not revoked and has not expired. -/
def Tables.passes (tables : Tables) (tokenHash : String) (now : ℤ) : Bool :=
  (tables.tokens.find? fun row => row.tokenHash = tokenHash).any fun row =>
    row.revokedAt = none ∧ ¬ row.expiresAt < now

namespace State

variable {ι : Type} (s : State ι) (i : ι)

/-- The request is about to read the row of its token, and will pass the check. -/
def passes (now : ℤ) : Bool :=
  match (s.programs i).pending? with
  | some (.selectToken tokenHash) => s.tables.passes tokenHash now
  | _ => false

/-- The request has passed the check, and has not revoked its token yet. -/
def checked : Bool :=
  match (s.programs i).pending? with
  | some (.revokeToken _) => true
  | _ => false

end State

/-- **The condition**: no request passes the check while another one with the same token is between
its check and its revocation. -/
def RefreshSystem.Alone {ι : Type} (system : RefreshSystem ι) (s : State ι) : Event ι → Prop
  | .call i .none _ now _ => s.passes i now →
      ∀ j ≠ i, (system.request j).cookie = (system.request i).cookie → ¬ s.checked j
  | _ => True

instance {ι : Type} [DecidableEq ι] [Fintype ι] (system : RefreshSystem ι) (s : State ι) :
    ∀ e : Event ι, Decidable (system.Alone s e)
  | .call _ .none _ _ _ => inferInstanceAs (Decidable (_ → _))
  | .call _ (.fails _) _ _ _ | .call _ (.replyLost _) _ _ _ | .other _ _ _ | .saveUser _ =>
    .isTrue trivial

variable {row : RefreshToken}

/-! ## What the tables become -/

section tables

variable {tables tables' tables'' : Tables} {tokenHash tokenId : String}

/-- **What no statement undoes**: hashes stay unique, rows stay, and what is revoked stays
revoked. -/
structure Tables.Later (tables tables' : Tables) : Prop where
  hashes : (tables.tokens.map (·.tokenHash)).Nodup → (tables'.tokens.map (·.tokenHash)).Nodup
  rows : ∀ row ∈ tables.tokens, ∃ row' ∈ tables'.tokens, row'.id = row.id ∧
    row'.tokenHash = row.tokenHash ∧ (row.revokedAt ≠ none → row'.revokedAt ≠ none)

theorem Tables.Later.of_tokens (h : tables'.tokens = tables.tokens) : tables.Later tables' := by
  refine ⟨?_, ?_⟩
  · rw [h]
    exact id
  · intro row hrow
    rw [h]
    exact ⟨row, hrow, rfl, rfl, id⟩

theorem Tables.Later.refl (tables : Tables) : tables.Later tables := .of_tokens rfl

/-- Revoking rows. -/
theorem Tables.later_revoke (tables : Tables) (clock : ℤ) (which : RefreshToken → Prop)
    [DecidablePred which] : tables.Later (tables.revoke clock which) := by
  refine ⟨?_, ?_⟩
  · intro hnodup
    unfold revoke
    rw [List.map_map]
    convert hnodup using 2
    funext row
    simp only [comp_apply]
    split_ifs <;> rfl
  · intro row hrow
    refine ⟨_, List.mem_map_of_mem hrow, ?_⟩
    split_ifs <;> simp

/-- Inserting a row. -/
theorem Tables.later_insertToken (tables : Tables) (row : RefreshToken) :
    tables.Later (tables.insertToken row).2 := by
  unfold insertToken
  split_ifs with hany huser
  · exact .refl tables
  · refine ⟨?_, ?_⟩
    · intro hnodup
      have hnew : row.tokenHash ∉ tables.tokens.map (·.tokenHash) := by
        intro hmem
        obtain ⟨other, hother, heq⟩ := List.mem_map.mp hmem
        exact hany (List.any_eq_true.mpr ⟨other, hother, by simp [heq]⟩)
      rw [map_append]
      exact hnodup.append (nodup_singleton _) (by simpa using hnew)
    · intro other hother
      exact ⟨other, mem_append_left _ hother, rfl, rfl, id⟩
  · exact .refl tables

/-- **Every statement** keeps what no statement undoes. -/
theorem later_perform (clock : ℤ) (id : String) (call : AuthCall) (tables : Tables) :
    tables.Later (perform clock id call tables).2 := by
  cases call with
  | selectToken tokenHash => exact .refl tables
  | revokeUser userId | revokeToken tokenId => exact tables.later_revoke clock _
  | revokeHash tokenHash => exact tables.later_revoke clock _
  | selectUser userId => exact .refl tables
  | insertToken userId tokenHash expiresAt => exact tables.later_insertToken _

/-- A statement, whatever goes wrong. -/
theorem later_exec (clock : ℤ) (id : String) (fault : Fault) (call : AuthCall) (tables : Tables) :
    tables.Later (exec clock id fault call tables).2 := by
  cases fault with
  | none => exact later_perform clock id call tables
  | fails err => exact .refl tables
  | replyLost err => exact later_perform clock id call tables

/-- A row with this id has this hash. -/
def Tables.Has (tables : Tables) (tokenId tokenHash : String) : Prop :=
  ∃ row ∈ tables.tokens, row.id = tokenId ∧ row.tokenHash = tokenHash

/-- The token with this hash is revoked. -/
def Tables.Spent (tables : Tables) (tokenHash : String) : Prop :=
  ∃ row ∈ tables.tokens, row.tokenHash = tokenHash ∧ row.revokedAt ≠ none

theorem Tables.Has.later (h : tables.Has tokenId tokenHash) (hlater : tables.Later tables') :
    tables'.Has tokenId tokenHash := by
  obtain ⟨row, hrow, hid, hhash⟩ := h
  obtain ⟨row', hrow', hid', hhash', -⟩ := hlater.rows row hrow
  exact ⟨row', hrow', hid'.trans hid, hhash'.trans hhash⟩

theorem Tables.Spent.later (h : tables.Spent tokenHash) (hlater : tables.Later tables') :
    tables'.Spent tokenHash := by
  obtain ⟨row, hrow, hhash, hrevoked⟩ := h
  obtain ⟨row', hrow', -, hhash', hrevoked'⟩ := hlater.rows row hrow
  exact ⟨row', hrow', hhash'.trans hhash, hrevoked' hrevoked⟩

/-- Revoking a row by its id. -/
theorem Tables.Has.spent (h : tables.Has tokenId tokenHash) (clock : ℤ) :
    (tables.revoke clock fun row => row.id = tokenId).Spent tokenHash := by
  obtain ⟨row, hrow, hid, hhash⟩ := h
  refine ⟨_, List.mem_map_of_mem hrow, ?_⟩
  rw [if_pos hid]
  exact ⟨hhash, by simp⟩

/-- **The check finds out** that a token is revoked. -/
theorem Tables.Spent.revoked (h : tables.Spent tokenHash)
    (hhashes : (tables.tokens.map (·.tokenHash)).Nodup)
    (hfind : (tables.tokens.find? fun row => row.tokenHash = tokenHash) = some row) :
    row.revokedAt ≠ none := by
  obtain ⟨other, hother, hhash, hrevoked⟩ := h
  have hrow : row.tokenHash = tokenHash := by simpa using find?_some hfind
  have heq : row = other :=
    inj_on_of_nodup_map hhashes (mem_of_find?_eq_some hfind) hother
    (hrow.trans hhash.symm)
  rw [heq]
  exact hrevoked

end tables

/-! ## Where a request stands -/

/-- How far a request has come. -/
inductive Stage where
  | arrived
  | checked (row : RefreshToken)
  | reused (row : RefreshToken)
  | revoked (userId : String)
  | inserting (userId access : String) (user : Option User) (now : ℤ)
  | answered (result : Except AuthError RefreshReply)

/-- The rest of the program. -/
def Stage.program (auth : AuthEnv) (request : RefreshRequest) :
    Stage → Program (Except AuthError RefreshReply)
  | .arrived => refresh auth request
  | .checked row => exchange auth request row
  | .reused row => detectReuse row
  | .revoked userId => renew auth request userId
  | .inserting userId access user now => answer auth request userId access user now
  | .answered result => .done result

/-- The request has passed the check, and has not answered yet. -/
def Stage.Open : Stage → Prop
  | .checked _ | .revoked _ | .inserting _ _ _ _ => True
  | .arrived | .reused _ | .answered _ => False

section stages

variable {ι : Type} [DecidableEq ι] (system : RefreshSystem ι)

/-- **What a call of a request can do.** -/
inductive Called (i : ι) (fault : Fault) (now : ℤ) (s s' : State ι) : Stage → Stage → Prop
  /-- It reports an error; the statement may have taken effect, but has inserted nothing. -/
  | ends {stage : Stage} (err : AuthError) (hissued : s'.issued = s.issued) :
      Called i fault now s s' stage (.answered (.error err))
  | passes {token : String} {row : RefreshToken} (hcookie : (system.request i).cookie = some token)
      (hfind : (s.tables.tokens.find? fun row => row.tokenHash = system.auth.sha256Hex token) =
        some row)
      (hrevoked : row.revokedAt = none) (hfault : fault = .none) (hpasses : s.passes i now)
      (hissued : s'.issued = s.issued) : Called i fault now s s' .arrived (.checked row)
  | detects {row : RefreshToken} (hissued : s'.issued = s.issued) :
      Called i fault now s s' .arrived (.reused row)
  | revokes {row : RefreshToken} (clock : ℤ)
      (htables : s'.tables = s.tables.revoke clock fun other => other.id = row.id)
      (hissued : s'.issued = s.issued) : Called i fault now s s' (.checked row) (.revoked row.userId)
  | signs {userId access : String} {user : Option User} (hissued : s'.issued = s.issued) :
      Called i fault now s s' (.revoked userId) (.inserting userId access user now)
  | issues {userId access : String} {user : Option User} {past : ℤ}
      {result : Except AuthError RefreshReply} (hissued : s'.issued = s.issued ++ [i]) :
      Called i fault now s s' (.inserting userId access user past) (.answered result)

/-- A call takes the request from its stage to another one. -/
abbrev Advances (i : ι) (fault : Fault) (now : ℤ) (s s' : State ι) (stage : Stage) : Prop :=
  ∃ stage', s'.programs = update s.programs i (stage'.program system.auth (system.request i)) ∧
    Called system i fault now s s' stage stage'

variable {system} {s s' : State ι} {i : ι} {fault : Fault} {clock now : ℤ} {id : String}

/-- A step of a request that waits for a statement. -/
theorem step_await {call : AuthCall}
    {resume : AuthReply call → ℤ → Program (Except AuthError RefreshReply)}
    (h : s.programs i = .await call resume) :
    s.step (.call i fault clock now id) = some
      { tables := (exec clock id fault call s.tables).2
        programs := update s.programs i
          (resume (exec clock id fault call s.tables).1 now)
        issued :=
          if fault.takesEffect ∧ inserts call (perform clock id call s.tables).1 then s.issued ++ [i]
          else s.issued } := by
  simp only [State.step, h]

/-- A request that reports an error. -/
theorem ends_of {stage : Stage} {program : Program (Except AuthError RefreshReply)}
    (err : AuthError) (hprograms : s'.programs = update s.programs i program)
    (hprogram : program = .done (.error err)) (hissued : s'.issued = s.issued) :
    Advances system i fault now s s' stage := by
  refine ⟨.answered (.error err), ?_, .ends err hissued⟩
  rw [hprograms, hprogram]
  rfl

/-- The check. -/
theorem called_arrived (hprogram : s.programs i = Stage.arrived.program system.auth (system.request i))
    (h : s.step (.call i fault clock now id) = some s') :
    Advances system i fault now s s' .arrived := by
  cases hcookie : (system.request i).cookie with
  | none =>
    have hdone : s.programs i = .done (.error (.unauthorized "no refresh token")) := by
      rw [hprogram]
      unfold Stage.program refresh
      rw [hcookie]
    simp [State.step, hdone] at h
  | some token =>
    have hawait : s.programs i = .await (.selectToken (system.auth.sha256Hex token))
        (checkToken system.auth (system.request i)) := by
      rw [hprogram]
      unfold Stage.program refresh
      rw [hcookie]
    rw [step_await hawait, some.injEq] at h
    subst h
    have hissued : ∀ reply, inserts (.selectToken (system.auth.sha256Hex token)) reply = false :=
      fun _ => rfl
    cases fault with
    | fails err | replyLost err =>
      exact ends_of (.unauthorized "invalid refresh token") rfl rfl (by simp [hissued])
    | none =>
      cases hfind : s.tables.tokens.find?
          fun row => row.tokenHash = system.auth.sha256Hex token with
      | none =>
        refine ends_of (.unauthorized "invalid refresh token") rfl ?_ (by simp [hissued])
        simp [exec, perform, hfind, checkToken]
      | some row =>
        by_cases hrevoked : row.revokedAt = none
        · by_cases hexpired : row.expiresAt < now
          · refine ends_of (.unauthorized "refresh token expired") rfl ?_ (by simp [hissued])
            simp [exec, perform, hfind, checkToken, hrevoked, hexpired]
          · refine ⟨.checked row, ?_, ?_⟩
            · simp [exec, perform, hfind, checkToken, hrevoked, hexpired, Stage.program]
            · refine .passes hcookie hfind hrevoked rfl ?_ (by simp [hissued])
              unfold State.passes
              rw [hawait]
              simpa [Coroutine.pending?, Tables.passes, hfind, hrevoked] using hexpired
        · refine ⟨.reused row, ?_, .detects (by simp [hissued])⟩
          simp [exec, perform, hfind, checkToken, hrevoked, Stage.program]

/-- The revocation. -/
theorem called_checked
    (hprogram : s.programs i = (Stage.checked row).program system.auth (system.request i))
    (h : s.step (.call i fault clock now id) = some s') :
    Advances system i fault now s s' (.checked row) := by
  rw [step_await hprogram, some.injEq] at h
  subst h
  have hissued : ∀ reply, inserts (.revokeToken row.id) reply = false := fun _ => rfl
  cases fault with
  | fails err | replyLost err => exact ends_of err rfl rfl (by simp [hissued])
  | none => exact ⟨.revoked row.userId, rfl, .revokes clock rfl (by simp [hissued])⟩

/-- The revocation of all tokens, when one is used again. -/
theorem called_reused
    (hprogram : s.programs i = (Stage.reused row).program system.auth (system.request i))
    (h : s.step (.call i fault clock now id) = some s') :
    Advances system i fault now s s' (.reused row) := by
  rw [step_await hprogram, some.injEq] at h
  subst h
  have hissued : ∀ reply, inserts (.revokeUser row.userId) reply = false := fun _ => rfl
  exact ends_of (.unauthorized "refresh token reuse detected") rfl rfl (by simp [hissued])

/-- The user, and the access token. -/
theorem called_revoked {userId : String}
    (hprogram : s.programs i = (Stage.revoked userId).program system.auth (system.request i))
    (h : s.step (.call i fault clock now id) = some s') :
    Advances system i fault now s s' (.revoked userId) := by
  rw [step_await hprogram, some.injEq] at h
  subst h
  have hissued : ∀ reply, inserts (.selectUser userId) reply = false := fun _ => rfl
  cases fault with
  | fails err | replyLost err => exact ends_of err rfl rfl (by simp [hissued])
  | none =>
    cases hsign : system.auth.signAccessToken
        (s.tables.users.find? fun user => user.id = userId) now with
    | error err =>
      refine ends_of (.other err) rfl ?_ (by simp [hissued])
      simp [exec, perform, hsign]
    | ok access =>
      refine ⟨.inserting userId access (s.tables.users.find? fun user => user.id = userId) now,
        ?_, .signs (by simp [hissued])⟩
      simp [exec, perform, hsign, Stage.program]

/-- The new token. -/
theorem called_inserting {userId access : String} {user : Option User} {past : ℤ}
    (hprogram : s.programs i =
      (Stage.inserting userId access user past).program system.auth (system.request i))
    (h : s.step (.call i fault clock now id) = some s') :
    Advances system i fault now s s' (.inserting userId access user past) := by
  rw [step_await hprogram, some.injEq] at h
  subst h
  cases fault with
  | fails err => exact ends_of err rfl rfl (by simp [Fault.takesEffect])
  | replyLost err =>
    cases hinsert : (s.tables.insertToken ⟨id, userId,
        system.auth.sha256Hex (system.request i).randomToken, none, past + refreshTTL⟩).1 with
    | error _ => exact ends_of err rfl rfl (by simp [perform, hinsert, inserts])
    | ok _ =>
      exact ⟨.answered (.error err), rfl,
        .issues (by simp [perform, hinsert, inserts, Fault.takesEffect])⟩
  | none =>
    cases hinsert : (s.tables.insertToken ⟨id, userId,
        system.auth.sha256Hex (system.request i).randomToken, none, past + refreshTTL⟩).1 with
    | error err =>
      refine ends_of err rfl ?_ (by simp [perform, hinsert, inserts])
      simp [exec, perform, hinsert]
    | ok _ =>
      refine ⟨.answered (.ok ⟨(system.request i).randomToken, access, user⟩), ?_,
        .issues (by simp [perform, hinsert, inserts, Fault.takesEffect])⟩
      simp [exec, perform, hinsert, Stage.program]

/-- **A call of a request**, wherever it stands. -/
theorem called_of_step {stage : Stage}
    (hprogram : s.programs i = stage.program system.auth (system.request i))
    (h : s.step (.call i fault clock now id) = some s') :
    Advances system i fault now s s' stage := by
  cases stage with
  | arrived => exact called_arrived hprogram h
  | checked row => exact called_checked hprogram h
  | reused row => exact called_reused hprogram h
  | revoked userId => exact called_revoked hprogram h
  | inserting userId access user past => exact called_inserting hprogram h
  | answered result =>
    have hdone : s.programs i = .done result := hprogram
    simp [State.step, hdone] at h

/-- **No step undoes** what no statement undoes. -/
theorem later_step {e : Event ι} (h : s.step e = some s') : s.tables.Later s'.tables := by
  cases e with
  | call i fault clock now id =>
    cases hprogram : s.programs i with
    | done result => simp [State.step, hprogram] at h
    | await call resume =>
      rw [step_await hprogram, some.injEq] at h
      subst h
      exact later_exec clock id fault call s.tables
  | other statement clock id =>
    cases h
    exact later_perform clock id statement s.tables
  | saveUser user =>
    cases h
    exact .of_tokens rfl

end stages

/-! ## The invariant -/

section invariant

variable {ι : Type} [DecidableEq ι] (system : RefreshSystem ι)

/-- The token of the request is revoked. -/
def RefreshSystem.Used (tables : Tables) (i : ι) : Prop :=
  ∃ token, (system.request i).cookie = some token ∧ tables.Spent (system.auth.sha256Hex token)

/-- The row with this id is that of the token of the request. -/
def RefreshSystem.Carries (tables : Tables) (i : ι) (row : RefreshToken) : Prop :=
  ∃ token, (system.request i).cookie = some token ∧
    tables.Has row.id (system.auth.sha256Hex token)

/-- **What holds of a request in a stage**; `issued` says that its new token has been inserted. -/
def RefreshSystem.Party (tables : Tables) (i : ι) (issued : Prop) : Stage → Prop
  | .arrived | .reused _ => ¬ issued
  | .checked row => ¬ issued ∧ system.Carries tables i row
  | .revoked _ | .inserting _ _ _ _ => ¬ issued ∧ system.Used tables i
  | .answered (.ok _) => issued ∧ system.Used tables i
  | .answered (.error _) => issued → system.Used tables i

/-- The request has passed the check, and may issue a token or has issued one. -/
def Holds (s : State ι) (stages : ι → Stage) (i : ι) : Prop := (stages i).Open ∨ i ∈ s.issued

/-- **What holds in every state reached** in the stages that the requests have come to. -/
structure Invariant (s : State ι) (stages : ι → Stage) : Prop where
  programs : ∀ i, s.programs i = (stages i).program system.auth (system.request i)
  hashes : (s.tables.tokens.map (·.tokenHash)).Nodup
  party : ∀ i, system.Party s.tables i (i ∈ s.issued) (stages i)
  nodup : s.issued.Nodup
  exclusive : ∀ i j token, (system.request i).cookie = some token →
    (system.request j).cookie = some token → Holds s stages i → Holds s stages j → i = j

variable {system} {s s' : State ι} {stages : ι → Stage} {stage stage' : Stage} {i : ι}
  {tables tables' : Tables} {issued : Prop} {fault : Fault} {now : ℤ}

theorem RefreshSystem.Used.later (h : system.Used tables i) (hlater : tables.Later tables') :
    system.Used tables' i := by
  obtain ⟨token, hcookie, hspent⟩ := h
  exact ⟨token, hcookie, hspent.later hlater⟩

/-- A request stays in its stage when the tables move on. -/
theorem RefreshSystem.Party.later (h : system.Party tables i issued stage)
    (hlater : tables.Later tables') : system.Party tables' i issued stage := by
  cases stage with
  | arrived | reused row => exact h
  | checked row =>
    obtain ⟨hissued, token, hcookie, hhas⟩ := h
    exact ⟨hissued, token, hcookie, hhas.later hlater⟩
  | revoked userId | inserting userId access user past => exact ⟨h.1, h.2.later hlater⟩
  | answered result =>
    cases result with
    | ok reply => exact ⟨h.1, h.2.later hlater⟩
    | error err => exact fun hissued => (h hissued).later hlater

/-- A request that has issued a token has used the one it carries. -/
theorem RefreshSystem.Party.used (h : system.Party tables i issued stage) (hissued : issued) :
    system.Used tables i := by
  cases stage with
  | arrived | reused row => exact absurd hissued h
  | checked row => exact absurd hissued h.1
  | revoked userId | inserting userId access user past => exact h.2
  | answered result =>
    cases result with
    | ok reply => exact h.2
    | error err => exact h hissued

/-- **A request that holds its token** is about to revoke it, or the token is revoked. -/
theorem RefreshSystem.Party.checked_or_used (h : system.Party tables i issued stage)
    (hholds : stage.Open ∨ issued) : (∃ row, stage = .checked row) ∨ system.Used tables i := by
  rcases hholds with hopen | hissued
  · cases stage with
    | arrived | reused row | answered result => exact absurd hopen id
    | checked row => exact .inl ⟨row, rfl⟩
    | revoked userId | inserting userId access user past => exact .inr h.2
  · exact .inr (h.used hissued)

section

variable (h : Called system i fault now s s' stage stage')

include h

/-- A call inserts nothing, or it inserts the token of its request. -/
theorem Called.issued_eq : s'.issued = s.issued ∨
      (s'.issued = s.issued ++ [i] ∧ ∃ userId access user past,
        stage = .inserting userId access user past) := by
  cases h with
  | issues hissued => exact .inr ⟨hissued, _, _, _, _, rfl⟩
  | ends _ hissued | passes _ _ _ _ _ hissued | detects hissued => exact .inl hissued
  | revokes _ _ hissued | signs hissued => exact .inl hissued

/-- **What holds of the request after its call.** -/
theorem Called.party
    (hparty : system.Party s.tables i (i ∈ s.issued) stage) (hlater : s.tables.Later s'.tables) :
    system.Party s'.tables i (i ∈ s'.issued) stage' := by
  cases h with
  | ends err hissued =>
    intro hmem
    rw [hissued] at hmem
    exact (hparty.used hmem).later hlater
  | @passes token row hcookie hfind hrevoked hfault hpasses hissued =>
    rw [hissued]
    have hhash : row.tokenHash = system.auth.sha256Hex token := by
      simpa using find?_some hfind
    have hhas : s.tables.Has row.id (system.auth.sha256Hex token) :=
      ⟨row, mem_of_find?_eq_some hfind, rfl, hhash⟩
    exact ⟨hparty, token, hcookie, hhas.later hlater⟩
  | detects hissued =>
    rw [hissued]
    exact hparty
  | revokes clock htables hissued =>
    obtain ⟨hnew, token, hcookie, hhas⟩ := hparty
    rw [hissued, htables]
    exact ⟨hnew, token, hcookie, hhas.spent clock⟩
  | signs hissued =>
    rw [hissued]
    exact ⟨hparty.1, hparty.2.later hlater⟩
  | @issues userId access user past result hissued =>
    cases result with
    | ok reply => exact ⟨by simp [hissued], hparty.2.later hlater⟩
    | error err => exact fun _ => hparty.2.later hlater

/-- **A request comes to hold its token by the check only.** -/
theorem Called.holds (hholds : stage'.Open ∨ i ∈ s'.issued) : (stage.Open ∨ i ∈ s.issued) ∨
      (fault = .none ∧ s.passes i now ∧ ∃ token row, (system.request i).cookie = some token ∧
        (s.tables.tokens.find? fun row => row.tokenHash = system.auth.sha256Hex token) = some row ∧
        row.revokedAt = none) := by
  cases h with
  | ends err hissued =>
    rw [hissued] at hholds
    exact .inl (.inr (hholds.resolve_left id))
  | passes hcookie hfind hrevoked hfault hpasses hissued =>
    exact .inr ⟨hfault, hpasses, _, _, hcookie, hfind, hrevoked⟩
  | detects hissued =>
    rw [hissued] at hholds
    exact .inl (.inr (hholds.resolve_left id))
  | revokes clock htables hissued | signs hissued | issues hissued => exact .inl (.inl trivial)

end

/-- The invariant holds at the start. -/
theorem invariant_initial : Invariant system system.initial fun _ => .arrived where
  programs _ := rfl
  hashes := system.hashes
  party _ := not_mem_nil
  nodup := nodup_nil
  exclusive _ _ _ _ _ hi _ := absurd hi (by simp [Holds, Stage.Open, RefreshSystem.initial])

section

variable (h : Invariant system s stages)

include h

/-- What others do keeps the invariant. -/
theorem Invariant.of_later (hlater : s.tables.Later s'.tables)
    (hprograms : s'.programs = s.programs) (hissued : s'.issued = s.issued) :
    Invariant system s' stages where
  programs := by
    rw [hprograms]
    exact h.programs
  hashes := hlater.hashes h.hashes
  party i := by
    rw [hissued]
    exact (h.party i).later hlater
  nodup := by
    rw [hissued]
    exact h.nodup
  exclusive := by
    unfold Holds
    rw [hissued]
    exact h.exclusive

/-- **No other request holds the token** that a request has passed the check with. -/
theorem Invariant.not_holds {j : ι} {token : String}
    (hcookie : (system.request j).cookie = some token)
    (hfind : (s.tables.tokens.find? fun row => row.tokenHash = system.auth.sha256Hex token) =
      some row)
    (hrevoked : row.revokedAt = none) (hchecked : ¬ s.checked j) : ¬ Holds s stages j := by
  intro hholds
  rcases (h.party j).checked_or_used hholds with ⟨other, hstage⟩ | ⟨token', hcookie', hspent⟩
  · apply hchecked
    unfold State.checked
    rw [h.programs j, hstage]
    rfl
  · rw [hcookie, some.injEq] at hcookie'
    subst hcookie'
    exact hspent.revoked h.hashes hfind hrevoked

/-- **A call of a request keeps the invariant.** -/
theorem Invariant.call {clock : ℤ} {id : String}
    (hprograms : s'.programs = update s.programs i (stage'.program system.auth (system.request i)))
    (hcalled : Called system i fault now s s' (stages i) stage')
    (hlater : s.tables.Later s'.tables) (halone : system.Alone s (.call i fault clock now id)) :
    Invariant system s' (update stages i stage') := by
  have hothers : ∀ j ≠ i, j ∈ s'.issued ↔ j ∈ s.issued := by
    intro j hj
    rcases hcalled.issued_eq with heq | ⟨heq, -⟩
    · rw [heq]
    · simp [heq, hj]
  have hnew : Holds s' (update stages i stage') i → Holds s stages i ∨
      ∀ j token, j ≠ i → (system.request i).cookie = some token →
        (system.request j).cookie = some token → ¬ Holds s stages j := by
    intro hholds
    unfold Holds at hholds
    rw [update_self] at hholds
    rcases hcalled.holds hholds with hold | ⟨rfl, hpasses, token, row, hcookie, hfind, hrevoked⟩
    · exact .inl hold
    · right
      intro j token' hj hi hcookie'
      rw [hcookie, some.injEq] at hi
      subst hi
      exact h.not_holds hcookie' hfind hrevoked (halone hpasses j hj (hcookie'.trans hcookie.symm))
  have hold : ∀ j ≠ i, Holds s' (update stages i stage') j → Holds s stages j := by
    intro j hj hholds
    unfold Holds at hholds
    rw [update_of_ne hj, hothers j hj] at hholds
    exact hholds
  refine ⟨?_, hlater.hashes h.hashes, ?_, ?_, ?_⟩
  · intro j
    rw [hprograms]
    by_cases hj : j = i
    · subst hj
      rw [update_self, update_self]
    · rw [update_of_ne hj, update_of_ne hj]
      exact h.programs j
  · intro j
    by_cases hj : j = i
    · subst hj
      rw [update_self]
      exact hcalled.party (h.party j) hlater
    · rw [update_of_ne hj, hothers j hj]
      exact (h.party j).later hlater
  · rcases hcalled.issued_eq with heq | ⟨heq, _, _, _, _, hstage⟩
    · rw [heq]
      exact h.nodup
    · have hfresh : i ∉ s.issued := by
        have hparty := h.party i
        rw [hstage] at hparty
        exact hparty.1
      rw [heq]
      exact h.nodup.append (nodup_singleton i) (by simpa using hfresh)
  · intro j k token hj hk hholdsj hholdsk
    by_cases hji : j = i
    · by_cases hki : k = i
      · exact hji.trans hki.symm
      · subst hji
        rcases hnew hholdsj with hheld | hnone
        · exact h.exclusive j k token hj hk hheld (hold k hki hholdsk)
        · exact absurd (hold k hki hholdsk) (hnone k token hki hj hk)
    · by_cases hki : k = i
      · subst hki
        rcases hnew hholdsk with hheld | hnone
        · exact h.exclusive j k token hj hk (hold j hji hholdsj) hheld
        · exact absurd (hold j hji hholdsj) (hnone j token hji hk hj)
      · exact h.exclusive j k token hj hk (hold j hji hholdsj) (hold k hki hholdsk)

/-- **Every step under the condition keeps the invariant.** -/
theorem Invariant.step {e : Event ι} (halone : system.Alone s e)
    (hstep : s.step e = some s') : ∃ stages', Invariant system s' stages' := by
  have hlater := later_step hstep
  cases e with
  | call i fault clock now id =>
    obtain ⟨stage', hprograms, hcalled⟩ := called_of_step (h.programs i) hstep
    exact ⟨_, h.call hprograms hcalled hlater halone⟩
  | other statement clock id | saveUser user =>
    cases hstep
    exact ⟨stages, h.of_later hlater rfl rfl⟩

end

/-- A request that has answered with a token has come to the end. -/
theorem answered_of_value {auth : AuthEnv} {request : RefreshRequest} {reply : RefreshReply}
    (h : (stage.program auth request).value? = some (.ok reply)) :
    stage = .answered (.ok reply) := by
  cases stage with
  | arrived =>
    unfold Stage.program refresh at h
    cases hcookie : request.cookie with
    | none | some token => simp [hcookie, Coroutine.value?] at h
  | checked row | reused row | revoked userId | inserting userId access user past => cases h
  | answered result =>
    cases h
    rfl

/-- The invariant gives the claim. -/
theorem Invariant.singleUse (h : Invariant system s stages) : system.SingleUse s := by
  have hholds : ∀ i, s.Issues i → Holds s stages i := by
    rintro i (hissued | ⟨reply, hreply⟩)
    · exact .inr hissued
    · rw [h.programs i] at hreply
      have hparty := h.party i
      rw [answered_of_value hreply] at hparty
      exact .inr hparty.1
  refine ⟨h.nodup, ?_⟩
  intro i j token hi hj hissuesi hissuesj
  exact h.exclusive i j token hi hj (hholds i hissuesi) (hholds j hissuesj)

end invariant

/-! ## Single use -/

/-- **Refresh tokens are single use in every run in which no request passes the check while another
one with the same token is between its check and its revocation.** -/
theorem single_use_of_run {ι : Type} [DecidableEq ι] (system : RefreshSystem ι)
    {es : List (Event ι)} {s : State ι}
    (h : Run State.step (fun _ => system.Alone) system.initial es s) :
    system.SingleUse s := by
  obtain ⟨stages, hinvariant⟩ : ∃ stages, Invariant system s stages := by
    refine h.invariant (I := fun _ s => ∃ stages, Invariant system s stages)
      ⟨_, invariant_initial⟩ ?_
    rintro es s e s' ⟨stages, hinvariant⟩ halone hstep
    exact hinvariant.step halone hstep
  exact hinvariant.singleUse

/-- Two requests with one token. -/
def twoRequests : RefreshSystem (Fin 2) where
  auth := ⟨fun token => token ++ "#", fun _ _ => .ok "access"⟩
  request i := ⟨some "token", if i = 0 then "first" else "second"⟩
  tables := ⟨[⟨"1", "user", "token#", none, 100⟩], [⟨"user", "tenant", "a@b.c", "owner", true⟩]⟩
  hashes := by decide

/-- One request after the other: the second one finds out that the token has been used. -/
theorem single_use_of_run_sequential : ∃ s, (∃ es, Run State.step (fun _ => twoRequests.Alone)
    twoRequests.initial es s) ∧ s.issued = [0] ∧ twoRequests.SingleUse s := by
  obtain ⟨s, hrun, hissued⟩ : ∃ s, Run State.step (fun _ => twoRequests.Alone) twoRequests.initial
      [.call 0 .none 1 1 "2", .call 0 .none 2 2 "3", .call 0 .none 3 3 "4", .call 0 .none 4 4 "5",
        .call 1 .none 5 5 "6", .call 1 .none 6 6 "7"] s ∧ s.issued = [0] :=
    exists_run_of_guarded (by decide)
  exact ⟨s, ⟨_, hrun⟩, hissued, single_use_of_run twoRequests hrun⟩

/-- **Two requests pass the check before the first revokes the token, and both issue a new one.** -/
theorem both_issue : ¬ ∀ (es : List (Event (Fin 2))) (s : State (Fin 2)),
    Run State.step Any twoRequests.initial es s → twoRequests.SingleUse s := by
  intro h
  obtain ⟨s, hrun, hissued⟩ : ∃ s, Run State.step Any twoRequests.initial
      [.call 0 .none 1 1 "2", .call 1 .none 2 2 "3", .call 0 .none 3 3 "4", .call 1 .none 4 4 "5",
        .call 0 .none 5 5 "6", .call 1 .none 6 6 "7", .call 0 .none 7 7 "8", .call 1 .none 8 8 "9"] s ∧
      s.issued = [0, 1] :=
    exists_run_of_check (fun _ _ _ _ => trivial) (by decide)
  have heq := (h _ s hrun).unique 0 1 "token" rfl rfl (.inl (by simp [hissued]))
    (.inl (by simp [hissued]))
  exact absurd heq (by decide)

end Dataflow.Api.RefreshTokens
