import Dataflow.Activities.Payloads
import Dataflow.Api.RetryInputs
import Dataflow.Model.Unmarshal

/-!
# Webhooks

A request to a path fires a pipeline whose trigger is a webhook on this path. The body of the
request is decoded, encoded again, and the code of this text with the secret of the pipeline is the
signature.

* `decodeRune`, `decodeJSON`, `hexDecode`: how a body and a signature are read.
* `Hook`, `Hooks`, `Hooks.Selects`: the rows of pipelines, and the rows that the query may give.
* `prepareFire`, `webhookTrigger`: the code, up to `fireExecution` and with it.
* `exists_selects_head`: any pipeline may come first, unless another one is in production and it is
  not.
* `fires_iff`: the pipeline that comes first is fired, if the request is signed with its secret.
* `webhook_reaches_iff`: **main result**: requests reach the pipelines they are signed for, and no
  others, iff no other pipeline on the path may come first.
* `collision`: two tenants use one path.

Source: `routes_triggers.go` `webhookTrigger`, `http.go` `decodeJSON`
-/

namespace Dataflow.Api.Webhooks

open Activities Api.Retries Library Library.Base64 Model List

/-! ## Bytes -/

/-- The six bits of a byte of a rune after the first. -/
def continuation (b : BitVec 8) : Option ℕ :=
  if 0x80 ≤ b.toNat ∧ b.toNat < 0xC0 then some (b.toNat - 0x80) else none

/-- The number of bytes after the first, by the first one. -/
def runeTail (b : ℕ) : ℕ :=
  if b < 0xC0 then 0 else if b < 0xE0 then 1 else if b < 0xF0 then 2 else if b < 0xF8 then 3 else 0

/-- The least code of a rune, by the number of bytes after the first. -/
def leastRune : ℕ → ℕ
  | 0 => 0
  | 1 => 0x80
  | 2 => 0x800
  | _ => 0x10000

/-- The rune at the start, and its number of bytes; a byte that starts none is replaced.
Source: `utf8.DecodeRune`. -/
def decodeRune (b : BitVec 8) (rest : Bytes) : Char × ℕ :=
  if b.toNat < 0x80 then (.ofNat b.toNat, 1)
  else
    let more := runeTail b.toNat
    match (rest.take more).mapM continuation with
    | none => (.ofNat 0xFFFD, 1)
    | some bits =>
      let code := bits.foldl (fun code bits => code * 64 + bits) (b.toNat % 2 ^ (6 - more))
      if 0 < more ∧ bits.length = more ∧ leastRune more ≤ code ∧ code.isValidChar then
        (.ofNat code, more + 1)
      else (.ofNat 0xFFFD, 1)

/-- The runes of bytes. -/
def runes : (fuel : ℕ) → Bytes → List Char
  | 0, _ | _, [] => []
  | fuel + 1, b :: rest =>
    (decodeRune b rest).1 :: runes fuel (rest.drop ((decodeRune b rest).2 - 1))

/-- Source: `hex.DecodeString`. -/
def hexDecode : List Char → Option Bytes
  | [] => some []
  | [_] => none
  | high :: low :: rest => do
      let high ← hexOf high
      let low ← hexOf low
      let bytes ← hexDecode rest
      return .ofNat 8 (high * 16 + low) :: bytes

/-! ## Rows -/

/-- A row of `pipelines`. `path` and `secret` are those of the trigger of the definition. -/
structure Hook where
  id : String
  tenantId : String
  environment : String
  status : String := "active"
  definition : PipelineDefinition
  path : String
  secret : String
  deriving DecidableEq

/-- The `WHERE` of the query. -/
def Hook.On (hook : Hook) (path : String) : Prop :=
  hook.status = "active" ∧ hook.definition.triggerType = "webhook" ∧ hook.path = path

instance (hook : Hook) (path : String) : Decidable (hook.On path) :=
  inferInstanceAs (Decidable (_ ∧ _ ∧ _))

/-- `environment='prod'` -/
def Hook.InProd (hook : Hook) : Prop := hook.environment = "prod"

instance : DecidablePred Hook.InProd := fun _ => inferInstanceAs (Decidable (_ = _))

/-- The table, of all tenants and environments. -/
structure Hooks where
  table : List Hook
  ids : (table.map (·.id)).Nodup

/-- The active pipelines on a path. -/
def Hooks.on (hooks : Hooks) (path : String) : List Hook := hooks.table.filter (·.On path)

/-- The rows that the query may give: those in production come first, in any order.
Source: `ORDER BY (environment='prod') DESC`. -/
structure Hooks.Selects (hooks : Hooks) (path : String) (rows : List Hook) : Prop where
  perm : rows.Perm (hooks.on path)
  order : rows.Pairwise fun row next => next.InProd → row.InProd

/-! ## The code -/

/-- What the server is configured with, and its libraries: `parse` reads a number, and `hmac` is
HMAC-SHA256. -/
structure HookServer where
  gcm : GCM
  codec : JsonCodec
  payloads : Payloads
  parse : List Char → Option ℚ
  parse_text : ∀ value, parse (codec.numbers.text value).toList = some value
  hmac : (key message : Bytes) → Bytes

/-- A request; an absent signature is empty. -/
structure HookRequest where
  path : String
  body : Bytes
  signature : String

/-- An error, with its status if it is answered to the client. -/
inductive HookError where
  | status (code : ℕ) (message : String)
  | other (message : String)
  deriving DecidableEq

section code

variable (server : HookServer) (request : HookRequest)

/-- The texts of numbers. -/
def HookServer.numberCodec : NumberCodec where
  toNumberTexts := server.codec.numbers
  parse := server.parse
  parse_text := server.parse_text

/-- The first value of a body of which 5 MiB are read, as a map; `null` is a map too.
Source: `http.go` `decodeJSON`. -/
def decodeJSON : Option Json :=
  let bytes := request.body.take (5 * 2 ^ 20)
  let text := runes bytes.length bytes
  match readValue server.numberCodec (text.length + 1) maxNestingDepth text with
  | some (.object fields, _) => some (.object fields)
  | some (.null, _) => some .null
  | _ => none

/-- The encoding of the body that is signed. -/
def canonical (body : Json) : String := marshal server.codec.numbers body

/-- The signature is that of the body with a secret. -/
def Verified (secret : String) (body : Json) : Prop :=
  hexDecode request.signature.toList =
    some (server.hmac (textBytes secret) (textBytes (canonical server body)))

instance (secret : String) (body : Json) : Decidable (Verified server request secret body) :=
  inferInstanceAs (Decidable (_ = _))

variable (replies : WriteReplies)

/-- `Payloads.Write` of a large body; a small one is not written. -/
def writePayload (hook : Hook) (body : Json) : Except String DataRef :=
  if (canonical server body).utf8ByteSize ≤ 4096 then .ok {}
  else (payloadsWrite server.gcm server.codec server.payloads replies body hook.tenantId []).map (·.1)

/-- `webhookTrigger` up to `fireExecution`, by the rows that the query gives. -/
def prepareFire (rows : Except String (List Hook)) : Except HookError FireRequest :=
  match rows with
  | .error err => .error (.other err)
  | .ok [] => .error (.status 404 "no active pipeline on this hook")
  | .ok (row :: _) =>
    match decodeJSON server request with
    | none => .error (.status 400 "invalid JSON body")
    | some body =>
      if Verified server request row.secret body then
        match writePayload server replies row body with
        | .error err => .error (.other err)
        | .ok written =>
          .ok (webhookRequest (fun text => stdEncoding.encodeToString (textBytes text))
          row.definition row.id row.tenantId row.environment (canonical server body) written)
      else .error (.status 401 "bad signature")

/-- The answer after `fireExecution`. -/
def answerFire : Except ApiError String → Except HookError String
  | .ok executionId => .ok executionId
  | .error (.quotaExceeded _ _) => .error (.status 402 "Quota exceeded")
  | .error (.other message) => .error (.other message)

/-- Source: `routes_triggers.go` `webhookTrigger`; the answer is the id of the execution. -/
def webhookTrigger (minted : Minted) (rows : Except String (List Hook)) :
    Program (Except HookError String) :=
  match prepareFire server request replies rows with
  | .error err => .done (.error err)
  | .ok fire => (fireExecution fire minted).bind fun result => .done (answerFire result)

/-- **The request fires the pipeline**: `fireExecution` is called for its row and its definition. -/
def Fires (rows : List Hook) (hook : Hook) : Prop :=
  ∃ fire, prepareFire server request replies (.ok rows) = .ok fire ∧
    fire.pipelineRowId = hook.id ∧ fire.definition = hook.definition

/-- The request is signed with the secret of the pipeline. -/
def Signed (hook : Hook) : Prop :=
  ∃ body, decodeJSON server request = some body ∧ Verified server request hook.secret body

/-- The payload of the request can be stored for the pipeline. -/
def Stores (hook : Hook) : Prop :=
  ∀ body, decodeJSON server request = some body →
    ∃ written, writePayload server replies hook body = .ok written

end code

/-! ## The rows that the query gives -/

section selects

variable {hooks : Hooks} {path : String} {rows : List Hook} {hook other : Hook}

theorem mem_on : hook ∈ hooks.on path ↔ hook ∈ hooks.table ∧ hook.On path := by
  simp [Hooks.on]

/-- Pipelines are told apart by their ids. -/
theorem eq_of_id (h : hook ∈ hooks.table) (h' : other ∈ hooks.table) (hid : hook.id = other.id) :
    hook = other :=
  inj_on_of_nodup_map hooks.ids h h' hid

/-- The pipelines in production before the others. -/
theorem pairwise_partition (rows : List Hook) :
    (rows.filter (·.InProd) ++ rows.filter (¬ ·.InProd)).Pairwise
      fun row next => next.InProd → row.InProd := by
  refine pairwise_append.mpr ⟨?_, ?_, ?_⟩
  · apply pairwise_of_forall_mem_list
    intro row hrow next _ _
    simpa using (mem_filter.mp hrow).2
  · apply pairwise_of_forall_mem_list
    intro row _ next hnext hprod
    have hnot : ¬ next.InProd := by simpa using (mem_filter.mp hnext).2
    exact absurd hprod hnot
  · intro row hrow next _ _
    simpa using (mem_filter.mp hrow).2

/-- Some rows are given. -/
theorem exists_selects (hooks : Hooks) (path : String) : ∃ rows, hooks.Selects path rows := by
  refine ⟨_, ?_, pairwise_partition (hooks.on path)⟩
  simpa using filter_append_perm (fun row => decide row.InProd) (hooks.on path)

/-- **Any pipeline may come first**, unless another one is in production and it is not. -/
theorem exists_selects_head (hhook : hook ∈ hooks.on path)
    (hfirst : hook.InProd ∨ ∀ other ∈ hooks.on path, ¬ other.InProd) :
    ∃ rows, hooks.Selects path (hook :: rows) := by
  have hperm : (((hooks.on path).erase hook).filter (·.InProd) ++
      ((hooks.on path).erase hook).filter (¬ ·.InProd)).Perm ((hooks.on path).erase hook) := by
    simpa using filter_append_perm (fun row => decide row.InProd) ((hooks.on path).erase hook)
  refine ⟨_, (hperm.cons hook).trans (perm_cons_erase hhook).symm, ?_⟩
  refine pairwise_cons.mpr ⟨?_, pairwise_partition _⟩
  intro next hnext hprod
  rcases hfirst with hin | hnone
  · exact hin
  · exact absurd hprod (hnone next (mem_of_mem_erase (hperm.subset hnext)))

end selects

/-! ## The pipeline that is fired -/

section fires

variable {server : HookServer} {hooks : Hooks} {request : HookRequest} {replies : WriteReplies}
  {rows : List Hook} {hook other : Hook}

/-- **What comes first is fired** exactly if the request is signed with its secret, and the payload
is stored. -/
theorem prepareFire_cons {row : Hook} :
    (∃ fire, prepareFire server request replies (.ok (row :: rows)) = .ok fire) ↔
      Signed server request row ∧ Stores server request replies row := by
  unfold Signed Stores prepareFire
  cases hbody : decodeJSON server request with
  | none => simp
  | some body =>
    by_cases hverified : Verified server request row.secret body
    · cases hwrite : writePayload server replies row body with
      | error err | ok written => simp [hverified, hwrite]
    · simp [hverified]

/-- A request that fires is for the pipeline that comes first. -/
theorem request_of_prepareFire {row : Hook} {fire : FireRequest}
    (h : prepareFire server request replies (.ok (row :: rows)) = .ok fire) :
    fire.pipelineRowId = row.id ∧ fire.definition = row.definition := by
  unfold prepareFire at h
  dsimp only at h
  cases hbody : decodeJSON server request with
  | none => simp [hbody] at h
  | some body =>
    rw [hbody] at h
    dsimp only at h
    split_ifs at h with hverified
    cases hwrite : writePayload server replies row body with
    | error err => simp [hwrite] at h
    | ok written =>
      rw [hwrite] at h
      cases h
      exact ⟨rfl, rfl⟩

/-- **A pipeline is fired** exactly if it comes first, the request is signed with its secret, and
the payload is stored. -/
theorem fires_iff (hselects : hooks.Selects request.path rows) (hhook : hook ∈ hooks.table) :
    Fires server request replies rows hook ↔
      rows.head? = some hook ∧ Signed server request hook ∧ Stores server request replies hook := by
  cases rows with
  | nil =>
    unfold Fires prepareFire
    simp
  | cons row rows =>
    have hrow : row ∈ hooks.table :=
      (mem_on.mp (hselects.perm.subset mem_cons_self)).1
    constructor
    · rintro ⟨fire, hfire, hid, -⟩
      have hrowId := (request_of_prepareFire hfire).1
      obtain rfl : row = hook := eq_of_id hrow hhook (hrowId.symm.trans hid)
      exact ⟨rfl, prepareFire_cons.mp ⟨fire, hfire⟩⟩
    · rintro ⟨hhead, hsigned⟩
      obtain rfl : row = hook := by simpa using hhead
      obtain ⟨fire, hfire⟩ := prepareFire_cons.mpr hsigned
      exact ⟨fire, hfire, request_of_prepareFire hfire⟩

/-- No other pipeline on the path may come before it. -/
def Unrivalled (hooks : Hooks) (path : String) (hook : Hook) : Prop :=
  ∀ other ∈ hooks.on path, other ≠ hook → hook.InProd ∧ ¬ other.InProd

/-- **A pipeline comes first in every order** exactly if no other one may come before it. -/
theorem forall_head_iff {path : String} (hhook : hook ∈ hooks.on path) :
    (∀ rows, hooks.Selects path rows → rows.head? = some hook) ↔ Unrivalled hooks path hook := by
  constructor
  · intro hfirst other hother hne
    -- A pipeline that may come first is this one.
    have honly : ∀ row ∈ hooks.on path, (row.InProd ∨ ∀ next ∈ hooks.on path, ¬ next.InProd) →
        row = hook := by
      intro row hrow hmay
      obtain ⟨rows, hselects⟩ := exists_selects_head hrow hmay
      simpa using hfirst _ hselects
    have hnot : ¬ other.InProd := fun hprod => hne (honly other hother (.inl hprod))
    refine ⟨?_, hnot⟩
    by_contra hhookNot
    by_cases hsome : ∃ row ∈ hooks.on path, row.InProd
    · obtain ⟨row, hrow, hprod⟩ := hsome
      have heq := honly row hrow (.inl hprod)
      rw [heq] at hprod
      exact hhookNot hprod
    · push Not at hsome
      exact hne (honly other hother (.inr hsome))
  · intro halone rows hselects
    have hmem : hook ∈ rows := hselects.perm.symm.subset hhook
    cases rows with
    | nil => simp at hmem
    | cons row rows =>
      by_contra hhead
      have hne : row ≠ hook := by simpa using hhead
      obtain ⟨hprod, hnot⟩ := halone row (hselects.perm.subset mem_cons_self) hne
      have hrest : hook ∈ rows := (mem_cons.mp hmem).resolve_left (Ne.symm hne)
      exact hnot ((pairwise_cons.mp hselects.order).1 hook hrest hprod)

/-- **The claim on a request**: it fires the pipelines that it is signed for, with a secret that is
not empty, and no pipeline that it is not signed for, whichever rows the query gives. -/
structure Reaches (server : HookServer) (hooks : Hooks) (request : HookRequest)
    (replies : WriteReplies) : Prop where
  fires : ∀ hook ∈ hooks.on request.path, hook.secret ≠ "" → Signed server request hook →
    ∀ rows, hooks.Selects request.path rows → Fires server request replies rows hook
  signed : ∀ hook ∈ hooks.table, ∀ rows, hooks.Selects request.path rows →
    Fires server request replies rows hook → Signed server request hook

/-- **Requests reach the pipelines they are signed for, and no others**, exactly if no other
pipeline on the path may come before one of these, and the payload is stored. -/
theorem webhook_reaches_iff (server : HookServer) (hooks : Hooks) (request : HookRequest)
    (replies : WriteReplies) : Reaches server hooks request replies ↔
      ∀ hook ∈ hooks.on request.path, hook.secret ≠ "" → Signed server request hook →
        Unrivalled hooks request.path hook ∧ Stores server request replies hook := by
  constructor
  · intro hreaches hook hhook hsecret hsigned
    have hfires := hreaches.fires hook hhook hsecret hsigned
    have hiff : ∀ rows, hooks.Selects request.path rows → rows.head? = some hook ∧
        Signed server request hook ∧ Stores server request replies hook :=
      fun rows hselects => (fires_iff hselects (mem_on.mp hhook).1).mp (hfires rows hselects)
    obtain ⟨rows, hselects⟩ := exists_selects hooks request.path
    exact ⟨(forall_head_iff hhook).mp fun rows hselects => (hiff rows hselects).1,
      (hiff rows hselects).2.2⟩
  · intro hcondition
    refine ⟨?_, ?_⟩
    · intro hook hhook hsecret hsigned rows hselects
      obtain ⟨halone, hstores⟩ := hcondition hook hhook hsecret hsigned
      have hhead := (forall_head_iff hhook).mpr halone rows hselects
      exact (fires_iff hselects (mem_on.mp hhook).1).mpr ⟨hhead, hsigned, hstores⟩
    · intro hook hhook rows hselects hfires
      exact ((fires_iff hselects hhook).mp hfires).2.1

open Classical in
/-- A server whose codes are the secret and the text. -/
noncomputable def hookServer : HookServer where
  gcm := tagGCM
  codec := marshalledCodec
  payloads := ⟨none, [], 100⟩
  parse text := if h : ∃ value, (quotientText value).toList = text then some h.choose else none
  parse_text value := by
    have h : ∃ value', (quotientText value').toList = (quotientText value).toList := ⟨value, rfl⟩
    show (if h : ∃ value', (quotientText value').toList = (quotientText value).toList then
      some h.choose else none) = some value
    rw [dif_pos h, quotientTexts.injective (String.toList_inj.mp h.choose_spec)]
  hmac key message := key ++ message

/-- A pipeline of a tenant that is fired by requests to `orders`. -/
def ordersHook (tenantId secret : String) : Hook where
  id := tenantId
  tenantId := tenantId
  environment := "prod"
  definition := { id := tenantId, tenantId := tenantId, triggerType := "webhook" }
  path := "orders"
  secret := secret

/-- **Two tenants use one path**, and the requests of one of them are refused. -/
theorem collision : ¬ ∀ (server : HookServer) (hooks : Hooks) (request : HookRequest)
    (replies : WriteReplies), Reaches server hooks request replies := by
  intro h
  let hooks : Hooks := ⟨[ordersHook "first" "a", ordersHook "second" "b"], by decide⟩
  have hsigned :
      Signed hookServer ⟨"orders", textBytes "\x7b\x7d", "627b7d"⟩ (ordersHook "second" "b") :=
    ⟨.object [], rfl, rfl⟩
  have hselects : hooks.Selects "orders" [ordersHook "first" "a", ordersHook "second" "b"] :=
    ⟨by decide, by decide⟩
  have hfires := (h hookServer hooks ⟨"orders", textBytes "\x7b\x7d", "627b7d"⟩
    ⟨replicate 12 0, rfl, "", .error "", .error ""⟩).fires (ordersHook "second" "b") (by decide)
    (by decide) hsigned _ hselects
  have hhead := ((fires_iff hselects (by decide)).mp hfires).1
  exact absurd hhead (by decide)

end fires

end Dataflow.Api.Webhooks
