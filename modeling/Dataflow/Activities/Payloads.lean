import Dataflow.Library.Base64
import Dataflow.Library.Results
import Dataflow.Model.Marshal
import Dataflow.Model.Types

/-!
# `Payloads`: where the values of a run are stored

A small value is kept in its reference, a large one in the object store or in the table
`node_payloads`. With a key, what is stored is encrypted.

* `GCM`, `JsonCodec`, `Payloads`: what the code is given.
* `encryptPayload`, `decryptPayload`: the text of an encrypted value, and back.
* `payloadsWrite`, `payloadsRead`: the code; `PayloadEffect` is what a write has stored.
* `decryptPayload_encryptPayload`: what is encrypted is decrypted.
* **`payloadsRead_payloadsWrite`**: what is written is read.

Source: `payloads.go`, `crypto.go`, `objectstore`
-/

namespace Dataflow.Activities

open Library Library.Base64 Model

/-! ## What the code is given -/

/-- The bytes of a text. -/
def textBytes (text : String) : Bytes := text.toByteArray.data.toList.map UInt8.toBitVec

/-- AES-GCM: what is sealed is opened, and is 16 bytes longer. -/
structure GCM where
  sealBytes : (key nonce data : Bytes) → Bytes
  openBytes : (key nonce sealedData : Bytes) → Option Bytes
  open_seal : ∀ key nonce data, openBytes key nonce (sealBytes key nonce data) = some data
  length_seal : ∀ key nonce data, (sealBytes key nonce data).length = data.length + 16

/-- Go's `encoding/json`: the texts of numbers, and `json.Unmarshal` of bytes. A text is read as it
was written. -/
structure JsonCodec where
  numbers : NumberTexts
  unmarshal : Bytes → Except String Json
  unmarshal_string : ∀ text,
    unmarshal (textBytes (marshal numbers (.string text))) = .ok (.string text)

/-- Source: `payloads.go` `Payloads`; `store` is the bucket of the object store, if there is one. -/
structure Payloads where
  store : Option String
  platformKey : Bytes
  maxPayloadBytes : ℤ

/-- A row of `node_payloads`, without its owner. `payload` is the text of the column of type
`jsonb`. -/
structure StoredPayload where
  payload : Bytes
  encrypted : Bool
  iv : Option String
  deriving DecidableEq

/-- What the code reads from: `GetObject`, and the `SELECT` of a row. -/
structure PayloadSources where
  getObject : (bucket key : String) → Except String String
  select : (id : String) → Except String StoredPayload

/-- What a write is given: 12 random bytes, the key of an object, and the replies of the stores. -/
structure WriteReplies where
  nonce : Bytes
  length_nonce : nonce.length = 12
  objectKey : String
  put : Except String Unit
  insert : Except String String

/-- What a write has stored outside its reference. -/
inductive PayloadEffect where
  | inline
  | object (bucket key body : String)
  | row (id : String) (stored : StoredPayload)

section code

variable (gcm : GCM) (codec : JsonCodec) (p : Payloads)

/-! ## Encryption -/

/-- `aes.NewCipher` takes the key. -/
def validKeySize (key : Bytes) : Prop := key.length = 16 ∨ key.length = 24 ∨ key.length = 32

instance (key : Bytes) : Decidable (validKeySize key) := inferInstanceAs (Decidable (_ ∨ _))

/-- Source: `crypto.go` `EncryptPayload`. -/
def encryptPayload (nonce data key : Bytes) : Except String (String × String) :=
  if validKeySize key then
    .ok (rawURLEncoding.encodeToString (gcm.sealBytes key nonce data), rawURLEncoding.encodeToString nonce)
  else .error ("crypto/aes: invalid key size " ++ toString key.length)

/-- Source: `crypto.go` `DecryptPayload`. -/
def decryptPayload (ciphertext iv : String) (key : Bytes) : Except String Bytes :=
  match rawURLEncoding.decodeString ciphertext with
  | none => .error "illegal base64 data"
  | some sealedData =>
    match rawURLEncoding.decodeString iv with
    | none => .error "illegal base64 data"
    | some nonce =>
      if ¬ validKeySize key then .error ("crypto/aes: invalid key size " ++ toString key.length)
      else if nonce.length ≠ 12 then
        .error ("invalid GCM nonce length " ++ toString nonce.length)
      else
        match gcm.openBytes key nonce sealedData with
        | none => .error "cipher: message authentication failed"
        | some data => .ok data

/-- Source: `payloads.go` `ciphertextSizeCap`. -/
def ciphertextSizeCap (maxPlaintextBytes : ℤ) : ℕ :=
  if maxPlaintextBytes ≤ 0 then 0 else encodedLen (maxPlaintextBytes.toNat + 16)

/-! ## Writing -/

/-- The key of both sides: the DEK of the execution, else that of the platform. -/
def Payloads.key (dek : Bytes) : Bytes := if dek = [] then p.platformKey else dek

/-- `Payloads.Write`, from the encoded value on. -/
def payloadsWriteBody (replies : WriteReplies) (body : Bytes) (recordCount : ℕ) (tenantId : String)
    (dek : Bytes) : Except String (DataRef × PayloadEffect) :=
  let key := p.key dek
  let ref : DataRef := { tenantId, sizeBytes := body.length, recordCount }
  if body.length ≤ 4 * 1024 then
    if key ≠ [] then
      (encryptPayload gcm replies.nonce body key).map fun (ciphertext, iv) =>
        ({ ref with type := "inline", key := ciphertext, iv, encrypted := true }, .inline)
    else .ok ({ ref with type := "inline", key := stdEncoding.encodeToString body }, .inline)
  else
    match p.store with
    | some bucket =>
      if key = [] then
        .error "PAYLOAD_S3_BUCKET requires TEMPORAL_PAYLOAD_ENCRYPTION_KEY or an execution DEK"
      else
        (encryptPayload gcm replies.nonce body key).bind fun (ciphertext, iv) =>
          replies.put.map fun () =>
            ({ ref with type := "s3", key := replies.objectKey, bucket, iv, encrypted := true },
              .object bucket replies.objectKey ciphertext)
    | none =>
      if key ≠ [] then
        (encryptPayload gcm replies.nonce body key).bind fun (ciphertext, iv) =>
          replies.insert.map fun id =>
            ({ ref with type := "pg", key := id, iv, encrypted := true },
              .row id ⟨textBytes (marshal codec.numbers (.string ciphertext)), true, some iv⟩)
      else
        replies.insert.map fun id => ({ ref with type := "pg", key := id }, .row id ⟨body, false, none⟩)

/-- The records of a value that is an array. -/
def recordCountOf : Json → ℕ
  | .array records => records.length
  | _ => 0

/-- Source: `payloads.go` `Payloads.Write`. -/
def payloadsWrite (replies : WriteReplies) (data : Json) (tenantId : String) (dek : Bytes) :
    Except String (DataRef × PayloadEffect) :=
  payloadsWriteBody gcm codec p replies (textBytes (marshal codec.numbers data)) (recordCountOf data)
    tenantId dek

/-! ## Reading -/

/-- Source: `store.go` `Get`. -/
def storeGet (sources : PayloadSources) (bucket key : String) (maxBytes : ℕ) :
    Except String String :=
  (sources.getObject bucket key).bind fun body =>
    if 0 < maxBytes ∧ maxBytes < body.utf8ByteSize then
      .error ("object " ++ key ++ " is larger than max payload size of " ++ toString maxBytes ++ " bytes")
    else .ok body

/-- `json.Unmarshal` into a text; `null` leaves it empty. -/
def unmarshalText (body : Bytes) : Except String String :=
  (codec.unmarshal body).bind fun
    | .string text => .ok text
    | .null => .ok ""
    | _ => .error "json: cannot unmarshal into Go value of type string"

/-- The bytes of a reference, before they are decoded. -/
def payloadsBody (sources : PayloadSources) (ref : DataRef) (key : Bytes) : Except String Bytes :=
  if ref.type = "inline" then
    if ref.encrypted then
      if key = [] ∨ ref.iv = "" then
        .error "encrypted inline DataRef is missing its encryption key or IV"
      else decryptPayload gcm ref.key ref.iv key
    else
      match stdEncoding.decodeString ref.key with
      | none => .error "illegal base64 data"
      | some body => .ok body
  else if ref.type = "s3" then
    match p.store with
    | some configured =>
      if ¬ ref.encrypted ∨ key = [] ∨ ref.iv = "" then
        .error ("encrypted DataRef " ++ ref.key ++
          " is missing its object store, encryption key, or IV")
      else
        (storeGet sources (if ref.bucket = "" then configured else ref.bucket) ref.key
          (ciphertextSizeCap p.maxPayloadBytes)).bind fun ciphertext =>
            decryptPayload gcm ciphertext ref.iv key
    | none =>
      .error ("encrypted DataRef " ++ ref.key ++ " is missing its object store, encryption key, or IV")
  else if ref.type = "pg" then
    (sources.select ref.key).bind fun row =>
      if row.encrypted then
        match row.iv with
        | some iv =>
          if key = [] then
            .error ("encrypted DataRef " ++ ref.key ++ " is missing its encryption key or IV")
          else
            (unmarshalText codec row.payload).bind fun ciphertext => decryptPayload gcm ciphertext iv key
        | none => .error ("encrypted DataRef " ++ ref.key ++ " is missing its encryption key or IV")
      else .ok row.payload
  else .error ("unsupported DataRef type " ++ ref.type)

/-- Source: `payloads.go` `Payloads.Read`. -/
def payloadsRead (sources : PayloadSources) (ref : Option DataRef) (dek : Bytes) :
    Except String Json :=
  match ref with
  | none => .ok .null
  | some ref =>
    if 0 < p.maxPayloadBytes ∧ p.maxPayloadBytes < ref.sizeBytes then
      .error ("payload " ++ ref.key ++ " is " ++ toString ref.sizeBytes ++
        " bytes, exceeds MAX_PAYLOAD_BYTES limit of " ++ toString p.maxPayloadBytes)
    else (payloadsBody gcm codec p sources ref (p.key dek)).bind codec.unmarshal

end code

/-! ## What is encrypted is decrypted -/

section crypto

variable {gcm : GCM} {nonce data key : Bytes} {ciphertext iv : String}

/-- The text of a nonce is not empty. -/
theorem encodeToString_ne_empty (h : nonce.length = 12) :
    rawURLEncoding.encodeToString nonce ≠ "" := by
  intro hempty
  have hsize : (rawURLEncoding.encodeToString nonce).utf8ByteSize = encodedLen nonce.length :=
    Encoding.utf8ByteSize_encodeToString nonce rfl
  rw [hempty, h] at hsize
  exact absurd hsize (by decide)

/-- **What is encrypted is decrypted** with the same key. -/
theorem decryptPayload_encryptPayload (hnonce : nonce.length = 12)
    (h : encryptPayload gcm nonce data key = .ok (ciphertext, iv)) :
    decryptPayload gcm ciphertext iv key = .ok data := by
  unfold encryptPayload at h
  split_ifs at h with hkey
  obtain ⟨rfl, rfl⟩ := Prod.mk.inj (Except.ok.inj h)
  rw [decryptPayload, Encoding.decodeString_encodeToString, Encoding.decodeString_encodeToString]
  dsimp only
  rw [if_neg (not_not.mpr hkey), if_neg (not_not.mpr hnonce), gcm.open_seal]

/-- The text of an encrypted value has the size that the limit of a download is made from. -/
theorem length_encryptPayload (h : encryptPayload gcm nonce data key = .ok (ciphertext, iv)) :
    ciphertext.utf8ByteSize = encodedLen (data.length + 16) := by
  unfold encryptPayload at h
  split_ifs at h
  obtain ⟨rfl, rfl⟩ := Prod.mk.inj (Except.ok.inj h)
  rw [Encoding.utf8ByteSize_encodeToString _ rfl, gcm.length_seal]

theorem iv_encryptPayload (hnonce : nonce.length = 12)
    (h : encryptPayload gcm nonce data key = .ok (ciphertext, iv)) : iv ≠ "" := by
  unfold encryptPayload at h
  split_ifs at h
  obtain ⟨rfl, rfl⟩ := Prod.mk.inj (Except.ok.inj h)
  exact encodeToString_ne_empty hnonce

end crypto

/-! ## What is written is read -/

section roundTrip

variable {gcm : GCM} {codec : JsonCodec} {p : Payloads} {replies : WriteReplies}
  {sources : PayloadSources} {body dek : Bytes} {recordCount : ℕ} {tenantId : String}
    {ref : DataRef} {effect : PayloadEffect}

/-- **The stores return what was stored**; of a column of type `jsonb` that is the value, its text
may be another one. -/
def Keeps (codec : JsonCodec) (sources : PayloadSources) : PayloadEffect → Prop
  | .inline => True
  | .object bucket key body => sources.getObject bucket key = .ok body
  | .row id stored => ∃ payload, sources.select id = .ok { stored with payload } ∧
      codec.unmarshal payload = codec.unmarshal stored.payload

/-- **What a write can do**: the reference it returns, and what it has stored. -/
inductive Written (gcm : GCM) (codec : JsonCodec) (p : Payloads) (replies : WriteReplies)
    (body : Bytes) (recordCount : ℕ) (tenantId : String) (dek : Bytes) :
    DataRef → PayloadEffect → Prop
  | plainInline (hkey : p.key dek = []) : Written gcm codec p replies body recordCount tenantId dek
        { tenantId, sizeBytes := body.length, recordCount, type := "inline"
          key := stdEncoding.encodeToString body } .inline
  | encryptedInline {ciphertext iv : String} (hkey : p.key dek ≠ [])
      (hencrypt : encryptPayload gcm replies.nonce body (p.key dek) = .ok (ciphertext, iv)) :
      Written gcm codec p replies body recordCount tenantId dek
        { tenantId, sizeBytes := body.length, recordCount, type := "inline", key := ciphertext, iv
          encrypted := true } .inline
  | object {bucket ciphertext iv : String} (hstore : p.store = some bucket) (hkey : p.key dek ≠ [])
      (hencrypt : encryptPayload gcm replies.nonce body (p.key dek) = .ok (ciphertext, iv)) :
      Written gcm codec p replies body recordCount tenantId dek
        { tenantId, sizeBytes := body.length, recordCount, type := "s3", key := replies.objectKey, bucket
          iv, encrypted := true } (.object bucket replies.objectKey ciphertext)
  | encryptedRow {id ciphertext iv : String} (hkey : p.key dek ≠ [])
      (hencrypt : encryptPayload gcm replies.nonce body (p.key dek) = .ok (ciphertext, iv)) :
      Written gcm codec p replies body recordCount tenantId dek
        { tenantId, sizeBytes := body.length, recordCount, type := "pg", key := id, iv, encrypted := true }
        (.row id ⟨textBytes (marshal codec.numbers (.string ciphertext)), true, some iv⟩)
  | plainRow {id : String} : Written gcm codec p replies body recordCount tenantId dek
        { tenantId, sizeBytes := body.length, recordCount, type := "pg", key := id }
        (.row id ⟨body, false, none⟩)

theorem written_of_write
    (h : payloadsWriteBody gcm codec p replies body recordCount tenantId dek = .ok (ref, effect)) :
    Written gcm codec p replies body recordCount tenantId dek ref effect := by
  unfold payloadsWriteBody at h
  dsimp only at h
  by_cases hsmall : body.length ≤ 4 * 1024
  · rw [if_pos hsmall] at h
    by_cases hkey : p.key dek = []
    · rw [if_neg (not_not.mpr hkey)] at h
      cases h
      exact .plainInline hkey
    · rw [if_pos hkey] at h
      obtain ⟨⟨ciphertext, iv⟩, hencrypt, heq⟩ := map_eq_ok.mp h
      cases heq
      exact .encryptedInline hkey hencrypt
  rw [if_neg hsmall] at h
  cases hstore : p.store with
  | some bucket =>
    rw [hstore] at h
    dsimp only at h
    by_cases hkey : p.key dek = []
    · simp [if_pos hkey] at h
    · rw [if_neg hkey] at h
      obtain ⟨⟨ciphertext, iv⟩, hencrypt, h⟩ := bind_eq_ok.mp h
      obtain ⟨-, -, heq⟩ := map_eq_ok.mp h
      cases heq
      exact .object hstore hkey hencrypt
  | none =>
    rw [hstore] at h
    dsimp only at h
    by_cases hkey : p.key dek = []
    · rw [if_neg (not_not.mpr hkey)] at h
      obtain ⟨id, -, heq⟩ := map_eq_ok.mp h
      cases heq
      exact .plainRow
    · rw [if_pos hkey] at h
      obtain ⟨⟨ciphertext, iv⟩, hencrypt, h⟩ := bind_eq_ok.mp h
      obtain ⟨id, -, heq⟩ := map_eq_ok.mp h
      cases heq
      exact .encryptedRow hkey hencrypt

/-- The size of a reference is that of its value. -/
theorem Written.sizeBytes (h : Written gcm codec p replies body recordCount tenantId dek ref effect) :
    ref.sizeBytes = body.length := by
  cases h <;> rfl

/-- A download of a value within the limit is within the derived limit. -/
theorem le_ciphertextSizeCap (hmax : 0 < p.maxPayloadBytes)
    (hsize : (body.length : ℤ) ≤ p.maxPayloadBytes) :
    encodedLen (body.length + 16) ≤ ciphertextSizeCap p.maxPayloadBytes := by
  rw [ciphertextSizeCap, if_neg (not_le.mpr hmax)]
  apply encodedLen_mono
  omega

/-- **The bytes that were written are read**, or bytes that are decoded as the same value. -/
theorem Written.exists_body (h : Written gcm codec p replies body recordCount tenantId dek ref effect)
    (hkeeps : Keeps codec sources effect)
    (hsize : 0 < p.maxPayloadBytes → (body.length : ℤ) ≤ p.maxPayloadBytes) :
    ∃ read, payloadsBody gcm codec p sources ref (p.key dek) = .ok read ∧
      codec.unmarshal read = codec.unmarshal body := by
  cases h with
  | plainInline hkey =>
    refine ⟨body, ?_, rfl⟩
    rw [payloadsBody, if_pos rfl]
    dsimp only
    rw [if_neg (by decide), Encoding.decodeString_encodeToString]
  | @encryptedInline ciphertext iv hkey hencrypt =>
    refine ⟨body, ?_, rfl⟩
    have hiv := iv_encryptPayload replies.length_nonce hencrypt
    rw [payloadsBody, if_pos rfl]
    rw [if_pos rfl, if_neg (by simp [hkey, hiv]),
      decryptPayload_encryptPayload replies.length_nonce hencrypt]
  | @object bucket ciphertext iv hstore hkey hencrypt =>
    refine ⟨body, ?_, rfl⟩
    have hiv := iv_encryptPayload replies.length_nonce hencrypt
    have hcap : ¬ (0 < ciphertextSizeCap p.maxPayloadBytes ∧
        ciphertextSizeCap p.maxPayloadBytes < ciphertext.utf8ByteSize) := by
      rintro ⟨hpos, hlt⟩
      have hmax : 0 < p.maxPayloadBytes := by
        by_contra hmax
        rw [ciphertextSizeCap, if_pos (not_lt.mp hmax)] at hpos
        exact absurd hpos (lt_irrefl 0)
      rw [length_encryptPayload hencrypt] at hlt
      exact absurd (le_ciphertextSizeCap hmax (hsize hmax)) (not_le.mpr hlt)
    have hget : storeGet sources (if bucket = "" then bucket else bucket) replies.objectKey
        (ciphertextSizeCap p.maxPayloadBytes) = .ok ciphertext := by
      rw [ite_self, storeGet,
        show sources.getObject bucket replies.objectKey = .ok ciphertext from hkeeps]
      exact if_neg hcap
    rw [payloadsBody]
    dsimp only
    rw [if_neg (by decide), if_pos rfl, hstore]
    dsimp only
    rw [if_neg (by simp [hkey, hiv]), hget]
    exact decryptPayload_encryptPayload replies.length_nonce hencrypt
  | @encryptedRow id ciphertext iv hkey hencrypt =>
    obtain ⟨payload, hselect, hpayload⟩ := hkeeps
    refine ⟨body, ?_, rfl⟩
    rw [payloadsBody]
    dsimp only
    rw [if_neg (by decide), if_neg (by decide), if_pos rfl, hselect]
    dsimp only [Except.bind]
    rw [if_pos rfl, if_neg hkey, unmarshalText, hpayload, codec.unmarshal_string]
    exact decryptPayload_encryptPayload replies.length_nonce hencrypt
  | plainRow =>
    obtain ⟨payload, hselect, hpayload⟩ := hkeeps
    refine ⟨payload, ?_, hpayload⟩
    rw [payloadsBody]
    dsimp only
    rw [if_neg (by decide), if_neg (by decide), if_pos rfl, hselect]
    rfl

/-- **A value is read as it was written.** For every value that is stable under decoding, whatever
its size, with or without an object store and a key: if a write succeeds, its reference is within
the limit and the stores return what was stored, then the value is read. -/
theorem payloadsRead_payloadsWrite {data : Json}
    (hstable : codec.unmarshal (textBytes (marshal codec.numbers data)) = .ok data)
    (hwrite : payloadsWrite gcm codec p replies data tenantId dek = .ok (ref, effect))
    (hsize : 0 < p.maxPayloadBytes → ref.sizeBytes ≤ p.maxPayloadBytes)
    (hkeeps : Keeps codec sources effect) :
    payloadsRead gcm codec p sources (some ref) dek = .ok data := by
  have hwritten := written_of_write hwrite
  rw [hwritten.sizeBytes] at hsize
  obtain ⟨read, hread, hdecode⟩ := hwritten.exists_body hkeeps hsize
  rw [payloadsRead, hwritten.sizeBytes, if_neg fun h => absurd (hsize h.1) (not_le.mpr h.2), hread]
  exact hdecode.trans hstable

end roundTrip

/-! ## A codec -/

theorem textBytes_injective : Function.Injective textBytes := by
  intro text text' h
  have hlists := List.map_injective_iff.mpr (fun a b hab => UInt8.toBitVec_inj.mp hab) h
  apply String.toByteArray_inj.mp
  exact ByteArray.ext (Array.toList_inj.mp hlists)

open Classical in
/-- The codec that reads the texts `json.Marshal` writes, and no others. -/
noncomputable def marshalledCodec : JsonCodec where
  numbers := quotientTexts
  unmarshal bytes :=
    if h : ∃ value, textBytes (marshal quotientTexts value) = bytes then .ok h.choose.normalize
    else .error "invalid character"
  unmarshal_string text := by
    have h : ∃ value, textBytes (marshal quotientTexts value) =
        textBytes (marshal quotientTexts (.string text)) := ⟨_, rfl⟩
    rw [dif_pos h, marshal_eq_iff.mp (textBytes_injective h.choose_spec)]
    rfl

/-- A value is read back with its maps in order. -/
theorem unmarshal_marshalledCodec (value : Json) :
    marshalledCodec.unmarshal (textBytes (marshal quotientTexts value)) = .ok value.normalize := by
  have h : ∃ value', textBytes (marshal quotientTexts value') =
      textBytes (marshal quotientTexts value) :=
    ⟨_, rfl⟩
  rw [marshalledCodec]
  dsimp only
  rw [dif_pos h, marshal_eq_iff.mp (textBytes_injective h.choose_spec)]

/-- Sixteen bytes behind what is sealed. -/
def tagGCM : GCM where
  sealBytes _ _ data := data ++ List.replicate 16 0
  openBytes _ _ sealedData := some (sealedData.take (sealedData.length - 16))
  open_seal _ _ data := by simp
  length_seal _ _ data := by simp

/-- A text of the letter `a`. -/
def repeated (n : ℕ) : Json := .string (.ofList (.replicate n 'a'))

theorem length_repeated (n : ℕ) :
    (textBytes (marshal quotientTexts (repeated n))).length = n + 2 := by
  have hrender : (repeated n).normalize.render quotientTexts =
      quoteChar :: (.replicate n 'a' ++ [quoteChar]) := by
    show renderString _ = _
    rw [renderString, String.toList_ofList, List.flatMap_replicate,
      show escapeChar 'a' = ['a'] by decide, List.flatten_replicate_singleton]
  have hsizes : ∀ c ∈ quoteChar :: (.replicate n 'a' ++ [quoteChar]), c.utf8Size = 1 := by
    intro c hc
    simp only [List.mem_cons, List.mem_append, List.mem_replicate, List.not_mem_nil, or_false] at hc
    obtain rfl | ⟨-, rfl⟩ | rfl := hc <;> decide
  rw [marshal, hrender, textBytes, List.length_map]
  show (String.ofList _).utf8ByteSize = _
  rw [Encoding.utf8ByteSize_ofList hsizes]
  simp

/-- A text that is stored in a row, under a key. -/
theorem payloadsRead_payloadsWrite_row : ∃ ref id stored,
    payloadsWrite tagGCM marshalledCodec ⟨none, .replicate 16 0, 5000⟩
        ⟨.replicate 12 0, rfl, "", .error "", .ok "id"⟩ (repeated 4096) "t" [] = .ok (ref, .row id stored) ∧
      ref.encrypted = true ∧
        payloadsRead tagGCM marshalledCodec ⟨none, .replicate 16 0, 5000⟩
          ⟨fun _ _ => .error "", fun _ => .ok stored⟩ (some ref) [] = .ok (repeated 4096) := by
  have hwrite : ∃ ref stored, payloadsWrite tagGCM marshalledCodec ⟨none, .replicate 16 0, 5000⟩
      ⟨.replicate 12 0, rfl, "", .error "", .ok "id"⟩ (repeated 4096) "t" [] =
        .ok (ref, .row "id" stored) ∧ ref.encrypted = true ∧ ref.sizeBytes = 4098 := by
    have hlong := length_repeated 4096
    rw [payloadsWrite, payloadsWriteBody]
    dsimp only
    rw [if_neg (by rw [show marshalledCodec.numbers = quotientTexts from rfl, hlong]; decide)]
    exact ⟨_, _, rfl, rfl, congrArg Nat.cast hlong⟩
  obtain ⟨ref, stored, hwrite, hencrypted, hsize⟩ := hwrite
  exact ⟨ref, "id", stored, hwrite, hencrypted, payloadsRead_payloadsWrite
    (unmarshal_marshalledCodec (repeated 4096)) hwrite (fun _ => by rw [hsize]; decide) ⟨_, rfl, rfl⟩⟩
end Dataflow.Activities
