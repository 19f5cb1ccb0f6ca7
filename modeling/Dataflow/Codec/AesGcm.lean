import Dataflow.Activities.Payloads

/-!
# `AESGCMCodec`: the payloads of the workflows

What goes to Temporal is encrypted: the data of a payload is sealed, and of its metadata the
encoding is kept under another key.

* `Metadata`, `Payload`, `AESGCMCodec`: the data; a codec has a key of 32 bytes.
* `encodePayload`, `encode`, `decodePayload`, `decode`: the code.
* `decodePayload_encodePayload`: what comes back; `ne_decodePayload`: what a payload with the
  label becomes.
* `Sent`, `Kept`: a payload that is encoded, or one that is not; what must hold for it to come
  back.
* **`decode_sent_iff`**: a list of payloads comes back iff this is so for each of them.
* `metadata_dropped`: a payload with another entry in its metadata.

Source: `codec/aesgcm.go`
-/

namespace Dataflow.Codec

open Activities Library Library.Base64 List Function

/-! ## The data -/

/-- A value of the type `map[string][]byte`; a slice may be nil. -/
abbrev Metadata := String → Option (Option Bytes)

/-- Reading a key, which gives the nil slice if the map does not have it. -/
def Metadata.get (metadata : Metadata) (key : String) : Option Bytes := (metadata key).join

/-- The map with one key. -/
def Metadata.only (key : String) (value : Option Bytes) : Metadata :=
  fun other => if other = key then some value else none

/-- `commonpb.Payload`. -/
structure Payload where
  metadata : Metadata
  data : Bytes

/-- `converter.MetadataEncoding`. -/
def metadataEncoding : String := "encoding"

/-- `converter.MetadataEncodingJSON`. -/
def metadataEncodingJSON : String := "json/plain"

/-- Source: `aesgcm.go` `encodingLabel`. -/
def encodingLabel : String := "binary/encrypted+aes-gcm"

/-- Source: `aesgcm.go` `AESGCMCodec`; `NewDataConverterFromEnv` makes one with a key of this length
only. -/
structure AESGCMCodec where
  key : Bytes
  length_key : key.length = 32

/-- The bytes of `make([]byte, gcm.NonceSize())`, when `rand.Read` has filled them. -/
abbrev Nonce := { iv : Bytes // iv.length = 12 }

/-! ## The code -/

section code

variable (gcm : GCM) (c : AESGCMCodec)

/-- One round of the loop of `Encode`. -/
def encodePayload (iv : Nonce) (payload : Payload) : Payload :=
  let sealedData := gcm.sealBytes c.key iv payload.data
  let tagStart := sealedData.length - 16
  let metadata := Metadata.only metadataEncoding (some (textBytes encodingLabel))
  { metadata := match payload.metadata.get metadataEncoding with
      | some original => update metadata "originalEncoding" (some (some original))
      | none => metadata
    data := iv ++ sealedData.drop tagStart ++ sealedData.take tagStart }

/-- The loop of `Encode`; `random` is what `rand.Read` gives in each round. -/
def encodeFrom (random : ℕ → Except String Nonce) :
    (round : ℕ) → List Payload → Except String (List Payload)
  | _, [] => .ok []
  | round, payload :: payloads => do
      let iv ← random round
      let rest ← encodeFrom random (round + 1) payloads
      return encodePayload gcm c iv payload :: rest

/-- Source: `aesgcm.go` `Encode`. -/
def encode (random : ℕ → Except String Nonce) (payloads : List Payload) :
    Except String (List Payload) :=
  if validKeySize c.key then encodeFrom gcm c random 0 payloads
  else .error ("crypto/aes: invalid key size " ++ toString c.key.length)

/-- One round of the loop of `Decode`. -/
def decodePayload (payload : Payload) : Except String Payload :=
  if (payload.metadata.get metadataEncoding).getD [] ≠ textBytes encodingLabel then .ok payload
  else if payload.data.length < 12 + 16 then .error "encrypted payload is truncated"
  else
    let iv := payload.data.take 12
    let tag := (payload.data.drop 12).take 16
    let ciphertext := payload.data.drop (12 + 16)
    match gcm.openBytes c.key iv (ciphertext ++ tag) with
    | none => .error "cipher: message authentication failed"
    | some plaintext =>
      let encoding := (payload.metadata.get "originalEncoding").getD (textBytes metadataEncodingJSON)
      .ok { metadata := .only metadataEncoding (some encoding), data := plaintext }

/-- Source: `aesgcm.go` `Decode`. -/
def decode (payloads : List Payload) : Except String (List Payload) :=
  if validKeySize c.key then payloads.mapM (decodePayload gcm c)
  else .error ("crypto/aes: invalid key size " ++ toString c.key.length)

end code

/-! ## One payload -/

section one

variable {gcm : GCM} {c : AESGCMCodec} {iv : Nonce} {payload : Payload}

theorem Metadata.get_only (key : String) (value : Option Bytes) :
    (Metadata.only key value).get key = value := by
  simp [Metadata.get, Metadata.only]

theorem get_encoding_encodePayload :
    (encodePayload gcm c iv payload).metadata.get metadataEncoding =
      some (textBytes encodingLabel) := by
  unfold encodePayload
  dsimp only
  split
  · rw [Metadata.get, update_of_ne (by decide)]
    rfl
  · rfl

theorem get_originalEncoding_encodePayload :
    (encodePayload gcm c iv payload).metadata.get "originalEncoding" =
    payload.metadata.get metadataEncoding := by
  unfold encodePayload
  dsimp only
  split
  next original horiginal =>
    rw [Metadata.get, update_self, horiginal]
    rfl
  next hnone =>
    rw [hnone]
    rfl

/-- The data of an encoded payload: the nonce, the tag and the rest of what was sealed. -/
theorem data_encodePayload : ∃ tag ciphertext : Bytes, tag.length = 16 ∧
    ciphertext ++ tag = gcm.sealBytes c.key iv payload.data ∧
    (encodePayload gcm c iv payload).data = iv ++ tag ++ ciphertext := by
  refine ⟨_, _, ?_, take_append_drop _ _, rfl⟩
  rw [length_drop, gcm.length_seal]
  omega

/-- **What comes back** of a payload. -/
theorem decodePayload_encodePayload : decodePayload gcm c (encodePayload gcm c iv payload) =
    .ok ⟨.only metadataEncoding
      (some ((payload.metadata.get metadataEncoding).getD (textBytes metadataEncodingJSON))), payload.data⟩ := by
  obtain ⟨tag, ciphertext, htag, hsealed, hdata⟩ := @data_encodePayload gcm c iv payload
  have hiv := iv.property
  have htake : (iv.val ++ tag ++ ciphertext).take 12 = iv.val := by
    rw [append_assoc, take_left' hiv]
  have hdrop : (iv.val ++ tag ++ ciphertext).drop 12 = tag ++ ciphertext := by
    rw [append_assoc, drop_left' hiv]
  have hrest : (iv.val ++ tag ++ ciphertext).drop (12 + 16) = ciphertext := by
    rw [← drop_drop, hdrop, drop_left' htag]
  have hlength : ¬ (iv.val ++ tag ++ ciphertext).length < 12 + 16 := by
    rw [length_append, length_append, hiv, htag]
    omega
  rw [decodePayload, get_encoding_encodePayload, get_originalEncoding_encodePayload, hdata, htake,
    hdrop, hrest, take_left' htag, if_neg hlength]
  dsimp only
  rw [hsealed, gcm.open_seal]
  exact if_neg fun h => h rfl

/-- A payload with the label is not left as it is. -/
theorem ne_decodePayload (hlabel : (payload.metadata.get metadataEncoding).getD [] = textBytes encodingLabel) :
    decodePayload gcm c payload ≠ .ok payload := by
  intro h
  rw [decodePayload, if_neg (not_not.mpr hlabel)] at h
  split_ifs at h
  dsimp only at h
  split at h
  · cases h
  · have hmetadata := congrArg Payload.metadata (Except.ok.inj h)
    dsimp only at hmetadata
    have horiginal : payload.metadata.get "originalEncoding" = none := by
      rw [← hmetadata]
      rfl
    rw [← hmetadata, Metadata.get_only, horiginal] at hlabel
    revert hlabel
    decide +kernel

end one

/-! ## Lists of payloads -/

section lists

variable {gcm : GCM} {c : AESGCMCodec}

/-- The metadata has the encoding, and nothing else. -/
def OneEntry (payload : Payload) : Prop :=
  ∃ encoding, payload.metadata = .only metadataEncoding (some encoding)

/-- What a list for `Decode` is made of: payloads that `Encode` has made, and others. -/
inductive Sent (gcm : GCM) (c : AESGCMCodec) where
  | encoded (iv : Nonce) (payload : Payload)
  | foreign (payload : Payload) (notEncoded : ∀ iv original, encodePayload gcm c iv original ≠ payload)

/-- What `Decode` is given. -/
def Sent.wire : Sent gcm c → Payload
  | .encoded iv payload => encodePayload gcm c iv payload
  | .foreign payload _ => payload

/-- What it should return. -/
def Sent.original : Sent gcm c → Payload
  | .encoded _ payload => payload
  | .foreign payload _ => payload

/-- **When a payload comes back**: its metadata has the encoding only, or it was not encoded and
does not have the label. -/
def Sent.Kept : Sent gcm c → Prop
  | .encoded _ payload => OneEntry payload
  | .foreign payload _ => (payload.metadata.get metadataEncoding).getD [] ≠ textBytes encodingLabel

/-- **One payload comes back.** -/
theorem Sent.kept_iff (item : Sent gcm c) :
    decodePayload gcm c item.wire = .ok item.original ↔ item.Kept := by
  cases item with
  | encoded iv payload =>
    rw [Sent.wire, Sent.original, decodePayload_encodePayload, Sent.Kept]
    constructor
    · intro h
      have hmetadata := congrArg Payload.metadata (Except.ok.inj h)
      exact ⟨_, hmetadata.symm⟩
    · rintro ⟨encoding, hmetadata⟩
      rw [hmetadata, Metadata.get_only, Option.getD_some, ← hmetadata]
  | foreign payload notEncoded =>
    rw [Sent.wire, Sent.original, Sent.Kept]
    constructor
    · exact fun h hlabel => ne_decodePayload hlabel h
    · exact fun hlabel => if_pos hlabel

theorem validKeySize_key : validKeySize c.key := .inr (.inr c.length_key)

/-- **A mixed list.** -/
theorem decode_map_wire_iff (sent : List (Sent gcm c)) :
    decode gcm c (sent.map Sent.wire) = .ok (sent.map Sent.original) ↔
      ∀ item ∈ sent, item.Kept := by
  rw [decode, if_pos validKeySize_key, mapM_map, mapM_eq_ok_map_iff]
  exact forall₂_congr fun item _ => item.kept_iff

/-- What the loop of `Encode` makes. -/
theorem encodeFrom_eq (random : ℕ → Nonce) (round : ℕ) (payloads : List Payload) :
    ∃ sent : List (Sent gcm c), encodeFrom gcm c (fun i => .ok (random i)) round payloads =
      .ok (sent.map Sent.wire) ∧ sent.map Sent.original = payloads ∧
      ((∀ item ∈ sent, item.Kept) ↔ ∀ payload ∈ payloads, OneEntry payload) := by
  induction payloads generalizing round with
  | nil => exact ⟨[], rfl, rfl, by simp⟩
  | cons payload payloads ih =>
    obtain ⟨sent, hwire, horiginal, hkept⟩ := ih (round + 1)
    refine ⟨.encoded (random round) payload :: sent, ?_, ?_, ?_⟩
    · rw [encodeFrom, hwire]
      rfl
    · rw [map_cons, horiginal]
      rfl
    · rw [forall_mem_cons, forall_mem_cons, hkept]
      rfl

/-- **Encoded payloads come back.** -/
theorem encode_decode_iff (random : ℕ → Nonce) (payloads : List Payload) :
    (encode gcm c (fun i => .ok (random i)) payloads).bind (decode gcm c) = .ok payloads ↔
      ∀ payload ∈ payloads, OneEntry payload := by
  obtain ⟨sent, hwire, horiginal, hkept⟩ := @encodeFrom_eq gcm c random 0 payloads
  rw [encode, if_pos validKeySize_key, hwire, ← hkept, ← decode_map_wire_iff, horiginal]
  rfl

/-- **Payloads come back** iff their metadata has the encoding only, and payloads that were not
encoded are left as they are iff they do not have the label.
Source: `aesgcm.go` `Encode`, `Decode` -/
theorem decode_sent_iff (gcm : GCM) (c : AESGCMCodec) :
    (∀ (random : ℕ → Nonce) (payloads : List Payload),
      (encode gcm c (fun i => .ok (random i)) payloads).bind (decode gcm c) = .ok payloads ↔
        ∀ payload ∈ payloads, OneEntry payload) ∧
    ∀ sent : List (Sent gcm c),
      decode gcm c (sent.map Sent.wire) = .ok (sent.map Sent.original) ↔ ∀ item ∈ sent, item.Kept :=
  ⟨encode_decode_iff, decode_map_wire_iff⟩

/-- **An entry of the metadata is lost.** -/
theorem metadata_dropped : ¬ ∀ (c : AESGCMCodec) (random : ℕ → Nonce) (payloads : List Payload),
    (encode tagGCM c (fun i => .ok (random i)) payloads).bind (decode tagGCM c) = .ok payloads := by
  intro h
  let metadata := update (Metadata.only metadataEncoding (some (textBytes "json/protobuf")))
    "messageType" (some (some [1]))
  have hone := (encode_decode_iff (fun _ => ⟨replicate 12 0, rfl⟩) [⟨metadata, []⟩]).mp
    (h ⟨replicate 32 0, rfl⟩ _ _)
  obtain ⟨encoding, hmetadata⟩ := hone _ mem_cons_self
  have hentry := congrFun hmetadata "messageType"
  simp [metadata, Metadata.only, metadataEncoding] at hentry

end lists

end Dataflow.Codec
