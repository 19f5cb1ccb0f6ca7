import Dataflow.Api.WebhookTrigger
import Dataflow.Codec.AesGcm
import Dataflow.Connectors.Values
import Dataflow.Library.Endings

/-!
# Stored credentials

The API and the worker each encrypt and decrypt the secrets of connectors with one key. The nonce,
the tag and the rest of what AES-GCM seals are three texts in base64, with colons between them.

* `encryptToken`, `decryptToken`: the code of the API.
* `encryptValue`, `decryptValue`: the code of the worker, which does not look at the errors of
  base64.
* `decrypt_made`: what is encrypted on either side is decrypted on both.
* `fails_decryptValue_iff`: the other texts for which the worker returns an error;
  `fails_decryptToken`: the API then returns an error as well.
* **`crosses_and_rejects_iff`**: both, exactly if a text is made by the code, or cannot be opened
  and has a nonce of 12 bytes.
* `short_nonce_panics`: a nonce that has been cut off.

Source: `token_crypto.go`, `credentials.go`
-/

namespace Dataflow.Connectors.Credentials

open Activities Api.Webhooks Codec Library List Option
  Dataflow.Library.Base64 Dataflow.Model

/-! ## The code -/

section code

variable (gcm : GCM) (config : String)

/-- `gcm.Open`, with a nonce of any length. -/
def gcmOpen (key iv sealedData : Bytes) : Ending Bytes :=
  if iv.length ≠ 12 then .panic
  else match gcm.openBytes key iv sealedData with
    | none => .error "cipher: message authentication failed"
    | some plaintext => .value plaintext

/-- Source: `token_crypto.go` `oauthKey`. -/
def oauthKey : Except String Bytes :=
  if config.utf8ByteSize ≠ 64 then
    .error ("OAUTH_TOKEN_ENCRYPTION_KEY must be 64 hex chars (got " ++ toString config.utf8ByteSize ++ ")")
  else match hexDecode config.toList with
    | none => .error "encoding/hex: invalid byte"
    | some key => .ok key

/-- The key of the worker. -/
def workerKey : Except String Bytes :=
  match hexDecode config.toList with
  | some key =>
    if key.length = 32 then .ok key else .error "OAUTH_TOKEN_ENCRYPTION_KEY must be 64 hex chars"
  | none => .error "OAUTH_TOKEN_ENCRYPTION_KEY must be 64 hex chars"

/-- `strings.Join`, with colons. -/
def joinParts (parts : List String) : String :=
  .ofList ([':'].intercalate (parts.map String.toList))

/-- The text of what is sealed, which both sides make. -/
def sealedText (key : Bytes) (iv : Nonce) (value : Bytes) : String :=
  let sealedData := gcm.sealBytes key iv value
  let tagStart := sealedData.length - 16
  joinParts [stdEncoding.encodeToString iv, stdEncoding.encodeToString (sealedData.drop tagStart),
    stdEncoding.encodeToString (sealedData.take tagStart)]

/-- Source: `token_crypto.go` `encryptToken`; `random` is what `rand.Read` gives. -/
def encryptToken (random : Except String Nonce) (value : Bytes) : Except String String :=
  (oauthKey config).bind fun key =>
    if validKeySize key then random.map fun iv => sealedText gcm key iv value
    else .error ("crypto/aes: invalid key size " ++ toString key.length)

/-- Source: `credentials.go` `encryptValue`. -/
def encryptValue (random : Except String Nonce) (value : Bytes) : Except String String :=
  (workerKey config).bind fun key =>
    if validKeySize key then random.map fun iv => sealedText gcm key iv value
    else .error ("crypto/aes: invalid key size " ++ toString key.length)

/-- `base64.StdEncoding.DecodeString`. -/
def decodePart (part : String) : Ending Bytes :=
  match stdEncoding.decodeString part with
  | none => .error "illegal base64 data"
  | some bytes => .value bytes

/-- Source: `token_crypto.go` `decryptToken`. -/
def decryptToken (value : String) : Ending Bytes :=
  match splitText ':' value with
  | [first, second, third] =>
    (decodePart first).bind fun iv => (decodePart second).bind fun tag =>
      (decodePart third).bind fun ct => (Ending.ofExcept (oauthKey config)).bind fun key =>
        if validKeySize key then gcmOpen gcm key iv (ct ++ tag)
        else .error ("crypto/aes: invalid key size " ++ toString key.length)
  | _ => .error "malformed encrypted token"

/-- Source: `credentials.go` `decryptValue`. -/
def decryptValue (value : String) : Ending Bytes :=
  match splitText ':' value with
  | [first, second, third] => (Ending.ofExcept (workerKey config)).bind fun key =>
    let iv := (stdEncoding.decode first).1
    let tag := (stdEncoding.decode second).1
    let ct := (stdEncoding.decode third).1
    if validKeySize key then gcmOpen gcm key iv (ct ++ tag)
    else .error ("crypto/aes: invalid key size " ++ toString key.length)
  | _ => .error "malformed encrypted token"

end code

/-! ## Keys -/

/-- 64 hexadecimal digits. -/
def HexKey (config : String) : Prop :=
  config.toList.length = 64 ∧ ∀ c ∈ config.toList, (hexOf c).isSome

instance (config : String) : Decidable (HexKey config) :=
  @instDecidableAnd _ _ inferInstance (List.decidableBAll _ _)

theorem exists_hexDecode : ∀ (n : ℕ) {chars : List Char}, chars.length = 2 * n →
    (∀ c ∈ chars, (hexOf c).isSome) → ∃ key, hexDecode chars = some key ∧ key.length = n
  | 0, [], _, _ => ⟨[], rfl, rfl⟩
  | n + 1, high :: low :: rest, hlength, hhex => by
    simp only [length_cons] at hlength
    simp only [forall_mem_cons] at hhex
    have hrest : rest.length = 2 * n := by omega
    obtain ⟨key, hkey, hbytes⟩ := exists_hexDecode n hrest hhex.2.2
    obtain ⟨a, ha⟩ := isSome_iff_exists.mp hhex.1
    obtain ⟨b, hb⟩ := isSome_iff_exists.mp hhex.2.1
    refine ⟨.ofNat 8 (a * 16 + b) :: key, ?_, by rw [length_cons, hbytes]⟩
    rw [hexDecode, ha, hb, hkey]
    rfl

theorem utf8Size_of_hexOf {c : Char} (h : (hexOf c).isSome) : c.utf8Size = 1 := by
  have hle : c ≤ 'f' := by
    unfold hexOf at h
    split_ifs at h with hdigit hsmall hcapital
    · exact hdigit.2.trans (by decide)
    · exact hsmall.2
    · exact hcapital.2.trans (by decide)
    · cases h
  rw [Char.utf8Size_eq_one_iff]
  exact UInt32.le_trans hle (by decide)

/-- **The key of both sides.** -/
theorem exists_key {config : String} (h : HexKey config) :
    ∃ key : Bytes, key.length = 32 ∧ oauthKey config = .ok key ∧ workerKey config = .ok key := by
  obtain ⟨key, hkey, hlength⟩ := exists_hexDecode 32 h.1 h.2
  have hsize : config.utf8ByteSize = 64 := by
    rw [← String.ofList_toList (s := config),
      Encoding.utf8ByteSize_ofList fun c hc => utf8Size_of_hexOf (h.2 c hc), h.1]
  refine ⟨key, hlength, ?_, ?_⟩
  · rw [oauthKey, if_neg (not_not.mpr hsize), hkey]
  · rw [workerKey, hkey]
    exact if_pos hlength

/-! ## Parts -/

theorem splitText_joinParts {parts : List String} (hne : parts ≠ [])
    (h : ∀ part ∈ parts, ':' ∉ part.toList) : splitText ':' (joinParts parts) = parts := by
  have hchars : ∀ l ∈ parts.map String.toList, ':' ∉ l := by
    intro l hl
    obtain ⟨part, hpart, rfl⟩ := List.mem_map.mp hl
    exact h part hpart
  rw [splitText, joinParts, String.toList_ofList,
    splitOn_intercalate _ hchars (by simpa using hne), List.map_map]
  conv_rhs => rw [← List.map_id parts]
  exact map_congr_left fun part _ => String.ofList_toList

/-- A text in base64 has no colon. -/
theorem colon_notMem (bytes : Bytes) : ':' ∉ (stdEncoding.encodeToString bytes).toList := by
  rw [Encoding.encodeToString, String.toList_ofList]
  intro h
  rcases mem_append.mp h with h | h
  · exact absurd (Encoding.mem_of_mem_chars h) (by decide +kernel)
  · exact absurd (eq_of_mem_replicate h) (by decide)

section decrypt

variable {gcm : GCM} {config : String} {key : Bytes} {iv : Nonce} {value : Bytes} {s : String}

/-- The parts of a text that is made, and what they decode to. -/
theorem exists_parts_sealedText (gcm : GCM) (key : Bytes) (iv : Nonce) (value : Bytes) :
    ∃ first second third : String, splitText ':' (sealedText gcm key iv value) =
      [first, second, third] ∧
      ∃ tag ct : Bytes, stdEncoding.decode first = (iv.val, true) ∧
        stdEncoding.decode second = (tag, true) ∧ stdEncoding.decode third = (ct, true) ∧
        ct ++ tag = gcm.sealBytes key iv value := by
  refine ⟨_, _, _, splitText_joinParts (cons_ne_nil _ _) ?_, _, _,
    Encoding.decode_encodeToString _, Encoding.decode_encodeToString _,
    Encoding.decode_encodeToString _, take_append_drop _ _⟩
  simp only [forall_mem_cons]
  exact ⟨colon_notMem _, colon_notMem _, colon_notMem _, fun _ h => absurd h not_mem_nil⟩

theorem validKeySize_of_length (h : key.length = 32) : validKeySize key := .inr (.inr h)

/-- What the worker makes of three parts. -/
theorem decryptValue_eq (hkey : key.length = 32) (hworker : workerKey config = .ok key)
    {first second third : String} (hparts : splitText ':' s = [first, second, third]) :
    decryptValue gcm config s = gcmOpen gcm key (stdEncoding.decode first).1
      ((stdEncoding.decode third).1 ++ (stdEncoding.decode second).1) := by
  unfold decryptValue
  rw [hparts]
  dsimp only
  rw [hworker, Ending.ofExcept, Ending.bind_value, if_pos (validKeySize_of_length hkey)]

/-- **The API gives an error, or what the worker gives.** -/
theorem decryptToken_cases (hkey : key.length = 32) (hapi : oauthKey config = .ok key)
    (hworker : workerKey config = .ok key) :
    (∃ message, decryptToken gcm config s = .error message) ∨
      decryptToken gcm config s = decryptValue gcm config s := by
  unfold decryptToken
  split
  · next first second third hparts =>
      rw [decryptValue_eq hkey hworker hparts]
      unfold decodePart
      simp only [Encoding.decodeString_eq_checked, Encoding.checked]
      split_ifs
      · right
        simp [hapi, Ending.ofExcept, validKeySize_of_length hkey]
      all_goals exact .inl ⟨_, rfl⟩
  · exact .inl ⟨_, rfl⟩

/-! ## What is made -/

/-- `gcmOpen` with a nonce of the right length. -/
theorem gcmOpen_nonce (gcm : GCM) (key : Bytes) (iv : Nonce) (sealedData : Bytes) :
    gcmOpen gcm key iv sealedData = match gcm.openBytes key iv sealedData with
      | none => .error "cipher: message authentication failed"
      | some plaintext => .value plaintext :=
  if_neg (not_not.mpr iv.property)

/-- **What is made on either side is decrypted on both.** -/
theorem decrypt_made (h : HexKey config) (iv : Nonce) (value : Bytes) :
    ∃ text, encryptToken gcm config (.ok iv) value = .ok text ∧
      encryptValue gcm config (.ok iv) value = .ok text ∧
      decryptToken gcm config text = .value value ∧ decryptValue gcm config text = .value value := by
  obtain ⟨key, hkey, hapi, hworker⟩ := exists_key h
  obtain ⟨first, second, third, hparts, tag, ct, hiv, htag, hct, hsealed⟩ :=
    exists_parts_sealedText gcm key iv value
  have hopen : gcmOpen gcm key iv (ct ++ tag) = .value value := by
    rw [gcmOpen_nonce, hsealed, gcm.open_seal]
  refine ⟨sealedText gcm key iv value, ?_, ?_, ?_, ?_⟩
  · rw [encryptToken, hapi]
    exact if_pos (validKeySize_of_length hkey)
  · rw [encryptValue, hworker]
    exact if_pos (validKeySize_of_length hkey)
  · unfold decryptToken
    rw [hparts]
    simp only [decodePart, Encoding.decodeString_eq_checked, hiv, htag, hct, Encoding.checked,
      if_true, Ending.bind_value, hapi, Ending.ofExcept, if_pos (validKeySize_of_length hkey), hopen]
  · rw [decryptValue_eq hkey hworker hparts, hiv, htag, hct, hopen]

/-! ## What is not made -/

/-- AES-GCM opens what it has sealed only. -/
def Exact (gcm : GCM) : Prop :=
  ∀ key iv sealedData value, gcm.openBytes key iv sealedData = some value →
    sealedData = gcm.sealBytes key iv value

/-- The call returns an error. -/
def Fails {α : Type} (ending : Ending α) : Prop := ∃ message, ending = .error message

/-- A text that the code makes. -/
def Made (gcm : GCM) (config s : String) : Prop :=
  ∃ iv value, encryptToken gcm config (.ok iv) value = .ok s

/-- **A text that cannot be opened**: it does not have three parts, or the first part has, as far as
it is base64, 12 bytes, and with them AES-GCM does not seal anything to the bytes of the third and
of the second part. -/
def Unopened (gcm : GCM) (key : Bytes) (s : String) : Prop :=
  ∀ first second third, splitText ':' s = [first, second, third] →
    (stdEncoding.decode first).1.length = 12 ∧ ∀ value,
      gcm.sealBytes key (stdEncoding.decode first).1 value ≠
        (stdEncoding.decode third).1 ++ (stdEncoding.decode second).1

/-- **When the worker returns an error.** -/
theorem fails_decryptValue_iff (hexact : Exact gcm) (hkey : key.length = 32)
    (hworker : workerKey config = .ok key) :
    Fails (decryptValue gcm config s) ↔ Unopened gcm key s := by
  by_cases hthree : ∃ first second third, splitText ':' s = [first, second, third]
  · obtain ⟨first, second, third, hparts⟩ := hthree
    have hone : Unopened gcm key s ↔ (stdEncoding.decode first).1.length = 12 ∧ ∀ value,
        gcm.sealBytes key (stdEncoding.decode first).1 value ≠
          (stdEncoding.decode third).1 ++ (stdEncoding.decode second).1 := by
      constructor
      · exact fun h => h first second third hparts
      · intro h first' second' third' hparts'
        rw [hparts] at hparts'
        cases hparts'
        exact h
    rw [hone, decryptValue_eq hkey hworker hparts]
    generalize (stdEncoding.decode first).1 = iv
    generalize (stdEncoding.decode third).1 ++ (stdEncoding.decode second).1 = sealedData
    unfold gcmOpen
    split_ifs with hlength
    · exact iff_of_false (fun ⟨_, h⟩ => nomatch h) fun h => hlength h.1
    · rw [and_iff_right (not_not.mp hlength)]
      cases hopen : gcm.openBytes key iv sealedData with
      | none =>
        refine iff_of_true ⟨_, rfl⟩ ?_
        rintro value rfl
        simp [gcm.open_seal] at hopen
      | some value =>
        refine iff_of_false (fun ⟨_, h⟩ => nomatch h) ?_
        exact fun h => h value (hexact _ _ _ _ hopen).symm
  · refine iff_of_true ?_ ?_
    · unfold decryptValue
      split
      · next first second third hparts => exact absurd ⟨first, second, third, hparts⟩ hthree
      · exact ⟨_, rfl⟩
    · exact fun first second third hparts => absurd ⟨first, second, third, hparts⟩ hthree

/-- The API returns an error where the worker does. -/
theorem fails_decryptToken (h : HexKey config) (hfails : Fails (decryptValue gcm config s)) :
    Fails (decryptToken gcm config s) := by
  obtain ⟨key, hkey, hapi, hworker⟩ := exists_key h
  rcases decryptToken_cases hkey hapi hworker with herror | heq
  · exact herror
  · rw [heq]
    exact hfails

/-- **Secrets cross, and other texts are rejected**, exactly if the text is made by the code or
cannot be opened. -/
theorem crosses_and_rejects_iff (hexact : Exact gcm) (h : HexKey config) (s : String) :
    ((∀ iv value, ∃ text, encryptToken gcm config (.ok iv) value = .ok text ∧
        encryptValue gcm config (.ok iv) value = .ok text ∧
        decryptToken gcm config text = .value value ∧ decryptValue gcm config text = .value value) ∧
      (¬ Made gcm config s → Fails (decryptToken gcm config s) ∧ Fails (decryptValue gcm config s))) ↔
    Made gcm config s ∨ ∀ key, oauthKey config = .ok key → Unopened gcm key s := by
  obtain ⟨key, hkey, hapi, hworker⟩ := exists_key h
  have hunopened : (∀ key, oauthKey config = .ok key → Unopened gcm key s) ↔
      Unopened gcm key s := by
    constructor
    · exact fun hall => hall key hapi
    · intro hone key' hkey'
      rw [hapi] at hkey'
      cases hkey'
      exact hone
  rw [and_iff_right (decrypt_made h), hunopened, ← fails_decryptValue_iff hexact hkey hworker,
    or_iff_not_imp_left]
  constructor
  · exact fun hrejects hmade => (hrejects hmade).2
  · exact fun hrejects hmade => ⟨fails_decryptToken h (hrejects hmade), hrejects hmade⟩

end decrypt

/-! ## Two texts -/

/-- Sixteen zeros behind what is sealed. -/
def zeroGCM : GCM where
  sealBytes _ _ data := data ++ replicate 16 0
  openBytes _ _ sealedData :=
    if sealedData.drop (sealedData.length - 16) = replicate 16 0 then
      some (sealedData.take (sealedData.length - 16))
    else none
  open_seal _ _ data := by simp
  length_seal := tagGCM.length_seal

theorem exact_zeroGCM : Exact zeroGCM := by
  intro key iv sealedData value h
  unfold zeroGCM at h ⊢
  dsimp only at h ⊢
  split_ifs at h with htag
  rw [← some.inj h, ← htag, take_append_drop]

/-- A key. -/
def zeroKey : String := .ofList (replicate 64 '0')

theorem hexKey_zeroKey : HexKey zeroKey := by decide +kernel

/-- A nonce, a wrong tag and no ciphertext. -/
theorem crosses_and_rejects_iff_plain : Exact zeroGCM ∧ HexKey zeroKey ∧
    (¬ Made zeroGCM zeroKey "AAAAAAAAAAAAAAAA:AQEBAQEBAQEBAQEBAQEBAQ==:" →
      Fails (decryptToken zeroGCM zeroKey "AAAAAAAAAAAAAAAA:AQEBAQEBAQEBAQEBAQEBAQ==:") ∧
        Fails (decryptValue zeroGCM zeroKey "AAAAAAAAAAAAAAAA:AQEBAQEBAQEBAQEBAQEBAQ==:")) := by
  refine ⟨exact_zeroGCM, hexKey_zeroKey, ?_⟩
  refine ((crosses_and_rejects_iff exact_zeroGCM hexKey_zeroKey _).mpr (.inr ?_)).2
  intro key _ first second third hparts
  have hthree : splitText ':' "AAAAAAAAAAAAAAAA:AQEBAQEBAQEBAQEBAQEBAQ==:" =
      ["AAAAAAAAAAAAAAAA", "AQEBAQEBAQEBAQEBAQEBAQ==", ""] := by decide +kernel
  rw [hthree] at hparts
  cases hparts
  refine ⟨by decide +kernel, fun value heq => ?_⟩
  have htag : (stdEncoding.decode "").1 ++ (stdEncoding.decode "AQEBAQEBAQEBAQEBAQEBAQ==").1 =
      replicate 16 1 := by decide +kernel
  rw [htag] at heq
  have hlast := congrArg getLast? heq
  simp [zeroGCM, getLast?_append] at hlast

/-- **A nonce that has been cut off** makes both sides panic. -/
theorem short_nonce_panics : ¬ (¬ Made zeroGCM zeroKey "AAAA:AAAAAAAAAAAAAAAAAAAAAA==:" →
      Fails (decryptToken zeroGCM zeroKey "AAAA:AAAAAAAAAAAAAAAAAAAAAA==:") ∧
        Fails (decryptValue zeroGCM zeroKey "AAAA:AAAAAAAAAAAAAAAAAAAAAA==:")) ∧
    decryptToken zeroGCM zeroKey "AAAA:AAAAAAAAAAAAAAAAAAAAAA==:" = .panic ∧
    decryptValue zeroGCM zeroKey "AAAA:AAAAAAAAAAAAAAAAAAAAAA==:" = .panic := by
  have hapi : decryptToken zeroGCM zeroKey "AAAA:AAAAAAAAAAAAAAAAAAAAAA==:" = .panic := by
    decide +kernel
  have hworker : decryptValue zeroGCM zeroKey "AAAA:AAAAAAAAAAAAAAAAAAAAAA==:" = .panic := by
    decide +kernel
  refine ⟨fun hrejects => ?_, hapi, hworker⟩
  have hmade : ¬ Made zeroGCM zeroKey "AAAA:AAAAAAAAAAAAAAAAAAAAAA==:" := by
    rintro ⟨iv, value, htext⟩
    obtain ⟨text, htext', -, hvalue, -⟩ := @decrypt_made zeroGCM _ hexKey_zeroKey iv value
    rw [htext] at htext'
    cases htext'
    rw [hapi] at hvalue
    cases hvalue
  obtain ⟨⟨message, herror⟩, -⟩ := hrejects hmade
  rw [hapi] at herror
  cases herror

/-- The worker decrypts a text with a character too many, which the API rejects. -/
example : decryptValue zeroGCM zeroKey "AAAAAAAAAAAAAAAA:AAAAAAAAAAAAAAAAAAAAAA==:!" = .value [] ∧
      Fails (decryptToken zeroGCM zeroKey "AAAAAAAAAAAAAAAA:AAAAAAAAAAAAAAAAAAAAAA==:!") := by
  refine ⟨by decide +kernel, "illegal base64 data", ?_⟩
  decide +kernel

end Dataflow.Connectors.Credentials
