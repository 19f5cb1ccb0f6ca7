import Mathlib.Data.List.DropRight
import Mathlib.Data.List.GetD
import Mathlib.Data.List.Nodup

/-!
# Base64

Bytes are written as text in groups of three, each group as four characters of an alphabet. A last
group of one or two bytes takes two or three characters, and the text is filled up to a multiple of
four if the encoding has a character for that.

* `Encoding`, `encodeToString`, `decodeString`: an alphabet, and how bytes are written and read.
* `decodeString_encodeToString`: **what is written is read**, with either kind of encoding.
* `utf8ByteSize_encodeToString`: how long a text without filling is.
* `decode`: the bytes that have been read up to an error; **`decodeString_eq_checked`**: without
  an error they are all of them.
-/

namespace Dataflow.Library.Base64

open List Option

/-- Bytes. -/
abbrev Bytes := List (BitVec 8)

/-! ## Digits -/

/-- The bytes in groups of six bits. -/
def digits : Bytes → List ℕ
  | [] => []
  | [a] => [a.toNat / 4, a.toNat % 4 * 16]
  | [a, b] => [a.toNat / 4, a.toNat % 4 * 16 + b.toNat / 16, b.toNat % 16 * 4]
  | a :: b :: c :: rest =>
    a.toNat / 4 :: (a.toNat % 4 * 16 + b.toNat / 16) :: (b.toNat % 16 * 4 + c.toNat / 64) ::
      c.toNat % 64 :: digits rest

/-- The bytes that digits are read as. What is left of a last group is not looked at. -/
def ofDigits : List ℕ → Option Bytes
  | [] => some []
  | [_] => none
  | [p, q] => some [.ofNat 8 (p * 4 + q / 16)]
  | [p, q, r] => some [.ofNat 8 (p * 4 + q / 16), .ofNat 8 (q % 16 * 16 + r / 4)]
  | p :: q :: r :: s :: rest =>
    (ofDigits rest).map fun bytes =>
      .ofNat 8 (p * 4 + q / 16) :: .ofNat 8 (q % 16 * 16 + r / 4) :: .ofNat 8 (r % 4 * 64 + s) :: bytes

theorem ofNat_eq (a : BitVec 8) {n : ℕ} (h : n = a.toNat) : BitVec.ofNat 8 n = a := by
  rw [h, BitVec.ofNat_toNat, BitVec.setWidth_eq]

variable (bytes : Bytes)

/-- The digits of bytes are read as the bytes. -/
theorem ofDigits_digits : ofDigits (digits bytes) = some bytes := by
  fun_induction digits bytes with
  | case1 => rfl
  | case2 a =>
    have ha := a.isLt
    rw [ofDigits, ofNat_eq a (by omega)]
  | case3 a b =>
    have ha := a.isLt
    have hb := b.isLt
    rw [ofDigits, ofNat_eq a (by omega), ofNat_eq b (by omega)]
  | case4 a b c rest ih =>
    have ha := a.isLt
    have hb := b.isLt
    have hc := c.isLt
    rw [ofDigits, ih, map_some, ofNat_eq a (by omega), ofNat_eq b (by omega), ofNat_eq c (by omega)]

theorem lt_of_mem_digits {bytes : Bytes} {d : ℕ} (h : d ∈ digits bytes) : d < 64 := by
  fun_induction digits bytes with
  | case1 => cases h
  | case2 a =>
    have ha := a.isLt
    simp only [mem_cons, not_mem_nil, or_false] at h
    omega
  | case3 a b =>
    have ha := a.isLt
    have hb := b.isLt
    simp only [mem_cons, not_mem_nil, or_false] at h
    omega
  | case4 a b c rest ih =>
    have ha := a.isLt
    have hb := b.isLt
    have hc := c.isLt
    simp only [mem_cons] at h
    rcases h with h | h | h | h | h
    · omega
    · omega
    · omega
    · omega
    · exact ih h

/-- `EncodedLen` without filling. -/
def encodedLen (n : ℕ) : ℕ := n / 3 * 4 + (n % 3 * 8 + 5) / 6

theorem length_digits : (digits bytes).length = encodedLen bytes.length := by
  fun_induction digits bytes with
  | case1 => rfl
  | case2 a => simp [encodedLen]
  | case3 a b => simp [encodedLen]
  | case4 a b c rest ih =>
    simp only [length_cons, ih, encodedLen]
    omega

/-- A text is filled up to a multiple of four. -/
theorem encodedLen_filled (n : ℕ) : (encodedLen n + (3 - n % 3) % 3) % 4 = 0 := by
  unfold encodedLen
  obtain h | h | h : n % 3 = 0 ∨ n % 3 = 1 ∨ n % 3 = 2 := by omega
  · rw [h]
    omega
  · rw [h]
    omega
  · rw [h]
    omega

theorem encodedLen_mono {m n : ℕ} (h : m ≤ n) : encodedLen m ≤ encodedLen n := by
  unfold encodedLen
  omega

/-! ## Encodings -/

/-- `base64.Encoding`: the character of each digit, and the one that texts are filled with. -/
structure Encoding where
  alphabet : List Char
  padChar : Option Char
  length : alphabet.length = 64
  nodup : alphabet.Nodup
  plain : (alphabet.all fun c => c != '\n' && c != '\r' && some c != padChar) = true
  ascii : (alphabet.all fun c => c.utf8Size == 1) = true
  padPlain : (padChar.all fun c => c != '\n' && c != '\r') = true

namespace Encoding

variable (enc : Encoding)

/-- The character of a digit. -/
def char (d : ℕ) : Char := enc.alphabet.getD d 'A'

/-- The digit of a character. -/
def digit (c : Char) : Option ℕ :=
  if c ∈ enc.alphabet then some (enc.alphabet.idxOf c) else none

/-- What a text is filled up with. -/
def filling (n : ℕ) : List Char :=
  match enc.padChar with
  | none => []
  | some pad => replicate ((3 - n % 3) % 3) pad

/-- `EncodeToString`. -/
def encodeToString (bytes : Bytes) : String :=
  String.ofList ((digits bytes).map enc.char ++ enc.filling bytes.length)

/-- The characters that have digits, and whether they were filled up as they must be. -/
def body (chars : List Char) : Option (List Char) :=
  match enc.padChar with
  | none => some chars
  | some pad =>
    let body := chars.rdropWhile (· == pad)
    if chars.length % 4 = 0 ∧ chars.length ≤ body.length + 2 then some body else none

/-- `DecodeString`: line breaks are skipped. -/
def decodeString (s : String) : Option Bytes := do
  let chars ← enc.body (s.toList.filter fun c => c != '\n' && c != '\r')
  ofDigits (← chars.mapM enc.digit)

/-- The loop of `Decode`, for characters that are no line breaks: the bytes, also those before an
error, and whether there is no error. -/
def decodeChars : List Char → Bytes × Bool
  | p :: q :: r :: s :: rest =>
    match enc.digit p, enc.digit q, enc.digit r, enc.digit s with
    | some p, some q, some r, some s =>
      (.ofNat 8 (p * 4 + q / 16) :: .ofNat 8 (q % 16 * 16 + r / 4) ::
        .ofNat 8 (r % 4 * 64 + s) :: (decodeChars rest).1, (decodeChars rest).2)
    | some p, some q, some r, none =>
      if enc.padChar = some s then
        ([.ofNat 8 (p * 4 + q / 16), .ofNat 8 (q % 16 * 16 + r / 4)], rest.isEmpty)
      else ([], false)
    | some p, some q, none, _ =>
      if enc.padChar = some r ∧ enc.padChar = some s then
        ([.ofNat 8 (p * 4 + q / 16)], rest.isEmpty)
      else ([], false)
    | _, _, _, _ => ([], false)
  | last =>
    if enc.padChar.isSome then ([], last.isEmpty)
    else
      match (last.mapM enc.digit).bind ofDigits with
      | some bytes => (bytes, true)
      | none => ([], false)

/-- `DecodeString`, of which a caller that ignores the error sees the bytes. -/
def decode (s : String) : Bytes × Bool :=
  enc.decodeChars (s.toList.filter fun c => c != '\n' && c != '\r')

variable {enc}

theorem char_mem {d : ℕ} (h : d < 64) : enc.char d ∈ enc.alphabet := by
  rw [← enc.length] at h
  rw [char, getD_eq_getElem _ _ h]
  exact getElem_mem h

theorem digit_char {d : ℕ} (h : d < 64) : enc.digit (enc.char d) = some d := by
  have hmem : enc.char d ∈ enc.alphabet := char_mem h
  rw [← enc.length] at h
  rw [digit, if_pos hmem, char, getD_eq_getElem _ _ h, enc.nodup.idxOf_getElem]

theorem plain_of_mem {c : Char} (h : c ∈ enc.alphabet) :
    (c != '\n' && c != '\r') = true ∧ enc.padChar ≠ some c := by
  have hplain := List.all_eq_true.mp enc.plain c h
  simp only [Bool.and_eq_true, bne_iff_ne] at hplain ⊢
  exact ⟨hplain.1, Ne.symm hplain.2⟩

theorem mem_of_mem_chars {bytes : Bytes} {c : Char} (h : c ∈ (digits bytes).map enc.char) :
    c ∈ enc.alphabet := by
  obtain ⟨d, hd, rfl⟩ := List.mem_map.mp h
  exact char_mem (lt_of_mem_digits hd)

/-- The characters of digits are read as the digits. -/
theorem mapM_digit {ds : List ℕ} (h : ∀ d ∈ ds, d < 64) :
    (ds.map enc.char).mapM enc.digit = some ds := by
  induction ds with
  | nil => rfl
  | cons d ds ih =>
    rw [forall_mem_cons] at h
    rw [map_cons, mapM_cons, digit_char h.1, ih h.2]
    rfl

/-- Nothing of a text is skipped. -/
theorem filter_chars : ((digits bytes).map enc.char ++ enc.filling bytes.length).filter
      (fun c => c != '\n' && c != '\r') = (digits bytes).map enc.char ++ enc.filling bytes.length := by
  rw [filter_eq_self]
  intro c hc
  rcases mem_append.mp hc with hc | hc
  · exact (plain_of_mem (mem_of_mem_chars hc)).1
  · have hpad := enc.padPlain
    unfold filling at hc
    split at hc
    · cases hc
    · next pad heq =>
        rw [heq, all_some] at hpad
        rw [eq_of_mem_replicate hc]
        exact hpad

theorem rdropWhile_append_replicate (chars : List Char) (n : ℕ) (pad : Char) :
    (chars ++ replicate n pad).rdropWhile (· == pad) = chars.rdropWhile (· == pad) := by
  induction n with
  | zero => rw [replicate_zero, append_nil]
  | succ n ih =>
    rw [replicate_succ', ← append_assoc]
    exact (rdropWhile_concat_pos (· == pad) _ pad (beq_self_eq_true pad)).trans ih

/-- The filling is taken off. -/
theorem body_chars : enc.body ((digits bytes).map enc.char ++ enc.filling bytes.length) =
      some ((digits bytes).map enc.char) := by
  unfold body filling
  cases heq : enc.padChar with
  | none => simp
  | some pad =>
    have hpad : ∀ c ∈ (digits bytes).map enc.char, ¬ (c == pad) = true := by
      intro c hc hbeq
      have hne := (plain_of_mem (mem_of_mem_chars hc)).2
      rw [heq, beq_iff_eq.mp hbeq] at hne
      exact hne rfl
    have hdrop : ((digits bytes).map enc.char ++
        replicate ((3 - bytes.length % 3) % 3) pad).rdropWhile (· == pad) =
          (digits bytes).map enc.char := by
      rw [rdropWhile_append_replicate, rdropWhile_eq_self_iff]
      exact fun hne => hpad _ (getLast_mem hne)
    have hlength : ((digits bytes).map enc.char ++
        replicate ((3 - bytes.length % 3) % 3) pad).length % 4 = 0 := by
      rw [length_append, length_map, length_digits, length_replicate]
      exact encodedLen_filled bytes.length
    have hle : ((digits bytes).map enc.char ++ replicate ((3 - bytes.length % 3) % 3) pad).length ≤
          ((digits bytes).map enc.char).length + 2 := by
      rw [length_append, length_replicate]
      omega
    dsimp only
    rw [hdrop, if_pos ⟨hlength, hle⟩]

/-- **What is written is read.** -/
theorem decodeString_encodeToString : enc.decodeString (enc.encodeToString bytes) = some bytes := by
  rw [decodeString, encodeToString, String.toList_ofList, filter_chars, body_chars]
  show ((digits bytes).map enc.char).mapM enc.digit >>= ofDigits = some bytes
  rw [mapM_digit fun d hd => lt_of_mem_digits hd]
  exact ofDigits_digits bytes

/-- The size in bytes of a text of characters of one byte. -/
theorem utf8ByteSize_ofList {chars : List Char} (h : ∀ c ∈ chars, c.utf8Size = 1) :
    (String.ofList chars).utf8ByteSize = chars.length := by
  induction chars with
  | nil => rfl
  | cons c chars ih =>
    rw [forall_mem_cons] at h
    rw [String.ofList_cons, String.utf8ByteSize_append, String.utf8ByteSize_singleton, h.1,
      ih h.2, length_cons, Nat.add_comm]

/-- The size in bytes of a text that is not filled up. -/
theorem utf8ByteSize_encodeToString (h : enc.padChar = none) :
    (enc.encodeToString bytes).utf8ByteSize = encodedLen bytes.length := by
  rw [encodeToString, filling, h, append_nil, utf8ByteSize_ofList, length_map, length_digits]
  intro c hc
  have hascii := List.all_eq_true.mp enc.ascii _ (mem_of_mem_chars hc)
  exact beq_iff_eq.mp hascii

/-! ### Errors -/

/-- The bytes, unless there is an error. -/
def checked (out : Bytes × Bool) : Option Bytes := if out.2 then some out.1 else none

theorem digit_eq_none {pad : Char} (h : enc.padChar = some pad) : enc.digit pad = none := by
  refine if_neg fun hmem => ?_
  exact (plain_of_mem hmem).2 h

theorem ne_pad_of_digit {pad c : Char} {d : ℕ} (h : enc.padChar = some pad)
    (hc : enc.digit c = some d) : (c == pad) = false := by
  rw [beq_eq_false_iff_ne]
  rintro rfl
  simp [digit_eq_none h] at hc

/-- A character without a digit. -/
theorem mapM_digit_eq_none {chars : List Char} {c : Char} (h : c ∈ chars)
    (hc : enc.digit c = none) : chars.mapM enc.digit = none := by
  induction chars with
  | nil => cases h
  | cons d chars ih =>
    rw [mapM_cons]
    rcases mem_cons.mp h with rfl | h
    · rw [hc]
      rfl
    · rw [ih h]
      cases enc.digit d <;> rfl

/-- What `decodeString` does with characters that are no line breaks. -/
def read (enc : Encoding) (chars : List Char) : Option Bytes :=
  (enc.body chars).bind fun chars => (chars.mapM enc.digit).bind ofDigits

theorem body_spec {chars body : List Char} (h : enc.body chars = some body) :
    body <+: chars ∧ (enc.padChar.isSome → chars.length % 4 = 0) ∧
    chars.length ≤ body.length + 2 := by
  unfold Encoding.body at h
  split at h
  · next hpad =>
      cases h
      exact ⟨prefix_refl _, by simp [hpad], by omega⟩
  · next pad hpad =>
      dsimp only at h
      split_ifs at h with hlength
      cases h
      exact ⟨ rdropWhile_prefix _ _, fun _ => hlength.1, hlength.2⟩

/-- Two digits are needed at the beginning. -/
theorem read_eq_none {p q : Char} {rest : List Char} (hlong : 2 ≤ rest.length)
    (h : enc.digit p = none ∨ enc.digit q = none) : read enc (p :: q :: rest) = none := by
  unfold read
  cases hbody : enc.body (p :: q :: rest) with
  | none => rfl
  | some body =>
    obtain ⟨hstart, -, hlength⟩ := body_spec hbody
    have hmem : p ∈ body ∧ q ∈ body := by
      obtain ⟨after, hafter⟩ := hstart
      match body, hlength, hafter with
      | [], hlength, _ =>
        simp only [length_cons, length_nil] at hlength
        omega
      | [_], hlength, _ =>
        simp only [length_cons, length_nil] at hlength
        omega
      | a :: b :: body, _, hafter =>
        simp only [cons_append, cons.injEq] at hafter
        rw [hafter.1, hafter.2.1]
        simp
    rw [bind_some]
    rcases h with h | h
    · rw [mapM_digit_eq_none hmem.1 h]
      rfl
    · rw [mapM_digit_eq_none hmem.2 h]
      rfl

theorem rdropWhile_append {α : Type} (f : α → Bool) (xs ys : List α) :
    (xs ++ ys).rdropWhile f = if ys.rdropWhile f =
      [] then xs.rdropWhile f else xs ++ ys.rdropWhile f := by
  simp only [List.rdropWhile, reverse_append, dropWhile_append, List.isEmpty_iff,
    reverse_eq_nil_iff]
  split_ifs with h
  · rfl
  · rw [reverse_append, reverse_reverse]

/-- **Four digits and the rest.** -/
theorem read_digits {p q r s : Char} {a b c d : ℕ} (hp : enc.digit p = some a)
    (hq : enc.digit q = some b) (hr : enc.digit r = some c) (hs : enc.digit s = some d)
    (rest : List Char) : read enc (p :: q :: r :: s :: rest) = (read enc rest).map fun bytes =>
      .ofNat 8 (a * 4 + b / 16) :: .ofNat 8 (b % 16 * 16 + c / 4) :: .ofNat 8 (c % 4 * 64 + d) :: bytes := by
  have hbody : enc.body (p :: q :: r :: s :: rest) =
      (enc.body rest).map fun body => p :: q :: r :: s :: body := by
    unfold Encoding.body
    cases hpad : enc.padChar with
    | none => rfl
    | some pad =>
      have hlast : [p, q, r, s].rdropWhile (· == pad) = [p, q, r, s] := by
        rw [rdropWhile_eq_self_iff]
        intro hne
        simp [ne_pad_of_digit hpad hs]
      have hdrop : (p :: q :: r :: s :: rest).rdropWhile (· == pad) =
          p :: q :: r :: s :: rest.rdropWhile (· == pad) := by
        have happend := rdropWhile_append (· == pad) [p, q, r, s] rest
        rw [hlast] at happend
        split_ifs at happend with hnil
        · rw [hnil]
          exact happend
        · exact happend
      dsimp only
      rw [hdrop]
      simp only [length_cons]
      split_ifs with hlength hrest hrest
      · rfl
      · omega
      · omega
      · rfl
  rw [read, hbody, read]
  cases enc.body rest with
  | none => rfl
  | some body =>
    rw [map_some, bind_some, bind_some, mapM_cons, mapM_cons, mapM_cons, mapM_cons, hp, hq, hr, hs]
    cases body.mapM enc.digit with
    | none | some ds => rfl

/-- **A group that does not have four digits** is the last one, and filled up. -/
theorem read_filled {p q r s : Char} {a b : ℕ} (hp : enc.digit p = some a)
    (hq : enc.digit q = some b) (h : enc.digit r = none ∨ enc.digit s = none) (rest : List Char) :
    read enc (p :: q :: r :: s :: rest) = if rest = [] ∧ enc.padChar = some s then
        match enc.digit r with
        | some c => some [.ofNat 8 (a * 4 + b / 16), .ofNat 8 (b % 16 * 16 + c / 4)]
        | none => if enc.padChar = some r then some [.ofNat 8 (a * 4 + b / 16)] else none
      else none := by
  have hmem : ∀ body : List Char, r ∈ body → s ∈ body →
      (body.mapM enc.digit).bind ofDigits = none := by
    intro body hr hs
    rcases h with h | h
    · rw [mapM_digit_eq_none hr h]
      rfl
    · rw [mapM_digit_eq_none hs h]
      rfl
  unfold read Encoding.body
  cases hpad : enc.padChar with
  | none =>
    rw [if_neg (by simp)]
    exact hmem _ (by simp) (by simp)
  | some pad =>
    dsimp only
    by_cases hlast : rest = [] ∧ some pad = some s
    · obtain ⟨rfl, hs⟩ := hlast
      obtain rfl : pad = s := some.inj hs
      have hdrop : [p, q, r, pad].rdropWhile (· == pad) = [p, q, r].rdropWhile (· == pad) :=
        rdropWhile_concat_pos (· == pad) [p, q, r] pad (beq_self_eq_true pad)
      rw [if_pos (show ([] : List Char) = [] ∧ some pad = some pad from ⟨rfl, rfl⟩), hdrop]
      cases hr : enc.digit r with
      | some c =>
        have hself : [p, q, r].rdropWhile (· == pad) = [p, q, r] := by
          rw [rdropWhile_eq_self_iff]
          intro hne
          simp [ne_pad_of_digit hpad hr]
        rw [hself, if_pos ⟨by simp, by simp⟩, bind_some, mapM_cons, mapM_cons,
          mapM_cons, hp, hq, hr]
        rfl
      | none =>
        dsimp only
        by_cases hrpad : r = pad
        · subst hrpad
          have hself : [p, q, r].rdropWhile (· == r) = [p, q] := by
            refine (rdropWhile_concat_pos (· == r) [p, q] r (beq_self_eq_true r)).trans ?_
            rw [rdropWhile_eq_self_iff]
            intro hne
            simp [ne_pad_of_digit hpad hq]
          rw [hself, if_pos ⟨by simp, by simp⟩, if_pos rfl, bind_some, mapM_cons, mapM_cons, hp, hq]
          rfl
        · have hself : [p, q, r].rdropWhile (· == pad) = [p, q, r] := by
            rw [rdropWhile_eq_self_iff]
            intro hne
            simpa using hrpad
          rw [hself, if_pos ⟨by simp, by simp⟩,
            if_neg (fun heq => hrpad (some.inj heq).symm), bind_some,
            mapM_digit_eq_none (by simp) hr]
          rfl
    · rw [if_neg hlast]
      split_ifs with hlength
      · obtain ⟨hmod, hle⟩ := hlength
        have happend := rdropWhile_append (· == pad) [p, q, r, s] rest
        rw [cons_append, cons_append, cons_append, singleton_append] at happend
        by_cases hall : rest.rdropWhile (· == pad) = []
        · rw [if_pos hall] at happend
          by_cases hs : s = pad
          · subst hs
            have hdrop : [p, q, r, s].rdropWhile (· == s) = [p, q, r].rdropWhile (· == s) :=
              rdropWhile_concat_pos (· == s) [p, q, r] s (beq_self_eq_true s)
            have hshort := ( rdropWhile_prefix (· == s) (l := [p, q, r])).length_le
            rw [happend, hdrop] at hle
            simp only [length_cons, length_nil] at hmod hle hshort
            have hrest : rest = [] := length_eq_zero_iff.mp (by omega)
            exact absurd ⟨hrest, rfl⟩ hlast
          · have hself : [p, q, r, s].rdropWhile (· == pad) = [p, q, r, s] := by
              rw [rdropWhile_eq_self_iff]
              intro hne
              simpa using hs
            rw [happend, hself]
            exact hmem _ (by simp) (by simp)
        · rw [happend, if_neg hall]
          exact hmem _ (by simp) (by simp)
      · rfl

/-- What is left after the groups of four. -/
theorem read_short {last : List Char} (enc : Encoding) (hshort : last.length < 4)
    (hloop : enc.decodeChars last = if enc.padChar.isSome then ([], last.isEmpty) else
        match (last.mapM enc.digit).bind ofDigits with
        | some bytes => (bytes, true)
        | none => ([], false)) : read enc last = checked (enc.decodeChars last) := by
  rw [hloop]
  split_ifs with hpad
  · cases last with
    | nil =>
      obtain ⟨pad, hpad⟩ := isSome_iff_exists.mp hpad
      simp [read, Encoding.body, hpad, checked, ofDigits]
    | cons p last =>
      unfold read
      cases hbody : enc.body (p :: last) with
      | none => rfl
      | some body =>
        have hmod := (body_spec hbody).2.1 hpad
        rw [length_cons] at hmod hshort
        omega
  · have hbody : enc.body last = some last := by
      unfold Encoding.body
      rw [not_isSome_iff_eq_none.mp hpad]
    rw [read, hbody, bind_some]
    cases (last.mapM enc.digit).bind ofDigits with
    | none | some bytes => rfl

/-- The loop reads what `decodeString` reads. -/
theorem read_eq_checked (enc : Encoding) :
    ∀ chars : List Char, read enc chars = checked (enc.decodeChars chars)
  | p :: q :: r :: s :: rest => by
    have ih := read_eq_checked enc rest
    rw [decodeChars]
    cases hp : enc.digit p with
    | none => exact read_eq_none (by simp) (.inl hp)
    | some a =>
      cases hq : enc.digit q with
      | none => exact read_eq_none (by simp) (.inr hq)
      | some b =>
        cases hr : enc.digit r with
        | none =>
          rw [read_filled hp hq (.inl hr), hr]
          dsimp only
          split_ifs with hlast hrpad hboth hboth hboth
          · rw [checked, if_pos (by simpa using hlast.1)]
          · exact absurd ⟨hrpad, hlast.2⟩ hboth
          · exact absurd hboth.1 hrpad
          · rfl
          · rw [checked, if_neg]
            rw [List.isEmpty_iff]
            exact fun hnil => hlast ⟨hnil, hboth.2⟩
          · rfl
        | some c =>
          cases hs : enc.digit s with
          | none =>
            rw [read_filled hp hq (.inr hs), hr]
            dsimp only
            split_ifs with hlast hpad hpad
            · rw [checked, if_pos (by simpa using hlast.1)]
            · exact absurd hlast.2 hpad
            · rw [checked, if_neg]
              rw [List.isEmpty_iff]
              exact fun hnil => hlast ⟨hnil, hpad⟩
            · rfl
          | some d =>
            rw [read_digits hp hq hr hs, ih]
            unfold checked
            dsimp only
            split_ifs
            · rfl
            · rfl
  | [] => read_short _ (by simp) (by simp [decodeChars])
  | [_] => read_short _ (by simp) (by simp [decodeChars])
  | [_, _] => read_short _ (by simp) (by simp [decodeChars])
  | [_, _, _] => read_short _ (by simp) (by simp [decodeChars])

/-- **`DecodeString`** gives what its loop reads, if that finds no error. -/
theorem decodeString_eq_checked (s : String) : enc.decodeString s = checked (enc.decode s) :=
  read_eq_checked enc _

/-- What is written is read without an error. -/
theorem decode_encodeToString : enc.decode (enc.encodeToString bytes) = (bytes, true) := by
  have hread : checked (enc.decode (enc.encodeToString bytes)) = some bytes := by
    rw [← decodeString_eq_checked, decodeString_encodeToString]
  unfold checked at hread
  split_ifs at hread with hok
  exact Prod.ext (some.inj hread) hok

end Encoding

/-- Capital letters, small letters and digits. -/
def lettersAndDigits : List Char :=
  ((List.range 26).map (65 + ·) ++ (List.range 26).map (97 + ·) ++ (List.range 10).map (48 + ·)).map .ofNat

/-- `base64.StdEncoding`. -/
def stdEncoding : Encoding where
  alphabet := lettersAndDigits ++ ['+', '/']
  padChar := some '='
  length := by decide +kernel
  nodup := by decide +kernel
  plain := by decide +kernel
  ascii := by decide +kernel
  padPlain := by decide +kernel

/-- `base64.RawURLEncoding`. -/
def rawURLEncoding : Encoding where
  alphabet := lettersAndDigits ++ ['-', '_']
  padChar := none
  length := by decide +kernel
  nodup := by decide +kernel
  plain := by decide +kernel
  ascii := by decide +kernel
  padPlain := by decide +kernel

/-- Five bytes, with filling. -/
example : stdEncoding.encodeToString [104, 101, 108, 108, 111] = "aGVsbG8=" := by decide +kernel

end Dataflow.Library.Base64
