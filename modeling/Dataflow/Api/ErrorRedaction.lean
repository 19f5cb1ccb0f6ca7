import Dataflow.Library.Replace
import Dataflow.Library.Runs
import Mathlib.Data.List.Find

/-!
# Secrets in the errors of executions

The errors that the API shows are searched for keys of secrets, and what stands behind such a key up
to the next blank, comma, semicolon or brace is replaced.

* `sensitiveHead`, `redact`: the code: the regular expression is a key with its separator, which
  stays, and the run of characters behind it.
* `SecretPlace`, `SecretValue`: a text with a place for a secret behind one of the keys, and what
  can stand there. `gaps` are the characters of a value at which a run ends.
* `SecretPlace.Covered`: the expression finds the place: a match of it is open there.
* **`redact_shapes_iff`**: values of two shapes are redacted alike exactly if the place is covered
  and the values have no gaps.
* `quoted_key_leaks`: a key in quotes, and a credential behind its scheme.

Source: `routes_executions.go` `sensitiveText`, `redact`
-/

namespace Dataflow.Api.ErrorRedaction

open Library.Replace ( prefix_of_prefix_append)
open Library.Runs List Option

/-! ## The code -/

/-- The folding of `(?i)`: two signs besides the capitals fold to letters. -/
def fold (c : Char) : Char :=
  if c = '\u017f' then 's' else if c = '\u212a' then 'k' else c.toLower

/-- `\s`. -/
def isBlank (c : Char) : Bool := c ∈ [' ', '\t', '\n', '\x0c', '\r']

/-- `[^\s,;}]`. -/
def isValueChar (c : Char) : Bool := !(isBlank c || c ∈ [',', ';', '\x7d'])

/-- `(password|secret|token|authorization|api[-_]?key)`. -/
def sensitiveKeys : List (List Char) :=
  ["password", "secret", "token", "authorization", "apikey", "api-key", "api_key"].map String.toList

/-- `[=:]`. -/
def isSeparator (c : Char) : Bool := c = '=' || c = ':'

/-- How long a key with its separator and the blanks around it is, at the start of a text. -/
def sensitiveHead (text : List Char) : Option ℕ :=
  (sensitiveKeys.find? fun key => key <+: text.map fold).bind fun key =>
    let name := key.length + ((text.drop key.length).takeWhile isBlank).length
    match text.drop name with
    | [] => none
    | c :: rest => if isSeparator c then some (name + 1 + (rest.takeWhile isBlank).length) else none

/-- `ReplaceAllString` with `$1$2[REDACTED]`. -/
def replaceSecrets (text : List Char) : List Char :=
  replaceRuns sensitiveHead isValueChar "[REDACTED]".toList text

/-- Source: `routes_executions.go` `redact`. -/
def redact (value : String) : String := .ofList (replaceSecrets value.toList)

example : redact "connect: api_key = abc, Token:x;" =
    "connect: api_key = [REDACTED], Token:[REDACTED];" := by decide +kernel

/-! ## The head of a match -/

section heads

variable {text rest : List Char} {c : Char} {n : ℕ}

theorem takeWhile_append_cons {p : Char → Bool} (hc : p c = false) (text rest : List Char) :
    (text ++ c :: rest).takeWhile p = text.takeWhile p := by
  induction text with
  | nil => rw [nil_append, takeWhile_cons, hc]; rfl
  | cons d text ih => rw [cons_append, takeWhile_cons, takeWhile_cons, ih]

theorem sensitiveHead_bounds (h : sensitiveHead text = some n) : 0 < n ∧ n ≤ text.length := by
  rw [sensitiveHead, bind_eq_some_iff] at h
  obtain ⟨key, -, h⟩ := h
  dsimp only at h
  generalize key.length + ((text.drop key.length).takeWhile isBlank).length = name at h
  cases hrest : text.drop name with
  | nil => rw [hrest] at h; cases h
  | cons c rest =>
    rw [hrest] at h
    dsimp only at h
    split_ifs at h
    obtain rfl := some.inj h
    have hlength := congrArg List.length hrest
    have hblanks := ( takeWhile_prefix (p := isBlank) (l := rest)).length_le
    rw [length_drop, length_cons] at hlength
    omega

/-- No key starts with another letter. -/
theorem sensitiveHead_eq_none (h : fold c ∉ ['p', 's', 't', 'a']) :
    sensitiveHead (c :: rest) = none := by
  have hfind : (sensitiveKeys.find? fun key => key <+: (c :: rest).map fold) = none := by
    rw [find?_eq_none]
    intro key hkey hstart
    have hfirst : ∀ key ∈ sensitiveKeys, key.head? ∈ ['p', 's', 't', 'a'].map some := by decide
    rw [decide_eq_true_eq] at hstart
    cases key with
    | nil => exact absurd (hfirst [] hkey) (by decide)
    | cons d key =>
      rw [map_cons, cons_prefix_cons] at hstart
      apply h
      rw [← hstart.1]
      exact (List.mem_map_of_injective (some_injective _)).mp (hfirst _ hkey)
  rw [sensitiveHead, hfind, bind_none]

theorem fold_of_separator (h : isSeparator c = true) : fold c = c ∧ isBlank c = false ∧
    ∀ key ∈ sensitiveKeys, c ∉ key := by
  simp only [isSeparator, Bool.or_eq_true, decide_eq_true_eq] at h
  rcases h with rfl | rfl <;> decide

/-- **A text with a separator**: its key is in front of the separator. -/
theorem sensitiveHead_append_cons (h : isSeparator c = true) (text rest : List Char) :
    sensitiveHead (text ++ c :: rest) =
      (sensitiveKeys.find? fun key => key <+: text.map fold).bind fun key =>
        let name := key.length + ((text.drop key.length).takeWhile isBlank).length
        match text.drop name with
        | [] => some (name + 1 + (rest.takeWhile isBlank).length)
        | d :: more =>
          if isSeparator d then some (name + 1 + (more.takeWhile isBlank).length) else none := by
  obtain ⟨hfold, hblank, hkeys⟩ := fold_of_separator h
  have hfind : (sensitiveKeys.find? fun key => key <+: (text ++ c :: rest).map fold) =
      sensitiveKeys.find? fun key => key <+: text.map fold := by
    refine find?_congr fun key hkey => ?_
    rw [decide_eq_decide, map_append, map_cons, hfold]
    exact ⟨prefix_of_prefix_append (hkeys key hkey), fun hprefix => hprefix.trans ⟨_, rfl⟩⟩
  rw [sensitiveHead, hfind]
  cases hkey : sensitiveKeys.find? fun key => key <+: text.map fold with
  | none => rfl
  | some key =>
    have hlength : key.length ≤ text.length := by
      have hprefix := find?_some hkey
      rw [decide_eq_true_eq] at hprefix
      exact hprefix.length_le.trans_eq (length_map _)
    rw [bind_some, bind_some, drop_append_of_le_length hlength, takeWhile_append_cons hblank]
    dsimp only
    have hname : key.length + ((text.drop key.length).takeWhile isBlank).length ≤ text.length := by
      have hblanks :=
        ( takeWhile_prefix (p := isBlank) (l := text.drop key.length)).length_le
      rw [length_drop] at hblanks
      omega
    rw [drop_append_of_le_length hname]
    cases hdrop : text.drop (key.length + ((text.drop key.length).takeWhile isBlank).length) with
    | nil => simp only [nil_append, h, if_true]
    | cons d more => simp only [cons_append, takeWhile_append_cons hblank]

/-- **What follows a separator** changes no head in front of it. -/
theorem follows_of_separator {before space : List Char} (hsep : isSeparator c = true)
    (hspace : ∀ d ∈ space, isBlank d = true)
    (hrest : ∃ d more, rest = d :: more ∧ isValueChar d = true) :
    Follows sensitiveHead isValueChar (before ++ c :: space) rest := by
  refine ⟨fun tail htail hne => ?_, hrest⟩
  obtain ⟨d, more, rfl, hd⟩ := hrest
  have hblank : isBlank d = false := by
    rw [isValueChar] at hd
    simp_all
  obtain ⟨first, hfirst⟩ := htail
  rcases append_eq_append_iff.mp hfirst with ⟨front, -, rfl⟩ | ⟨front, rfl, hback⟩
  · rw [append_assoc, cons_append, sensitiveHead_append_cons hsep,
      sensitiveHead_append_cons hsep, takeWhile_append_cons hblank]
  · cases front with
    | nil =>
      rw [nil_append] at hback
      have hlong := sensitiveHead_append_cons hsep [] (space ++ d :: more)
      rw [takeWhile_append_cons hblank] at hlong
      rw [← hback]
      exact hlong.trans (sensitiveHead_append_cons hsep [] space).symm
    | cons e front =>
      obtain ⟨rfl, hmore⟩ := cons.inj hback
      cases tail with
      | nil => exact absurd rfl hne
      | cons e tail =>
        have he : fold e ∉ ['p', 's', 't', 'a'] := by
          have he := hspace e (hmore ▸ mem_append_right front mem_cons_self)
          simp only [isBlank, mem_cons, not_mem_nil, or_false, decide_eq_true_eq] at he
          rcases he with rfl | rfl | rfl | rfl | rfl <;> decide
        rw [cons_append, sensitiveHead_eq_none he, sensitiveHead_eq_none he]

end heads

/-! ## Secrets in a text -/

/-- A text with a place for a secret behind one of the keys, which may be in quotes. -/
structure SecretPlace where
  before : List Char
  quoted : Bool
  key : List Char
  gap : List Char
  separator : Char
  space : List Char
  after : List Char
  isKey : key.map fold ∈ sensitiveKeys
  isGap : ∀ c ∈ gap, isBlank c = true
  isSeparator : isSeparator separator = true
  isSpace : ∀ c ∈ space, isBlank c = true

/-- The key as it stands in the text. -/
def SecretPlace.name (place : SecretPlace) : List Char :=
  if place.quoted then '"' :: place.key ++ ['"'] else place.key

/-- What stands in front of the secret. -/
def SecretPlace.lead (place : SecretPlace) : List Char :=
  place.before ++ place.name ++ place.gap ++ place.separator :: place.space

/-- The text with a value in the place. -/
def SecretPlace.text (place : SecretPlace) (value : List Char) : String :=
  .ofList (place.lead ++ (value ++ place.after))

/-- **The expression finds the place**: a match of it is open in front of the secret. -/
def SecretPlace.Covered (place : SecretPlace) : Prop :=
  opens sensitiveHead isValueChar place.lead = true

instance : DecidablePred SecretPlace.Covered := fun _ => inferInstanceAs (Decidable (_ = true))

/-- The forms of a value. -/
inductive ValueForm where
  | bare
  | quoted
  | scheme

/-- The value has the form: a word, a text in quotes, or a credential behind its scheme. -/
def ValueForm.Has : ValueForm → List Char → Prop
  | .bare, value => value ≠ [] ∧ ∀ c ∈ value, isValueChar c = true
  | .quoted, value => ∃ content, value = '"' :: (content ++ ['"'])
  | .scheme, value => ∃ scheme blanks credential, value = scheme ++ (blanks ++ credential) ∧
      (scheme ≠ [] ∧ ∀ c ∈ scheme, isValueChar c = true) ∧
      (blanks ≠ [] ∧ ∀ c ∈ blanks, isBlank c = true) ∧
      credential ≠ [] ∧ ∀ c ∈ credential, isValueChar c = true

/-- A secret. -/
structure SecretValue where
  form : ValueForm
  chars : List Char
  has : form.Has chars

/-- The characters of a value at which a run ends. -/
def SecretValue.gaps (value : SecretValue) : List Char :=
  value.chars.filter fun c => !isValueChar c

/-- Two values of one form with the same gaps. -/
def SecretValue.SameShape (value value' : SecretValue) : Prop :=
  value.form = value'.form ∧ value.gaps = value'.gaps

section secrets

variable {place : SecretPlace} {value value' : SecretValue}

/-- A value starts with a character that can be a part of a run. -/
theorem SecretValue.exists_cons (value : SecretValue) :
    ∃ c more, value.chars = c :: more ∧ isValueChar c = true := by
  obtain ⟨form, chars, has⟩ := value
  have hword : ∀ word : List Char, word ≠ [] → (∀ c ∈ word, isValueChar c = true) →
      ∃ c more, word = c :: more ∧ isValueChar c = true := by
    intro word hne hall
    obtain ⟨c, more, rfl⟩ := exists_cons_of_ne_nil hne
    exact ⟨c, more, rfl, hall c mem_cons_self⟩
  cases form with
  | bare => exact hword chars has.1 has.2
  | quoted =>
    obtain ⟨content, rfl⟩ := has
    exact ⟨'"', _, rfl, by decide⟩
  | scheme =>
    obtain ⟨scheme, blanks, credential, rfl, ⟨hne, hall⟩, -⟩ := has
    obtain ⟨c, more, rfl, hc⟩ := hword scheme hne hall
    exact ⟨c, _, rfl, hc⟩

/-- What is left to search from the place on: what is behind the first gap of the value where the
place is covered, and the value itself where it is not. -/
def SecretPlace.left (place : SecretPlace) (value : SecretValue) : List Char :=
  if place.Covered then (value.chars ++ place.after).dropWhile isValueChar
  else value.chars ++ place.after

/-- **A value matters** through what is left to search. -/
theorem redact_text_eq_iff : redact (place.text value.chars) = redact (place.text value'.chars) ↔
    replaceSecrets (place.left value) = replaceSecrets (place.left value') := by
  obtain ⟨replaced, h⟩ := @exists_replaceRuns_append _ sensitiveHead isValueChar
    "[REDACTED]".toList (fun _ _ => sensitiveHead_bounds) place.lead
  have hleft : ∀ value : SecretValue, redact (place.text value.chars) =
      .ofList (replaced ++ replaceSecrets (place.left value)) := by
    intro value
    obtain ⟨c, more, heq, hc⟩ := value.exists_cons
    rw [redact, SecretPlace.text, String.toList_ofList, replaceSecrets, h]
    · rfl
    · exact follows_of_separator place.isSeparator place.isSpace
        ⟨c, more ++ place.after, by rw [heq, List.cons_append], hc⟩
  rw [hleft, hleft, String.ofList_inj, List.append_cancel_left_eq]

/-- A value without a gap leaves nothing where the place is covered. -/
theorem left_of_covered (hcovered : place.Covered) (hgaps : value.gaps = []) :
    place.left value = place.after.dropWhile isValueChar := by
  rw [SecretPlace.left, if_pos hcovered]
  refine List.dropWhile_append_of_pos fun c hc => ?_
  have hkept := List.filter_eq_nil_iff.mp hgaps c hc
  simpa using hkept

/-! ## Values of a shape -/

/-- A character that starts no key and stays as it is. -/
def Inert (c : Char) : Prop := fold c ∉ ['p', 's', 't', 'a']

/-- Such characters stay. -/
theorem replaceSecrets_append {chars : List Char} (h : ∀ c ∈ chars, Inert c) (rest : List Char) :
    replaceSecrets (chars ++ rest) = chars ++ replaceSecrets rest := by
  induction chars with
  | nil => rfl
  | cons c chars ih =>
    rw [List.forall_mem_cons] at h
    have hnone : matchRun sensitiveHead isValueChar (c :: (chars ++ rest)) = none :=
      matchRun_eq_none (sensitiveHead_eq_none h.1)
    rw [replaceSecrets, List.cons_append, replaceRuns_cons_of_none hnone]
    exact congrArg (c :: ·) (ih h.2)

theorem inert_of_gap {c : Char} (h : isValueChar c = false) : Inert c := by
  have hc : c ∈ [' ', '\t', '\n', '\x0c', '\r'] ++ [',', ';', '\x7d'] := by
    simp only [isValueChar, isBlank, Bool.not_eq_false', Bool.or_eq_true, decide_eq_true_eq] at h
    exact List.mem_append.mpr h
  have hall : ([' ', '\t', '\n', '\x0c', '\r'] ++ [',', ';', '\x7d']).all
      fun c => decide (fold c ∉ ['p', 's', 't', 'a']) := by decide
  have hinert : fold c ∉ ['p', 's', 't', 'a'] := of_decide_eq_true (List.all_eq_true.mp hall c hc)
  exact hinert

/-- A value of the same shape, made of a digit. -/
def SecretValue.sample (value : SecretValue) (digit : Char) : List Char :=
  match value.form with
  | .bare => [digit]
  | .quoted => '"' :: (value.gaps.flatMap (fun gap => [gap, digit]) ++ [digit] ++ ['"'])
  | .scheme => digit :: (value.gaps ++ [digit])

theorem filter_word {word : List Char} (h : ∀ c ∈ word, isValueChar c = true) :
    word.filter (fun c => !isValueChar c) = [] :=
  List.filter_eq_nil_iff.mpr fun c hc => by simp [h c hc]

theorem filter_words {gaps : List Char} {digit : Char} (hgaps : ∀ c ∈ gaps, isValueChar c = false)
    (hdigit : isValueChar digit = true) :
    (gaps.flatMap fun gap => [gap, digit]).filter (fun c => !isValueChar c) = gaps := by
  induction gaps with
  | nil => rfl
  | cons gap gaps ih =>
    rw [List.forall_mem_cons] at hgaps
    simp [hgaps.1, hdigit, ih hgaps.2]

theorem SecretValue.gaps_false (value : SecretValue) : ∀ c ∈ value.gaps, isValueChar c = false := by
  intro c hc
  simpa using List.of_mem_filter hc

theorem gaps_scheme {scheme blanks credential : List Char}
    (hscheme : ∀ c ∈ scheme, isValueChar c = true) (hblanks : ∀ c ∈ blanks, isBlank c = true)
    (hcredential : ∀ c ∈ credential, isValueChar c = true) :
    (scheme ++ (blanks ++ credential)).filter (fun c => !isValueChar c) = blanks := by
  have hkept : blanks.filter (fun c => !isValueChar c) = blanks := by
    refine List.filter_eq_self.mpr fun c hc => ?_
    rw [isValueChar, hblanks c hc]
    rfl
  rw [List.filter_append, List.filter_append, hkept, filter_word hscheme, filter_word hcredential,
    List.nil_append, List.append_nil]

/-- **The sample is a value** of the shape. -/
theorem exists_sample (value : SecretValue) {digit : Char} (h : isValueChar digit = true) :
    ∃ sample : SecretValue, sample.SameShape value ∧ sample.chars = value.sample digit := by
  have hdigit : ∀ c ∈ [digit], isValueChar c = true := List.forall_mem_singleton.mpr h
  have hgaps := value.gaps_false
  obtain ⟨form, chars, has⟩ := value
  cases form with
  | bare =>
    refine ⟨⟨.bare, [digit], List.cons_ne_nil _ _, hdigit⟩, ⟨rfl, ?_⟩, rfl⟩
    exact (filter_word hdigit).trans (filter_word has.2).symm
  | quoted =>
    refine ⟨⟨.quoted, _, _, rfl⟩, ⟨rfl, ?_⟩, rfl⟩
    rw [SecretValue.gaps, List.filter_cons_of_neg (by decide), List.filter_append,
      List.filter_append, filter_words hgaps h, filter_word hdigit, List.append_nil,
      filter_word (List.forall_mem_singleton.mpr (by decide)), List.append_nil]
  | scheme =>
    obtain ⟨scheme, blanks, credential, rfl, hscheme, hblanks, hcredential⟩ := has
    have heq := gaps_scheme hscheme.2 hblanks.2 hcredential.2
    refine ⟨⟨.scheme, [digit] ++ (blanks ++ [digit]), [digit], blanks, [digit], rfl,
      ⟨List.cons_ne_nil _ _, hdigit⟩, hblanks, List.cons_ne_nil _ _, hdigit⟩, ⟨rfl, ?_⟩, ?_⟩
    · exact (gaps_scheme hdigit hblanks.2 hdigit).trans heq.symm
    · rw [SecretValue.sample, SecretValue.gaps, heq]
      rfl

theorem inert_sample (value : SecretValue) {digit : Char} (h : Inert digit) :
    ∀ c ∈ value.sample digit, Inert c := by
  have hgaps : ∀ c ∈ value.gaps, Inert c := fun c hc => inert_of_gap (value.gaps_false c hc)
  have hquote : Inert '"' := by
    unfold Inert
    decide
  intro c hc
  unfold SecretValue.sample at hc
  split at hc
  · exact mem_singleton.mp hc ▸ h
  · simp only [mem_cons, mem_append, mem_flatMap, not_mem_nil, or_false] at hc
    rcases hc with rfl | (⟨gap, hgap, rfl | rfl⟩ | rfl) | rfl
    · exact hquote
    · exact hgaps c hgap
    · exact h
    · exact h
    · exact hquote
  · simp only [mem_cons, mem_append, not_mem_nil, or_false] at hc
    rcases hc with rfl | hc | rfl
    · exact h
    · exact hgaps c hc
    · exact h

theorem sample_ne (value : SecretValue) : value.sample '1' ≠ value.sample '2' := by
  intro h
  unfold SecretValue.sample at h
  split at h
  · exact absurd h (by decide)
  · rw [cons_inj_right, append_cancel_right_eq] at h
    exact absurd ( append_inj_right' h rfl) (by decide)
  · exact absurd (cons.inj h).1 (by decide)

/-- The sample of a shape with a gap is a run, the gap, and what tells the digits apart. -/
theorem exists_sample_eq {gap : Char} {gaps : List Char} (h : value.gaps = gap :: gaps) :
    ∃ word kept : Char → List Char, kept '1' ≠ kept '2' ∧ ∀ digit, isValueChar digit = true →
      value.sample digit = word digit ++ gap :: kept digit ∧
        ∀ c ∈ word digit, isValueChar c = true := by
  unfold SecretValue.sample
  rw [h]
  split
  next hform =>
    obtain ⟨form, chars, has⟩ := value
    cases hform
    simp [SecretValue.gaps, filter_word has.2] at h
  · refine ⟨fun _ => ['"'], fun digit =>
      digit :: (gaps.flatMap (fun gap => [gap, digit]) ++ [digit] ++ ['"']), ?_, fun digit _ => ?_⟩
    · exact fun heq => absurd (cons.inj heq).1 (by decide)
    · exact ⟨rfl, forall_mem_singleton.mpr (by decide)⟩
  · refine ⟨fun digit => [digit], fun digit => gaps ++ [digit], ?_, fun digit hdigit => ?_⟩
    · exact fun heq => absurd ( append_inj_right' heq rfl) (by decide)
    · exact ⟨rfl, forall_mem_singleton.mpr hdigit⟩

/-- Where the place is not covered, or the value has a gap, digits of the sample are kept. -/
theorem exists_kept (h : ¬ place.Covered ∨ value.gaps ≠ []) : ∃ kept : Char → List Char,
    kept '1' ≠ kept '2' ∧ ∀ digit ∈ ['1', '2'], ∀ sample : SecretValue,
      sample.chars = value.sample digit →
        replaceSecrets (place.left sample) = kept digit ++ replaceSecrets place.after := by
  have hdigits : ∀ digit ∈ ['1', '2'], isValueChar digit = true ∧ Inert digit := by
    unfold Inert
    rw [forall_mem_cons, forall_mem_singleton]
    decide
  by_cases hcovered : place.Covered
  · obtain ⟨gap, gaps, hgaps⟩ :=
      exists_cons_of_ne_nil (h.resolve_left (not_not.mpr hcovered))
    have hgap : isValueChar gap = false :=
      value.gaps_false gap (hgaps ▸ mem_cons_self)
    obtain ⟨word, kept, hne, hsample⟩ := exists_sample_eq hgaps
    refine ⟨fun digit => gap :: kept digit, fun heq => hne (cons.inj heq).2, ?_⟩
    intro digit hdigit sample hchars
    obtain ⟨hvalue, hinert⟩ := hdigits digit hdigit
    obtain ⟨heq, hword⟩ := hsample digit hvalue
    have hkept : ∀ c ∈ gap :: kept digit, Inert c := fun c hc =>
      inert_sample value hinert c (heq ▸ mem_append_right (word digit) hc)
    rw [SecretPlace.left, if_pos hcovered, hchars, heq, append_assoc,
      dropWhile_append_of_pos hword, cons_append, dropWhile_cons, hgap]
    exact replaceSecrets_append hkept place.after
  · refine ⟨value.sample, sample_ne value, fun digit hdigit sample hchars => ?_⟩
    rw [SecretPlace.left, if_neg hcovered, hchars]
    exact replaceSecrets_append (inert_sample value (hdigits digit hdigit).2) _

/-- **Secrets in errors.** Values of two shapes are redacted alike exactly if the expression finds
the place and neither value has a gap. -/
theorem redact_shapes_iff (place : SecretPlace) (value value' : SecretValue) :
    (∀ other other' : SecretValue, other.SameShape value → other'.SameShape value' →
      redact (place.text other.chars) = redact (place.text other'.chars)) ↔
        place.Covered ∧ value.gaps = [] ∧ value'.gaps = [] := by
  constructor
  · intro h
    -- a shape that is kept has two samples that the other value would have to agree with
    have hshape : ∀ value : SecretValue, (∀ sample sample' : SecretValue,
        sample.SameShape value → sample'.SameShape value →
          redact (place.text sample.chars) = redact (place.text sample'.chars)) →
            place.Covered ∧ value.gaps = [] := by
      intro value hsame
      by_contra hnot
      rw [not_and_or] at hnot
      obtain ⟨kept, hne, hkept⟩ := exists_kept hnot
      obtain ⟨one, hone, hchars⟩ := @exists_sample value '1' (by decide)
      obtain ⟨two, htwo, hchars'⟩ := @exists_sample value '2' (by decide)
      have heq := redact_text_eq_iff.mp (hsame one two hone htwo)
      rw [hkept '1' (by decide) one hchars, hkept '2' (by decide) two hchars',
        append_cancel_right_eq] at heq
      exact hne heq
    have hvalue := hshape value fun sample sample' hs hs' =>
      (h sample value' hs ⟨rfl, rfl⟩).trans (h sample' value' hs' ⟨rfl, rfl⟩).symm
    have hvalue' := hshape value' fun sample sample' hs hs' =>
      (h value sample ⟨rfl, rfl⟩ hs).symm.trans (h value sample' ⟨rfl, rfl⟩ hs')
    exact ⟨hvalue.1, hvalue.2, hvalue'.2⟩
  · rintro ⟨hcovered, hgaps, hgaps'⟩ other other' hother hother'
    rw [redact_text_eq_iff, left_of_covered hcovered (hother.2.trans hgaps),
      left_of_covered hcovered (hother'.2.trans hgaps')]

end secrets

/-! ## Secrets that are shown -/

/-- A key in quotes, and a credential behind its scheme, are shown. -/
theorem quoted_key_leaks : ∃ (place place' : SecretPlace) (value value' : SecretValue),
    place.quoted = true ∧ value.form = .quoted ∧ value'.form = .quoted ∧
      redact (place.text value.chars) ≠ redact (place.text value'.chars) ∧
    place'.quoted = false ∧ ∃ scheme scheme' : SecretValue,
      scheme.form = .scheme ∧ scheme'.form = .scheme ∧
        redact (place'.text scheme.chars) ≠ redact (place'.text scheme'.chars) := by
  refine ⟨⟨['\x7b'], true, "password".toList, [], ':', [], ['\x7d'], by decide, by simp, by decide,
      by simp⟩,
    ⟨[], false, "Authorization".toList, [], ':', [' '], [], by decide, by simp, by decide,
      forall_mem_singleton.mpr (by decide)⟩,
    ⟨.quoted, "\"one\"".toList, "one".toList, rfl⟩, ⟨.quoted, "\"two\"".toList, "two".toList, rfl⟩,
    rfl, rfl, rfl, by decide +kernel, rfl,
    ⟨.scheme, "Bearer one".toList, "Bearer".toList, [' '], "one".toList, rfl,
      ⟨cons_ne_nil _ _, List.all_eq_true.mp (by decide)⟩,
      ⟨cons_ne_nil _ _, forall_mem_singleton.mpr (by decide)⟩,
      cons_ne_nil _ _, List.all_eq_true.mp (by decide)⟩,
    ⟨.scheme, "Bearer two".toList, "Bearer".toList, [' '], "two".toList, rfl,
      ⟨cons_ne_nil _ _, List.all_eq_true.mp (by decide)⟩,
      ⟨cons_ne_nil _ _, forall_mem_singleton.mpr (by decide)⟩,
      cons_ne_nil _ _, List.all_eq_true.mp (by decide)⟩, rfl, rfl, by decide +kernel⟩

end Dataflow.Api.ErrorRedaction
