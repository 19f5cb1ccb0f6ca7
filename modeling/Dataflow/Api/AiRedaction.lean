import Dataflow.Connectors.Values
import Dataflow.Model.Reading
import Dataflow.Model.Texts

/-!
# What the model of the AI builder is not shown

Before a definition or a prompt is sent, what is stored under keys that name secrets is replaced,
also inside texts that hold JSON. Other texts are searched for addresses with a user, for tokens and
for assignments.

* `aiSecretKey`, `redactText`, `redactAIText`, `redactAIValue`: the code.
* `redactAIText_eq`: the two functions call each other, as in the source.
* `Related`: two values that differ only in what is stored under such keys.
* **`redact_eq_of_related`**: they are redacted to equal values, if the texts in which they differ
  are read.
* `number_leaks`: a text with a number that is too large is not.

Source: `ai_grounding.go` `redactAIValue`, `redactAIText`, `aiSecretKey`
-/

namespace Dataflow.Api.AiRedaction

open Connectors Model List Option

/-! ## The code -/

/-- A key with small letters and digits only, without an `x` in front of it. -/
def normalizedKey (key : String) : List Char :=
  let letters := key.toList.filterMap fun c =>
    if 'A' ≤ c ∧ c ≤ 'Z' then some (.ofNat (c.toNat + 32))
    else if ('a' ≤ c ∧ c ≤ 'z') ∨ ('0' ≤ c ∧ c ≤ '9') then some c
    else none
  if ['x'] <+: letters then letters.drop 1 else letters

/-- The keys that are secret as a whole. -/
def secretNames : List String :=
  ["authorization", "apikey", "privatekey", "accesskeyid", "token", "accesstoken", "refreshtoken", "idtoken",
    "bearertoken", "authtoken"]

/-- Source: `ai_grounding.go` `aiSecretKey`. -/
def aiSecretKey (key : String) : Bool :=
  normalizedKey key ∈ secretNames.map String.toList ||
    decide ("password".toList <:+: normalizedKey key) || decide ("secret".toList <:+: normalizedKey key)

/-- The regular expressions: `aiURLValue` with the users of the addresses replaced, `aiBearerValue`
and `aiSecretAssignment`. -/
structure Patterns extends NumberCodec where
  hideUsers : String → String
  hideBearers : String → String
  hideAssignments : String → String

mutual

/-- A value with another function for its texts. -/
def redactWith (text : String → String) : Json → Json
  | .object fields => .object (redactFields text fields)
  | .array items => .array (redactItems text items)
  | .string value => .string (text value)
  | .null => .null
  | .bool value => .bool value
  | .number value => .number value

/-- Its fields. -/
def redactFields (text : String → String) : JsonMap → JsonMap
  | [] => []
  | (key, item) :: fields =>
    (key, if aiSecretKey key then .string "[REDACTED]" else redactWith text item) :: redactFields text fields

/-- Its items. -/
def redactItems (text : String → String) : List Json → List Json
  | [] => []
  | item :: items => redactWith text item :: redactItems text items

end

section code

variable (p : Patterns)

/-- What is decoded of a text: it starts with a brace or a bracket. -/
def decoded? (value : String) : Option Json :=
  let trimmed := (trimSpace value).toList
  if ['\x7b'] <+: trimmed ∨ ['['] <+: trimmed then unmarshal p.toNumberCodec trimmed else none

/-- Where nothing is decoded, what the regular expressions leave. -/
def scrub (value : String) : String := p.hideAssignments (p.hideBearers (p.hideUsers value))

/-- Texts that hold values with texts; `fuel` is more than there are characters. -/
def redactText : (fuel : ℕ) → String → String
  | 0, value => scrub p value
  | fuel + 1, value =>
    match decoded? p value with
    | some decoded => marshal p.toNumberTexts (redactWith (redactText fuel) decoded)
    | none => scrub p value

/-- Source: `ai_grounding.go` `redactAIText`. -/
def redactAIText (value : String) : String := redactText p (value.length + 1) value

/-- Source: `ai_grounding.go` `redactAIValue`. -/
def redactAIValue : Json → Json := redactWith (redactAIText p)

end code

/-! ## The two functions call each other -/

section calls

variable {p : Patterns} {f g : String → String}

mutual

/-- Only the texts in a value matter. -/
theorem redactWith_congr {value : Json} (h : ∀ t ∈ value.texts, f t = g t) :
    redactWith f value = redactWith g value := by
  match value with
  | .object fields => exact congrArg Json.object (redactFields_congr h)
  | .array items => exact congrArg Json.array (redactItems_congr h)
  | .string text => exact congrArg Json.string (h text mem_cons_self)
  | .null | .bool _ | .number _ => rfl

theorem redactFields_congr {fields : JsonMap} (h : ∀ t ∈ Json.textsFields fields, f t = g t) :
    redactFields f fields = redactFields g fields := by
  match fields with
  | [] => rfl
  | (key, item) :: fields =>
    rw [redactFields, redactFields, redactWith_congr fun t ht => h t (mem_append_left _ ht),
      redactFields_congr fun t ht => h t (mem_append_right _ ht)]

theorem redactItems_congr {items : List Json} (h : ∀ t ∈ Json.textsItems items, f t = g t) :
    redactItems f items = redactItems g items := by
  match items with
  | [] => rfl
  | item :: items =>
    rw [redactItems, redactItems, redactWith_congr fun t ht => h t (mem_append_left _ ht),
      redactItems_congr fun t ht => h t (mem_append_right _ ht)]

end

theorem trimSpace_length (text : String) : (trimSpace text).toList.length ≤ text.length := by
  rw [trimSpace, String.toList_ofList, length_reverse, ← String.length_toList]
  refine (dropWhile_sublist _).length_le.trans ?_
  rw [length_reverse]
  exact (dropWhile_sublist _).length_le

/-- A text in a text is shorter. -/
theorem length_lt_of_decoded {value : String} {decoded : Json}
    (h : decoded? p value = some decoded) :
    ∀ t ∈ decoded.texts, t.length < value.length := by
  intro t ht
  unfold decoded? at h
  dsimp only at h
  split_ifs at h
  exact (length_lt_of_unmarshal h t ht).trans_le (trimSpace_length value)

/-- More fuel than characters changes nothing. -/
theorem redactText_stable {fuel fuel' : ℕ} {value : String} (h : value.length < fuel)
    (h' : value.length < fuel') :
    redactText p fuel value = redactText p fuel' value := by
  induction fuel generalizing fuel' value with
  | zero => exact absurd h (Nat.not_lt_zero _)
  | succ fuel ih =>
    obtain ⟨fuel', rfl⟩ := Nat.exists_eq_add_one_of_ne_zero (ne_of_gt (Nat.zero_lt_of_lt h'))
    rw [redactText, redactText]
    cases hdecoded : decoded? p value with
    | none => rfl
    | some decoded =>
      have hcongr : redactWith (redactText p fuel) decoded =
          redactWith (redactText p fuel') decoded := by
        apply redactWith_congr
        intro t ht
        have hlt := length_lt_of_decoded hdecoded t ht
        exact ih (by omega) (by omega)
      dsimp only
      rw [hcongr]

/-- **The two functions call each other.** -/
theorem redactAIText_eq (value : String) : redactAIText p value = match decoded? p value with
    | some decoded => marshal p.toNumberTexts (redactAIValue p decoded)
    | none => scrub p value := by
  rw [redactAIText, redactText]
  cases hdecoded : decoded? p value with
  | none => rfl
  | some decoded =>
    have hcongr : redactWith (redactText p value.length) decoded = redactAIValue p decoded := by
      apply redactWith_congr
      intro t ht
      exact redactText_stable (length_lt_of_decoded hdecoded t ht) (Nat.lt_succ_self _)
    dsimp only
    rw [hcongr]

theorem redactItems_eq_map (items : List Json) :
    redactItems f items = items.map (redactWith f) := by
  induction items with
  | nil => rfl
  | cons item items ih => rw [redactItems, ih, map_cons]

/-- A field of a value that is redacted. -/
theorem lookup_redactFields (fields : JsonMap) (key : String) : (redactFields f fields).lookup key =
    (fields.lookup key).map fun item => if aiSecretKey key then .string "[REDACTED]" else redactWith f item := by
  induction fields with
  | nil => rfl
  | cons field fields ih =>
    obtain ⟨other, item⟩ := field
    rw [redactFields, lookup_cons, lookup_cons]
    cases heq : key == other with
    | true =>
      obtain rfl := eq_of_beq heq
      rfl
    | false => exact ih

end calls

/-! ## Values that differ only in secrets -/

/-- What a text holds, where numbers may be as large and values as deep as may be. -/
def holds (wide : NumberCodec) (text : String) : Option Json :=
  let trimmed := (trimSpace text).toList
  match readValue wide (trimmed.length + 1) (max maxNestingDepth trimmed.length) trimmed with
  | some (value, rest) => if skipSpace rest = [] then some value else none
  | none => none

/-- **Two values differ only in what is stored under keys that name secrets**, at any depth, in
arrays and in texts that hold JSON. Such texts are `Compared`. -/
inductive Related (wide : NumberCodec) (Compared : String → Prop) : Json → Json → Prop
  | same (value : Json) : Related wide Compared value value
  | text {text text' : String} {value value' : Json} (h : Compared text) (h' : Compared text')
      (hholds : holds wide text = some value) (hholds' : holds wide text' = some value')
      (hvalue : Related wide Compared value value') : Related wide Compared (.string text) (.string text')
  | array {items items' : List Json} (hlength : items.length = items'.length)
      (hitems : ∀ (i : ℕ) (item item' : Json), items[i]? = some item → items'[i]? = some item' →
        Related wide Compared item item') : Related wide Compared (.array items) (.array items')
  | object {fields fields' : JsonMap}
      (hkeys : ∀ key, (fields.lookup key).isSome = (fields'.lookup key).isSome)
      (hfields : ∀ (key : String) (item item' : Json), aiSecretKey key = false → fields.lookup key = some item →
        fields'.lookup key = some item' → Related wide Compared item item') :
      Related wide Compared (.object fields) (.object fields')

/-- The text is an object or an array that `json.Unmarshal` reads. -/
def Reads (p : Patterns) (text : String) : Prop := (decoded? p text).isSome

instance (p : Patterns) (text : String) : Decidable (Reads p text) :=
  inferInstanceAs (Decidable (_ = true))

section related

variable {p : Patterns} {wide : NumberCodec}

/-- What is decoded of a text is what it holds. -/
theorem holds_of_decoded (hwide : p.toNumberCodec.Within wide) {text : String} {value : Json}
    (h : decoded? p text = some value) : holds wide text = some value := by
  unfold decoded? unmarshal at h
  dsimp only at h
  split_ifs at h
  split at h
  · rename_i hread
    rw [holds, readValue_mono hwide (le_refl _) (Nat.le_max_left _ _) hread]
    exact h
  · cases h

/-- Two maps with nothing but a secret. -/
theorem Related.secret {Compared : String → Prop} {key : String} (hsecret : aiSecretKey key = true)
    (item item' : Json) :
    Related wide Compared (.object [(key, item)]) (.object [(key, item')]) := by
  refine .object (fun other => ?_) fun other _ _ hother hitem _ => ?_
  · rw [lookup_cons, lookup_cons]
    cases other == key <;> rfl
  · have hne : other ≠ key := by
      rintro rfl
      exact Bool.false_ne_true (hother.symm.trans hsecret)
    simp [lookup_cons, beq_eq_false_iff_ne.mpr hne] at hitem

/-- **What is stored under such keys has no influence**, if the texts that are compared are read. -/
theorem redact_eq_of_related (hwide : p.toNumberCodec.Within wide) {value value' : Json}
    (h : Related wide (Reads p) value value') :
    (redactAIValue p value).normalize = (redactAIValue p value').normalize := by
  induction h with
  | same => rfl
  | @text text text' value value' hreads hreads' hholds hholds' _ ih =>
    obtain ⟨decoded, hdecoded⟩ := isSome_iff_exists.mp hreads
    obtain ⟨decoded', hdecoded'⟩ := isSome_iff_exists.mp hreads'
    obtain rfl : decoded = value :=
      some.inj ((holds_of_decoded hwide hdecoded).symm.trans hholds)
    obtain rfl : decoded' = value' :=
      some.inj ((holds_of_decoded hwide hdecoded').symm.trans hholds')
    have heq : redactAIText p text = redactAIText p text' := by
      rw [redactAIText_eq, redactAIText_eq, hdecoded, hdecoded']
      exact marshal_eq_iff.mpr ih
    rw [redactAIValue, redactWith, redactWith, heq]
  | @array items items' hlength _ ih =>
    rw [redactAIValue, redactWith, redactWith, redactItems_eq_map, redactItems_eq_map,
      Json.normalize, Json.normalize, normalizeItems_eq_map, normalizeItems_eq_map, List.map_map,
      List.map_map]
    congr 1
    apply ext_getElem (by simp [hlength])
    intro i hi hi'
    rw [length_map] at hi hi'
    rw [getElem_map, getElem_map]
    exact ih i _ _ (getElem?_eq_getElem hi) (getElem?_eq_getElem hi')
  | @object fields fields' hkeys _ ih =>
    rw [redactAIValue, redactWith, redactWith, normalize_object_eq_iff]
    intro key
    have hkey := hkeys key
    rw [lookup_redactFields, lookup_redactFields]
    cases hitem : fields.lookup key with
    | none =>
      rw [hitem] at hkey
      have hitem' : fields'.lookup key = none := by simpa using hkey.symm
      rw [hitem']
    | some item =>
      rw [hitem] at hkey
      obtain ⟨item', hitem'⟩ := isSome_iff_exists.mp hkey.symm
      rw [hitem']
      cases hsecret : aiSecretKey key with
      | true => rfl
      | false => exact congrArg some (ih key item item' hsecret hitem hitem')

/-- Numbers are written with ones only. -/
def onesCodec : NumberCodec :=
  { countedTexts with
    parse := fun digits => if digits.all (· = '1') then countedTexts.parse digits else none
    parse_text := fun value => by
      have hones : (countedTexts.text value).toList.all (· = '1') = true := by
        change (String.ofList (replicate _ '1')).toList.all (· = '1') = true
        rw [String.toList_ofList]
        simp
      rw [if_pos hones]
      exact countedTexts.parse_text value }

/-- A number that is too large for a `float64` is read too. -/
def largeCodec : NumberCodec :=
  { onesCodec with
    parse := fun digits => if digits = "1e999".toList then some (10 ^ 999) else onesCodec.parse digits
    parse_text := fun value => by
      have hones : (onesCodec.text value).toList ≠ "1e999".toList := by
        intro heq
        have hread := onesCodec.parse_text value
        rw [heq] at hread
        cases hread
      rw [if_neg hones]
      exact onesCodec.parse_text value }

theorem within_largeCodec : onesCodec.Within largeCodec := by
  intro digits value h
  have hne : digits ≠ "1e999".toList := by
    rintro rfl
    cases h
  change (if digits = "1e999".toList then _ else _) = _
  rw [if_neg hne]
  exact h

/-- No pattern matches. -/
def plainPatterns : Patterns :=
  { onesCodec with hideUsers := id, hideBearers := id, hideAssignments := id }

/-- Two definitions with other passwords, one in a text. -/
theorem redact_eq_of_related_login : (redactAIValue plainPatterns
        (.object [("password", .string "a"), ("note", .string "\x7b\"token\":null\x7d")])).normalize =
      (redactAIValue plainPatterns
        (.object [("password", .null), ("note", .string "\x7b\"token\":[true]\x7d")])).normalize := by
  apply redact_eq_of_related within_largeCodec
  refine .object (fun key => ?_) fun key item item' hsecret hitem hitem' => ?_
  · simp only [lookup_cons]
    cases key == "password" <;> cases key == "note" <;> rfl
  · have hkey : key ≠ "password" := by
      rintro rfl
      cases hsecret
    simp only [lookup_cons, beq_eq_false_iff_ne.mpr hkey] at hitem hitem'
    cases hnote : key == "note" with
    | false =>
      rw [hnote] at hitem
      cases hitem
    | true =>
      rw [hnote] at hitem hitem'
      cases hitem
      cases hitem'
      have hholds : holds largeCodec "\x7b\"token\":null\x7d" =
          some (.object [("token", .null)]) := by
        decide +kernel
      have hholds' : holds largeCodec "\x7b\"token\":[true]\x7d" =
          some (.object [("token", .array [.bool true])]) := by decide +kernel
      have hreads : Reads plainPatterns "\x7b\"token\":null\x7d" := by decide +kernel
      have hreads' : Reads plainPatterns "\x7b\"token\":[true]\x7d" := by decide +kernel
      exact .text hreads hreads' hholds hholds' (.secret rfl _ _)

/-- **A number that is too large is not hidden**: two texts with other passwords are redacted to
other texts. -/
theorem number_leaks : ∃ (p : Patterns) (wide : NumberCodec) (value value' : Json),
    p.toNumberCodec.Within wide ∧ Related wide (fun _ => True) value value' ∧
      (redactAIValue p value).normalize ≠ (redactAIValue p value').normalize := by
  refine ⟨plainPatterns, largeCodec, .string "\x7b\"password\":1e999\x7d",
    .string "\x7b\"password\":true\x7d", within_largeCodec, ?_, ?_⟩
  · have hholds : holds largeCodec "\x7b\"password\":1e999\x7d" =
        some (.object [("password", .number (10 ^ 999))]) := by decide +kernel
    have hholds' : holds largeCodec "\x7b\"password\":true\x7d" =
        some (.object [("password", .bool true)]) := by decide +kernel
    exact .text trivial trivial hholds hholds' (.secret rfl _ _)
  · have hleak : redactAIValue plainPatterns (.string "\x7b\"password\":1e999\x7d") =
        .string "\x7b\"password\":1e999\x7d" := by decide +kernel
    have hhidden : redactAIValue plainPatterns (.string "\x7b\"password\":true\x7d") =
        .string "\x7b\"password\":\"[REDACTED]\"\x7d" := by decide +kernel
    rw [hleak, hhidden, Json.normalize, Json.normalize]
    decide

end related

end Dataflow.Api.AiRedaction
