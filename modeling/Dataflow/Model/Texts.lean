import Dataflow.Model.Unmarshal

/-!
# The texts in a value

A text may hold a value with texts in it, which may hold values again. That comes to an end, as a
text in a value that is read is shorter than what it is read from.

* `Json.texts`: the texts in a value, at any depth.
* `readText_length`: a text is shorter than what it is read from.
* `readValue_length`: so are the texts in a value.
* **`length_lt_of_unmarshal`**: what `json.Unmarshal` gives.

Source: Go's `encoding/json`
-/

namespace Dataflow.Model

open List Option

mutual

/-- The texts in a value, without the keys of maps. -/
def Json.texts : Json → List String
  | .string text => [text]
  | .array items => Json.textsItems items
  | .object fields => Json.textsFields fields
  | .null | .bool _ | .number _ => []

/-- The texts in the items. -/
def Json.textsItems : List Json → List String
  | [] => []
  | item :: items => item.texts ++ Json.textsItems items

/-- The texts in the fields. -/
def Json.textsFields : JsonMap → List String
  | [] => []
  | (_, value) :: fields => value.texts ++ Json.textsFields fields

end

section texts

variable {codec : NumberCodec} {text rest : List Char}

theorem mem_textsFields {fields : JsonMap} {t : String} :
    t ∈ Json.textsFields fields ↔ ∃ entry ∈ fields, t ∈ entry.2.texts := by
  induction fields with
  | nil => simp [Json.textsFields]
  | cons entry fields ih => simp [Json.textsFields, ih]

/-- The texts in a map after a write. -/
theorem mem_textsFields_set {fields : JsonMap} {key t : String} {value : Json}
    (h : t ∈ Json.textsFields (fields.set key value)) :
    t ∈ Json.textsFields fields ∨ t ∈ value.texts := by
  obtain ⟨entry, hentry, ht⟩ := mem_textsFields.mp h
  rcases JsonMap.mem_set hentry with rfl | hentry
  · exact .inr ht
  · exact .inl (mem_textsFields.mpr ⟨entry, hentry, ht⟩)

/-! ## What is read is shorter -/

theorem skipSpace_length (text : List Char) : (skipSpace text).length ≤ text.length :=
  (dropWhile_sublist _).length_le

theorem skipSpace_cons_length {c : Char} (h : skipSpace text = c :: rest) :
    rest.length < text.length := by
  have hle := skipSpace_length text
  rw [h, length_cons] at hle
  omega

theorem readCode_length {code : ℕ} (h : readCode text = some (code, rest)) :
    rest.length < text.length := by
  unfold readCode at h
  split at h
  · simp only [bind_eq_bind, bind_eq_some_iff, Option.pure_def, some.injEq, Prod.mk.injEq] at h
    obtain ⟨_, -, _, -, _, -, _, -, -, rfl⟩ := h
    simp only [length_cons]
    omega
  · cases h

theorem readNextCode_length {code : ℕ} (h : readNextCode text = some (code, rest)) :
    rest.length < text.length := by
  unfold readNextCode at h
  split at h
  · split_ifs at h
    have hlt := readCode_length h
    simp only [length_cons]
    omega
  · cases h

theorem readEscape_length {c : Char} (h : readEscape text = some (c, rest)) :
    rest.length < text.length := by
  unfold readEscape at h
  split at h
  · cases h
  · split_ifs at h
    · split at h
      · cases h
      · rename_i hcode
        have hlt := readCode_length hcode
        rw [length_cons]
        split_ifs at h
        · split at h
          · rename_i hnext
            have hlt' := readNextCode_length hnext
            split_ifs at h
            all_goals
              obtain ⟨-, rfl⟩ := Prod.mk.inj (some.inj h)
              omega
          · obtain ⟨-, rfl⟩ := Prod.mk.inj (some.inj h)
            omega
        · obtain ⟨-, rfl⟩ := Prod.mk.inj (some.inj h)
          omega
    · obtain ⟨_, -, heq⟩ := map_eq_some_iff.mp h
      cases heq
      simp

/-- **A text is shorter than what it is read from.** -/
theorem readText_length {fuel : ℕ} {value : List Char}
    (h : readText fuel text = some (value, rest)) :
    value.length + rest.length < text.length := by
  induction fuel generalizing text value with
  | zero => cases h
  | succ fuel ih =>
    cases text with
    | nil => cases h
    | cons c text =>
      rw [readText] at h
      rw [length_cons]
      split_ifs at h
      · cases h
        simp
      · obtain ⟨⟨d, after⟩, hescape, h⟩ := bind_eq_some_iff.mp h
        obtain ⟨⟨value, _⟩, hread, heq⟩ := map_eq_some_iff.mp h
        cases heq
        have hlt := readEscape_length hescape
        have hlt' := ih hread
        rw [length_cons]
        omega
      · obtain ⟨⟨value, _⟩, hread, heq⟩ := map_eq_some_iff.mp h
        cases heq
        have hlt := ih hread
        rw [length_cons]
        omega

theorem readWord_texts {value : Json} (h : readWord text = some (value, rest)) :
    value.texts = [] ∧ rest.length ≤ text.length := by
  unfold readWord at h
  split_ifs at h
  all_goals
    cases h
    exact ⟨rfl, by simp⟩

mutual

/-- **So are the texts in a value.** -/
theorem readValue_length {fuel depth : ℕ} {text rest : List Char} {value : Json}
    (h : readValue codec fuel depth text = some (value, rest)) :
    rest.length ≤ text.length ∧ ∀ t ∈ value.texts, t.length < text.length := by
  match fuel with
  | 0 => rw [readValue] at h; cases h
  | fuel + 1 =>
    rw [readValue] at h
    cases hskip : skipSpace text with
    | nil => simp [hskip] at h
    | cons c tail =>
      have hlt := skipSpace_cons_length hskip
      rw [hskip] at h
      dsimp only at h
      split_ifs at h
      · obtain ⟨⟨chars, rest⟩, hread, heq⟩ := map_eq_some_iff.mp h
        cases heq
        have hlength := readText_length hread
        refine ⟨show rest.length ≤ text.length by omega, fun t ht => ?_⟩
        rw [mem_singleton.mp ht, String.length_ofList]
        exact show chars.length < text.length by omega
      · cases h
        have hle := skipSpace_length tail
        refine ⟨?_, fun t ht => absurd ht not_mem_nil⟩
        rw [length_tail]
        omega
      · obtain ⟨⟨items, rest⟩, hitems, heq⟩ := map_eq_some_iff.mp h
        cases heq
        obtain ⟨hle, htexts⟩ := readItems_length hitems
        exact ⟨show rest.length ≤ text.length by omega, fun t ht => (htexts t ht).trans hlt⟩
      · cases h
        have hle := skipSpace_length tail
        refine ⟨?_, fun t ht => absurd ht not_mem_nil⟩
        rw [length_tail]
        omega
      · obtain ⟨⟨fields, rest⟩, hfields, heq⟩ := map_eq_some_iff.mp h
        cases heq
        obtain ⟨hle, htexts⟩ := readFields_length hfields
        refine ⟨show rest.length ≤ text.length by omega, fun t ht => ?_⟩
        rcases htexts t ht with hdone | hshort
        · exact absurd hdone not_mem_nil
        · exact hshort.trans hlt
      · obtain ⟨_, -, heq⟩ := map_eq_some_iff.mp h
        cases heq
        have hle := (dropWhile_sublist (l := tail) isNumberInput).length_le
        exact ⟨by omega, fun t ht => absurd ht not_mem_nil⟩
      · obtain ⟨htexts, hle⟩ := readWord_texts h
        rw [length_cons] at hle
        rw [htexts]
        exact ⟨by omega, fun t ht => absurd ht not_mem_nil⟩

theorem readItems_length {fuel depth : ℕ} {text rest : List Char} {items : List Json}
    (h : readItems codec fuel depth text = some (items, rest)) :
    rest.length ≤ text.length ∧ ∀ t ∈ Json.textsItems items, t.length < text.length := by
  match fuel with
  | 0 => rw [readItems] at h; cases h
  | fuel + 1 =>
    rw [readItems] at h
    cases hitem : readValue codec fuel depth text with
    | none => simp [hitem] at h
    | some item =>
      obtain ⟨hle, htexts⟩ := readValue_length hitem
      rw [hitem] at h
      dsimp only at h
      cases hskip : skipSpace item.2 with
      | nil => simp [hskip] at h
      | cons c tail =>
        have hlt := skipSpace_cons_length hskip
        rw [hskip] at h
        dsimp only at h
        split_ifs at h
        · obtain ⟨⟨more, rest⟩, hmore, heq⟩ := map_eq_some_iff.mp h
          cases heq
          obtain ⟨hle', htexts'⟩ := readItems_length hmore
          refine ⟨show rest.length ≤ text.length by omega, fun t ht => ?_⟩
          rcases mem_append.mp ht with ht | ht
          · exact htexts t ht
          · exact (htexts' t ht).trans (by omega)
        · cases h
          refine ⟨by omega, fun t ht => ?_⟩
          rw [Json.textsItems, Json.textsItems, append_nil] at ht
          exact htexts t ht

theorem readFields_length {fuel depth : ℕ} {text rest : List Char} {done fields : JsonMap}
    (h : readFields codec fuel depth done text = some (fields, rest)) :
    rest.length ≤ text.length ∧
      ∀ t ∈ Json.textsFields fields, t ∈ Json.textsFields done ∨ t.length < text.length := by
  match fuel with
  | 0 => rw [readFields] at h; cases h
  | fuel + 1 =>
    rw [readFields] at h
    cases hskip : skipSpace text with
    | nil => simp [hskip] at h
    | cons c tail =>
      have hlt := skipSpace_cons_length hskip
      rw [hskip] at h
      dsimp only at h
      split_ifs at h
      cases hkey : readText (tail.length + 1) tail with
      | none => simp [hkey] at h
      | some key =>
        have hkeyLength := readText_length hkey
        rw [hkey] at h
        dsimp only at h
        cases hcolon : skipSpace key.2 with
        | nil => simp [hcolon] at h
        | cons c tail' =>
          have hlt' := skipSpace_cons_length hcolon
          rw [hcolon] at h
          dsimp only at h
          split_ifs at h
          cases hvalue : readValue codec fuel depth tail' with
          | none => simp [hvalue] at h
          | some value =>
            obtain ⟨hle, htexts⟩ := readValue_length hvalue
            rw [hvalue] at h
            dsimp only at h
            cases hend : skipSpace value.2 with
            | nil => simp [hend] at h
            | cons c tail'' =>
              have hlt'' := skipSpace_cons_length hend
              have hset : ∀ t ∈ Json.textsFields (done.set (.ofList key.1) value.1),
                  t ∈ Json.textsFields done ∨ t.length < text.length := by
                intro t ht
                refine (mem_textsFields_set ht).imp id fun ht => ?_
                exact (htexts t ht).trans (by omega)
              rw [hend] at h
              dsimp only at h
              split_ifs at h
              · obtain ⟨hle', htexts'⟩ := readFields_length h
                refine ⟨by omega, fun t ht => ?_⟩
                rcases htexts' t ht with ht | ht
                · exact hset t ht
                · exact .inr (ht.trans (by omega))
              · cases h
                exact ⟨by omega, hset⟩

end

/-- **The texts in a value are shorter than the text that holds it.** -/
theorem length_lt_of_unmarshal {value : Json} (h : unmarshal codec text = some value) :
    ∀ t ∈ value.texts, t.length < text.length := by
  unfold unmarshal at h
  split at h
  · rename_i hread
    split_ifs at h
    cases h
    exact (readValue_length hread).2
  · cases h

end texts

end Dataflow.Model
