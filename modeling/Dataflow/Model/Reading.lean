import Dataflow.Model.Unmarshal

/-!
# What a text is read as

`json.Marshal` also writes values that `json.Unmarshal` never returns, such as integers of Go. What
their texts are read as follows from what the texts of their parts are read as.

* `ReadsAs`: a text is read as a value, wherever it stands.
* `readsAs_render`, `readsAs_digits`, `ReadsAs.array`, `ReadsAs.object`: values, numbers, arrays
  and maps.
* `readValue_mono`: with more fuel, deeper nesting allowed and more numbers read, the same is read.
* **`ReadsAs.of_unmarshal`**: if such a text is read at all, it is read as the value.

Source: Go's `encoding/json`
-/

namespace Dataflow.Model

open Library List Option

/-! ## More fuel -/

section mono

variable {codec wide : NumberCodec}

/-- The numbers that one codec reads are read by another one, as the same. -/
def NumberCodec.Within (codec wide : NumberCodec) : Prop :=
  ∀ digits value, codec.parse digits = some value → wide.parse digits = some value

theorem NumberCodec.Within.rfl : codec.Within codec := fun _ _ h => h

mutual

/-- A value that is read is read with more fuel, with deeper nesting allowed, and by a codec that
reads more. -/
theorem readValue_mono {fuel fuel' depth depth' : ℕ} {text : List Char} {out : Json × List Char}
    (hwide : codec.Within wide) (hfuel : fuel ≤ fuel') (hdepth : depth ≤ depth')
    (h : readValue codec fuel depth text = some out) :
    readValue wide fuel' depth' text = some out := by
  match fuel, fuel', hfuel with
  | fuel + 1, fuel' + 1, hfuel =>
    rw [readValue] at h ⊢
    cases hskip : skipSpace text with
    | nil => simp [hskip] at h
    | cons c rest =>
      rw [hskip] at h
      dsimp only at h ⊢
      split_ifs at h ⊢ with hquote hbracket hzero hzero' hempty
      all_goals first | exact h | omega | skip
      · obtain ⟨items, hitems, rfl⟩ := map_eq_some_iff.mp h
        rw [readItems_mono hwide (by omega) (by omega) hitems]
        rfl
      · obtain ⟨fields, hfields, rfl⟩ := map_eq_some_iff.mp h
        rw [readFields_mono hwide (by omega) (by omega) hfields]
        rfl
      · obtain ⟨value, hvalue, rfl⟩ := map_eq_some_iff.mp h
        rw [hwide _ _ hvalue]
        rfl

theorem readItems_mono {fuel fuel' depth depth' : ℕ} {text : List Char}
    {out : List Json × List Char} (hwide : codec.Within wide) (hfuel : fuel ≤ fuel')
    (hdepth : depth ≤ depth') (h : readItems codec fuel depth text = some out) :
    readItems wide fuel' depth' text = some out := by
  match fuel, fuel', hfuel with
  | fuel + 1, fuel' + 1, hfuel =>
    rw [readItems] at h ⊢
    cases hitem : readValue codec fuel depth text with
    | none => simp [hitem] at h
    | some item =>
      rw [readValue_mono hwide (by omega) hdepth hitem]
      rw [hitem] at h
      dsimp only at h ⊢
      cases hskip : skipSpace item.2 with
      | nil => simp [hskip] at h
      | cons c rest =>
        rw [hskip] at h
        dsimp only at h ⊢
        split_ifs at h ⊢
        · obtain ⟨items, hitems, rfl⟩ := map_eq_some_iff.mp h
          rw [readItems_mono hwide (by omega) hdepth hitems]
          rfl
        · exact h

theorem readFields_mono {fuel fuel' depth depth' : ℕ} {done : JsonMap} {text : List Char}
    {out : JsonMap × List Char} (hwide : codec.Within wide) (hfuel : fuel ≤ fuel')
    (hdepth : depth ≤ depth') (h : readFields codec fuel depth done text = some out) :
    readFields wide fuel' depth' done text = some out := by
  match fuel, fuel', hfuel with
  | fuel + 1, fuel' + 1, hfuel =>
    rw [readFields] at h ⊢
    cases hskip : skipSpace text with
    | nil => simp [hskip] at h
    | cons c rest =>
      rw [hskip] at h
      dsimp only at h ⊢
      split_ifs at h ⊢
      cases hkey : readText (rest.length + 1) rest with
      | none => simp [hkey] at h
      | some key =>
        rw [hkey] at h
        dsimp only at h ⊢
        cases hcolon : skipSpace key.2 with
        | nil => simp [hcolon] at h
        | cons c rest =>
          rw [hcolon] at h
          dsimp only at h ⊢
          split_ifs at h ⊢
          cases hvalue : readValue codec fuel depth rest with
          | none => simp [hvalue] at h
          | some value =>
            rw [readValue_mono hwide (by omega) hdepth hvalue]
            rw [hvalue] at h
            dsimp only at h ⊢
            cases hend : skipSpace value.2 with
            | nil => simp [hend] at h
            | cons c rest =>
              rw [hend] at h
              dsimp only at h ⊢
              split_ifs at h ⊢
              · exact readFields_mono hwide (by omega) hdepth h
              · exact h

end

end mono

/-! ## Texts and what they are read as -/

section readsAs

variable {codec : NumberCodec} {nesting : ℕ}

/-- A text is read as a value wherever it stands, if arrays and maps may be nested so deep. -/
structure ReadsAs (codec : NumberCodec) (nesting : ℕ) (text : List Char) (value : Json) : Prop where
  first : ∃ c rest, text = c :: rest ∧ isJsonSpace c = false ∧ c ≠ ']'
  read : ∀ {fuel depth : ℕ} {rest : List Char}, text.length ≤ fuel → nesting ≤ depth → EndsInput rest →
    readValue codec fuel depth (text ++ rest) = some (value, rest)

/-- The text of a decoded value. -/
theorem readsAs_render (value : Json) (hkeys : value.DistinctKeys) :
    ReadsAs codec value.nesting (value.render codec.toNumberTexts) value where
  first := by
    obtain ⟨c, rest, heq, hkind⟩ := kindOf_render codec.toNumberTexts value
    refine ⟨c, rest, heq, isJsonSpace_of_kindOf hkind, ?_⟩
    rintro rfl
    exact render_ne_bracket (show value.render codec.toNumberTexts ++ [] = _ by rw [heq, append_nil])
  read hfuel hdepth hrest := readValue_render value hkeys hfuel hdepth hrest

/-- The digits of a number. -/
theorem readsAs_digits {digits : List Char} {value : ℚ} (hne : digits ≠ [])
    (hchars : ∀ c ∈ digits, isNumberChar c = true) (hparse : codec.parse digits = some value) :
    ReadsAs codec nesting digits (.number value) where
  first := by
    obtain ⟨c, rest, rfl⟩ := exists_cons_of_ne_nil hne
    have hc : isNumberChar c = true := hchars c mem_cons_self
    have hkind : kindOf c = some 3 := by rw [kindOf, if_pos hc]
    refine ⟨c, rest, rfl, isJsonSpace_of_kindOf hkind, ?_⟩
    rintro rfl
    exact absurd hc (by decide)
  read {fuel depth rest} hfuel _ hrest := by
    have hpos : 0 < digits.length := length_pos_iff.mpr hne
    obtain ⟨fuel, rfl⟩ := Nat.exists_eq_add_one_of_ne_zero (show fuel ≠ 0 by omega)
    exact readValue_digits hne hchars hparse hrest

theorem ReadsAs.mono {nesting' : ℕ} {text : List Char} {value : Json} (hle : nesting ≤ nesting')
    (h : ReadsAs codec nesting text value) : ReadsAs codec nesting' text value where
  first := h.first
  read hfuel hdepth hrest := h.read hfuel (hle.trans hdepth) hrest

theorem ReadsAs.skipSpace {text rest : List Char} {value : Json}
    (h : ReadsAs codec nesting text value) :
    skipSpace (text ++ rest) = text ++ rest := by
  obtain ⟨c, tail, rfl, hspace, -⟩ := h.first
  exact skipSpace_of_head hspace

/-- The items of an array up to the bracket. -/
theorem readItems_intercalate {texts : List (List Char)} {items : List Json}
    (h : Forall₂ (ReadsAs codec nesting) texts items) (hne : texts ≠ []) {fuel depth : ℕ}
    {rest : List Char} (hfuel : ([','].intercalate texts ++ [']']).length ≤ fuel)
    (hdepth : nesting ≤ depth) :
    readItems codec fuel depth ([','].intercalate texts ++ ']' :: rest) = some (items, rest) := by
  induction h generalizing fuel with
  | nil => exact absurd rfl hne
  | @cons text item texts items hitem hitems ih =>
    cases hitems with
    | nil =>
      rw [intercalate_singleton] at hfuel ⊢
      rw [length_append, length_singleton] at hfuel
      obtain ⟨fuel, rfl⟩ := Nat.exists_eq_add_one_of_ne_zero (show fuel ≠ 0 by omega)
      have hends : EndsInput (']' :: rest) := endsInput_of_head (by decide)
      have hread := hitem.read (show text.length ≤ fuel by omega) hdepth hends
      rw [readItems_item (by decide) hread, if_neg (by decide), if_pos rfl]
    | @cons next item' texts items hnext hitems =>
      rw [intercalate_cons_cons] at hfuel ⊢
      simp only [length_append, length_singleton] at hfuel ih
      obtain ⟨fuel, rfl⟩ := Nat.exists_eq_add_one_of_ne_zero (show fuel ≠ 0 by omega)
      have hends : EndsInput (',' :: ([','].intercalate (next :: texts) ++ ']' :: rest)) :=
        endsInput_of_head (by decide)
      have hread := hitem.read (show text.length ≤ fuel by omega) hdepth hends
      rw [append_assoc, append_assoc, singleton_append,
        readItems_item (by decide) hread, if_pos rfl, ih (cons_ne_nil _ _) (by omega)]
      rfl

/-- **The text of an array** whose items are read. -/
theorem ReadsAs.array {texts : List (List Char)} {items : List Json}
    (h : Forall₂ (ReadsAs codec nesting) texts items) :
    ReadsAs codec (nesting + 1) ('[' :: ([','].intercalate texts ++ [']'])) (.array items) where
  first := ⟨'[', _, rfl, by decide, by decide⟩
  read {fuel depth rest} hfuel hdepth hrest := by
    rw [length_cons] at hfuel
    obtain ⟨fuel, rfl⟩ := Nat.exists_eq_add_one_of_ne_zero (show fuel ≠ 0 by omega)
    rw [cons_append, append_assoc, singleton_append, readValue, skipSpace_of_head (by decide)]
    dsimp only
    rw [if_neg (by decide), if_pos rfl, if_neg (by omega)]
    cases h with
    | nil =>
      rw [intercalate_nil, nil_append, skipSpace_of_head (by decide), head?_cons,
        if_pos rfl, tail_cons]
    | @cons text item texts items hitem hitems =>
      have hbracket :
          (Model.skipSpace ([','].intercalate (text :: texts) ++ ']' :: rest)).head? ≠ some ']' := by
        rw [Lists.intercalate_cons, append_assoc, hitem.skipSpace]
        obtain ⟨c, tail, rfl, -, hc⟩ := hitem.first
        simpa using hc
      rw [if_neg hbracket,
        readItems_intercalate (.cons hitem hitems) (cons_ne_nil _ _) (by omega) (by omega)]
      rfl

/-- The text of a field. -/
def fieldText (entry : String × List Char) : List Char := renderString entry.1 ++ ':' :: entry.2

/-- A text of a field is read as a field. -/
def FieldReadsAs (codec : NumberCodec) (nesting : ℕ) (entry : String × List Char)
    (field : String × Json) : Prop :=
  entry.1 = field.1 ∧ ReadsAs codec nesting entry.2 field.2

/-- The fields of a map up to the brace. -/
theorem readFields_intercalate {entries : List (String × List Char)} {fields done : JsonMap}
    (h : Forall₂ (FieldReadsAs codec nesting) entries fields) (hne : entries ≠ [])
    (hkeys : (done ++ fields).keys.Nodup) {fuel depth : ℕ} {rest : List Char}
    (hfuel : ([','].intercalate (entries.map fieldText) ++ ['\x7d']).length ≤ fuel)
    (hdepth : nesting ≤ depth) :
    readFields codec fuel depth done ([','].intercalate (entries.map fieldText) ++ '\x7d' :: rest) =
      some (done ++ fields, rest) := by
  induction h generalizing fuel done with
  | nil => exact absurd rfl hne
  | @cons entry field entries fields hentry hentries ih =>
    obtain ⟨key, text⟩ := entry
    obtain ⟨key', value⟩ := field
    obtain ⟨rfl, hvalue⟩ : key = key' ∧ ReadsAs codec nesting text value := hentry
    cases hentries with
    | nil =>
      rw [map_singleton, intercalate_singleton, fieldText] at hfuel ⊢
      simp only [length_append, length_cons] at hfuel
      obtain ⟨fuel, rfl⟩ := Nat.exists_eq_add_one_of_ne_zero (show fuel ≠ 0 by omega)
      have hends : EndsInput ('\x7d' :: rest) := endsInput_of_head (by decide)
      have hread := hvalue.read (show text.length ≤ fuel by omega) hdepth hends
      rw [append_assoc, cons_append,
        readFields_field (by decide) (not_mem_keys_of_nodup hkeys) hread, if_neg (by decide),
        if_pos rfl]
    | @cons next field entries fields hnext hentries =>
      rw [map_cons, map_cons, intercalate_cons_cons, fieldText, ← map_cons] at hfuel ⊢
      simp only [length_append, length_cons] at hfuel ih
      obtain ⟨fuel, rfl⟩ := Nat.exists_eq_add_one_of_ne_zero (show fuel ≠ 0 by omega)
      have hends :
          EndsInput (',' :: ([','].intercalate ((next :: entries).map fieldText) ++ '\x7d' :: rest)) :=
        endsInput_of_head (by decide)
      have hread := hvalue.read (show text.length ≤ fuel by omega) hdepth hends
      have hassoc : done ++ (key, value) :: field :: fields =
          done ++ [(key, value)] ++ field :: fields := by simp
      have hmore :=
        @ih (done ++ [(key, value)]) (cons_ne_nil _ _) (hassoc ▸ hkeys) fuel (by omega)
      rw [append_assoc, append_assoc, append_assoc, cons_append,
        singleton_append, readFields_field (by decide) (not_mem_keys_of_nodup hkeys) hread,
        if_pos rfl, hmore, hassoc]

/-- **The text of a map** whose fields are read. -/
theorem ReadsAs.object {entries : List (String × List Char)} {fields : JsonMap}
    (h : Forall₂ (FieldReadsAs codec nesting) entries fields) (hkeys : fields.keys.Nodup) :
    ReadsAs codec (nesting + 1) ('\x7b' :: ([','].intercalate (entries.map fieldText) ++ ['\x7d']))
      (.object fields) where
  first := ⟨'\x7b', _, rfl, by decide, by decide⟩
  read {fuel depth rest} hfuel hdepth hrest := by
    rw [length_cons] at hfuel
    obtain ⟨fuel, rfl⟩ := Nat.exists_eq_add_one_of_ne_zero (show fuel ≠ 0 by omega)
    rw [cons_append, append_assoc, singleton_append, readValue, skipSpace_of_head (by decide)]
    dsimp only
    rw [if_neg (by decide), if_neg (by decide), if_pos rfl, if_neg (by omega)]
    cases h with
    | nil =>
      rw [map_nil, intercalate_nil, nil_append, skipSpace_of_head (by decide),
        head?_cons, if_pos rfl, tail_cons]
    | @cons entry field entries fields hentry hentries =>
      have hbrace : (Model.skipSpace ([','].intercalate ((entry :: entries).map fieldText) ++
          '\x7d' :: rest)).head? ≠ some '\x7d' := by
        rw [map_cons, Lists.intercalate_cons, fieldText, renderString]
        rw [append_assoc, append_assoc, cons_append, skipSpace_of_head (by decide), head?_cons]
        decide
      rw [if_neg hbrace, readFields_intercalate (.cons hentry hentries) (cons_ne_nil _ _)
        (by rwa [nil_append]) (by omega) (by omega)]
      rfl

/-- **If such a text is read at all, it is read as the value.** -/
theorem ReadsAs.of_unmarshal {text : List Char} {value value' : Json}
    (h : ReadsAs codec nesting text value) (hread : unmarshal codec text = some value') :
    value' = value := by
  unfold unmarshal at hread
  split at hread
  · rename_i out rest heq
    have hmore := readValue_mono .rfl (le_refl _) (Nat.le_max_left maxNestingDepth nesting) heq
    have hends : EndsInput [] := nofun
    have hself := h.read (Nat.le_succ text.length) (Nat.le_max_right maxNestingDepth nesting) hends
    rw [append_nil, hmore] at hself
    split_ifs at hread
    exact (some.inj hread).symm.trans (Prod.mk.inj (some.inj hself)).1
  · cases hread

/-- If nesting is within the limit it is read. -/
theorem ReadsAs.unmarshal {text : List Char} {value : Json} (h : ReadsAs codec nesting text value)
    (hnesting : nesting ≤ maxNestingDepth) : unmarshal codec text = some value := by
  have hends : EndsInput [] := nofun
  have hself := h.read (Nat.le_succ text.length) hnesting hends
  rw [append_nil] at hself
  rw [Model.unmarshal, hself]
  exact if_pos rfl

/-- What `json.Marshal` writes of a decoded value. -/
theorem readsAs_marshal (value : Json) :
    ReadsAs codec value.normalize.nesting (marshal codec.toNumberTexts value).toList value.normalize := by
  rw [marshal, String.toList_ofList]
  exact readsAs_render value.normalize (distinctKeys_normalize value)

end readsAs

end Dataflow.Model
