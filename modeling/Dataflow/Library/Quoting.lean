import Mathlib.Algebra.BigOperators.Group.List.Basic
import Mathlib.Algebra.Order.Group.Nat

/-!
# Quoted literals

A text is put between quotes, its own quotes doubled. The reader of such literals has an escape
character besides: it reads the character after it as some other one.

* `double`, `readLiteral`: what is written between the quotes, and how it is read.
* `weight`: a quote counts one and everything else two; a value is at most half as long as the
  weight of what it is read from (`weight_of_readLiteral`).
* **`readLiteral_double_iff`**: a text is read back iff the escape character does not occur in it.
-/

namespace Dataflow.Library.Quoting

open List

variable {α : Type*} [DecidableEq α] {q e : α} {unescape : α → α}

/-- The quotes of a text are doubled. -/
def double (q : α) (text : List α) : List α := text.flatMap fun c => if c = q then [q, q] else [c]

/-- After the opening quote: the value up to the closing one, and what is left. -/
def readLiteral (q e : α) (unescape : α → α) (value : List α) : List α → Option (List α × List α)
  | [] => none
  | [c] => if c = q ∧ c ≠ e then some (value, []) else none
  | c :: d :: rest =>
    if c = e then readLiteral q e unescape (value ++ [unescape d]) rest
    else if c = q then
      if d = q then readLiteral q e unescape (value ++ [q]) rest else some (value, d :: rest)
    else readLiteral q e unescape (value ++ [c]) (d :: rest)

@[simp] theorem double_nil : double q [] = [] := rfl

theorem double_cons (c : α) (text : List α) :
    double q (c :: text) = (if c = q then [q, q] else [c]) ++ double q text := flatMap_cons

/-- Nothing else is changed. -/
theorem mem_double {c : α} {text : List α} : c ∈ double q text ↔ c ∈ text := by
  unfold double
  rw [mem_flatMap]
  constructor
  · rintro ⟨d, hd, hc⟩
    split_ifs at hc with hq
    · have heq : c = q := by simpa using hc
      rwa [heq, ← hq]
    · rwa [mem_singleton.mp hc]
  · intro hc
    refine ⟨c, hc, ?_⟩
    split_ifs with hq
    · simp [hq]
    · exact mem_singleton_self c

/-! ## A text without the escape character -/

/-- The closing quote. -/
theorem readLiteral_close (hqe : q ≠ e) {value rest : List α} (hrest : rest.head? ≠ some q) :
    readLiteral q e unescape value (q :: rest) = some (value, rest) := by
  cases rest with
  | nil => simp [readLiteral, hqe]
  | cons d rest =>
    have hd : d ≠ q := by simpa using hrest
    simp [readLiteral, hqe, hd]

/-- **A text without the escape character is read back.** -/
theorem readLiteral_double (hqe : q ≠ e) {text rest : List α} (he : e ∉ text)
    (hrest : rest.head? ≠ some q) (value : List α) :
    readLiteral q e unescape value (double q text ++ q :: rest) = some (value ++ text, rest) := by
  induction text generalizing value with
  | nil => simpa using readLiteral_close hqe hrest
  | cons c text ih =>
    rw [mem_cons, not_or] at he
    obtain ⟨hce, he⟩ := he
    rw [double_cons]
    split_ifs with hq
    · subst hq
      have hstep : readLiteral c e unescape value ([c, c] ++ double c text ++ c :: rest) =
          readLiteral c e unescape (value ++ [c]) (double c text ++ c :: rest) := by
        simp [readLiteral, hqe]
      rw [hstep, ih he]
      simp
    · -- a character that is read as it is
      have hstep : readLiteral q e unescape value ([c] ++ double q text ++ q :: rest) =
          readLiteral q e unescape (value ++ [c]) (double q text ++ q :: rest) := by
        cases hnext : double q text ++ q :: rest with
        | nil => simp at hnext
        | cons d next =>
          rw [append_assoc, hnext]
          simp [readLiteral, hq, Ne.symm hce]
      rw [hstep, ih he]
      simp

/-! ## Weights -/

/-- A quote counts one, everything else two. -/
def weight (q : α) : List α → ℕ
  | [] => 0
  | c :: text => (if c = q then 1 else 2) + weight q text

@[simp] theorem weight_nil : weight q [] = 0 := rfl

theorem weight_cons (c : α) (text : List α) :
    weight q (c :: text) = (if c = q then 1 else 2) + weight q text := rfl

theorem weight_append (text text' : List α) :
    weight q (text ++ text') = weight q text + weight q text' := by
  induction text with
  | nil => simp
  | cons c text ih => rw [cons_append, weight_cons, ih, weight_cons, add_assoc]

theorem length_le_weight (text : List α) : text.length ≤ weight q text := by
  induction text with
  | nil => exact le_refl _
  | cons c text ih =>
    rw [weight_cons, length_cons]
    split_ifs <;> omega

/-- A doubled quote counts as much as another character. -/
theorem weight_double (text : List α) : weight q (double q text) = 2 * text.length := by
  induction text with
  | nil => rfl
  | cons c text ih =>
    rw [double_cons, weight_append, ih, length_cons]
    split_ifs with hq
    · simp only [weight_cons, weight_nil, if_pos]
      omega
    · simp only [weight_cons, weight_nil, if_neg hq]
      omega

/-- **A value weighs no more than what it is read from**, and less if something is escaped there. -/
theorem weight_of_readLiteral (hqe : q ≠ e) {input value value' rest : List α}
    (h : readLiteral q e unescape value input = some (value', rest)) :
    ∃ read, input = read ++ q :: rest ∧
      2 * value'.length + (if e ∈ read then 1 else 0) ≤ 2 * value.length + weight q read := by
  fun_induction readLiteral q e unescape value input with
  | case1 => cases h
  | case2 value c hc =>
    obtain ⟨rfl, rfl⟩ := Prod.mk.inj (Option.some.inj h)
    exact ⟨[], by simp [hc.1], by simp⟩
  | case3 => cases h
  | case4 value d rest' ih =>
    -- something is escaped
    obtain ⟨read, rfl, hle⟩ := ih h
    refine ⟨e :: d :: read, rfl, ?_⟩
    rw [length_append, length_singleton] at hle
    simp only [weight_cons, mem_cons, true_or, if_true, if_neg (Ne.symm hqe)]
    split_ifs at hle ⊢ <;> omega
  | case5 value rest' _ ih =>
    -- a doubled quote
    obtain ⟨read, rfl, hle⟩ := ih h
    refine ⟨q :: q :: read, rfl, ?_⟩
    rw [length_append, length_singleton] at hle
    simp only [weight_cons, mem_cons, Ne.symm hqe, false_or, if_true]
    omega
  | case6 value d rest' _ hd =>
    obtain ⟨rfl, rfl⟩ := Prod.mk.inj (Option.some.inj h)
    exact ⟨[], rfl, by simp⟩
  | case7 value c d rest' hce hcq ih =>
    obtain ⟨read, hread, hle⟩ := ih h
    refine ⟨c :: read, by rw [hread]; rfl, ?_⟩
    rw [length_append, length_singleton] at hle
    simp only [weight_cons, mem_cons, Ne.symm hce, false_or, if_neg hcq]
    omega

/-! ## When a text is read back -/

/-- A text before a quote, and a part of it that is as heavy. -/
theorem eq_of_append_quote {text rest read rest' : List α} (hrest : q ∉ rest)
    (h : text ++ q :: rest = read ++ q :: rest') (hweight : weight q text ≤ weight q read) :
    read = text := by
  rcases append_eq_append_iff.mp h with ⟨more, hmore, htail⟩ | ⟨more, rfl, -⟩
  · cases more with
    | nil => simpa using hmore
    | cons c more =>
      -- the closing quote would be after the quote that follows the text
      obtain ⟨-, rfl⟩ := cons.inj htail
      exact absurd (by simp) hrest
  · rw [weight_append] at hweight
    have hlength := length_le_weight (q := q) more
    have hnil : more = [] := length_eq_zero_iff.mp (by omega)
    rw [hnil, append_nil]

/-- **A text is read back iff the escape character does not occur in it.** What comes after has no
quote. -/
theorem readLiteral_double_iff (hqe : q ≠ e) {text rest : List α} (hrest : q ∉ rest) :
    (∃ rest', readLiteral q e unescape [] (double q text ++ q :: rest) = some (text, rest')) ↔
      e ∉ text := by
  constructor
  · rintro ⟨rest', h⟩ he
    obtain ⟨read, hread, hle⟩ := weight_of_readLiteral hqe h
    rw [length_nil] at hle
    have hread : read = double q text := by
      apply eq_of_append_quote hrest hread
      rw [weight_double]
      split_ifs at hle <;> omega
    rw [hread, if_pos (mem_double.mpr he), weight_double] at hle
    omega
  · intro he
    have hhead : rest.head? ≠ some q := fun h => hrest (mem_of_head? h)
    exact ⟨rest, readLiteral_double hqe he hhead []⟩

end Dataflow.Library.Quoting
