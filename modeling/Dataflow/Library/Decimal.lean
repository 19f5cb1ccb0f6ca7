import Mathlib.Algebra.Order.Ring.Int

/-!
# Decimal numbers as texts

* `unsigned`, `parseDecimal`: the number that a text reads as, with or without a sign.
* `parseDecimal_repr`, `parseDecimal_repr_int`: a number is read back from its text.
* `repr_int_injective`: different numbers have different texts.
* `scientific`, `shortest`: the shortest text of a floating-point number: with an exponent from a
  million on (`shortest_natCast_iff`).
-/

namespace Dataflow.Library.Decimal

open List

/-- The value of a text of digits; an empty one has none. -/
def unsigned (digits : List Char) : Option ℕ :=
  if digits ≠ [] ∧ digits.all Char.isDigit then some (Nat.ofDigitChars 10 digits 0) else none

/-- The integer that a text reads as. -/
def parseDecimal (text : String) : Option ℤ :=
  match text.toList with
  | '-' :: digits => (unsigned digits).map fun (n : ℕ) => -(n : ℤ)
  | '+' :: digits => (unsigned digits).map fun (n : ℕ) => (n : ℤ)
  | digits => (unsigned digits).map fun (n : ℕ) => (n : ℤ)

/-- The digits of a number. -/
theorem unsigned_toDigits (n : ℕ) : unsigned (Nat.toDigits 10 n) = some n := by
  have hdigits : (Nat.toDigits 10 n).all Char.isDigit = true := by
    rw [all_eq_true]
    intro c hc
    exact Nat.isDigit_of_mem_toDigits (by omega) (by omega) hc
  rw [unsigned, if_pos ⟨Nat.toDigits_ne_nil, hdigits⟩, Nat.ofDigitChars_ten_toDigits]

/-- A text that begins with a digit has no sign. -/
theorem parseDecimal_of_isDigit {text : String} {c : Char} {cs : List Char}
    (h : text.toList = c :: cs) (hc : c.isDigit = true) :
    parseDecimal text = (unsigned text.toList).map fun (n : ℕ) => (n : ℤ) := by
  unfold parseDecimal
  rw [h]
  split
  · rename_i heq
    cases heq
    cases hc
  · rename_i heq
    cases heq
    cases hc
  · rfl

/-- **A natural number is read back.** -/
theorem parseDecimal_repr (n : ℕ) : parseDecimal n.repr = some (n : ℤ) := by
  have htext : n.repr.toList = Nat.toDigits 10 n := Nat.toList_repr
  obtain ⟨c, cs, hcs⟩ := exists_cons_of_ne_nil (Nat.toDigits_ne_nil (n := n) (b := 10))
  have hc : c.isDigit = true :=
    Nat.isDigit_of_mem_toDigits (by omega) (by omega) (hcs ▸ mem_cons_self)
  rw [parseDecimal_of_isDigit (htext.trans hcs) hc, htext, unsigned_toDigits]
  rfl

/-- **An integer is read back.** -/
theorem parseDecimal_repr_int (n : ℤ) : parseDecimal n.repr = some n := by
  rw [Int.repr_eq_if]
  split_ifs with hn
  · rw [parseDecimal_repr, Int.toNat_of_nonneg hn]
  · have htext : ("-" ++ (-n).toNat.repr).toList = '-' :: Nat.toDigits 10 (-n).toNat := by
      rw [String.toList_append, Nat.toList_repr]
      rfl
    have hread : parseDecimal ("-" ++ (-n).toNat.repr) =
        (unsigned (Nat.toDigits 10 (-n).toNat)).map fun (k : ℕ) => -(k : ℤ) := by
      unfold parseDecimal
      rw [htext]
      rfl
    rw [hread, unsigned_toDigits, Option.map_some, Int.toNat_of_nonneg (by omega), neg_neg]

/-- Different integers have different texts. -/
theorem repr_int_injective : Function.Injective Int.repr := by
  intro m n h
  have hread := congrArg parseDecimal h
  rw [parseDecimal_repr_int, parseDecimal_repr_int] at hread
  exact Option.some.inj hread

/-- The text of an integer is not empty. -/
theorem repr_int_ne_empty (n : ℤ) : n.repr ≠ "" := by
  intro h
  have hread := parseDecimal_repr_int n
  rw [h] at hread
  cases hread

/-- The characters of the text of an integer. -/
theorem mem_repr_int {n : ℤ} {c : Char} (h : c ∈ n.repr.toList) : c = '-' ∨ c.isDigit = true := by
  have hdigit {k : ℕ} (hk : c ∈ k.repr.toList) : c.isDigit = true := by
    rw [Nat.toList_repr] at hk
    exact Nat.isDigit_of_mem_toDigits (by omega) (by omega) hk
  rw [Int.repr_eq_if] at h
  split_ifs at h
  · exact .inr (hdigit h)
  · rw [String.toList_append, mem_append] at h
    rcases h with hsign | hk
    · exact .inl (mem_singleton.mp hsign)
    · exact .inr (hdigit hk)

/-! ## Texts with an exponent -/

/-- The exponent of a text, two digits at least. -/
def exponentDigits (exponent : ℕ) : List Char :=
  if exponent < 10 then '0' :: Nat.toDigits 10 exponent else Nat.toDigits 10 exponent

/-- The digits of a number without the zeros at its end: one before the point, the rest behind
it. -/
def mantissa (n : ℕ) : List Char :=
  match ((Nat.toDigits 10 n).reverse.dropWhile (· = '0')).reverse with
  | [] => []
  | [digit] => [digit]
  | digit :: digits => digit :: '.' :: digits

/-- A number in scientific notation. -/
def scientific (n : ℕ) : String :=
  .ofList (mantissa n ++ 'e' :: '+' :: exponentDigits ((Nat.toDigits 10 n).length - 1))

/-- The shortest text of a floating-point number that is an integer: in digits below a million. -/
def shortest (n : ℤ) : String :=
  if n.natAbs < 10 ^ 6 then n.repr
  else if n < 0 then "-" ++ scientific n.natAbs
  else scientific n.natAbs

/-- A text with an exponent is no text of digits. -/
theorem scientific_ne_repr (m n : ℕ) : scientific m ≠ n.repr := by
  intro h
  have hdigits : n.repr.toList = Nat.toDigits 10 n := Nat.toList_repr
  have hmem : 'e' ∈ Nat.toDigits 10 n := by
    rw [← hdigits, ← h, scientific, String.toList_ofList]
    exact mem_append_right _ mem_cons_self
  have hdigit := Nat.isDigit_of_mem_toDigits (by omega) (by omega) hmem
  exact absurd hdigit (by decide)

/-- Only a natural number below a million has a shortest text of digits. -/
theorem lt_of_shortest_eq {n m : ℕ} (h : shortest n = m.repr) : n < 10 ^ 6 := by
  have hnonneg : ¬ (n : ℤ) < 0 := not_lt.mpr (Int.natCast_nonneg n)
  rw [shortest, Int.natAbs_natCast, if_neg hnonneg] at h
  split_ifs at h with hsmall
  · exact hsmall
  · exact absurd h (scientific_ne_repr n m)

/-- **The shortest text is the digits** of a natural number below a million, and of no other. -/
theorem shortest_natCast_iff (n : ℕ) : shortest n = n.repr ↔ n < 10 ^ 6 := by
  refine ⟨lt_of_shortest_eq, fun h => ?_⟩
  rw [shortest, Int.natAbs_natCast, if_pos h]
  rfl

end Dataflow.Library.Decimal
