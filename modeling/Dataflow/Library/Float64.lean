import Mathlib.Algebra.Order.Ring.Int
import Mathlib.Data.Nat.Log
import Mathlib.Tactic.Linarith

/-!
# Integers as floating-point numbers

A floating-point number of 64 bits has 53 significant bits. An integer that is read as one is
rounded to the nearest, and of two to the one whose last significant bit is zero.

* `IsDouble`: the integers that are such numbers; `isDouble_iff_dvd` decides it.
* `roundNat`, `roundInt`: rounding; `roundInt_eq_self_iff` says which integers stay.
* `shortestNat`, `shortestInt`: what the shortest decimal digits of a number say, with zeros after
  them.
-/

namespace Dataflow.Library.Float64

/-! ## Rounding -/

/-- How many bits of a number are not significant. -/
def lostBits (n : ℕ) : ℕ := n.log2 - 52

/-- The distance of the numbers around a number. -/
def spacing (n : ℕ) : ℕ := 2 ^ lostBits n

/-- The number below, or the same. -/
def lower (n : ℕ) : ℕ := n / spacing n * spacing n

/-- The nearest number. -/
def roundNat (n : ℕ) : ℕ :=
  let rest := n % spacing n
  if rest * 2 < spacing n ∨ (rest * 2 = spacing n ∧ n / spacing n % 2 = 0) then lower n
  else lower n + spacing n

/-- The nearest number to an integer. -/
def roundInt (n : ℤ) : ℤ := if n < 0 then -(roundNat n.natAbs : ℤ) else roundNat n.natAbs

/-- The integer has 53 significant bits at most. -/
def IsDouble (n : ℕ) : Prop := ∃ m e, m < 2 ^ 53 ∧ n = m * 2 ^ e

section rounding

variable {n : ℕ}

theorem spacing_pos (n : ℕ) : 0 < spacing n := Nat.two_pow_pos _

theorem lower_add_mod (n : ℕ) : lower n + n % spacing n = n := Nat.div_add_mod' n (spacing n)

theorem div_spacing_lt (n : ℕ) : n / spacing n < 2 ^ 53 := by
  rw [Nat.div_lt_iff_lt_mul (spacing_pos n), spacing, ← pow_add]
  refine Nat.lt_log2_self.trans_le (Nat.pow_le_pow_right (by decide) ?_)
  unfold lostBits
  omega

/-- **The integers with 53 significant bits** are those whose other bits are zero. -/
theorem isDouble_iff_dvd : IsDouble n ↔ spacing n ∣ n := by
  constructor
  · rintro ⟨m, e, hm, rfl⟩
    by_cases hzero : m * 2 ^ e = 0
    · rw [hzero]
      exact dvd_zero _
    · have hbits : (m * 2 ^ e).log2 < 53 + e := by
        rw [Nat.log2_lt hzero, pow_add]
        exact Nat.mul_lt_mul_of_pos_right hm (Nat.two_pow_pos e)
      have hlost : lostBits (m * 2 ^ e) ≤ e := by
        unfold lostBits
        omega
      exact (pow_dvd_pow 2 hlost).trans (dvd_mul_left _ _)
  · intro hdvd
    exact ⟨n / spacing n, lostBits n, div_spacing_lt n, (Nat.div_mul_cancel hdvd).symm⟩

instance (n : ℕ) : Decidable (IsDouble n) := decidable_of_iff _ isDouble_iff_dvd.symm

theorem roundNat_eq_self_iff : roundNat n = n ↔ IsDouble n := by
  have hmod := lower_add_mod n
  have hlt := Nat.mod_lt n (spacing_pos n)
  rw [isDouble_iff_dvd, Nat.dvd_iff_mod_eq_zero]
  constructor
  · intro h
    unfold roundNat at h
    dsimp only at h
    split_ifs at h
    · omega
    · omega
  · intro h
    unfold roundNat
    rw [if_pos (.inl (by rw [h]; simpa using spacing_pos n))]
    omega

/-- **An integer stays if** it has 53 significant bits. -/
theorem roundInt_eq_self_iff {n : ℤ} : roundInt n = n ↔ IsDouble n.natAbs := by
  rw [← roundNat_eq_self_iff]
  unfold roundInt
  split_ifs <;> omega

end rounding

/-! ## Shortest digits -/

/-- Of the multiples of a power of ten around a number, those that are rounded to it; the nearest if
both are, and if that is not decided, the even one. -/
def multipleOfTen? (n j : ℕ) : Option ℕ :=
  let low := n / 10 ^ j * 10 ^ j
  let high := low + 10 ^ j
  if roundNat low = n ∧ (roundNat high ≠ n ∨ n - low < high - n ∨ (n - low = high - n ∧ n / 10 ^ j % 2 = 0)) then
    some low
  else if roundNat high = n then some high
  else none

/-- The first such multiple, from a power on downwards. -/
def shortestFrom (n : ℕ) : ℕ → ℕ
  | 0 => n
  | j + 1 => (multipleOfTen? n (j + 1)).getD (shortestFrom n j)

/-- The value of the shortest digits that are read as a number. -/
def shortestNat (n : ℕ) : ℕ := shortestFrom n (Nat.log 10 n + 1)

/-- The same with a sign. -/
def shortestInt (n : ℤ) : ℤ := if n < 0 then -(shortestNat n.natAbs : ℤ) else shortestNat n.natAbs

end Dataflow.Library.Float64
