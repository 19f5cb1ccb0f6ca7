import Mathlib.Data.List.DropRight
import Mathlib.Algebra.Order.Ring.Int
import Mathlib.Tactic.IntervalCases
import Mathlib.Tactic.Ring

/-!
# Timestamps in cursors

The database keeps timestamps to the microsecond. A cursor has the timestamp as a text with the
layout `time.RFC3339Nano`, in UTC, and the query that reads the cursor casts the text to a
`timestamptz`.

* `digitsOf`, `valueOf`, `trimZeros`: decimal fractions as lists of digits.
* `DateTimes`: the texts of whole seconds, which are given.
* `formatRfc3339Nano`, `castTimestamptz`: the two conversions.
* `cast_format`: no microsecond is lost on the way.

A timestamp is a number of microseconds since 1970.
-/

namespace Dataflow.Api

open List

/-! ## Decimal fractions -/

/-- So many digits of a number, the last ones. -/
def digitsOf : ℕ → ℕ → List ℕ
  | 0, _ => []
  | width + 1, n => n / 10 ^ width % 10 :: digitsOf width n

/-- The number with some digits. -/
def valueOf : List ℕ → ℕ
  | [] => 0
  | digit :: digits => digit * 10 ^ digits.length + valueOf digits

/-- The digits of a fraction without the zeros at its end. -/
def trimZeros (digits : List ℕ) : List ℕ := digits.rdropWhile fun digit => digit = 0

theorem length_digitsOf (width n : ℕ) : (digitsOf width n).length = width := by
  induction width with
  | zero => rfl
  | succ width ih => rw [digitsOf, length_cons, ih]

theorem valueOf_digitsOf (width n : ℕ) : valueOf (digitsOf width n) = n % 10 ^ width := by
  induction width with
  | zero => rw [pow_zero, Nat.mod_one, digitsOf, valueOf]
  | succ width ih =>
    rw [digitsOf, valueOf, length_digitsOf, ih, pow_succ, Nat.mod_mul]
    ring

theorem lt_ten_of_mem_digitsOf {width n digit : ℕ} (h : digit ∈ digitsOf width n) : digit < 10 := by
  induction width with
  | zero => cases h
  | succ width ih =>
    rcases mem_cons.mp h with rfl | h
    · exact Nat.mod_lt _ (by omega)
    · exact ih h

/-- A zero at the end. -/
theorem valueOf_snoc_zero (digits : List ℕ) : valueOf (digits ++ [0]) = valueOf digits * 10 := by
  induction digits with
  | nil => rfl
  | cons digit digits ih =>
    rw [cons_append, valueOf, valueOf, ih, length_append, length_singleton, pow_succ]
    ring

theorem trimZeros_snoc_zero (digits : List ℕ) : trimZeros (digits ++ [0]) = trimZeros digits :=
  rdropWhile_concat_pos _ _ _ rfl

/-- The zeros that are trimmed are as many powers of ten. -/
theorem valueOf_trimZeros (digits : List ℕ) : (trimZeros digits).length ≤ digits.length ∧
    valueOf (trimZeros digits) * 10 ^ (digits.length - (trimZeros digits).length) =
      valueOf digits := by
  induction digits using reverseRecOn with
  | nil => exact ⟨le_refl _, rfl⟩
  | append_singleton digits digit ih =>
    by_cases hzero : digit = 0
    · obtain ⟨hlen, hvalue⟩ := ih
      rw [hzero, trimZeros_snoc_zero, length_append, length_singleton, valueOf_snoc_zero, ← hvalue]
      refine ⟨hlen.trans (Nat.le_succ _), ?_⟩
      rw [Nat.succ_sub hlen, pow_succ]
      ring
    · have htrim : trimZeros (digits ++ [digit]) = digits ++ [digit] :=
        rdropWhile_concat_neg _ _ _ (by rwa [decide_eq_true_eq])
      rw [htrim, Nat.sub_self, pow_zero, mul_one]
      exact ⟨le_refl _, rfl⟩

/-! ## The code -/

/-- Texts of whole seconds since 1970 with the layout `2006-01-02T15:04:05`, in UTC, how the
database reads them, and how it reads texts of any other form. -/
structure DateTimes where
  text : ℤ → String
  parse : String → Option ℤ
  other : String → Option ℤ
  parse_text : ∀ seconds, parse (text seconds) = some seconds
  plain : ∀ seconds, ∀ c ∈ (text seconds).toList, c ≠ '.' ∧ c ≠ 'Z'

/-- The character of a digit. -/
def digitChar (digit : ℕ) : Char := .ofNat (48 + digit)

/-- The digit of a character. -/
def charDigit (c : Char) : ℕ := c.toNat - 48

theorem charDigit_digitChar {digit : ℕ} (h : digit < 10) : charDigit (digitChar digit) = digit := by
  interval_cases digit <;> rfl

theorem isDigit_digitChar {digit : ℕ} (h : digit < 10) : (digitChar digit).isDigit = true := by
  interval_cases digit <;> rfl

/-- The nine digits of the nanoseconds of so many microseconds. -/
def nanoDigits (micros : ℕ) : List ℕ := digitsOf 9 (micros * 1000)

/-- The fraction of a second, as `.999999999` in a layout prints it. -/
def fractionText (micros : ℕ) : List Char :=
  match trimZeros (nanoDigits micros) with
  | [] => []
  | digits => '.' :: digits.map digitChar

/-- `Format(time.RFC3339Nano)` of a time in UTC. -/
def formatRfc3339Nano (dates : DateTimes) (time : ℤ) : String :=
  .ofList ((dates.text (time / 1000000)).toList ++ fractionText (time % 1000000).toNat ++ ['Z'])

/-- A fraction of at most six digits, in microseconds. -/
def parseFraction : List Char → Option ℕ
  | [] => some 0
  | '.' :: chars =>
    if chars ≠ [] ∧ chars.length ≤ 6 ∧ chars.all Char.isDigit then
      some (valueOf (chars.map charDigit) * 10 ^ (6 - chars.length))
    else none
  | _ => none

/-- The cast of a text to a `timestamptz`. -/
def castTimestamptz (dates : DateTimes) (text : String) : Option ℤ :=
  let chars := text.toList.dropLast
  match (text.toList.getLast? == some 'Z', parseFraction (chars.dropWhile (· ≠ '.'))) with
  | (true, some micros) => (dates.parse (.ofList (chars.takeWhile (· ≠ '.')))).map fun seconds =>
    seconds * 1000000 + micros
  | _ => dates.other text

/-! ## No microsecond is lost -/

/-- The digits of the nanoseconds end in three zeros. -/
theorem trimZeros_nanoDigits (micros : ℕ) : trimZeros (nanoDigits micros) =
    trimZeros (digitsOf 6 micros) := by
  have hdigits : nanoDigits micros = digitsOf 6 micros ++ [0, 0, 0] := by
    simp only [nanoDigits, digitsOf, cons_append, nil_append]
    norm_num
    omega
  have hzeros : digitsOf 6 micros ++ [0, 0, 0] = ((digitsOf 6 micros ++ [0]) ++ [0]) ++ [0] := by
    rw [append_assoc, append_assoc]
    rfl
  rw [hdigits, hzeros, trimZeros_snoc_zero, trimZeros_snoc_zero, trimZeros_snoc_zero]

/-- **The fraction is read back.** -/
theorem parseFraction_fractionText {micros : ℕ} (h : micros < 1000000) :
    parseFraction (fractionText micros) = some micros := by
  obtain ⟨hlen, hvalue⟩ := valueOf_trimZeros (digitsOf 6 micros)
  rw [length_digitsOf] at hlen hvalue
  have hmod : micros % 10 ^ 6 = micros := Nat.mod_eq_of_lt h
  rw [valueOf_digitsOf, hmod] at hvalue
  have hdigits : ∀ digit ∈ trimZeros (digitsOf 6 micros), digit < 10 := fun digit hdigit =>
    lt_ten_of_mem_digitsOf (( rdropWhile_prefix _ _).subset hdigit)
  rw [fractionText, trimZeros_nanoDigits]
  generalize trimZeros (digitsOf 6 micros) = digits at hlen hvalue hdigits
  cases digits with
  | nil =>
    rw [valueOf, zero_mul] at hvalue
    rw [← hvalue]
    rfl
  | cons digit digits =>
    have hall : ((digit :: digits).map digitChar).all Char.isDigit = true := by
      rw [all_map, all_eq_true]
      exact fun d hd => isDigit_digitChar (hdigits d hd)
    have hback : ((digit :: digits).map digitChar).map charDigit = digit :: digits := by
      rw [map_map, map_congr_left (g := id), map_id]
      exact fun d hd => charDigit_digitChar (hdigits d hd)
    show (if _ then _ else none) = _
    rw [if_pos, hback, length_map, hvalue]
    refine ⟨by simp, ?_, hall⟩
    rw [length_map]
    exact hlen

/-- **No microsecond is lost**: the text of a timestamp in a cursor is read as the same
timestamp. -/
theorem cast_format (dates : DateTimes) (time : ℤ) :
    castTimestamptz dates (formatRfc3339Nano dates time) = some time := by
  have hmicros : (time % 1000000).toNat < 1000000 := by omega
  have hsplit : time / 1000000 * 1000000 + (time % 1000000).toNat = time := by omega
  have hdate : ∀ c ∈ (dates.text (time / 1000000)).toList, decide (c ≠ '.') = true := fun c hc =>
    decide_eq_true (dates.plain _ c hc).1
  have hfraction : ∀ micros, (fractionText micros).takeWhile (· ≠ '.') = [] ∧
      (fractionText micros).dropWhile (· ≠ '.') = fractionText micros := by
    intro micros
    unfold fractionText
    cases trimZeros (nanoDigits micros) with
    | nil | cons digit digits => exact ⟨rfl, rfl⟩
  unfold castTimestamptz formatRfc3339Nano
  rw [String.toList_ofList, getLast?_append, getLast?_singleton, dropLast_concat]
  dsimp only
  rw [dropWhile_append_of_pos hdate, takeWhile_append_of_pos hdate, (hfraction _).1,
    (hfraction _).2, append_nil, parseFraction_fractionText hmicros, String.ofList_toList]
  simp only [Option.some_or, beq_self_eq_true, dates.parse_text, Option.map_some, hsplit]

end Dataflow.Api
