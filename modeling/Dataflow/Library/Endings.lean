import Mathlib.Tactic.Common

/-!
# Calls that may panic

A call gives a value, gives an error, or panics. A panic ends the calls around it.

* `Ending`: how a call ends; `bind`, `map`: calls one after the other.
* `panics_bind_iff`: a sequence of calls panics iff its first part does, or gives a value with
  which the second one does.
* `forEach`: a loop over a list that stops at the first error and at the first panic.
* **`panics_forEach_cons_iff`**: when it panics; `panics_forEach_iff`: for a body that finds no
  error.
-/

namespace Dataflow.Library

/-- How a call ends. -/
inductive Ending (α : Type) where
  | value (a : α)
  | error (message : String)
  | panic
deriving Repr, DecidableEq

namespace Ending

variable {α β ι : Type}

/-- One call after the other. -/
def bind (x : Ending α) (f : α → Ending β) : Ending β :=
  match x with
  | .value a => f a
  | .error message => .error message
  | .panic => .panic

/-- The value of a call, changed. -/
def map (f : α → β) (x : Ending α) : Ending β := x.bind fun a => .value (f a)

/-- A call that does not panic. -/
def ofExcept : Except String α → Ending α
  | .ok a => .value a
  | .error message => .error message

/-- The loop over a list, with the number of the element. -/
def forEach (f : ℕ → ι → Ending β) : ℕ → List ι → Ending (List β)
  | _, [] => .value []
  | i, x :: xs => (f i x).bind fun b => (forEach f (i + 1) xs).map fun bs => b :: bs

section lemmas

variable {x : Ending α} {f : α → Ending β}

@[simp] theorem bind_value (a : α) : (Ending.value a).bind f = f a := rfl

@[simp] theorem map_value (g : α → β) (a : α) : (Ending.value a).map g = .value (g a) := rfl

/-- **A sequence of calls panics** iff one of them does. -/
theorem panics_bind_iff : x.bind f = .panic ↔ x = .panic ∨ ∃ a, x = .value a ∧ f a = .panic := by
  cases x with
  | value a => simp
  | error message | panic => simp [bind]

theorem panics_map_iff {g : α → β} : x.map g = .panic ↔ x = .panic := by
  cases x with
  | value a => simp
  | error message | panic => simp [map, bind]

end lemmas

section loop

variable {f : ℕ → ι → Ending β}

/-- **A loop panics** iff its body does at the first element, or gives a value there and the rest of
the loop panics. -/
theorem panics_forEach_cons_iff {i : ℕ} {x : ι} {xs : List ι} : forEach f i (x :: xs) = .panic ↔
      f i x = .panic ∨ (∃ b, f i x = .value b) ∧ forEach f (i + 1) xs = .panic := by
  rw [forEach, panics_bind_iff]
  apply or_congr_right
  constructor
  · rintro ⟨b, hb, hrest⟩
    exact ⟨⟨b, hb⟩, panics_map_iff.mp hrest⟩
  · rintro ⟨⟨b, hb⟩, hrest⟩
    exact ⟨b, hb, panics_map_iff.mpr hrest⟩

/-- A loop whose body finds no error panics iff its body does somewhere. -/
theorem panics_forEach_iff (h : ∀ i x message, f i x ≠ .error message) {p : ι → Prop}
    (hp : ∀ i x, f i x = .panic ↔ p x) (i : ℕ) (xs : List ι) :
    forEach f i xs = .panic ↔ ∃ x ∈ xs, p x := by
  induction xs generalizing i with
  | nil => simp [forEach]
  | cons x xs ih =>
    rw [panics_forEach_cons_iff, hp, ih]
    simp only [List.mem_cons, exists_eq_or_imp]
    apply or_congr_right'
    intro hx
    refine and_iff_right ?_
    cases hend : f i x with
    | value b => exact ⟨b, rfl⟩
    | error message => exact absurd hend (h i x message)
    | panic => exact absurd ((hp i x).mp hend) hx

/-- A loop whose body finds no error. -/
theorem forEach_ne_error (h : ∀ i x message, f i x ≠ .error message) (i : ℕ) (xs : List ι) :
    ∀ message, forEach f i xs ≠ .error message := by
  induction xs generalizing i with
  | nil => exact fun _ => nofun
  | cons x xs ih =>
    intro message
    rw [forEach]
    cases hend : f i x with
    | value b =>
      rw [bind_value]
      cases hrest : forEach f (i + 1) xs with
      | value bs => exact nofun
      | error other => exact absurd hrest (ih (i + 1) other)
      | panic => exact nofun
    | error other => exact absurd hend (h i x other)
    | panic => exact nofun

end loop

end Ending

end Dataflow.Library
