import Mathlib.Data.List.Forall2
import Mathlib.Tactic.Common

/-!
# Results that may be errors

When a computation in `Except` succeeds, so have its parts.

* `ok_bind`, `bind_eq_ok`, `map_eq_ok`, `mapError_eq_ok`: one step.
* `forall₂_of_mapM`, `exists_of_mapM`, `mapM_eq_ok_map_iff`, `exists_map_of_mapM`: a map over a
  list.
* `forM_eq_ok_iff`: checks of all elements.
-/

namespace Dataflow.Library

open List

variable {ε ε' α β : Type}

theorem ok_bind (a : α) (f : α → Except ε β) : ((.ok a : Except ε α) >>= f) = f a := rfl

variable {f : α → Except ε β}

/-- A sequence of computations succeeds when each of them does. -/
theorem bind_eq_ok {x : Except ε α} {b : β} : (x >>= f) = .ok b ↔ ∃ a, x = .ok a ∧ f a = .ok b := by
  cases x with
  | error err | ok a => simp [bind, Except.bind]

theorem map_eq_ok {x : Except ε α} {f : α → β} {b : β} :
    x.map f = .ok b ↔ ∃ a, x = .ok a ∧ f a = b := by
  cases x with
  | error err | ok a => simp [Except.map]

theorem mapError_eq_ok {x : Except ε α} {f : ε → ε'} {a : α} :
    x.mapError f = .ok a ↔ x = .ok a := by
  cases x with
  | error err | ok b => simp [Except.mapError]

variable {as : List α}

/-- What a map that may fail gives, element by element. -/
theorem forall₂_of_mapM {bs : List β} (h : as.mapM f = .ok bs) :
    Forall₂ (fun a b => f a = .ok b) as bs := by
  induction as generalizing bs with
  | nil =>
    obtain rfl : [] = bs := Except.ok.inj h
    exact .nil
  | cons a as ih =>
    rw [mapM_cons] at h
    obtain ⟨b, hb, h⟩ := bind_eq_ok.mp h
    obtain ⟨rest, hrest, h⟩ := bind_eq_ok.mp h
    obtain rfl : b :: rest = bs := Except.ok.inj h
    exact .cons hb (ih hrest)

theorem exists_of_mapM {bs : List β}
    (h : as.mapM f = .ok bs) : ∀ b ∈ bs, ∃ a ∈ as, f a = .ok b := by
  replace h := forall₂_of_mapM h
  induction h with
  | nil => simp
  | cons hab _ ih =>
    intro b hb
    rcases mem_cons.mp hb with rfl | hb
    · exact ⟨_, mem_cons_self, hab⟩
    · obtain ⟨a, ha, heq⟩ := ih b hb
      exact ⟨a, mem_cons_of_mem _ ha, heq⟩

/-- A list of checks succeeds when each of them does. -/
theorem forM_eq_ok_iff {f : α → Except ε Unit} : as.forM f = .ok () ↔ ∀ a ∈ as, f a = .ok () := by
  induction as with
  | nil => simp [pure, Except.pure]
  | cons a as ih =>
    have hcons : (a :: as).forM f = (f a >>= fun _ => as.forM f) := rfl
    rw [hcons, forall_mem_cons, ← ih, bind_eq_ok]
    constructor
    · rintro ⟨⟨⟩, hfirst, hrest⟩
      exact ⟨hfirst, hrest⟩
    · rintro ⟨hfirst, hrest⟩
      exact ⟨(), hfirst, hrest⟩

/-- What it gives is what some function gives. -/
theorem exists_map_of_mapM [Inhabited β] {bs : List β}
    (h : as.mapM f = .ok bs) : ∃ g : α → β, as.map g = bs ∧ ∀ a ∈ as, f a = .ok (g a) := by
  refine ⟨fun a => (f a).toOption.getD default, ?_⟩
  replace h := forall₂_of_mapM h
  induction h with
  | nil => simp
  | cons hab _ ih =>
    obtain ⟨hmap, hmem⟩ := ih
    simp only [map_cons, hmap, forall_mem_cons, hab]
    exact ⟨rfl, rfl, hmem⟩

/-- A map that may fail gives what a function gives iff it does so for each element. -/
theorem mapM_eq_ok_map_iff {g : α → β} :
    as.mapM f = .ok (as.map g) ↔ ∀ a ∈ as, f a = .ok (g a) := by
  induction as with
  | nil => simp [pure, Except.pure]
  | cons a as ih =>
    rw [mapM_cons, map_cons, forall_mem_cons, ← ih, bind_eq_ok]
    constructor
    · rintro ⟨b, hb, h⟩
      obtain ⟨rest, hrest, h⟩ := bind_eq_ok.mp h
      obtain ⟨rfl, rfl⟩ := cons.inj (Except.ok.inj h)
      exact ⟨hb, hrest⟩
    · rintro ⟨hfirst, hrest⟩
      exact ⟨g a, hfirst, bind_eq_ok.mpr ⟨as.map g, hrest, rfl⟩⟩

end Dataflow.Library
