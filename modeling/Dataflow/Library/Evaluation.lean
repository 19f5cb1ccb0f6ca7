import Mathlib.Data.List.Induction
import Mathlib.Logic.Function.Basic
import Mathlib.Order.WellFounded

/-!
# Evaluating the vertices of a graph from their predecessors

Every vertex has a value computed from the values of its predecessors. An evaluation in progress is
a partial map; it may be extended at any vertex whose predecessors have values.

* `Local E f`: `f v` looks at the predecessors of `v` only.
* `PartialSolution E f m`: each value in `m` is the one `f` gives, and the predecessors of a valued
  vertex have values.
* `PartialSolution.update`: evaluating one more vertex keeps this.
* `PartialSolution.unique`: **order does not matter**: over a well-founded graph two partial
  solutions agree where both have values.
* `Topological`, `evaluateAll`: the vertices one after the other in a given order;
  `PartialSolution.eq_evaluateAll` says that every complete solution is this one.
-/

namespace Dataflow.Library.Evaluation

open Function Option

variable {V β : Type*} {E : V → V → Prop} {f : V → (V → Option β) → β}

/-- The value of a vertex depends on its predecessors only. -/
def Local (E : V → V → Prop) (f : V → (V → Option β) → β) : Prop :=
  ∀ v m m', (∀ u, E u v → m u = m' u) → f v m = f v m'

/-- An evaluation in progress. -/
structure PartialSolution (E : V → V → Prop) (f : V → (V → Option β) → β) (m : V → Option β) :
    Prop where
  closed : ∀ v b, m v = some b → ∀ u, E u v → (m u).isSome
  value : ∀ v b, m v = some b → b = f v m

theorem PartialSolution.empty : PartialSolution E f fun _ => none :=
  ⟨fun _ _ h => (by cases h), fun _ _ h => (by cases h)⟩

/-- **One more vertex is evaluated.** -/
theorem PartialSolution.update [DecidableEq V] {m : V → Option β} (hf : Local E f)
    (h : PartialSolution E f m) {v : V} (hfresh : m v = none)
    (hpred : ∀ u, E u v → (m u).isSome) :
    PartialSolution E f (Function.update m v (some (f v m))) := by
  have hne : ∀ u w, E u w → (m w).isSome ∨ w = v → u ≠ v := by
    intro u w he hw huv
    have hu : (m u).isSome := by
      rcases hw with hw | hw
      · obtain ⟨b, hb⟩ := isSome_iff_exists.mp hw
        exact h.closed w b hb u he
      · exact hpred u (hw ▸ he)
    simp [huv, hfresh] at hu
  have hkeep : ∀ w, (m w).isSome ∨ w = v → f w (Function.update m v (some (f v m))) = f w m :=
    fun w hw => hf w _ _ fun u he => update_of_ne (hne u w he hw) _ _
  refine ⟨fun w b hb u he => ?_, fun w b hb => ?_⟩
  · by_cases hw : w = v
    · rw [update_of_ne (hne u w he (.inr hw))]
      exact hpred u (hw ▸ he)
    · rw [update_of_ne hw] at hb
      rw [update_of_ne (hne u w he (.inl (by simp [hb])))]
      exact h.closed w b hb u he
  · by_cases hw : w = v
    · subst hw
      rw [update_self] at hb
      rw [hkeep w (.inr rfl)]
      exact (some.inj hb).symm
    · rw [update_of_ne hw] at hb
      rw [hkeep w (.inl (by simp [hb]))]
      exact h.value w b hb

/-- **Two evaluations agree where both have values.** -/
theorem PartialSolution.unique {m m' : V → Option β} (hwf : WellFounded E) (hf : Local E f)
    (h : PartialSolution E f m) (h' : PartialSolution E f m') :
    ∀ v, (m v).isSome → (m' v).isSome → m v = m' v := by
  intro v
  induction v using hwf.induction with
  | _ v ih =>
    intro hv hv'
    obtain ⟨b, hb⟩ := isSome_iff_exists.mp hv
    obtain ⟨b', hb'⟩ := isSome_iff_exists.mp hv'
    have hpreds : ∀ u, E u v → m u = m' u := fun u he =>
      ih u he (h.closed v b hb u he) (h'.closed v b' hb' u he)
    rw [hb, hb', h.value v b hb, h'.value v b' hb', hf v m m' hpreds]

/-! ## One vertex after the other -/

/-- Each vertex occurs once, after its predecessors. -/
def Topological (E : V → V → Prop) (order : List V) : Prop :=
  ∀ pre v post, order = pre ++ v :: post → v ∉ pre ∧ ∀ u, E u v → u ∈ pre

/-- Evaluate the vertices of a list one after the other. -/
def evaluateAll [DecidableEq V] (f : V → (V → Option β) → β) (order : List V) : V → Option β :=
  order.foldl (fun m v => Function.update m v (some (f v m))) fun _ => none

theorem evaluateAll_snoc [DecidableEq V] (order : List V) (v : V) : evaluateAll f (order ++ [v]) =
      Function.update (evaluateAll f order) v (some (f v (evaluateAll f order))) := by
  simp [evaluateAll]

theorem evaluateAll_isSome [DecidableEq V] (order : List V) (v : V) :
    (evaluateAll f order v).isSome ↔ v ∈ order := by
  induction order using List.reverseRecOn with
  | nil => simp [evaluateAll]
  | append_singleton order w ih =>
    rw [evaluateAll_snoc]
    by_cases hv : v = w
    · simp [hv]
    · simp [ih, hv]

theorem Topological.of_append {order : List V} {w : V} (h : Topological E (order ++ [w])) :
    Topological E order :=
  fun pre v post hpost => h pre v (post ++ [w]) (by simp [hpost])

/-- Evaluation in a topological order is an evaluation. -/
theorem PartialSolution.evaluateAll [DecidableEq V] (hf : Local E f) {order : List V}
    (h : Topological E order) : PartialSolution E f (evaluateAll f order) := by
  induction order using List.reverseRecOn with
  | nil => exact .empty
  | append_singleton order w ih =>
    obtain ⟨hfresh, hpred⟩ := h order w [] rfl
    rw [evaluateAll_snoc]
    refine (ih h.of_append).update hf ?_ fun u he => (evaluateAll_isSome order u).mpr (hpred u he)
    rw [← not_isSome_iff_eq_none, evaluateAll_isSome]
    exact hfresh

/-- **Every complete evaluation is the one in a topological order.** -/
theorem PartialSolution.eq_evaluateAll [DecidableEq V] {m : V → Option β} (hwf : WellFounded E)
    (hf : Local E f) (h : PartialSolution E f m) {order : List V} (horder : Topological E order)
    (hcomplete : ∀ v, (m v).isSome ↔ v ∈ order) : m = Evaluation.evaluateAll f order := by
  funext v
  by_cases hv : v ∈ order
  · exact h.unique hwf hf (.evaluateAll hf horder) v ((hcomplete v).mpr hv)
      ((evaluateAll_isSome order v).mpr hv)
  · rw [← hcomplete, not_isSome_iff_eq_none] at hv
    rw [hv, eq_comm, ← not_isSome_iff_eq_none, evaluateAll_isSome, ← hcomplete, hv]
    simp

end Dataflow.Library.Evaluation
