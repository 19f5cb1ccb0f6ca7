import Mathlib.Order.WellFoundedSet
import Mathlib.Order.Bounds.Basic
import Mathlib.Data.Set.Finite.Lattice
import Mathlib.Order.Lattice.Nat

/-!
# Layers of a directed graph by longest path

A directed graph is given by its edge relation `E : α → α → Prop`; parallel edges are invisible
at this level.

* `Walk E a b n`: a walk of `n` edges from `a` to `b`.
* `Rank E v n`: the longest walk ending in `v` has exactly `n` edges (`IsGreatest` of the walk
  lengths, so `Rank` is a partial function of `v`).
* `Cyclic E`: some vertex reaches itself by at least one edge.
* `rank_iff_not_below`: the layer test of a level-by-level peel: `v` has rank `k` iff it is in
  no earlier layer and all its predecessors are. This is the only fact a peeling algorithm has
  to maintain.
* `exists_rank`: in a finite acyclic graph every vertex has a rank, and `not_rank_of_cycle` —
  on a cycle none has. Hence a peel that stops has seen every vertex iff there is no cycle.
* `not_cyclic_iff_acc`: the same with accessibility, for a walk that takes vertices one by one.
-/

namespace Dataflow.Library.Graph

variable {α : Type*} {E : α → α → Prop}

/-! ## Walks and cycles -/

/-- A walk of `n` edges, extended at its end. -/
inductive Walk (E : α → α → Prop) : α → α → ℕ → Prop where
  | nil (a : α) : Walk E a a 0
  | snoc {a b c : α} {n : ℕ} : Walk E a b n → E b c → Walk E a c (n + 1)

/-- The graph has a cycle (a self loop counts). -/
def Cyclic (E : α → α → Prop) : Prop := ∃ a, Relation.TransGen E a a

/-- Lengths of the walks that end in `v`. -/
def walkLengths (E : α → α → Prop) (v : α) : Set ℕ := {n | ∃ a, Walk E a v n}

/-- The longest walk ending in `v` has `n` edges. -/
def Rank (E : α → α → Prop) (v : α) (n : ℕ) : Prop := IsGreatest (walkLengths E v) n

/-- `v` has a rank smaller than `k`. -/
def Below (E : α → α → Prop) (k : ℕ) (v : α) : Prop := ∃ j < k, Rank E v j

theorem zero_mem_walkLengths (v : α) : 0 ∈ walkLengths E v := ⟨v, .nil v⟩

theorem succ_mem_walkLengths {v : α} {n : ℕ} :
    n + 1 ∈ walkLengths E v ↔ ∃ u, E u v ∧ n ∈ walkLengths E u := by
  constructor
  · rintro ⟨a, h⟩
    cases h with
    | snoc hw he => exact ⟨_, he, a, hw⟩
  · rintro ⟨u, he, a, hw⟩
    exact ⟨a, hw.snoc he⟩

/-- Walks compose. -/
theorem Walk.trans {a b c : α} {m n : ℕ} (h₁ : Walk E a b m) (h₂ : Walk E b c n) :
    Walk E a c (m + n) := by
  induction h₂ with
  | nil => exact h₁
  | snoc _ he ih => exact ih.snoc he

/-- A nonempty chain of edges is a walk of positive length. -/
theorem exists_walk_of_transGen {a b : α} (h : Relation.TransGen E a b) :
    ∃ n, Walk E a b (n + 1) := by
  induction h with
  | single he => exact ⟨0, (Walk.nil a).snoc he⟩
  | tail _ he ih =>
    obtain ⟨n, hw⟩ := ih
    exact ⟨n + 1, hw.snoc he⟩

/-! ## Ranks -/

/-- The rank is unique. -/
theorem Rank.unique {v : α} {m n : ℕ} (hm : Rank E v m) (hn : Rank E v n) : m = n :=
  IsGreatest.unique hm hn

/-- An edge strictly raises the rank. -/
theorem Rank.lt_of_edge {u v : α} {m n : ℕ} (he : E u v) (hu : Rank E u m) (hv : Rank E v n) :
    m < n :=
  hv.2 (succ_mem_walkLengths.mpr ⟨u, he, hu.1⟩)

/-- A bound on the walk lengths gives a rank. -/
theorem exists_rank_of_bounded {v : α} {k : ℕ} (h : ∀ n ∈ walkLengths E v, n ≤ k) :
    ∃ n ≤ k, Rank E v n := by
  have hne : (walkLengths E v).Nonempty := ⟨0, zero_mem_walkLengths v⟩
  have hbdd : BddAbove (walkLengths E v) := ⟨k, h⟩
  have hmem := Nat.sSup_mem hne hbdd
  exact ⟨_, h _ hmem, hmem, fun n hn => le_csSup hbdd hn⟩

/-- The predecessors of a ranked vertex have smaller ranks. -/
theorem Rank.below_of_edge {u v : α} {k : ℕ} (hv : Rank E v k) (he : E u v) : Below E k u := by
  have hbound : ∀ n ∈ walkLengths E u, n + 1 ≤ k := fun n hn =>
    hv.2 (succ_mem_walkLengths.mpr ⟨u, he, hn⟩)
  have hk : 1 ≤ k := hbound 0 (zero_mem_walkLengths u)
  obtain ⟨n, hn, hr⟩ := exists_rank_of_bounded (k := k - 1) fun n hn => by
    have := hbound n hn
    omega
  exact ⟨n, by omega, hr⟩

/-- Predecessors below `k` bound the walks into `v` by `k`. -/
theorem le_of_preds_below {v : α} {k : ℕ} (h : ∀ u, E u v → Below E k u) :
    ∀ n ∈ walkLengths E v, n ≤ k := by
  intro n hn
  cases n with
  | zero => exact Nat.zero_le k
  | succ n =>
    obtain ⟨u, he, hu⟩ := succ_mem_walkLengths.mp hn
    obtain ⟨j, hj, hr⟩ := h u he
    have := hr.2 hu
    omega

/-- **The layer test of a peel**: `v` has rank `k` iff it is in no earlier layer while all its
predecessors are. -/
theorem rank_iff_not_below {v : α} {k : ℕ} :
    Rank E v k ↔ ¬ Below E k v ∧ ∀ u, E u v → Below E k u := by
  constructor
  · intro hv
    refine ⟨?_, fun u he => hv.below_of_edge he⟩
    rintro ⟨j, hj, hr⟩
    have := hr.unique hv
    omega
  · rintro ⟨hnot, hpred⟩
    obtain ⟨n, hn, hr⟩ := exists_rank_of_bounded (le_of_preds_below hpred)
    have hnk : ¬ n < k := fun hlt => hnot ⟨n, hlt, hr⟩
    have : n = k := by omega
    exact this ▸ hr

/-- Rank `0` is "no incoming edge". -/
theorem rank_zero_iff {v : α} : Rank E v 0 ↔ ∀ u, ¬ E u v := by
  rw [rank_iff_not_below]
  constructor
  · rintro ⟨-, h⟩ u he
    obtain ⟨j, hj, -⟩ := h u he
    omega
  · intro h
    refine ⟨?_, fun u he => absurd he (h u)⟩
    rintro ⟨j, hj, -⟩
    omega

/-- A positive rank comes from a predecessor one layer down. -/
theorem Rank.exists_pred {v : α} {k : ℕ} (hv : Rank E v (k + 1)) : ∃ u, E u v ∧ Rank E u k := by
  obtain ⟨u, he, hu⟩ := succ_mem_walkLengths.mp hv.1
  refine ⟨u, he, hu, fun n hn => ?_⟩
  have := hv.2 (succ_mem_walkLengths.mpr ⟨u, he, hn⟩)
  omega

/-- Every layer under a nonempty layer is nonempty. -/
theorem Rank.exists_of_le {v : α} {j k : ℕ} (hv : Rank E v k) (hjk : j ≤ k) :
    ∃ u, Rank E u j ∧ (u = v ∨ ∃ w, E u w) := by
  induction k generalizing v with
  | zero => exact ⟨v, by rwa [Nat.le_zero.mp hjk], .inl rfl⟩
  | succ k ih =>
    rcases lt_or_ge j (k + 1) with hlt | hge
    · obtain ⟨u, he, hu⟩ := hv.exists_pred
      obtain ⟨w, hw, hor⟩ := ih hu (Nat.lt_succ_iff.mp hlt)
      refine ⟨w, hw, .inr ?_⟩
      rcases hor with rfl | hout
      · exact ⟨v, he⟩
      · exact hout
    · exact ⟨v, by rwa [le_antisymm hjk hge], .inl rfl⟩

/-! ## Cycles -/

/-- A walk can be repeated around a cycle, so the walks into a cyclic vertex are unbounded. -/
theorem not_rank_of_cycle {v : α} (h : Relation.TransGen E v v) (n : ℕ) : ¬ Rank E v n := by
  intro hr
  obtain ⟨m, hw⟩ := exists_walk_of_transGen h
  obtain ⟨a, ha⟩ := hr.1
  have := hr.2 ⟨a, ha.trans hw⟩
  omega

/-- Over a finite vertex set an acyclic edge relation is well founded. -/
theorem wellFounded_of_acyclic {V : Set α} (hV : V.Finite) (hE : ∀ u v, E u v → u ∈ V)
    (h : ¬ Cyclic E) : WellFounded E := by
  have hirr : Std.Irrefl (Relation.TransGen E) := ⟨fun a ha => h ⟨a, ha⟩⟩
  have hstrict : IsStrictOrder α (Relation.TransGen E) := {}
  have hwf : V.WellFoundedOn (Relation.TransGen E) := hV.wellFoundedOn
  have hacc : ∀ v ∈ V, Acc E v := by
    intro v hv
    refine hwf.induction hv fun w _ ih => ⟨w, fun u he => ih u (hE u w he) (.single he)⟩
  exact ⟨fun v => ⟨v, fun u he => hacc u (hE u v he)⟩⟩

/-- **In a finite acyclic graph every vertex has a rank.** -/
theorem exists_rank {V : Set α} (hV : V.Finite) (hE : ∀ u v, E u v → u ∈ V)
    (h : ¬ Cyclic E) (v : α) : ∃ n, Rank E v n := by
  induction v using (wellFounded_of_acyclic hV hE h).induction with
  | _ v ih =>
    -- the ranks of the finitely many predecessors have a common bound
    choose! r hr using ih
    obtain ⟨k, hk⟩ := (hV.image r).bddAbove
    obtain ⟨n, -, hn⟩ := exists_rank_of_bounded (k := k + 1) (le_of_preds_below fun u he =>
      ⟨r u, Nat.lt_succ_of_le (hk ⟨u, hE u v he, rfl⟩), hr u he⟩)
    exact ⟨n, hn⟩

/-- **A finite graph is acyclic iff every vertex has a rank.** -/
theorem not_cyclic_iff_rank {V : Set α} (hV : V.Finite) (hE : ∀ u v, E u v → u ∈ V) :
    ¬ Cyclic E ↔ ∀ v ∈ V, ∃ n, Rank E v n := by
  constructor
  · exact fun h v _ => exists_rank hV hE h v
  · rintro h ⟨a, ha⟩
    obtain ⟨b, hab, -⟩ := Relation.TransGen.head'_iff.mp ha
    obtain ⟨n, hn⟩ := h a (hE a b hab)
    exact not_rank_of_cycle ha n hn

/-- Edges that go upwards in some numbering make no cycle. -/
theorem not_cyclic_of_lt (f : α → ℕ) (h : ∀ u v, E u v → f u < f v) : ¬ Cyclic E := by
  rintro ⟨a, ha⟩
  have hlt : ∀ b, Relation.TransGen E a b → f a < f b := by
    intro b hb
    induction hb with
    | single he => exact h _ _ he
    | tail _ he ih => exact ih.trans (h _ _ he)
  exact lt_irrefl _ (hlt a ha)

/-- An accessible vertex is on no cycle. -/
theorem not_transGen_of_acc {v : α} (h : Acc E v) : ¬ Relation.TransGen E v v := by
  have htrans := h.transGen
  clear h
  induction htrans with
  | intro v _ ih => exact fun hcycle => ih v hcycle hcycle

/-- **A finite graph is acyclic iff every vertex is accessible.** -/
theorem not_cyclic_iff_acc {V : Set α} (hV : V.Finite) (hE : ∀ u v, E u v → u ∈ V) :
    ¬ Cyclic E ↔ ∀ v ∈ V, Acc E v := by
  constructor
  · exact fun h v _ => (wellFounded_of_acyclic hV hE h).apply v
  · rintro h ⟨a, ha⟩
    obtain ⟨b, hab, -⟩ := Relation.TransGen.head'_iff.mp ha
    exact not_transGen_of_acc (h a (hE a b hab)) ha

end Dataflow.Library.Graph
