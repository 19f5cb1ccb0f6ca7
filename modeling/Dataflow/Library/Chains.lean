import Dataflow.Library.Graph
import Dataflow.Library.Lists
import Mathlib.Data.List.Chain

/-!
# Graphs that are one path

A directed graph with parallel edges: its vertices and its edges are lists.

* `pairs`: the consecutive pairs of a list.
* `exists_chain`: **the graph is one path**: an acyclic graph with one edge less than vertices,
  where every vertex but one has an edge into it, and every vertex but one has an edge out of it.
* `exists_chain_append`: the step: a path that does not have every vertex is extended at its end.
-/

namespace Dataflow.Library.Chains

open Library.Graph Library.Lists List

variable {α : Type*}

/-! ## Consecutive pairs -/

/-- The pairs of consecutive elements. -/
def pairs (path : List α) : List (α × α) := path.zip path.tail

section pairs

variable {path : List α} {a b : α}

theorem map_snd_pairs (path : List α) : (pairs path).map Prod.snd = path.tail :=
  map_snd_zip (by rw [length_tail]; exact Nat.sub_le _ _)

theorem length_pairs (path : List α) : (pairs path).length = path.length - 1 := by
  rw [← length_map Prod.snd, map_snd_pairs, length_tail]

/-- A path that does not meet a vertex twice has no edge twice. -/
theorem nodup_pairs (h : path.Nodup) : (pairs path).Nodup := by
  refine List.Nodup.of_map Prod.snd ?_
  rw [map_snd_pairs]
  exact h.tail

theorem pairs_cons_cons (a b : α) (path : List α) :
    pairs (a :: b :: path) = (a, b) :: pairs (b :: path) :=
  rfl

theorem mem_pairs_append (before after : List α) (a b : α) :
    (a, b) ∈ pairs (before ++ a :: b :: after) := by
  induction before with
  | nil => exact mem_cons_self
  | cons c before ih =>
    cases before with
    | nil | cons d before => exact mem_cons_of_mem _ ih

/-- Every element but the first has one before it. -/
theorem exists_mem_pairs_left (hb : b ∈ path) (hhead : path.head? ≠ some b) :
    ∃ a, (a, b) ∈ pairs path := by
  obtain ⟨before, after, rfl⟩ := append_of_mem hb
  rcases eq_nil_or_concat before with rfl | ⟨before, a, rfl⟩
  · simp at hhead
  · refine ⟨a, ?_⟩
    rw [concat_eq_append, append_assoc]
    exact mem_pairs_append before after a b

/-- Every element but the last has one behind it. -/
theorem exists_mem_pairs_right (ha : a ∈ path) (hlast : path.getLast? ≠ some a) :
    ∃ b, (a, b) ∈ pairs path := by
  obtain ⟨before, after, rfl⟩ := append_of_mem ha
  cases after with
  | nil => simp at hlast
  | cons b after => exact ⟨b, mem_pairs_append before after a b⟩

/-- The last element of a path without repetitions has none behind it. -/
theorem not_mem_pairs_getLast (h : path.Nodup) (hlast : path.getLast? = some a) (b : α) :
    (a, b) ∉ pairs path := by
  induction path with
  | nil => simp [pairs]
  | cons c path ih =>
    cases path with
    | nil => simp [pairs]
    | cons d path =>
      obtain ⟨hnew, hnodup⟩ := nodup_cons.mp h
      rw [getLast?_cons_cons] at hlast
      rw [pairs_cons_cons, mem_cons]
      rintro (heq | hmem)
      · cases heq
        exact hnew (mem_of_getLast? hlast)
      · exact ih hnodup hlast hmem

/-- The first element of a path without repetitions has none before it. -/
theorem not_mem_pairs_head (h : path.Nodup) (hhead : path.head? = some b) (a : α) :
    (a, b) ∉ pairs path := by
  intro hmem
  obtain ⟨rest, rfl⟩ := head?_eq_some_iff.mp hhead
  exact (nodup_cons.mp h).1 (of_mem_zip hmem).2

/-- The pairs that lead to an element: one, unless it is the first. -/
theorem filter_snd_pairs [DecidableEq α] {before after : List α} (h : (before ++ b :: after).Nodup) :
    (pairs (before ++ b :: after)).filter (fun e => e.2 = b) =
      before.getLast?.toList.map fun a => (a, b) := by
  induction before with
  | nil =>
    refine filter_eq_nil_iff.mpr fun e he => ?_
    have hne := not_mem_pairs_head h rfl e.1
    simpa using fun heq : e.2 = b => hne (heq ▸ he)
  | cons c before ih =>
    have hrest := ih (nodup_cons.mp h).2
    cases before with
    | nil =>
      rw [nil_append] at hrest
      rw [singleton_append, pairs_cons_cons, filter_cons_of_pos (by simp), hrest]
      rfl
    | cons d before =>
      have hne : d ≠ b := by
        rintro rfl
        exact (nodup_cons.mp (nodup_cons.mp h).2).1 (mem_append_right _ mem_cons_self)
      rw [cons_append, cons_append, pairs_cons_cons, filter_cons_of_neg (by simpa using hne),
        getLast?_cons_cons]
      exact hrest

/-- In a path without repetitions one element is behind another. -/
theorem pairs_right_unique {c : α} (h : path.Nodup) (hb : (a, b) ∈ pairs path)
    (hc : (a, c) ∈ pairs path) :
    b = c := by
  induction path with
  | nil => simp [pairs] at hb
  | cons d path ih =>
    cases path with
    | nil => simp [pairs] at hb
    | cons e path =>
      obtain ⟨hnew, hnodup⟩ := nodup_cons.mp h
      have hrest : ∀ {x}, (d, x) ∉ pairs (e :: path) :=
        fun hmem => hnew (of_mem_zip hmem).1
      rw [pairs_cons_cons, mem_cons] at hb hc
      rcases hb with heq | hb
      · cases heq
        rcases hc with heq | hc
        · cases heq
          rfl
        · exact absurd hc hrest
      · rcases hc with heq | hc
        · cases heq
          exact absurd hb hrest
        · exact ih hnodup hb hc

theorem mem_of_isChain {E : α → α → Prop} (h : path.IsChain E) {e : α × α} (he : e ∈ pairs path) :
    E e.1 e.2 := by
  induction path with
  | nil => simp [pairs] at he
  | cons c path ih =>
    cases path with
    | nil => simp [pairs] at he
    | cons d path =>
      rw [isChain_cons_cons] at h
      rw [pairs_cons_cons, mem_cons] at he
      rcases he with rfl | he
      · exact h.1
      · exact ih h.2 he

end pairs

/-! ## The path -/

section chain

variable [DecidableEq α] {vertices : List α} {edges : List (α × α)} {first last : α}

/-- There is an edge. -/
def Joins (edges : List (α × α)) (a b : α) : Prop := (a, b) ∈ edges

/-- With one edge less than vertices, and an edge out of every vertex but one, no vertex has two. -/
theorem out_unique (hvertices : vertices.Nodup) (hlast : last ∈ vertices)
    (hcount : edges.length + 1 = vertices.length)
    (hout : ∀ v ∈ vertices, v ≠ last → ∃ w, (v, w) ∈ edges) {a b c : α} (hb : (a, b) ∈ edges)
    (hc : (a, c) ∈ edges) : b = c := by
  have hperm : (vertices.erase last).Perm (edges.map Prod.fst) := by
    refine perm_of_subset_of_length_eq (hvertices.erase last) ?_ ?_
    · intro v hv
      obtain ⟨hne, hmem⟩ := (hvertices.mem_erase_iff).mp hv
      obtain ⟨w, hw⟩ := hout v hmem hne
      exact mem_map.mpr ⟨(v, w), hw, rfl⟩
    · rw [length_map, length_erase_of_mem hlast]
      omega
  have hnodup : (edges.map Prod.fst).Nodup := hperm.nodup_iff.mp (hvertices.erase last)
  exact congrArg Prod.snd (inj_on_of_nodup_map hnodup hb hc rfl)

/-- **A path that does not have every vertex goes on**: the edge that leaves it starts at its
end. -/
theorem exists_chain_append (hwf : WellFounded (Joins edges))
    (hknown : ∀ e ∈ edges, e.1 ∈ vertices ∧ e.2 ∈ vertices)
    (hin : ∀ v ∈ vertices, v ≠ first → ∃ u, (u, v) ∈ edges)
    (hunique : ∀ a b c, (a, b) ∈ edges → (a, c) ∈ edges → b = c) {path : List α}
    (hpath : path.IsChain (Joins edges)) (hfirst : path.head? = some first) {v : α}
    (hv : v ∈ vertices) (hnew : v ∉ path) :
    ∃ w, w ∈ vertices ∧ w ∉ path ∧ (path ++ [w]).IsChain (Joins edges) := by
  -- going back from the vertex one comes to the path, at the latest at its first vertex
  have hleaves : ∃ a ∈ path, ∃ b, b ∉ path ∧ (a, b) ∈ edges := by
    induction v using hwf.induction with
    | _ v ih =>
      have hne : v ≠ first := by
        rintro rfl
        exact hnew (mem_of_head? hfirst)
      obtain ⟨u, hu⟩ := hin v hv hne
      by_cases hmem : u ∈ path
      · exact ⟨u, hmem, v, hnew, hu⟩
      · exact ih u hu (hknown _ hu).1 hmem
  obtain ⟨a, ha, b, hb, hedge⟩ := hleaves
  have hend : path.getLast? = some a := by
    by_contra hnot
    obtain ⟨c, hc⟩ := exists_mem_pairs_right ha hnot
    have hcb : c = b := hunique a c b (mem_of_isChain hpath hc) hedge
    have hmem : c ∈ path.tail := by
      rw [← map_snd_pairs]
      exact mem_map.mpr ⟨(a, c), hc, rfl⟩
    exact hb (hcb ▸ mem_of_mem_tail hmem)
  refine ⟨b, (hknown _ hedge).2, hb, ?_⟩
  rw [isChain_append]
  refine ⟨hpath, isChain_singleton b, ?_⟩
  intro x hx y hy
  rw [hend] at hx
  cases hx
  cases hy
  exact hedge

/-- **The graph is one path.** -/
theorem exists_chain (hvertices : vertices.Nodup) (hfirst : first ∈ vertices)
    (hlast : last ∈ vertices) (hknown : ∀ e ∈ edges, e.1 ∈ vertices ∧ e.2 ∈ vertices)
    (hacyclic : ¬ Cyclic (Joins edges)) (hcount : edges.length + 1 = vertices.length)
    (hin : ∀ v ∈ vertices, v ≠ first → ∃ u, (u, v) ∈ edges)
    (hout : ∀ v ∈ vertices, v ≠ last → ∃ w, (v, w) ∈ edges) :
    ∃ path : List α, path.Perm vertices ∧ path.head? = some first ∧ path.getLast? = some last ∧
      edges.Perm (pairs path) := by
  have hwf : WellFounded (Joins edges) := wellFounded_of_acyclic (vertices.finite_toSet)
    (fun u v h => (hknown _ h).1) hacyclic
  have hunique : ∀ a b c, (a, b) ∈ edges → (a, c) ∈ edges → b = c := fun _ _ _ =>
    out_unique hvertices hlast hcount hout
  have hgrow : ∀ n < vertices.length, ∃ path : List α, path.length = n + 1 ∧ path.Nodup ∧
      path ⊆ vertices ∧ path.head? = some first ∧ path.IsChain (Joins edges) := by
    intro n hn
    induction n with
    | zero =>
      exact ⟨[first], rfl, nodup_singleton _, by simpa using hfirst, rfl, isChain_singleton _⟩
    | succ n ih =>
      obtain ⟨path, hlength, hnodup, hsubset, hhead, hchain⟩ := ih (by omega)
      obtain ⟨v, hv, hnew⟩ : ∃ v ∈ vertices, v ∉ path := by
        by_contra hall
        push Not at hall
        have := (hvertices.subperm hall).length_le
        omega
      obtain ⟨w, hw, hwnew, hchain'⟩ := exists_chain_append hwf hknown hin hunique hchain hhead hv hnew
      refine ⟨path ++ [w], by simp [hlength], ?_, ?_, ?_, hchain'⟩
      · rw [nodup_append]
        refine ⟨hnodup, nodup_singleton _, ?_⟩
        intro x hx y hy heq
        rw [mem_singleton.mp hy] at heq
        exact hwnew (heq ▸ hx)
      · exact append_subset.mpr ⟨hsubset, by simpa using hw⟩
      · rw [head?_append, hhead]
        rfl
  have hpos : 0 < vertices.length := by omega
  obtain ⟨path, hlength, hnodup, hsubset, hhead, hchain⟩ := hgrow (vertices.length - 1) (by omega)
  have hperm : path.Perm vertices := perm_of_subset_of_length_eq hnodup hsubset (by omega)
  have hedges : (pairs path).Perm edges := by
    refine perm_of_subset_of_length_eq (nodup_pairs hnodup) ?_ ?_
    · exact fun e he => mem_of_isChain hchain he
    · rw [length_pairs]
      omega
  refine ⟨path, hperm, hhead, ?_, hedges.symm⟩
  obtain ⟨a, ha⟩ : ∃ a, path.getLast? = some a := by
    refine ⟨path.getLast (ne_nil_of_length_pos (by omega)), getLast?_eq_getLast_of_ne_nil _⟩
  by_cases heq : a = last
  · rw [ha, heq]
  · obtain ⟨w, hw⟩ := hout a (hsubset (mem_of_getLast? ha)) heq
    exact absurd (hedges.mem_iff.mpr hw) (not_mem_pairs_getLast hnodup ha w)

end chain

end Dataflow.Library.Chains
