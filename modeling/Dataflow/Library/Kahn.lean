import Dataflow.Library.Graph
import Dataflow.Library.Lists
import Mathlib.Algebra.Order.Ring.Int
import Mathlib.Logic.Function.Basic

/-!
# Ranks of vertices by a queue

The vertices without open edges wait in a queue. A vertex that is taken from it closes its edges,
raises the ranks of their targets above its own, and puts those into the queue that have no open
edges left.

* `Ranking`, `relax`, `visit`, `drain`, `ranking`: the algorithm, over vertices and a list of
  edges.
* `queue_foldl_relax`: what closing the edges of a vertex does.
* `Taken`: the invariant: how many edges are open, who is in the queue, and which ranks are
  settled.
* **`rank_lt_rank`**: in a graph without cycles every edge goes up in rank.
-/

namespace Dataflow.Library.Kahn

open List Function

variable {α : Type} [DecidableEq α]

/-! ## The algorithm -/

/-- The ranks, the numbers of open edges, and the queue. -/
structure Ranking (α : Type) where
  rank : α → ℕ
  indegree : α → ℤ
  queue : List α

/-- An edge from a vertex is closed. -/
def relax (id : α) (s : Ranking α) (next : α) : Ranking α :=
  let remaining := s.indegree next - 1
  { rank := update s.rank next (max (s.rank next) (s.rank id + 1))
    indegree := update s.indegree next remaining
    queue := if remaining = 0 then s.queue ++ [next] else s.queue }

/-- The targets of the edges from a vertex. -/
def targets (edges : List (α × α)) (id : α) : List α :=
  (edges.filter fun edge => edge.1 = id).map Prod.snd

/-- The sources of the edges to a vertex. -/
def sources (edges : List (α × α)) (id : α) : List α :=
  (edges.filter fun edge => edge.2 = id).map Prod.fst

/-- All edges from a vertex are closed. -/
def visit (edges : List (α × α)) (s : Ranking α) (id : α) : Ranking α :=
  (targets edges id).foldl (relax id) s

/-- The vertices in the queue are taken one after the other. -/
def drain (edges : List (α × α)) : (fuel : ℕ) → Ranking α → Ranking α
  | 0, s => s
  | fuel + 1, s =>
    match s.queue with
    | [] => s
    | id :: rest => drain edges fuel (visit edges { s with queue := rest } id)

/-- All edges are open. -/
def start (nodes : List α) (edges : List (α × α)) : Ranking α where
  rank _ := 0
  indegree id := (sources edges id).length
  queue := nodes.filter fun id => (sources edges id).length = 0

/-- The ranking of a graph; no vertex is taken twice. -/
def ranking (nodes : List α) (edges : List (α × α)) : Ranking α :=
  drain edges nodes.length (start nodes edges)

/-! ## The edges of a vertex -/

section relax

variable {id : α} {ts : List α} {s : Ranking α}

/-- The ranks after closing edges to other vertices. -/
theorem rank_foldl_relax (h : id ∉ ts) (v : α) :
    (ts.foldl (relax id) s).rank v = if v ∈ ts then max (s.rank v)
    (s.rank id + 1) else s.rank v := by
  induction ts generalizing s with
  | nil => simp
  | cons t ts ih =>
    obtain ⟨ht, hts⟩ := not_or.mp (mt mem_cons.mpr h)
    have hid : (relax id s t).rank id = s.rank id := update_of_ne ht _ _
    rw [foldl_cons, ih hts, hid]
    by_cases hv : v = t
    · subst hv
      have hself : (relax id s v).rank v = max (s.rank v) (s.rank id + 1) :=
        update_self _ _ _
      rw [hself, if_pos mem_cons_self]
      split_ifs
      · exact max_eq_left (le_max_right _ _)
      · rfl
    · have hother : (relax id s t).rank v = s.rank v := update_of_ne hv _ _
      rw [hother]
      simp [hv]

/-- The open edges after that. -/
theorem indegree_foldl_relax (v : α) :
    (ts.foldl (relax id) s).indegree v = s.indegree v - ts.count v := by
  induction ts generalizing s with
  | nil => simp
  | cons t ts ih =>
    rw [foldl_cons, ih, count_cons]
    by_cases hv : t = v
    · subst hv
      have hself : (relax id s t).indegree t = s.indegree t - 1 := update_self _ _ _
      rw [hself]
      simp
      omega
    · have hother : (relax id s t).indegree v = s.indegree v :=
        update_of_ne (Ne.symm hv) _ _
      rw [hother]
      simp [hv]

/-- **The queue after that**: the vertices whose last open edges are closed are added, each once. -/
theorem queue_foldl_relax (h : ∀ v ∈ ts, (ts.count v : ℤ) ≤ s.indegree v) :
    ∃ new, (ts.foldl (relax id) s).queue = s.queue ++ new ∧ new.Nodup ∧
      ∀ v, v ∈ new ↔ v ∈ ts ∧ s.indegree v = ts.count v := by
  induction ts generalizing s with
  | nil => exact ⟨[], by simp⟩
  | cons t ts ih =>
    have hself : (relax id s t).indegree t = s.indegree t - 1 := update_self _ _ _
    have hother : ∀ v, v ≠ t → (relax id s t).indegree v = s.indegree v := fun v hv =>
      update_of_ne hv _ _
    have hcount := h t mem_cons_self
    rw [count_cons_self] at hcount
    push_cast at hcount
    have hrest : ∀ v ∈ ts, (ts.count v : ℤ) ≤ (relax id s t).indegree v := by
      intro v hv
      by_cases heq : v = t
      · subst heq
        omega
      · have hle := h v (mem_cons_of_mem _ hv)
        rw [count_cons_of_ne (Ne.symm heq)] at hle
        rwa [hother v heq]
    obtain ⟨new, hqueue, hnodup, hmem⟩ := ih hrest
    have hlast : t ∈ ts → s.indegree t - 1 ≠ 0 := by
      intro ht
      have hpos := count_pos_iff.mpr ht
      omega
    have hnew : ∀ v, v ∈ new ↔ v ∈ ts ∧ s.indegree v = (t :: ts).count v := by
      intro v
      rw [hmem]
      by_cases heq : v = t
      · subst heq
        rw [hself, count_cons_self]
        push_cast
        exact and_congr_right fun _ => by omega
      · rw [hother v heq, count_cons_of_ne (Ne.symm heq)]
    by_cases hzero : s.indegree t - 1 = 0
    · have ht : t ∉ ts := fun hmem => hlast hmem hzero
      refine ⟨t :: new, ?_, nodup_cons.mpr ⟨fun hin => ht ((hnew t).mp hin).1, hnodup⟩, fun v => ?_⟩
      · have hfirst : (relax id s t).queue = s.queue ++ [t] := if_pos hzero
        rw [foldl_cons, hqueue, hfirst, append_assoc, singleton_append]
      · rw [mem_cons, hnew, mem_cons]
        constructor
        · rintro (rfl | ⟨hv, heq⟩)
          · refine ⟨.inl rfl, ?_⟩
            rw [count_cons_self, count_eq_zero_of_not_mem ht]
            push_cast
            omega
          · exact ⟨.inr hv, heq⟩
        · rintro ⟨rfl | hv, heq⟩
          · exact .inl rfl
          · exact .inr ⟨hv, heq⟩
    · refine ⟨new, ?_, hnodup, fun v => ?_⟩
      · have hfirst : (relax id s t).queue = s.queue := if_neg hzero
        rw [foldl_cons, hqueue, hfirst]
      · rw [hnew, mem_cons]
        constructor
        · exact fun hv => ⟨.inr hv.1, hv.2⟩
        · rintro ⟨rfl | hv, heq⟩
          · refine ⟨?_, heq⟩
            rw [count_cons_self] at heq
            push_cast at heq
            exact count_pos_iff.mp (by omega)
          · exact ⟨hv, heq⟩

end relax

/-! ## Vertices that are taken -/

section taken

variable {nodes done : List α} {edges : List (α × α)} {s : Ranking α} {id v : α} {rest : List α}

/-- How many edges to a vertex come from vertices that are not taken. -/
def openEdges (edges : List (α × α)) (done : List α) (v : α) : ℕ :=
  edges.countP fun edge => edge.2 = v && edge.1 ∉ done

/-- **The invariant**: open edges are those from vertices that are not taken; taken or in the queue
are the vertices without open edges; and edges from vertices that are taken go up. -/
structure Taken (nodes : List α) (edges : List (α × α)) (done : List α) (s : Ranking α) : Prop where
  indegree : ∀ v, s.indegree v = openEdges edges done v
  nodup : (done ++ s.queue).Nodup
  mem : ∀ v, v ∈ done ++ s.queue ↔ v ∈ nodes ∧ s.indegree v = 0
  up : ∀ edge ∈ edges, edge.1 ∈ done → s.rank edge.1 < s.rank edge.2

theorem count_targets (edges : List (α × α)) (id v : α) :
    (targets edges id).count v = edges.countP fun edge => edge.2 = v && edge.1 = id := by
  rw [targets, List.count, countP_map, countP_filter]
  rfl

theorem mem_targets : v ∈ targets edges id ↔ (id, v) ∈ edges := by
  simp [targets]

theorem length_sources (edges : List (α × α)) (v : α) :
    (sources edges v).length = openEdges edges [] v := by
  rw [sources, length_map, openEdges, countP_eq_length_filter]
  simp

/-- A vertex is taken: the edges from it are closed. -/
theorem openEdges_snoc (hid : id ∉ done) (v : α) :
    openEdges edges done v = openEdges edges (done ++ [id]) v + (targets edges id).count v := by
  rw [count_targets]
  apply Lists.countP_eq_add
  intro edge _
  have hne : edge.1 = id → edge.1 ∉ done := fun heq => heq ▸ hid
  simp only [Bool.and_eq_true, decide_eq_true_eq, mem_append, mem_singleton, not_or]
  tauto

/-- An edge from a vertex that is not taken is open. -/
theorem openEdges_pos {edge : α × α} (hedge : edge ∈ edges) (hdone : edge.1 ∉ done) :
    0 < openEdges edges done edge.2 :=
  countP_pos_iff.mpr ⟨edge, hedge, by simp [hdone]⟩

theorem taken_start (hnodes : nodes.Nodup) : Taken nodes edges [] (start nodes edges) where
  indegree v := by
    rw [← length_sources]
    rfl
  nodup := hnodes.filter _
  mem v := by simp [start]
  up edge _ hin := absurd hin not_mem_nil

/-- **A step**: the first vertex of the queue is taken. -/
theorem Taken.visit (hknown : ∀ edge ∈ edges, edge.2 ∈ nodes) (h : Taken nodes edges done s)
    (hqueue : s.queue = id :: rest) :
    Taken nodes edges (done ++ [id]) (visit edges { s with queue := rest } id) := by
  have hnodup := h.nodup
  rw [hqueue] at hnodup
  have hid : id ∉ done := fun hin =>
    (nodup_append.mp hnodup).2.2 id hin id mem_cons_self rfl
  have hzero : ∀ v ∈ done ++ s.queue, openEdges edges done v = 0 := by
    intro v hv
    have hopen := ((h.mem v).mp hv).2
    rw [h.indegree] at hopen
    exact_mod_cast hopen
  -- a target still has the edge open, so it is neither taken nor in the queue
  have htarget : ∀ v ∈ targets edges id, v ∉ done ++ s.queue := by
    intro v hv hin
    have hpos := openEdges_pos (mem_targets.mp hv) hid
    rw [hzero v hin] at hpos
    exact absurd hpos (lt_irrefl 0)
  have hself : id ∈ done ++ s.queue := by
    rw [hqueue]
    exact mem_append_right _ mem_cons_self
  have hidts : id ∉ targets edges id := fun hin => htarget id hin hself
  have hcount : ∀ v ∈ targets edges id, ((targets edges id).count v : ℤ) ≤ s.indegree v := by
    intro v _
    rw [h.indegree, openEdges_snoc hid]
    push_cast
    omega
  obtain ⟨new, hnew, hnewNodup, hmemNew⟩ := queue_foldl_relax (s := { s with queue := rest }) hcount
  have hindegree : ∀ v, (Kahn.visit edges { s with queue := rest } id).indegree v =
      openEdges edges (done ++ [id]) v := by
    intro v
    rw [Kahn.visit, indegree_foldl_relax]
    have hopen := h.indegree v
    rw [openEdges_snoc hid] at hopen
    push_cast at hopen
    exact sub_eq_iff_eq_add.mpr hopen
  have hall : done ++ [id] ++ (Kahn.visit edges { s with queue := rest } id).queue =
      done ++ s.queue ++ new := by
    rw [Kahn.visit, hnew, hqueue]
    simp
  refine ⟨hindegree, ?_, fun v => ?_, ?_⟩
  · rw [hall]
    refine nodup_append.mpr ⟨h.nodup, hnewNodup, fun a ha b hb hab => ?_⟩
    exact htarget b ((hmemNew b).mp hb).1 (hab ▸ ha)
  · rw [hall, mem_append, h.mem, hmemNew, hindegree, h.indegree, openEdges_snoc hid]
    push_cast
    constructor
    · rintro (⟨hv, hopen⟩ | ⟨hv, hopen⟩)
      · exact ⟨hv, by omega⟩
      · exact ⟨hknown _ (mem_targets.mp hv), by omega⟩
    · rintro ⟨hv, hopen⟩
      by_cases hin : v ∈ targets edges id
      · exact .inr ⟨hin, by omega⟩
      · exact .inl ⟨hv, by rw [count_eq_zero_of_not_mem hin]; omega⟩
  · intro edge hedge hin
    rw [Kahn.visit, rank_foldl_relax hidts, rank_foldl_relax hidts]
    have hsource : edge.1 ∉ targets edges id := by
      rcases mem_append.mp hin with hin | hin
      · exact fun hts => htarget edge.1 hts (mem_append_left _ hin)
      · exact mem_singleton.mp hin ▸ hidts
    rw [if_neg hsource]
    rcases mem_append.mp hin with hin | hin
    · have hup := h.up edge hedge hin
      split_ifs
      · exact lt_max_of_lt_left hup
      · exact hup
    · obtain rfl : edge.1 = id := mem_singleton.mp hin
      rw [if_pos (mem_targets.mpr hedge)]
      exact lt_max_of_lt_right (Nat.lt_succ_self _)

/-- **A run**: the queue gets empty, as no vertex is taken twice. -/
theorem Taken.drain (hknown : ∀ edge ∈ edges, edge.2 ∈ nodes) (h : Taken nodes edges done s)
    {fuel : ℕ} (hfuel : nodes.length ≤ done.length + fuel) :
    ∃ done', Taken nodes edges done' (drain edges fuel s) ∧
    (Kahn.drain edges fuel s).queue = [] := by
  induction fuel generalizing done s with
  | zero =>
    refine ⟨done, h, eq_nil_of_length_eq_zero ?_⟩
    have hsub : done ++ s.queue ⊆ nodes := fun v hv => ((h.mem v).mp hv).1
    have hlength := (h.nodup.subperm hsub).length_le
    rw [length_append] at hlength
    change s.queue.length = 0
    omega
  | succ fuel ih =>
    rw [Kahn.drain]
    cases hqueue : s.queue with
    | nil => exact ⟨done, h, hqueue⟩
    | cons id rest =>
      refine ih (h.visit hknown hqueue) ?_
      rw [length_append, length_singleton]
      omega

end taken

/-- **Every edge goes up in rank** in a graph without cycles. -/
theorem rank_lt_rank {nodes : List α} {edges : List (α × α)} (hnodes : nodes.Nodup)
    (hknown : ∀ edge ∈ edges, edge.1 ∈ nodes ∧ edge.2 ∈ nodes)
    (hacyclic : ¬ Graph.Cyclic fun u v => (u, v) ∈ edges) {edge : α × α} (hedge : edge ∈ edges) :
    (ranking nodes edges).rank edge.1 < (ranking nodes edges).rank edge.2 := by
  have hstart : Taken nodes edges [] (start nodes edges) := taken_start hnodes
  have hfuel : nodes.length ≤ ([] : List α).length + nodes.length := by simp
  obtain ⟨done, htaken, hqueue⟩ := hstart.drain (fun edge he => (hknown edge he).2) hfuel
  have hdone : ∀ v ∈ nodes, v ∈ done := by
    intro v
    have hwf := Graph.wellFounded_of_acyclic (V := {v | v ∈ nodes}) (finite_toSet nodes)
      (fun u v he => (hknown (u, v) he).1) hacyclic
    induction v using hwf.induction with
    | _ v ih =>
      intro hv
      have hopen : openEdges edges done v = 0 := by
        apply countP_eq_zero.mpr
        intro edge he hopen
        simp only [Bool.and_eq_true, decide_eq_true_eq] at hopen
        obtain ⟨rfl, hnot⟩ := hopen
        exact hnot (ih edge.1 he (hknown edge he).1)
      have hmem : v ∈ done ++ (drain edges nodes.length (start nodes edges)).queue :=
        (htaken.mem v).mpr ⟨hv, by rw [htaken.indegree, hopen]; rfl⟩
      rwa [hqueue, append_nil] at hmem
  exact htaken.up edge hedge (hdone edge.1 (hknown edge hedge).1)

end Dataflow.Library.Kahn
