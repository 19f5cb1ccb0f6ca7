import Dataflow.Library.Graph
import Mathlib.Data.ENat.Basic
import Mathlib.Data.Finset.Card
import Mathlib.Data.Finset.SDiff

/-!
# Breadth-first search with a bound on the distance

A search goes through the vertices in the order of their distance from a vertex. A vertex goes into
the queue when it is seen for the first time, with the distance at which it is seen, and vertices at
the bound are not looked behind.

* `search`: the search, for at most so many rounds.
* `Near`: the vertices within a distance.
* `Frontier`: **the invariant**: what is within a distance has been seen, and what is seen beyond
  it is at the end of the queue.
* `mem_search_iff`: with enough rounds the search sees exactly what is within the bound.
-/

set_option linter.unusedSectionVars false

namespace Dataflow.Library.Breadth

open List

open Library.Graph (Walk)

variable {V : Type*} [DecidableEq V] (next : V → List V)

/-! ## The search -/

/-- A vertex that has not been seen goes into the queue. -/
def visit (distance : ℕ) (state : List (V × ℕ) × List V) (u : V) : List (V × ℕ) × List V :=
  if u ∈ state.2 then state else (state.1 ++ [(u, distance)], state.2 ++ [u])

/-- The loop over the queue, for at most so many rounds. -/
def search (depth : ℕ∞) : (rounds : ℕ) → (queue : List (V × ℕ)) → (seen : List V) → List V
  | 0, _, seen => seen
  | _ + 1, [], seen => seen
  | rounds + 1, (v, distance) :: queue, seen =>
    if depth ≤ distance then search depth rounds queue seen
    else
      let state := (next v).foldl (visit (distance + 1)) (queue, seen)
      search depth rounds state.1 state.2

/-! ## Vertices within a distance -/

/-- There is a walk of at most so many edges. -/
def Near (start : V) (n : ℕ) (v : V) : Prop := ∃ k ≤ n, Walk (fun u w => w ∈ next u) start v k

section near

variable {next} {start u v : V} {n : ℕ}

theorem near_zero_iff : Near next start 0 v ↔ v = start := by
  constructor
  · rintro ⟨k, hk, hwalk⟩
    obtain rfl := Nat.le_zero.mp hk
    cases hwalk
    rfl
  · rintro rfl
    exact ⟨0, le_rfl, .nil v⟩

theorem Near.succ (h : Near next start n v) : Near next start (n + 1) v :=
  h.imp fun _ hk => ⟨hk.1.trans n.le_succ, hk.2⟩

theorem Near.step (h : Near next start n u) (hv : v ∈ next u) : Near next start (n + 1) v := by
  obtain ⟨k, hk, hwalk⟩ := h
  exact ⟨k + 1, Nat.succ_le_succ hk, hwalk.snoc hv⟩

theorem near_succ_iff : Near next start (n + 1) v ↔
    Near next start n v ∨ ∃ u, Near next start n u ∧ v ∈ next u := by
  constructor
  · rintro ⟨k, hk, hwalk⟩
    cases hwalk with
    | nil => exact .inl ⟨0, n.zero_le, .nil _⟩
    | snoc hwalk hv => exact .inr ⟨_, ⟨_, Nat.le_of_succ_le_succ hk, hwalk⟩, hv⟩
  · rintro (h | ⟨u, hu, hv⟩)
    · exact h.succ
    · exact hu.step hv

end near

/-! ## One vertex of the queue -/

section visits

variable {next} {distance : ℕ} {queue : List (V × ℕ)} {seen : List V}

/-- **What the loop over the neighbours does**: those that have not been seen go into the queue. -/
theorem exists_fresh (distance : ℕ) (us : List V) (queue : List (V × ℕ)) (seen : List V) :
    ∃ fresh : List V, us.foldl (visit distance) (queue, seen) =
        (queue ++ fresh.map (·, distance), seen ++ fresh) ∧
      fresh.Nodup ∧ (∀ u ∈ fresh, u ∈ us ∧ u ∉ seen) ∧ ∀ u ∈ us, u ∈ seen ++ fresh := by
  induction us generalizing queue seen with
  | nil => exact ⟨[], by simp, nodup_nil, by simp, by simp⟩
  | cons u us ih =>
    rw [foldl_cons, visit]
    by_cases hu : u ∈ seen
    · rw [if_pos hu]
      obtain ⟨fresh, heq, hnodup, hfresh, hall⟩ := ih queue seen
      refine ⟨fresh, heq, hnodup, fun w hw => ?_, fun w hw => ?_⟩
      · exact ⟨mem_cons_of_mem u (hfresh w hw).1, (hfresh w hw).2⟩
      · rcases mem_cons.mp hw with rfl | hw
        · exact mem_append_left fresh hu
        · exact hall w hw
    · rw [if_neg hu]
      obtain ⟨fresh, heq, hnodup, hfresh, hall⟩ := ih (queue ++ [(u, distance)]) (seen ++ [u])
      refine ⟨u :: fresh, ?_, ?_, fun w hw => ?_, fun w hw => ?_⟩
      · rw [heq, append_assoc, append_assoc]
        rfl
      · refine nodup_cons.mpr ⟨fun hmem => (hfresh u hmem).2 ?_, hnodup⟩
        exact mem_append_right seen (mem_singleton_self u)
      · rcases mem_cons.mp hw with rfl | hw
        · exact ⟨mem_cons_self, hu⟩
        · obtain ⟨hmem, hnot⟩ := hfresh w hw
          exact ⟨mem_cons_of_mem u hmem, fun h => hnot (mem_append_left [u] h)⟩
      · have hsplit : seen ++ u :: fresh = seen ++ [u] ++ fresh := by simp
        rw [hsplit]
        rcases mem_cons.mp hw with rfl | hw
        · exact mem_append_left fresh (mem_append_right seen (mem_singleton_self _))
        · exact hall w hw

end visits

/-! ## The invariant -/

/-- **What has been seen** when vertices at a distance are at the front of the queue and vertices
one edge further at its end. -/
structure Frontier (start : V) (depth : ℕ∞) (n : ℕ) (front back seen : List V) : Prop where
  within : (n : ℕ∞) ≤ depth
  near : ∀ v, Near next start n v → v ∈ seen
  atFront : ∀ v ∈ front, Near next start n v
  atBack : ∀ v ∈ back, Near next start (n + 1) v ∧ ((n + 1 : ℕ) : ℕ∞) ≤ depth
  known : ∀ v ∈ seen, Near next start n v ∨ v ∈ back
  done : (n : ℕ∞) < depth → ∀ v, Near next start n v → v ∈ front ∨ ∀ u ∈ next v, u ∈ seen

section frontier

variable {next} {start : V} {depth : ℕ∞} {n : ℕ} {front back seen : List V}

theorem frontier_start (start : V) (depth : ℕ∞) :
    Frontier next start depth 0 [start] [] [start] where
  within := zero_le
  near := fun _ hv => mem_singleton.mpr (near_zero_iff.mp hv)
  atFront := fun _ hv => near_zero_iff.mpr (mem_singleton.mp hv)
  atBack := fun _ hv => absurd hv not_mem_nil
  known := fun _ hv => .inl (near_zero_iff.mpr (mem_singleton.mp hv))
  done := fun _ _ hv => .inl (mem_singleton.mpr (near_zero_iff.mp hv))

/-- The vertices at the next distance come to the front. -/
theorem Frontier.shift (h : Frontier next start depth n [] back seen) (hdepth : (n : ℕ∞) < depth) :
    Frontier next start depth (n + 1) back [] seen where
  within := by
    rw [Nat.cast_add, Nat.cast_one]
    exact Order.add_one_le_of_lt hdepth
  near := by
    intro v hv
    rcases near_succ_iff.mp hv with hv | ⟨u, hu, hv⟩
    · exact h.near v hv
    · exact (h.done hdepth u hu).resolve_left not_mem_nil v hv
  atFront := fun v hv => (h.atBack v hv).1
  atBack := fun v hv => absurd hv not_mem_nil
  known := fun v hv => .inl ((h.known v hv).elim Near.succ fun hback => (h.atBack v hback).1)
  done := by
    intro _ v hv
    have hseen : v ∈ seen := by
      rcases near_succ_iff.mp hv with hv | ⟨u, hu, hv⟩
      · exact h.near v hv
      · exact (h.done hdepth u hu).resolve_left not_mem_nil v hv
    rcases h.known v hseen with hnear | hback
    · exact .inr ((h.done hdepth v hnear).resolve_left not_mem_nil)
    · exact .inl hback

/-- A vertex at the front has been looked behind. -/
theorem Frontier.advance {v : V} {fresh : List V}
    (h : Frontier next start depth n (v :: front) back seen) (hdepth : (n : ℕ∞) < depth)
    (hfresh : ∀ u ∈ fresh, u ∈ next v) (hall : ∀ u ∈ next v, u ∈ seen ++ fresh) :
    Frontier next start depth n front (back ++ fresh) (seen ++ fresh) where
  within := h.within
  near := fun u hu => mem_append_left fresh (h.near u hu)
  atFront := fun u hu => h.atFront u (mem_cons_of_mem v hu)
  atBack := by
    intro u hu
    rcases mem_append.mp hu with hu | hu
    · exact h.atBack u hu
    · refine ⟨(h.atFront v mem_cons_self).step (hfresh u hu), ?_⟩
      rw [Nat.cast_add, Nat.cast_one]
      exact Order.add_one_le_of_lt hdepth
  known := by
    intro u hu
    rcases mem_append.mp hu with hu | hu
    · exact (h.known u hu).imp_right (mem_append_left fresh)
    · exact .inr (mem_append_right back hu)
  done := by
    intro _ u hu
    rcases h.done hdepth u hu with hmem | hclosed
    · rcases mem_cons.mp hmem with rfl | hmem
      · exact .inr hall
      · exact .inl hmem
    · exact .inr fun w hw => mem_append_left fresh (hclosed w hw)

/-- A vertex at the bound is not looked behind. -/
theorem Frontier.skip {v : V} (h : Frontier next start depth n (v :: front) back seen)
    (hdepth : depth ≤ n) : Frontier next start depth n front back seen :=
  { h with
    atFront := fun u hu => h.atFront u (mem_cons_of_mem v hu)
    done := fun hlt => absurd hlt (not_lt.mpr hdepth) }

/-- **When the queue is empty** exactly the vertices within the bound have been seen. -/
theorem Frontier.mem_iff (h : Frontier next start depth n [] [] seen) (v : V) :
    v ∈ seen ↔ ∃ k : ℕ, (k : ℕ∞) ≤ depth ∧ Near next start k v := by
  constructor
  · intro hv
    exact ⟨n, h.within, (h.known v hv).resolve_right not_mem_nil⟩
  · rintro ⟨k, hk, hnear⟩
    by_cases hdepth : (n : ℕ∞) < depth
    · -- what has been seen is closed
      induction k generalizing v with
      | zero => exact h.near v (hnear.imp fun j hj => ⟨hj.1.trans n.zero_le, hj.2⟩)
      | succ k ih =>
        have hk' : (k : ℕ∞) ≤ depth := le_trans (Nat.cast_le.mpr k.le_succ) hk
        rcases near_succ_iff.mp hnear with hnear | ⟨u, hu, hv⟩
        · exact ih v hk' hnear
        · have hclosed := h.done hdepth u
            ((h.known u (ih u hk' hu)).resolve_right not_mem_nil)
          exact hclosed.resolve_left not_mem_nil v hv
    · have hle : k ≤ n := Nat.cast_le.mp (hk.trans (not_lt.mp hdepth))
      exact h.near v (hnear.imp fun j hj => ⟨hj.1.trans hle, hj.2⟩)

end frontier

/-! ## Enough rounds -/

section rounds

variable {next} {start : V} {depth : ℕ∞} {n : ℕ} {front back seen : List V} {vertices : Finset V}

theorem card_unseen_append {fresh : List V} (hnodup : fresh.Nodup)
    (hfresh : ∀ u ∈ fresh, u ∈ vertices ∧ u ∉ seen) :
    (vertices \ (seen ++ fresh).toFinset).card + fresh.length =
      (vertices \ seen.toFinset).card := by
  have hsubset : fresh.toFinset ⊆ vertices \ seen.toFinset := by
    intro u hu
    obtain ⟨hmem, hnot⟩ := hfresh u (mem_toFinset.mp hu)
    exact Finset.mem_sdiff.mpr ⟨hmem, fun h => hnot (mem_toFinset.mp h)⟩
  have hsplit : vertices \ (seen ++ fresh).toFinset =
      (vertices \ seen.toFinset) \ fresh.toFinset := by
    rw [toFinset_append, sdiff_sdiff_left]
    rfl
  rw [hsplit, ← toFinset_card_of_nodup hnodup]
  exact Finset.card_sdiff_add_card_eq_card hsubset

/-- The queue of a frontier. -/
def queueOf (n : ℕ) (front back : List V) : List (V × ℕ) :=
  front.map (·, n) ++ back.map (·, n + 1)

/-- **The search ends with what is within the bound**, if there is a round for each vertex of the
queue and each vertex that has not been seen. -/
theorem mem_search_of_frontier (hnext : ∀ v, ∀ u ∈ next v, u ∈ vertices) (v : V) (rounds : ℕ)
    (h : Frontier next start depth n front back seen)
    (hrounds : front.length + back.length + (vertices \ seen.toFinset).card ≤ rounds) :
    v ∈ search next depth rounds (queueOf n front back) seen ↔
      ∃ k : ℕ, (k : ℕ∞) ≤ depth ∧ Near next start k v := by
  induction rounds generalizing n front back seen with
  | zero =>
    obtain rfl : front = [] := eq_nil_of_length_eq_zero (by omega)
    obtain rfl : back = [] := eq_nil_of_length_eq_zero (by omega)
    exact h.mem_iff v
  | succ rounds ih =>
    -- a vertex at the front
    have hfront : ∀ (n : ℕ) (u : V) (front back : List V),
        Frontier next start depth n (u :: front) back seen →
        (u :: front).length + back.length + (vertices \ seen.toFinset).card ≤ rounds + 1 →
        (v ∈ search next depth (rounds + 1) (queueOf n (u :: front) back) seen ↔
          ∃ k : ℕ, (k : ℕ∞) ≤ depth ∧ Near next start k v) := by
      intro n u front back h hrounds
      rw [length_cons] at hrounds
      rw [queueOf, map_cons, cons_append, search]
      split_ifs with hdepth
      · exact ih (h.skip hdepth) (by omega)
      · obtain ⟨fresh, heq, hnodup, hfresh, hall⟩ :=
          exists_fresh (n + 1) (next u) (queueOf n front back) seen
        have hunseen : (vertices \ (seen ++ fresh).toFinset).card + fresh.length =
            (vertices \ seen.toFinset).card := card_unseen_append hnodup fun w hw =>
          ⟨hnext u w (hfresh w hw).1, (hfresh w hw).2⟩
        have hadvance := h.advance (not_le.mp hdepth) (fun w hw => (hfresh w hw).1) hall
        have hqueue : queueOf n front back ++ fresh.map (·, n + 1) =
            queueOf n front (back ++ fresh) := by
          rw [queueOf, queueOf, map_append, append_assoc]
        rw [← queueOf, heq, hqueue]
        refine ih hadvance ?_
        rw [length_append]
        dsimp only
        omega
    cases front with
    | cons u front => exact hfront n u front back h hrounds
    | nil =>
      cases back with
      | nil => exact h.mem_iff v
      | cons u back =>
        have hdepth : (n : ℕ∞) < depth := by
          exact lt_of_lt_of_le (Nat.cast_lt.mpr n.lt_succ_self) (h.atBack u mem_cons_self).2
        have hqueue : queueOf n [] (u :: back) = queueOf (n + 1) (u :: back) [] := by
          rw [queueOf, queueOf, map_nil, map_nil, append_nil]
          rfl
        rw [hqueue]
        refine hfront (n + 1) u back [] (h.shift hdepth) ?_
        rw [length_nil] at hrounds ⊢
        omega

/-- **The search is exact**: it sees the vertices that a walk within the bound leads to. -/
theorem mem_search_iff (hnext : ∀ v, ∀ u ∈ next v, u ∈ vertices) {rounds : ℕ}
    (hrounds : vertices.card + 1 ≤ rounds) (v : V) :
    v ∈ search next depth rounds [(start, 0)] [start] ↔
      ∃ k : ℕ, (k : ℕ∞) ≤ depth ∧ Walk (fun u w => w ∈ next u) start v k := by
  have hsearch := mem_search_of_frontier hnext v rounds (frontier_start start depth) (by
    have hcard := Finset.card_le_card (Finset.sdiff_subset (s := vertices) (t := [start].toFinset))
    rw [length_singleton, length_nil]
    omega)
  refine hsearch.trans ⟨?_, ?_⟩
  · rintro ⟨k, hk, j, hj, hwalk⟩
    exact ⟨j, le_trans (Nat.cast_le.mpr hj) hk, hwalk⟩
  · rintro ⟨k, hk, hwalk⟩
    exact ⟨k, hk, k, le_rfl, hwalk⟩

end rounds

end Dataflow.Library.Breadth
