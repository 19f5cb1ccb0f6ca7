import Mathlib.Data.Finset.Card
import Mathlib.Data.Finset.SDiff
import Mathlib.Logic.Relation

/-!
# Depth-first search that stops at the first find

A search visits the vertices of a graph that can be reached from a vertex, in depth, and looks at
each vertex it is about to visit. `next v` are the neighbours of `v` in the order in which they are
tried, and `found v` is what there is to find at `v`. The search marks what it has visited, so it
ends also where the graph has cycles; the recursion is bounded by a number of rounds.

* `search`, `searchAll`: the search from a vertex, and from the neighbours of a vertex.
* `unvisited`: how many vertices are left; more rounds than that are enough, by `search_complete`.
* `search_sound`: what is found is found at a vertex that can be reached.
* `search_complete`: when nothing is found, there is nothing at any vertex that can be reached.
-/

namespace Dataflow.Library.Search

open List

variable {V α : Type*} [DecidableEq V]

/-! ## The search -/

/-- The neighbours of a vertex one after the other: look at a neighbour, then search from it. The
result is what has been visited and what was found. -/
def searchAll (found : V → Option α) (step : List V → V → List V × Option α) :
    List V → List V → List V × Option α
  | visited, [] => (visited, none)
  | visited, u :: us =>
    match found u with
    | some a => (visited, some a)
    | none =>
      match step visited u with
      | (visited', some a) => (visited', some a)
      | (visited', none) => searchAll found step visited' us

/-- The search from a vertex, for at most so many rounds of the recursion. -/
def search (next : V → List V) (found : V → Option α) : ℕ → List V → V → List V × Option α
  | 0, visited, _ => (visited, none)
  | rounds + 1, visited, v =>
    if v ∈ visited then (visited, none)
    else searchAll found (search next found rounds) (v :: visited) (next v)

variable {next : V → List V} {found : V → Option α}

/-- There is an edge from one vertex to the other. -/
def Next (next : V → List V) (v u : V) : Prop := u ∈ next v

/-! ## What is found -/

variable {visited visited' : List V}

/-- **The search is sound**: what it finds is found at a vertex that can be reached. -/
theorem search_sound {rounds : ℕ} {v : V} {a : α}
    (h : search next found rounds visited v = (visited', some a)) :
    ∃ u, Relation.TransGen (Next next) v u ∧ found u = some a := by
  induction rounds generalizing visited visited' v with
  | zero => cases h
  | succ rounds ih =>
    rw [search] at h
    split_ifs at h with hv
    · cases h
    -- the loop over the neighbours, with the recursive calls already known to be sound
    have hall : ∀ us, (∀ u ∈ us, u ∈ next v) → ∀ visited,
        searchAll found (search next found rounds) visited us = (visited', some a) →
        ∃ u, Relation.TransGen (Next next) v u ∧ found u = some a := by
      intro us
      induction us with
      | nil =>
        intro _ visited h
        cases h
      | cons u us ihs =>
        intro hus visited h
        have hu : Next next v u := hus u mem_cons_self
        rw [searchAll] at h
        cases hfound : found u with
        | some b =>
          rw [hfound] at h
          cases h
          exact ⟨u, .single hu, hfound⟩
        | none =>
          rw [hfound] at h
          dsimp only at h
          rcases hstep : search next found rounds visited u with ⟨visited₁, result⟩
          rw [hstep] at h
          cases result with
          | some b =>
            cases h
            obtain ⟨w, hreach, hw⟩ := ih hstep
            exact ⟨w, .head hu hreach, hw⟩
          | none =>
            apply ihs _ _ h
            intro w hw
            exact hus w (mem_cons_of_mem _ hw)
    exact hall (next v) (fun u hu => hu) (v :: visited) h

/-! ## How many rounds are needed -/

/-- How many of the vertices have not been visited. -/
def unvisited (vertices visited : List V) : ℕ := (vertices.toFinset \ visited.toFinset).card

theorem unvisited_le (vertices : List V) (h : visited ⊆ visited') :
    unvisited vertices visited' ≤ unvisited vertices visited := by
  apply Finset.card_le_card
  apply Finset.sdiff_subset_sdiff (Finset.Subset.refl _)
  intro v hv
  exact mem_toFinset.mpr (h (mem_toFinset.mp hv))

theorem unvisited_le_length (vertices visited : List V) :
    unvisited vertices visited ≤ vertices.length :=
  (Finset.card_le_card Finset.sdiff_subset).trans (toFinset_card_le vertices)

/-- A vertex is visited. -/
theorem unvisited_cons_lt {vertices visited : List V} {v : V} (hv : v ∈ vertices)
    (hnew : v ∉ visited) : unvisited vertices (v :: visited) < unvisited vertices visited := by
  apply Finset.card_lt_card
  rw [Finset.ssubset_iff_of_subset]
  · refine ⟨v, ?_, ?_⟩
    · exact Finset.mem_sdiff.mpr ⟨mem_toFinset.mpr hv, fun h => hnew (mem_toFinset.mp h)⟩
    · intro hmem
      exact (Finset.mem_sdiff.mp hmem).2 (mem_toFinset.mpr mem_cons_self)
  · apply Finset.sdiff_subset_sdiff (Finset.Subset.refl _)
    intro u hu
    exact mem_toFinset.mpr (mem_cons_of_mem v (mem_toFinset.mp hu))

omit [DecidableEq V] in
/-! ## Nothing is found -/

/-- What a search that finds nothing leaves: the vertices visited on the way have nothing at their
neighbours, and these have been visited too. -/
structure Explored (next : V → List V) (found : V → Option α) (visited visited' : List V) :
    Prop where
  subset : visited ⊆ visited'
  closed : ∀ v ∈ visited', v ∈ visited ∨ ∀ u ∈ next v, u ∈ visited' ∧ found u = none

omit [DecidableEq V] in
theorem Explored.refl (visited : List V) : Explored next found visited visited :=
  ⟨List.Subset.refl _, fun _ hv => .inl hv⟩

omit [DecidableEq V] in
theorem Explored.trans {visited visited₁ visited₂ : List V}
    (h₁ : Explored next found visited visited₁) (h₂ : Explored next found visited₁ visited₂) :
    Explored next found visited visited₂ := by
  refine ⟨List.Subset.trans h₁.subset h₂.subset, ?_⟩
  intro v hv
  rcases h₂.closed v hv with hv₁ | hnext
  · rcases h₁.closed v hv₁ with hv₀ | hnext
    · exact .inl hv₀
    · exact .inr fun u hu => ⟨h₂.subset (hnext u hu).1, (hnext u hu).2⟩
  · exact .inr hnext

variable {vertices : List V}

/-- A search that finds nothing, with enough rounds. -/
theorem search_none (hnext : ∀ v, ∀ u ∈ next v, u ∈ vertices) {rounds : ℕ}
    {v : V} (hv : v ∈ vertices)
    (hrounds : unvisited vertices visited < rounds)
    (h : search next found rounds visited v = (visited', none)) :
    Explored next found visited visited' ∧ v ∈ visited' := by
  induction rounds generalizing visited visited' v with
  | zero => omega
  | succ rounds ih =>
    rw [search] at h
    split_ifs at h with hmem
    · cases h
      exact ⟨.refl _, hmem⟩
    have hlt := unvisited_cons_lt hv hmem
    -- the loop over the neighbours; what is visited only grows, so the rounds stay enough
    have hall : ∀ us, (∀ u ∈ us, u ∈ next v) → ∀ visited₀, v :: visited ⊆ visited₀ →
        searchAll found (search next found rounds) visited₀ us = (visited', none) →
        Explored next found visited₀ visited' ∧ ∀ u ∈ us, u ∈ visited' ∧ found u = none := by
      intro us
      induction us with
      | nil =>
        intro _ visited₀ _ h
        cases h
        exact ⟨.refl _, fun u hu => absurd hu not_mem_nil⟩
      | cons u us ihs =>
        intro hus visited₀ hsub h
        rw [searchAll] at h
        cases hfound : found u with
        | some b =>
          simp [hfound] at h
        | none =>
          rw [hfound] at h
          dsimp only at h
          rcases hstep : search next found rounds visited₀ u with ⟨visited₁, result⟩
          rw [hstep] at h
          cases result with
          | some b => cases h
          | none =>
            have hle := unvisited_le vertices hsub
            obtain ⟨hfirst, hu⟩ :=
              ih (hnext v u (hus u mem_cons_self)) (by omega) hstep
            obtain ⟨hrest, hall⟩ := ihs (fun w hw => hus w (mem_cons_of_mem _ hw))
              visited₁ (List.Subset.trans hsub hfirst.subset) h
            refine ⟨hfirst.trans hrest, ?_⟩
            intro w hw
            rcases mem_cons.mp hw with rfl | hw
            · exact ⟨hrest.subset hu, hfound⟩
            · exact hall w hw
    obtain ⟨hexplored, hneighbours⟩ :=
      hall (next v) (fun u hu => hu) (v :: visited) (List.Subset.refl _) h
    refine ⟨⟨List.Subset.trans (subset_cons_self v visited) hexplored.subset, ?_⟩,
      hexplored.subset mem_cons_self⟩
    intro w hw
    rcases hexplored.closed w hw with hvisited | hclosed
    · rcases mem_cons.mp hvisited with rfl | hvisited
      · exact .inr hneighbours
      · exact .inl hvisited
    · exact .inr hclosed

/-- **The search is complete**: when it finds nothing, there is nothing at the vertices that can be
reached. -/
theorem search_complete (hnext : ∀ v, ∀ u ∈ next v, u ∈ vertices) {rounds : ℕ}
    {visited' : List V} {v u : V} (hv : v ∈ vertices) (hrounds : vertices.length < rounds)
    (h : search next found rounds [] v = (visited', none))
    (hreach : Relation.TransGen (Next next) v u) : found u = none := by
  have hunvisited : unvisited vertices [] < rounds :=
    lt_of_le_of_lt (unvisited_le_length vertices []) hrounds
  obtain ⟨hexplored, hvisited⟩ := search_none hnext hv hunvisited h
  have hclosed : ∀ w ∈ visited', ∀ u ∈ next w, u ∈ visited' ∧ found u = none := by
    intro w hw
    exact (hexplored.closed w hw).resolve_left not_mem_nil
  have hends : u ∈ visited' ∧ found u = none := by
    induction hreach with
    | single hu => exact hclosed v hvisited _ hu
    | tail _ hu ih => exact hclosed _ ih.1 _ hu
  exact hends.2

end Dataflow.Library.Search
