import Dataflow.Library.Graph
import Dataflow.Library.Search

/-!
# Depth-first search for cycles

A search with three colours visits the vertices of a graph in depth. White vertices are not visited
yet, gray ones are on the path that is being walked, black ones are done. An edge to a gray vertex
closes a cycle.

* `visitAll`, `dfs`, `hasCycle`: the search, for at most so many rounds of the recursion.
* `Advances`: what a search that finds no cycle does to the colours.
* `dfs_spec`: a search from a white vertex ends, and finds a cycle only if there is one.
* `hasCycle_eq`: **the search finds a cycle exactly if there is one**.
-/

namespace Dataflow.Library.Colouring

open Library.Graph Library.Search List Function

/-! ## The search -/

section search

variable {V : Type*}

/-- The colours. -/
inductive Colour where
  | white
  | gray
  | black
  deriving DecidableEq

/-- The neighbours of a vertex one after the other; the result is whether a cycle was found. -/
def visitAll (visit : V → (V → Colour) → Option (Bool × (V → Colour))) :
    List V → (V → Colour) → Option (Bool × (V → Colour))
  | [], colour => some (false, colour)
  | v :: vs, colour =>
    match colour v with
    | .gray => some (true, colour)
    | .black => visitAll visit vs colour
    | .white =>
      match visit v colour with
      | some (false, colour) => visitAll visit vs colour
      | found => found

variable [DecidableEq V]

/-- The search from a vertex; nothing when the rounds are used up. -/
def dfs (next : V → List V) : ℕ → V → (V → Colour) → Option (Bool × (V → Colour))
  | 0, _, _ => none
  | rounds + 1, v, colour =>
    match visitAll (dfs next rounds) (next v) (update colour v .gray) with
    | some (false, colour) => some (false, update colour v .black)
    | found => found

/-- The search from each vertex that is white when its turn comes. -/
def searchFrom (next : V → List V) (rounds : ℕ) : List V → (V → Colour) → Option Bool
  | [], _ => some false
  | v :: vs, colour =>
    if colour v = .white then
      match dfs next rounds v colour with
      | some (false, colour) => searchFrom next rounds vs colour
      | found => found.map Prod.fst
    else searchFrom next rounds vs colour

/-- The colours before the search: what is no vertex is never visited. -/
def initial (vertices : List V) (v : V) : Colour := if v ∈ vertices then .white else .black

/-- The search from all vertices. -/
def hasCycle (next : V → List V) (vertices : List V) : Option Bool :=
  searchFrom next vertices.length vertices (initial vertices)

end search

/-! ## One vertex -/

section spec

variable {V : Type*} {next : V → List V} {colour colour' colour'' : V → Colour} {whites : Finset V}
  {v : V}

/-- No endless walk starts at a vertex. -/
abbrev Ends (next : V → List V) (v : V) : Prop := Acc (flip (Next next)) v

/-- White vertices may become black, no walk from a black vertex is endless, and the path stays. -/
structure Advances (next : V → List V) (colour colour' : V → Colour) : Prop where
  gray_iff : ∀ v, colour' v = .gray ↔ colour v = .gray
  black : ∀ v, colour v = .black → colour' v = .black
  ends : ∀ v, colour' v = .black → Ends next v

/-- What the search knows when it comes to a white vertex: the white vertices are among some, the
gray ones lead to this one, and no walk from a black one is endless. -/
structure Ready (next : V → List V) (colour : V → Colour) (whites : Finset V) (v : V) : Prop where
  white : ∀ u, colour u = .white → u ∈ whites
  path : ∀ u, colour u = .gray → Relation.TransGen (Next next) u v
  ends : ∀ u, colour u = .black → Ends next u

/-- The same with the vertex on the path. -/
structure Walking (next : V → List V) (colour : V → Colour) (whites : Finset V) (v : V) : Prop where
  white : ∀ u, colour u = .white → u ∈ whites
  path : ∀ u, colour u = .gray → Relation.ReflTransGen (Next next) u v
  ends : ∀ u, colour u = .black → Ends next u

theorem Advances.trans (h : Advances next colour colour') (h' : Advances next colour' colour'') :
    Advances next colour colour'' where
  gray_iff v := (h'.gray_iff v).trans (h.gray_iff v)
  black v hv := h'.black v (h.black v hv)
  ends := h'.ends

/-- What is white was white. -/
theorem Advances.white (h : Advances next colour colour') (hv : colour' v = .white) :
    colour v = .white := by
  cases hcolour : colour v with
  | white => rfl
  | gray =>
    simp [(h.gray_iff v).mpr hcolour] at hv
  | black =>
    simp [h.black v hcolour] at hv

theorem Walking.advance (h : Walking next colour whites v)
    (hadvances : Advances next colour colour') :
    Walking next colour' whites v where
  white u hu := h.white u (hadvances.white hu)
  path u hu := h.path u ((hadvances.gray_iff u).mp hu)
  ends := hadvances.ends

/-- The path goes on to a neighbour. -/
theorem Walking.ready (h : Walking next colour whites v) {u : V} (hu : u ∈ next v) :
    Ready next colour whites u where
  white := h.white
  path w hw := .tail' (h.path w hw) hu
  ends := h.ends

/-- The result of a search: a cycle, or an advance to colours with a property. -/
def Outcome (next : V → List V) (colour : V → Colour) (goal : (V → Colour) → Prop)
    (result : Option (Bool × (V → Colour))) : Prop :=
  (∃ colour', result = some (true, colour') ∧ Cyclic (Next next)) ∨
    ∃ colour', result = some (false, colour') ∧ Advances next colour colour' ∧ goal colour'

/-- The neighbours of a gray vertex: each of them is gray, which closes a cycle, or black, or
visited. -/
theorem visitAll_spec {visit : V → (V → Colour) → Option (Bool × (V → Colour))} {us : List V}
    (hvisit : ∀ u colour, colour u = .white → Ready next colour whites u →
      Outcome next colour (fun colour' => colour' u = .black) (visit u colour))
    (hus : ∀ u ∈ us, u ∈ next v) (h : Walking next colour whites v) :
    Outcome next colour (fun _ => ∀ u ∈ us, Ends next u) (visitAll visit us colour) := by
  induction us generalizing colour with
  | nil =>
    refine .inr ⟨colour, rfl, ⟨fun _ => Iff.rfl, fun _ => id, h.ends⟩, ?_⟩
    intro u hu
    cases hu
  | cons u us ih =>
    rw [forall_mem_cons] at hus
    cases hu : colour u with
    | gray =>
      refine .inl ⟨colour, ?_, u, .tail' (h.path u hu) hus.1⟩
      rw [visitAll, hu]
    | black =>
      have hskip : visitAll visit (u :: us) colour = visitAll visit us colour := by
        rw [visitAll, hu]
      rw [hskip]
      refine (ih hus.2 h).imp id ?_
      rintro ⟨colour', heq, hadvances, hall⟩
      exact ⟨colour', heq, hadvances, forall_mem_cons.mpr ⟨h.ends u hu, hall⟩⟩
    | white =>
      rcases hvisit u colour hu (h.ready hus.1) with ⟨colour', heq, hcyclic⟩ |
        ⟨colour', heq, hadvances, hblack⟩
      · refine .inl ⟨colour', ?_, hcyclic⟩
        rw [visitAll, hu]
        simp only [heq]
      · have hnext : visitAll visit (u :: us) colour = visitAll visit us colour' := by
          rw [visitAll, hu]
          simp only [heq]
        rw [hnext]
        refine (ih hus.2 (h.advance hadvances)).imp id ?_
        rintro ⟨colour'', heq', hadvances', hall⟩
        exact ⟨colour'', heq', hadvances.trans hadvances',
          forall_mem_cons.mpr ⟨hadvances.ends u hblack, hall⟩⟩

variable [DecidableEq V]

/-- A white vertex becomes gray. -/
theorem Ready.walking (h : Ready next colour whites v) :
    Walking next (update colour v .gray) (whites.erase v) v where
  white u hu := by
    by_cases huv : u = v
    · simp [huv, update_self] at hu
    · rw [update_of_ne huv] at hu
      exact Finset.mem_erase.mpr ⟨huv, h.white u hu⟩
  path u hu := by
    by_cases huv : u = v
    · rw [huv]
    · rw [update_of_ne huv] at hu
      exact (h.path u hu).to_reflTransGen
  ends u hu := by
    by_cases huv : u = v
    · simp [huv, update_self] at hu
    · rw [update_of_ne huv] at hu
      exact h.ends u hu

/-- A gray vertex all of whose neighbours are done becomes black. -/
theorem Advances.blacken (hv : colour v = .white)
    (h : Advances next (update colour v .gray) colour') (hends : Ends next v) :
    Advances next colour (update colour' v .black) where
  gray_iff u := by
    by_cases huv : u = v
    · simp [huv, hv]
    · have hiff := h.gray_iff u
      rw [update_of_ne huv] at hiff ⊢
      exact hiff
  black u hu := by
    by_cases huv : u = v
    · rw [huv, update_self]
    · rw [update_of_ne huv]
      exact h.black u (by rw [update_of_ne huv, hu])
  ends u hu := by
    by_cases huv : u = v
    · rwa [huv]
    · rw [update_of_ne huv] at hu
      exact h.ends u hu

/-- **The search from a white vertex** ends, finds only cycles, and is done with the vertex
otherwise. -/
theorem dfs_spec {rounds : ℕ} (hrounds : whites.card ≤ rounds) (hv : colour v = .white)
    (h : Ready next colour whites v) :
    Outcome next colour (fun colour' => colour' v = .black) (dfs next rounds v colour) := by
  induction rounds generalizing whites v colour with
  | zero =>
    have hmem := h.white v hv
    rw [Finset.card_eq_zero.mp (Nat.le_zero.mp hrounds)] at hmem
    exact absurd hmem (Finset.notMem_empty v)
  | succ rounds ih =>
    have hcard : (whites.erase v).card ≤ rounds := by
      rw [Finset.card_erase_of_mem (h.white v hv)]
      omega
    rcases visitAll_spec (fun u colour hu hready => ih hcard hu hready) (fun _ => id) h.walking with
      ⟨colour', heq, hcyclic⟩ | ⟨colour', heq, hadvances, hall⟩
    · refine .inl ⟨colour', ?_, hcyclic⟩
      rw [dfs, heq]
    · refine .inr ⟨update colour' v .black, ?_, ?_, update_self ..⟩
      · rw [dfs, heq]
      · exact hadvances.blacken hv ⟨v, fun u hu => hall u hu⟩

/-! ## All vertices -/

/-- The search from the vertices of a list: it ends, and finds no cycle only if no walk from them is
endless. -/
theorem searchFrom_spec {rounds : ℕ} (hrounds : whites.card ≤ rounds) (vs : List V)
    (hwhite : ∀ u, colour u = .white → u ∈ whites) (hgray : ∀ u, colour u ≠ .gray)
    (hends : ∀ u, colour u = .black → Ends next u) :
    (searchFrom next rounds vs colour = some true ∧ Cyclic (Next next)) ∨
      (searchFrom next rounds vs colour = some false ∧ ∀ v ∈ vs, Ends next v) := by
  induction vs generalizing colour with
  | nil => exact .inr ⟨rfl, by simp⟩
  | cons v vs ih =>
    rw [searchFrom]
    split_ifs with hv
    · have hready : Ready next colour whites v := ⟨hwhite, fun u hu => absurd hu (hgray u), hends⟩
      rcases dfs_spec hrounds hv hready with ⟨colour', heq, hcyclic⟩ | ⟨colour', heq, hadvances, hblack⟩
      · exact .inl ⟨by simp only [heq, Option.map_some], hcyclic⟩
      · simp only [heq]
        have hgray' : ∀ u, colour' u ≠ .gray := fun u hu => hgray u ((hadvances.gray_iff u).mp hu)
        refine (ih (fun u hu => hwhite u (hadvances.white hu)) hgray' hadvances.ends).imp id ?_
        rintro ⟨heq', hall⟩
        exact ⟨heq', forall_mem_cons.mpr ⟨hadvances.ends v hblack, hall⟩⟩
    · have hblack : colour v = .black := by
        cases hcolour : colour v with
        | white => exact absurd hcolour hv
        | gray => exact absurd hcolour (hgray v)
        | black => rfl
      refine (ih hwhite hgray hends).imp id ?_
      rintro ⟨heq', hall⟩
      exact ⟨heq', forall_mem_cons.mpr ⟨hends v hblack, hall⟩⟩

/-- **The search finds a cycle exactly if there is one**, and it ends. -/
theorem hasCycle_eq {vertices : List V} (hnext : ∀ v, v ∉ vertices → next v = [])
    (hknown : ∀ v, ∀ u ∈ next v, u ∈ vertices) :
    (hasCycle next vertices = some true ∧ Cyclic (Next next)) ∨
      (hasCycle next vertices = some false ∧ ¬ Cyclic (Next next)) := by
  have hwhite : ∀ v, initial vertices v = .white → v ∈ vertices.toFinset := by
    intro v hv
    unfold initial at hv
    split_ifs at hv with hmem
    exact mem_toFinset.mpr hmem
  have hgray : ∀ v, initial vertices v ≠ .gray := by
    intro v hv
    unfold initial at hv
    split_ifs at hv
  have hends : ∀ v, initial vertices v = .black → Ends next v := by
    intro v hv
    unfold initial at hv
    split_ifs at hv with hmem
    refine ⟨v, fun u hu => ?_⟩
    have hu : u ∈ next v := hu
    simp [hnext v hmem] at hu
  rcases searchFrom_spec vertices.toFinset_card_le vertices hwhite hgray hends with hfound | ⟨heq, hall⟩
  · exact .inl hfound
  · refine .inr ⟨heq, fun hcyclic => ?_⟩
    have hflip : Cyclic (flip (Next next)) := hcyclic.imp fun _ => Relation.transGen_swap.mpr
    exact (not_cyclic_iff_acc (finite_toSet vertices) fun u v huv => hknown v u huv).mpr hall hflip

end spec

end Dataflow.Library.Colouring
