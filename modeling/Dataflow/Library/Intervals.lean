import Mathlib.Algebra.Order.Group.Defs
import Mathlib.Algebra.Order.Group.Basic
import Mathlib.Data.List.Perm.Basic
import Mathlib.Order.Interval.Set.Defs
import Mathlib.Order.Lattice

/-!
# Tilings

Half-open intervals that follow one another without a gap.

* `Tiles a c tiles`: the intervals lead from `a` to `c`, none of them is empty.
* `Tiles.filter_perm`: a list that is filtered by the tiles is the list filtered by the whole.
* `Tiles.disjoint`: no element is in two of them.
* `EvenTiles w a c tiles`: all of them but the last have the width `w`; `EvenTiles.length_le_iff`
  says how many there are.
-/

set_option linter.unusedSectionVars false

namespace Dataflow.Library

open List

variable {α β K : Type*} [LinearOrder K]

/-- Non-empty half-open intervals from one point to another, each starting where the one before it
stops. -/
inductive Tiles : K → K → List (K × K) → Prop
  | nil (a : K) : Tiles a a []
  | cons {a b c : K} {tiles : List (K × K)} (h : a < b) (tail : Tiles b c tiles) :
      Tiles a c ((a, b) :: tiles)

/-- The point of an element, if it has one, is in the interval. -/
def within (point : α → Option K) (tile : K × K) (x : α) : Bool :=
  (point x).any fun v => tile.1 ≤ v && v < tile.2

theorem within_iff {point : α → Option K} {tile : K × K} {x : α} :
    within point tile x = true ↔ ∃ v, point x = some v ∧ v ∈ Set.Ico tile.1 tile.2 := by
  rw [within, Option.any_eq_true]
  simp only [Bool.and_eq_true, decide_eq_true_eq, Set.mem_Ico]

variable {a b c : K} {tiles : List (K × K)} {point : α → Option K}

namespace Tiles

/-- A tiling leads forward. -/
theorem le (h : Tiles a c tiles) : a ≤ c := by
  induction h with
  | nil a => exact le_refl a
  | cons hlt _ ih => exact hlt.le.trans ih

/-- A tile is a part of the whole. -/
theorem subset (h : Tiles a c tiles) {tile : K × K} (htile : tile ∈ tiles) :
    a ≤ tile.1 ∧ tile.1 < tile.2 ∧ tile.2 ≤ c := by
  induction h with
  | nil a => cases htile
  | cons hlt htail ih =>
    rcases mem_cons.mp htile with rfl | htile
    · exact ⟨le_refl _, hlt, htail.le⟩
    · obtain ⟨hstart, hne, hstop⟩ := ih htile
      exact ⟨hlt.le.trans hstart, hne, hstop⟩

/-- An element of the whole is in the first tile or in the rest. -/
theorem within_cons (hlt : a < b) (hle : b ≤ c) (x : α) :
    within point (a, c) x = (within point (a, b) x || within point (b, c) x) := by
  rw [Bool.eq_iff_iff, Bool.or_eq_true, within_iff, within_iff, within_iff]
  simp only [Set.mem_Ico]
  constructor
  · rintro ⟨v, hv, hstart, hstop⟩
    rcases lt_or_ge v b with hvb | hvb
    · exact .inl ⟨v, hv, hstart, hvb⟩
    · exact .inr ⟨v, hv, hvb, hstop⟩
  · rintro (⟨v, hv, hstart, hstop⟩ | ⟨v, hv, hstart, hstop⟩)
    · exact ⟨v, hv, hstart, hstop.trans_le hle⟩
    · exact ⟨v, hv, hlt.le.trans hstart, hstop⟩

/-- No element is in an interval and in one after it. -/
theorem not_within (hle : b ≤ c) {d : K} {x : α} (hx : within point (a, b) x = true) :
    within point (c, d) x = false := by
  obtain ⟨v, hv, -, hstop⟩ := within_iff.mp hx
  rw [Bool.eq_false_iff, Ne, within_iff]
  rintro ⟨v', hv', hstart, -⟩
  obtain rfl := Option.some.inj (hv.symm.trans hv')
  exact absurd (hle.trans hstart) (not_le.mpr hstop)

/-- **Filtering by the tiles** is filtering by the whole. -/
theorem filter_perm (h : Tiles a c tiles) (point : α → Option K) (rows : List α) :
    (tiles.flatMap fun tile => rows.filter (within point tile)).Perm
      (rows.filter (within point (a, c))) := by
  induction h with
  | nil a =>
    rw [flatMap_nil, filter_eq_nil_iff.mpr]
    intro x _ hx
    obtain ⟨v, -, hstart, hstop⟩ := within_iff.mp hx
    exact absurd hstart (not_le.mpr hstop)
  | @cons a b c tiles hlt htail ih =>
    have hfirst : (rows.filter (within point (a, c))).filter (within point (a, b)) =
        rows.filter (within point (a, b)) := by
      rw [filter_filter]
      apply filter_congr
      intro x _
      rw [within_cons hlt htail.le]
      cases within point (a, b) x <;> rfl
    have hrest : (rows.filter (within point (a, c))).filter (fun x => !within point (a, b) x) =
        rows.filter (within point (b, c)) := by
      rw [filter_filter]
      apply filter_congr
      intro x _
      rw [within_cons hlt htail.le]
      cases hx : within point (a, b) x with
      | false => rfl
      | true => exact (not_within (le_refl b) hx).symm
    have hsplit := filter_append_perm (within point (a, b))
      (rows.filter (within point (a, c)))
    rw [hfirst, hrest] at hsplit
    rw [flatMap_cons]
    exact (ih.append_left _).trans hsplit

/-- Tiles have no point in common. -/
theorem disjoint (h : Tiles a c tiles) :
    tiles.Pairwise fun tile tile' => ∀ x : α, within point tile x = true →
      within point tile' x = false := by
  induction h with
  | nil a => exact List.Pairwise.nil
  | cons _ htail ih =>
    refine pairwise_cons.mpr ⟨?_, ih⟩
    intro tile htile x hx
    exact not_within (htail.subset htile).1 hx

end Tiles

/-! ## Intervals of one width -/

section even

variable {K : Type*} [LinearOrder K] [AddCommGroup K] [IsOrderedAddMonoid K] {w a c : K}
  {tiles : List (K × K)}

/-- An interval that is cut from its start into intervals of one width, the last of which may be
shorter. -/
inductive EvenTiles (w : K) : K → K → List (K × K) → Prop
  | last {a c : K} (h : a < c) (hle : c ≤ a + w) : EvenTiles w a c [(a, c)]
  | cons {a c : K} {tiles : List (K × K)} (h : a + w < c) (tail : EvenTiles w (a + w) c tiles) :
      EvenTiles w a c ((a, a + w) :: tiles)

namespace EvenTiles

variable (h : EvenTiles w a c tiles)

include h

/-- They are a tiling. -/
theorem toTiles (hw : 0 < w) : Tiles a c tiles := by
  induction h with
  | last hlt _ => exact .cons hlt (.nil _)
  | @cons a c tiles _ _ ih => exact .cons (lt_add_of_pos_right a hw) ih

/-- The first one starts where the whole does. -/
theorem head? : tiles.head?.map Prod.fst = some a := by
  cases h <;> rfl

theorem ne_nil : tiles ≠ [] := by
  rintro rfl
  cases h

/-- The last one stops where the whole does. -/
theorem getLast? : tiles.getLast?.map Prod.snd = some c := by
  induction h with
  | last _ _ => rfl
  | cons _ tail ih =>
    obtain ⟨tile, tiles, rfl⟩ := exists_cons_of_ne_nil tail.ne_nil
    rw [getLast?_cons_cons]
    exact ih

/-- Each one stops where the next one starts. -/
theorem isChain : tiles.IsChain fun tile next => tile.2 = next.1 := by
  induction h with
  | last _ _ => exact .singleton _
  | cons _ tail ih =>
    obtain ⟨tile, tiles, rfl⟩ := exists_cons_of_ne_nil tail.ne_nil
    exact isChain_cons_cons.mpr ⟨(Option.some.inj tail.head?).symm, ih⟩

/-- All but the last one have the width. -/
theorem width {tile : K × K} (htile : tile ∈ tiles.dropLast) : tile.2 = tile.1 + w := by
  induction h with
  | last _ _ => cases htile
  | cons _ tail ih =>
    rw [dropLast_cons_of_ne_nil tail.ne_nil] at htile
    rcases mem_cons.mp htile with rfl | htile
    · rfl
    · exact ih htile

/-- **How many there are**: enough of the width to reach the end, and no more. -/
theorem length_le_iff (hw : 0 < w) (n : ℕ) : tiles.length ≤ n ↔ c ≤ a + n • w := by
  induction h generalizing n with
  | @last a c hlt hle =>
    rw [length_singleton]
    constructor
    · intro hn
      refine hle.trans (add_le_add_right ?_ a)
      calc w = 1 • w := (one_nsmul w).symm
        _ ≤ n • w := nsmul_le_nsmul_left hw.le hn
    · intro hn
      by_contra hzero
      obtain rfl : n = 0 := by omega
      rw [zero_nsmul, add_zero] at hn
      exact absurd hlt (not_lt.mpr hn)
  | @cons a c tiles hlt _ ih =>
    rw [length_cons]
    cases n with
    | zero =>
      refine iff_of_false (by omega) (not_le.mpr ?_)
      rw [zero_nsmul, add_zero]
      exact (lt_add_of_pos_right a hw).trans hlt
    | succ n =>
      rw [Nat.add_le_add_iff_right, ih n, succ_nsmul', add_assoc]

end EvenTiles

end even

end Dataflow.Library
