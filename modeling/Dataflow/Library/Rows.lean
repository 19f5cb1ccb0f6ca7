import Mathlib.Data.List.Nodup

/-!
# Rows of a table as a list

A table is a list of rows. A statement `UPDATE … SET … WHERE …` changes the rows that satisfy its
condition, in place.

* `update p f rows`: the rows after the statement.
* `mem_update`, `map_update`, `filter_update`: the rows it leaves, and the columns and rows it
  leaves alone.
* `countP_update_le`, `countP_update_key`: how a count changes: it does not grow when no row newly
  counts; for one row, found by its key, it changes by that row.
-/

namespace Dataflow.Library.Rows

open List

variable {α κ : Type*}

/-- `UPDATE rows SET f WHERE p`. -/
def update (p : α → Bool) (f : α → α) (rows : List α) : List α :=
  rows.map fun row => if p row then f row else row

variable {p q : α → Bool} {f : α → α} {rows : List α}

theorem mem_update {row : α} :
    row ∈ update p f rows ↔ ∃ old ∈ rows, (if p old then f old else old) = row :=
  mem_map

/-- A row that is not met stays. -/
theorem mem_update_of_not {row : α} (hrow : row ∈ rows) (hp : p row = false) :
    row ∈ update p f rows :=
  mem_update.mpr ⟨row, hrow, by rw [hp]; rfl⟩

/-- A row that is met is changed. -/
theorem mem_update_of_met {row : α} (hrow : row ∈ rows) (hp : p row = true) :
    f row ∈ update p f rows :=
  mem_update.mpr ⟨row, hrow, if_pos hp⟩

/-- A column that the statement does not set. -/
theorem map_update {key : α → κ} (hkey : ∀ row, key (f row) = key row) :
    (update p f rows).map key = rows.map key := by
  rw [update, map_map]
  apply map_congr_left
  intro row _
  show key (if p row then f row else row) = key row
  split_ifs
  · exact hkey row
  · rfl

/-- An update that gives the rows it meets the values they have changes nothing. -/
theorem update_of_fixed (h : ∀ row ∈ rows, p row = true → f row = row) :
    update p f rows = rows := by
  rw [update]
  conv_rhs => rw [← map_id rows]
  apply map_congr_left
  intro row hrow
  split_ifs with hp
  · exact h row hrow hp
  · rfl

/-- An update of no row changes nothing. -/
theorem update_of_none (h : ∀ row ∈ rows, p row = false) : update p f rows = rows := by
  apply update_of_fixed
  intro row hrow hp
  simp [h row hrow] at hp

/-- Rows that the statement cannot meet or make stay. -/
theorem filter_update {keep : α → Bool} (hp : ∀ row, p row = true → keep row = false)
    (hf : ∀ row, p row = true → keep (f row) = false) :
    (update p f rows).filter keep = rows.filter keep := by
  induction rows with
  | nil => rfl
  | cons row rows ih =>
    rw [update] at ih ⊢
    rw [map_cons]
    by_cases h : p row = true
    · rw [if_pos h, filter_cons_of_neg (by simp [hf row h]),
        filter_cons_of_neg (by simp [hp row h]), ih]
    · rw [if_neg h, filter_cons, filter_cons, ih]

/-- **A count does not grow** when no row newly counts. -/
theorem countP_update_le (h : ∀ row ∈ rows, p row = true → q (f row) = true → q row = true) :
    (update p f rows).countP q ≤ rows.countP q := by
  rw [update, countP_map]
  apply countP_mono_left
  intro row hrow hq
  by_cases hp : p row = true
  · refine h row hrow hp ?_
    rwa [Function.comp_apply, if_pos hp] at hq
  · rwa [Function.comp_apply, if_neg hp] at hq

/-- **A count changes by the one row** that is met, when it is found by its key. -/
theorem countP_update_key [DecidableEq κ] {key : α → κ} (hnodup : (rows.map key).Nodup) {row : α}
    (hrow : row ∈ rows) :
    (update (fun r => key r = key row) f rows).countP q + (if q row then 1 else 0) =
      rows.countP q + (if q (f row) then 1 else 0) := by
  induction rows with
  | nil => exact absurd hrow not_mem_nil
  | cons head rest ih =>
    rw [map_cons, nodup_cons] at hnodup
    have hcons : update (fun r => key r = key row) f (head :: rest) =
        (if key head = key row then f head else head) ::
          update (fun r => key r = key row) f rest := by
      rw [update, map_cons, update]
      simp only [decide_eq_true_eq]
    rw [hcons, countP_cons, countP_cons]
    rcases mem_cons.mp hrow with rfl | hrest
    · have hnone : update (fun r => key r = key row) f rest = rest := by
        apply update_of_none
        intro r hr
        exact decide_eq_false fun h => hnodup.1 (h ▸ mem_map_of_mem hr)
      rw [hnone, if_pos rfl]
      omega
    · have hne : key head ≠ key row := fun h => hnodup.1 (h ▸ mem_map_of_mem hrest)
      have := ih hnodup.2 hrest
      rw [if_neg hne]
      omega

end Dataflow.Library.Rows
