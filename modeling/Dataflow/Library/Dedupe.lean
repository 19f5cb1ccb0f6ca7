import Mathlib.Data.List.Perm.Subperm
import Mathlib.Data.List.Induction
import Mathlib.Data.List.Nodup

/-!
# One element for each key

Of the elements of a list that have one key, the first or the last is kept, in the order in which
the keys occur first.

* `pick`: the first or the last element with a key.
* `Deduped`: **the law**: a sub-multiset, one element for each key.
* `Deduped.of_keys`: what has to be shown of a list.
* `Deduped.eq`, `Deduped.eq_of_nodup`: the law determines the list, so that a second time changes
  nothing.
* `deduped_comp_iff`: keys count up to an injection.
-/

namespace Dataflow.Library.Dedupe

open List Option

variable {α κ κ' : Type*} [DecidableEq κ] [DecidableEq κ']

/-! ## Keys in the order in which they occur first -/

/-- A key more. -/
theorem eraseDups_concat (keys : List κ) (k : κ) :
    (keys ++ [k]).eraseDups = if k ∈ keys then keys.eraseDups else keys.eraseDups ++ [k] := by
  rw [eraseDups_append]
  split_ifs with h
  · simp [List.removeAll, h]
  · simp [List.removeAll, h, eraseDups_cons]

theorem nodup_eraseDups (keys : List κ) : keys.eraseDups.Nodup := by
  induction keys using reverseRecOn with
  | nil => simp
  | append_singleton keys k ih =>
    rw [eraseDups_concat]
    split_ifs with h
    · exact ih
    · rw [nodup_append]
      refine ⟨ih, nodup_singleton k, ?_⟩
      simp only [mem_eraseDups, mem_singleton]
      rintro a ha b rfl rfl
      exact h ha

theorem eraseDups_of_nodup {keys : List κ} (h : keys.Nodup) : keys.eraseDups = keys := by
  induction keys using reverseRecOn with
  | nil => simp
  | append_singleton keys k ih =>
    obtain ⟨hkeys, -, hne⟩ := nodup_append.mp h
    have hk : k ∉ keys := fun hmem => hne k hmem k (mem_singleton_self k) rfl
    rw [eraseDups_concat, if_neg hk, ih hkeys]

theorem eraseDups_map {f : κ → κ'} (hf : Function.Injective f) (keys : List κ) :
    (keys.map f).eraseDups = keys.eraseDups.map f := by
  induction keys using reverseRecOn with
  | nil => simp
  | append_singleton keys k ih =>
    have hmem : f k ∈ keys.map f ↔ k ∈ keys := List.mem_map_of_injective hf
    rw [map_append, map_singleton, eraseDups_concat, eraseDups_concat, ih]
    simp only [hmem]
    split_ifs
    · rfl
    · simp

/-! ## The law -/

/-- The first element with a key, or the last one. -/
def pick (last : Bool) (key : α → κ) (rows : List α) (k : κ) : Option α :=
  (if last then rows.reverse else rows).find? fun row => key row = k

theorem pick_eq_some {last : Bool} {key : α → κ} {rows : List α} {k : κ} {row : α}
    (h : pick last key rows k = some row) : row ∈ rows ∧ key row = k := by
  have hkey := find?_some h
  have hmem := mem_of_find?_eq_some h
  refine ⟨?_, by simpa using hkey⟩
  split_ifs at hmem
  · exact mem_reverse.mp hmem
  · exact hmem

theorem pick_isSome (last : Bool) {key : α → κ} {rows : List α} {k : κ} :
    (pick last key rows k).isSome ↔ k ∈ rows.map key := by
  unfold pick
  rw [find?_isSome]
  cases last <;> simp

/-- Of rows with distinct keys each one is found. -/
theorem pick_of_nodup (last : Bool) {key : α → κ} {rows : List α} {row : α}
    (hdistinct : (rows.map key).Nodup) (hrow : row ∈ rows) :
    pick last key rows (key row) = some row := by
  have hmem : key row ∈ rows.map key := List.mem_map_of_mem hrow
  obtain ⟨other, hother⟩ := isSome_iff_exists.mp ((pick_isSome last).mpr hmem)
  obtain ⟨hmem, hkey⟩ := pick_eq_some hother
  rw [hother, inj_on_of_nodup_map hdistinct hmem hrow hkey]

/-- A row more: it is kept as the last one, or as the first one with its key. -/
theorem pick_concat (last : Bool) (key : α → κ) (rows : List α) (row : α) (k : κ) :
    pick last key (rows ++ [row]) k =
      if key row = k ∧ (last = true ∨ k ∉ rows.map key) then some row else pick last key rows k := by
  cases last with
  | true =>
    simp only [pick, if_true, reverse_append, reverse_singleton, singleton_append,
      find?_cons, true_or, and_true]
    by_cases h : key row = k
    · simp [h]
    · simp [h]
  | false =>
    have happend : pick false key (rows ++ [row]) k =
        (pick false key rows k).or ([row].find? fun row => key row = k) := by
      simp [pick]
    rw [happend]
    cases hfirst : pick false key rows k with
    | none =>
      have hk : k ∉ rows.map key := by
        rw [← pick_isSome false, hfirst]
        simp
      by_cases h : key row = k
      · simp [h, hk]
      · simp [h]
    | some other =>
      have hk : k ∈ rows.map key := by
        rw [← pick_isSome false, hfirst]
        rfl
      rw [if_neg fun h => absurd hk (h.2.resolve_left (by simp)), some_or]

/-- **One element for each key**: a sub-multiset of the rows with distinct keys, which are all the
keys of the rows in the order in which they occur first, and of each key the element that is
kept. -/
structure Deduped (last : Bool) (key : α → κ) (rows out : List α) : Prop where
  subperm : out.Subperm rows
  distinct : (out.map key).Nodup
  keys : out.map key = (rows.map key).eraseDups
  picks : ∀ row ∈ out, pick last key rows (key row) = some row

section laws

variable {last : Bool} {key : α → κ} {rows out out' : List α}

/-- **What has to be shown**: the keys, and which element is kept of each. -/
theorem Deduped.of_keys (hkeys : out.map key = (rows.map key).eraseDups)
    (hpicks : ∀ row ∈ out, pick last key rows (key row) = some row) :
    Deduped last key rows out := by
  have hdistinct : (out.map key).Nodup := hkeys ▸ nodup_eraseDups _
  refine ⟨?_, hdistinct, hkeys, hpicks⟩
  apply subperm_of_subset (List.Nodup.of_map key hdistinct)
  intro row hrow
  exact (pick_eq_some (hpicks row hrow)).1

/-- No key is lost. -/
theorem Deduped.mem_map (h : Deduped last key rows out) {k : κ} :
    k ∈ out.map key ↔ k ∈ rows.map key := by
  rw [h.keys, mem_eraseDups]

/-- The list with the elements that are kept. -/
theorem deduped_filterMap :
    Deduped last key rows ((rows.map key).eraseDups.filterMap (pick last key rows)) := by
  have hmap : ∀ ks : List κ, (∀ k ∈ ks, k ∈ rows.map key) →
      (ks.filterMap (pick last key rows)).map key = ks := by
    intro ks hks
    induction ks with
    | nil => rfl
    | cons k ks ih =>
      rw [forall_mem_cons] at hks
      obtain ⟨row, hrow⟩ := isSome_iff_exists.mp ((pick_isSome last).mpr hks.1)
      rw [filterMap_cons_some hrow, map_cons, ih hks.2, (pick_eq_some hrow).2]
  apply Deduped.of_keys
  · exact hmap _ fun k hk => mem_eraseDups.mp hk
  · intro row hrow
    obtain ⟨k, -, hpick⟩ := mem_filterMap.mp hrow
    rwa [(pick_eq_some hpick).2]

/-- **The law determines the list.** -/
theorem Deduped.eq (h : Deduped last key rows out) (h' : Deduped last key rows out') :
    out = out' := by
  have hall : ∀ {out : List α}, (∀ row ∈ out, pick last key rows (key row) = some row) →
      out.map some = (out.map key).map (pick last key rows) := by
    intro out hpicks
    rw [List.map_map]
    apply map_congr_left
    intro row hrow
    exact (hpicks row hrow).symm
  have hsome : out.map some = out'.map some := by
    rw [hall h.picks, hall h'.picks, h.keys, h'.keys]
  exact map_injective_iff.mpr (fun a b hab => some.inj hab) hsome

/-- Rows with distinct keys are left as they are. -/
theorem Deduped.eq_of_nodup (h : Deduped last key rows out) (hdistinct : (rows.map key).Nodup) :
    out = rows := by
  apply h.eq
  apply Deduped.of_keys
  · exact (eraseDups_of_nodup hdistinct).symm
  · intro row hrow
    exact pick_of_nodup last hdistinct hrow

/-- **A second time changes nothing.** -/
theorem Deduped.idempotent (h : Deduped last key rows out) (h' : Deduped last key out out') :
    out' = out :=
  h'.eq_of_nodup h.distinct

/-- **Keys count up to an injection.** -/
theorem deduped_comp_iff {f : κ → κ'} (hf : Function.Injective f) :
    Deduped last (fun row => f (key row)) rows out ↔ Deduped last key rows out := by
  have hpick : ∀ k, pick last (fun row => f (key row)) rows (f k) = pick last key rows k := by
    intro k
    unfold pick
    simp [hf.eq_iff]
  have hmap : ∀ list : List α, list.map (fun row => f (key row)) = (list.map key).map f := by simp
  constructor
  · intro h
    apply Deduped.of_keys
    · have hkeys := h.keys
      rw [hmap, hmap, eraseDups_map hf] at hkeys
      exact map_injective_iff.mpr hf hkeys
    · intro row hrow
      rw [← hpick]
      exact h.picks row hrow
  · intro h
    apply Deduped.of_keys
    · rw [hmap, hmap, eraseDups_map hf, h.keys]
    · intro row hrow
      rw [hpick]
      exact h.picks row hrow

end laws

end Dataflow.Library.Dedupe
