import Mathlib.Data.List.Perm.Basic

/-!
# Lists and the classes of their elements

A function gives each element of a list its class.

* `perm_iff_of_class`: two lists have the same elements iff they have the same ones of each class.
* `filter_filterMap_of_class`: the elements of a class among those made from a list of classes.
* `perm_iff_of_replicate`: when one of the lists has one element only in each class.
-/

namespace Dataflow.Library.Classes

open List

variable {α β : Type*} [DecidableEq β] {c : α → β}

/-- **The same elements** are the same ones of each class. -/
theorem perm_iff_of_class [DecidableEq α] {l l' : List α} :
    l.Perm l' ↔ ∀ b, (l.filter fun a => c a = b).Perm (l'.filter fun a => c a = b) := by
  constructor
  · exact fun h b => h.filter _
  · intro h
    rw [perm_iff_count]
    intro a
    have hcount : ∀ l : List α, (l.filter fun x => c x = c a).count a = l.count a := fun l =>
      count_filter (by simp)
    rw [← hcount l, ← hcount l']
    exact (h (c a)).count_eq a

/-- What is made from a class belongs to it. -/
theorem filter_filterMap_of_class {f : β → Option α} {bs : List β}
    (h : ∀ b ∈ bs, ∀ a, f b = some a → c a = b) (b : β) :
    (bs.filterMap f).filter (fun a => c a = b) = (bs.filter fun b' => b' = b).filterMap f := by
  induction bs with
  | nil => rfl
  | cons b' bs ih =>
    obtain ⟨hfirst, hrest⟩ := forall_mem_cons.mp h
    rw [filterMap_cons]
    by_cases hb : b' = b
    · rw [filter_cons_of_pos (by simpa using hb), filterMap_cons]
      cases hf : f b' with
      | none => exact ih hrest
      | some a =>
        have hclass : c a = b := (hfirst a hf).trans hb
        rw [filter_cons_of_pos (by simpa using hclass), ih hrest]
    · rw [filter_cons_of_neg (by simpa using hb)]
      cases hf : f b' with
      | none => exact ih hrest
      | some a =>
        have hclass : c a ≠ b := fun heq => hb ((hfirst a hf).symm.trans heq)
        rw [filter_cons_of_neg (by simpa using hclass), ih hrest]

/-- **One element in each class**, some times. -/
theorem perm_iff_of_replicate [DecidableEq α] {l l' : List α} {n : β → ℕ} {m : β → α}
    (h : ∀ b, (l.filter fun a => c a = b) = replicate (n b) (m b)) :
    l.Perm l' ↔ ∀ b, (l'.filter fun a => c a = b).length = n b ∧
      ∀ a ∈ l'.filter (fun a => c a = b), a = m b := by
  rw [perm_iff_of_class (c := c)]
  refine forall_congr' fun b => ?_
  rw [h b, replicate_perm]
  exact eq_comm.trans eq_replicate_iff

end Dataflow.Library.Classes
