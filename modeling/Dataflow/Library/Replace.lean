import Mathlib.Data.List.Infix
import Mathlib.Tactic.Linarith
import Mathlib.Tactic.Ring

/-!
# Replacing a pattern

All occurrences of a pattern are replaced, from left to right and without overlap. A pattern whose
first symbol does not occur a second time in it overlaps with no other occurrence of itself.

* `replaceAll`, `occurrences`: the loop, and how often it replaces.
* `assemble`: a text with places for the pattern, `none`, between its other symbols.
* `replaceAll_append_cons`: texts on both sides of a symbol that the pattern lacks.
* `count_le_occurrences`: the pattern occurs at its places at least.
* **`replaceAll_assemble_iff`**: replacing changes its places only iff it occurs nowhere else.
-/

set_option linter.unusedSectionVars false

namespace Dataflow.Library.Replace

open List

variable {α : Type*} [DecidableEq α]

/-- The loop; `skip` symbols belong to the occurrence before. -/
def replaceFrom (old new : List α) : (skip : ℕ) → List α → List α
  | _, [] => []
  | skip + 1, _ :: text => replaceFrom old new skip text
  | 0, c :: text =>
    if old <+: c :: text then new ++ replaceFrom old new (old.length - 1) text
    else c :: replaceFrom old new 0 text

/-- Every occurrence of a pattern is replaced. -/
def replaceAll (old new text : List α) : List α := replaceFrom old new 0 text

/-- How many occurrences the loop finds. -/
def occurrencesFrom (old : List α) : (skip : ℕ) → List α → ℕ
  | _, [] => 0
  | skip + 1, _ :: text => occurrencesFrom old skip text
  | 0, c :: text =>
    if old <+: c :: text then occurrencesFrom old (old.length - 1) text + 1
    else occurrencesFrom old 0 text

/-- How often a pattern is replaced. -/
def occurrences (old text : List α) : ℕ := occurrencesFrom old 0 text

section loop

variable {old new text rest : List α} {a c : α} {u : List α}

theorem replaceFrom_eq_drop (skip : ℕ) (text : List α) :
    replaceFrom old new skip text = replaceAll old new (text.drop skip) := by
  induction skip generalizing text with
  | zero => rfl
  | succ skip ih =>
    cases text with
    | nil => rfl
    | cons c text => exact ih text

theorem occurrencesFrom_eq_drop (skip : ℕ) (text : List α) :
    occurrencesFrom old skip text = occurrences old (text.drop skip) := by
  induction skip generalizing text with
  | zero => rfl
  | succ skip ih =>
    cases text with
    | nil => rfl
    | cons c text => exact ih text

@[simp] theorem replaceAll_nil : replaceAll old new [] = [] := rfl

@[simp] theorem occurrences_nil : occurrences old [] = 0 := rfl

theorem replaceAll_append (a : α) (u rest : List α) :
    replaceAll (a :: u) new (a :: u ++ rest) = new ++ replaceAll (a :: u) new rest := by
  rw [replaceAll, cons_append, replaceFrom, if_pos ⟨rest, rfl⟩, replaceFrom_eq_drop]
  simp

theorem occurrences_append (a : α) (u rest : List α) :
    occurrences (a :: u) (a :: u ++ rest) = occurrences (a :: u) rest + 1 := by
  rw [occurrences, cons_append, occurrencesFrom, if_pos ⟨rest, rfl⟩, occurrencesFrom_eq_drop]
  simp

theorem replaceAll_cons (h : ¬ old <+: c :: text) :
    replaceAll old new (c :: text) = c :: replaceAll old new text := by
  rw [replaceAll, replaceFrom, if_neg h, replaceAll]

theorem occurrences_cons (h : ¬ old <+: c :: text) :
    occurrences old (c :: text) = occurrences old text := by
  rw [occurrences, occurrencesFrom, if_neg h, occurrences]

/-- Nothing starts inside of an occurrence. -/
theorem occurrences_skip {v : List α} (hv : a ∉ v) (rest : List α) :
    occurrences (a :: u) (v ++ rest) = occurrences (a :: u) rest := by
  induction v with
  | nil => rfl
  | cons c v ih =>
    rw [mem_cons, not_or] at hv
    rw [cons_append, occurrences_cons, ih hv.2]
    intro h
    exact hv.1 (cons_prefix_cons.mp h).1

/-- **One more symbol** makes at most one occurrence more. -/
theorem occurrences_cons_eq (ha : a ∉ u) (c : α) (text : List α) :
    occurrences (a :: u) (c :: text) =
      if a :: u <+: c :: text then occurrences (a :: u) text + 1 else occurrences (a :: u) text := by
  split_ifs with h
  · obtain ⟨rest, heq⟩ := h
    have hfirst : a = c := (cons.inj heq).1
    have htext : u ++ rest = text := (cons.inj heq).2
    subst hfirst htext
    rw [occurrences_skip ha]
    exact occurrences_append a u rest
  · exact occurrences_cons h

/-- What is replaced by itself stays. -/
theorem replaceAll_self (a : α) (u text : List α) : replaceAll (a :: u) (a :: u) text = text := by
  induction hn : text.length using Nat.strong_induction_on generalizing text with
  | _ n ih =>
    cases text with
    | nil => rfl
    | cons c text =>
      by_cases h : a :: u <+: c :: text
      · obtain ⟨rest, heq⟩ := h
        rw [← heq, replaceAll_append, ih rest.length ?_ rest rfl]
        rw [← hn, ← heq, length_append, length_cons]
        omega
      · rw [replaceAll_cons h, ih text.length (by rw [← hn]; simp) text rfl]

theorem prefix_of_prefix_append (hc : c ∉ old) (h : old <+: text ++ c :: rest) : old <+: text := by
  obtain ⟨more, heq⟩ := h
  rcases append_eq_append_iff.mp heq with ⟨tail, htext, -⟩ | ⟨tail, hold, hrest⟩
  · exact ⟨tail, htext.symm⟩
  · cases tail with
    | nil => exact ⟨[], by rw [hold, append_nil, append_nil]⟩
    | cons d tail =>
      obtain ⟨rfl, -⟩ := cons.inj hrest
      exact absurd (hold ▸ mem_append_right text mem_cons_self) hc

/-- **A symbol that the pattern lacks** stands between texts that are replaced on their own. -/
theorem replaceAll_append_cons (hold : old ≠ []) (hc : c ∉ old) (text rest : List α) :
    replaceAll old new (text ++ c :: rest) =
      replaceAll old new text ++ c :: replaceAll old new rest := by
  obtain ⟨a, u, rfl⟩ := exists_cons_of_ne_nil hold
  induction hn : text.length using Nat.strong_induction_on generalizing text with
  | _ n ih =>
    cases text with
    | nil =>
      rw [nil_append, replaceAll_cons]
      · rfl
      · exact fun h => hc ((cons_prefix_cons.mp h).1 ▸ mem_cons_self)
    | cons d text =>
      by_cases h : a :: u <+: d :: text
      · obtain ⟨more, heq⟩ := h
        rw [← heq, append_assoc, replaceAll_append, replaceAll_append,
          ih more.length ?_ more rfl, append_assoc]
        rw [← hn, ← heq, length_append, length_cons]
        omega
      · have happend : ¬ a :: u <+: d :: (text ++ c :: rest) :=
          fun hmore => h (prefix_of_prefix_append hc hmore)
        rw [cons_append, replaceAll_cons happend, replaceAll_cons h, cons_append,
          ih text.length (by rw [← hn]; simp) text rfl]

/-- How long a text is. -/
theorem length_replaceAll (a : α) (u new text : List α) :
    (replaceAll (a :: u) new text).length + occurrences (a :: u) text * (a :: u).length =
      text.length + occurrences (a :: u) text * new.length := by
  induction hn : text.length using Nat.strong_induction_on generalizing text with
  | _ n ih =>
    cases text with
    | nil => simp [← hn]
    | cons c text =>
      by_cases h : a :: u <+: c :: text
      · obtain ⟨rest, heq⟩ := h
        have hlength : rest.length + (a :: u).length = n := by
          rw [← hn, ← heq, length_append, add_comm]
        have hrest :=
          ih rest.length (by simp only [length_cons] at hlength; omega) rest rfl
        rw [← heq, replaceAll_append, occurrences_append, length_append, add_mul, add_mul]
        omega
      · have htext := ih text.length (by rw [← hn]; simp) text rfl
        rw [replaceAll_cons h, occurrences_cons h]
        simp only [length_cons] at htext hn ⊢
        omega

end loop

/-! ## Texts with places -/

/-- A text with places: a symbol, or what is put at the places. -/
def assemble (x : List α) (pieces : List (Option α)) : List α :=
  pieces.flatMap fun piece => match piece with
    | some c => [c]
    | none => x

section assemble

variable {x new : List α} {a c : α} {u : List α} {pieces : List (Option α)}

@[simp] theorem assemble_nil : assemble x [] = [] := rfl

@[simp] theorem assemble_some : assemble x (some c :: pieces) = c :: assemble x pieces := rfl

@[simp] theorem assemble_none : assemble x (none :: pieces) = x ++ assemble x pieces := rfl

theorem length_assemble (x : List α) (pieces : List (Option α)) : (assemble x pieces).length =
      pieces.length - pieces.count none + pieces.count none * x.length := by
  induction pieces with
  | nil => simp
  | cons piece pieces ih =>
    have hle := count_le_length (a := none) (l := pieces)
    cases piece with
    | some c =>
      rw [assemble_some, length_cons, ih, length_cons, count_cons_of_ne (by simp)]
      omega
    | none =>
      rw [assemble_none, length_append, ih, length_cons, count_cons_self, add_mul]
      omega

/-- **The pattern occurs at its places.** -/
theorem count_le_occurrences (ha : a ∉ u) (pieces : List (Option α)) :
    pieces.count none ≤ occurrences (a :: u) (assemble (a :: u) pieces) := by
  induction pieces with
  | nil => exact Nat.zero_le _
  | cons piece pieces ih =>
    cases piece with
    | some c =>
      rw [count_cons_of_ne (by simp), assemble_some, occurrences_cons_eq ha]
      split_ifs <;> omega
    | none =>
      rw [count_cons_self, assemble_none, occurrences_append]
      omega

/-- **Replacing changes the places only**, if the pattern occurs nowhere else. -/
theorem replaceAll_assemble (ha : a ∉ u)
    (h : occurrences (a :: u) (assemble (a :: u) pieces) = pieces.count none) :
    replaceAll (a :: u) new (assemble (a :: u) pieces) = assemble new pieces := by
  induction pieces with
  | nil => rfl
  | cons piece pieces ih =>
    cases piece with
    | some c =>
      have hle := count_le_occurrences ha pieces
      rw [assemble_some, occurrences_cons_eq ha, count_cons_of_ne (by simp)] at h
      split_ifs at h with hstarts
      · omega
      · rw [assemble_some, replaceAll_cons hstarts, ih h, assemble_some]
    | none =>
      rw [assemble_none, occurrences_append, count_cons_self] at h
      rw [assemble_none, replaceAll_append, ih (by omega), assemble_none]

/-- What does not have the first symbol of the pattern is read from the symbols between the
places. -/
theorem prefix_assemble {v : List α} (hv : a ∉ v) (h : v <+: assemble (a :: u) pieces) :
    v <+: assemble new pieces := by
  induction pieces generalizing v with
  | nil => exact h
  | cons piece pieces ih =>
    cases v with
    | nil => exact nil_prefix
    | cons d v =>
      rw [mem_cons, not_or] at hv
      cases piece with
      | some c =>
        rw [assemble_some, cons_prefix_cons] at h ⊢
        exact ⟨h.1, ih hv.2 h.2⟩
      | none =>
        rw [assemble_none, cons_append, cons_prefix_cons] at h
        exact absurd h.1.symm hv.1

/-- The places are all occurrences, if a new text of the same length comes out right. -/
theorem occurrences_of_length_eq (ha : a ∉ u) (hne : new ≠ a :: u)
    (hlength : new.length = (a :: u).length)
    (h : replaceAll (a :: u) new (assemble (a :: u) pieces) = assemble new pieces) :
    occurrences (a :: u) (assemble (a :: u) pieces) = pieces.count none := by
  induction pieces with
  | nil => rfl
  | cons piece pieces ih =>
    cases piece with
    | some c =>
      rw [assemble_some, occurrences_cons_eq ha, count_cons_of_ne (by simp)]
      split_ifs with hstarts
      · exfalso
        rw [assemble_some, assemble_some] at h
        -- the new text has the pattern where the loop puts what is new
        have hold : a :: u <+: c :: assemble new pieces := by
          rw [cons_prefix_cons] at hstarts ⊢
          exact ⟨hstarts.1, prefix_assemble ha hstarts.2⟩
        obtain ⟨rest, heq⟩ := hstarts
        rw [← heq, replaceAll_append] at h
        have hnew : new <+: c :: assemble new pieces := ⟨_, h⟩
        exact hne ((prefix_of_prefix_length_le hnew hold hlength.le).eq_of_length hlength)
      · rw [assemble_some, replaceAll_cons hstarts, assemble_some] at h
        exact ih (cons.inj h).2
    | none =>
      rw [assemble_none, replaceAll_append, assemble_none] at h
      rw [assemble_none, occurrences_append, count_cons_self, ih (append_cancel_left h)]

/-- **Replacing changes the places only iff the pattern occurs nowhere else**, where what is new is
not the pattern itself. -/
theorem replaceAll_assemble_iff (ha : a ∉ u) (hne : new ≠ a :: u) :
    replaceAll (a :: u) new (assemble (a :: u) pieces) = assemble new pieces ↔
      occurrences (a :: u) (assemble (a :: u) pieces) = pieces.count none := by
  refine ⟨fun h => ?_, replaceAll_assemble ha⟩
  by_cases hlength : new.length = (a :: u).length
  · exact occurrences_of_length_eq ha hne hlength h
  · have hreplaced := length_replaceAll a u new (assemble (a :: u) pieces)
    rw [h, length_assemble, length_assemble] at hreplaced
    have hle := count_le_occurrences ha pieces
    obtain ⟨k, hk⟩ := Nat.exists_eq_add_of_le hle
    rw [hk, add_mul, add_mul] at hreplaced
    have hmul : k * (a :: u).length = k * new.length := by omega
    rcases Nat.eq_zero_or_pos k with rfl | hpos
    · exact hk
    · exact absurd (Nat.eq_of_mul_eq_mul_left hpos hmul).symm hlength

end assemble

end Dataflow.Library.Replace
