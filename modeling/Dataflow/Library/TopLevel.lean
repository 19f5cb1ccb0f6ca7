import Mathlib.Algebra.BigOperators.Group.List.Basic
import Mathlib.Algebra.GroupWithZero.Nat
import Mathlib.Tactic.Common

/-!
# Splitting at separators outside of nesting

A scanner reads a text symbol by symbol, and the text is cut at each separator that it finds in a
state that counts as the top level.

* `splitTop`: the parts of a text; `intercalate_splitTop`: put together again they are the text.
* `TopFree`: no separator of a text is at the top level; `Separable`: this holds of parts that are
  read one after the other, and the top level is reached at the end of each but the last.
* **`splitTop_intercalate_iff`**: parts that were put together are found again iff they are
  separable.
* `eq_of_map_eq`: a change that only shortens parts changes none of those that were put
  together.
-/

namespace Dataflow.Library.TopLevel

open List

variable {α σ : Type}

section split

variable [DecidableEq α] (separator : α) (top : σ → Bool) (step : σ → α → σ)

/-- A symbol more at the beginning of the first part. -/
def consFirst (a : α) : List (List α) → List (List α)
  | [] => [[a]]
  | part :: parts => (a :: part) :: parts

/-- **The parts of a text**, read from a state on; a separator at the top level leaves the state as
it is. -/
def splitTop : (state : σ) → List α → List (List α)
  | _, [] => [[]]
  | state, a :: text =>
    if a = separator ∧ top state = true then [] :: splitTop state text
    else consFirst a (splitTop (step state a) text)

/-- No separator of a text is at the top level. -/
def TopFree : (state : σ) → List α → Prop
  | _, [] => True
  | state, a :: text => ¬ (a = separator ∧ top state = true) ∧ TopFree (step state a) text

/-- **Parts that can be told apart** when they are read one after the other. -/
def Separable : (state : σ) → List (List α) → Prop
  | _, [] => False
  | state, [part] => TopFree separator top step state part
  | state, part :: next :: parts =>
    TopFree separator top step state part ∧ top (part.foldl step state) = true ∧
      Separable (part.foldl step state) (next :: parts)

instance decidableTopFree (state : σ) (text : List α) :
    Decidable (TopFree separator top step state text) :=
  match text with
  | [] => isTrue trivial
  | a :: text =>
    have := decidableTopFree (step state a) text
    inferInstanceAs (Decidable (_ ∧ _))

instance decidableSeparable (state : σ) (parts : List (List α)) :
    Decidable (Separable separator top step state parts) :=
  match parts with
  | [] => isFalse id
  | [_] => decidableTopFree separator top step _ _
  | part :: next :: parts =>
    have := decidableSeparable (part.foldl step state) (next :: parts)
    inferInstanceAs (Decidable (_ ∧ _ ∧ _))

end split

variable {parts : List (List α)}

section first

theorem intercalate_consFirst (separator a : α) (h : parts ≠ []) :
    [separator].intercalate (consFirst a parts) = a :: [separator].intercalate parts := by
  match parts with
  | [part] => simp [consFirst]
  | part :: next :: parts =>
    rw [consFirst, intercalate_cons_cons, intercalate_cons_cons]; rfl

theorem foldr_consFirst (part first : List α) (parts : List (List α)) :
    part.foldr consFirst (first :: parts) = (part ++ first) :: parts := by
  induction part with
  | nil => rfl
  | cons a part ih => rw [foldr_cons, ih]; rfl

end first

section lemmas

variable [DecidableEq α] {separator : α} {top : σ → Bool} {step : σ → α → σ} {state : σ}

theorem splitTop_ne_nil (text : List α) : splitTop separator top step state text ≠ [] := by
  cases text with
  | nil => exact cons_ne_nil _ _
  | cons a text =>
    rw [splitTop]
    split_ifs
    · exact cons_ne_nil _ _
    · cases splitTop separator top step (step state a) text <;> exact cons_ne_nil _ _

/-- **The parts of a text** are the text when they are put together. -/
theorem intercalate_splitTop (text : List α) :
    [separator].intercalate (splitTop separator top step state text) = text := by
  induction text generalizing state with
  | nil => simp [splitTop]
  | cons a text ih =>
    rw [splitTop]
    split_ifs with h
    · obtain ⟨part, parts, hparts⟩ :=
        exists_cons_of_ne_nil (@splitTop_ne_nil _ _ _ separator top step state text)
      have hrest := @ih state
      rw [hparts] at hrest ⊢
      rw [intercalate_cons_cons, hrest, h.1]
      rfl
    · rw [intercalate_consFirst separator a (splitTop_ne_nil text), ih]

/-- A text without a separator at the top level is read on in one part. -/
theorem splitTop_append {part : List α} (h : TopFree separator top step state part)
    (text : List α) :
    splitTop separator top step state (part ++ text) =
      part.foldr consFirst (splitTop separator top step (part.foldl step state) text) := by
  induction part generalizing state with
  | nil => rfl
  | cons a part ih => rw [cons_append, splitTop, if_neg h.1, ih h.2]; rfl

/-- The first part of a text. -/
theorem topFree_of_splitTop {text part : List α}
    (h : splitTop separator top step state text = part :: parts) :
    TopFree separator top step state part ∧ (parts ≠ [] → top (part.foldl step state) = true ∧
        splitTop separator top step (part.foldl step state) ([separator].intercalate parts) = parts) := by
  induction text generalizing state part parts with
  | nil =>
    obtain ⟨rfl, rfl⟩ := cons.inj h
    exact ⟨trivial, fun hne => absurd rfl hne⟩
  | cons a text ih =>
    rw [splitTop] at h
    split_ifs at h with htop
    · obtain ⟨rfl, rfl⟩ := cons.inj h
      exact ⟨trivial, fun _ => ⟨htop.2, by rw [intercalate_splitTop]; rfl⟩⟩
    · obtain ⟨first, more, hmore⟩ :=
        exists_cons_of_ne_nil (@splitTop_ne_nil _ _ _ separator top step (step state a) text)
      rw [hmore, consFirst] at h
      obtain ⟨rfl, rfl⟩ := cons.inj h
      obtain ⟨hfree, hrest⟩ := ih hmore
      exact ⟨⟨htop, hfree⟩, hrest⟩

/-- **Parts that were put together are found again** iff they can be told apart. -/
theorem splitTop_intercalate_iff :
    splitTop separator top step state ([separator].intercalate parts) = parts ↔
      Separable separator top step state parts := by
  induction parts generalizing state with
  | nil => exact iff_of_false (splitTop_ne_nil _) id
  | cons part parts ih =>
    constructor
    · intro h
      obtain ⟨hfree, hrest⟩ := topFree_of_splitTop h
      cases parts with
      | nil => exact hfree
      | cons next parts =>
        obtain ⟨htop, hsplit⟩ := hrest (cons_ne_nil _ _)
        exact ⟨hfree, htop, ih.mp hsplit⟩
    · intro h
      cases parts with
      | nil =>
        have hfree : TopFree separator top step state part := h
        rw [intercalate_singleton, ← append_nil part, splitTop_append hfree, splitTop,
          foldr_consFirst]
      | cons next parts =>
        obtain ⟨hfree, htop, hrest⟩ := h
        rw [intercalate_cons_cons, append_assoc, splitTop_append hfree,
          singleton_append, splitTop, if_pos ⟨rfl, htop⟩, ih.mpr hrest, foldr_consFirst,
          append_nil]

end lemmas

section shorten

variable {separator : α} {f : List α → List α}

theorem length_intercalate (part : List α) (parts : List (List α)) :
    ([separator].intercalate (part :: parts)).length =
      ((part :: parts).map List.length).sum + parts.length := by
  induction parts generalizing part with
  | nil => simp
  | cons next parts ih =>
    rw [intercalate_cons_cons, length_append, length_append, ih]
    simp
    omega

/-- What shortens parts but not their sum changes none. -/
theorem map_eq_self (hle : ∀ part, (f part).length ≤ part.length)
    (heq : ∀ part, (f part).length = part.length → f part = part)
    (hsum : ((parts.map f).map List.length).sum = (parts.map List.length).sum) :
    parts.map f = parts := by
  induction parts with
  | nil => rfl
  | cons part parts ih =>
    have hrest : ((parts.map f).map List.length).sum ≤ (parts.map List.length).sum := by
      clear ih hsum
      induction parts with
      | nil => exact Nat.le_refl _
      | cons next parts ih =>
        have hnext := hle next
        simp only [map_cons, sum_cons]
        omega
    have hpart := hle part
    simp only [map_cons, sum_cons] at hsum
    rw [map_cons, heq part (by omega), ih (by omega)]

/-- **Two ways to put parts together** that give one text are the same if those of one are those of
the other, shortened. -/
theorem eq_of_map_eq (hle : ∀ part, (f part).length ≤ part.length)
    (heq : ∀ part, (f part).length = part.length → f part = part) {parts found : List (List α)}
    (htext : [separator].intercalate found = [separator].intercalate parts)
    (hmap : found.map f = parts) :
    found = parts := by
  cases found with
  | nil => exact hmap
  | cons part found =>
    rw [← hmap]
    refine (map_eq_self hle heq ?_).symm
    have hlength := congrArg List.length htext
    rw [← hmap, map_cons, length_intercalate, length_intercalate, length_map] at hlength
    rw [map_cons]
    omega

end shorten

end Dataflow.Library.TopLevel
