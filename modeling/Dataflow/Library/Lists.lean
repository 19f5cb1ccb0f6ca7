import Mathlib.Data.List.DropRight
import Mathlib.Data.List.GetD
import Mathlib.Data.List.Perm.Lattice
import Mathlib.Data.List.ReduceOption
import Mathlib.Data.List.Sigma
import Mathlib.Data.List.Perm.Subperm

/-!
# List facts

Facts about `List.filter`, `List.Perm`, `List.Nodup`, `List.append` and `List.Forall₂` that Mathlib
does not state.
-/

namespace Dataflow.Library.Lists

open List Option

variable {α β : Type*} [DecidableEq β]

/-- Grouping a list by the keys of a duplicate-free list of keys keeps the elements whose key is
listed. -/
theorem flatMap_filter_perm (key : α → β) (l : List α) {keys : List β} (hkeys : keys.Nodup) :
    (keys.flatMap fun k => l.filter fun a => key a = k).Perm (l.filter fun a => key a ∈ keys) := by
  induction keys with
  | nil => simp
  | cons k keys ih =>
    rw [nodup_cons] at hkeys
    have hsplit := filter_append_perm (fun a => key a = k)
      (l.filter fun a => key a ∈ k :: keys)
    have hfirst : ((l.filter fun a => key a ∈ k :: keys).filter fun a => key a = k) =
        l.filter fun a => key a = k := by
      rw [List.filter_filter]
      congr 1
      funext a
      by_cases h : key a = k <;> simp [h]
    have hrest : ((l.filter fun a => key a ∈ k :: keys).filter fun a => !decide (key a = k)) =
        l.filter fun a => key a ∈ keys := by
      rw [List.filter_filter]
      congr 1
      funext a
      by_cases h : key a = k
      · simp [h, hkeys.1]
      · simp [h]
    rw [hfirst, hrest] at hsplit
    rw [flatMap_cons]
    exact ((ih hkeys.2).append_left _).trans hsplit

/-- Two duplicate-free lists of one length, one inside the other, are permutations. -/
theorem perm_of_subset_of_length_eq {l₁ l₂ : List α} (hnodup : l₁.Nodup) (hsub : l₁ ⊆ l₂)
    (hlen : l₂.length ≤ l₁.length) : l₁.Perm l₂ :=
  (hnodup.subperm hsub).perm_of_length_le hlen

/-- What holds of a list and of one more element. -/
theorem forall_mem_snoc {p : α → Prop} {l : List α} {a : α} (h : ∀ x ∈ l, p x) (ha : p a) :
    ∀ x ∈ l ++ [a], p x :=
  forall_mem_append.mpr ⟨h, forall_mem_singleton.mpr ha⟩

omit [DecidableEq β] in
/-- A count splits along a partition of the counted predicate. -/
theorem countP_eq_add {p q r : α → Bool} (l : List α)
    (h : ∀ a ∈ l, (p a = true ↔ q a = true ∨ r a = true) ∧ ¬ (q a = true ∧ r a = true)) :
    l.countP p = l.countP q + l.countP r := by
  induction l with
  | nil => rfl
  | cons a l ih =>
    obtain ⟨hp, hqr⟩ := h a (by simp)
    have ih := ih fun b hb => h b (mem_cons_of_mem _ hb)
    rw [countP_cons, countP_cons, countP_cons, ih]
    cases hq : q a <;> cases hr : r a <;> simp_all <;> omega

/-- `filterMap` adds what it makes of the first element. -/
theorem filterMap_cons_toList {α β : Type*} (f : α → Option β) (a : α) (l : List α) :
    (a :: l).filterMap f = (f a).toList ++ l.filterMap f := by
  cases h : f a with
  | none => exact filterMap_cons_none h
  | some b => exact filterMap_cons_some h

/-- In an association list a function that is nothing at the other keys picks one entry. -/
theorem filterMap_of_key {α γ : Type*} {β : α → Type*} {l : List (Sigma β)} (hnodup : l.NodupKeys)
    {entry : Sigma β} (hentry : entry ∈ l) {f : Sigma β → Option γ}
    (h : ∀ other ∈ l, other.1 ≠ entry.1 → f other = none) : l.filterMap f = (f entry).toList := by
  induction l with
  | nil => cases hentry
  | cons first l ih =>
    rw [nodupKeys_cons] at hnodup
    rw [filterMap_cons_toList]
    rcases mem_cons.mp hentry with rfl | hentry
    · have hrest : l.filterMap f = [] := by
        rw [filterMap_eq_nil_iff]
        intro other hother
        apply h other (mem_cons_of_mem _ hother)
        intro heq
        exact hnodup.1 (heq ▸ mem_keys_of_mem hother)
      rw [hrest, append_nil]
    · have hfirst : f first = none := by
        apply h first mem_cons_self
        intro heq
        exact hnodup.1 (heq ▸ mem_keys_of_mem hentry)
      rw [hfirst, ih hnodup.2 hentry fun other hother => h other (mem_cons_of_mem _ hother)]
      rfl

omit [DecidableEq β] in
/-- Two predicates that keep the same elements of a list are the same on it. -/
theorem filter_perm_iff {p q : α → Bool} {l : List α} :
    (l.filter p).Perm (l.filter q) ↔ ∀ a ∈ l, p a = q a := by
  constructor
  · intro h a ha
    have hmem := h.mem_iff (a := a)
    rw [mem_filter, mem_filter, and_iff_right ha, and_iff_right ha] at hmem
    exact Bool.eq_iff_iff.mpr hmem
  · intro h
    exact .of_eq (filter_congr h)

omit [DecidableEq β] in
/-- Where an element of two lists put together is. -/
theorem split_of_append_eq {xs ys before after : List α} {x : α}
    (h : xs ++ ys = before ++ x :: after) :
    (∃ rest, xs = before ++ x :: rest) ∨ ∃ middle, before = xs ++ middle ∧
      ys = middle ++ x :: after := by
  rcases append_eq_append_iff.mp h with ⟨middle, rfl, rfl⟩ | ⟨middle, rfl, htail⟩
  · exact .inr ⟨middle, rfl, rfl⟩
  · cases middle with
    | nil => exact .inr ⟨[], by rw [append_nil, append_nil], htail.symm⟩
    | cons y middle =>
      obtain ⟨rfl, -⟩ := cons.inj htail
      exact .inl ⟨middle, rfl⟩

/-- What is looked up in an association list is one of its entries. -/
theorem mem_of_lookup {α β : Type*} [BEq α] [LawfulBEq α] {l : List (α × β)} {a : α} {b : β}
    (h : l.lookup a = some b) : (a, b) ∈ l := by
  obtain ⟨before, after, rfl, -⟩ := lookup_eq_some_iff.mp h
  exact mem_append_right _ mem_cons_self

/-- Where the keys are distinct, one element has the key of an element. -/
theorem filter_key_eq {α β : Type*} [DecidableEq β] {key : α → β} {l : List α}
    (hnodup : (l.map key).Nodup) {a : α} (ha : a ∈ l) :
    l.filter (fun b => key b = key a) = [a] := by
  induction l with
  | nil => cases ha
  | cons b l ih =>
    rw [map_cons, nodup_cons] at hnodup
    rcases mem_cons.mp ha with rfl | ha
    · have hnone : l.filter (fun b => key b = key a) = [] := by
        rw [filter_eq_nil_iff]
        intro b hb heq
        exact hnodup.1 (List.mem_map.mpr ⟨b, hb, of_decide_eq_true heq⟩)
      rw [filter_cons_of_pos (by simp), hnone]
    · have hne : key b ≠ key a := fun heq => hnodup.1 (List.mem_map.mpr ⟨a, ha, heq.symm⟩)
      rw [filter_cons_of_neg (by simpa using hne), ih hnodup.2 ha]

/-- Looking up a key among the entries made from the elements of a list, when the elements with the
key make the same of it. -/
theorem lookup_filterMap {α β γ : Type*} [BEq α] [LawfulBEq α] {l : List γ} {key : γ → α}
    {value : γ → Option β} {c : γ} (hc : c ∈ l)
    (h : ∀ other ∈ l, key other = key c → value other = value c) :
    (l.filterMap fun other => (value other).map fun b => (key other, b)).lookup (key c) =
      value c := by
  cases hvalue : value c with
  | none =>
    rw [lookup_eq_none_iff]
    intro entry hentry
    obtain ⟨other, hother, hmap⟩ := mem_filterMap.mp hentry
    obtain ⟨b, hb, rfl⟩ := map_eq_some_iff.mp hmap
    rw [bne_iff_ne]
    intro hkey
    simp [h other hother hkey.symm, hvalue] at hb
  | some b =>
    have hentry : (key c, b) ∈ l.filterMap fun other =>
        (value other).map fun b => (key other, b) :=
      mem_filterMap.mpr ⟨c, hc, by rw [hvalue]; rfl⟩
    cases hlookup : (l.filterMap fun other =>
        (value other).map fun b => (key other, b)).lookup (key c) with
    | none =>
      rw [lookup_eq_none_iff] at hlookup
      exact absurd rfl (bne_iff_ne.mp (hlookup _ hentry))
    | some found =>
      obtain ⟨other, hother, hmap⟩ := mem_filterMap.mp (mem_of_lookup hlookup)
      obtain ⟨b', hb', heq⟩ := map_eq_some_iff.mp hmap
      obtain ⟨hkey, rfl⟩ := Prod.mk.inj heq
      rw [← hb', h other hother hkey, hvalue]

/-- A joined list, part by part. -/
theorem intercalate_cons {α : Type*} (sep part : List α) (parts : List (List α)) :
    sep.intercalate (part :: parts) = part ++ parts.flatMap fun next => sep ++ next := by
  induction parts generalizing part with
  | nil => simp
  | cons next parts ih =>
    rw [intercalate_cons_cons, ih, flatMap_cons, append_assoc, append_assoc]

/-- Two lists of parts are joined with a separator between them. -/
theorem intercalate_append {α : Type*} (sep : List α) {parts parts' : List (List α)}
    (h : parts ≠ []) (h' : parts' ≠ []) :
    sep.intercalate (parts ++ parts') =
      sep.intercalate parts ++ (sep ++ sep.intercalate parts') := by
  obtain ⟨part, parts, rfl⟩ := exists_cons_of_ne_nil h
  obtain ⟨part', parts', rfl⟩ := exists_cons_of_ne_nil h'
  rw [cons_append, intercalate_cons, intercalate_cons, intercalate_cons, flatMap_append,
    flatMap_cons]
  simp

/-- The first element that is looked for is found among those that are kept, if it is one of
them. -/
theorem find?_filter_of_kept {α : Type*} {l : List α} {p keep : α → Bool}
    (h : ∀ a, l.find? p = some a → keep a = true) : (l.filter keep).find? p = l.find? p := by
  cases hfind : l.find? p with
  | none =>
    rw [find?_eq_none] at hfind ⊢
    intro a ha
    exact hfind a (mem_of_mem_filter ha)
  | some a =>
    have hkeep := h a hfind
    obtain ⟨ha, before, after, rfl, hbefore⟩ := find?_eq_some_iff_append.mp hfind
    rw [find?_eq_some_iff_append]
    refine ⟨ha, before.filter keep, after.filter keep, ?_, ?_⟩
    · rw [filter_append, filter_cons_of_pos hkeep]
    · intro b hb
      exact hbefore b (mem_of_mem_filter hb)

/-- What is made of the elements with a property. -/
theorem flatMap_filter {α β : Type*} (p : α → Prop) [DecidablePred p] (f : α → List β)
    (l : List α) :
    (l.filter fun a => p a).flatMap f = l.flatMap fun a => if p a then f a else [] := by
  induction l with
  | nil => rfl
  | cons a l ih =>
    rw [flatMap_cons, ← ih]
    by_cases h : p a
    · rw [if_pos h, filter_cons_of_pos (by simpa using h), flatMap_cons]
    · rw [if_neg h, filter_cons_of_neg (by simpa using h), nil_append]

/-- What is taken from the end goes on in front of elements that are taken. -/
theorem rtakeWhile_append {α : Type*} {p : α → Bool} {l l' : List α} (h : ∀ a ∈ l', p a) :
    (l ++ l').rtakeWhile p = l.rtakeWhile p ++ l' := by
  unfold List.rtakeWhile
  rw [reverse_append, takeWhile_append_of_pos (by simpa using h), reverse_append, reverse_reverse]

/-- Related lists agree on what holds of all their elements. -/
theorem forall_mem_iff_of_forall₂ {α β : Type*} {R : α → β → Prop} {p : α → Prop} {q : β → Prop}
    {as : List α} {bs : List β} (h : Forall₂ R as bs) (hR : ∀ a b, R a b → (p a ↔ q b)) :
    (∀ a ∈ as, p a) ↔ ∀ b ∈ bs, q b := by
  induction h with
  | nil => simp
  | cons hab _ ih => rw [forall_mem_cons, forall_mem_cons, hR _ _ hab, ih]

/-- Where there are only defaults a default is found, and past the end as well. -/
theorem getD_reduceOption_of_forall {α : Type*} {d : α} {os : List (Option α)}
    (h : ∀ o ∈ os, o.getD d = d) (k : ℕ) :
    os.reduceOption.getD k d = d := by
  by_cases hk : k < os.reduceOption.length
  · rw [getD_eq_getElem _ _ hk]
    exact h _ (reduceOption_mem_iff.mp (getElem_mem hk))
  · exact getD_eq_default _ _ (not_lt.mp hk)

/-- If what is there is found at or after the places that come `n + 1` earlier, all of it is the
default: the last of it would be found past the end. -/
theorem forall_getD_eq_of_shift {α : Type*} {d : α} {os : List (Option α)} (n : ℕ)
    (h : ∀ k o, os[k]? = some o → os.reduceOption.getD (k + n + 1) d = o.getD d) :
    ∀ o ∈ os, o.getD d = d := by
  induction os generalizing n with
  | nil => simp
  | cons first rest ih =>
    cases first with
    | none =>
      have hrest := ih (n + 1) fun k o ho => by
        have hnext := h (k + 1) o (by simpa using ho)
        rw [reduceOption_cons_of_none] at hnext
        rwa [show k + (n + 1) + 1 = k + 1 + n + 1 by omega]
      exact forall_mem_cons.mpr ⟨rfl, hrest⟩
    | some a =>
      have hrest := ih n fun k o ho => by
        have hnext := h (k + 1) o (by simpa using ho)
        rwa [reduceOption_cons_of_some, show k + 1 + n + 1 = (k + n + 1) + 1 by omega,
          getD_cons_succ] at hnext
      refine forall_mem_cons.mpr ⟨?_, hrest⟩
      have hfirst := h 0 (some a) rfl
      rw [reduceOption_cons_of_some, Nat.zero_add, getD_cons_succ] at hfirst
      rw [← hfirst, getD_reduceOption_of_forall hrest]

/-- **What is there is found at its own place** iff after a missing element there are only
defaults. -/
theorem getD_reduceOption_iff {α : Type*} {d : α} {os : List (Option α)} :
    (∀ k o, os[k]? = some o → os.reduceOption.getD k d = o.getD d) ↔
      os.Pairwise fun o later => o = none → later.getD d = d := by
  induction os with
  | nil => simp
  | cons first rest ih =>
    rw [pairwise_cons, ← ih]
    cases first with
    | some a =>
      rw [reduceOption_cons_of_some]
      constructor
      · intro h
        exact ⟨by simp, fun k o ho => h (k + 1) o (by simpa using ho)⟩
      · rintro ⟨-, h⟩ k o ho
        cases k with
        | zero =>
          obtain rfl : some a = o := by simpa using ho
          rfl
        | succ k => exact h k o (by simpa using ho)
    | none =>
      rw [reduceOption_cons_of_none]
      constructor
      · intro h
        have hrest := forall_getD_eq_of_shift 0 fun k o ho => h (k + 1) o (by simpa using ho)
        refine ⟨fun o ho _ => hrest o ho, fun k o ho => ?_⟩
        rw [getD_reduceOption_of_forall hrest, hrest o (mem_of_getElem? ho)]
      · rintro ⟨hrest, -⟩ k o ho
        have hrest' : ∀ o ∈ rest, o.getD d = d := fun o ho => hrest o ho rfl
        rw [getD_reduceOption_of_forall hrest']
        cases k with
        | zero =>
          obtain rfl : none = o := by simpa using ho
          rfl
        | succ k => exact (hrest' o (mem_of_getElem? (by simpa using ho))).symm

/-- What a map that may fail gives, when it does not. -/
theorem filterMap_of_mapM {α β : Type*} {f : α → Option β} {as : List α} {bs : List β}
    (h : as.mapM f = some bs) : as.filterMap f = bs := by
  induction as generalizing bs with
  | nil =>
    cases h
    rfl
  | cons a as ih =>
    rw [mapM_cons] at h
    obtain ⟨b, hb, h⟩ := bind_eq_some_iff.mp h
    obtain ⟨rest, hrest, h⟩ := bind_eq_some_iff.mp h
    cases h
    rw [filterMap_cons_some hb, ih hrest]

/-- Elementwise relations compose. -/
theorem forall₂_trans {α : Type*} {R : α → α → Prop} {l₁ l₂ l₃ : List α}
    (h : Forall₂ R l₁ l₂) (h' : Forall₂ R l₂ l₃) (hR : ∀ a b c, R a b → R b c → R a c) :
    Forall₂ R l₁ l₃ := by
  induction h generalizing l₃ with
  | nil => exact h'
  | cons hab _ ih =>
    obtain ⟨_, _, hbc, hrest, rfl⟩ := forall₂_cons_left_iff.mp h'
    exact .cons (hR _ _ _ hab hbc) (ih hrest)

/-- Two lists of a pairwise related list of lists, by their numbers. -/
theorem getD_pairwise {α : Type*} {R : α → α → Prop} {ls : List (List α)}
    (h : ls.Pairwise fun l l' => ∀ a ∈ l, ∀ b ∈ l', R a b) {i j : ℕ} (hij : i < j) {a b : α}
    (ha : a ∈ ls.getD i []) (hb : b ∈ ls.getD j []) : R a b := by
  have hj : j < ls.length := by
    by_contra hlong
    rw [getD_eq_default _ _ (not_lt.mp hlong)] at hb
    exact not_mem_nil hb
  have hi : i < ls.length := hij.trans hj
  rw [getD_eq_getElem _ _ hi] at ha
  rw [getD_eq_getElem _ _ hj] at hb
  exact pairwise_iff_getElem.mp h i j hi hj hij a ha b hb

end Dataflow.Library.Lists
