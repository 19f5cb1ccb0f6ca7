import Mathlib.Data.List.Forall2
import Mathlib.Data.List.Perm.Lattice

/-!
# Paged reading

A reader gives a page at a time. It is called with a cursor, and what it returns is a page, whether
there is more, and the cursor for the next call. A step is a relation, because what is asked may
have a choice.

* `Reads step c pages`: the pages of an iteration from the cursor `c` up to the first page after
  which there is no more.
* `ReadsTo step c pages c'`: the same, with the cursor that is left.
* `Ends step c`: every iteration from `c` comes to such a page.
* `Lossless step c rows`: every iteration from `c` ends and returns `rows`, each as often as it is
  there.
* `EndsWithin step n c`: every iteration from `c` comes to such a page within `n` pages.
* `LosslessTogether step readers n c rows`: readers that each end within `n` pages return `rows`
  together.
* `Reads.length_le`, `Lossless.length_le_of_more`: how much can still come after a page.
* `Bisimilar`, `lossless_iff_of_bisimilar`: two readers that do the same at related cursors;
  `lossless_iff_of_simulation`, `endsWithin_iff_of_simulation` where the relation is a function.
-/

namespace Dataflow.Library.Paging

open List

variable {C D β : Type*}

/-- Called with a cursor: the page, whether there is more, and the next cursor. -/
abbrev PageStep (C β : Type*) := C → List β → Bool → C → Prop

/-- The pages of an iteration up to the first one after which there is no more. -/
inductive Reads (step : PageStep C β) : C → List (List β) → Prop
  | last {c c' : C} {page : List β} (h : step c page false c') : Reads step c [page]
  | more {c c' : C} {page : List β} {pages : List (List β)} (h : step c page true c')
      (rest : Reads step c' pages) : Reads step c (page :: pages)

/-- The pages of an iteration, and the cursor it leaves. -/
inductive ReadsTo (step : PageStep C β) : C → List (List β) → C → Prop
  | last {c c' : C} {page : List β} (h : step c page false c') : ReadsTo step c [page] c'
  | more {c c' c'' : C} {page : List β} {pages : List (List β)} (h : step c page true c')
      (rest : ReadsTo step c' pages c'') : ReadsTo step c (page :: pages) c''

/-- The reader answers, and every iteration comes to an end. -/
inductive Ends (step : PageStep C β) : C → Prop
  | intro {c : C} (answered : ∃ page more c', step c page more c')
      (next : ∀ page c', step c page true c' → Ends step c') : Ends step c

/-- Every iteration ends and returns the rows, each as often as it is there. -/
structure Lossless (step : PageStep C β) (c : C) (rows : List β) : Prop where
  ends : Ends step c
  complete : ∀ pages, Reads step c pages → pages.flatten.Perm rows

variable {step : PageStep C β} {c c' : C} {page rest rows : List β} {pages : List (List β)}

/-- An iteration leaves a cursor. -/
theorem Reads.exists_readsTo (h : Reads step c pages) : ∃ c', ReadsTo step c pages c' := by
  induction h with
  | last h => exact ⟨_, .last h⟩
  | more h _ ih =>
    obtain ⟨c', hc'⟩ := ih
    exact ⟨c', .more h hc'⟩

theorem ReadsTo.reads (h : ReadsTo step c pages c') : Reads step c pages := by
  induction h with
  | last h => exact .last h
  | more h _ ih => exact .more h ih

/-- A reader that can always go on does not end. -/
theorem not_ends_of_more (h : ∀ c, ∃ page c', step c page true c') (c : C) : ¬ Ends step c := by
  intro hends
  induction hends with
  | @intro c _ _ ih =>
    obtain ⟨page, c', hstep⟩ := h c
    exact ih page c' hstep

/-- Where every iteration ends there is one. -/
theorem Ends.exists_reads (h : Ends step c) : ∃ pages, Reads step c pages := by
  induction h with
  | intro answered _ ih =>
    obtain ⟨page, more, c', hstep⟩ := answered
    cases more with
    | false => exact ⟨[page], .last hstep⟩
    | true =>
      obtain ⟨pages, hpages⟩ := ih page c' hstep
      exact ⟨page :: pages, .more hstep hpages⟩

/-- Every page an iteration that ends begins with is completed. -/
theorem Ends.exists_reads_of_step (h : Ends step c) {more : Bool} (hstep : step c page more c') :
    ∃ pages, Reads step c (page :: pages) := by
  cases more with
  | false => exact ⟨[], .last hstep⟩
  | true =>
    obtain ⟨_, hnext⟩ := h
    obtain ⟨pages, hpages⟩ := (hnext page c' hstep).exists_reads
    exact ⟨pages, .more hstep hpages⟩

/-- A reader that can come back to its cursor does not end. -/
theorem Ends.not_loop (h : Ends step c) (page : List β) : ¬ step c page true c := by
  induction h generalizing page with
  | intro _ _ ih =>
    intro hloop
    exact ih page _ hloop page hloop

/-- What holds of every page at a cursor with an invariant holds of everything that is returned. -/
theorem Reads.forall_mem {I : C → Prop} {Q : β → Prop}
    (hstep : ∀ c page more c', I c → step c page more c' → (∀ x ∈ page, Q x) ∧ I c')
    (h : Reads step c pages) (hc : I c) : ∀ x ∈ pages.flatten, Q x := by
  induction h with
  | last h =>
    rw [flatten_singleton]
    exact (hstep _ _ _ _ hc h).1
  | more h _ ih =>
    intro x hx
    rw [flatten_cons, mem_append] at hx
    rcases hx with hx | hx
    · exact (hstep _ _ _ _ hc h).1 x hx
    · exact ih (hstep _ _ _ _ hc h).2 x hx

/-- After a page the rest is lossless. -/
theorem Lossless.next (h : Lossless step c rows) (hstep : step c page true c')
    (hrows : rows.Perm (page ++ rest)) : Lossless step c' rest where
  ends := by
    obtain ⟨_, hnext⟩ := h.ends
    exact hnext page c' hstep
  complete pages hpages := by
    have hall := (h.complete _ (.more hstep hpages)).trans hrows
    rw [flatten_cons] at hall
    exact (perm_append_left_iff page).mp hall

/-- **How much can still come**: no iteration returns more than remains at its cursor. -/
theorem Reads.length_le (remains : C → ℕ → Prop)
    (hlast : ∀ c n page c', remains c n → step c page false c' → page.length ≤ n)
    (hmore : ∀ c n page c', remains c n → step c page true c' →
      ∃ m, remains c' m ∧ page.length + m ≤ n)
    (h : Reads step c pages) {n : ℕ} (hc : remains c n) :
    pages.flatten.length ≤ n := by
  induction h generalizing n with
  | last h =>
    rw [flatten_singleton]
    exact hlast _ _ _ _ hc h
  | more h _ ih =>
    obtain ⟨m, hm, hle⟩ := hmore _ _ _ _ hc h
    rw [flatten_cons, length_append]
    exact Nat.le_trans (Nat.add_le_add_left (ih hm) _) hle

/-- A reader that loses nothing leaves enough for the rest. -/
theorem Lossless.length_le_of_more (h : Lossless step c rows) (hstep : step c page true c') {m : ℕ}
    (hrest : ∀ pages, Reads step c' pages → pages.flatten.length ≤ m) :
    rows.length ≤ page.length + m := by
  obtain ⟨_, hnext⟩ := h.ends
  obtain ⟨pages, hpages⟩ := (hnext page c' hstep).exists_reads
  rw [← (h.complete _ (.more hstep hpages)).length_eq, flatten_cons, length_append]
  exact Nat.add_le_add_left (hrest pages hpages) _

/-- What comes after the last page is nothing. -/
theorem Lossless.perm_of_last (h : Lossless step c rows) (hstep : step c page false c') :
    page.Perm rows := by
  have hall := h.complete _ (.last hstep)
  rwa [flatten_singleton] at hall

theorem Lossless.congr {rows' : List β} (h : Lossless step c rows) (hrows : rows.Perm rows') :
    Lossless step c rows' :=
  ⟨h.ends, fun pages hpages => (h.complete pages hpages).trans hrows⟩

/-- **Lossless by an invariant**: what is still to come is known at every cursor, a page takes its
part of it, and the last page takes everything. -/
theorem lossless_of_invariant (I : C → List β → Prop)
    (answered : ∀ c rows, I c rows → ∃ page more c', step c page more c')
    (last : ∀ c rows page c', I c rows → step c page false c' → page.Perm rows)
    (more : ∀ c rows page c', I c rows → step c page true c' →
      ∃ rest, rows.Perm (page ++ rest) ∧ rest.length < rows.length ∧ I c' rest)
    (h : I c rows) : Lossless step c rows := by
  induction hn : rows.length using Nat.strongRecOn generalizing c rows with
  | ind n ih =>
    refine ⟨⟨answered c rows h, ?_⟩, ?_⟩
    · intro page c' hstep
      obtain ⟨rest, -, hlt, hrest⟩ := more c rows page c' h hstep
      exact (ih rest.length (hn ▸ hlt) hrest rfl).ends
    · intro pages hpages
      cases hpages with
      | last hstep =>
        rw [flatten_singleton]
        exact last c rows _ _ h hstep
      | more hstep hreads =>
        obtain ⟨rest, hrows, hlt, hrest⟩ := more c rows _ _ h hstep
        have htail := (ih rest.length (hn ▸ hlt) hrest rfl).complete _ hreads
        rw [flatten_cons]
        exact (htail.append_left _).trans hrows.symm

/-! ## A number of pages -/

/-- The reader answers, and every iteration ends within a number of pages. -/
def EndsWithin (step : PageStep C β) : ℕ → C → Prop
  | 0, _ => False
  | n + 1, c => (∃ page more c', step c page more c') ∧
      ∀ page c', step c page true c' → EndsWithin step n c'

/-- An iteration that ends within a number of pages ends. -/
theorem EndsWithin.ends {n : ℕ} (h : EndsWithin step n c) : Ends step c := by
  induction n generalizing c with
  | zero => exact h.elim
  | succ n ih => exact ⟨h.1, fun page c' hstep => ih (h.2 page c' hstep)⟩

/-! ## Several readers -/

section together

variable {ι : Type*} {reader : ι → PageStep C β} {readers : List ι} {n : ℕ}

/-- Every reader ends within a number of pages, and together they return the rows, each as often as
it is there. -/
structure LosslessTogether (reader : ι → PageStep C β) (readers : List ι) (n : ℕ) (c : C)
    (rows : List β) : Prop where
  ends : ∀ i ∈ readers, EndsWithin (reader i) n c
  complete : ∀ outcomes, Forall₂ (fun i pages => Reads (reader i) c pages) readers outcomes →
    (outcomes.flatMap List.flatten).Perm rows

/-- Readers that all end have outcomes. -/
theorem exists_outcomes (h : ∀ i ∈ readers, EndsWithin (reader i) n c) :
    ∃ outcomes, Forall₂ (fun i pages => Reads (reader i) c pages) readers outcomes := by
  induction readers with
  | nil => exact ⟨[], .nil⟩
  | cons i readers ih =>
    obtain ⟨pages, hpages⟩ := (h i mem_cons_self).ends.exists_reads
    obtain ⟨outcomes, houtcomes⟩ := ih fun j hj => h j (mem_cons_of_mem i hj)
    exact ⟨pages :: outcomes, .cons hpages houtcomes⟩

/-- Every outcome of one of them is one of theirs together. -/
theorem exists_outcomes_mem (h : ∀ i ∈ readers, EndsWithin (reader i) n c) {i : ι}
    (hi : i ∈ readers) (hpages : Reads (reader i) c pages) :
    ∃ outcomes, pages ∈ outcomes ∧
      Forall₂ (fun i pages => Reads (reader i) c pages) readers outcomes := by
  induction readers with
  | nil => cases hi
  | cons j readers ih =>
    have hrest : ∀ k ∈ readers, EndsWithin (reader k) n c := fun k hk =>
      h k (mem_cons_of_mem j hk)
    rcases mem_cons.mp hi with rfl | hi
    · obtain ⟨outcomes, houtcomes⟩ := exists_outcomes hrest
      exact ⟨pages :: outcomes, mem_cons_self, .cons hpages houtcomes⟩
    · obtain ⟨outcomes, hmem, houtcomes⟩ := ih hrest hi
      obtain ⟨pages', hpages'⟩ := (h j mem_cons_self).ends.exists_reads
      exact ⟨pages' :: outcomes, mem_cons_of_mem _ hmem, .cons hpages' houtcomes⟩

/-- What one of them returns is to be returned. -/
theorem LosslessTogether.mem (h : LosslessTogether reader readers n c rows) {i : ι}
    (hi : i ∈ readers) (hpages : Reads (reader i) c pages) {x : β}
    (hx : x ∈ pages.flatten) : x ∈ rows := by
  obtain ⟨outcomes, hmem, houtcomes⟩ := exists_outcomes_mem h.ends hi hpages
  exact (h.complete outcomes houtcomes).subset (mem_flatMap.mpr ⟨pages, hmem, hx⟩)

/-- What is to be returned is returned by one of them. -/
theorem LosslessTogether.exists_reads (h : LosslessTogether reader readers n c rows) {x : β}
    (hx : x ∈ rows) : ∃ i ∈ readers, ∃ pages, Reads (reader i) c pages ∧ x ∈ pages.flatten := by
  obtain ⟨outcomes, houtcomes⟩ := exists_outcomes h.ends
  have hmem := (h.complete outcomes houtcomes).symm.subset hx
  clear h hx
  induction houtcomes with
  | nil => cases hmem
  | @cons i pages readers outcomes hpages _ ih =>
    rw [flatMap_cons, mem_append] at hmem
    rcases hmem with hmem | hmem
    · exact ⟨i, mem_cons_self, pages, hpages, hmem⟩
    · obtain ⟨j, hj, pages', hpages', hx⟩ := ih hmem
      exact ⟨j, mem_cons_of_mem i hj, pages', hpages', hx⟩

variable {part : ι → List β}

/-- The outcomes of readers that lose nothing. -/
theorem outcomes_perm (h : ∀ i ∈ readers, Lossless (reader i) c (part i))
    {outcomes : List (List (List β))}
    (houtcomes : Forall₂ (fun i pages => Reads (reader i) c pages) readers outcomes) :
    (outcomes.flatMap List.flatten).Perm (readers.flatMap part) := by
  induction houtcomes with
  | nil => exact .nil
  | @cons i pages readers outcomes hpages _ ih =>
    rw [flatMap_cons, flatMap_cons]
    exact ((h i mem_cons_self).complete pages hpages).append
      (ih fun j hj => h j (mem_cons_of_mem i hj))

/-- **Readers that lose nothing**: what they return together are their parts. -/
theorem losslessTogether_iff (hends : ∀ i ∈ readers, EndsWithin (reader i) n c)
    (h : ∀ i ∈ readers, Lossless (reader i) c (part i)) :
    LosslessTogether reader readers n c rows ↔ (readers.flatMap part).Perm rows := by
  constructor
  · intro htogether
    obtain ⟨outcomes, houtcomes⟩ := exists_outcomes hends
    exact (outcomes_perm h houtcomes).symm.trans (htogether.complete outcomes houtcomes)
  · intro hparts
    exact ⟨hends, fun outcomes houtcomes => (outcomes_perm h houtcomes).trans hparts⟩

/-- What readers return is their own. -/
theorem exists_own {own : ι → β → Bool}
    (hown : ∀ i ∈ readers, ∀ pages, Reads (reader i) c pages → ∀ x ∈ pages.flatten, own i x = true)
    {outcomes : List (List (List β))}
    (houtcomes : Forall₂ (fun i pages => Reads (reader i) c pages) readers outcomes) {x : β}
    (hx : x ∈ outcomes.flatMap List.flatten) : ∃ i ∈ readers, own i x = true := by
  induction houtcomes with
  | nil => cases hx
  | @cons i pages readers outcomes hpages _ ih =>
    rw [flatMap_cons, mem_append] at hx
    rcases hx with hx | hx
    · exact ⟨i, mem_cons_self, hown i mem_cons_self pages hpages x hx⟩
    · obtain ⟨j, hj, hjx⟩ := ih (fun j hj => hown j (mem_cons_of_mem i hj)) hx
      exact ⟨j, mem_cons_of_mem i hj, hjx⟩

/-- **Readers that keep to their own parts** lose nothing one by one, if they lose nothing
together. -/
theorem LosslessTogether.each (own : ι → β → Bool)
    (hdisjoint : readers.Pairwise fun i j => ∀ x, own i x = true → own j x = false)
    (hown : ∀ i ∈ readers, ∀ pages, Reads (reader i) c pages → ∀ x ∈ pages.flatten, own i x = true)
    (hpart : ∀ i ∈ readers, ∀ x ∈ part i, own i x = true)
    (h : LosslessTogether reader readers n c (readers.flatMap part)) :
    ∀ i ∈ readers, Lossless (reader i) c (part i) := by
  intro i hi
  refine ⟨(h.ends i hi).ends, fun pages hpages => ?_⟩
  obtain ⟨before, after, rfl⟩ := append_of_mem hi
  rw [pairwise_append, pairwise_cons] at hdisjoint
  have hbefore : ∀ j ∈ before, ∀ x, own j x = true → own i x = false := fun j hj x hx =>
    hdisjoint.2.2 j hj i mem_cons_self x hx
  have hafter : ∀ j ∈ after, ∀ x, own j x = true → own i x = false := by
    intro j hj x hx
    cases hix : own i x with
    | false => rfl
    | true => exact hx.symm.trans (hdisjoint.2.1.1 j hj x hix)
  have hreaders : ∀ j ∈ before ++ after, j ∈ before ++ i :: after := by
    intro j hj
    rcases mem_append.mp hj with hj | hj
    · exact mem_append_left _ hj
    · exact mem_append_right _ (mem_cons_of_mem i hj)
  have hends : ∀ j ∈ before ++ after, EndsWithin (reader j) n c := fun j hj =>
    h.ends j (hreaders j hj)
  obtain ⟨outcomes₁, h₁⟩ := exists_outcomes fun j hj => hends j (mem_append_left after hj)
  obtain ⟨outcomes₂, h₂⟩ := exists_outcomes fun j hj => hends j (mem_append_right before hj)
  have hall := (h.complete _ (rel_append h₁ (.cons hpages h₂))).filter (own i)
  -- what the others return, or are to return, is not its own
  have hnone₁ : (outcomes₁.flatMap List.flatten).filter (own i) = [] := by
    rw [filter_eq_nil_iff]
    intro x hx
    obtain ⟨j, hj, hjx⟩ :=
      exists_own (fun j hj => hown j (hreaders j (mem_append_left after hj))) h₁ hx
    rw [hbefore j hj x hjx]
    exact Bool.false_ne_true
  have hnone₂ : (outcomes₂.flatMap List.flatten).filter (own i) = [] := by
    rw [filter_eq_nil_iff]
    intro x hx
    obtain ⟨j, hj, hjx⟩ :=
      exists_own (fun j hj => hown j (hreaders j (mem_append_right before hj))) h₂ hx
    rw [hafter j hj x hjx]
    exact Bool.false_ne_true
  have hparts (js : List ι) (hjs : ∀ j ∈ js, j ∈ before ++ after)
      (hother : ∀ j ∈ js, ∀ x, own j x = true → own i x = false) :
      (js.flatMap part).filter (own i) = [] := by
    rw [filter_eq_nil_iff]
    intro x hx
    obtain ⟨j, hj, hjx⟩ := mem_flatMap.mp hx
    rw [hother j hj x (hpart j (hreaders j (hjs j hj)) x hjx)]
    exact Bool.false_ne_true
  have hself : ∀ xs : List β, (∀ x ∈ xs, own i x = true) → xs.filter (own i) = xs := fun xs hxs =>
    filter_eq_self.mpr hxs
  rw [flatMap_append, flatMap_cons, flatMap_append, flatMap_cons,
    filter_append, filter_append, filter_append, filter_append, hnone₁, hnone₂,
    hparts before (fun j hj => mem_append_left after hj) hbefore,
    hparts after (fun j hj => mem_append_right before hj) hafter,
    hself _ (hown i hi pages hpages), hself _ (hpart i hi)] at hall
  simpa using hall

end together

/-! ## Simulation -/

section bisimulation

variable {step' : PageStep D β} {rel : C → D → Prop} {d : D}

/-- At related cursors each reader does what the other one does. -/
structure Bisimilar (step : PageStep C β) (step' : PageStep D β) (rel : C → D → Prop) : Prop where
  forward : ∀ c d page more c', rel c d → step c page more c' → ∃ d', step' d page more d' ∧ rel c' d'
  back : ∀ c d page more d', rel c d → step' d page more d' → ∃ c', step c page more c' ∧ rel c' d'

variable (h : Bisimilar step step' rel)

include h

/-- The readers change their places. -/
theorem Bisimilar.symm : Bisimilar step' step fun d c => rel c d where
  forward d c := h.back c d
  back d c := h.forward c d

/-- Iterations of related readers. -/
theorem ReadsTo.of_bisimilar (hreads : ReadsTo step c pages c') (hrel : rel c d) :
    ∃ d', ReadsTo step' d pages d' ∧ rel c' d' := by
  induction hreads generalizing d with
  | last hstep =>
    obtain ⟨d', hstep', hrel'⟩ := h.forward _ _ _ _ _ hrel hstep
    exact ⟨d', .last hstep', hrel'⟩
  | more hstep _ ih =>
    obtain ⟨d', hstep', hrel'⟩ := h.forward _ _ _ _ _ hrel hstep
    obtain ⟨d'', hreads', hrel''⟩ := ih hrel'
    exact ⟨d'', .more hstep' hreads', hrel''⟩

theorem Reads.of_bisimilar
    (hreads : Reads step c pages) (hrel : rel c d) : Reads step' d pages := by
  obtain ⟨c', hreads⟩ := hreads.exists_readsTo
  obtain ⟨d', hreads', -⟩ := hreads.of_bisimilar h hrel
  exact hreads'.reads

/-- Ends of related readers. -/
theorem Ends.of_bisimilar (hends : Ends step c) (hrel : rel c d) : Ends step' d := by
  induction hends generalizing d with
  | intro answered _ ih =>
    obtain ⟨page, more, c', hstep⟩ := answered
    obtain ⟨d', hstep', -⟩ := h.forward _ _ _ _ _ hrel hstep
    refine .intro ⟨page, more, d', hstep'⟩ ?_
    intro page' d'' hnext
    obtain ⟨c'', hnext', hrel'⟩ := h.back _ _ _ _ _ hrel hnext
    exact ih page' c'' hnext' hrel'

/-- Bounds of related readers. -/
theorem EndsWithin.of_bisimilar {n : ℕ} (hends : EndsWithin step n c)
    (hrel : rel c d) : EndsWithin step' n d := by
  induction n generalizing c d with
  | zero => exact hends
  | succ n ih =>
    obtain ⟨⟨page, more, c', hstep⟩, hnext⟩ := hends
    obtain ⟨d', hstep', -⟩ := h.forward _ _ _ _ _ hrel hstep
    refine ⟨⟨page, more, d', hstep'⟩, ?_⟩
    intro page' d'' hnext'
    obtain ⟨c'', hnext'', hrel'⟩ := h.back _ _ _ _ _ hrel hnext'
    exact ih (hnext page' c'' hnext'') hrel'

/-- **Related readers lose the same.** -/
theorem lossless_iff_of_bisimilar (hrel : rel c d) (rows : List β) :
    Lossless step c rows ↔ Lossless step' d rows := by
  constructor
  · intro hlossless
    exact ⟨hlossless.ends.of_bisimilar h hrel, fun pages hpages =>
      hlossless.complete pages (hpages.of_bisimilar h.symm hrel)⟩
  · intro hlossless
    exact ⟨hlossless.ends.of_bisimilar h.symm hrel, fun pages hpages =>
      hlossless.complete pages (hpages.of_bisimilar h hrel)⟩

end bisimulation

section simulation

variable {step' : PageStep D β} {abs : C → D}

/-- Readers that are related by a function. -/
theorem bisimilar_of_simulation
    (forward : ∀ c page more c', step c page more c' → step' (abs c) page more (abs c'))
    (back : ∀ c page more d, step' (abs c) page more d → ∃ c', step c page more c' ∧ abs c' = d) :
    Bisimilar step step' fun c d => abs c = d where
  forward := by
    rintro c _ page more c' rfl hstep
    exact ⟨abs c', forward c page more c' hstep, rfl⟩
  back := by
    rintro c _ page more d rfl hstep
    exact back c page more d hstep

/-- Iterations of related readers. -/
theorem reads_iff_of_simulation
    (forward : ∀ c page more c', step c page more c' → step' (abs c) page more (abs c'))
    (back : ∀ c page more d, step' (abs c) page more d → ∃ c', step c page more c' ∧ abs c' = d)
    (c : C) (pages : List (List β)) : Reads step c pages ↔ Reads step' (abs c) pages := by
  have h := bisimilar_of_simulation forward back
  exact ⟨fun hreads => hreads.of_bisimilar h rfl, fun hreads => hreads.of_bisimilar h.symm rfl⟩

/-- Ends of related readers. -/
theorem ends_iff_of_simulation
    (forward : ∀ c page more c', step c page more c' → step' (abs c) page more (abs c'))
    (back : ∀ c page more d, step' (abs c) page more d → ∃ c', step c page more c' ∧ abs c' = d)
    (c : C) : Ends step c ↔ Ends step' (abs c) := by
  have h := bisimilar_of_simulation forward back
  exact ⟨fun hends => hends.of_bisimilar h rfl, fun hends => hends.of_bisimilar h.symm rfl⟩

/-- Bounds of related readers. -/
theorem endsWithin_iff_of_simulation
    (forward : ∀ c page more c', step c page more c' → step' (abs c) page more (abs c'))
    (back : ∀ c page more d, step' (abs c) page more d → ∃ c', step c page more c' ∧ abs c' = d)
    (n : ℕ) (c : C) : EndsWithin step n c ↔ EndsWithin step' n (abs c) := by
  have h := bisimilar_of_simulation forward back
  exact ⟨fun hends => hends.of_bisimilar h rfl, fun hends => hends.of_bisimilar h.symm rfl⟩

/-- **Related readers lose the same.** -/
theorem lossless_iff_of_simulation
    (forward : ∀ c page more c', step c page more c' → step' (abs c) page more (abs c'))
    (back : ∀ c page more d, step' (abs c) page more d → ∃ c', step c page more c' ∧ abs c' = d)
    (c : C) (rows : List β) : Lossless step c rows ↔ Lossless step' (abs c) rows :=
  lossless_iff_of_bisimilar (bisimilar_of_simulation forward back) rfl rows

end simulation

end Dataflow.Library.Paging
