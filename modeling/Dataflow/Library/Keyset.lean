import Dataflow.Library.Paging
import Mathlib.Data.List.Sort
import Mathlib.Data.List.Count

/-!
# Keyset pagination

Rows are read in the order of a key. A query selects the rows after a cursor, sorts them by the key,
and takes a page and one row more, to see whether there is more. The cursor for the next query comes
from the last row of the page. Rows with one key come in any order, in each query anew.

* `Keyset`: the key of a row, the cursor it leaves, the rows a cursor selects, and the form in
  which rows are returned.
* `Keyset.step`: the reader.
* `Keyset.Separates`: at every page boundary, whatever the order of rows with one key, the cursor
  of the row before the boundary selects exactly the rows after it.
* `Keyset.lossless_of_separates`: then nothing is lost or repeated.
* `Keyset.endsWithin_iff`: how many rows a number of pages is enough for.
* `Keyset.lossless_iff_separates`: **main result**: when a cursor that is reached from another one
  selects less than it, the boundaries decide.
-/

namespace Dataflow.Library.Paging

open List

variable {α β C K : Type*}

/-- Rows with keys and cursors. `select none` is the query without a cursor. -/
structure Keyset (α β C K : Type*) where
  rank : α → K
  cursor : α → Option C
  select : Option C → α → Bool
  emit : α → β

namespace Keyset

variable [LinearOrder K] (keyset : Keyset α β C K)

/-- In the order of the key. -/
def Sorted (l : List α) : Prop := l.Pairwise fun x y => keyset.rank x ≤ keyset.rank y

/-- An answer to the query with the cursor, before it is cut off. -/
def Answer (rows : List α) (c : Option C) (full : List α) : Prop :=
  full.Perm (rows.filter (keyset.select c)) ∧ keyset.Sorted full

/-- The cursor after a page. -/
def next (c : Option C) (page : List α) : Option C :=
  match page.getLast? with
  | none => c
  | some x => keyset.cursor x

/-- The reader with pages of a given size. -/
def step (rows : List α) (size : ℕ) : PageStep (Option C) β := fun c page more c' =>
  ∃ full, keyset.Answer rows c full ∧ page = (full.take size).map keyset.emit ∧
    more = decide (size < full.length) ∧ c' = keyset.next c (full.take size)

/-- The rows there are to read. -/
def all (rows : List α) : List α := rows.filter (keyset.select none)

/-- At every page boundary the cursor of the row before it selects the rows after it. -/
def Separates (rows : List α) (size : ℕ) : Prop :=
  ∀ A x D, (A ++ x :: D).Perm (keyset.all rows) → keyset.Sorted (A ++ x :: D) → D ≠ [] →
    size ∣ A.length + 1 →
    ∃ c, keyset.cursor x = some c ∧ (rows.filter (keyset.select (some c))).Perm D

/-! ## Sorted lists -/

variable {keyset}

/-- Every list can be sorted. -/
theorem exists_sorted (keyset : Keyset α β C K) (l : List α) :
    ∃ full, full.Perm l ∧ keyset.Sorted full := by
  refine ⟨l.mergeSort fun x y => decide (keyset.rank x ≤ keyset.rank y), mergeSort_perm l _, ?_⟩
  have hsorted : (l.mergeSort fun x y => decide (keyset.rank x ≤ keyset.rank y)).Pairwise
      fun x y => decide (keyset.rank x ≤ keyset.rank y) = true := pairwise_mergeSort
    (fun x y z hxy hyz => by
      rw [decide_eq_true_eq] at hxy hyz ⊢
      exact le_trans hxy hyz)
    (fun x y => by
      rw [Bool.or_eq_true, decide_eq_true_eq, decide_eq_true_eq]
      exact le_total _ _) l
  exact hsorted.imp fun h => of_decide_eq_true h

/-- There is always an answer. -/
theorem exists_answer (keyset : Keyset α β C K) (rows : List α) (c : Option C) :
    ∃ full, keyset.Answer rows c full :=
  keyset.exists_sorted _

/-- What comes after a sorted list may be sorted anew. -/
theorem Sorted.append_congr {A D D' : List α} (h : keyset.Sorted (A ++ D)) (hperm : D'.Perm D)
    (hsorted : keyset.Sorted D') : keyset.Sorted (A ++ D') := by
  rw [Sorted, pairwise_append] at h ⊢
  refine ⟨h.1, hsorted, ?_⟩
  intro x hx y hy
  exact h.2.2 x hx y (hperm.subset hy)

/-- The first elements, with the last of them by name. -/
theorem exists_take_eq {l : List α} {n : ℕ} (hn : 0 < n) (hlen : n ≤ l.length) :
    ∃ A x, l.take n = A ++ [x] ∧ A.length + 1 = n ∧ l = A ++ x :: l.drop n := by
  rcases eq_nil_or_concat (l.take n) with hnil | ⟨A, x, htake⟩
  · have hzero := congrArg List.length hnil
    rw [length_take_of_le hlen, length_nil] at hzero
    omega
  · rw [concat_eq_append] at htake
    refine ⟨A, x, htake, ?_, ?_⟩
    · have hlength := congrArg List.length htake
      rw [length_take_of_le hlen, length_append, length_singleton] at hlength
      exact hlength.symm
    · calc l = l.take n ++ l.drop n := (take_append_drop n l).symm
        _ = A ++ x :: l.drop n := by rw [htake, append_assoc, singleton_append]

omit [LinearOrder K] in
/-- The cursor after a page with a last row. -/
@[simp] theorem next_append_singleton (c : Option C) (A : List α) (x : α) :
    keyset.next c (A ++ [x]) = keyset.cursor x := by
  rw [next, getLast?_append, getLast?_singleton]
  rfl

/-! ## Separated boundaries -/

section separated

variable {rows : List α} {size : ℕ} {c : Option C}

/-- The pages so far end at a boundary, and the cursor selects the rows after it. -/
def Aligned (keyset : Keyset α β C K) (rows : List α) (size : ℕ) (c : Option C) (D : List α) :
    Prop :=
  (rows.filter (keyset.select c)).Perm D ∧ ∃ A, (A ++ D).Perm (keyset.all rows) ∧
    keyset.Sorted (A ++ D) ∧ size ∣ A.length

/-- The beginning is such a boundary. -/
theorem exists_aligned (keyset : Keyset α β C K) (rows : List α) (size : ℕ) :
    ∃ D, D.Perm (keyset.all rows) ∧ keyset.Aligned rows size none D := by
  obtain ⟨D, hperm, hsorted⟩ := keyset.exists_sorted (keyset.all rows)
  exact ⟨D, hperm, hperm.symm, [], hperm, hsorted, Nat.dvd_zero size⟩

/-- **One page leads to the next boundary.** -/
theorem Aligned.next (hsize : 0 < size) (hseparates : keyset.Separates rows size) {D full : List α}
    (h : keyset.Aligned rows size c D) (hfull : keyset.Answer rows c full)
    (hmore : size < full.length) :
    keyset.Aligned rows size (keyset.next c (full.take size)) (full.drop size) := by
  obtain ⟨hfilter, A, hperm, hsorted, hdvd⟩ := h
  have hfullD : full.Perm D := hfull.1.trans hfilter
  obtain ⟨B, x, htake, hlen, hsplit⟩ := exists_take_eq hsize hmore.le
  have hall : ((A ++ B) ++ x :: full.drop size).Perm (keyset.all rows) := by
    rw [append_assoc, ← hsplit]
    exact (hfullD.append_left A).trans hperm
  have hallSorted : keyset.Sorted ((A ++ B) ++ x :: full.drop size) := by
    rw [append_assoc, ← hsplit]
    exact hsorted.append_congr hfullD hfull.2
  have hdvd' : size ∣ (A ++ B).length + 1 := by
    rw [length_append, Nat.add_assoc, hlen]
    exact (Nat.dvd_add_right hdvd).mpr (Nat.dvd_refl size)
  have hrest : full.drop size ≠ [] := by
    rw [Ne, drop_eq_nil_iff, not_le]
    exact hmore
  obtain ⟨c', hcursor, hselect⟩ := hseparates _ x _ hall hallSorted hrest hdvd'
  rw [htake, next_append_singleton, hcursor]
  refine ⟨hselect, (A ++ B) ++ [x], ?_, ?_, ?_⟩
  · rwa [append_assoc, singleton_append]
  · rwa [append_assoc, singleton_append]
  · rwa [length_append, length_singleton]

/-- **Separated boundaries lose nothing.** -/
theorem lossless_of_separates (hsize : 0 < size) (h : keyset.Separates rows size) :
    Lossless (keyset.step rows size) none ((keyset.all rows).map keyset.emit) := by
  have hinv : ∀ D, keyset.Aligned rows size none D →
      Lossless (keyset.step rows size) none (D.map keyset.emit) := by
    intro D hD
    refine lossless_of_invariant
      (fun c rest => ∃ D, rest = D.map keyset.emit ∧ keyset.Aligned rows size c D) ?_ ?_ ?_
      ⟨D, rfl, hD⟩
    · rintro c _ -
      obtain ⟨full, hfull⟩ := keyset.exists_answer rows c
      exact ⟨_, _, _, full, hfull, rfl, rfl, rfl⟩
    · rintro c _ page c' ⟨D, rfl, hD⟩ ⟨full, hfull, rfl, hmore, -⟩
      have hlen : full.length ≤ size := by simpa using hmore.symm
      rw [take_of_length_le hlen]
      exact (hfull.1.trans hD.1).map _
    · rintro c _ page c' ⟨D, rfl, hD⟩ ⟨full, hfull, rfl, hmore, rfl⟩
      have hlen : size < full.length := by simpa using hmore.symm
      have hperm : full.Perm D := hfull.1.trans hD.1
      refine ⟨(full.drop size).map keyset.emit, ?_, ?_, _, rfl, hD.next hsize h hfull hlen⟩
      · rw [← map_append, take_append_drop]
        exact (hperm.map _).symm
      · rw [length_map, length_map, length_drop, ← hperm.length_eq]
        omega
  obtain ⟨D, hperm, hD⟩ := exists_aligned keyset rows size
  exact (hinv D hD).congr (hperm.map _)

/-- The pages from a boundary on. -/
theorem Aligned.endsWithin_iff (hsize : 0 < size) (hseparates : keyset.Separates rows size) (n : ℕ)
    {D : List α} (h : keyset.Aligned rows size c D) :
    EndsWithin (keyset.step rows size) (n + 1) c ↔ D.length ≤ (n + 1) * size := by
  induction n generalizing c D with
  | zero =>
    rw [Nat.zero_add, Nat.one_mul]
    constructor
    · rintro ⟨-, hnext⟩
      obtain ⟨full, hfull⟩ := keyset.exists_answer rows c
      rw [← (hfull.1.trans h.1).length_eq, ← not_lt]
      intro hmore
      exact hnext _ _ ⟨full, hfull, rfl, (decide_eq_true hmore).symm, rfl⟩
    · intro hlen
      obtain ⟨full, hfull⟩ := keyset.exists_answer rows c
      refine ⟨⟨_, _, _, full, hfull, rfl, rfl, rfl⟩, ?_⟩
      rintro page c' ⟨full', hfull', -, hmore, -⟩
      have hlong := of_decide_eq_true hmore.symm
      rw [(hfull'.1.trans h.1).length_eq] at hlong
      exact absurd hlen (not_le.mpr hlong)
  | succ n ih =>
    have hrest : ∀ full, keyset.Answer rows c full → size < full.length →
        (EndsWithin (keyset.step rows size) (n + 1) (keyset.next c (full.take size)) ↔
          D.length ≤ (n + 1 + 1) * size) := by
      intro full hfull hmore
      rw [ih (h.next hsize hseparates hfull hmore), length_drop,
        (hfull.1.trans h.1).length_eq, Nat.succ_mul (n + 1)]
      omega
    constructor
    · rintro ⟨-, hnext⟩
      obtain ⟨full, hfull⟩ := keyset.exists_answer rows c
      rcases lt_or_ge size full.length with hmore | hshort
      · refine (hrest full hfull hmore).mp ?_
        exact hnext _ _ ⟨full, hfull, rfl, (decide_eq_true hmore).symm, rfl⟩
      · rw [← (hfull.1.trans h.1).length_eq]
        exact hshort.trans (Nat.le_mul_of_pos_left size (Nat.succ_pos _))
    · intro hlen
      obtain ⟨full, hfull⟩ := keyset.exists_answer rows c
      refine ⟨⟨_, _, _, full, hfull, rfl, rfl, rfl⟩, ?_⟩
      rintro page c' ⟨full', hfull', -, hmore, rfl⟩
      exact (hrest full' hfull' (of_decide_eq_true hmore.symm)).mpr hlen

/-- **The number of pages** of a reader with separated boundaries. -/
theorem endsWithin_iff (hsize : 0 < size) (hseparates : keyset.Separates rows size) {n : ℕ}
    (hn : 0 < n) :
    EndsWithin (keyset.step rows size) n none ↔ (keyset.all rows).length ≤ n * size := by
  obtain ⟨n, rfl⟩ := Nat.exists_eq_succ_of_ne_zero hn.ne'
  obtain ⟨D, hperm, hD⟩ := exists_aligned keyset rows size
  rw [← hperm.length_eq]
  exact hD.endsWithin_iff hsize hseparates n

omit [LinearOrder K] in
/-- The last row of a page, or the cursor as it was. -/
theorem next_eq (keyset : Keyset α β C K) (c : Option C) (page : List α) :
    keyset.next c page = c ∨ ∃ x ∈ page, keyset.next c page = keyset.cursor x := by
  unfold next
  cases hlast : page.getLast? with
  | none => exact .inl rfl
  | some x => exact .inr ⟨x, mem_of_getLast? hlast, rfl⟩

/-- **What an iteration can come to**: where a cursor selects all that is after its row, every row
that the first query selects is returned by some iteration. -/
theorem exists_reads_mem
    (hforward : ∀ x c' y, x ∈ rows → y ∈ keyset.all rows → keyset.cursor x = some c' →
      keyset.rank x < keyset.rank y → keyset.select (some c') y = true)
    (hends : Ends (keyset.step rows size) c) {y : α} (hall : y ∈ keyset.all rows)
    (hy : y ∈ rows.filter (keyset.select c)) :
    ∃ pages, Reads (keyset.step rows size) c pages ∧ keyset.emit y ∈ pages.flatten := by
  induction hends with
  | @intro c answered next ih =>
    classical
    -- an answer with the row before all others that have its key
    let isBefore : α → Bool := fun x => keyset.rank x < keyset.rank y
    let G := rows.filter (keyset.select c)
    have hynot : y ∈ G.filter fun x => !isBefore x :=
      mem_filter.mpr ⟨hy, by simp [isBefore]⟩
    obtain ⟨A, hA, hAsorted⟩ := keyset.exists_sorted (G.filter isBefore)
    obtain ⟨B, hB, hBsorted⟩ := keyset.exists_sorted ((G.filter fun x => !isBefore x).erase y)
    have hAlt : ∀ x ∈ A, x ∈ rows ∧ keyset.rank x < keyset.rank y := by
      intro x hx
      obtain ⟨hxG, hbefore⟩ := mem_filter.mp (hA.subset hx)
      exact ⟨(mem_filter.mp hxG).1, of_decide_eq_true hbefore⟩
    have hBge : ∀ x ∈ y :: B, keyset.rank y ≤ keyset.rank x := by
      intro x hx
      rcases mem_cons.mp hx with rfl | hx
      · exact le_refl _
      · have hnot := (mem_filter.mp (mem_of_mem_erase (hB.subset hx))).2
        simpa [isBefore] using hnot
    have hfull : keyset.Answer rows c (A ++ y :: B) := by
      constructor
      · have hyB := (hB.cons y).trans (perm_cons_erase hynot).symm
        exact (hA.append hyB).trans (filter_append_perm isBefore G)
      · rw [Sorted, pairwise_append, pairwise_cons]
        refine ⟨hAsorted, ⟨fun x hx => hBge x (mem_cons_of_mem y hx), hBsorted⟩, ?_⟩
        intro x hx z hz
        exact (hAlt x hx).2.le.trans (hBge z hz)
    have hstep : keyset.step rows size c (((A ++ y :: B).take size).map keyset.emit)
        (decide (size < (A ++ y :: B).length)) (keyset.next c ((A ++ y :: B).take size)) :=
      ⟨_, hfull, rfl, rfl, rfl⟩
    rcases lt_or_ge A.length size with hfits | hlong
    · obtain ⟨pages, hpages⟩ := Ends.exists_reads_of_step (.intro answered next) hstep
      refine ⟨_, hpages, ?_⟩
      rw [flatten_cons, mem_append]
      refine .inl (mem_map_of_mem ?_)
      rw [take_append, mem_append]
      obtain ⟨n, hn⟩ := Nat.exists_eq_succ_of_ne_zero (Nat.sub_ne_zero_of_lt hfits)
      rw [hn, take_succ_cons]
      exact .inr mem_cons_self
    · have hmore : size < (A ++ y :: B).length := by
        rw [length_append, length_cons]
        omega
      rw [decide_eq_true hmore, take_append_of_le_length hlong] at hstep
      have hynext : y ∈ rows.filter (keyset.select (keyset.next c (A.take size))) := by
        rcases keyset.next_eq c (A.take size) with hsame | ⟨x, hx, hnext⟩
        · rw [hsame]
          exact hy
        · obtain ⟨hxrows, hlt⟩ := hAlt x (mem_of_mem_take hx)
          rw [hnext]
          cases hcursor : keyset.cursor x with
          | none => exact hall
          | some c' =>
            have hyrows := (mem_filter.mp hy).1
            exact mem_filter.mpr ⟨hyrows, hforward x c' y hxrows hall hcursor hlt⟩
      obtain ⟨pages, hpages, hmem⟩ := ih _ _ hstep hynext
      refine ⟨_, .more hstep hpages, ?_⟩
      rw [flatten_cons]
      exact mem_append_right _ hmem

end separated

/-! ## Nothing lost: the boundaries are separated -/

/-- A cursor reached from another one selects less than it, and rows that look alike are alike. -/
structure Regular (keyset : Keyset α β C K) (rows : List α) : Prop where
  narrows : ∀ c x c' y, x ∈ rows → y ∈ rows → keyset.select c x → keyset.cursor x = some c' →
    keyset.select (some c') y → keyset.select c y
  rank : ∀ x y, x ∈ rows → y ∈ rows → keyset.emit x = keyset.emit y → keyset.rank x = keyset.rank y
  cursor : ∀ x y, x ∈ rows → y ∈ rows → keyset.emit x = keyset.emit y →
    keyset.cursor x = keyset.cursor y
  select : ∀ c x y, x ∈ rows → y ∈ rows → keyset.emit x = keyset.emit y →
    keyset.select c x = keyset.select c y

section regular

variable {rows : List α} {size : ℕ}

/-- Only rows that the first query selects are returned. -/
theorem mem_all_of_reads (hregular : keyset.Regular rows) {pages : List (List β)}
    (h : Reads (keyset.step rows size) none pages) :
    ∀ y ∈ pages.flatten, ∃ x ∈ keyset.all rows, keyset.emit x = y := by
  refine h.forall_mem (I := fun c => ∀ x ∈ rows, keyset.select c x → keyset.select none x) ?_
    fun _ _ hx => hx
  rintro c page more c' hc ⟨full, hfull, rfl, -, rfl⟩
  have hpage : ∀ x ∈ full.take size, x ∈ rows ∧ keyset.select c x = true := fun x hx =>
    mem_filter.mp (hfull.1.subset (mem_of_mem_take hx))
  constructor
  · intro y hy
    obtain ⟨x, hx, rfl⟩ := mem_map.mp hy
    obtain ⟨hrows, hselect⟩ := hpage x hx
    exact ⟨x, mem_filter.mpr ⟨hrows, hc x hrows hselect⟩, rfl⟩
  · rcases keyset.next_eq c (full.take size) with hsame | ⟨x, hx, hnext⟩
    · rw [hsame]
      exact hc
    · rw [hnext]
      obtain ⟨hrows, hselect⟩ := hpage x hx
      cases hcursor : keyset.cursor x with
      | none => exact fun _ _ hy => hy
      | some c' =>
        intro y hy hselecty
        exact hc y hy (hregular.narrows c x c' y hrows hy hselect hcursor hselecty)

/-- An iteration that is too short for all rows returns rows its cursor selects. -/
theorem selected_of_reads (hregular : keyset.Regular rows)
    (hall : Lossless (keyset.step rows size) none ((keyset.all rows).map keyset.emit))
    (hsize : 0 < size) {c : Option C} {pages : List (List β)}
    (h : Reads (keyset.step rows size) c pages)
    (hlen : pages.flatten.length < (keyset.all rows).length) :
    ∀ b ∈ pages.flatten, ∃ y ∈ rows, keyset.select c y ∧ keyset.emit y = b := by
  have hpage : ∀ {c full}, keyset.Answer rows c full → ∀ b ∈ (full.take size).map keyset.emit,
      ∃ y ∈ rows, keyset.select c y ∧ keyset.emit y = b := by
    intro c full hfull b hb
    obtain ⟨y, hy, rfl⟩ := mem_map.mp hb
    have hmem := mem_filter.mp (hfull.1.subset (mem_of_mem_take hy))
    exact ⟨y, hmem.1, hmem.2, rfl⟩
  induction h with
  | last hstep =>
    obtain ⟨full, hfull, rfl, -, -⟩ := hstep
    rw [flatten_singleton]
    exact hpage hfull
  | @more c c' page pages hstep hrest ih =>
    rw [flatten_cons, length_append] at hlen
    obtain ⟨full, hfull, rfl, hmore, hc'⟩ := hstep
    have hlong : size < full.length := by simpa using hmore.symm
    obtain ⟨A, x, htake, -, hsplit⟩ := exists_take_eq hsize hlong.le
    rw [htake, next_append_singleton] at hc'
    have hx := mem_filter.mp (hfull.1.subset (hsplit ▸ mem_append_cons_self))
    intro b hb
    rw [flatten_cons, mem_append] at hb
    rcases hb with hb | hb
    · exact hpage hfull b hb
    · obtain ⟨y, hy, hselect, rfl⟩ := ih (by omega) b hb
      refine ⟨y, hy, ?_, rfl⟩
      cases c' with
      | none =>
        -- a run that starts again returns all rows
        have hfrom := (hall.complete pages hrest).length_eq
        rw [length_map] at hfrom
        omega
      | some c'' => exact hregular.narrows c x c'' y hx.1 hy hx.2 hc'.symm hselect

/-- The row `x` is the last of a page, the rows `D` are still to come, and nothing is lost. -/
structure Boundary (keyset : Keyset α β C K) (rows : List α) (size : ℕ) (c : Option C)
    (A : List α) (x : α) (D : List α) : Prop where
  answer : keyset.Answer rows c (A ++ x :: D)
  length : A.length + 1 = size
  rest : D ≠ []
  short : D.length < (keyset.all rows).length
  lossless : Lossless (keyset.step rows size) c ((A ++ x :: D).map keyset.emit)

section boundary

variable {c : Option C} {c' : C} {A D : List α} {x : α}

namespace Boundary

variable (h : keyset.Boundary rows size c A x D)

include h

/-- The rows of the page and the rows after it. -/
theorem take_drop : (A ++ x :: D).take size = A ++ [x] ∧ (A ++ x :: D).drop size = D := by
  have hsplit : A ++ x :: D = (A ++ [x]) ++ D := by rw [append_assoc, singleton_append]
  have hlen : (A ++ [x]).length = size := by
    rw [length_append, length_singleton]
    exact h.length
  rw [hsplit, ← hlen]
  exact ⟨take_left, drop_left⟩

/-- The page is read. -/
theorem step : keyset.step rows size c ((A ++ [x]).map keyset.emit) true (keyset.cursor x) := by
  refine ⟨A ++ x :: D, h.answer, ?_, ?_, ?_⟩
  · rw [h.take_drop.1]
  · have hpos := length_pos_iff.mpr h.rest
    symm
    rw [decide_eq_true_eq, length_append, length_cons, ← h.length]
    omega
  · rw [h.take_drop.1, next_append_singleton]

/-- The rest is read from the cursor of the row. -/
theorem lossless_rest : Lossless (keyset.step rows size) (keyset.cursor x) (D.map keyset.emit) := by
  refine h.lossless.next h.step (List.Perm.of_eq ?_)
  rw [← map_append, append_assoc, singleton_append]

theorem mem_rows {y : α} (hy : y ∈ A ++ x :: D) : y ∈ rows ∧ keyset.select c y = true :=
  mem_filter.mp (h.answer.1.subset hy)

/-- The row leaves a cursor: without one everything is read again. -/
theorem exists_cursor
    (hall : Lossless (keyset.step rows size) none ((keyset.all rows).map keyset.emit)) :
    ∃ c', keyset.cursor x = some c' := by
  cases hcursor : keyset.cursor x with
  | some c' => exact ⟨c', rfl⟩
  | none =>
    have hrest := h.lossless_rest
    rw [hcursor] at hrest
    obtain ⟨pages, hpages⟩ := hall.ends.exists_reads
    have hlength :=
      ((hall.complete pages hpages).symm.trans (hrest.complete pages hpages)).length_eq
    rw [length_map, length_map] at hlength
    exact absurd h.short (by omega)

/-- An iteration from the cursor of the row whose first page comes from a given answer. -/
theorem exists_reads {full : List α} (hfull : keyset.Answer rows (keyset.cursor x) full) :
    ∃ pages, ((full.take size).map keyset.emit ++ pages).Perm (D.map keyset.emit) := by
  obtain ⟨pages, hpages⟩ := h.lossless_rest.ends.exists_reads_of_step ⟨full, hfull, rfl, rfl, rfl⟩
  exact ⟨pages.flatten, h.lossless_rest.complete _ hpages⟩

/-- The cursor selects what is still to come. -/
theorem select_of_mem (hregular : keyset.Regular rows)
    (hall : Lossless (keyset.step rows size) none ((keyset.all rows).map keyset.emit))
    (hsize : 0 < size) (hcursor : keyset.cursor x = some c') {y : α} (hy : y ∈ D) :
    keyset.select (some c') y = true := by
  have hrest := h.lossless_rest
  rw [hcursor] at hrest
  obtain ⟨pages, hpages⟩ := hrest.ends.exists_reads
  have hperm := hrest.complete pages hpages
  have hlen : pages.flatten.length < (keyset.all rows).length := by
    rw [hperm.length_eq, length_map]
    exact h.short
  obtain ⟨y', hy', hselect, hemit⟩ := selected_of_reads hregular hall hsize hpages hlen
    (keyset.emit y) (hperm.symm.subset (mem_map_of_mem hy))
  have hmem := (h.mem_rows (mem_append_right A (mem_cons_of_mem x hy))).1
  rw [hregular.select (some c') y y' hmem hy' hemit.symm]
  exact hselect

/-- What comes first in an answer is still to come. -/
theorem exists_mem_of_head (hsize : 0 < size)
    {e : α} {full : List α} (hfull : keyset.Answer rows (keyset.cursor x) (e :: full)) :
    ∃ e' ∈ D, keyset.emit e' = keyset.emit e := by
  obtain ⟨pages, hpages⟩ := h.exists_reads hfull
  have hhead : keyset.emit e ∈ ((e :: full).take size).map keyset.emit ++ pages := by
    obtain ⟨n, rfl⟩ := Nat.exists_eq_succ_of_ne_zero hsize.ne'
    rw [take_succ_cons, map_cons]
    exact mem_append_left _ mem_cons_self
  exact mem_map.mp (hpages.subset hhead)

/-- Rows still to come are not before the row. -/
theorem rank_le {y : α} (hy : y ∈ D) : keyset.rank x ≤ keyset.rank y := by
  have hsorted := h.answer.2
  rw [Sorted, pairwise_append] at hsorted
  exact (pairwise_cons.mp hsorted.2.1).1 y hy

/-- Rows of the page are not after the row. -/
theorem rank_ge {y : α} (hy : y ∈ A ++ [x]) : keyset.rank y ≤ keyset.rank x := by
  have hsorted := h.answer.2
  rw [Sorted, pairwise_append] at hsorted
  rcases mem_append.mp hy with hy | hy
  · exact hsorted.2.2 y hy x mem_cons_self
  · rw [mem_singleton.mp hy]

/-- The cursor selects nothing before the row. -/
theorem rank_le_of_select (hregular : keyset.Regular rows)
    (hsize : 0 < size) {e : α} (he : e ∈ rows.filter (keyset.select (keyset.cursor x))) :
    keyset.rank x ≤ keyset.rank e := by
  obtain ⟨full, hfull⟩ := keyset.exists_answer rows (keyset.cursor x)
  have hefull := hfull.1.symm.subset he
  cases full with
  | nil => cases hefull
  | cons first full =>
    have hfirst := (mem_filter.mp (hfull.1.subset mem_cons_self)).1
    obtain ⟨e', he', hemit⟩ := h.exists_mem_of_head hsize hfull
    have hmem := (h.mem_rows (mem_append_right A (mem_cons_of_mem x he'))).1
    have hle : keyset.rank x ≤ keyset.rank first := by
      rw [← hregular.rank e' first hmem hfirst hemit]
      exact h.rank_le he'
    rcases mem_cons.mp hefull with rfl | hefull
    · exact hle
    · exact hle.trans ((pairwise_cons.mp hfull.2).1 e hefull)

/-- What the cursor selects and is not after the row is still to come. -/
theorem exists_mem_of_select (hregular : keyset.Regular rows) (hsize : 0 < size) {e : α}
    (he : e ∈ rows.filter (keyset.select (keyset.cursor x)))
    (hrank : keyset.rank e ≤ keyset.rank x) :
    ∃ e' ∈ D, keyset.emit e' = keyset.emit e := by
  classical
  obtain ⟨full, hperm, hsorted⟩ :=
    keyset.exists_sorted ((rows.filter (keyset.select (keyset.cursor x))).erase e)
  have hanswer : keyset.Answer rows (keyset.cursor x) (e :: full) := ?_
  · exact h.exists_mem_of_head hsize hanswer
  refine ⟨(hperm.cons e).trans (perm_cons_erase he).symm, pairwise_cons.mpr ⟨?_, hsorted⟩⟩
  intro y hy
  exact hrank.trans (h.rank_le_of_select hregular hsize (mem_of_mem_erase (hperm.subset hy)))

/-- A row of the page with the key of the last one can be the last one. -/
theorem swap [DecidableEq α] {e : α} (he : e ∈ A ++ [x]) (hrank : keyset.rank x ≤ keyset.rank e) :
    keyset.Boundary rows size c ((A ++ [x]).erase e) e D := by
  have hpage : ((A ++ [x]).erase e ++ [e]).Perm (A ++ [x]) :=
    (perm_append_singleton e _).trans (perm_cons_erase he).symm
  have hperm : ((A ++ [x]).erase e ++ e :: D).Perm (A ++ x :: D) := by
    have h' := hpage.append_right D
    rwa [append_assoc, append_assoc, singleton_append, singleton_append] at h'
  refine ⟨⟨hperm.trans h.answer.1, ?_⟩, ?_, h.rest, h.short, ?_⟩
  · have hsorted := h.answer.2
    have hsplit : A ++ x :: D = (A ++ [x]) ++ D := by rw [append_assoc, singleton_append]
    rw [hsplit, Sorted, pairwise_append] at hsorted
    rw [Sorted, pairwise_append, pairwise_cons]
    refine ⟨hsorted.1.sublist erase_sublist, ⟨?_, hsorted.2.1⟩, ?_⟩
    · intro y hy
      exact (h.rank_ge he).trans (h.rank_le hy)
    · intro y hy z hz
      have hyx := h.rank_ge (mem_of_mem_erase hy)
      rcases mem_cons.mp hz with rfl | hz
      · exact hyx.trans hrank
      · exact hyx.trans (h.rank_le hz)
  · have hlen := hpage.length_eq
    rw [length_append, length_append, length_singleton, length_singleton] at hlen
    rw [hlen]
    exact h.length
  · exact h.lossless.congr (hperm.symm.map _)

/-- **The cursor does not select its own row**: otherwise rows that look like it fill the page and
the cursor stays where it is, or it is returned once too often. -/
theorem not_select_self (hregular : keyset.Regular rows)
    (hsize : 0 < size) (hcursor : keyset.cursor x = some c')
    (hself : keyset.select (some c') x = true) : False := by
  classical
  have hxrows := (h.mem_rows (mem_append_right A mem_cons_self)).1
  let G := rows.filter (keyset.select (keyset.cursor x))
  let twins := G.filter fun y => keyset.emit y = keyset.emit x
  obtain ⟨others, hothers, hothersSorted⟩ :=
    keyset.exists_sorted (G.filter fun y => !decide (keyset.emit y = keyset.emit x))
  have htwin : ∀ y ∈ twins, y ∈ rows ∧ keyset.emit y = keyset.emit x := by
    intro y hy
    obtain ⟨hyG, hemit⟩ := mem_filter.mp hy
    exact ⟨(mem_filter.mp hyG).1, of_decide_eq_true hemit⟩
  have hrank : ∀ y ∈ twins, keyset.rank y = keyset.rank x := fun y hy =>
    hregular.rank y x (htwin y hy).1 hxrows (htwin y hy).2
  -- the twins come first in this answer
  have hfull : keyset.Answer rows (keyset.cursor x) (twins ++ others) := by
    refine ⟨(hothers.append_left twins).trans (filter_append_perm _ G), ?_⟩
    rw [Sorted, pairwise_append]
    refine ⟨?_, hothersSorted, ?_⟩
    · apply pairwise_of_forall_mem_list
      intro y hy z hz
      rw [hrank y hy, hrank z hz]
    · intro y hy z hz
      rw [hrank y hy]
      exact h.rank_le_of_select hregular hsize (mem_filter.mp (hothers.subset hz)).1
  by_cases hmany : size ≤ twins.length ∧ size < (twins ++ others).length
  · obtain ⟨B, z, htake, -, -⟩ := exists_take_eq hsize hmany.1
    have hz : z ∈ twins := mem_of_mem_take (htake ▸ mem_append_right B mem_cons_self)
    have hzcursor : keyset.cursor z = keyset.cursor x :=
      hregular.cursor z x (htwin z hz).1 hxrows (htwin z hz).2
    apply h.lossless_rest.ends.not_loop ((B ++ [z]).map keyset.emit)
    refine ⟨twins ++ others, hfull, ?_, ?_, ?_⟩
    · rw [take_append_of_le_length hmany.1, htake]
    · exact (decide_eq_true hmany.2).symm
    · rw [take_append_of_le_length hmany.1, htake, next_append_singleton, hzcursor]
  · have hsub : twins.Sublist ((twins ++ others).take size) := by
      rw [not_and_or, not_le, not_lt] at hmany
      rcases hmany with hfew | hshort
      · rw [take_append, take_of_length_le hfew.le]
        exact sublist_append_left _ _
      · rw [take_of_length_le hshort]
        exact sublist_append_left _ _
    obtain ⟨pages, hpages⟩ := h.exists_reads hfull
    have hreturned : twins.length ≤ (D.map keyset.emit).count (keyset.emit x) := by
      rw [← hpages.count_eq, count_append]
      have hcount : ((twins.map keyset.emit).count (keyset.emit x)) = twins.length := by
        rw [count_eq_length.mpr, length_map]
        intro b hb
        obtain ⟨y, hy, rfl⟩ := mem_map.mp hb
        exact (htwin y hy).2.symm
      have hle := (hsub.map keyset.emit).count_le (keyset.emit x)
      omega
    -- all rows that look like it are selected, one of them is on the page
    have htwins : twins.length = (rows.map keyset.emit).count (keyset.emit x) := by
      have hG : twins = rows.filter fun y => keyset.emit y = keyset.emit x := by
        show (rows.filter (keyset.select (keyset.cursor x))).filter _ = _
        rw [filter_filter]
        apply filter_congr
        intro y hy
        by_cases hemit : keyset.emit y = keyset.emit x
        · have hselect : keyset.select (keyset.cursor x) y = true := by
            rw [hcursor, hregular.select (some c') y x hy hxrows hemit]
            exact hself
          simp [hemit, hselect]
        · simp [hemit]
      rw [hG, List.count, countP_map, countP_eq_length_filter]
      rfl
    have hpage : ((A ++ x :: D).map keyset.emit).count (keyset.emit x) ≤
        (rows.map keyset.emit).count (keyset.emit x) := by
      rw [(h.answer.1.map keyset.emit).count_eq]
      exact (filter_sublist.map _).count_le _
    rw [map_append, map_cons, count_append, count_cons_self] at hpage
    omega

/-- The cursor selects no row of the page. -/
theorem not_mem_page (hregular : keyset.Regular rows)
    (hall : Lossless (keyset.step rows size) none ((keyset.all rows).map keyset.emit))
    (hsize : 0 < size) {e : α} (he : e ∈ rows.filter (keyset.select (keyset.cursor x))) :
    e ∉ A ++ [x] := by
  classical
  intro hpage
  have hrank := h.rank_le_of_select hregular hsize he
  obtain ⟨e', he', hemit⟩ := h.exists_mem_of_select hregular hsize he (h.rank_ge hpage)
  have hswap := h.swap hpage hrank
  obtain ⟨c₂, hc₂⟩ := hswap.exists_cursor hall
  have hselect := hswap.select_of_mem hregular hall hsize hc₂ he'
  have he'rows := (h.mem_rows (mem_append_right A (mem_cons_of_mem x he'))).1
  rw [hregular.select (some c₂) e' e he'rows (mem_filter.mp he).1 hemit] at hselect
  exact hswap.not_select_self hregular hsize hc₂ hselect

/-- **The cursor of the last row selects exactly the rows still to come.** -/
theorem separates (hregular : keyset.Regular rows)
    (hall : Lossless (keyset.step rows size) none ((keyset.all rows).map keyset.emit))
    (hsize : 0 < size) :
    ∃ c', keyset.cursor x = some c' ∧ (rows.filter (keyset.select (some c'))).Perm D := by
  classical
  obtain ⟨c', hcursor⟩ := h.exists_cursor hall
  refine ⟨c', hcursor, perm_iff_count.mpr ?_⟩
  intro e
  by_cases he : e ∈ rows.filter (keyset.select (some c'))
  · obtain ⟨herows, heselect⟩ := mem_filter.mp he
    have hx := h.mem_rows (mem_append_right A mem_cons_self)
    have hec := hregular.narrows c x c' e hx.1 herows hx.2 hcursor heselect
    have hpage := h.not_mem_page hregular hall hsize (hcursor ▸ he)
    calc (rows.filter (keyset.select (some c'))).count e
        = rows.count e := count_filter heselect
      _ = (rows.filter (keyset.select c)).count e := (count_filter hec).symm
      _ = (A ++ x :: D).count e := (h.answer.1.count_eq e).symm
      _ = ((A ++ [x]) ++ D).count e := by rw [append_assoc, singleton_append]
      _ = D.count e := by
          rw [count_append, count_eq_zero.mpr hpage, Nat.zero_add]
  · have heD : e ∉ D := by
      intro heD
      have herows := (h.mem_rows (mem_append_right A (mem_cons_of_mem x heD))).1
      exact he (mem_filter.mpr ⟨herows, h.select_of_mem hregular hall hsize hcursor heD⟩)
    rw [count_eq_zero.mpr he, count_eq_zero.mpr heD]

end Boundary

end boundary

/-- In every arrangement of the rows, at each page boundary the rest is an answer to the cursor the
iteration is at, and it is read without loss. -/
theorem exists_lossless_drop (hregular : keyset.Regular rows)
    (hall : Lossless (keyset.step rows size) none ((keyset.all rows).map keyset.emit))
    (hsize : 0 < size) {full : List α} (hfull : keyset.Answer rows none full) (j : ℕ)
    (hj : j * size < full.length) :
    ∃ c, keyset.Answer rows c (full.drop (j * size)) ∧
      Lossless (keyset.step rows size) c ((full.drop (j * size)).map keyset.emit) ∧
      (0 < j → ∃ A x, full = A ++ x :: full.drop (j * size) ∧ keyset.cursor x = c ∧
        c.isSome = true) := by
  induction j with
  | zero =>
    rw [Nat.zero_mul, drop_zero]
    exact ⟨none, hfull, hall.congr (hfull.1.map _).symm, fun h => absurd h (lt_irrefl 0)⟩
  | succ j ih =>
    rw [Nat.succ_mul] at hj
    obtain ⟨c, hanswer, hlossless, -⟩ := ih (by omega)
    have hlong : size < (full.drop (j * size)).length := by
      rw [length_drop]
      omega
    obtain ⟨A, x, -, hlen, hsplit⟩ := exists_take_eq hsize hlong.le
    rw [drop_drop, ← Nat.succ_mul] at hsplit
    rw [hsplit] at hanswer hlossless
    have hrest : full.drop (j.succ * size) ≠ [] := by
      rw [Ne, drop_eq_nil_iff, not_le, Nat.succ_mul]
      exact hj
    have hshort : (full.drop (j.succ * size)).length < (keyset.all rows).length := by
      have hlength : full.length = (keyset.all rows).length := hfull.1.length_eq
      rw [length_drop, ← hlength, Nat.succ_mul]
      omega
    have hboundary : keyset.Boundary rows size c A x (full.drop (j.succ * size)) :=
      ⟨hanswer, hlen, hrest, hshort, hlossless⟩
    obtain ⟨c', hcursor, hselect⟩ := hboundary.separates hregular hall hsize
    have hsorted := hfull.2.sublist (drop_sublist (j.succ * size) full)
    refine ⟨some c', ⟨hselect.symm, hsorted⟩, hcursor ▸ hboundary.lossless_rest, fun _ => ?_⟩
    refine ⟨full.take (j * size) ++ A, x, ?_, hcursor, rfl⟩
    rw [append_assoc, ← hsplit, take_append_drop]

/-- **Nothing is lost only if the boundaries are separated.** -/
theorem separates_of_lossless (hregular : keyset.Regular rows) (hsize : 0 < size)
    (hall : Lossless (keyset.step rows size) none ((keyset.all rows).map keyset.emit)) :
    keyset.Separates rows size := by
  intro A x D hperm hsorted hrest hdvd
  obtain ⟨j, hj⟩ := hdvd
  rw [Nat.mul_comm] at hj
  have hdrop : (A ++ x :: D).drop (j * size) = D := by
    have hsplit : A ++ x :: D = (A ++ [x]) ++ D := by rw [append_assoc, singleton_append]
    have hlen : (A ++ [x]).length = j * size := by
      rw [length_append, length_singleton, hj]
    rw [hsplit, ← hlen, drop_left]
  have hlt : j * size < (A ++ x :: D).length := by
    have hpos := length_pos_iff.mpr hrest
    rw [length_append, length_cons]
    omega
  obtain ⟨c, hanswer, -, hcursor⟩ := exists_lossless_drop hregular hall hsize ⟨hperm, hsorted⟩ j hlt
  obtain ⟨A', x', hsplit, hx', hsome⟩ := hcursor (Nat.pos_of_ne_zero fun hzero => by
    rw [hzero, Nat.zero_mul] at hj
    omega)
  rw [hdrop] at hanswer hsplit
  obtain ⟨-, hxx⟩ := append_inj' hsplit rfl
  rw [← (cons.inj hxx).1] at hx'
  obtain ⟨c', rfl⟩ := Option.isSome_iff_exists.mp hsome
  exact ⟨c', hx', hanswer.1.symm⟩

/-- **Nothing is lost or repeated iff the boundaries are separated.** -/
theorem lossless_iff_separates (hregular : keyset.Regular rows) (hsize : 0 < size) :
    Lossless (keyset.step rows size) none ((keyset.all rows).map keyset.emit) ↔
      keyset.Separates rows size :=
  ⟨separates_of_lossless hregular hsize, lossless_of_separates hsize⟩

end regular

end Keyset

end Dataflow.Library.Paging
