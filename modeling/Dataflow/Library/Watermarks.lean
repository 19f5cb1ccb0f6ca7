import Dataflow.Library.Paging

/-!
# Feeds that are read from a watermark

A feed has finitely many records in a fixed order, each with a stamp. It is asked for the records
from a watermark on, a page at a time. The reader makes its watermark for the next page from the
page it has got, and keeps its position: so the feed selects other records, and the position may
mean another record.

* `Feed`, `Position`, `Feed.remaining`: the records that are still to come at a watermark and a
  position, which is a number of selected records or a place in the order.
* `Reader`, `pageStep`: the paged reading, as a `PageStep`.
* `length_remaining_le`: a page and what comes after it is no more than there was.
* `Steady`: while there is more to come, the watermark passes over nothing, and the reader goes on.
* **`lossless_iff_steady`**: the reading returns what is to come, each record once, iff it is
  steady.
* `mark_of_readsTo`: the watermark it leaves is that of the last page.
-/

namespace Dataflow.Library.Watermarks

open Library.Paging List

/-! ## Feeds -/

/-- A feed: its records in order, their stamps, the order of the stamps, and the size of a page. -/
structure Feed (α W : Type*) where
  records : List α
  stamp : α → W
  le : W → W → Bool
  total : ∀ a b, le a b = true ∨ le b a = true
  trans : ∀ a b c, le a b = true → le b c = true → le a c = true
  size : ℕ
  size_pos : 0 < size

/-- What a position means: a number of the records that are selected, or a place in the order of
all. -/
inductive Position where
  | count
  | place
  deriving DecidableEq

variable {α W : Type*}

/-- How many elements there are up to the `k`-th one with a property. -/
def passed (p : α → Bool) : ℕ → List α → ℕ
  | 0, _ => 0
  | _ + 1, [] => 0
  | k + 1, x :: xs => (if p x then passed p k xs else passed p (k + 1) xs) + 1

/-- After these elements come the others with the property. -/
theorem filter_drop_passed (p : α → Bool) (k : ℕ) (xs : List α) :
    (xs.drop (passed p k xs)).filter p = (xs.filter p).drop k := by
  induction xs generalizing k with
  | nil => cases k <;> rfl
  | cons x xs ih =>
    cases k with
    | zero => rfl
    | succ k =>
      rw [passed, drop_succ_cons]
      split_ifs with hx
      · rw [filter_cons_of_pos hx, drop_succ_cons, ih]
      · rw [filter_cons_of_neg hx, ih]

namespace Feed

variable (feed : Feed α W)

/-- The records from a watermark on. -/
def since (w : W) : List α := feed.records.filter fun x => feed.le w (feed.stamp x)

/-- The records that are still to come. -/
def remaining (position : Position) (w : W) (n : ℕ) : List α :=
  match position with
  | .count => (feed.since w).drop n
  | .place => (feed.records.drop n).filter fun x => feed.le w (feed.stamp x)

/-- The next page. -/
def page (position : Position) (w : W) (n : ℕ) : List α :=
  (feed.remaining position w n).take feed.size

/-- What comes after the next page. -/
def rest (position : Position) (w : W) (n : ℕ) : List α :=
  (feed.remaining position w n).drop feed.size

/-- The position `n'` is after the next page. Where the page is not full, a number may be too
large. -/
def Follows (position : Position) (w : W) (n n' : ℕ) : Prop :=
  match position with
  | .count => n + (feed.page .count w n).length ≤ n' ∧
      ((feed.page .count w n).length = feed.size → n' = n + feed.size)
  | .place =>
    (feed.records.drop n').filter (fun x => feed.le w (feed.stamp x)) = feed.rest .place w n

/-- The records that the next watermark must not pass over: all that are counted, or those to
come. -/
def scope (position : Position) (w : W) (rest : List α) : List α :=
  match position with
  | .count => feed.since w
  | .place => rest

end Feed

/-- A reader: its next watermark after a page, whether it goes on, and its next position. -/
structure Reader (feed : Feed α W) (position : Position) where
  mark : List α → W → W
  goesOn : (page rest : List α) → Bool
  next : W → ℕ → ℕ
  mark_nil : ∀ w, mark [] w = w
  mark_mem : ∀ page w, page ⊆ feed.records → page ≠ [] → ∃ x ∈ page, mark page w = feed.stamp x
  mark_congr : ∀ page w w', page ⊆ feed.records → page ≠ [] → mark page w = mark page w'
  follows : ∀ w n, feed.Follows position w n (next w n)

variable {feed : Feed α W} {position : Position}

/-- Where the reader is after a page; after the last one it is back at the start. -/
def Reader.after (reader : Reader feed position) (w : W) (n : ℕ) : W × ℕ :=
  (reader.mark (feed.page position w n) w,
    if reader.goesOn (feed.page position w n) (feed.rest position w n) then reader.next w n else 0)

/-- A page, at a watermark and a position. -/
def pageStep (reader : Reader feed position) : PageStep (W × ℕ) α := fun c page more c' =>
  page = feed.page position c.1 c.2 ∧
    more = reader.goesOn (feed.page position c.1 c.2) (feed.rest position c.1 c.2) ∧
      c' = reader.after c.1 c.2

/-! ## One page -/

section page

variable {reader : Reader feed position} {w w' : W} {n n' : ℕ}

theorem page_append_rest (feed : Feed α W) (position : Position) (w : W) (n : ℕ) :
    feed.page position w n ++ feed.rest position w n = feed.remaining position w n :=
  take_append_drop _ _

theorem length_page (feed : Feed α W) (position : Position) (w : W) (n : ℕ) :
    (feed.page position w n).length = min feed.size (feed.remaining position w n).length :=
  length_take

theorem length_rest (feed : Feed α W) (position : Position) (w : W) (n : ℕ) :
    (feed.rest position w n).length = (feed.remaining position w n).length - feed.size :=
  length_drop

/-- What is still to come is selected. -/
theorem le_of_mem_remaining {x : α} (h : x ∈ feed.remaining position w n) :
    feed.le w (feed.stamp x) = true := by
  cases position with
  | count => exact (mem_filter.mp (mem_of_mem_drop h)).2
  | place => exact (mem_filter.mp h).2

/-- What is still to come is in the feed. -/
theorem remaining_subset : feed.remaining position w n ⊆ feed.records := by
  cases position with
  | count => exact List.Subset.trans (drop_subset _ _) (filter_subset_self _)
  | place => exact List.Subset.trans (filter_subset_self _) (drop_subset _ _)

theorem page_subset : feed.page position w n ⊆ feed.records :=
  List.Subset.trans (take_subset _ _) remaining_subset

theorem rest_subset : feed.rest position w n ⊆ feed.records :=
  List.Subset.trans (drop_subset _ _) remaining_subset

/-- **The watermark does not go back.** -/
theorem le_mark : feed.le w (reader.mark (feed.page position w n) w) = true := by
  by_cases hnil : feed.page position w n = []
  · rw [hnil, reader.mark_nil]
    exact (feed.total w w).elim id id
  · obtain ⟨x, hx, hmark⟩ := reader.mark_mem _ w page_subset hnil
    rw [hmark]
    exact le_of_mem_remaining (mem_of_mem_take hx)

/-- A later watermark selects among the selected. -/
theorem filter_filter_le (hle : feed.le w w' = true) (xs : List α) :
    xs.filter (fun x => feed.le w' (feed.stamp x)) =
      (xs.filter fun x => feed.le w (feed.stamp x)).filter fun x => feed.le w' (feed.stamp x) := by
  rw [filter_filter]
  apply filter_congr
  intro x _
  cases h : feed.le w' (feed.stamp x) with
  | false => rfl
  | true => rw [feed.trans w w' _ hle h, Bool.and_self]

/-- After the number of a page's records comes the next page. -/
theorem follows_count (feed : Feed α W) (w : W) (n : ℕ) :
    feed.Follows .count w n (n + (feed.page .count w n).length) :=
  ⟨Nat.le_refl _, fun hfull => by rw [hfull]⟩

/-- After the size of a page comes the next page. -/
theorem follows_size (feed : Feed α W) (w : W) (n : ℕ) :
    feed.Follows .count w n (n + feed.size) := by
  refine ⟨?_, fun _ => rfl⟩
  rw [length_page]
  exact Nat.add_le_add_left (Nat.min_le_left _ _) _

/-- After the place of a page's last record comes the next page. -/
theorem follows_place (feed : Feed α W) (w : W) (n : ℕ) : feed.Follows .place w n
      (n + passed (fun x => feed.le w (feed.stamp x)) feed.size (feed.records.drop n)) := by
  rw [Feed.Follows, ← drop_drop]
  exact filter_drop_passed _ _ _

/-- **A page and what comes after it is no more than there was.** -/
theorem length_remaining_le (hle : feed.le w w' = true) (hfollows : feed.Follows position w n n') :
    (feed.page position w n).length + (feed.remaining position w' n').length ≤
      (feed.remaining position w n).length := by
  rw [length_page]
  cases position with
  | count =>
    obtain ⟨hn, -⟩ := hfollows
    rw [length_page] at hn
    have hsince : (feed.since w').length ≤ (feed.since w).length := by
      rw [Feed.since, filter_filter_le hle]
      exact length_filter_le _ _
    simp only [Feed.remaining, length_drop] at hn ⊢
    omega
  | place =>
    have hrest : (feed.remaining .place w' n').length ≤ (feed.rest .place w n).length := by
      rw [Feed.remaining, filter_filter_le hle]
      exact Nat.le_trans (length_filter_le _ _) (Nat.le_of_eq (congrArg List.length hfollows))
    rw [length_rest] at hrest
    omega

/-- After the last records there is nothing. -/
theorem remaining_of_short (hle : feed.le w w' = true) (hfollows : feed.Follows position w n n')
    (hshort : (feed.remaining position w n).length ≤ feed.size) :
    feed.remaining position w' n' = [] := by
  have hlength := length_remaining_le hle hfollows
  rw [length_page, Nat.min_eq_right hshort] at hlength
  exact length_eq_zero_iff.mp (by omega)

/-- **A watermark that passes over nothing** leaves the rest as it is. -/
theorem remaining_of_scope (hle : feed.le w w' = true) (hfollows : feed.Follows position w n n')
    (hfull : feed.size ≤ (feed.remaining position w n).length)
    (hscope : ∀ x ∈ feed.scope position w (feed.rest position w n), feed.le w' (feed.stamp x) =
      true) :
    feed.remaining position w' n' = feed.rest position w n := by
  cases position with
  | count =>
    have hn : n' = n + feed.size := hfollows.2 (by rw [length_page, Nat.min_eq_left hfull])
    have hsince : feed.since w' = feed.since w := by
      rw [Feed.since, filter_filter_le hle]
      exact filter_eq_self.mpr hscope
    rw [Feed.remaining, Feed.rest, Feed.remaining, hsince, hn, drop_drop]
  | place =>
    rw [Feed.remaining, filter_filter_le hle]
    refine Eq.trans (congrArg _ hfollows) ?_
    exact filter_eq_self.mpr hscope

/-- **A watermark that leaves as much as there is to come** passes over nothing. -/
theorem scope_of_length (hle : feed.le w w' = true) (hfollows : feed.Follows position w n n')
    (hmore : feed.size < (feed.remaining position w n).length)
    (hlength : (feed.remaining position w n).length ≤
      feed.size + (feed.remaining position w' n').length) :
    ∀ x ∈ feed.scope position w (feed.rest position w n), feed.le w' (feed.stamp x) = true := by
  cases position with
  | count =>
    have hn : n' = n + feed.size :=
      hfollows.2 (by rw [length_page, Nat.min_eq_left (Nat.le_of_lt hmore)])
    have hsince : feed.since w' = (feed.since w).filter fun x => feed.le w' (feed.stamp x) :=
      filter_filter_le hle _
    have hlonger : (feed.since w).length ≤ (feed.since w').length := by
      simp only [Feed.remaining, length_drop] at hmore hlength
      omega
    rw [hsince] at hlonger
    exact length_filter_eq_length_iff.mp
      (Nat.le_antisymm (length_filter_le _ _) hlonger)
  | place =>
    have hrest : feed.remaining .place w' n' =
        (feed.rest .place w n).filter fun x => feed.le w' (feed.stamp x) := by
      rw [Feed.remaining, filter_filter_le hle]
      exact congrArg _ hfollows
    have hlonger : (feed.rest .place w n).length ≤ (feed.remaining .place w' n').length := by
      rw [length_rest]
      omega
    rw [hrest] at hlonger
    exact length_filter_eq_length_iff.mp
      (Nat.le_antisymm (length_filter_le _ _) hlonger)

/-- A page after which the reader goes on. -/
theorem pageStep_true {c c' : W × ℕ} {page : List α} : pageStep reader c page true c' ↔
    page = feed.page position c.1 c.2 ∧
      reader.goesOn (feed.page position c.1 c.2) (feed.rest position c.1 c.2) = true ∧
      c' = (reader.mark (feed.page position c.1 c.2) c.1, reader.next c.1 c.2) := by
  unfold pageStep Reader.after
  constructor
  · rintro ⟨rfl, hgoes, rfl⟩
    exact ⟨rfl, hgoes.symm, by rw [if_pos hgoes.symm]⟩
  · rintro ⟨rfl, hgoes, rfl⟩
    exact ⟨rfl, hgoes.symm, by rw [if_pos hgoes]⟩

/-- The last page. -/
theorem pageStep_false {c c' : W × ℕ} {page : List α} : pageStep reader c page false c' ↔
    page = feed.page position c.1 c.2 ∧
      reader.goesOn (feed.page position c.1 c.2) (feed.rest position c.1 c.2) = false ∧
      c' = (reader.mark (feed.page position c.1 c.2) c.1, 0) := by
  unfold pageStep Reader.after
  constructor
  · rintro ⟨rfl, hgoes, rfl⟩
    exact ⟨rfl, hgoes.symm, by rw [if_neg (ne_true_of_eq_false hgoes.symm)]⟩
  · rintro ⟨rfl, hgoes, rfl⟩
    exact ⟨rfl, hgoes.symm, by rw [if_neg (ne_true_of_eq_false hgoes)]⟩

end page

/-! ## All pages -/

section pages

variable {w w' : W} {n n' : ℕ} {rows : List α}

/-- The `k`-th page of what is to come, if nothing is passed over. -/
def nthPage (size : ℕ) (rows : List α) (k : ℕ) : List α := (rows.drop (k * size)).take size

/-- What comes after the `k`-th page. -/
def afterPage (size : ℕ) (rows : List α) (k : ℕ) : List α := rows.drop ((k + 1) * size)

/-- The last page. -/
def lastPage (size : ℕ) (rows : List α) : List α := rows.drop ((rows.length - 1) / size * size)

/-- **Steady**: after every page but the last one the reader goes on, and its watermark passes over
nothing. -/
def Steady (reader : Reader feed position) (w : W) (rows : List α) : Prop :=
  ∀ k, (k + 1) * feed.size < rows.length →
    reader.goesOn (nthPage feed.size rows k) (afterPage feed.size rows k) = true ∧
      ∀ x ∈ feed.scope position w (afterPage feed.size rows k),
        feed.le (reader.mark (nthPage feed.size rows k) w) (feed.stamp x) = true

theorem nthPage_succ (size : ℕ) (rows : List α) (k : ℕ) :
    nthPage size rows (k + 1) = nthPage size (rows.drop size) k := by
  rw [nthPage, nthPage, drop_drop, Nat.succ_mul, Nat.add_comm size]

theorem afterPage_succ (size : ℕ) (rows : List α) (k : ℕ) :
    afterPage size rows (k + 1) = afterPage size (rows.drop size) k := by
  rw [afterPage, afterPage, drop_drop, Nat.succ_mul, Nat.add_comm size]

variable {size : ℕ}

/-- The last page comes after the first one. -/
theorem lastPage_drop (hsize : 0 < size) (h : size < rows.length) :
    lastPage size (rows.drop size) = lastPage size rows := by
  have hquotient : (rows.length - 1) / size = (rows.length - size - 1) / size + 1 := by
    rw [← Nat.add_div_right _ hsize]
    congr 1
    omega
  rw [lastPage, lastPage, drop_drop, length_drop, hquotient, Nat.succ_mul, Nat.add_comm size]

theorem lastPage_of_le (hsize : 0 < size) (h : rows.length ≤ size) : lastPage size rows = rows := by
  have hquotient : (rows.length - 1) / size = 0 := Nat.div_eq_of_lt (by omega)
  rw [lastPage, hquotient, Nat.zero_mul, drop_zero]

theorem lastPage_ne_nil (h : rows ≠ []) : lastPage size rows ≠ [] := by
  have hpos : 0 < rows.length := length_pos_iff.mpr h
  intro hnil
  rw [lastPage, drop_eq_nil_iff] at hnil
  have hle : (rows.length - 1) / size * size ≤ rows.length - 1 := Nat.div_mul_le_self _ _
  omega

theorem nthPage_subset {k : ℕ} : nthPage size rows k ⊆ rows :=
  List.Subset.trans (take_subset _ _) (drop_subset _ _)

theorem nthPage_ne_nil (hsize : 0 < size) {k : ℕ}
    (h : (k + 1) * size < rows.length) : nthPage size rows k ≠ [] := by
  rw [Nat.succ_mul] at h
  intro hnil
  have hlength := congrArg List.length hnil
  rw [nthPage, length_take, length_drop, length_nil] at hlength
  omega

variable {reader : Reader feed position}

/-- The first page of a steady reading, when it is not the last. -/
theorem Steady.first (h : Steady reader w (feed.remaining position w n))
    (hmore : feed.size < (feed.remaining position w n).length) :
    reader.goesOn (feed.page position w n) (feed.rest position w n) = true ∧
      ∀ x ∈ feed.scope position w (feed.rest position w n),
        feed.le (reader.mark (feed.page position w n) w) (feed.stamp x) = true := by
  have hzero := h 0 (by rwa [Nat.zero_add, Nat.one_mul])
  rwa [nthPage, afterPage, Nat.zero_mul, drop_zero, Nat.zero_add, Nat.one_mul] at hzero

/-- **What comes after the first page of a steady reading is steady.** -/
theorem Steady.next (h : Steady reader w (feed.remaining position w n))
    (hmore : feed.size < (feed.remaining position w n).length)
    (hsince : position = .count → feed.since w' = feed.since w) :
    Steady reader w' (feed.rest position w n) := by
  intro k hk
  rw [length_rest] at hk
  obtain ⟨hgoes, hscope⟩ := h (k + 1) (by rw [Nat.succ_mul]; omega)
  rw [nthPage_succ, afterPage_succ] at hgoes hscope
  refine ⟨hgoes, ?_⟩
  have hpage : nthPage feed.size (feed.rest position w n) k ≠ [] :=
    nthPage_ne_nil feed.size_pos (by rw [length_rest]; exact hk)
  rw [reader.mark_congr _ w' w (List.Subset.trans nthPage_subset rest_subset) hpage]
  cases position with
  | count =>
    rw [Feed.scope, hsince rfl]
    exact hscope
  | place => exact hscope

/-- A watermark that passes over nothing that is counted selects the same. -/
theorem since_of_scope (hle : feed.le w w' = true)
    (hscope : ∀ x ∈ feed.scope position w (feed.rest position w n), feed.le w' (feed.stamp x) =
      true)
    (hcount : position = .count) : feed.since w' = feed.since w := by
  subst hcount
  rw [Feed.since, filter_filter_le hle]
  exact filter_eq_self.mpr hscope

/-- No reading returns more than is to come. -/
theorem length_le_of_reads {pages : List (List α)} (h : Reads (pageStep reader) (w, n) pages) :
    pages.flatten.length ≤ (feed.remaining position w n).length := by
  refine Reads.length_le (fun c m => m = (feed.remaining position c.1 c.2).length) ?_ ?_ h rfl
  · rintro c _ page c' rfl hstep
    obtain ⟨rfl, -⟩ := pageStep_false.mp hstep
    rw [length_page]
    exact Nat.min_le_right _ _
  · rintro c _ page c' rfl hstep
    obtain ⟨rfl, -, rfl⟩ := pageStep_true.mp hstep
    exact ⟨_, rfl, length_remaining_le le_mark (reader.follows c.1 c.2)⟩

/-- What a reading that loses nothing does after a first page that is not the last. -/
theorem first_of_lossless (h : Lossless (pageStep reader) (w, n) (feed.remaining position w n))
    (hmore : feed.size < (feed.remaining position w n).length) :
    reader.goesOn (feed.page position w n) (feed.rest position w n) = true ∧
      ∀ x ∈ feed.scope position w (feed.rest position w n),
        feed.le (reader.mark (feed.page position w n) w) (feed.stamp x) = true := by
  cases hgoes : reader.goesOn (feed.page position w n) (feed.rest position w n) with
  | false =>
    have hlength := (h.perm_of_last (pageStep_false.mpr ⟨rfl, hgoes, rfl⟩)).length_eq
    rw [length_page] at hlength
    omega
  | true =>
    refine ⟨rfl, scope_of_length le_mark (reader.follows w n) hmore ?_⟩
    have hlength := h.length_le_of_more (pageStep_true.mpr ⟨rfl, hgoes, rfl⟩)
      fun pages hpages => length_le_of_reads hpages
    rwa [length_page, Nat.min_eq_left (Nat.le_of_lt hmore)] at hlength

/-- **A reading that loses nothing is steady.** -/
theorem steady_of_lossless (h : Lossless (pageStep reader) (w, n) (feed.remaining position w n)) :
    Steady reader w (feed.remaining position w n) := by
  intro k
  induction k generalizing w n with
  | zero =>
    intro hmore
    rw [Nat.zero_add, Nat.one_mul] at hmore
    rw [nthPage, afterPage, Nat.zero_mul, drop_zero, Nat.zero_add, Nat.one_mul]
    exact first_of_lossless h hmore
  | succ k ih =>
    intro hmore
    rw [Nat.succ_mul] at hmore
    have hsize := feed.size_pos
    obtain ⟨hgoes, hscope⟩ := first_of_lossless h (by omega)
    have hremaining := remaining_of_scope le_mark (reader.follows w n) (by omega) hscope
    have hnext : Lossless (pageStep reader)
        (reader.mark (feed.page position w n) w, reader.next w n) (feed.rest position w n) :=
      h.next (pageStep_true.mpr ⟨rfl, hgoes, rfl⟩) (by rw [page_append_rest])
    rw [← hremaining] at hnext
    obtain ⟨hgoes', hscope'⟩ := ih hnext (by rw [hremaining, length_rest]; omega)
    rw [hremaining] at hgoes' hscope'
    have hpage : nthPage feed.size (feed.rest position w n) k ≠ [] :=
      nthPage_ne_nil feed.size_pos (by rw [length_rest]; omega)
    have hnth : nthPage feed.size (feed.remaining position w n) (k + 1) =
        nthPage feed.size (feed.rest position w n) k := nthPage_succ _ _ _
    have hafter : afterPage feed.size (feed.remaining position w n) (k + 1) =
        afterPage feed.size (feed.rest position w n) k := afterPage_succ _ _ _
    rw [hnth, hafter]
    refine ⟨hgoes', ?_⟩
    rw [reader.mark_congr _ w (reader.mark (feed.page position w n) w)
      (List.Subset.trans nthPage_subset rest_subset) hpage]
    cases position with
    | count =>
      rw [Feed.scope, ← since_of_scope le_mark hscope rfl]
      exact hscope'
    | place => exact hscope'

/-- **A steady reading loses nothing.** -/
theorem lossless_of_steady (hstop : reader.goesOn [] [] = false)
    (h : Steady reader w (feed.remaining position w n)) :
    Lossless (pageStep reader) (w, n) (feed.remaining position w n) := by
  refine lossless_of_invariant
    (fun c rows => rows = feed.remaining position c.1 c.2 ∧ Steady reader c.1 rows) ?_ ?_ ?_
    ⟨rfl, h⟩
  · rintro ⟨w, n⟩ _ -
    exact ⟨_, _, _, rfl, rfl, rfl⟩
  · rintro ⟨w, n⟩ _ page c' ⟨rfl, hsteady⟩ hstep
    obtain ⟨rfl, hgoes, -⟩ := pageStep_false.mp hstep
    rcases Nat.lt_or_ge feed.size (feed.remaining position w n).length with hmore | hshort
    · exact absurd (hgoes.symm.trans (hsteady.first hmore).1) Bool.false_ne_true
    · exact .of_eq (take_of_length_le hshort)
  · rintro ⟨w, n⟩ _ page c' ⟨rfl, hsteady⟩ hstep
    obtain ⟨rfl, hgoes, rfl⟩ := pageStep_true.mp hstep
    refine ⟨feed.rest position w n, by rw [page_append_rest], ?_, ?_⟩
    · -- the page has a record, since the reader goes on
      rw [length_rest]
      dsimp only at hgoes ⊢
      have hsize := feed.size_pos
      rcases Nat.eq_zero_or_pos (feed.remaining position w n).length with hzero | hpos
      · simp [Feed.page, Feed.rest, length_eq_zero_iff.mp hzero, take_nil, drop_nil, hstop] at hgoes
      · omega
    · rcases Nat.lt_or_ge feed.size (feed.remaining position w n).length with hmore | hshort
      · have hfirst := (hsteady.first hmore).2
        exact ⟨(remaining_of_scope le_mark (reader.follows w n) (Nat.le_of_lt hmore) hfirst).symm,
          hsteady.next hmore fun hcount => since_of_scope le_mark hfirst hcount⟩
      · have hrest : feed.rest position w n = [] := drop_of_length_le hshort
        have hle : feed.le w (reader.mark (feed.page position w n) w) = true := le_mark
        have hremaining := remaining_of_short hle (reader.follows w n) hshort
        rw [hrest, hremaining]
        refine ⟨rfl, ?_⟩
        intro k hk
        exact absurd hk (Nat.not_lt_zero _)

/-- **A reading returns what is to come, each record once, iff it is steady.** -/
theorem lossless_iff_steady (hstop : reader.goesOn [] [] = false) (w : W) (n : ℕ) :
    Lossless (pageStep reader) (w, n) (feed.remaining position w n) ↔
      Steady reader w (feed.remaining position w n) :=
  ⟨steady_of_lossless, lossless_of_steady hstop⟩

/-- **The watermark that a steady reading leaves** is that of its last page. -/
theorem mark_of_readsTo {pages : List (List α)} {c c' : W × ℕ}
    (h : Steady reader c.1 (feed.remaining position c.1 c.2))
    (hreads : ReadsTo (pageStep reader) c pages c') :
    c'.1 = reader.mark (lastPage feed.size (feed.remaining position c.1 c.2)) c.1 := by
  induction hreads with
  | @last c c' page hstep =>
    obtain ⟨rfl, hgoes, rfl⟩ := pageStep_false.mp hstep
    rcases Nat.lt_or_ge feed.size (feed.remaining position c.1 c.2).length with hmore | hshort
    · exact absurd (hgoes.symm.trans (h.first hmore).1) Bool.false_ne_true
    · rw [lastPage_of_le feed.size_pos hshort, Feed.page, take_of_length_le hshort]
  | @more c c' c'' page pages hstep _ ih =>
    obtain ⟨rfl, -, rfl⟩ := pageStep_true.mp hstep
    have hfollows := reader.follows c.1 c.2
    have hle : feed.le c.1 (reader.mark (feed.page position c.1 c.2) c.1) = true := le_mark
    rcases Nat.lt_or_ge feed.size (feed.remaining position c.1 c.2).length with hmore | hshort
    · have hscope := (h.first hmore).2
      have hremaining := remaining_of_scope hle hfollows (Nat.le_of_lt hmore) hscope
      have hlast : lastPage feed.size (feed.rest position c.1 c.2) =
          lastPage feed.size (feed.remaining position c.1 c.2) := lastPage_drop feed.size_pos hmore
      have hne : feed.remaining position c.1 c.2 ≠ [] :=
        length_pos_iff.mp (Nat.lt_of_le_of_lt (Nat.zero_le _) hmore)
      rw [hremaining] at ih
      rw [ih (h.next hmore fun hcount => since_of_scope hle hscope hcount), hlast]
      exact reader.mark_congr _ _ _ (List.Subset.trans (drop_subset _ _) remaining_subset)
        (lastPage_ne_nil hne)
    · have hremaining := remaining_of_short hle hfollows hshort
      rw [hremaining] at ih
      rw [ih fun k hk => absurd hk (Nat.not_lt_zero _), lastPage, drop_nil, reader.mark_nil,
        lastPage_of_le feed.size_pos hshort, Feed.page, take_of_length_le hshort]

end pages

end Dataflow.Library.Watermarks
