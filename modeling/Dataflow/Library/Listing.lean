import Dataflow.Library.Paging
import Mathlib.Data.List.Sort

/-!
# Listings in descending order of a unique key

A listing shows rows in descending order of a key that no two rows share, a page at a time. It takes
the rows with a key below the cursor, a page and one row more to see whether there is more; the
cursor for the next page is the key of the last row of this one.

* `orderBy`, `after`, `listing`: the rows in their order, those after a cursor, and the reader.
* `Lists`: every iteration ends and returns the rows, each once, in descending order.
* `Lists.of_simulation`: a reader that does what another one does lists what that one lists.
* `lists_listing`: **main result**: the listing returns all rows.
* `lists_iff_of_last`: a reader that announces no further page.
-/

namespace Dataflow.Library.Paging

open List

variable {α C D K : Type*} [LinearOrder K] {key : α → K}

/-- In descending order of the key, and no key twice. -/
def Descending (key : α → K) (l : List α) : Prop := l.Pairwise fun x y => key y < key x

/-- The rows in descending order of the key. -/
def orderBy (key : α → K) (l : List α) : List α :=
  l.insertionSort fun x y => key y ≤ key x

/-- The rows after a cursor; without a cursor all of them. -/
def after (key : α → K) (c : Option K) (x : α) : Bool :=
  match c with
  | none => true
  | some k => decide (key x < k)

/-! ## The order -/

theorem orderBy_perm (key : α → K) (l : List α) : (orderBy key l).Perm l :=
  perm_insertionSort _ l

/-- Rows with distinct keys have one descending order. -/
theorem descending_orderBy {l : List α} (hkeys : (l.map key).Nodup) :
    Descending key (orderBy key l) := by
  have htotal : Std.Total fun x y => key y ≤ key x := ⟨fun x y => le_total (key y) (key x)⟩
  have htrans : IsTrans α fun x y => key y ≤ key x := ⟨fun _ _ _ hxy hyz => le_trans hyz hxy⟩
  have hsorted : (orderBy key l).Pairwise fun x y => key y ≤ key x :=
    pairwise_insertionSort _ l
  have hnodup : ((orderBy key l).map key).Nodup :=
    (((orderBy_perm key l).map key).nodup_iff).mpr hkeys
  rw [List.Nodup, pairwise_map] at hnodup
  exact (hsorted.and hnodup).imp fun h => lt_of_le_of_ne h.1 (Ne.symm h.2)

/-- Two descending lists of the same rows are the same. -/
theorem Descending.eq_of_perm {l l' : List α} (h : Descending key l) (h' : Descending key l')
    (hperm : l.Perm l') : l = l' := by
  apply List.Perm.eq_of_pairwise _ h h' hperm
  intro x y _ _ hxy hyx
  exact absurd hxy (lt_asymm hyx)

/-- Selecting rows keeps their order. -/
theorem orderBy_filter {l : List α} (hkeys : (l.map key).Nodup) (p : α → Bool) :
    orderBy key (l.filter p) = (orderBy key l).filter p := by
  have hsub : ((l.filter p).map key).Nodup := hkeys.sublist (filter_sublist.map key)
  apply (descending_orderBy hsub).eq_of_perm ((descending_orderBy hkeys).filter p)
  exact (orderBy_perm key _).trans ((orderBy_perm key l).symm.filter p)

/-- The rows after one of them. -/
theorem filter_after {A B : List α} {x : α} (h : Descending key (A ++ x :: B)) :
    (A ++ x :: B).filter (after key (some (key x))) = B := by
  rw [Descending, pairwise_append, pairwise_cons] at h
  obtain ⟨-, ⟨hB, -⟩, hA⟩ := h
  have hbefore : A.filter (after key (some (key x))) = [] := by
    rw [filter_eq_nil_iff]
    intro y hy
    rw [after, decide_eq_true_eq]
    exact lt_asymm (hA y hy x mem_cons_self)
  have hafter : B.filter (after key (some (key x))) = B := by
    rw [filter_eq_self]
    intro y hy
    exact decide_eq_true (hB y hy)
  have hself : ¬ after key (some (key x)) x = true := by
    rw [after, decide_eq_true_eq]
    exact lt_irrefl _
  rw [filter_append, hbefore, nil_append, filter_cons_of_neg hself, hafter]

/-! ## Readers -/

/-- Every iteration ends and returns the rows, each once, in descending order. -/
structure Lists (key : α → K) (step : PageStep C α) (c : C) (rows : List α) : Prop where
  ends : Ends step c
  complete : ∀ pages, Reads step c pages → pages.flatten.Perm rows
  ordered : ∀ pages, Reads step c pages → Descending key pages.flatten

variable {step : PageStep C α} {step' : PageStep D α} {c : C} {d : D} {rows : List α}

/-- **A reader that does what another one does**: it answers, and what it answers the other one
answers at a related cursor. -/
theorem Lists.of_simulation {R : C → D → Prop}
    (answered : ∀ c d, R c d → ∃ page more c', step c page more c')
    (sound : ∀ c d page more c', R c d → step c page more c' →
      ∃ d', step' d page more d' ∧ (more = true → R c' d'))
    (hR : R c d) (h : Lists key step' d rows) : Lists key step c rows := by
  have hreads : ∀ c pages, Reads step c pages → ∀ d, R c d → Reads step' d pages := by
    intro c pages hpages
    induction hpages with
    | last hstep =>
      intro d hR
      obtain ⟨d', hstep', -⟩ := sound _ d _ _ _ hR hstep
      exact .last hstep'
    | more hstep _ ih =>
      intro d hR
      obtain ⟨d', hstep', hnext⟩ := sound _ d _ _ _ hR hstep
      exact .more hstep' (ih d' (hnext rfl))
  have hends : ∀ d, Ends step' d → ∀ c, R c d → Ends step c := by
    intro d hd
    induction hd with
    | @intro d _ _ ih =>
      intro c hR
      refine .intro (answered c d hR) ?_
      intro page c' hstep
      obtain ⟨d', hstep', hnext⟩ := sound c d page true c' hR hstep
      exact ih page d' hstep' c' (hnext rfl)
  exact ⟨hends d h.ends c hR, fun pages hpages => h.complete pages (hreads c pages hpages d hR),
    fun pages hpages => h.ordered pages (hreads c pages hpages d hR)⟩

/-! ## The listing -/

/-- The listing with pages of a given size. -/
def listing (key : α → K) (rows : List α) (size : ℕ) : PageStep (Option K) α :=
  fun c page more c' =>
    let full := orderBy key (rows.filter (after key c))
    page = full.take size ∧ more = decide (size < full.length) ∧
      c' = ((full.take size).getLast?).map key

variable {size : ℕ}

/-- After a page, the cursor selects the rows that are left. -/
theorem filter_after_take {full : List α} (hsize : 0 < size)
    (hfull : Descending key full) (hmore : size < full.length) :
    full.filter (after key (((full.take size).getLast?).map key)) = full.drop size := by
  cases hlast : (full.take size).getLast? with
  | none =>
    have hnil := congrArg List.length (getLast?_eq_none_iff.mp hlast)
    rw [length_take_of_le hmore.le, length_nil] at hnil
    omega
  | some x =>
    obtain ⟨A, htake⟩ := getLast?_eq_some_iff.mp hlast
    have hsplit : full = A ++ x :: full.drop size := by
      calc full = full.take size ++ full.drop size := (take_append_drop size full).symm
        _ = A ++ x :: full.drop size := by rw [htake, append_assoc, singleton_append]
    have hdescending : Descending key (A ++ x :: full.drop size) := hsplit ▸ hfull
    conv_lhs => rw [hsplit]
    exact filter_after hdescending

/-- A row after one that a cursor selects is selected too. -/
theorem after_trans {k : Option K} {x y : α} (hy : after key k y = true)
    (hx : after key (some (key y)) x = true) : after key k x = true := by
  cases k with
  | none => rfl
  | some k =>
    rw [after, decide_eq_true_eq] at hx hy ⊢
    exact lt_trans hx hy

/-- **One page on**: the cursor after a page selects what the page leaves. -/
theorem orderBy_next {k : Option K} (hsize : 0 < size) (hkeys : (rows.map key).Nodup)
    (hmore : size < (orderBy key (rows.filter (after key k))).length) :
    orderBy key (rows.filter (after key
        ((((orderBy key (rows.filter (after key k))).take size).getLast?).map key))) =
      (orderBy key (rows.filter (after key k))).drop size := by
  rw [orderBy_filter hkeys] at hmore ⊢
  rw [orderBy_filter hkeys]
  have hdescending : Descending key ((orderBy key rows).filter (after key k)) :=
    (descending_orderBy hkeys).filter _
  rw [← filter_after_take hsize hdescending hmore]
  cases hlast : (((orderBy key rows).filter (after key k)).take size).getLast? with
  | none =>
    have hnil := congrArg List.length (getLast?_eq_none_iff.mp hlast)
    rw [length_take_of_le hmore.le, length_nil] at hnil
    omega
  | some y =>
    have hy : after key k y = true := by
      have hmem := mem_of_mem_take (mem_of_getLast? hlast)
      exact (mem_filter.mp hmem).2
    rw [Option.map_some, filter_filter]
    apply filter_congr
    intro x _
    rw [Bool.eq_iff_iff, Bool.and_eq_true]
    constructor
    · intro hx
      exact ⟨hx, after_trans hy hx⟩
    · intro hx
      exact hx.1

/-- What an iteration of the listing returns. -/
theorem flatten_of_reads_listing {k : Option K} (hsize : 0 < size)
    (hkeys : (rows.map key).Nodup) {pages : List (List α)}
    (h : Reads (listing key rows size) k pages) :
    pages.flatten = orderBy key (rows.filter (after key k)) := by
  induction h with
  | last hstep =>
    obtain ⟨rfl, hmore, -⟩ := hstep
    have hlen := of_decide_eq_false hmore.symm
    rw [flatten_singleton, take_of_length_le (not_lt.mp hlen)]
  | more hstep _ ih =>
    obtain ⟨rfl, hmore, rfl⟩ := hstep
    rw [flatten_cons, ih, orderBy_next hsize hkeys (of_decide_eq_true hmore.symm), take_append_drop]

/-- Every iteration of the listing ends: each page leaves fewer rows. -/
theorem ends_listing (hsize : 0 < size) (hkeys : (rows.map key).Nodup)
    (k : Option K) : Ends (listing key rows size) k := by
  induction hn : (orderBy key (rows.filter (after key k))).length using Nat.strongRecOn
    generalizing k with
  | ind n ih =>
    refine .intro ⟨_, _, _, rfl, rfl, rfl⟩ ?_
    rintro page k' ⟨-, hmore, rfl⟩
    have hlt := of_decide_eq_true hmore.symm
    apply ih _ _ _ rfl
    rw [orderBy_next hsize hkeys hlt, length_drop]
    omega

/-- **The listing lists all rows.** -/
theorem lists_listing (hsize : 0 < size) (hkeys : (rows.map key).Nodup) :
    Lists key (listing key rows size) none rows := by
  have hall : rows.filter (after key none) = rows := filter_eq_self.mpr fun _ _ => rfl
  refine ⟨ends_listing hsize hkeys none, ?_, ?_⟩
  · intro pages hpages
    rw [flatten_of_reads_listing hsize hkeys hpages, hall]
    exact orderBy_perm key rows
  · intro pages hpages
    rw [flatten_of_reads_listing hsize hkeys hpages, hall]
    exact descending_orderBy hkeys

/-! ## A reader that announces no page -/

/-- **A reader that announces no further page** lists the rows if and only if its only page has
them. -/
theorem lists_iff_of_last {page : List α} {c' : C} (hstep : step c page false c')
    (honly : ∀ page' more c'', step c page' more c'' → page' = page ∧ more = false)
    (hpage : Descending key page) : Lists key step c rows ↔ page.Perm rows := by
  constructor
  · intro h
    have hperm := h.complete _ (.last hstep)
    rwa [flatten_singleton] at hperm
  · intro hperm
    have hreads : ∀ pages, Reads step c pages → pages.flatten = page := by
      intro pages hpages
      cases hpages with
      | last h =>
        rw [flatten_singleton]
        exact (honly _ _ _ h).1
      | more h _ => cases (honly _ _ _ h).2
    refine ⟨.intro ⟨_, _, _, hstep⟩ ?_, ?_, ?_⟩
    · intro page' c'' h
      cases (honly _ _ _ h).2
    · intro pages hpages
      rw [hreads pages hpages]
      exact hperm
    · intro pages hpages
      rw [hreads pages hpages]
      exact hpage

end Dataflow.Library.Paging
