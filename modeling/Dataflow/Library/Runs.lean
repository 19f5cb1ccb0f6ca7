import Mathlib.Data.List.Infix

/-!
# Replacing the runs behind a head

A pattern is a head and a run of symbols behind it. Its matches are found from left to right and
without overlap; the head of a match stays, and its run is replaced.

* `matchRun`, `replaceRuns`: a match, and the loop.
* `opens`: a text ends within a match, which any further symbol of a run completes.
* **`exists_replaceRuns_append`**: what is replaced in a text stays the same whatever follows it,
  and the loop goes on behind the run that the text opens, or else right behind the text.
-/

namespace Dataflow.Library.Runs

open List Option

variable {α : Type*} (head : List α → Option ℕ) (body : α → Bool) (mark : List α)

/-- A match at the start of a text: how long its head is, and the run behind it. -/
def matchRun (text : List α) : Option (ℕ × ℕ) :=
  (head text).bind fun n =>
    let run := (text.drop n).takeWhile body
    if run = [] then none else some (n, run.length)

/-- The loop; `skip` symbols belong to the match before. -/
def replaceFrom : (skip : ℕ) → List α → List α
  | _, [] => []
  | skip + 1, _ :: text => replaceFrom skip text
  | 0, c :: text =>
    match matchRun head body (c :: text) with
    | some (n, m) => (c :: text).take n ++ mark ++ replaceFrom (n + m - 1) text
    | none => c :: replaceFrom 0 text

/-- The run of every match is replaced. -/
def replaceRuns (text : List α) : List α := replaceFrom head body mark 0 text

/-- The loop of `opens`. -/
def opensFrom : (skip : ℕ) → List α → Bool
  | _, [] => false
  | skip + 1, _ :: text => opensFrom skip text
  | 0, c :: text =>
    (head (c :: text)).any (fun n => ((c :: text).drop n).all body) ||
      match matchRun head body (c :: text) with
      | some (n, m) => opensFrom (n + m - 1) text
      | none => opensFrom 0 text

/-- **The text ends within a match**: only symbols of a run are behind the head of its last one, and
maybe none. -/
def opens (text : List α) : Bool := opensFrom head body 0 text

variable {head body mark}

/-! ## Equations -/

section equations

variable {c : α} {text : List α} {n m : ℕ}

theorem replaceFrom_eq_drop (skip : ℕ) (text : List α) :
    replaceFrom head body mark skip text = replaceRuns head body mark (text.drop skip) := by
  induction skip generalizing text with
  | zero => rfl
  | succ skip ih =>
    cases text with
    | nil => rfl
    | cons c text => exact ih text

theorem opensFrom_eq_drop (skip : ℕ) (text : List α) :
    opensFrom head body skip text = opens head body (text.drop skip) := by
  induction skip generalizing text with
  | zero => rfl
  | succ skip ih =>
    cases text with
    | nil => rfl
    | cons c text => exact ih text

theorem matchRun_eq_none (h : head text = none) : matchRun head body text = none := by
  rw [matchRun, h, bind_none]

theorem matchRun_of_head (h : head text = some n) : matchRun head body text =
    if (text.drop n).takeWhile body = [] then none
    else some (n, ((text.drop n).takeWhile body).length) := by
  rw [matchRun, h, bind_some]

theorem replaceRuns_cons_of_none (h : matchRun head body (c :: text) = none) :
    replaceRuns head body mark (c :: text) = c :: replaceRuns head body mark text := by
  rw [replaceRuns, replaceFrom, h, replaceRuns]

theorem replaceRuns_of_some (h : matchRun head body text = some (n, m)) (hpos : 0 < n)
    (hle : n ≤ text.length) : replaceRuns head body mark text =
      text.take n ++ mark ++ replaceRuns head body mark (text.drop (n + m)) := by
  cases text with
  | nil => exact absurd (hpos.trans_le hle) (lt_irrefl 0)
  | cons c text =>
    rw [replaceRuns, replaceFrom, h]
    dsimp only
    rw [replaceFrom_eq_drop, show n + m = n + m - 1 + 1 by omega, drop_succ_cons]
    rfl

theorem opens_cons_of_head_none (h : head (c :: text) = none) :
    opens head body (c :: text) = opens head body text := by
  rw [opens, opensFrom, h, matchRun_eq_none h]
  rfl

theorem opens_of_all (h : head (c :: text) = some n) (hall : ((c :: text).drop n).all body = true) :
    opens head body (c :: text) = true := by
  rw [opens, opensFrom, h, any_some, hall, Bool.true_or]

theorem opens_cons_of_none (h : head (c :: text) = some n)
    (hall : ((c :: text).drop n).all body = false)
    (hmatch : matchRun head body (c :: text) = none) :
    opens head body (c :: text) = opens head body text := by
  rw [opens, opensFrom, h, hmatch, any_some, hall, Bool.false_or]
  rfl

theorem opens_of_some (h : head (c :: text) = some n) (hpos : 0 < n)
    (hall : ((c :: text).drop n).all body = false)
    (hmatch : matchRun head body (c :: text) = some (n, m)) :
    opens head body (c :: text) = opens head body ((c :: text).drop (n + m)) := by
  rw [opens, opensFrom, h, hmatch, any_some, hall, Bool.false_or]
  dsimp only
  rw [opensFrom_eq_drop, show n + m = n + m - 1 + 1 by omega, drop_succ_cons]
  rfl

end equations

/-! ## What follows a text -/

section append

variable {text rest : List α}

/-- A run ends within a text that is not all of it. -/
theorem takeWhile_append_of_not_all {l : List α} (h : l.all body = false) (rest : List α) :
    (l ++ rest).takeWhile body = l.takeWhile body := by
  induction l with
  | nil => cases h
  | cons c l ih =>
    rw [cons_append, takeWhile_cons, takeWhile_cons]
    by_cases hc : body c = true
    · rw [all_cons, hc, Bool.true_and] at h
      rw [if_pos hc, if_pos hc, ih h]
    · rw [if_neg hc, if_neg hc]

theorem drop_length_takeWhile (l : List α) :
    l.drop (l.takeWhile body).length = l.dropWhile body := by
  have h : (l.takeWhile body ++ l.dropWhile body).drop (l.takeWhile body).length =
      l.dropWhile body := drop_left
  rwa [takeWhile_append_dropWhile] at h

/-- What follows a text changes no head in it, and starts with a symbol of a run. -/
def Follows (head : List α → Option ℕ) (body : α → Bool) (text rest : List α) : Prop :=
  (∀ tail, tail <:+ text → tail ≠ [] → head (tail ++ rest) = head tail) ∧
    ∃ c more, rest = c :: more ∧ body c = true

theorem Follows.suffix {tail : List α} (h : Follows head body text rest) (htail : tail <:+ text) :
    Follows head body tail rest :=
  ⟨fun more hmore => h.1 more (hmore.trans htail), h.2⟩

section head

variable {n : ℕ} (hhead : head text = some n) (hle : n ≤ text.length)
  (hsame : head (text ++ rest) = head text)

include hhead hle hsame

/-- A run that the text opens goes on in what follows. -/
theorem replaceRuns_append_of_all (hpos : 0 < n) (hall : (text.drop n).all body = true)
    (hrest : ∃ c more, rest = c :: more ∧ body c = true) :
    replaceRuns head body mark (text ++ rest) =
      text.take n ++ mark ++ replaceRuns head body mark (rest.dropWhile body) := by
  obtain ⟨c, more, rfl, hc⟩ := hrest
  have hrun : (text.drop n ++ c :: more).takeWhile body =
      text.drop n ++ (c :: more).takeWhile body :=
    takeWhile_append_of_pos (List.all_eq_true.mp hall)
  have hmatch : matchRun head body (text ++ c :: more) =
      some (n, (text.drop n ++ (c :: more).takeWhile body).length) := by
    rw [matchRun_of_head (hsame.trans hhead), drop_append_of_le_length hle, hrun,
      if_neg (by simp [hc])]
  rw [replaceRuns_of_some hmatch hpos (hle.trans (by simp)), take_append_of_le_length hle,
    ← drop_drop, drop_append_of_le_length hle, length_append, ← drop_drop,
    drop_left, drop_length_takeWhile]

/-- A run that ends in the text is the same whatever follows. -/
theorem matchRun_append_of_not_all (hall : (text.drop n).all body = false) :
    matchRun head body (text ++ rest) = matchRun head body text := by
  rw [matchRun_of_head (hsame.trans hhead), matchRun_of_head hhead,
    drop_append_of_le_length hle, takeWhile_append_of_not_all hall]

end head

/-- A match is a head and a run within the text. -/
theorem matchRun_bounds {n k m : ℕ} (hhead : head text = some n) (hle : n ≤ text.length)
    (h : matchRun head body text = some (k, m)) : n = k ∧ n + m ≤ text.length := by
  rw [matchRun_of_head hhead] at h
  split_ifs at h
  obtain ⟨rfl, rfl⟩ := Prod.mk.inj (some.inj h)
  refine ⟨rfl, ?_⟩
  have hrun := ( takeWhile_prefix (p := body) (l := text.drop n)).length_le
  rw [length_drop] at hrun
  omega

/-- **What is replaced in a text** is the same whatever follows. The loop goes on behind the run
that the text opens, or else right behind the text. -/
theorem exists_replaceRuns_append
    (hbound : ∀ text n, head text = some n → 0 < n ∧ n ≤ text.length) (text : List α) :
    ∃ replaced, ∀ rest, Follows head body text rest →
      replaceRuns head body mark (text ++ rest) = replaced ++
        replaceRuns head body mark (if opens head body text then rest.dropWhile body else rest) := by
  induction hlength : text.length using Nat.strong_induction_on generalizing text with
  | _ length ih =>
    cases text with
    | nil => exact ⟨[], fun rest _ => rfl⟩
    | cons c text =>
      subst hlength
      have hsame : ∀ rest, Follows head body (c :: text) rest →
          head (c :: text ++ rest) = head (c :: text) :=
        fun rest h => h.1 _ suffix_rfl (cons_ne_nil c text)
      obtain ⟨replaced, hreplaced⟩ := ih text.length (Nat.lt_succ_self _) text rfl
      -- a symbol that starts no match, whatever follows
      have hskip : ∀ rest, Follows head body (c :: text) rest →
          matchRun head body (c :: text ++ rest) = none →
          replaceRuns head body mark (c :: text ++ rest) = c :: replaced ++ replaceRuns head body
            mark (if opens head body text then rest.dropWhile body else rest) := by
        intro rest h hnone
        rw [cons_append] at hnone ⊢
        rw [replaceRuns_cons_of_none hnone, hreplaced rest (h.suffix (suffix_cons c text)),
          cons_append]
      cases hhead : head (c :: text) with
      | none =>
        refine ⟨c :: replaced, fun rest h => ?_⟩
        rw [hskip rest h (matchRun_eq_none ((hsame rest h).trans hhead)),
          opens_cons_of_head_none hhead]
      | some n =>
        obtain ⟨hpos, hle⟩ := hbound _ _ hhead
        cases hall : ((c :: text).drop n).all body with
        | true =>
          refine ⟨(c :: text).take n ++ mark, fun rest h => ?_⟩
          rw [replaceRuns_append_of_all hhead hle (hsame rest h) hpos hall h.2,
            opens_of_all hhead hall, if_pos rfl]
        | false =>
          cases hfound : matchRun head body (c :: text) with
          | none =>
            refine ⟨c :: replaced, fun rest h => ?_⟩
            rw [hskip rest h ((matchRun_append_of_not_all hhead hle (hsame rest h)
              hall).trans hfound), opens_cons_of_none hhead hall hfound]
          | some found =>
            obtain ⟨k, m⟩ := found
            obtain ⟨rfl, hm⟩ := matchRun_bounds hhead hle hfound
            obtain ⟨later, hlater⟩ := ih ((c :: text).drop (n + m)).length
              (by rw [length_drop]; omega) _ rfl
            refine ⟨(c :: text).take n ++ mark ++ later, fun rest h => ?_⟩
            rw [replaceRuns_of_some ((matchRun_append_of_not_all hhead hle (hsame rest h)
                hall).trans hfound) hpos (hle.trans (by simp)),
              take_append_of_le_length hle, drop_append_of_le_length hm,
              hlater rest (h.suffix (drop_suffix _ _)),
              opens_of_some hhead hpos hall hfound, append_assoc _ later]

end append

end Dataflow.Library.Runs
