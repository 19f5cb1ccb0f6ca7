import Mathlib.Data.List.Pairwise
import Mathlib.Data.List.Basic
import Mathlib.Tactic.SplitIfs

/-!
# `INSERT … ON CONFLICT` with several rows

A table of a relational database with its constraints. A statement inserts rows, one after the
other. A row that has the key of another row is skipped, or updates that row; but a row that the
same statement has written is not updated a second time, the statement fails then. A key with a NULL
in it is the key of no other row.

* `Table`, `Insert`: a table, and a statement without its rows.
* `Agree`: two rows have one key.
* `insertRow`, `exec`: one row, and a statement.
* `insertRow_eq_some_iff`: **what one row does**: it is placed, skipped, or updates a row.
* `exec_eq_foldlM`: a statement whose rows have different keys is its rows as statements of their
  own.
* `exists_exec`: a table without other constraints takes every row.
* `pairwise_of_exec`: a statement with two rows of one key fails.
* `exec_of_accepts`: a statement that succeeds does so under a constraint that all its rows
  satisfy.
* `run`: statements one after the other; `exists_run`, `exists_run_of_accepts`, `run_eq_run_rows`
  are the same for runs.
-/

set_option linter.unusedSectionVars false

namespace Dataflow.Library.Upsert

open List Option

/-- A row: a value for each column; `none` is NULL. -/
abbrev Row (K V : Type*) := K → Option V

/-- A row as a statement meets it, and whether the statement itself has written it. -/
abbrev Seen (K V : Type*) := Row K V × Bool

/-- A table: its columns, their defaults, the constraints on one row, the unique indexes, the
rows. -/
structure Table (K V : Type*) where
  columns : List K
  default : Row K V
  accepts : Row K V → Bool
  uniques : List (List K)
  rows : List (Row K V)

/-- `ON CONFLICT (keys) DO UPDATE` with the columns that are updated; without any, `DO NOTHING`. -/
structure Conflict (K : Type*) where
  keys : List K
  updates : List K

/-- A statement without its rows. -/
structure Insert (K : Type*) where
  columns : List K
  conflict : Option (Conflict K)

variable {K V : Type*} [DecidableEq K] [DecidableEq V]

/-! ## Statements -/

/-- Two rows have one key. -/
def Agree (keys : List K) (a b : Row K V) : Prop := ∀ k ∈ keys, a k ≠ none ∧ a k = b k

instance (keys : List K) (a b : Row K V) : Decidable (Agree keys a b) :=
  inferInstanceAs (Decidable (∀ k ∈ keys, _))

/-- The row that is proposed: the values for the columns of the statement, the defaults
elsewhere. -/
def Table.proposed (table : Table K V) (columns : List K) (values : K → Option V) : Row K V :=
  fun k => if k ∈ columns then values k else table.default k

/-- A row after an update. -/
def overwrite (updates : List K) (new old : Row K V) : Row K V :=
  fun k => if k ∈ updates then new k else old k

/-- No row has one of the keys of a row. -/
def Free (uniques : List (List K)) (rows : List (Seen K V)) (new : Row K V) : Prop :=
  ∀ keys ∈ uniques, ∀ row ∈ rows, ¬ Agree keys row.1 new

instance (uniques : List (List K)) (rows : List (Seen K V)) (new : Row K V) :
    Decidable (Free uniques rows new) :=
  inferInstanceAs (Decidable (∀ keys ∈ uniques, _))

/-- The first element that satisfies a test, with what is before it and behind it. -/
def splitFirst {α : Type*} (p : α → Bool) : List α → Option (List α × α × List α)
  | [] => none
  | x :: xs =>
    if p x then some ([], x, xs)
    else (splitFirst p xs).map fun found => (x :: found.1, found.2)

/-- A row that is in no conflict with the conflict target. -/
def place (table : Table K V) (rows : List (Seen K V)) (new : Row K V) : Option (List (Seen K V)) :=
  if Free table.uniques rows new then some (rows ++ [(new, true)]) else none

/-- **One row**: `none` where the statement fails. -/
def insertRow (table : Table K V) (conflict : Option (Conflict K)) (rows : List (Seen K V))
    (new : Row K V) : Option (List (Seen K V)) :=
  if table.accepts new then
    match conflict with
    | none => place table rows new
    | some c =>
      match splitFirst (fun row => decide (Agree c.keys row.1 new)) rows with
      | none => place table rows new
      | some (before, (old, written), rest) =>
        if c.updates = [] then some rows
        else if written then none
        else
          let updated := overwrite c.updates new old
          if table.accepts updated ∧ Free table.uniques (before ++ rest) updated then
            some (before ++ (updated, true) :: rest)
          else none
  else none

/-- The columns are there, and so is an index for the conflict target. -/
def Insert.Valid (stmt : Insert K) (table : Table K V) : Prop :=
  stmt.columns ⊆ table.columns ∧
    ∀ c ∈ stmt.conflict, ∃ unique ∈ table.uniques, unique ⊆ c.keys ∧ c.keys ⊆ unique

instance (stmt : Insert K) (table : Table K V) : Decidable (stmt.Valid table) :=
  inferInstanceAs (Decidable (_ ∧ _))

/-- A row that the statement has not written. -/
def unwritten (row : Row K V) : Seen K V := (row, false)

/-- **A statement** with the values of its rows: `none` where it fails, and nothing is changed. -/
def exec (table : Table K V) (stmt : Insert K) (values : List (K → Option V)) :
    Option (Table K V) :=
  if stmt.Valid table then
    ((values.map (table.proposed stmt.columns)).foldlM (insertRow table stmt.conflict)
      (table.rows.map unwritten)).map fun rows => { table with rows := rows.map Prod.fst }
  else none

/-! ## One row -/

section agree

variable {keys : List K} {a b c : Row K V}

theorem Agree.symm (h : Agree keys a b) : Agree keys b a :=
  fun k hk => ⟨(h k hk).2 ▸ (h k hk).1, (h k hk).2.symm⟩

theorem Agree.trans (h : Agree keys a b) (h' : Agree keys b c) : Agree keys a c :=
  fun k hk => ⟨(h k hk).1, (h k hk).2.trans (h' k hk).2⟩

/-- Whether rows agree depends on their keys. -/
theorem agree_congr {a' : Row K V} (h : ∀ k ∈ keys, a k = a' k) :
    Agree keys a b ↔ Agree keys a' b := by
  constructor
  · intro hab k hk
    rw [← h k hk]
    exact hab k hk
  · intro hab k hk
    rw [h k hk]
    exact hab k hk

/-- An update by a row with the same key leaves the key. -/
theorem overwrite_key (updates : List K) (h : Agree keys a b) {k : K} (hk : k ∈ keys) :
    overwrite updates b a k = b k := by
  unfold overwrite
  split_ifs
  · rfl
  · exact (h k hk).2

end agree

/-- **What one row does.** -/
inductive Inserted (table : Table K V) (conflict : Option (Conflict K)) (rows : List (Seen K V))
    (new : Row K V) : List (Seen K V) → Prop
  | placed (none : ∀ c ∈ conflict, ∀ row ∈ rows, ¬ Agree c.keys row.1 new)
      (free : Free table.uniques rows new) :
      Inserted table conflict rows new (rows ++ [(new, true)])
  | skipped (c : Conflict K) (is : conflict = some c) (updates : c.updates = [])
      (found : ∃ row ∈ rows, Agree c.keys row.1 new) : Inserted table conflict rows new rows
  | updated (c : Conflict K) (is : conflict = some c) (updates : c.updates ≠ [])
      (before : List (Seen K V)) (old : Row K V) (rest : List (Seen K V))
      (split : rows = before ++ (old, false) :: rest)
      (first : ∀ row ∈ before, ¬ Agree c.keys row.1 new) (agree : Agree c.keys old new)
      (accepts : table.accepts (overwrite c.updates new old) = true)
      (free : Free table.uniques (before ++ rest) (overwrite c.updates new old)) :
      Inserted table conflict rows new (before ++ (overwrite c.updates new old, true) :: rest)

section splitFirst

variable {α : Type*} {p : α → Bool} {l before rest : List α} {x : α}

theorem splitFirst_eq_none_iff : splitFirst p l = none ↔ ∀ y ∈ l, p y = false := by
  induction l with
  | nil => simp [splitFirst]
  | cons y l ih =>
    unfold splitFirst
    split_ifs with hy
    · simp [hy]
    · simp [hy, ih]

theorem splitFirst_eq_some_iff : splitFirst p l = some (before, x, rest) ↔
    l = before ++ x :: rest ∧ (∀ y ∈ before, p y = false) ∧ p x = true := by
  induction l generalizing before with
  | nil => simp [splitFirst]
  | cons y l ih =>
    unfold splitFirst
    split_ifs with hy
    · constructor
      · intro h
        cases h
        exact ⟨rfl, by simp, hy⟩
      · rintro ⟨hl, hbefore, hx⟩
        cases before with
        | nil =>
          cases hl
          rfl
        | cons z before =>
          cases hl
          exact absurd hy (by simp [hbefore])
    · constructor
      · intro h
        obtain ⟨⟨before', x', rest'⟩, hfound, heq⟩ := map_eq_some_iff.mp h
        cases heq
        obtain ⟨rfl, hbefore, hx⟩ := ih.mp hfound
        refine ⟨rfl, ?_, hx⟩
        intro z hz
        rcases mem_cons.mp hz with rfl | hz
        · exact Bool.not_eq_true _ ▸ hy
        · exact hbefore z hz
      · rintro ⟨hl, hbefore, hx⟩
        cases before with
        | nil =>
          cases hl
          exact absurd hx hy
        | cons z before =>
          cases hl
          rw [ih.mpr ⟨rfl, fun w hw => hbefore w (mem_cons_of_mem _ hw), hx⟩]
          rfl

end splitFirst

section insertRow

variable {table : Table K V} {conflict : Option (Conflict K)} {rows rows' : List (Seen K V)}
  {new : Row K V}

theorem place_eq_some_iff : place table rows new = some rows' ↔
    Free table.uniques rows new ∧ rows' = rows ++ [(new, true)] := by
  unfold place
  split_ifs with h
  · simp [h, eq_comm]
  · simp [h]

/-- **One row is placed, skipped, or updates a row that the statement has not written.** -/
theorem insertRow_eq_some_iff : insertRow table conflict rows new = some rows' ↔
    table.accepts new = true ∧ Inserted table conflict rows new rows' := by
  unfold insertRow
  split_ifs with haccepts
  swap
  · simp [haccepts]
  rw [and_iff_right haccepts]
  cases conflict with
  | none =>
    simp only [place_eq_some_iff]
    constructor
    · rintro ⟨hfree, rfl⟩
      exact .placed (by simp) hfree
    · rintro (⟨-, hfree⟩ | ⟨c, hc⟩ | ⟨c, hc⟩)
      · exact ⟨hfree, rfl⟩
      · cases hc
      · cases hc
  | some c =>
    dsimp only
    cases hsplit : splitFirst (fun row => decide (Agree c.keys row.1 new)) rows with
    | none =>
      have hnone : ∀ row ∈ rows, ¬ Agree c.keys row.1 new := fun row hrow =>
        of_decide_eq_false (splitFirst_eq_none_iff.mp hsplit row hrow)
      dsimp only
      rw [place_eq_some_iff]
      constructor
      · rintro ⟨hfree, rfl⟩
        refine .placed ?_ hfree
        rintro c' ⟨⟩
        exact hnone
      · rintro (⟨-, hfree⟩ | ⟨c', hc, -, row, hrow, hagree⟩ |
          ⟨c', hc, -, before, old, rest, rfl, -, hagree⟩)
        · exact ⟨hfree, rfl⟩
        · cases hc
          exact absurd hagree (hnone row hrow)
        · cases hc
          exact absurd hagree (hnone (old, false) (by simp))
    | some found =>
      obtain ⟨before, ⟨old, written⟩, rest⟩ := found
      obtain ⟨hrows, hfirst, hagree⟩ := splitFirst_eq_some_iff.mp hsplit
      have hfound : Agree c.keys old new := of_decide_eq_true hagree
      have hmem : (old, written) ∈ rows := by simp [hrows]
      have hunique : ∀ before' old' rest', rows = before' ++ (old', false) :: rest' →
          (∀ row ∈ before', ¬ Agree c.keys row.1 new) → Agree c.keys old' new →
          (before', (old', false), rest') = (before, (old, written), rest) := by
        intro before' old' rest' hrows' hfirst' hagree'
        have hsplit' : splitFirst (fun row : Seen K V => decide (Agree c.keys row.1 new)) rows =
            some (before', (old', false), rest') := splitFirst_eq_some_iff.mpr
          ⟨hrows', fun row hrow => decide_eq_false (hfirst' row hrow), decide_eq_true hagree'⟩
        exact some.inj (hsplit'.symm.trans hsplit)
      dsimp only
      split_ifs with hupdates hwritten hok
      · constructor
        · rintro ⟨⟩
          exact .skipped c rfl hupdates ⟨_, hmem, hfound⟩
        · rintro (⟨hnone, -⟩ | ⟨c', hc⟩ | ⟨c', hc, hne⟩)
          · exact absurd hfound (hnone c rfl _ hmem)
          · rfl
          · cases hc
            exact absurd hupdates hne
      · refine iff_of_false nofun ?_
        rintro (⟨hnone, -⟩ | ⟨c', hc, hempty⟩ |
          ⟨c', hc, -, before', old', rest', hrows', hfirst', hagree'⟩)
        · exact hnone c rfl _ hmem hfound
        · cases hc
          exact hupdates hempty
        · cases hc
          cases hunique before' old' rest' hrows' hfirst' hagree'
          simp at hwritten
      · obtain rfl : written = false := by simpa using hwritten
        constructor
        · rintro ⟨⟩
          refine .updated c rfl hupdates before old rest hrows ?_ hfound hok.1 hok.2
          exact fun row hrow => of_decide_eq_false (hfirst row hrow)
        · rintro (⟨hnone, -⟩ | ⟨c', hc, hempty⟩ |
            ⟨c', hc, -, before', old', rest', hrows', hfirst', hagree'⟩)
          · exact absurd hfound (hnone c rfl _ hmem)
          · cases hc
            exact absurd hempty hupdates
          · cases hc
            cases hunique before' old' rest' hrows' hfirst' hagree'
            rfl
      · refine iff_of_false nofun ?_
        rintro (⟨hnone, -⟩ | ⟨c', hc, hempty⟩ |
          ⟨c', hc, -, before', old', rest', hrows', hfirst', hagree', haccepts', hfree'⟩)
        · exact hnone c rfl _ hmem hfound
        · cases hc
          exact hupdates hempty
        · cases hc
          cases hunique before' old' rest' hrows' hfirst' hagree'
          exact hok ⟨haccepts', hfree'⟩

variable {other : List (Seen K V)}

/-- The rows that agree with a row do not depend on what the statement has written. -/
theorem exists_of_map_eq (h : rows.map Prod.fst = other.map Prod.fst)
    {row : Seen K V} (hrow : row ∈ other) : ∃ row' ∈ rows, row'.1 = row.1 := by
  have hmem : row.1 ∈ rows.map Prod.fst := h ▸ List.mem_map_of_mem hrow
  exact List.mem_map.mp hmem

theorem Free.congr {uniques : List (List K)}
    (h : rows.map Prod.fst = other.map Prod.fst) (hfree : Free uniques rows new) :
    Free uniques other new := by
  intro keys hkeys row hrow hagree
  obtain ⟨row', hrow', heq⟩ := exists_of_map_eq h hrow
  rw [← heq] at hagree
  exact hfree keys hkeys row' hrow' hagree

/-- **What a row does is the same** in a statement that has written other rows, where none of these
has its key. -/
theorem exists_insertRow (hmap : rows.map Prod.fst = other.map Prod.fst)
    (hother : ∀ c ∈ conflict, c.updates ≠ [] → ∀ row ∈ other, row.2 = true →
      ¬ Agree c.keys row.1 new)
    (h : insertRow table conflict rows new = some rows') :
    ∃ other', insertRow table conflict other new = some other' ∧
      rows'.map Prod.fst = other'.map Prod.fst := by
  obtain ⟨haccepts, hinserted⟩ := insertRow_eq_some_iff.mp h
  cases hinserted with
  | placed hnone hfree =>
    refine ⟨other ++ [(new, true)], insertRow_eq_some_iff.mpr ⟨haccepts, .placed ?_ (hfree.congr hmap)⟩,
      by simp [hmap]⟩
    intro c hc row hrow hagree
    obtain ⟨row', hrow', heq⟩ := exists_of_map_eq hmap hrow
    rw [← heq] at hagree
    exact hnone c hc row' hrow' hagree
  | skipped c hc hupdates hfound =>
    obtain ⟨row, hrow, hagree⟩ := hfound
    obtain ⟨row', hrow', heq⟩ := exists_of_map_eq hmap.symm hrow
    rw [← heq] at hagree
    exact ⟨other, insertRow_eq_some_iff.mpr ⟨haccepts, .skipped c hc hupdates ⟨row', hrow', hagree⟩⟩,
      hmap⟩
  | updated c hc hupdates before old rest hsplit hfirst hagree haccepts' hfree =>
    rw [hsplit, map_append, map_cons] at hmap
    obtain ⟨before', tail, rfl, hbefore', htail⟩ := append_eq_map_iff.mp hmap
    obtain ⟨⟨old', written⟩, rest', rfl, rfl, hrest'⟩ := map_eq_cons_iff.mp htail
    have hwritten : written = false := by
      by_contra hne
      refine hother c hc hupdates (old', written) (by simp) (by simpa using hne) hagree
    subst hwritten
    refine ⟨before' ++ (overwrite c.updates new old', true) :: rest',
      insertRow_eq_some_iff.mpr ⟨haccepts, ?_⟩, by simp [hbefore', hrest']⟩
    refine .updated c hc hupdates before' old' rest' rfl ?_ hagree haccepts' ?_
    · intro row hrow hagree'
      obtain ⟨row', hrow', heq⟩ := exists_of_map_eq hbefore'.symm hrow
      rw [← heq] at hagree'
      exact hfirst row' hrow' hagree'
    · refine hfree.congr ?_
      rw [map_append, map_append, hbefore', hrest']

/-- A row that the statement writes has the key of the row that was proposed. -/
theorem Inserted.written (h : Inserted table conflict rows new rows') {row : Seen K V}
    (hrow : row ∈ rows') (hwritten : row.2 = true) :
    row ∈ rows ∨ ∀ c ∈ conflict, ∀ k ∈ c.keys, row.1 k = new k := by
  cases h with
  | placed =>
    rcases mem_append.mp hrow with hold | hnew
    · exact .inl hold
    · right
      intro _ _ _ _
      rw [mem_singleton.mp hnew]
  | skipped => exact .inl hrow
  | updated c hc hupdates before old rest hsplit hfirst hagree =>
    rw [hsplit]
    rcases mem_append.mp hrow with hbefore | htail
    · exact .inl (mem_append_left _ hbefore)
    · rcases mem_cons.mp htail with rfl | hrest
      · right
        rintro c' hc' k hk
        cases hc.symm.trans hc'
        exact overwrite_key c.updates hagree hk
      · exact .inl (mem_append_right _ (mem_cons_of_mem _ hrest))

end insertRow

/-! ## Several rows -/

section exec

variable {table : Table K V} {stmt : Insert K} {values : List (K → Option V)}

/-- A statement with one row. -/
theorem exec_singleton (hvalid : stmt.Valid table) (value : K → Option V) :
    exec table stmt [value] =
      (insertRow table stmt.conflict (table.rows.map unwritten) (table.proposed stmt.columns value)).map
        fun rows => { table with rows := rows.map Prod.fst } := by
  rw [exec, if_pos hvalid]
  simp [List.foldlM]

/-- A row that goes in satisfies the constraints. -/
theorem accepts_of_exec {value : K → Option V} {table' : Table K V}
    (h : exec table stmt [value] = some table') :
    table.accepts (table.proposed stmt.columns value) = true := by
  by_cases hvalid : stmt.Valid table
  · rw [exec_singleton hvalid] at h
    obtain ⟨rows, hrows, -⟩ := map_eq_some_iff.mp h
    exact (insertRow_eq_some_iff.mp hrows).1
  · rw [exec, if_neg hvalid] at h
    simp at h

/-- The rows of a statement, from what the statement has done so far. -/
theorem foldlM_insertRow_eq (hvalid : stmt.Valid table) {rows : List (Seen K V)}
    (hrows : ∀ value ∈ values, ∀ c ∈ stmt.conflict, c.updates ≠ [] → ∀ row ∈ rows, row.2 = true →
      ¬ Agree c.keys row.1 (table.proposed stmt.columns value))
    (hvalues : ∀ c ∈ stmt.conflict, c.updates ≠ [] →
      (values.map (table.proposed stmt.columns)).Pairwise
      fun a b => ¬ Agree c.keys a b) :
    ((values.map (table.proposed stmt.columns)).foldlM (insertRow table stmt.conflict) rows).map
        (fun rows => { table with rows := rows.map Prod.fst }) =
      values.foldlM (fun table value => exec table stmt [value])
        { table with rows := rows.map Prod.fst } := by
  induction values generalizing rows with
  | nil => rfl
  | cons value values ih =>
    have hmap : rows.map Prod.fst = ((rows.map Prod.fst).map unwritten).map Prod.fst := by
      simp [unwritten]
    have hnone : ∀ c ∈ stmt.conflict, c.updates ≠ [] →
        ∀ row ∈ (rows.map Prod.fst).map unwritten, row.2 = true →
          ¬ Agree c.keys row.1 (table.proposed stmt.columns value) := by
      intro c _ _ row hrow hwritten
      obtain ⟨_, -, rfl⟩ := List.mem_map.mp hrow
      simp [unwritten] at hwritten
    have hvalid' : stmt.Valid { table with rows := rows.map Prod.fst } := hvalid
    rw [map_cons, foldlM_cons, foldlM_cons, exec_singleton hvalid']
    show Option.map _ (Option.bind (insertRow table stmt.conflict rows
        (table.proposed stmt.columns value)) _) =
      Option.bind (Option.map _ (insertRow table stmt.conflict ((rows.map Prod.fst).map unwritten)
        (table.proposed stmt.columns value))) _
    cases hinsert : insertRow table stmt.conflict rows (table.proposed stmt.columns value) with
    | none =>
      cases hother : insertRow table stmt.conflict ((rows.map Prod.fst).map unwritten)
          (table.proposed stmt.columns value) with
      | none => rfl
      | some other =>
        obtain ⟨rows', hrows', -⟩ := exists_insertRow hmap.symm
          (hrows value mem_cons_self) hother
        rw [hinsert] at hrows'
        simp at hrows'
    | some rows' =>
      obtain ⟨other, hother, hfst⟩ := exists_insertRow hmap hnone hinsert
      rw [hother]
      simp only [bind_some, map_some]
      rw [← hfst]
      refine ih ?_ fun c hc hupdates => (pairwise_cons.mp (hvalues c hc hupdates)).2
      intro value' hvalue' c hc hupdates row hrow hwritten
      rcases (insertRow_eq_some_iff.mp hinsert).2.written hrow hwritten with hold | hkey
      · exact hrows value' (mem_cons_of_mem _ hvalue') c hc hupdates row hold hwritten
      · rw [agree_congr (hkey c hc)]
        exact (pairwise_cons.mp (hvalues c hc hupdates)).1 _ (List.mem_map_of_mem hvalue')

/-- **A statement whose rows have different keys** does what its rows do as statements of their
own. -/
theorem exec_eq_foldlM (hne : values ≠ []) (hvalues : ∀ c ∈ stmt.conflict, c.updates ≠ [] →
      (values.map (table.proposed stmt.columns)).Pairwise fun a b => ¬ Agree c.keys a b) :
    exec table stmt values = values.foldlM (fun table value => exec table stmt [value]) table := by
  by_cases hvalid : stmt.Valid table
  · have hrows : (table.rows.map unwritten).map Prod.fst = table.rows := by
      simp [unwritten, Function.comp_def]
    rw [exec, if_pos hvalid, foldlM_insertRow_eq hvalid _ hvalues, hrows]
    intro value _ c _ _ row hrow hwritten
    obtain ⟨_, -, rfl⟩ := List.mem_map.mp hrow
    simp [unwritten] at hwritten
  · obtain ⟨value, values, rfl⟩ := exists_cons_of_ne_nil hne
    rw [foldlM_cons, exec, if_neg hvalid, exec, if_neg hvalid]
    rfl

end exec

/-! ## Keys that are taken -/

/-- No two rows have one key. -/
def Distinct (keys : List K) (rows : List (Seen K V)) : Prop :=
  rows.Pairwise fun a b => ¬ Agree keys a.1 b.1

section distinct

variable {table : Table K V} {c : Conflict K} {rows rows' : List (Seen K V)} {new : Row K V}
  {news : List (Row K V)}

/-- Different rows have different keys. -/
theorem Distinct.not_agree (h : Distinct c.keys rows) {a b : Seen K V} (ha : a ∈ rows)
    (hb : b ∈ rows) (hne : a ≠ b) : ¬ Agree c.keys a.1 b.1 := by
  have hsymm : Std.Symm fun a b : Seen K V => ¬ Agree c.keys a.1 b.1 :=
    ⟨fun _ _ hnot hagree => hnot hagree.symm⟩
  exact List.Pairwise.forall h ha hb hne

/-- An update leaves the key of the row. -/
theorem overwrite_key_old {old : Row K V} (hagree : Agree c.keys old new) {k : K}
    (hk : k ∈ c.keys) :
    overwrite c.updates new old k = old k :=
  (overwrite_key c.updates hagree hk).trans (hagree k hk).2.symm

section

variable (h : Inserted table (some c) rows new rows')

include h

theorem Inserted.distinct (hrows : Distinct c.keys rows) : Distinct c.keys rows' := by
  cases h with
  | placed hnone =>
    refine pairwise_append.mpr ⟨hrows, pairwise_singleton _ _, ?_⟩
    intro row hrow row' hrow'
    rw [mem_singleton.mp hrow']
    exact hnone c rfl row hrow
  | skipped => exact hrows
  | updated c' hc hupdates before old rest hsplit hfirst hagree =>
    cases hc
    rw [hsplit] at hrows
    obtain ⟨hbefore, hrest, hbetween⟩ := pairwise_append.mp hrows
    obtain ⟨hold, hrest⟩ := pairwise_cons.mp hrest
    refine pairwise_append.mpr ⟨hbefore, pairwise_cons.mpr ⟨?_, hrest⟩, ?_⟩
    · intro row hrow
      rw [agree_congr fun k hk => overwrite_key_old hagree hk]
      exact hold row hrow
    · intro row hrow row' hrow' hboth
      rcases mem_cons.mp hrow' with rfl | hrow'
      · refine hbetween row hrow (old, false) mem_cons_self ?_
        exact ((agree_congr fun k hk => overwrite_key_old hagree hk).mp hboth.symm).symm
      · exact hbetween row hrow row' (mem_cons_of_mem _ hrow') hboth

/-- What the statement has written stays as it is. -/
theorem Inserted.kept {row : Seen K V}
    (hrow : row ∈ rows) (hwritten : row.2 = true) : row ∈ rows' := by
  cases h with
  | placed => exact mem_append_left _ hrow
  | skipped => exact hrow
  | updated c' hc hupdates before old rest hsplit =>
    rw [hsplit] at hrow
    rcases mem_append.mp hrow with hbefore | htail
    · exact mem_append_left _ hbefore
    · rcases mem_cons.mp htail with rfl | hrest
      · simp at hwritten
      · exact mem_append_right _ (mem_cons_of_mem _ hrest)

/-- The row that was proposed is written, or has updated the row with its key. -/
theorem Inserted.exists_written (hupdates : c.updates ≠ []) :
    ∃ row ∈ rows', row.2 = true ∧ ∀ k ∈ c.keys, row.1 k = new k := by
  cases h with
  | placed => exact ⟨(new, true), by simp, rfl, fun _ _ => rfl⟩
  | skipped c' hc hempty =>
    cases hc
    exact absurd hempty hupdates
  | updated c' hc _ before old rest hsplit hfirst hagree =>
    cases hc
    exact ⟨(overwrite c.updates new old, true), by simp, rfl,
      fun k hk => overwrite_key c.updates hagree hk⟩

end

/-- **Rows that a statement takes have different keys**, and other ones than what it has written. -/
theorem pairwise_of_foldlM (hupdates : c.updates ≠ []) (hrows : Distinct c.keys rows)
    (h : news.foldlM (insertRow table (some c)) rows = some rows') :
    (∀ new ∈ news, ∀ row ∈ rows, row.2 = true → ¬ Agree c.keys row.1 new) ∧
      news.Pairwise fun a b => ¬ Agree c.keys a b := by
  induction news generalizing rows with
  | nil => exact ⟨by simp, List.Pairwise.nil⟩
  | cons new news ih =>
    rw [foldlM_cons] at h
    obtain ⟨between, hbetween, hrest⟩ := bind_eq_some_iff.mp h
    have hinserted := (insertRow_eq_some_iff.mp hbetween).2
    obtain ⟨hlater, hpairwise⟩ := ih (hinserted.distinct hrows) hrest
    refine ⟨?_, pairwise_cons.mpr ⟨?_, hpairwise⟩⟩
    · intro a ha row hrow hwritten
      rcases mem_cons.mp ha with rfl | ha
      · intro hagree
        cases hinserted with
        | placed hnone => exact hnone c rfl row hrow hagree
        | skipped c' hc hempty =>
          cases hc
          exact hupdates hempty
        | updated c' hc _ before old rest hsplit hfirst hold =>
          cases hc
          have hne : row ≠ (old, false) := by
            rintro rfl
            simp at hwritten
          exact hrows.not_agree hrow (by simp [hsplit]) hne (hagree.trans hold.symm)
      · exact hlater a ha row (hinserted.kept hrow hwritten) hwritten
    · intro b hb hagree
      obtain ⟨row, hrow, hwritten, hkey⟩ := hinserted.exists_written hupdates
      exact hlater b hb row hrow hwritten ((agree_congr hkey).mpr hagree)

/-- **A statement with two rows of one key fails**, where it would have to update. -/
theorem pairwise_of_exec {stmt : Insert K} {values : List (K → Option V)} {table' : Table K V}
    (hconflict : stmt.conflict = some c) (hupdates : c.updates ≠ [])
    (hrows : Distinct c.keys (table.rows.map unwritten))
    (h : exec table stmt values = some table') :
    (values.map (table.proposed stmt.columns)).Pairwise fun a b => ¬ Agree c.keys a b := by
  unfold exec at h
  split_ifs at h
  obtain ⟨rows', hrows', -⟩ := map_eq_some_iff.mp h
  rw [hconflict] at hrows'
  exact (pairwise_of_foldlM hupdates hrows hrows').2

end distinct

variable {ok : Row K V → Bool}

/-! ## Tables with few constraints -/

section few

variable {table table' : Table K V} {stmt : Insert K} {values : List (K → Option V)}

/-- **A table without other constraints takes every row**: the conflict target is its only unique
index. -/
theorem exists_exec (hall : ∀ row, table.accepts row = true)
    (hcolumns : stmt.columns ⊆ table.columns)
    (huniques : table.uniques = (stmt.conflict.map Conflict.keys).toList)
    (hrows : ∀ c ∈ stmt.conflict, Distinct c.keys (table.rows.map unwritten))
    (value : K → Option V) :
    ∃ rows, exec table stmt [value] = some { table with rows := rows } ∧
      ∀ c ∈ stmt.conflict, Distinct c.keys (rows.map unwritten) := by
  have hvalid : stmt.Valid table := by
    refine ⟨hcolumns, fun c hc => ⟨c.keys, ?_, List.Subset.refl _, List.Subset.refl _⟩⟩
    rw [huniques, mem_def.mp hc]
    exact mem_singleton_self _
  set new := table.proposed stmt.columns value with hnew
  have hinsert : ∃ rows, Inserted table stmt.conflict (table.rows.map unwritten) new rows := by
    cases hconflict : stmt.conflict with
    | none =>
      rw [hconflict] at huniques
      exact ⟨_, .placed (by simp) (by simp [huniques, Free])⟩
    | some c =>
      rw [hconflict] at huniques
      have hdistinct := hrows c hconflict
      cases hsplit : splitFirst (fun row : Seen K V => decide (Agree c.keys row.1 new))
          (table.rows.map unwritten) with
      | none =>
        have hnone : ∀ row ∈ table.rows.map unwritten, ¬ Agree c.keys row.1 new :=
          fun row hrow =>
          of_decide_eq_false (splitFirst_eq_none_iff.mp hsplit row hrow)
        refine ⟨_, .placed ?_ ?_⟩
        · rintro c' ⟨⟩
          exact hnone
        · intro keys hkeys
          rw [huniques, map_some, toList_some, mem_singleton] at hkeys
          rw [hkeys]
          exact hnone
      | some found =>
        obtain ⟨before, ⟨old, written⟩, rest⟩ := found
        obtain ⟨hsplit, hfirst, htest⟩ := splitFirst_eq_some_iff.mp hsplit
        have hagree : Agree c.keys old new := of_decide_eq_true htest
        have hmem : (old, written) ∈ table.rows.map unwritten := by simp [hsplit]
        obtain rfl : written = false := by
          obtain ⟨_, -, heq⟩ := List.mem_map.mp hmem
          exact (congrArg Prod.snd heq).symm
        by_cases hupdates : c.updates = []
        · exact ⟨_, .skipped c rfl hupdates ⟨_, hmem, hagree⟩⟩
        · refine ⟨_, .updated c rfl hupdates before old rest hsplit
            (fun row hrow => of_decide_eq_false (hfirst row hrow)) hagree (hall _) ?_⟩
          intro keys hkeys row hrow hboth
          rw [huniques, map_some, toList_some, mem_singleton] at hkeys
          rw [hkeys] at hboth
          have hboth : Agree c.keys row.1 old :=
            ((agree_congr fun k hk => overwrite_key_old hagree hk).mp hboth.symm).symm
          rw [hsplit] at hdistinct
          obtain ⟨-, hrest, hbetween⟩ := pairwise_append.mp hdistinct
          rcases mem_append.mp hrow with hbefore | hafter
          · exact hbetween row hbefore (old, false) mem_cons_self hboth
          · exact (pairwise_cons.mp hrest).1 row hafter hboth.symm
  obtain ⟨rows, hinserted⟩ := hinsert
  refine ⟨rows.map Prod.fst, ?_, ?_⟩
  · rw [exec_singleton hvalid, ← hnew, insertRow_eq_some_iff.mpr ⟨hall new, hinserted⟩]
    rfl
  · intro c hc
    rw [mem_def.mp hc] at hinserted
    have hdistinct := hinserted.distinct (hrows c hc)
    rw [Distinct, List.map_map, pairwise_map]
    exact hdistinct

/-- A row that goes in under a constraint on the rows that are there and the one that is
proposed. -/
theorem insertRow_of_accepts {conflict : Option (Conflict K)} {rows rows' : List (Seen K V)}
    {new : Row K V}
    (hover : ∀ updates new old, ok new = true → ok old = true →
      ok (overwrite updates new old) = true)
    (hrows : ∀ row ∈ rows, ok row.1 = true) (hnew : ok new = true)
    (h : insertRow table conflict rows new = some rows') :
    insertRow { table with accepts := ok } conflict rows new = some rows' ∧
      ∀ row ∈ rows', ok row.1 = true := by
  obtain ⟨-, hinserted⟩ := insertRow_eq_some_iff.mp h
  rw [insertRow_eq_some_iff, and_iff_right hnew]
  cases hinserted with
  | placed hnone hfree =>
    refine ⟨.placed hnone hfree, fun row hrow => ?_⟩
    rcases mem_append.mp hrow with hold | hlast
    · exact hrows row hold
    · rw [mem_singleton.mp hlast]
      exact hnew
  | skipped c hc hupdates hfound => exact ⟨.skipped c hc hupdates hfound, hrows⟩
  | updated c hc hupdates before old rest hsplit hfirst hagree _ hfree =>
    have hold : ok old = true := hrows (old, false) (by simp [hsplit])
    have hupdated := hover c.updates new old hnew hold
    refine ⟨.updated c hc hupdates before old rest hsplit hfirst hagree hupdated hfree, fun row hrow => ?_⟩
    rcases mem_append.mp hrow with hbefore | htail
    · exact hrows row (by simp [hsplit, hbefore])
    · rcases mem_cons.mp htail with rfl | hrest
      · exact hupdated
      · exact hrows row (by simp [hsplit, hrest])

/-- **A statement that succeeds** does so under a constraint that its rows satisfy. -/
theorem exec_of_accepts (hover : ∀ updates new old, ok new = true → ok old = true →
      ok (overwrite updates new old) = true)
    (hrows : ∀ row ∈ table.rows, ok row = true)
    (hvalues : ∀ value ∈ values, ok (table.proposed stmt.columns value) = true)
    (h : exec table stmt values = some table') :
    exec { table with accepts := ok } stmt values = some { table' with accepts := ok } ∧
      ∀ row ∈ table'.rows, ok row = true := by
  unfold exec at h
  split_ifs at h with hvalid
  obtain ⟨rows', hrows', rfl⟩ := map_eq_some_iff.mp h
  have hvalid' : stmt.Valid { table with accepts := ok } := hvalid
  have hfold : ∀ (news : List (Row K V)) (rows : List (Seen K V)), (∀ new ∈ news, ok new = true) →
      (∀ row ∈ rows, ok row.1 = true) → news.foldlM (insertRow table stmt.conflict) rows = some rows' →
      news.foldlM (insertRow { table with accepts := ok } stmt.conflict) rows = some rows' ∧
        ∀ row ∈ rows', ok row.1 = true := by
    intro news
    induction news with
    | nil =>
      rintro rows - hrows ⟨⟩
      exact ⟨rfl, hrows⟩
    | cons new news ih =>
      intro rows hnews hrows hfold
      rw [foldlM_cons] at hfold ⊢
      obtain ⟨between, hbetween, hrest⟩ := bind_eq_some_iff.mp hfold
      obtain ⟨hinsert, hok⟩ := insertRow_of_accepts hover hrows (hnews new mem_cons_self) hbetween
      obtain ⟨hrest, hok⟩ := ih between (fun a ha => hnews a (mem_cons_of_mem _ ha)) hok hrest
      exact ⟨bind_eq_some_iff.mpr ⟨between, hinsert, hrest⟩, hok⟩
  obtain ⟨hfolded, hok⟩ := hfold _ _ (by simpa using hvalues) (by simpa [unwritten] using hrows) hrows'
  refine ⟨?_, ?_⟩
  · rw [exec, if_pos hvalid']
    exact map_eq_some_iff.mpr ⟨rows', hfolded, rfl⟩
  · intro row hrow
    obtain ⟨seen, hseen, rfl⟩ := List.mem_map.mp hrow
    exact hok seen hseen

end few

/-! ## Runs -/

/-- Statements with the values of their rows, one after the other. -/
def run (table : Table K V) (statements : List (Insert K × List (K → Option V))) :
    Option (Table K V) :=
  statements.foldlM (fun table statement => exec table statement.1 statement.2) table

section run

variable {table table' : Table K V} {stmt : Insert K} {values : List (K → Option V)}
  {statements : List (Insert K × List (K → Option V))}

theorem run_cons (statement : Insert K × List (K → Option V)) :
    run table (statement :: statements) =
      (exec table statement.1 statement.2).bind fun table => run table statements :=
  foldlM_cons ..

theorem run_append (statements' : List (Insert K × List (K → Option V))) :
    run table (statements ++ statements') =
      (run table statements).bind fun table => run table statements' :=
  foldlM_append ..

/-- A statement changes the rows only. -/
theorem exists_rows_of_exec (h : exec table stmt values = some table') :
    ∃ rows, table' = { table with rows := rows } := by
  unfold exec at h
  split_ifs at h
  obtain ⟨rows, -, rfl⟩ := map_eq_some_iff.mp h
  exact ⟨_, rfl⟩

/-- A statement leaves keys distinct. -/
theorem distinct_of_exec {c : Conflict K} (hconflict : stmt.conflict = some c)
    (hrows : Distinct c.keys (table.rows.map unwritten))
    (h : exec table stmt values = some table') :
    Distinct c.keys (table'.rows.map unwritten) := by
  unfold exec at h
  split_ifs at h
  obtain ⟨rows, hfold, rfl⟩ := map_eq_some_iff.mp h
  have hdistinct : Distinct c.keys rows := by
    rw [hconflict] at hfold
    generalize values.map (table.proposed stmt.columns) = news at hfold
    generalize table.rows.map unwritten = start at hrows hfold
    induction news generalizing start with
    | nil =>
      cases hfold
      exact hrows
    | cons new news ih =>
      rw [foldlM_cons] at hfold
      obtain ⟨between, hbetween, hrest⟩ := bind_eq_some_iff.mp hfold
      exact ih between ((insertRow_eq_some_iff.mp hbetween).2.distinct hrows) hrest
  rw [Distinct, List.map_map, pairwise_map]
  exact hdistinct

/-- **Every statement of a run has succeeded**, at rows with the invariant of the run. -/
theorem exists_exec_of_run {I : List (Row K V) → Prop}
    (hkeep : ∀ statement ∈ statements, ∀ rows rows',
      I rows → exec { table with rows := rows } statement.1 statement.2 =
        some { table with rows := rows' } → I rows')
    (hrows : I table.rows) (h : run table statements = some table') :
    ∀ statement ∈ statements, ∃ rows rows', I rows ∧
      exec { table with rows := rows } statement.1 statement.2 = some { table with rows := rows' } := by
  induction statements generalizing table with
  | nil => simp
  | cons statement statements ih =>
    rw [run_cons] at h
    obtain ⟨between, hbetween, hrest⟩ := bind_eq_some_iff.mp h
    obtain ⟨rows, rfl⟩ := exists_rows_of_exec hbetween
    have hnext := @ih { table with rows := rows }
      (fun statement hstatement => hkeep statement (mem_cons_of_mem _ hstatement))
      (hkeep statement mem_cons_self table.rows rows hrows hbetween) hrest
    intro other hother
    rcases mem_cons.mp hother with rfl | hother
    · exact ⟨table.rows, rows, hrows, hbetween⟩
    · exact hnext other hother

/-- **A table without other constraints takes every row**, by statements with one conflict
target. -/
theorem exists_run {keys : Option (List K)} (hall : ∀ row, table.accepts row = true)
    (huniques : table.uniques = keys.toList)
    (hrows : ∀ k ∈ keys, Distinct k (table.rows.map unwritten))
    (hstatements : ∀ statement ∈ statements, statement.1.columns ⊆ table.columns ∧
      statement.1.conflict.map Conflict.keys = keys ∧ ∃ value, statement.2 = [value]) :
    ∃ table', run table statements = some table' := by
  induction statements generalizing table with
  | nil => exact ⟨table, rfl⟩
  | cons statement statements ih =>
    obtain ⟨hcolumns, hkeys, value, hvalue⟩ := hstatements statement mem_cons_self
    obtain ⟨rows, hexec, hdistinct⟩ := exists_exec hall hcolumns (hkeys ▸ huniques)
      (fun c hc => hrows c.keys (by rw [← hkeys, mem_def.mp hc]; rfl)) value
    have hnext : ∀ k ∈ keys, Distinct k (rows.map unwritten) := by
      intro k hk
      rw [← hkeys] at hk
      obtain ⟨c, hc, rfl⟩ := map_eq_some_iff.mp hk
      exact hdistinct c hc
    obtain ⟨table', htable'⟩ := @ih { table with rows := rows } hall huniques hnext
      fun other hother => hstatements other (mem_cons_of_mem _ hother)
    refine ⟨table', ?_⟩
    rw [run_cons, hvalue, hexec]
    exact htable'

/-- **A run that succeeds** does so under a constraint that its rows satisfy. -/
theorem exists_run_of_accepts (hover : ∀ updates new old, ok new = true → ok old = true →
      ok (overwrite updates new old) = true)
    (hrows : ∀ row ∈ table.rows, ok row = true)
    (hvalues : ∀ statement ∈ statements, ∀ value ∈ statement.2,
      ok (table.proposed statement.1.columns value) = true)
    (h : run table statements = some table') :
    ∃ table', run { table with accepts := ok } statements = some table' := by
  induction statements generalizing table with
  | nil => exact ⟨_, rfl⟩
  | cons statement statements ih =>
    rw [run_cons] at h
    obtain ⟨between, hbetween, hrest⟩ := bind_eq_some_iff.mp h
    obtain ⟨rows, rfl⟩ := exists_rows_of_exec hbetween
    obtain ⟨hexec, hok⟩ := exec_of_accepts hover hrows (hvalues statement mem_cons_self) hbetween
    obtain ⟨table'', htable''⟩ := @ih { table with rows := rows } hok
      (fun other hother => hvalues other (mem_cons_of_mem _ hother)) hrest
    exact ⟨table'', by rw [run_cons, hexec]; exact htable''⟩

/-- **Statements whose rows have different keys** do what the rows do as statements of their own. -/
theorem run_eq_run_rows (h : ∀ statement ∈ statements, statement.2 ≠ [] ∧
      ∀ rows, ∀ c ∈ statement.1.conflict, c.updates ≠ [] →
        (statement.2.map (({ table with rows := rows } : Table K V).proposed statement.1.columns)).Pairwise
          fun a b => ¬ Agree c.keys a b) :
    run table statements =
      run table (statements.flatMap fun statement => statement.2.map fun value => (statement.1, [value])) := by
  induction statements generalizing table with
  | nil => rfl
  | cons statement statements ih =>
    obtain ⟨hne, hpairwise⟩ := h statement mem_cons_self
    have hsingle : run table (statement.2.map fun value => (statement.1, [value])) =
        exec table statement.1 statement.2 := by
      rw [exec_eq_foldlM hne (hpairwise table.rows), run, foldlM_map]
    rw [run_cons, flatMap_cons, run_append, hsingle]
    cases hexec : exec table statement.1 statement.2 with
    | none => rfl
    | some between =>
      obtain ⟨rows, rfl⟩ := exists_rows_of_exec hexec
      exact ih fun other hother => h other (mem_cons_of_mem _ hother)

end run

end Dataflow.Library.Upsert
