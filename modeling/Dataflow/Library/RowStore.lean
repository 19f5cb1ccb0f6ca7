import Mathlib.Logic.Function.Basic
import Mathlib.Data.Option.Basic
import Mathlib.Tactic.SplitIfs

/-!
# A table with row locks

A table of a relational database under the isolation level READ COMMITTED. A row has the version
that is committed and at most one owner, a transaction that has locked or written it; only the owner
sees what it has written. A statement that needs a row owned by another transaction has to wait: the
operation gives `none`, and is tried again later.

* `RowStore`: the committed rows, the owners and the versions they have written.
* `visible`: what a transaction sees.
* `insertDoNothing`, `upsert`, `update`, `selectForUpdate`: `INSERT … ON CONFLICT DO NOTHING`,
  `INSERT … ON CONFLICT DO UPDATE`, `UPDATE` and `SELECT … FOR UPDATE` of one row. A lock is taken
  on a row that exists only.
* `commit`, `rollback`: the end of a transaction.
* `ByOwner`: what a transaction leaves to the others.
* `Elsewhere`: what an operation leaves of the other rows.
* `Every`: what holds of every version of every row.
* `Alone`: the table as its only transaction sees it.
-/

set_option linter.unusedSectionVars false

namespace Dataflow.Library

open Function Option

/-- A table with the transactions `ι`, the keys `κ` and the rows `V`. -/
structure RowStore (ι κ V : Type*) where
  committed : κ → Option V
  owner : κ → Option ι
  pending : κ → Option V

namespace RowStore

variable {ι κ V : Type*}

/-- A table that no transaction works on. -/
def ofRows (rows : κ → Option V) : RowStore ι κ V := ⟨rows, fun _ => none, fun _ => none⟩

section operations

variable [DecidableEq ι] [DecidableEq κ] (store : RowStore ι κ V) (i : ι) (k : κ)

/-- The version of a row that a transaction sees. -/
def visible : Option V :=
  if store.owner k = some i then (store.pending k).orElse fun _ => store.committed k
  else store.committed k

/-- The row is not owned by another transaction. -/
def Free : Prop := store.owner k = none ∨ store.owner k = some i

instance : Decidable (store.Free i k) := inferInstanceAs (Decidable (_ ∨ _))

/-- The transaction becomes the owner of a row and writes it, or leaves it as it is. -/
def hold (value : Option V) : RowStore ι κ V where
  committed := store.committed
  owner := Function.update store.owner k (some i)
  pending := Function.update store.pending k
    (value.orElse fun _ => if store.owner k = some i then store.pending k else none)

/-- `INSERT … ON CONFLICT DO NOTHING`. -/
def insertDoNothing (value : V) : Option (RowStore ι κ V) :=
  match store.visible i k with
  | some _ => some store
  | none => if store.Free i k then some (store.hold i k (some value)) else none

/-- `INSERT … ON CONFLICT DO UPDATE`. -/
def upsert (value : V) : Option (RowStore ι κ V) :=
  if store.Free i k then some (store.hold i k (some value)) else none

/-- `UPDATE` of one row; without a row it does nothing. -/
def update (f : V → V) : Option (RowStore ι κ V) :=
  match store.visible i k with
  | none => some store
  | some value => if store.Free i k then some (store.hold i k (some (f value))) else none

/-- `SELECT … FOR UPDATE` of one row; without a row it locks nothing. -/
def selectForUpdate : Option (Option V × RowStore ι κ V) :=
  match store.visible i k with
  | none => some (none, store)
  | some value => if store.Free i k then some (some value, store.hold i k none) else none

/-- The transaction gives up its rows. -/
def rollback : RowStore ι κ V where
  committed := store.committed
  owner k := if store.owner k = some i then none else store.owner k
  pending k := if store.owner k = some i then none else store.pending k

/-- The transaction publishes its rows. -/
def commit : RowStore ι κ V where
  committed k := store.visible i k
  owner k := if store.owner k = some i then none else store.owner k
  pending k := if store.owner k = some i then none else store.pending k

end operations

/-! ## What the operations do to a row -/

section lemmas

variable [DecidableEq ι] {store store' : RowStore ι κ V} {i j : ι} {k l : κ} {value : V}
  {row : Option V}

/-- Who is not the owner sees what is committed. -/
theorem visible_of_ne (h : store.owner k ≠ some i) : store.visible i k = store.committed k :=
  if_neg h

/-- The owner of a row sees what it has written. -/
theorem visible_of_pending (h : store.owner k = some i)
    (hp : store.pending k = some value) : store.visible i k = some value := by
  rw [visible, if_pos h, hp]
  rfl

section hold

variable [DecidableEq κ]

@[simp] theorem hold_owner_self (value : Option V) : (store.hold i k value).owner k = some i :=
  update_self ..

@[simp] theorem hold_owner_ne (h : l ≠ k) (value : Option V) :
    (store.hold i k value).owner l = store.owner l :=
  update_of_ne h ..

@[simp] theorem hold_pending_some (value : V) :
    (store.hold i k (some value)).pending k = some value :=
  update_self ..

@[simp] theorem hold_pending_ne (h : l ≠ k) (value : Option V) :
    (store.hold i k value).pending l = store.pending l :=
  update_of_ne h ..

/-- A transaction sees the row it has written. -/
@[simp] theorem hold_visible_self (value : V) :
    (store.hold i k (some value)).visible i k = some value :=
  visible_of_pending (hold_owner_self _) (hold_pending_some value)

/-- To lock a row is not to change it. -/
theorem hold_none_visible : (store.hold i k none).visible i k = store.visible i k := by
  have hpending : (store.hold i k none).pending k =
      if store.owner k = some i then store.pending k else none := update_self ..
  rw [visible, hold_owner_self, if_pos rfl, hpending, visible]
  by_cases hown : store.owner k = some i
  · rw [if_pos hown, if_pos hown]
    rfl
  · rw [if_neg hown, if_neg hown]
    rfl

/-- Other rows look as before. -/
theorem hold_visible_ne (h : l ≠ k) (value : Option V) :
    (store.hold i k value).visible j l = store.visible j l := by
  rw [visible, visible, hold_owner_ne h, hold_pending_ne h]
  rfl

end hold

@[simp] theorem rollback_committed : (store.rollback i).committed = store.committed := rfl

@[simp] theorem commit_committed : (store.commit i).committed k = store.visible i k := rfl

/-- A row of another transaction stays with it. -/
theorem commit_owner_of_ne (h : store.owner k ≠ some i) :
    (store.commit i).owner k = store.owner k := if_neg h

theorem commit_pending_of_ne (h : store.owner k ≠ some i) :
    (store.commit i).pending k = store.pending k := if_neg h

theorem rollback_owner_of_ne (h : store.owner k ≠ some i) :
    (store.rollback i).owner k = store.owner k := if_neg h

theorem commit_owner_ne_self : (store.commit i).owner k ≠ some i := by
  by_cases h : store.owner k = some i
  · rw [show (store.commit i).owner k = none from if_pos h]
    exact nofun
  · rwa [commit_owner_of_ne h]

theorem rollback_owner_ne_self : (store.rollback i).owner k ≠ some i :=
  commit_owner_ne_self

variable {f : V → V}

/-! ## What a transaction leaves to the others -/

section byOwner

/-- The rows of the other transactions stay as they are, and stay theirs. -/
def ByOwner (i : ι) (store store' : RowStore ι κ V) : Prop :=
  ∀ j ≠ i, ∀ k, (store.owner k = some j → store'.committed k = store.committed k ∧
      store'.owner k = some j ∧ store'.pending k = store.pending k) ∧
    (store'.owner k = some j → store.owner k = some j)

theorem ByOwner.refl (i : ι) (store : RowStore ι κ V) : ByOwner i store store :=
  fun _ _ _ => ⟨fun h => ⟨rfl, h, rfl⟩, id⟩

theorem ByOwner.hold [DecidableEq κ] (h : store.Free i k) (value : Option V) :
    ByOwner i store (store.hold i k value) := by
  intro j hj l
  by_cases hl : l = k
  · subst hl
    rw [hold_owner_self]
    refine ⟨fun hown => ?_, fun hown => absurd (some.inj hown).symm hj⟩
    rcases h with h | h
    · simp [h] at hown
    · rw [h] at hown
      exact absurd (some.inj hown).symm hj
  · rw [hold_owner_ne hl, hold_pending_ne hl]
    exact ⟨fun hown => ⟨rfl, hown, rfl⟩, id⟩

/-- The owner of a row sees of it what it saw before. -/
theorem ByOwner.visible (h : ByOwner i store store') (hj : j ≠ i) (hown : store.owner k = some j) :
    store'.visible j k = store.visible j k := by
  obtain ⟨hcommitted, howner, hpending⟩ := (h j hj k).1 hown
  rw [RowStore.visible, RowStore.visible, if_pos howner, if_pos hown, hcommitted, hpending]

theorem ByOwner.commit (i : ι) (store : RowStore ι κ V) : ByOwner i store (store.commit i) := by
  intro j hj l
  refine ⟨fun hown => ?_, fun hown => ?_⟩
  · have hne : store.owner l ≠ some i := by
      rw [hown]
      exact fun h => hj (some.inj h)
    exact ⟨visible_of_ne hne, by rwa [commit_owner_of_ne hne], commit_pending_of_ne hne⟩
  · by_cases hne : store.owner l = some i
    · simp [show (store.commit i).owner l = none from if_pos hne] at hown
    · rwa [commit_owner_of_ne hne] at hown

theorem ByOwner.rollback (i : ι) (store : RowStore ι κ V) : ByOwner i store (store.rollback i) := by
  intro j hj l
  obtain ⟨hkeep, htake⟩ := ByOwner.commit i store j hj l
  exact ⟨fun hown => ⟨rfl, (hkeep hown).2⟩, htake⟩

/-- One step after the other. -/
theorem ByOwner.trans {store'' : RowStore ι κ V} (h : ByOwner i store store')
    (h' : ByOwner i store' store'') : ByOwner i store store'' := by
  intro j hj k
  constructor
  · intro hown
    obtain ⟨hcommitted, howner, hpending⟩ := (h j hj k).1 hown
    obtain ⟨hcommitted', howner', hpending'⟩ := (h' j hj k).1 howner
    exact ⟨hcommitted'.trans hcommitted, howner', hpending'.trans hpending⟩
  · intro hown
    exact (h j hj k).2 ((h' j hj k).2 hown)

variable [DecidableEq κ]

theorem ByOwner.insertDoNothing
    (h : store.insertDoNothing i k value = some store') : ByOwner i store store' := by
  unfold RowStore.insertDoNothing at h
  split at h
  · cases h
    exact .refl i store
  · split_ifs at h with hfree
    cases h
    exact .hold hfree _

theorem ByOwner.update (h : store.update i k f = some store') : ByOwner i store store' := by
  unfold RowStore.update at h
  split at h
  · cases h
    exact .refl i store
  · split_ifs at h with hfree
    cases h
    exact .hold hfree _

theorem ByOwner.upsert (h : store.upsert i k value = some store') : ByOwner i store store' := by
  unfold RowStore.upsert at h
  split_ifs at h with hfree
  cases h
  exact .hold hfree _

theorem ByOwner.selectForUpdate
    (h : store.selectForUpdate i k = some (row, store')) : ByOwner i store store' := by
  unfold RowStore.selectForUpdate at h
  split at h
  · cases h
    exact .refl i store
  · split_ifs at h with hfree
    cases h
    exact .hold hfree _

/-- Statements leave what is committed as it is. -/
theorem insertDoNothing_committed (h : store.insertDoNothing i k value = some store') :
    store'.committed = store.committed := by
  unfold RowStore.insertDoNothing at h
  split at h
  · cases h
    rfl
  · split_ifs at h
    cases h
    rfl

theorem update_committed (h : store.update i k f = some store') :
    store'.committed = store.committed := by
  unfold RowStore.update at h
  split at h
  · cases h
    rfl
  · split_ifs at h
    cases h
    rfl

theorem selectForUpdate_committed (h : store.selectForUpdate i k = some (row, store')) :
    store'.committed = store.committed := by
  unfold RowStore.selectForUpdate at h
  split at h
  · cases h
    rfl
  · split_ifs at h
    cases h
    rfl

/-- A row that is read for update looks as before. -/
theorem selectForUpdate_visible (h : store.selectForUpdate i k = some (row, store')) :
    store'.visible i k = store.visible i k := by
  unfold RowStore.selectForUpdate at h
  split at h
  · cases h
    rfl
  · split_ifs at h
    cases h
    exact hold_none_visible

/-- A read that finds no row locks nothing. -/
theorem selectForUpdate_none (h : store.selectForUpdate i k = some (none, store')) :
    store' = store := by
  unfold RowStore.selectForUpdate at h
  split at h
  · cases h
    rfl
  · split_ifs at h
    cases h

/-- **A row that is read for update** is locked, and looks as it is read. -/
theorem selectForUpdate_some (h : store.selectForUpdate i k = some (some value, store')) :
    store'.owner k = some i ∧ store'.visible i k = some value ∧ store.visible i k = some value ∧
      store'.committed = store.committed := by
  unfold RowStore.selectForUpdate at h
  split at h
  · cases h
  · rename_i old hvisible
    split_ifs at h
    cases h
    exact ⟨hold_owner_self _, by rw [hold_none_visible, hvisible], hvisible, rfl⟩

/-- **A row is written**, whether it was there or not. -/
theorem upsert_some (h : store.upsert i k value = some store') :
    store'.owner k = some i ∧ store'.visible i k = some value ∧
      store'.committed = store.committed := by
  unfold RowStore.upsert at h
  split_ifs at h
  cases h
  exact ⟨hold_owner_self _, hold_visible_self _, rfl⟩

/-- **A row that is there is updated.** -/
theorem update_some (hvisible : store.visible i k = some value)
    (h : store.update i k f = some store') :
    store'.owner k = some i ∧ store'.visible i k = some (f value) ∧
      store'.committed = store.committed := by
  unfold RowStore.update at h
  rw [hvisible] at h
  dsimp only at h
  split_ifs at h
  cases h
  exact ⟨hold_owner_self _, hold_visible_self _, rfl⟩

/-- **After an insert that does nothing on a conflict** the row is there. -/
theorem insertDoNothing_visible (h : store.insertDoNothing i k value = some store') :
    store'.visible i k = some ((store.visible i k).getD value) := by
  unfold RowStore.insertDoNothing at h
  split at h
  · rename_i hvisible
    cases h
    rw [hvisible]
    rfl
  · rename_i hvisible
    split_ifs at h
    cases h
    rw [hold_visible_self, hvisible]
    rfl

end byOwner

/-! ## What an operation leaves of the other rows -/

section elsewhere

/-- Only one row may be different. -/
def Elsewhere (k : κ) (store store' : RowStore ι κ V) : Prop :=
  ∀ l ≠ k, store'.committed l = store.committed l ∧ store'.owner l = store.owner l ∧
    store'.pending l = store.pending l

theorem Elsewhere.refl (k : κ) (store : RowStore ι κ V) : Elsewhere k store store :=
  fun _ _ => ⟨rfl, rfl, rfl⟩

theorem Elsewhere.visible (h : Elsewhere k store store') (hl : l ≠ k) :
    store'.visible j l = store.visible j l := by
  obtain ⟨hcommitted, howner, hpending⟩ := h l hl
  rw [RowStore.visible, RowStore.visible, hcommitted, howner, hpending]

variable [DecidableEq κ]

theorem Elsewhere.hold (value : Option V) : Elsewhere k store (store.hold i k value) :=
  fun _ hl => ⟨rfl, hold_owner_ne hl value, hold_pending_ne hl value⟩

theorem Elsewhere.update (h : store.update i k f = some store') : Elsewhere k store store' := by
  unfold RowStore.update at h
  split at h
  · cases h
    exact .refl k store
  · split_ifs at h
    cases h
    exact .hold _

theorem Elsewhere.upsert (h : store.upsert i k value = some store') : Elsewhere k store store' := by
  unfold RowStore.upsert at h
  split_ifs at h
  cases h
  exact .hold _

theorem Elsewhere.selectForUpdate
    (h : store.selectForUpdate i k = some (row, store')) : Elsewhere k store store' := by
  unfold RowStore.selectForUpdate at h
  split at h
  · cases h
    exact .refl k store
  · split_ifs at h
    cases h
    exact .hold _

end elsewhere

/-! ## What holds of every version -/

section every

variable {P : κ → V → Prop}

/-- Every version of every row satisfies a predicate, whether it is committed or not. -/
structure Every (P : κ → V → Prop) (store : RowStore ι κ V) : Prop where
  committed : ∀ k value, store.committed k = some value → P k value
  pending : ∀ k value, store.pending k = some value → P k value

theorem every_ofRows {rows : κ → Option V} (h : ∀ k value, rows k = some value → P k value) :
    (ofRows rows : RowStore ι κ V).Every P where
  committed := h
  pending _ _ hpending := by cases hpending

/-- What a transaction sees of a row satisfies the predicate. -/
theorem Every.visible (h : store.Every P) (hvisible : store.visible i k = some value) :
    P k value := by
  unfold RowStore.visible at hvisible
  split_ifs at hvisible
  · cases hpending : store.pending k with
    | none =>
      rw [hpending] at hvisible
      exact h.committed k value hvisible
    | some written =>
      rw [hpending] at hvisible
      cases hvisible
      exact h.pending k _ hpending
  · exact h.committed k value hvisible

theorem Every.commit (h : store.Every P) : (store.commit i).Every P where
  committed k value hvalue := h.visible hvalue
  pending k value hvalue := by
    replace hvalue : (if store.owner k = some i then none else store.pending k) = some value := hvalue
    split_ifs at hvalue
    exact h.pending k value hvalue

theorem Every.rollback (h : store.Every P) : (store.rollback i).Every P where
  committed := h.committed
  pending := (h.commit (i := i)).pending

variable [DecidableEq κ]

theorem Every.hold (h : store.Every P) {value : Option V} (hvalue : ∀ v, value = some v → P k v) :
    (store.hold i k value).Every P where
  committed := h.committed
  pending l v hv := by
    by_cases hl : l = k
    · subst hl
      have hpending : (store.hold i l value).pending l = value.orElse fun _ =>
          if store.owner l = some i then store.pending l else none := update_self ..
      rw [hpending] at hv
      cases value with
      | some written => exact hvalue v hv
      | none =>
        replace hv : (if store.owner l = some i then store.pending l else none) = some v := hv
        split_ifs at hv
        exact h.pending l v hv
    · rw [hold_pending_ne hl] at hv
      exact h.pending l v hv

theorem Every.update (h : store.Every P) (hf : ∀ v, P k v → P k (f v))
    (hupdate : store.update i k f = some store') : store'.Every P := by
  unfold RowStore.update at hupdate
  split at hupdate
  · cases hupdate
    exact h
  · rename_i value hvisible
    split_ifs at hupdate
    cases hupdate
    apply h.hold
    intro v hv
    cases hv
    exact hf value (h.visible hvisible)

theorem Every.selectForUpdate (h : store.Every P)
    (hselect : store.selectForUpdate i k = some (row, store')) : store'.Every P := by
  unfold RowStore.selectForUpdate at hselect
  split at hselect
  · cases hselect
    exact h
  · split_ifs at hselect
    cases hselect
    apply h.hold
    intro v hv
    cases hv

end every

/-! ## A transaction that is alone -/

section alone

variable [DecidableEq κ] {V : Type*} {store : RowStore Unit κ V}

/-- Nothing has to wait for a transaction that is alone. -/
theorem free_unit (store : RowStore Unit κ V) (k : κ) : store.Free () k := by
  cases h : store.owner k with
  | none => exact .inl h
  | some _ => exact .inr h

/-- The table as its only transaction sees it: what is committed and what it sees. -/
structure Alone (store : RowStore Unit κ V) (base work : κ → Option V) : Prop where
  committed : store.committed = base
  visible : store.visible () = work

theorem alone_ofRows (rows : κ → Option V) : (ofRows rows : RowStore Unit κ V).Alone rows rows :=
  ⟨rfl, rfl⟩

variable {base work : κ → Option V}

variable (h : store.Alone base work)

include h

theorem Alone.hold (k : κ) (value : V) :
    (store.hold () k (some value)).Alone base (Function.update work k (some value)) where
  committed := h.committed
  visible := by
    funext l
    by_cases hl : l = k
    · rw [hl, hold_visible_self, update_self]
    · rw [hold_visible_ne hl, h.visible, update_of_ne hl]

theorem Alone.lock (k : κ) : (store.hold () k none).Alone base work where
  committed := h.committed
  visible := by
    funext l
    by_cases hl : l = k
    · rw [hl, hold_none_visible, h.visible]
    · rw [hold_visible_ne hl, h.visible]

/-- `INSERT … ON CONFLICT DO NOTHING`. -/
theorem Alone.insertDoNothing (k : κ) (value : V) :
    ∃ store', store.insertDoNothing () k value = some store' ∧
      store'.Alone base (Function.update work k (some ((work k).getD value))) := by
  have hk : store.visible () k = work k := congrFun h.visible k
  rw [RowStore.insertDoNothing, hk]
  cases hw : work k with
  | none => exact ⟨_, if_pos (free_unit store k), h.hold k value⟩
  | some old =>
    refine ⟨store, rfl, ?_⟩
    rw [getD_some, ← hw, update_eq_self]
    exact h

/-- `UPDATE`. -/
theorem Alone.update (k : κ) (f : V → V) : ∃ store', store.update () k f = some store' ∧
      store'.Alone base (Function.update work k ((work k).map f)) := by
  have hk : store.visible () k = work k := congrFun h.visible k
  rw [RowStore.update, hk]
  cases hw : work k with
  | none =>
    refine ⟨store, rfl, ?_⟩
    rw [map_none, ← hw, update_eq_self]
    exact h
  | some old => exact ⟨_, if_pos (free_unit store k), h.hold k (f old)⟩

/-- `SELECT … FOR UPDATE`. -/
theorem Alone.selectForUpdate (k : κ) :
    ∃ store', store.selectForUpdate () k = some (work k, store') ∧ store'.Alone base work := by
  have hk : store.visible () k = work k := congrFun h.visible k
  rw [RowStore.selectForUpdate, hk]
  cases hw : work k with
  | none => exact ⟨store, rfl, h⟩
  | some old => exact ⟨_, if_pos (free_unit store k), h.lock k⟩

/-- After a commit the work is committed. -/
theorem Alone.commit : (store.commit ()).Alone work work where
  committed := h.visible
  visible := by
    funext k
    rw [visible_of_ne commit_owner_ne_self, commit_committed, h.visible]

/-- After a rollback the work is gone. -/
theorem Alone.rollback : (store.rollback ()).Alone base base where
  committed := h.committed
  visible := by
    funext k
    rw [visible_of_ne rollback_owner_ne_self, rollback_committed, h.committed]

end alone

end lemmas

end RowStore

end Dataflow.Library
