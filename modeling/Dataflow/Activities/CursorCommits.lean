import Dataflow.Activities.ConnectorState
import Dataflow.Library.RowStore
import Mathlib.Data.Finset.Lattice.Fold

/-!
# Concurrent commits of source cursors

Several calls of `CommitSourceCursors` for one connection, whose statements interleave. A call reads
the row of the connection and locks it, merges its offsets with those it has found, and writes the
row. A row that does not exist is not locked: two calls that find none both write their own offsets,
and the later one replaces those of the other.

* `CommitCursorParams`, `statement`, `State`, `Event`, `step`: the loop of the code as a system of
  transactions over the table.
* `NodeCommit`, `Node`: calls for one connection, with offsets for one topic.
* `Node.Joined`: the stored offsets are the greatest of those at the start and of all calls that
  have committed, partition by partition.
* `KeepsOffsets`: a call that has found no row writes only over offsets that are not beyond its
  own.
* **`joined_of_run`**: with that condition on the writes the stored offsets are joined in every
  state reached; without it the commit that follows the write loses an offset.
* `offsets_lost`: the first two commits of a connection.
-/

set_option linter.unusedSectionVars false

namespace Dataflow.Activities.CursorCommits

open Model Workflows Library Library.Transition Function Option

/-! ## The code -/

/-- Source: `activities.go` `CommitCursorParams`. -/
structure CommitCursorParams where
  tenantId : String
  cursors : List SourceCursor

/-- `cursor.Checkpoint["offsets"]` is a map: the row is read before it is written. -/
def merges (cursor : SourceCursor) : Bool := (cursor.checkpoint.get "offsets").asObject?.isSome

/-- How far a call has come: the cursors it has still to write, and the row it has found for the
first of them, if it has read it. -/
inductive Stage where
  | running (remaining : List SourceCursor) (found : Option (Option JsonMap))
  | committed
  | rolledBack
  deriving DecidableEq

/-- The table, the calls, and those that have committed. -/
structure State (ι : Type) where
  rows : RowStore ι (String × String) JsonMap
  stage : ι → Stage
  done : Finset ι

/-- The next statement of a call, or the end of one that fails. -/
inductive Event (ι : Type) where
  | statement (i : ι)
  | abort (i : ι)

section code

variable {ι : Type} [DecidableEq ι] (formatting : Formatting) (params : ι → CommitCursorParams)

/-- Every call is about to begin. -/
def start (rows : String × String → Option JsonMap) : State ι where
  rows := .ofRows rows
  stage i := .running (params i).cursors none
  done := ∅

/-- The next statement of a call. An error of the read is ignored by the code, and a call that has
to wait makes no step.
Source: `activities.go` `CommitSourceCursors` -/
def statement (s : State ι) (i : ι) : Option (State ι) :=
  match s.stage i with
  | .running (cursor :: rest) found =>
    if merges cursor ∧ found = none then
      (s.rows.selectForUpdate i ((params i).tenantId, cursor.connectionId)).map fun (row, rows) =>
        { s with rows := rows
                 stage := update s.stage i (.running (cursor :: rest) (some row)) }
    else
      (s.rows.upsert i ((params i).tenantId, cursor.connectionId)
        (nextCursor formatting (found.getD none) cursor.checkpoint)).map fun rows =>
          { s with rows := rows, stage := update s.stage i (.running rest none) }
  | .running [] _ =>
    some { rows := s.rows.commit i, stage := update s.stage i .committed
           done := insert i s.done }
  | .committed | .rolledBack => none

/-- One step. -/
def step (s : State ι) : Event ι → Option (State ι)
  | .statement i => statement formatting params s i
  | .abort i =>
    match s.stage i with
    | .running _ _ => some { s with rows := s.rows.rollback i
                                    stage := update s.stage i .rolledBack }
    | .committed | .rolledBack => none

/-- A call that has found no row, and is about to write one, meets no row with an offset beyond its
own. -/
def Stage.Keeps (committed : String → Option JsonMap) : Stage → Prop
  | .running (cursor :: _) (some none) =>
    let existing :=
      existingOffsets formatting ((committed cursor.connectionId).getD []) cursor.checkpoint
    let incoming := ((cursor.checkpoint.get "offsets").asObject?).getD []
    ∀ partition ∈ existing.keys,
      offset formatting existing partition ≤ offset formatting incoming partition
  | _ => True

instance (committed : String → Option JsonMap) (stage : Stage) :
    Decidable (stage.Keeps formatting committed) :=
  match stage with
  | .running (_ :: _) (some none) => inferInstanceAs (Decidable (∀ partition ∈ _, _))
  | .running [] _ | .running (_ :: _) none | .running (_ :: _) (some (some _)) | .committed
  | .rolledBack => inferInstanceAs (Decidable True)

/-- When a call that has found no row writes one, the row it meets has no offset beyond its own. -/
def KeepsOffsets (s : State ι) : Event ι → Prop
  | .statement i => (s.stage i).Keeps formatting fun connectionId =>
    s.rows.committed ((params i).tenantId, connectionId)
  | .abort _ => True

instance (s : State ι) (e : Event ι) : Decidable (KeepsOffsets formatting params s e) :=
  match e with
  | .statement i => inferInstanceAs (Decidable ((s.stage i).Keeps formatting fun connectionId =>
    s.rows.committed ((params i).tenantId, connectionId)))
  | .abort _ => inferInstanceAs (Decidable True)

end code

/-! ## The calls for one connection -/

/-- A checkpoint with offsets for a topic. -/
structure NodeCommit (formatting : Formatting) (topic : String) where
  checkpoint : JsonMap
  incoming : JsonMap
  offsets : (checkpoint.get "offsets").asObject? = some incoming
  distinct : incoming.keys.Nodup
  sameTopic : stringValue formatting (checkpoint.get "topic") = topic

/-- The offset a call names for a partition. -/
def NodeCommit.named {formatting : Formatting} {topic : String}
    (commit : NodeCommit formatting topic) (partition : String) : WithBot ℚ :=
  offset formatting commit.incoming partition

/-- A connection and the calls for it. -/
structure Node (ι : Type) (formatting : Formatting) where
  tenantId : String
  connectionId : String
  topic : String
  call : ι → NodeCommit formatting topic

namespace Node

variable {ι : Type} [DecidableEq ι] {formatting : Formatting} (node : Node ι formatting)

/-- The key of the row. -/
def key : String × String := (node.tenantId, node.connectionId)

/-- The cursor of a call. -/
def cursor (i : ι) : SourceCursor := ⟨node.connectionId, (node.call i).checkpoint⟩

/-- The parameters of a call. -/
def params (i : ι) : CommitCursorParams := ⟨node.tenantId, [node.cursor i]⟩

/-- The offset of a partition in a row: a row for another topic has none. -/
def stored (row : Option JsonMap) (partition : String) : WithBot ℚ :=
  offset formatting
    (if stringValue formatting ((row.getD []).get "topic") = node.topic then
      (((row.getD []).get "offsets").asObject?).getD [] else []) partition

/-- The row as committed. -/
def row (s : State ι) : Option JsonMap := s.rows.committed node.key

/-- **The stored offsets are joined**: each is the greatest of that at the start and of those that
the committed calls name. -/
def Joined (rows : String × String → Option JsonMap) (s : State ι) : Prop :=
  ∀ partition, node.stored (node.row s) partition =
    node.stored (rows node.key) partition ⊔ s.done.sup fun i => (node.call i).named partition

/-- What is stored for a checkpoint. -/
theorem stored_nextCursor (existing : Option JsonMap) (i : ι) (partition : String) :
    node.stored (some (nextCursor formatting existing (node.call i).checkpoint)) partition =
      node.stored existing partition ⊔ (node.call i).named partition := by
  have htopic : stringValue formatting ((nextCursor formatting existing
      (node.call i).checkpoint).get "topic") = node.topic := by
    refine Eq.trans ?_ (node.call i).sameTopic
    rw [nextCursor, (node.call i).offsets]
    rw [JsonMap.get, JsonMap.lookup_set, if_neg (by decide), JsonMap.get]
  have hoffsets : (nextCursor formatting existing (node.call i).checkpoint).get "offsets" =
      .object ((node.call i).incoming.foldl (mergeOffset formatting)
        (existingOffsets formatting (existing.getD []) (node.call i).checkpoint)) := by
    rw [nextCursor, (node.call i).offsets]
    rw [JsonMap.get, JsonMap.lookup_set, if_pos rfl]
    rfl
  rw [stored, getD_some, htopic, if_pos rfl, hoffsets]
  show offset formatting ((node.call i).incoming.foldl _ _) partition = _
  rw [offset_foldl_mergeOffset formatting (node.call i).distinct, existingOffsets, (node.call i).sameTopic]
  rfl

/-- Without a row nothing is stored. -/
theorem stored_none (partition : String) : node.stored none partition = ⊥ := by
  rw [stored, getD_none]
  have hnil : ((JsonMap.get [] "offsets").asObject?).getD [] = [] := rfl
  rw [hnil, ite_self]
  rfl

/-- The stored offsets of a row for the topic of a call are those that it is merged with. -/
theorem existingOffsets_eq (row : JsonMap) (i : ι) :
    existingOffsets formatting row (node.call i).checkpoint =
      if stringValue formatting (row.get "topic") = node.topic then
        ((row.get "offsets").asObject?).getD [] else [] := by
  rw [existingOffsets, (node.call i).sameTopic]

/-! ## The invariant -/

/-- What holds of a call, by how far it has come. -/
def Party (s : State ι) (i : ι) : Prop :=
  match s.stage i with
  | .running remaining found =>
    (remaining = [node.cursor i] ∧ match found with
      | some (some row) => s.rows.owner node.key = some i ∧ node.row s = some row
      | _ => s.rows.owner node.key ≠ some i) ∨
    (remaining = [] ∧ s.rows.owner node.key = some i ∧
      ∃ row, s.rows.visible i node.key = some row ∧ ∀ partition, node.stored (some row) partition =
          node.stored (node.row s) partition ⊔ (node.call i).named partition)
  | _ => True

/-- **What holds in every state reached.** -/
structure Invariant (rows : String × String → Option JsonMap) (s : State ι) : Prop where
  joined : node.Joined rows s
  done : ∀ i, i ∈ s.done ↔ s.stage i = .committed
  party : ∀ i, node.Party s i

section steps

variable {node} {rows : String × String → Option JsonMap} {s s' : State ι} {i j : ι}

/-- **Others are left alone.** -/
theorem Party.frame (h : node.Party s j) (hj : j ≠ i) (hrows : RowStore.ByOwner i s.rows s'.rows)
    (hstage : s'.stage j = s.stage j) : node.Party s' j := by
  have hkept : s.rows.owner node.key = some j → s'.rows.owner node.key = some j ∧
      node.row s' = node.row s ∧ s'.rows.visible j node.key = s.rows.visible j node.key :=
    fun hown => ⟨((hrows j hj _).1 hown).2.1, ((hrows j hj _).1 hown).1, hrows.visible hj hown⟩
  have hnot : s.rows.owner node.key ≠ some j → s'.rows.owner node.key ≠ some j :=
    mt (hrows j hj _).2
  unfold Party at h ⊢
  rw [hstage]
  cases hst : s.stage j with
  | running remaining found =>
    rw [hst] at h
    rcases h with ⟨hremaining, hfound⟩ | ⟨hremaining, hown, row, hseen, hstored⟩
    · refine .inl ⟨hremaining, ?_⟩
      rcases found with _ | _ | row
      · exact hnot hfound
      · exact hnot hfound
      · obtain ⟨hown, hrow, -⟩ := hkept hfound.1
        exact ⟨hown, hrow.trans hfound.2⟩
    · obtain ⟨hown', hrow, hseen'⟩ := hkept hown
      exact .inr ⟨hremaining, hown', row, hseen'.trans hseen, by rwa [hrow]⟩
  | committed | rolledBack => trivial

/-- The condition on a write, in terms of what is stored. -/
theorem keepsOffsets_iff (hstage : s.stage i = .running [node.cursor i] (some none)) :
    KeepsOffsets formatting node.params s (.statement i) ↔
      ∀ partition, node.stored (node.row s) partition ≤ (node.call i).named partition := by
  have hstored (partition : String) : node.stored (node.row s) partition =
      offset formatting (existingOffsets formatting ((node.row s).getD [])
        (node.call i).checkpoint) partition := by
    rw [existingOffsets_eq]
    rfl
  have hincoming : (((node.call i).checkpoint.get "offsets").asObject?).getD [] =
      (node.call i).incoming := by
    rw [(node.call i).offsets]
    rfl
  unfold KeepsOffsets
  dsimp only
  rw [hstage]
  show (∀ partition ∈ (existingOffsets formatting ((node.row s).getD [])
    (node.call i).checkpoint).keys, _ ≤ offset formatting
      (((node.call i).checkpoint.get "offsets").asObject?.getD []) partition) ↔ _
  rw [hincoming]
  constructor
  · intro h partition
    rw [hstored]
    by_cases hmem : partition ∈ (existingOffsets formatting ((node.row s).getD [])
        (node.call i).checkpoint).keys
    · exact h partition hmem
    · rw [offset, JsonMap.lookup_eq_none.mpr hmem]
      exact bot_le
  · intro h partition _
    exact (hstored partition).symm.le.trans (h partition)

/-- **The read.** -/
theorem party_read (h : node.Party s i) (hstage : s.stage i = .running [node.cursor i] none)
    (hstep : statement formatting node.params s i = some s') :
    RowStore.ByOwner i s.rows s'.rows ∧ s'.rows.committed = s.rows.committed ∧ s'.done = s.done ∧
      (∃ row, s'.stage = update s.stage i (.running [node.cursor i] (some row))) ∧
      node.Party s' i := by
  have hown : s.rows.owner node.key ≠ some i := by
    rw [Party, hstage] at h
    rcases h with ⟨-, hown⟩ | ⟨hnil, -⟩
    · exact hown
    · cases hnil
  have hmerges : merges (node.cursor i) = true := by
    rw [merges]
    show ((node.call i).checkpoint.get "offsets").asObject?.isSome = true
    rw [(node.call i).offsets]
    rfl
  unfold statement at hstep
  rw [hstage] at hstep
  dsimp only at hstep
  rw [if_pos ⟨hmerges, rfl⟩] at hstep
  obtain ⟨⟨row, rows⟩, hselect, rfl⟩ := map_eq_some_iff.mp hstep
  replace hselect : s.rows.selectForUpdate i node.key = some (row, rows) := hselect
  refine ⟨.selectForUpdate hselect, RowStore.selectForUpdate_committed hselect, rfl, ⟨row, rfl⟩, ?_⟩
  unfold Party
  dsimp only
  rw [update_self]
  refine .inl ⟨rfl, ?_⟩
  cases row with
  | none =>
    obtain rfl := RowStore.selectForUpdate_none hselect
    exact hown
  | some row =>
    obtain ⟨hown', -, hvisible, hcommitted⟩ := RowStore.selectForUpdate_some hselect
    refine ⟨hown', ?_⟩
    rw [RowStore.visible_of_ne hown] at hvisible
    exact (congrFun hcommitted node.key).trans hvisible

/-- **The write**, when it keeps the offsets it meets. -/
theorem party_write (h : node.Party s i) {found : Option JsonMap}
    (hstage : s.stage i = .running [node.cursor i] (some found))
    (hkeeps : KeepsOffsets formatting node.params s (.statement i))
    (hstep : statement formatting node.params s i = some s') :
    RowStore.ByOwner i s.rows s'.rows ∧ s'.rows.committed = s.rows.committed ∧ s'.done = s.done ∧
      s'.stage = update s.stage i (.running [] none) ∧ node.Party s' i := by
  unfold statement at hstep
  rw [hstage] at hstep
  dsimp only at hstep
  rw [if_neg (fun hfound => by cases hfound.2)] at hstep
  obtain ⟨rows, hupsert, rfl⟩ := map_eq_some_iff.mp hstep
  obtain ⟨hown, hvisible, hcommitted⟩ := RowStore.upsert_some hupsert
  refine ⟨.upsert hupsert, hcommitted, rfl, rfl, ?_⟩
  unfold Party
  dsimp only
  rw [update_self]
  refine .inr ⟨rfl, hown, _, hvisible, fun partition => ?_⟩
  have hrow : rows.committed node.key = node.row s := congrFun hcommitted node.key
  refine (node.stored_nextCursor found i partition).trans ?_
  show _ = node.stored (rows.committed node.key) partition ⊔ _
  rw [hrow]
  cases found with
  | none =>
    rw [stored_none, bot_sup_eq, sup_eq_right.mpr]
    exact (keepsOffsets_iff hstage).mp hkeeps partition
  | some row =>
    rw [Party, hstage] at h
    rcases h with ⟨-, -, hthere⟩ | ⟨hnil, -⟩
    · rw [hthere]
    · cases hnil

/-- **The commit.** -/
theorem joined_commit (h : node.Party s i) (hjoined : node.Joined rows s)
    {found : Option (Option JsonMap)} (hstage : s.stage i = .running [] found)
    (hstep : statement formatting node.params s i = some s') :
    node.Joined rows s' ∧ s'.rows = s.rows.commit i ∧ s'.done = insert i s.done ∧
      s'.stage = update s.stage i .committed := by
  unfold statement at hstep
  rw [hstage] at hstep
  cases hstep
  refine ⟨fun partition => ?_, rfl, rfl, rfl⟩
  rw [Party, hstage] at h
  rcases h with ⟨hnil, -⟩ | ⟨-, -, row, hseen, hstored⟩
  · cases hnil
  · show node.stored (s.rows.visible i node.key) partition = _
    rw [hseen, hstored, hjoined, Finset.sup_insert, sup_assoc, sup_comm (Finset.sup _ _)]

/-- A step of one call is one of these. -/
theorem statement_cases (h : node.Party s i)
    (hstep : statement formatting node.params s i = some s') :
    s.stage i = .running [node.cursor i] none ∨
      (∃ found, s.stage i = .running [node.cursor i] (some found)) ∨
      ∃ found, s.stage i = .running [] found := by
  unfold statement at hstep
  rw [Party] at h
  cases hstage : s.stage i with
  | running remaining found =>
    rw [hstage] at h
    rcases h with ⟨rfl, -⟩ | ⟨rfl, -⟩
    · cases found with
      | none => exact .inl rfl
      | some row => exact .inr (.inl ⟨row, rfl⟩)
    · exact .inr (.inr ⟨found, rfl⟩)
  | committed | rolledBack =>
    simp [hstage] at hstep

/-- A step that moves one call on and leaves what is committed as it is. -/
theorem Invariant.of_running (h : node.Invariant rows s) (hrows : RowStore.ByOwner i s.rows s'.rows)
    (hcommitted : s'.rows.committed = s.rows.committed) (hdone : s'.done = s.done) {stage : Stage}
    (hstage : s'.stage = update s.stage i stage) (hopen : stage ≠ .committed)
    (hbefore : s.stage i ≠ .committed) (hparty : node.Party s' i) : node.Invariant rows s' where
  joined partition := by
    rw [row, hcommitted, hdone]
    exact h.joined partition
  done j := by
    rw [hdone, hstage, h.done]
    by_cases hj : j = i
    · rw [hj, update_self]
      exact iff_of_false hbefore hopen
    · rw [update_of_ne hj]
  party j := by
    by_cases hj : j = i
    · exact hj ▸ hparty
    · exact (h.party j).frame hj hrows (by rw [hstage, update_of_ne hj])

/-- **A step keeps the invariant** when its write keeps the offsets it meets. -/
theorem Invariant.step {e : Event ι} (h : node.Invariant rows s)
    (hkeeps : KeepsOffsets formatting node.params s e)
    (hstep : step formatting node.params s e = some s') : node.Invariant rows s' := by
  cases e with
  | statement i =>
    replace hstep : statement formatting node.params s i = some s' := hstep
    rcases statement_cases (h.party i) hstep with hstage | ⟨found, hstage⟩ | ⟨found, hstage⟩
    · obtain ⟨hrows, hcommitted, hdone, ⟨row, hstage'⟩, hparty⟩ :=
        party_read (h.party i) hstage hstep
      exact h.of_running hrows hcommitted hdone hstage' (fun heq => by cases heq)
        (by rw [hstage]; exact fun heq => by cases heq) hparty
    · obtain ⟨hrows, hcommitted, hdone, hstage', hparty⟩ :=
        party_write (h.party i) hstage hkeeps hstep
      exact h.of_running hrows hcommitted hdone hstage' (fun heq => by cases heq)
        (by rw [hstage]; exact fun heq => by cases heq) hparty
    · obtain ⟨hjoined, hrows, hdone, hstage'⟩ := joined_commit (h.party i) h.joined hstage hstep
      refine ⟨hjoined, fun j => ?_, fun j => ?_⟩
      · rw [hdone, hstage', Finset.mem_insert, h.done]
        by_cases hj : j = i
        · rw [hj, update_self]
          exact iff_of_true (.inl rfl) rfl
        · rw [update_of_ne hj, or_iff_right hj]
      · by_cases hj : j = i
        · rw [Party, hstage', hj, update_self]
          trivial
        · refine (h.party j).frame hj ?_ (by rw [hstage', update_of_ne hj])
          rw [hrows]
          exact .commit i s.rows
  | abort i =>
    unfold CursorCommits.step at hstep
    dsimp only at hstep
    cases hstage : s.stage i with
    | running remaining found =>
      rw [hstage] at hstep
      cases hstep
      refine h.of_running (.rollback i s.rows) rfl rfl rfl (fun heq => by cases heq)
        (by rw [hstage]; exact fun heq => by cases heq) ?_
      rw [Party]
      dsimp only
      rw [update_self]
      trivial
    | committed | rolledBack =>
      simp [hstage] at hstep

/-- The invariant holds at the start. -/
theorem invariant_start (node : Node ι formatting) (rows : String × String → Option JsonMap) :
    node.Invariant rows (start node.params rows) where
  joined partition := (sup_bot_eq _).symm
  done i := iff_of_false (Finset.notMem_empty i) fun h => by cases h
  party i := .inl ⟨rfl, fun h => by cases h⟩

/-- **A write that does not keep the offsets it meets** loses one when its call commits next. -/
theorem not_joined_of_overwrite (h : node.Invariant rows s) {s'' : State ι}
    (hloses : ¬ KeepsOffsets formatting node.params s (.statement i))
    (hwrite : statement formatting node.params s i = some s')
    (hcommit : statement formatting node.params s' i = some s'') : ¬ node.Joined rows s'' := by
  have hstage : s.stage i = .running [node.cursor i] (some none) := by
    rcases statement_cases (h.party i) hwrite with hstage | ⟨found, hstage⟩ | ⟨found, hstage⟩
    · refine absurd ?_ hloses
      rw [KeepsOffsets, hstage]
      trivial
    · cases found with
      | none => exact hstage
      | some row =>
        refine absurd ?_ hloses
        rw [KeepsOffsets, hstage]
        trivial
    · refine absurd ?_ hloses
      rw [KeepsOffsets, hstage]
      trivial
  rw [keepsOffsets_iff hstage, not_forall] at hloses
  obtain ⟨partition, hpartition⟩ := hloses
  -- the row is that of this call alone
  have hrow : node.row s'' = some (nextCursor formatting none (node.call i).checkpoint) ∧
      s''.done = insert i s.done := by
    unfold statement at hwrite
    rw [hstage] at hwrite
    dsimp only at hwrite
    rw [if_neg (fun hfound => by cases hfound.2)] at hwrite
    obtain ⟨store, hupsert, rfl⟩ := map_eq_some_iff.mp hwrite
    unfold statement at hcommit
    dsimp only at hcommit
    rw [update_self] at hcommit
    cases hcommit
    exact ⟨(RowStore.upsert_some hupsert).2.1, rfl⟩
  intro hjoined
  have hstored := hjoined partition
  rw [hrow.1, hrow.2, stored_nextCursor, stored_none, bot_sup_eq] at hstored
  apply hpartition
  rw [h.joined partition, hstored]
  exact sup_le_sup_left (Finset.sup_mono (Finset.subset_insert i s.done)) _

end steps

/-- **The invariant holds in every state reached.** -/
theorem invariant_of_run {rows : String × String → Option JsonMap} {es : List (Event ι)}
    {s : State ι}
    (run : Run (step formatting node.params) (fun _ => KeepsOffsets formatting node.params)
      (start node.params rows) es s) : node.Invariant rows s := by
  refine run.invariant (I := fun _ s => node.Invariant rows s) (invariant_start node rows) ?_
  intro _ s e s' h hkeeps hstep
  exact h.step hkeeps hstep

/-- **Concurrent commits lose nothing under the condition.** In every run in which each call that
has found no row writes only over offsets that are not beyond its own, the stored offset of each
partition is, in every state reached, the greatest of that at the start and of those the committed
calls name. A write that does not meet the condition loses an offset when its call commits next. -/
theorem joined_of_run {rows : String × String → Option JsonMap} {es : List (Event ι)} {s : State ι}
    (run : Run (step formatting node.params) (fun _ => KeepsOffsets formatting node.params)
      (start node.params rows) es s) :
    (∀ i, i ∈ s.done ↔ s.stage i = .committed) ∧ node.Joined rows s ∧
      ∀ i s' s'', ¬ KeepsOffsets formatting node.params s (.statement i) →
        statement formatting node.params s i = some s' →
        statement formatting node.params s' i = some s'' → ¬ node.Joined rows s'' := by
  have h := invariant_of_run node run
  exact ⟨h.done, h.joined, fun i s' s'' hloses hwrite hcommit =>
    not_joined_of_overwrite h hloses hwrite hcommit⟩

end Node

/-! ## The first two commits of a connection -/

/-- A call that names one partition. -/
def oneOffset (partition : String) (value : ℚ) : NodeCommit exampleFormatting "topic" where
  checkpoint := [("topic", .string "topic"), ("offsets", .object [(partition, .number value)])]
  incoming := [(partition, .number value)]
  offsets := rfl
  distinct := List.nodup_singleton _
  sameTopic := rfl

/-- Two calls, for two partitions. -/
def twoPartitions : Node Bool exampleFormatting where
  tenantId := "tenant"
  connectionId := "connection"
  topic := "topic"
  call second := if second then oneOffset "1" 7 else oneOffset "0" 5

/-- One call after the other. -/
def oneByOne : List (Event Bool) :=
  [.statement false, .statement false, .statement false, .statement true, .statement true,
    .statement true]

/-- The second call has found the row of the first one: both offsets are stored. -/
theorem joined_of_run_oneByOne : ∃ s, Run (step exampleFormatting twoPartitions.params)
        (fun _ => KeepsOffsets exampleFormatting twoPartitions.params)
        (start twoPartitions.params fun _ => none) oneByOne s ∧ s.done = {false, true} ∧
      twoPartitions.Joined (fun _ => none) s := by
  obtain ⟨s, hrun, hdone⟩ : ∃ s, Run (step exampleFormatting twoPartitions.params)
      (fun _ => KeepsOffsets exampleFormatting twoPartitions.params)
      (start twoPartitions.params fun _ => none) oneByOne s ∧ s.done = {false, true} :=
    exists_run_of_guarded (by decide +kernel)
  exact ⟨s, hrun, hdone, (twoPartitions.joined_of_run hrun).2.1⟩

/-- Both calls read before one of them has written. -/
def bothRead : List (Event Bool) :=
  [.statement false, .statement true, .statement false, .statement false, .statement true,
    .statement true]

/-- Both calls have committed, and the offset of the first partition is not stored. -/
theorem offsets_lost : ∃ s, Run (step exampleFormatting twoPartitions.params) Any
      (start twoPartitions.params fun _ => none) bothRead s ∧ s.done = {false, true} ∧
      ¬ twoPartitions.Joined (fun _ => none) s := by
  obtain ⟨s, hrun, hdone, hstored⟩ : ∃ s, Run (step exampleFormatting twoPartitions.params) Any
      (start twoPartitions.params fun _ => none) bothRead s ∧ s.done = {false, true} ∧
      twoPartitions.stored (twoPartitions.row s) "0" = ⊥ :=
    exists_run_of_check (fun _ _ _ _ => trivial) (by decide +kernel)
  refine ⟨s, hrun, hdone, fun hjoined => ?_⟩
  have hnamed : (twoPartitions.call false).named "0" ≤ ⊥ := by
    rw [← hstored, hjoined "0", hdone]
    refine le_sup_of_le_right ?_
    exact Finset.le_sup (f := fun i => (twoPartitions.call i).named "0") (Finset.mem_insert_self ..)
  exact absurd hnamed (by decide +kernel)

end Dataflow.Activities.CursorCommits
