import Dataflow.Workflows.DynamicDag
import Mathlib.Algebra.Order.Ring.Unbundled.Rat
import Mathlib.Order.WithBot

/-!
# `connector_state`: the committed cursors

The table keeps one cursor for each tenant and connection. `CommitSourceCursors` writes the
checkpoints of a completed run; `FetchSourcePage` reads the cursor when the workflow has none yet,
that is for the first page of a run.

* `mergeOffset`, `nextCursor`, `commitSourceCursors`: the code of `CommitSourceCursors`. A
  checkpoint with `offsets` is merged with the committed offsets of the same topic, partition by
  partition.
* `fetchCursor`: the cursor `FetchSourcePage` hands to the connector.
* `applyCommits`: what the log of a run does to the table.
-/

namespace Dataflow.Activities

open Model Workflows List Function

/-! ## The code -/

/-- What the Go package `fmt` makes of values and texts: `sprint` is `fmt.Sprint` of a value that is
neither nil nor a string, `scanFloat` is `fmt.Sscan` into a `float64`, zero when it fails. -/
structure Formatting where
  sprint : Json → String
  scanFloat : String → ℚ

/-- A formatting for values that are strings already. -/
def exampleFormatting : Formatting := ⟨fun _ => "", fun _ => 0⟩

/-- The table: one cursor for each tenant and connection. -/
abbrev ConnectorState := (tenantId : String) → (connectionId : String) → Option JsonMap

/-- Source: `activities.go` `stringValue`. -/
def stringValue (formatting : Formatting) : Json → String
  | .null => ""
  | .string text => text
  | value => formatting.sprint value

/-- Source: `activities.go` `numberValue`; a decoded number is a `float64`. -/
def numberValue (formatting : Formatting) : Json → ℚ
  | .number value => value
  | .string text => formatting.scanFloat text
  | _ => 0

/-- The body of the loop over the incoming offsets. -/
def mergeOffset (formatting : Formatting) (merged : JsonMap) (entry : String × Json) : JsonMap :=
  match merged.lookup entry.1 with
  | some current =>
    if numberValue formatting entry.2 > numberValue formatting current then
      merged.set entry.1 entry.2
    else merged
  | none => merged.set entry.1 entry.2

/-- The committed offsets that a checkpoint for the same topic is merged with. -/
def existingOffsets (formatting : Formatting) (existing checkpoint : JsonMap) : JsonMap :=
  if stringValue formatting (existing.get "topic") = stringValue formatting (checkpoint.get "topic")
  then ((existing.get "offsets").asObject?).getD []
  else []

/-- The cursor that is stored for a checkpoint. -/
def nextCursor (formatting : Formatting) (existing : Option JsonMap) (checkpoint : JsonMap) :
    JsonMap :=
  match (checkpoint.get "offsets").asObject? with
  | none => checkpoint
  | some incoming =>
    checkpoint.set "offsets" (.object (incoming.foldl (mergeOffset formatting)
      (existingOffsets formatting (existing.getD []) checkpoint)))

/-- The row of a tenant and a connection is written. -/
def ConnectorState.write (state : ConnectorState) (tenantId connectionId : String)
    (cursor : JsonMap) : ConnectorState :=
  update state tenantId (update (state tenantId) connectionId (some cursor))

/-- The body of the loop over the cursors. -/
def commitCursor (formatting : Formatting) (tenantId : String) (state : ConnectorState)
    (cursor : SourceCursor) : ConnectorState :=
  state.write tenantId cursor.connectionId
    (nextCursor formatting (state tenantId cursor.connectionId) cursor.checkpoint)

/-- Source: `activities.go` `CommitSourceCursors`, when its transaction commits. -/
def commitSourceCursors (formatting : Formatting) (tenantId : String)
    (cursors : List SourceCursor) (state : ConnectorState) : ConnectorState :=
  cursors.foldl (commitCursor formatting tenantId) state

/-- The cursor the connector is called with. Source: `activities.go` `FetchSourcePage` -/
def fetchCursor (state : ConnectorState) (params : FetchSourceParams) : JsonMap :=
  (params.cursor.orElse fun _ => state params.tenantId params.connectionId).getD []

/-- What a logged activity does to the table when it succeeds. -/
def applyCommit (formatting : Formatting) (state : ConnectorState) : WorkflowCall → ConnectorState
  | .commitSourceCursors tenantId cursors => commitSourceCursors formatting tenantId cursors state
  | _ => state

/-- What the activities of a run do to the table. -/
def applyCommits (formatting : Formatting) (log : List WorkflowCall) (state : ConnectorState) :
    ConnectorState :=
  log.foldl (applyCommit formatting) state

/-! ## Rows -/

variable (state : ConnectorState)

@[simp] theorem ConnectorState.write_self (tenantId connectionId : String) (cursor : JsonMap) :
    state.write tenantId connectionId cursor tenantId connectionId = some cursor := by
  rw [ConnectorState.write, update_self, update_self]

/-- The last cursor that is written stays. -/
theorem ConnectorState.write_write (tenantId connectionId : String) (cursor cursor' : JsonMap) :
    (state.write tenantId connectionId cursor).write tenantId connectionId cursor' =
      state.write tenantId connectionId cursor' := by
  rw [ConnectorState.write, ConnectorState.write, ConnectorState.write, update_self,
    update_idem, update_idem]

theorem ConnectorState.write_ne (tenantId : String)
    {connectionId other : String} (h : other ≠ connectionId) (cursor : JsonMap) :
    state.write tenantId connectionId cursor tenantId other = state tenantId other := by
  rw [ConnectorState.write, update_self, update_of_ne h]

variable {formatting : Formatting}

/-- Cursors of other connections leave a row as it is. -/
theorem commitSourceCursors_of_forall_ne {tenantId connectionId : String}
    {cursors : List SourceCursor}
    (h : ∀ cursor ∈ cursors, cursor.connectionId ≠ connectionId) :
    commitSourceCursors formatting tenantId cursors state tenantId connectionId =
      state tenantId connectionId := by
  unfold commitSourceCursors
  induction cursors generalizing state with
  | nil => rfl
  | cons cursor cursors ih =>
    rw [foldl_cons, ih _ fun other hother => h other (mem_cons_of_mem _ hother)]
    exact state.write_ne tenantId (Ne.symm (h cursor mem_cons_self)) _

/-- **The only cursor of a connection is merged with its row.** -/
theorem commitSourceCursors_of_filter {tenantId connectionId : String}
    {cursors : List SourceCursor} {cursor : SourceCursor}
    (h : (cursors.filter fun other => other.connectionId = connectionId) = [cursor]) :
    commitSourceCursors formatting tenantId cursors state tenantId connectionId =
      some (nextCursor formatting (state tenantId connectionId) cursor.checkpoint) := by
  obtain ⟨before, after, rfl, hbefore, hcursor, hafter⟩ := filter_eq_cons_iff.mp h
  have hown : cursor.connectionId = connectionId := by simpa using hcursor
  have hne : ∀ other ∈ before, other.connectionId ≠ connectionId := by
    intro other hother heq
    exact hbefore other hother (by simpa using heq)
  have hne' : ∀ other ∈ after, other.connectionId ≠ connectionId := by
    intro other hother heq
    exact filter_eq_nil_iff.mp hafter other hother (by simpa using heq)
  rw [commitSourceCursors, foldl_append, foldl_cons]
  refine (commitSourceCursors_of_forall_ne _ hne').trans ?_
  have hrow : commitSourceCursors formatting tenantId before state tenantId connectionId =
      state tenantId connectionId := commitSourceCursors_of_forall_ne state hne
  rw [commitSourceCursors] at hrow
  rw [commitCursor, hown, ConnectorState.write_self, hrow]

/-! ## Merging offsets -/

/-- Offsets of new partitions are added. -/
theorem foldl_mergeOffset_of_nodup {merged incoming : JsonMap}
    (h : (merged ++ incoming).keys.Nodup) :
    incoming.foldl (mergeOffset formatting) merged = merged ++ incoming := by
  induction incoming generalizing merged with
  | nil => rw [foldl_nil, append_nil]
  | cons entry incoming ih =>
    have hnew : entry.1 ∉ merged.keys := by
      intro hmem
      rw [JsonMap.keys, map_append, nodup_append] at h
      exact h.2.2 entry.1 hmem entry.1 (by simp) rfl
    have hstep : mergeOffset formatting merged entry = merged ++ [entry] := by
      rw [mergeOffset, JsonMap.lookup_eq_none.mpr hnew]
      exact JsonMap.set_of_not_mem hnew entry.2
    rw [foldl_cons, hstep, ih (by simpa using h), append_assoc, singleton_append]

/-- The offset of a partition; one that is not named is below all. -/
def offset (formatting : Formatting) (offsets : JsonMap) (partition : String) : WithBot ℚ :=
  match offsets.lookup partition with
  | none => ⊥
  | some value => (numberValue formatting value : ℚ)

variable (formatting : Formatting)

theorem offset_set (offsets : JsonMap) (partition other : String)
    (value : Json) : offset formatting (offsets.set partition value) other =
      if other = partition then ((numberValue formatting value : ℚ) : WithBot ℚ)
      else offset formatting offsets other := by
  rw [offset, JsonMap.lookup_set]
  split_ifs <;> rfl

/-- An offset is merged with the one there is. -/
theorem offset_mergeOffset (merged : JsonMap) (entry : String × Json)
    (other : String) : offset formatting (mergeOffset formatting merged entry) other =
      if other = entry.1 then
        offset formatting merged other ⊔ (numberValue formatting entry.2 : ℚ)
      else offset formatting merged other := by
  unfold mergeOffset
  cases hcurrent : merged.lookup entry.1 with
  | none =>
    rw [offset_set]
    split_ifs with h
    · rw [h, offset, hcurrent, bot_sup_eq]
    · rfl
  | some current =>
    have hthere : offset formatting merged entry.1 = (numberValue formatting current : ℚ) := by
      rw [offset, hcurrent]
    dsimp only
    split_ifs with hgt h h
    · rw [offset_set, if_pos h, h, hthere, sup_eq_right.mpr]
      exact WithBot.coe_le_coe.mpr (le_of_lt hgt)
    · rw [offset_set, if_neg h]
    · rw [h, hthere, sup_eq_left.mpr]
      exact WithBot.coe_le_coe.mpr (not_lt.mp hgt)
    · rfl

/-- **Merged offsets are the greater ones**, partition by partition. -/
theorem offset_foldl_mergeOffset {incoming : JsonMap}
    (h : incoming.keys.Nodup) (merged : JsonMap) (partition : String) :
    offset formatting (incoming.foldl (mergeOffset formatting) merged) partition =
      offset formatting merged partition ⊔ offset formatting incoming partition := by
  induction incoming generalizing merged with
  | nil => exact (sup_bot_eq _).symm
  | cons entry incoming ih =>
    obtain ⟨key, value⟩ := entry
    rw [JsonMap.keys, map_cons, nodup_cons] at h
    rw [foldl_cons, ih h.2, offset_mergeOffset]
    by_cases hkey : partition = key
    · have habsent : offset formatting incoming partition = ⊥ := by
        rw [offset, JsonMap.lookup_eq_none.mpr (hkey ▸ h.1)]
      have hthere : offset formatting ((key, value) :: incoming) partition =
          (numberValue formatting value : ℚ) := by
        rw [offset, lookup_cons, hkey, beq_self_eq_true]
      rw [if_pos hkey, habsent, hthere, sup_bot_eq]
    · have hthere : offset formatting ((key, value) :: incoming) partition =
          offset formatting incoming partition := by
        rw [offset, lookup_cons, beq_eq_false_iff_ne.mpr hkey, offset]
      rw [if_neg hkey, hthere]

/-- A checkpoint is a decoded map: its offsets have each partition once. -/
def DistinctOffsets (checkpoint : JsonMap) : Prop :=
  ∀ incoming, (checkpoint.get "offsets").asObject? = some incoming → incoming.keys.Nodup

/-- **The first checkpoint of a connection is stored as it is.** -/
theorem nextCursor_none {checkpoint : JsonMap}
    (h : DistinctOffsets checkpoint) : nextCursor formatting none checkpoint = checkpoint := by
  unfold nextCursor
  cases hoffsets : (checkpoint.get "offsets").asObject? with
  | none => rfl
  | some incoming =>
    have hexisting : existingOffsets formatting [] checkpoint = [] := ite_self []
    have hkeys : (JsonMap.keys ([] ++ incoming)).Nodup := h incoming hoffsets
    show checkpoint.set "offsets" (.object (incoming.foldl (mergeOffset formatting)
      (existingOffsets formatting [] checkpoint))) = checkpoint
    rw [hexisting, foldl_mergeOffset_of_nodup hkeys, nil_append]
    exact JsonMap.set_lookup (JsonMap.lookup_of_asObject? hoffsets)

end Dataflow.Activities
