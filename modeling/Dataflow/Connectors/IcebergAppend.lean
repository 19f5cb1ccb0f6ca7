import Dataflow.Connectors.Iceberg

/-!
# Appending to an Iceberg table exactly once

A sink writes its execution and its node into the summary of the snapshot that it appends. An
attempt that finds such a snapshot in the history does not append again, so that an attempt whose
outcome is not known can be repeated.

* `findCommittedIcebergSnapshot`, `icebergArrowReader`, `appendIcebergTable`: the code. A call
  loads the table, looks at its history, and waits for the reply to one append.
* `icebergAppendStep`: the table, the calls for one execution and node, and other writers. A call
  can fail or be cut off before its append and after it, and the reply to an append can be lost.
* `findCommittedIcebergSnapshot_eq_none`: the search looks at the whole history.
* `appendIcebergTable_spec`: a call that succeeds without an append has found the snapshot.
* `IcebergAppends.Once`: the invariant, by what the running call is doing.
* **`appended_exactly_once`**: at most one snapshot is appended, and exactly one once a call has
  succeeded.

The append of the library is atomic: an attempt either adds one snapshot, whose summary has the
properties of the call and metrics under other names, or does not change the table. No snapshot
expires, and a call begins after the one before it has ended.

Source: `files.go`
-/

namespace Dataflow.Connectors

open Activities Library Library.Decimal Library.Transition List Option
  Dataflow.Model

/-! ## The code -/

/-- The properties of a snapshot, and those that an append adds. -/
abbrev IcebergProperties := List (String × String)

/-- What a sink knows of its execution. -/
structure HandlerContext where
  executionId : String
  nodeId : String
  pipelineVersion : ℤ

/-- Source: `files.go` `icebergExecutionID`. -/
def icebergExecutionID : String := "dataflow.execution-id"

/-- Source: `files.go` `icebergNodeID`. -/
def icebergNodeID : String := "dataflow.node-id"

/-- Source: `files.go` `icebergPipelineVersion`. -/
def icebergPipelineVersion : String := "dataflow.pipeline-version"

/-- Source: `files.go` `icebergRecordCount`. -/
def icebergRecordCount : String := "dataflow.record-count"

/-- A property as the code reads it: empty where the map does not have it. -/
def IcebergSummary.get (summary : IcebergSummary) (key : String) : String :=
  (summary.properties.lookup key).getD ""

/-- The condition of the search: the summary has the marker of an execution and a node. -/
def IcebergSnapshot.marked (executionId nodeId : String) (snapshot : IcebergSnapshot) : Bool :=
  match snapshot.summary with
  | none => false
  | some summary =>
    summary.get icebergExecutionID = executionId && summary.get icebergNodeID = nodeId

/-- Source: `files.go` `findCommittedIcebergSnapshot`: the last snapshot first. -/
def findCommittedIcebergSnapshot (snapshots : List IcebergSnapshot) (executionId nodeId : String) :
    Option IcebergSnapshot :=
  snapshots.reverse.find? (IcebergSnapshot.marked executionId nodeId)

/-- A call that waits for the reply to an append: the current snapshot of the updated table. -/
abbrev IcebergCall :=
  Coroutine IcebergProperties (fun _ => Except String (Option IcebergSnapshot)) Unit
    (Except String JsonMap)

/-- The properties that an append adds. -/
def HandlerContext.properties (handler : HandlerContext) (count : ℕ) : IcebergProperties :=
  [(icebergExecutionID, handler.executionId), (icebergNodeID, handler.nodeId),
    (icebergPipelineVersion, handler.pipelineVersion.repr), (icebergRecordCount, count.repr)]

section code

variable (conversions : Conversions)

/-- One row of `icebergArrowReader`; `unmarshal` is the record builder of the schema. -/
def icebergRow (fields : List (String × Bool)) (unmarshal : JsonMap → Option String)
    (rowIndex : ℕ) : Json → Except String Unit
  | .object row =>
    match row.find? (fun entry => (fields.lookup entry.1).isNone) with
    | some (key, _) =>
      .error ("iceberg row " ++ rowIndex.repr ++ ": unknown field " ++ conversions.quote key)
    | none =>
      match fields.find? (fun field => JsonMap.get row field.1 = .null ∧ ¬ field.2) with
      | some (name, _) =>
        .error ("iceberg row " ++ rowIndex.repr ++ ": required field " ++
          conversions.quote name ++ " is missing")
      | none =>
        match unmarshal row with
        | some err => .error ("iceberg row " ++ rowIndex.repr ++ ": " ++ err)
        | none => .ok ()
  | _ => .error ("iceberg row " ++ rowIndex.repr ++ " must be an object")

/-- Source: `files.go` `icebergArrowReader`: the names of the fields and whether they can be null.
Of the record batch only its rows matter here. -/
def icebergArrowReader (rows : List Json) (schema : Except String (List (String × Bool)))
    (unmarshal : JsonMap → Option String) : Except String Unit := do
  let fields ← schema
  rows.zipIdx.forM fun row => icebergRow conversions fields unmarshal row.2 row.1

/-- The reply to an append, as the result of the call. -/
def icebergAppended (count : ℕ) (reply : Except String (Option IcebergSnapshot)) :
    Except String JsonMap :=
  match reply with
  | .error err => .error err
  | .ok none => .error "iceberg append committed without a snapshot"
  | .ok (some snapshot) =>
    .ok [("snapshotId", .string snapshot.id.repr), ("recordCount", .number count)]

/-- Source: `files.go` `appendIcebergTable`, with the history of the table as it was loaded. -/
def appendIcebergTable (snapshots : List IcebergSnapshot) (rows : List Json)
    (schema : Except String (List (String × Bool))) (unmarshal : JsonMap → Option String)
    (handler : HandlerContext) : IcebergCall :=
  match findCommittedIcebergSnapshot snapshots handler.executionId handler.nodeId with
  | some snapshot =>
    let count := snapshot.summary.elim "" fun summary => summary.get icebergRecordCount
    .done (.ok [("snapshotId", .string snapshot.id.repr),
      ("recordCount", .number ((parseDecimal count).getD 0)), ("idempotent", .bool true)])
  | none =>
    match icebergArrowReader conversions rows schema unmarshal with
    | .error err => .done (.error err)
    | .ok () =>
      .await (handler.properties rows.length) fun reply _ =>
        .done (icebergAppended rows.length reply)

end code

/-! ## A table with several writers -/

/-- A table, the running call for the execution and the node, and what the calls have reported. -/
structure IcebergAppends where
  snapshots : List IcebergSnapshot
  call : Option IcebergCall := none
  reports : List (Except String JsonMap) := []

/-- Another writer appends. A call begins with the table as it is; its append is refused, or adds a
snapshot and gets some reply; it reports; or it is cut off. -/
inductive IcebergAppendEvent where
  | foreign (snapshot : IcebergSnapshot)
  | load (rows : List Json) (schema : Except String (List (String × Bool)))
      (unmarshal : JsonMap → Option String) (pipelineVersion : ℤ)
  | refused (err : String)
  | committed (id : ℤ) (metrics : IcebergProperties)
      (reply : Except String (Option IcebergSnapshot))
  | report
  | cut

/-- The snapshot of an append. -/
def appendedSnapshot (id : ℤ) (properties metrics : IcebergProperties) : IcebergSnapshot where
  id
  summary := some { operation := "append", properties := properties ++ metrics }

/-- One event. The calls are for one execution and one node, and one begins where none is
running. -/
def icebergAppendStep (conversions : Conversions) (executionId nodeId : String)
    (s : IcebergAppends) : IcebergAppendEvent → Option IcebergAppends
  | .foreign snapshot => some { s with snapshots := s.snapshots ++ [snapshot] }
  | .load rows schema unmarshal pipelineVersion =>
    match s.call with
    | some _ => none
    | none =>
      some { s with
        call := some (appendIcebergTable conversions s.snapshots rows schema unmarshal
          { executionId, nodeId, pipelineVersion }) }
  | .refused err =>
    match s.call with
    | some (.await _ resume) => some { s with call := some (resume (.error err) ()) }
    | _ => none
  | .committed id metrics reply =>
    match s.call with
    | some (.await properties resume) =>
      some { s with
        snapshots := s.snapshots ++ [appendedSnapshot id properties metrics]
        call := some (resume reply ()) }
    | _ => none
  | .report =>
    match s.call with
    | some (.done result) => some { s with call := none, reports := s.reports ++ [result] }
    | _ => none
  | .cut => s.call.map fun _ => { s with call := none }

/-- The other writers are other nodes, or other executions: they do not write this marker. -/
def ForeignAppends (executionId nodeId : String) : IcebergAppendEvent → Prop
  | .foreign snapshot => snapshot.marked executionId nodeId = false
  | _ => True

/-- The number of snapshots with the marker. -/
def markedCount (executionId nodeId : String) (snapshots : List IcebergSnapshot) : ℕ :=
  snapshots.countP (IcebergSnapshot.marked executionId nodeId)

/-- The call has succeeded. -/
def succeeded (result : Except String JsonMap) : Bool :=
  match result with
  | .ok _ => true
  | .error _ => false

section search

variable {executionId nodeId : String} {snapshots : List IcebergSnapshot}

/-- **The search looks at the whole history.** -/
theorem findCommittedIcebergSnapshot_eq_none :
    findCommittedIcebergSnapshot snapshots executionId nodeId = none ↔
      markedCount executionId nodeId snapshots = 0 := by
  simp [findCommittedIcebergSnapshot, markedCount]

/-- What a search finds has the marker. -/
theorem markedCount_pos_of_found {snapshot : IcebergSnapshot}
    (h : findCommittedIcebergSnapshot snapshots executionId nodeId = some snapshot) :
    0 < markedCount executionId nodeId snapshots := by
  rw [Nat.pos_iff_ne_zero]
  intro hzero
  rw [findCommittedIcebergSnapshot_eq_none.mpr hzero] at h
  simp at h

theorem markedCount_append (snapshots' : List IcebergSnapshot) :
    markedCount executionId nodeId (snapshots ++ snapshots') =
      markedCount executionId nodeId snapshots + markedCount executionId nodeId snapshots' :=
  countP_append ..

/-- An append writes the marker of its call, whatever the metrics are. -/
theorem marked_appendedSnapshot (id : ℤ) (handler : HandlerContext) (count : ℕ)
    (metrics : IcebergProperties) :
    (appendedSnapshot id (handler.properties count) metrics).marked handler.executionId
      handler.nodeId = true := by
  simp [appendedSnapshot, IcebergSnapshot.marked, IcebergSummary.get, HandlerContext.properties,
    lookup_cons, icebergExecutionID, icebergNodeID]

end search

/-! ## The invariant -/

section invariant

variable (conversions : Conversions) (executionId nodeId : String)

/-- What is known of a running call: it is about to append, and no snapshot has the marker; or it is
about to report, and success means that one has it. -/
def CallAt (found : ℕ) : IcebergCall → Prop
  | .await properties resume =>
    found = 0 ∧ (∀ id metrics,
      (appendedSnapshot id properties metrics).marked executionId nodeId = true) ∧
    ∀ reply, ∃ result, resume reply () = .done result ∧ (succeeded result → ∃ r, reply = .ok r)
  | .done result => succeeded result → 0 < found

/-- **What a call does**: it waits for one append, or it has ended without one. -/
theorem appendIcebergTable_spec (snapshots : List IcebergSnapshot) (rows : List Json)
    (schema : Except String (List (String × Bool))) (unmarshal : JsonMap → Option String)
    (pipelineVersion : ℤ) :
    CallAt executionId nodeId (markedCount executionId nodeId snapshots)
      (appendIcebergTable conversions snapshots rows schema unmarshal
        { executionId, nodeId, pipelineVersion }) := by
  unfold appendIcebergTable
  cases hfound : findCommittedIcebergSnapshot snapshots executionId nodeId with
  | some snapshot =>
    intro _
    exact markedCount_pos_of_found hfound
  | none =>
    cases icebergArrowReader conversions rows schema unmarshal with
    | error err =>
      intro h
      simp [succeeded] at h
    | ok =>
      refine ⟨findCommittedIcebergSnapshot_eq_none.mp hfound, fun id metrics => ?_, fun reply => ?_⟩
      · exact marked_appendedSnapshot id { executionId, nodeId, pipelineVersion } _ metrics
      · refine ⟨_, rfl, fun h => ?_⟩
        cases reply with
        | error err => simp [icebergAppended, succeeded] at h
        | ok current => exact ⟨current, rfl⟩

/-- At most one snapshot with the marker has been added to a table; the running call is where its
history allows it to be; and a success means that there is such a snapshot. -/
structure IcebergAppends.Once (table : List IcebergSnapshot) (s : IcebergAppends) : Prop where
  added : ∃ added, s.snapshots = table ++ added ∧ markedCount executionId nodeId added ≤ 1
  call : ∀ call ∈ s.call, CallAt executionId nodeId (markedCount executionId nodeId s.snapshots) call
  reports : ∀ result ∈ s.reports, succeeded result → 0 < markedCount executionId nodeId s.snapshots

variable {conversions executionId nodeId} {table : List IcebergSnapshot} {s s' : IcebergAppends}
  {event : IcebergAppendEvent}

variable (h : s.Once executionId nodeId table)

include h

/-- A snapshot of another writer does not count. -/
theorem IcebergAppends.Once.foreign
    {snapshot : IcebergSnapshot} (hforeign : snapshot.marked executionId nodeId = false) :
    IcebergAppends.Once executionId nodeId table
      { s with snapshots := s.snapshots ++ [snapshot] } := by
  have hzero : markedCount executionId nodeId [snapshot] = 0 := by
    simp [markedCount, hforeign]
  obtain ⟨added, hadded, hle⟩ := h.added
  refine ⟨⟨added ++ [snapshot], ?_, ?_⟩, ?_, ?_⟩
  · rw [hadded, append_assoc]
  · rwa [markedCount_append, hzero]
  · rw [markedCount_append, hzero]
    exact h.call
  · rw [markedCount_append, hzero]
    exact h.reports

/-- A call that waits for its append has added nothing yet; its append is the first one. -/
theorem IcebergAppends.Once.committed
    {properties : IcebergProperties}
    {resume : Except String (Option IcebergSnapshot) → Unit → IcebergCall}
    (hcall : s.call = some (.await properties resume)) (id : ℤ) (metrics : IcebergProperties)
    (reply : Except String (Option IcebergSnapshot)) :
    IcebergAppends.Once executionId nodeId table { s with
      snapshots := s.snapshots ++ [appendedSnapshot id properties metrics]
      call := some (resume reply ()) } := by
  obtain ⟨hzero, hmarked, hresume⟩ := h.call _ hcall
  obtain ⟨result, hresult, -⟩ := hresume reply
  have hone : markedCount executionId nodeId [appendedSnapshot id properties metrics] = 1 := by
    simp [markedCount, hmarked]
  obtain ⟨added, hadded, -⟩ := h.added
  have hnone : markedCount executionId nodeId added = 0 := by
    rw [hadded, markedCount_append] at hzero
    omega
  refine ⟨⟨added ++ [appendedSnapshot id properties metrics], ?_, ?_⟩, ?_, ?_⟩
  · rw [hadded, append_assoc]
  · rw [markedCount_append, hone, hnone]
  · rintro call ⟨⟩
    rw [markedCount_append, hone, hresult]
    exact fun _ => Nat.succ_pos _
  · intro _ _ _
    rw [markedCount_append, hone]
    exact Nat.succ_pos _

/-- A refused append is a failure of the call. -/
theorem IcebergAppends.Once.refused
    {properties : IcebergProperties}
    {resume : Except String (Option IcebergSnapshot) → Unit → IcebergCall}
    (hcall : s.call = some (.await properties resume)) (err : String) :
    IcebergAppends.Once executionId nodeId table
      { s with call := some (resume (.error err) ()) } := by
  obtain ⟨-, -, hresume⟩ := h.call _ hcall
  obtain ⟨result, hresult, hreply⟩ := hresume (.error err)
  refine ⟨h.added, ?_, h.reports⟩
  rintro call ⟨⟩
  rw [hresult]
  intro hsucceeded
  obtain ⟨current, hcurrent⟩ := hreply hsucceeded
  simp at hcurrent

/-- **The step lemma.** -/
theorem IcebergAppends.Once.step (hforeign : ForeignAppends executionId nodeId event)
    (hstep : icebergAppendStep conversions executionId nodeId s event = some s') :
    s'.Once executionId nodeId table := by
  cases event with
  | foreign snapshot =>
    simp only [icebergAppendStep, some.injEq] at hstep
    rw [← hstep]
    exact h.foreign hforeign
  | load rows schema unmarshal pipelineVersion =>
    simp only [icebergAppendStep] at hstep
    split at hstep
    · simp at hstep
    · rw [← some.inj hstep]
      refine ⟨h.added, ?_, h.reports⟩
      rintro call ⟨⟩
      exact appendIcebergTable_spec conversions executionId nodeId _ rows schema unmarshal _
  | refused err =>
    simp only [icebergAppendStep] at hstep
    split at hstep
    · rename_i hcall
      rw [← some.inj hstep]
      exact h.refused hcall err
    · simp at hstep
  | committed id metrics reply =>
    simp only [icebergAppendStep] at hstep
    split at hstep
    · rename_i hcall
      rw [← some.inj hstep]
      exact h.committed hcall id metrics reply
    · simp at hstep
  | report =>
    simp only [icebergAppendStep] at hstep
    split at hstep
    · rename_i result hcall
      rw [← some.inj hstep]
      refine ⟨h.added, by simp, fun result' hresult' => ?_⟩
      rcases mem_append.mp hresult' with hold | hnew
      · exact h.reports result' hold
      · rw [mem_singleton.mp hnew]
        exact h.call _ hcall
    · simp at hstep
  | cut =>
    simp only [icebergAppendStep, map_eq_some_iff] at hstep
    obtain ⟨_, -, rfl⟩ := hstep
    exact ⟨h.added, by simp, h.reports⟩

end invariant

/-! ## Exactly once -/

/-- **An append happens exactly once**: in every run of the calls for one execution and node,
failures and appends of others included, at most one snapshot with the marker is added to the table;
and once a call has succeeded there is one, so that it has been added where the table had none. -/
theorem appended_exactly_once (conversions : Conversions) (executionId nodeId : String)
    (table : List IcebergSnapshot) (events : List IcebergAppendEvent) (s : IcebergAppends)
    (hrun : Run (icebergAppendStep conversions executionId nodeId)
      (fun _ _ => ForeignAppends executionId nodeId) { snapshots := table } events s) :
    ∃ added, s.snapshots = table ++ added ∧ markedCount executionId nodeId added ≤ 1 ∧
      ((∃ result ∈ s.reports, succeeded result) →
        0 < markedCount executionId nodeId table + markedCount executionId nodeId added) := by
  have hstart : IcebergAppends.Once executionId nodeId table { snapshots := table } :=
    ⟨⟨[], by simp, by simp [markedCount]⟩, by simp, by simp⟩
  have honce : s.Once executionId nodeId table :=
    Run.invariant (I := fun _ s => s.Once executionId nodeId table) hstart
      (fun _ _ _ _ ih hforeign hstep => ih.step hforeign hstep) hrun
  obtain ⟨added, hadded, hle⟩ := honce.added
  refine ⟨added, hadded, hle, ?_⟩
  rintro ⟨result, hresult, hsucceeded⟩
  rw [← markedCount_append, ← hadded]
  exact honce.reports result hresult hsucceeded

/-- The snapshot of another writer. -/
def otherSnapshot (id : ℤ) : IcebergSnapshot where
  id
  summary := some { operation := "append", properties := [(icebergNodeID, "other")] }

/-- A call whose append is committed and whose reply is lost, an append of another writer, and a
second call. -/
def lostReply : List IcebergAppendEvent :=
  [.load [] (.ok []) (fun _ => none) 1, .committed 7 [("added-records", "0")] (.error "timeout"),
    .report, .foreign (otherSnapshot 8), .load [] (.ok []) (fun _ => none) 1, .report]

/-- The theorem at a run where the outcome of the first append is not known to its call. -/
theorem appended_exactly_once_lostReply :
    ∃ s, Run (icebergAppendStep icebergConversions "run" "sink") (fun _ _ => ForeignAppends "run" "sink")
        { snapshots := [otherSnapshot 1] } lostReply s ∧
      s.reports.map succeeded = [false, true] ∧
      ∃ added, s.snapshots = [otherSnapshot 1] ++ added ∧ markedCount "run" "sink" added = 1 := by
  have hallowed : ∀ event ∈ lostReply, ForeignAppends "run" "sink" event := by
    intro event hevent
    simp only [lostReply, mem_cons, not_mem_nil, or_false] at hevent
    rcases hevent with rfl | rfl | rfl | rfl | rfl | rfl <;> trivial
  obtain ⟨s, hrun, hreports⟩ : ∃ s, Run (icebergAppendStep icebergConversions "run" "sink")
      (fun _ _ => ForeignAppends "run" "sink") { snapshots := [otherSnapshot 1] } lostReply s ∧
      s.reports.map succeeded = [false, true] :=
    exists_run_of_check (fun event hevent _ _ => hallowed event hevent) (by decide +kernel)
  obtain ⟨added, hadded, hle, hpos⟩ := appended_exactly_once icebergConversions "run" "sink"
    [otherSnapshot 1] lostReply s hrun
  refine ⟨s, hrun, hreports, added, hadded, hle.antisymm ?_⟩
  have hzero : markedCount "run" "sink" [otherSnapshot 1] = 0 := by decide
  have hsucceeded : true ∈ s.reports.map succeeded := by simp [hreports]
  obtain ⟨result, hresult, hsucceeded⟩ := List.mem_map.mp hsucceeded
  have := hpos ⟨result, hresult, hsucceeded⟩
  omega

end Dataflow.Connectors
