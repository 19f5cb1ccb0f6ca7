import Dataflow.Api.QuotaSession

/-!
# `fireExecution`: the charge of a start

`fireExecution` charges the start, starts the workflow, records the execution, and gives the charge
back when one of the last two fails. Each statement computes the month key anew from the wall clock.

* `Start`: a call of `fireExecution`: the request, the rows before, the clock and the faults.
* `Start.ChargedOnce`: after an error every counter is as before, after an execution id one counter
  is one higher.
* `Start.Balances`: the condition: the month at which the counter is raised has a row, and when the
  start fails afterwards the release succeeds and falls into the same month.
* `chargedOnce_iff`: **main result**: the one holds iff the other does.
-/

namespace Dataflow.Api

open Model Library Function

/-! ## A call of `fireExecution` -/

/-- A call of `fireExecution`. -/
structure Start where
  env : Environment
  request : FireRequest
  minted : Minted
  rows : Rows

namespace Start

variable (start : Start)

/-- The tenant that is charged. -/
def tenantId : String := start.request.definition.tenantId

/-- What the call returns, and the rows after it. -/
def result : Except ApiError String × Rows :=
  runOn start.env (fireExecution start.request start.minted) start.rows

/-- **A failed start is not charged, a start is charged once.** -/
def ChargedOnce : Prop :=
  match start.result.1 with
  | .error _ => ∀ tenantId month,
      start.result.2.count tenantId month = start.rows.count tenantId month
  | .ok _ => ∃ month,
      start.result.2.count start.tenantId month = start.rows.count start.tenantId month + 1 ∧
      ∀ other month', (other, month') ≠ (start.tenantId, month) →
        start.result.2.count other month' = start.rows.count other month'

/-- The month in which `consumeQuota` makes sure that there is a counter. -/
def insertMonth : String := start.env.clock (.insertPlan start.tenantId)

/-- The month whose counter `consumeQuota` reads. -/
def selectMonth : String := start.env.clock (.insertCounter start.tenantId start.insertMonth)

/-- The month whose counter `consumeQuota` raises. -/
def chargeMonth : String := start.env.clock (.selectForUpdate start.tenantId start.selectMonth)

/-- The month whose counter `releaseQuota` lowers. -/
def releaseMonth : String := start.env.clock (.begin .release)

/-- There is a counter for the month, or `consumeQuota` adds it. -/
def HasCounter (month : String) : Prop :=
  month = start.insertMonth ∨ (start.rows.counters (start.tenantId, month)).isSome

/-- `consumeQuota` comes to its commit: no statement fails, and the limit is not reached. -/
def Admitted : Prop :=
  start.env.fault (.begin .consume) = .none ∧
  start.env.fault (.insertPlan start.tenantId) = .none ∧
  start.env.fault (.insertCounter start.tenantId start.insertMonth) = .none ∧
  start.env.fault (.selectForUpdate start.tenantId start.selectMonth) = .none ∧
  start.env.fault (.increment start.tenantId start.chargeMonth) = .none ∧
  start.HasCounter start.selectMonth ∧
  (start.rows.count start.tenantId start.selectMonth : ℤ) < start.rows.limit start.tenantId

/-- The workflow is started. -/
def Started : Prop :=
  start.env.fault (.executeWorkflow (workflowName start.request.definition)
    ("dynamic-dag-" ++ start.request.environment)
    (workflowInput start.request start.minted)) = .none

/-- The row of the execution. -/
def row : ExecutionRow := executionRow start.request start.minted start.env.runId

/-- The execution is recorded. -/
def Recorded : Prop :=
  start.env.fault (.begin .record) = .none ∧
  start.env.fault (.insertExecution start.row false) = .none ∧
  start.rows.executions start.row.id = none ∧
  (start.request.partitionId ≠ "" → start.env.fault
    (.startPartition start.request.partitionId start.minted.executionId) = .none) ∧
  start.env.fault (.commit .record) = .none

/-- `releaseQuota` takes effect. -/
def Released : Prop :=
  start.env.fault (.begin .release) = .none ∧
  start.env.fault (.decrement start.tenantId start.releaseMonth) = .none ∧
  ∀ err, start.env.fault (.commit .release) ≠ .fails err

open Classical in
/-- **The condition.** A call that `consumeQuota` refuses is right. A charge whose commit is
reported as failed must be no charge. A start that succeeds must have raised a counter. After a
start that fails, the counter that was raised must be lowered; if none was raised, none may be
lowered. -/
def Balances : Prop :=
  start.Admitted → match start.env.fault (.commit .consume) with
    | .fails _ => True
    | .replyLost _ => ¬ start.HasCounter start.chargeMonth
    | .none =>
      if start.Started ∧ start.Recorded then start.HasCounter start.chargeMonth
      else if start.HasCounter start.chargeMonth then
        start.Released ∧ start.releaseMonth = start.chargeMonth
      else ¬ start.Released ∨ start.rows.count start.tenantId start.releaseMonth = 0

/-! ## The charge -/

/-- The rows after `consumeQuota` has made sure that there are a plan and a counter. -/
def prepared : Rows :=
  { start.rows with
    plans := update start.rows.plans start.tenantId
      (some ((start.rows.plans start.tenantId).getD {}))
    counters := update start.rows.counters (start.tenantId, start.insertMonth)
      (some (start.rows.count start.tenantId start.insertMonth)) }

/-- The rows after `consumeQuota`. -/
def charged : Rows :=
  { start.prepared with
    counters := update start.prepared.counters (start.tenantId, start.chargeMonth)
      ((start.prepared.counters (start.tenantId, start.chargeMonth)).map (· + 1)) }

variable {start}

/-- The counters there are after the two inserts. -/
theorem prepared_counters (month : String) : start.prepared.counters (start.tenantId, month) =
      if month = start.insertMonth then some (start.rows.count start.tenantId month)
      else start.rows.counters (start.tenantId, month) := by
  unfold prepared
  dsimp only
  rw [update_apply]
  split_ifs with h₁ h₂ h₂
  · rw [h₂]
  · exact absurd (Prod.mk.inj h₁).2 h₂
  · exact absurd (by rw [h₂]) h₁
  · rfl

/-- The two inserts change no count. -/
theorem prepared_count (tenantId month : String) :
    start.prepared.count tenantId month = start.rows.count tenantId month := by
  unfold Rows.count prepared
  dsimp only
  rw [update_apply]
  split_ifs with h
  · rw [h]
    rfl
  · rfl

theorem prepared_isSome (month : String) :
    (start.prepared.counters (start.tenantId, month)).isSome ↔ start.HasCounter month := by
  rw [prepared_counters, HasCounter]
  split_ifs with h
  · simp [h]
  · simp [h]

open Classical in
/-- The limit and the count that `consumeQuota` reads. -/
theorem run_selectForUpdate :
    Session.perform start.env.runId (.selectForUpdate start.tenantId start.selectMonth)
        ⟨start.rows, start.prepared⟩ =
      (if start.HasCounter start.selectMonth then
          Except.ok (start.rows.limit start.tenantId, start.rows.count start.tenantId start.selectMonth)
        else Except.error (.other "no rows in result set"), ⟨start.rows, start.prepared⟩) := by
  have hplans : start.prepared.plans start.tenantId =
      some ((start.rows.plans start.tenantId).getD {}) := update_self ..
  unfold Session.perform
  dsimp only
  rw [hplans, ← prepared_count, Rows.count]
  cases hused : start.prepared.counters (start.tenantId, start.selectMonth) with
  | none =>
    have hrow : ¬ start.HasCounter start.selectMonth := by
      rw [← prepared_isSome, hused]
      exact Bool.false_ne_true
    rw [if_neg hrow]
  | some used =>
    have hrow : start.HasCounter start.selectMonth := by
      rw [← prepared_isSome, hused]
      rfl
    rw [if_pos hrow]
    rfl

/-- **The statements of `consumeQuota`, when the start is admitted.** -/
theorem run_consumeBody_of_admitted (h : start.Admitted) (month : String) :
    (consumeBody start.tenantId month).run (Session.handle start.env) (.clean start.rows) =
      (.ok (), ⟨start.rows, start.charged⟩) := by
  obtain ⟨-, hplan, hcounter, hselect, hincrement, hrow, hlimit⟩ := h
  unfold consumeBody
  rw [run_of_fault_none hplan]
  show (Coroutine.await (Call.insertCounter start.tenantId start.insertMonth) _).run _ _ = _
  rw [run_of_fault_none hcounter]
  show (Coroutine.await (Call.selectForUpdate start.tenantId start.selectMonth) _).run _
    (Session.mk start.rows start.prepared) = _
  rw [run_of_fault_none hselect, run_selectForUpdate, if_pos hrow]
  show (chargeIfBelow _ _ start.chargeMonth).run _ _ = _
  unfold chargeIfBelow
  dsimp only
  rw [if_neg (Int.not_le.mpr hlimit : ¬ (_ ≥ _)), run_of_fault_none hincrement]
  rfl

/-- **The statements of `consumeQuota`, when the start is not admitted.** -/
theorem run_consumeBody_of_not_admitted (hbegin : start.env.fault (.begin .consume) = .none)
    (h : ¬ start.Admitted) (month : String) :
    ∃ err work, (consumeBody start.tenantId month).run (Session.handle start.env)
      (.clean start.rows) = (.error err, ⟨start.rows, work⟩) := by
  unfold consumeBody
  by_cases hplan : start.env.fault (.insertPlan start.tenantId) = .none
  case neg => exact run_of_fault trivial hplan
  rw [run_of_fault_none hplan]
  show ∃ err work, (Coroutine.await (Call.insertCounter start.tenantId start.insertMonth) _).run
    (Session.handle start.env) _ = _
  by_cases hcounter : start.env.fault (.insertCounter start.tenantId start.insertMonth) = .none
  case neg => exact run_of_fault trivial hcounter
  rw [run_of_fault_none hcounter]
  show ∃ err work, (Coroutine.await (Call.selectForUpdate start.tenantId start.selectMonth) _).run
    (Session.handle start.env) (Session.mk start.rows start.prepared) = _
  by_cases hselect : start.env.fault (.selectForUpdate start.tenantId start.selectMonth) = .none
  case neg => exact run_of_fault trivial hselect
  rw [run_of_fault_none hselect, run_selectForUpdate]
  by_cases hrow : start.HasCounter start.selectMonth
  case neg =>
    rw [if_neg hrow]
    exact ⟨_, _, rfl⟩
  rw [if_pos hrow]
  unfold chargeIfBelow
  dsimp only
  by_cases hlimit : (start.rows.count start.tenantId start.selectMonth : ℤ) ≥
    start.rows.limit start.tenantId
  case pos =>
    rw [if_pos hlimit]
    exact ⟨_, _, rfl⟩
  rw [if_neg hlimit]
  apply run_of_fault
  · trivial
  · intro hincrement
    exact h ⟨hbegin, hplan, hcounter, hselect, hincrement, hrow, Int.not_le.mp hlimit⟩

/-- **`consumeQuota` refuses.** -/
theorem run_consumeQuota_of_not_admitted (h : ¬ start.Admitted) :
    ∃ err, (consumeQuota start.tenantId).run (Session.handle start.env) (.clean start.rows) =
      (.error err, .clean start.rows) := by
  unfold consumeQuota
  by_cases hbegin : start.env.fault (.begin .consume) = .none
  · obtain ⟨err, work, hbody⟩ := run_consumeBody_of_not_admitted hbegin h
      (start.env.clock (.begin .consume))
    rw [run_inTransaction _ _ _ hbody, hbegin]
    exact ⟨err, rfl⟩
  · -- nothing is executed, so the body may be any
    unfold inTransaction
    rw [Coroutine.run_await, Session.handle]
    cases hfault : start.env.fault (.begin .consume) with
    | none => exact absurd hfault hbegin
    | fails err | replyLost err => exact ⟨err, rfl⟩

/-- **`consumeQuota` comes to its commit.** -/
theorem run_consumeQuota_of_admitted (h : start.Admitted) :
    (consumeQuota start.tenantId).run (Session.handle start.env) (.clean start.rows) =
      transactionResult .none (start.env.fault (.commit .consume)) (.ok ()) start.rows
        start.charged := by
  have hbody := run_consumeBody_of_admitted h (start.env.clock (.begin .consume))
  have hbegin := h.1
  unfold consumeQuota
  rw [run_inTransaction _ _ _ hbody, hbegin]

/-! ## The release -/

/-- The counters after a release. -/
def lowered (start : Start) (rows : Rows) : Rows :=
  { rows with
    counters := update rows.counters (start.tenantId, start.releaseMonth)
      ((rows.counters (start.tenantId, start.releaseMonth)).map (· - 1)) }

open Classical in
/-- **`releaseQuota`.** -/
theorem run_releaseQuota (rows : Rows) :
    ((releaseQuota start.tenantId).run (Session.handle start.env) (.clean rows)).2 =
      .clean (if start.Released then start.lowered rows else rows) := by
  unfold releaseQuota
  by_cases hdecrement : start.env.fault (.decrement start.tenantId start.releaseMonth) = .none
  · have hbody : (releaseBody start.tenantId (start.env.clock (.begin .release))).run
        (Session.handle start.env) (.clean rows) = (.ok (), ⟨rows, start.lowered rows⟩) := by
      unfold releaseBody
      show (Coroutine.await (Call.decrement start.tenantId start.releaseMonth) _).run _ _ = _
      rw [run_of_fault_none hdecrement]
      rfl
    rw [run_inTransaction _ _ _ hbody]
    cases hbegin : start.env.fault (.begin .release) with
    | none =>
      cases hcommit : start.env.fault (.commit .release) with
      | none =>
        rw [if_pos ⟨hbegin, hdecrement, fun err h => by rw [hcommit] at h; cases h⟩]
        rfl
      | fails err =>
        rw [if_neg fun h => h.2.2 err hcommit]
        rfl
      | replyLost err =>
        rw [if_pos ⟨hbegin, hdecrement, fun err h => by rw [hcommit] at h; cases h⟩]
        rfl
    | fails err | replyLost err =>
      rw [if_neg fun h => by rw [Released, hbegin] at h; cases h.1]
      rfl
  · obtain ⟨err, work, hbody⟩ : ∃ err work,
        (releaseBody start.tenantId (start.env.clock (.begin .release))).run
          (Session.handle start.env) (.clean rows) = (.error err, ⟨rows, work⟩) :=
      run_of_fault trivial hdecrement
    rw [run_inTransaction _ _ _ hbody, if_neg fun h => hdecrement h.2.1]
    cases start.env.fault (.begin .release) <;> rfl

open Classical in
/-- The charge is given back and the error is returned. -/
theorem run_giveBack (rows : Rows) (err : ApiError) :
    (giveBack start.tenantId err).run (Session.handle start.env) (.clean rows) =
      (.error err, .clean (if start.Released then start.lowered rows else rows)) := by
  unfold giveBack
  rw [Coroutine.run_bind, run_releaseQuota]
  rfl

/-! ## The record -/

/-- The rows with the row of the execution. -/
def recorded (start : Start) (rows : Rows) : Rows :=
  { rows with
    executions := update rows.executions start.row.id
      (some ((rows.executions start.row.id).getD start.row)) }

/-- The statements that record the execution come to their end. -/
def RecordAdmitted (start : Start) : Prop :=
  start.env.fault (.insertExecution start.row false) = .none ∧
  start.rows.executions start.row.id = none ∧
  (start.request.partitionId ≠ "" → start.env.fault
    (.startPartition start.request.partitionId start.minted.executionId) = .none)

variable {rows : Rows}

theorem run_recordBody_of_admitted (hrows : rows.executions = start.rows.executions)
    (h : start.RecordAdmitted) (month : String) :
    (recordBody start.request start.minted start.env.runId month).run (Session.handle start.env)
      (.clean rows) = (.ok (), ⟨rows, start.recorded rows⟩) := by
  obtain ⟨hinsert, hfresh, hpartition⟩ := h
  have hfree : rows.executions start.row.id = none := by rw [hrows, hfresh]
  show (Coroutine.await (Call.insertExecution start.row false) _).run _ _ = _
  rw [run_of_fault_none hinsert]
  have hperform : Session.perform start.env.runId (.insertExecution start.row false)
      (.clean rows) = (.ok (), ⟨rows, start.recorded rows⟩) := if_pos (.inl hfree)
  rw [hperform]
  split_ifs with hid
  · rw [run_of_fault_none (hpartition hid)]
    rfl
  · rfl

theorem run_recordBody_of_not_admitted
    (hrows : rows.executions = start.rows.executions) (h : ¬ start.RecordAdmitted)
    (month : String) :
    ∃ err work, (recordBody start.request start.minted start.env.runId month).run
      (Session.handle start.env) (.clean rows) = (.error err, ⟨rows, work⟩) := by
  show ∃ err work, (Coroutine.await (Call.insertExecution start.row false) _).run
    (Session.handle start.env) _ = _
  by_cases hinsert : start.env.fault (.insertExecution start.row false) = .none
  case neg => exact run_of_fault trivial hinsert
  rw [run_of_fault_none hinsert]
  by_cases hfresh : start.rows.executions start.row.id = none
  case neg =>
    have hperform : Session.perform start.env.runId (.insertExecution start.row false)
        (.clean rows) =
        (Except.error (.other "duplicate key value violates unique constraint"), .clean rows) := by
      apply if_neg
      rintro (hnone | hfalse)
      · exact hfresh (hrows ▸ hnone)
      · cases hfalse
    rw [hperform]
    exact ⟨_, _, rfl⟩
  have hperform : Session.perform start.env.runId (.insertExecution start.row false)
      (.clean rows) = (.ok (), ⟨rows, start.recorded rows⟩) :=
    if_pos (.inl (show rows.executions start.row.id = none by rw [hrows, hfresh]))
  rw [hperform]
  split_ifs with hid
  · apply run_of_fault
    · trivial
    · intro hpartition
      exact h ⟨hinsert, hfresh, fun _ => hpartition⟩
  · exact absurd ⟨hinsert, hfresh, fun hne => absurd hne hid⟩ h

open Classical in
/-- **The transaction that records the execution** changes no counter, and succeeds iff nothing of
it fails. -/
theorem run_record (hrows : rows.executions = start.rows.executions) :
    ∃ outcome rows', (inTransaction .record (recordBody start.request start.minted
        start.env.runId)).run (Session.handle start.env) (.clean rows) = (outcome, .clean rows') ∧
      rows'.counters = rows.counters ∧ (outcome = .ok () ↔ start.Recorded) := by
  by_cases hadmitted : start.RecordAdmitted
  · have hbody := run_recordBody_of_admitted hrows hadmitted (start.env.clock (.begin .record))
    rw [run_inTransaction _ _ _ hbody]
    unfold Recorded
    cases hbegin : start.env.fault (.begin .record) with
    | none =>
      cases hcommit : start.env.fault (.commit .record) with
      | none =>
        exact ⟨_, _, rfl, rfl, fun _ => ⟨rfl, hadmitted.1, hadmitted.2.1, hadmitted.2.2, rfl⟩,
          fun _ => rfl⟩
      | fails err => exact ⟨_, _, rfl, rfl, fun h => (by cases h), fun h => (by cases h.2.2.2.2)⟩
      | replyLost err =>
        exact ⟨_, _, rfl, rfl, fun h => (by cases h), fun h => (by cases h.2.2.2.2)⟩
    | fails err => exact ⟨_, _, rfl, rfl, fun h => (by cases h), fun h => (by cases h.1)⟩
    | replyLost err => exact ⟨_, _, rfl, rfl, fun h => (by cases h), fun h => (by cases h.1)⟩
  · obtain ⟨err, work, hbody⟩ := run_recordBody_of_not_admitted hrows hadmitted
      (start.env.clock (.begin .record))
    have hnot : ¬ start.Recorded := fun h => hadmitted ⟨h.2.1, h.2.2.1, h.2.2.2.1⟩
    rw [run_inTransaction _ _ _ hbody]
    cases hbegin : start.env.fault (.begin .record) with
    | none | fails err => exact ⟨_, _, rfl, rfl, fun h => (by cases h), fun h => absurd h hnot⟩
    | replyLost err => exact ⟨_, _, rfl, rfl, fun h => (by cases h), fun h => absurd h hnot⟩

/-! ## The whole call -/

/-- The part of `fireExecution` after `consumeQuota`. -/
def afterConsume (start : Start) (consumed : Except ApiError Unit) :
    Program (Except ApiError String) :=
  match consumed with
  | .error err => .done (.error err)
  | .ok () => .await (.executeWorkflow (workflowName start.request.definition)
      ("dynamic-dag-" ++ start.request.environment) (workflowInput start.request start.minted))
      fun started _ => afterStart start.request start.minted started

/-- The result by what `consumeQuota` comes to. -/
theorem result_eq {consumed : Except ApiError Unit} {s : Session}
    (h : (consumeQuota start.tenantId).run (Session.handle start.env) (.clean start.rows) =
      (consumed, s)) :
    start.result = (((start.afterConsume consumed).run (Session.handle start.env) s).1,
      ((start.afterConsume consumed).run (Session.handle start.env) s).2.base) := by
  have hfire : fireExecution start.request start.minted =
      (consumeQuota start.tenantId).bind start.afterConsume := rfl
  rw [result, runOn_eq, hfire, Coroutine.run_bind, h]

/-- The counters after the start has failed. -/
theorem lowered_congr {rows rows' : Rows} (h : rows'.counters = rows.counters) :
    (start.lowered rows').counters = (start.lowered rows).counters := by
  unfold lowered
  rw [h]

/-- **A start that succeeds.** -/
theorem run_afterConsume_of_recorded (hrows : rows.executions = start.rows.executions)
    (hstarted : start.Started) (hrecorded : start.Recorded) :
    ∃ rows', (start.afterConsume (.ok ())).run (Session.handle start.env) (.clean rows) =
        (.ok start.minted.executionId, .clean rows') ∧ rows'.counters = rows.counters := by
  obtain ⟨outcome, rows', hrecord, hcounters, hok⟩ := run_record hrows
  obtain rfl : outcome = .ok () := hok.mpr hrecorded
  refine ⟨rows', ?_, hcounters⟩
  unfold afterConsume
  rw [run_of_fault_none hstarted]
  show ((inTransaction .record (recordBody start.request start.minted start.env.runId)).bind _).run
    (Session.handle start.env) (.clean rows) = _
  rw [Coroutine.run_bind, hrecord]
  rfl

open Classical in
/-- **A start that fails after the charge.** -/
theorem run_afterConsume_of_failed (hrows : rows.executions = start.rows.executions)
    (h : ¬ (start.Started ∧ start.Recorded)) :
    ∃ err rows', (start.afterConsume (.ok ())).run (Session.handle start.env) (.clean rows) =
        (.error err, .clean rows') ∧
      rows'.counters = (if start.Released then start.lowered rows else rows).counters := by
  unfold afterConsume
  by_cases hstarted : start.Started
  · obtain ⟨outcome, rows', hrecord, hcounters, hok⟩ := run_record hrows
    cases outcome with
    | ok _ => exact absurd ⟨hstarted, hok.mp rfl⟩ h
    | error err =>
      refine ⟨err, if start.Released then start.lowered rows' else rows', ?_, ?_⟩
      · rw [run_of_fault_none hstarted]
        show ((inTransaction .record (recordBody start.request start.minted
          start.env.runId)).bind _).run (Session.handle start.env) (.clean rows) = _
        rw [Coroutine.run_bind, hrecord]
        rw [Coroutine.run_await, handle_terminateWorkflow]
        exact run_giveBack rows' err
      · split_ifs
        · exact lowered_congr hcounters
        · exact hcounters
  · rw [Coroutine.run_await, Session.handle]
    cases hfault : start.env.fault (.executeWorkflow (workflowName start.request.definition)
        ("dynamic-dag-" ++ start.request.environment)
        (workflowInput start.request start.minted)) with
    | none => exact absurd hfault hstarted
    | fails err => exact ⟨err, _, run_giveBack rows err, rfl⟩
    | replyLost err => exact ⟨err, _, run_giveBack rows err, rfl⟩

/-! ## Counts -/

open Classical in
/-- The charge raises the counter of its month, if there is one. -/
theorem charged_count (tenantId month : String) :
    start.charged.count tenantId month = start.rows.count tenantId month +
      if (tenantId, month) = (start.tenantId, start.chargeMonth) ∧
        start.HasCounter start.chargeMonth then 1 else 0 := by
  rw [← prepared_count]
  unfold charged Rows.count
  dsimp only
  rw [update_apply]
  by_cases hkey : (tenantId, month) = (start.tenantId, start.chargeMonth)
  · rw [if_pos hkey, hkey, ← prepared_isSome]
    cases start.prepared.counters (start.tenantId, start.chargeMonth) with
    | none | some count => simp
  · rw [if_neg hkey, if_neg fun h => hkey h.1, Nat.add_zero]

/-- The release lowers the counter of its month, down to zero. -/
theorem lowered_count (rows : Rows) (tenantId month : String) :
    (start.lowered rows).count tenantId month = rows.count tenantId month -
      if (tenantId, month) = (start.tenantId, start.releaseMonth) then 1 else 0 := by
  unfold lowered Rows.count
  dsimp only
  rw [update_apply]
  split_ifs with hkey
  · rw [hkey]
    cases rows.counters (start.tenantId, start.releaseMonth) with
    | none | some count => rfl
  · rfl

theorem count_congr {rows rows' : Rows} (h : rows'.counters = rows.counters)
    (tenantId month : String) : rows'.count tenantId month = rows.count tenantId month := by
  rw [Rows.count, Rows.count, h]

/-- A charge that is not given back is one on the counter of its month. -/
theorem charged_count_eq_iff :
    (∀ tenantId month, start.charged.count tenantId month = start.rows.count tenantId month) ↔
      ¬ start.HasCounter start.chargeMonth := by
  constructor
  · intro h hcounter
    have hcount := h start.tenantId start.chargeMonth
    rw [charged_count, if_pos ⟨rfl, hcounter⟩] at hcount
    omega
  · intro h tenantId month
    rw [charged_count, if_neg fun h' => h h'.2, Nat.add_zero]

open Classical in
/-- **A charge that is given back**: it must be given back where it was made, and what was not made
must not be given back. -/
theorem lowered_count_eq_iff :
    (∀ tenantId month, (start.lowered start.charged).count tenantId month =
        start.rows.count tenantId month) ↔
      if start.HasCounter start.chargeMonth then start.releaseMonth = start.chargeMonth
      else start.rows.count start.tenantId start.releaseMonth = 0 := by
  constructor
  · intro h
    split_ifs with hcounter
    · have hcount := h start.tenantId start.chargeMonth
      rw [lowered_count, charged_count, if_pos ⟨rfl, hcounter⟩] at hcount
      by_contra hne
      rw [if_neg fun heq => hne (Prod.mk.inj heq).2.symm] at hcount
      omega
    · have hcount := h start.tenantId start.releaseMonth
      rw [lowered_count, charged_count, if_neg fun h' => hcounter h'.2, if_pos rfl] at hcount
      omega
  · intro h tenantId month
    rw [lowered_count, charged_count]
    split_ifs at h with hcounter
    · rw [h]
      split_ifs with hkey hkey' hkey'
      · omega
      · exact absurd hkey.1 hkey'
      · exact absurd ⟨hkey', hcounter⟩ hkey
      · omega
    · rw [if_neg fun h' => hcounter h'.2, Nat.add_zero]
      split_ifs with hkey
      · rw [(Prod.mk.inj hkey).1, (Prod.mk.inj hkey).2, h]
      · rfl

/-- A charge is one iff there is a counter to raise. -/
theorem exists_charged_iff :
    (∃ month, start.charged.count start.tenantId month = start.rows.count start.tenantId month + 1 ∧
      ∀ other month', (other, month') ≠ (start.tenantId, month) →
        start.charged.count other month' = start.rows.count other month') ↔
      start.HasCounter start.chargeMonth := by
  constructor
  · rintro ⟨month, hcount, -⟩
    by_contra hcounter
    rw [charged_count, if_neg fun h => hcounter h.2] at hcount
    omega
  · intro hcounter
    refine ⟨start.chargeMonth, ?_, ?_⟩
    · rw [charged_count, if_pos ⟨rfl, hcounter⟩]
    · intro other month' hne
      rw [charged_count, if_neg fun h => hne h.1, Nat.add_zero]

/-- The property after an error. -/
theorem chargedOnce_of_error {err : ApiError} (h : start.result = (.error err, rows)) :
    start.ChargedOnce ↔
      ∀ tenantId month, rows.count tenantId month = start.rows.count tenantId month := by
  unfold ChargedOnce
  rw [h]

/-- The property after an execution id. -/
theorem chargedOnce_of_ok {id : String} (h : start.result = (.ok id, rows)) :
    start.ChargedOnce ↔ ∃ month,
      rows.count start.tenantId month = start.rows.count start.tenantId month + 1 ∧
      ∀ other month', (other, month') ≠ (start.tenantId, month) →
        rows.count other month' = start.rows.count other month' := by
  unfold ChargedOnce
  rw [h]

/-- A start that is refused. -/
theorem result_of_not_admitted (h : ¬ start.Admitted) :
    ∃ err, start.result = (.error err, start.rows) := by
  obtain ⟨err, hconsume⟩ := run_consumeQuota_of_not_admitted h
  exact ⟨err, result_eq hconsume⟩

/-- A start whose charge is not committed, or not known to be. -/
theorem result_of_commit_fault (h : start.Admitted)
    (hfault : start.env.fault (.commit .consume) ≠ .none) :
    ∃ err, start.result = (.error err, match start.env.fault (.commit .consume) with
      | .replyLost _ => start.charged
      | _ => start.rows) := by
  have hconsume := run_consumeQuota_of_admitted h
  cases hcommit : start.env.fault (.commit .consume) with
  | none => exact absurd hcommit hfault
  | fails err | replyLost err =>
    rw [hcommit] at hconsume
    exact ⟨err, result_eq hconsume⟩

/-- **The condition after a charge.** -/
theorem chargedOnce_iff_of_charged (h : start.Admitted)
    (hcommit : start.env.fault (.commit .consume) = .none) :
    start.ChargedOnce ↔ start.Balances := by
  have hconsume := run_consumeQuota_of_admitted h
  rw [hcommit] at hconsume
  have hexecutions : start.charged.executions = start.rows.executions := rfl
  unfold Balances
  rw [hcommit]
  by_cases hrecorded : start.Started ∧ start.Recorded
  · obtain ⟨rows', hrun, hcounters⟩ :=
      run_afterConsume_of_recorded hexecutions hrecorded.1 hrecorded.2
    have hresult : start.result = (.ok start.minted.executionId, rows') := by
      rw [result_eq hconsume, hrun]
      rfl
    rw [chargedOnce_of_ok hresult, if_pos hrecorded, imp_iff_right h, ← exists_charged_iff]
    simp only [count_congr hcounters]
  · obtain ⟨err, rows', hrun, hcounters⟩ := run_afterConsume_of_failed hexecutions hrecorded
    have hresult : start.result = (.error err, rows') := by
      rw [result_eq hconsume, hrun]
      rfl
    rw [chargedOnce_of_error hresult, if_neg hrecorded, imp_iff_right h]
    simp only [count_congr hcounters]
    by_cases hreleased : start.Released
    · rw [if_pos hreleased, lowered_count_eq_iff]
      simp only [hreleased, true_and, not_true_eq_false, false_or]
    · rw [if_neg hreleased, charged_count_eq_iff]
      simp only [hreleased, false_and, not_false_eq_true, true_or]
      split_ifs with hcounter
      · exact ⟨fun hnot => hnot hcounter, fun hfalse => absurd hfalse id⟩
      · exact ⟨fun _ => trivial, fun _ => hcounter⟩

end Start

/-! ## The main result -/

/-- **A failed start is not charged and a start is charged once iff the condition holds.**

Source: `temporal.go` `consumeQuota`, `releaseQuota`, `fireExecution` -/
theorem chargedOnce_iff (start : Start) : start.ChargedOnce ↔ start.Balances := by
  by_cases hadmitted : start.Admitted
  · cases hcommit : start.env.fault (.commit .consume) with
    | none => exact Start.chargedOnce_iff_of_charged hadmitted hcommit
    | fails err =>
      obtain ⟨err', hresult⟩ := Start.result_of_commit_fault hadmitted (by rw [hcommit]; exact Fault.noConfusion)
      rw [Start.chargedOnce_of_error hresult, Start.Balances, hcommit]
      exact ⟨fun _ _ => trivial, fun _ _ _ => rfl⟩
    | replyLost err =>
      obtain ⟨err', hresult⟩ := Start.result_of_commit_fault hadmitted (by rw [hcommit]; exact Fault.noConfusion)
      rw [Start.chargedOnce_of_error hresult, Start.Balances, hcommit, imp_iff_right hadmitted]
      exact Start.charged_count_eq_iff
  · obtain ⟨err, hresult⟩ := Start.result_of_not_admitted hadmitted
    rw [Start.chargedOnce_of_error hresult]
    exact ⟨fun _ h => absurd h hadmitted, fun _ _ _ => rfl⟩

/-! ## A start at the end of a month -/

/-- The clock moves on to February when the release begins, and the workflow cannot be started. -/
def monthEnd : Start where
  env :=
    { clock := fun call => match call with
        | .begin .release => "2026-02-01"
        | _ => "2026-01-01"
      fault := fun call => match call with
        | .executeWorkflow _ _ _ => .fails (.other "unavailable")
        | _ => .none }
  request :=
    { definition := { tenantId := "tenant" }, pipelineRowId := "row", triggerType := "manual"
      environment := "prod" }
  minted := { executionId := "exec-1", traceId := "trace" }
  rows := ⟨fun _ => none, fun _ => none, fun _ => none⟩

/-- A start that fails stays charged: it was charged to January, and February was lowered. -/
theorem failed_start_charged : monthEnd.result.1 = .error (.other "unavailable") ∧
      monthEnd.rows.count "tenant" "2026-01-01" = 0 ∧
      monthEnd.result.2.count "tenant" "2026-01-01" = 1 ∧
      ¬ monthEnd.ChargedOnce := by
  have herror : monthEnd.result.1 = .error (.other "unavailable") := by decide +kernel
  have hbefore : monthEnd.rows.count "tenant" "2026-01-01" = 0 := by decide +kernel
  have hafter : monthEnd.result.2.count "tenant" "2026-01-01" = 1 := by decide +kernel
  refine ⟨herror, hbefore, hafter, ?_⟩
  intro hcharged
  unfold Start.ChargedOnce at hcharged
  rw [herror] at hcharged
  have hcount := hcharged "tenant" "2026-01-01"
  rw [hbefore, hafter] at hcount
  cases hcount

end Dataflow.Api
