import Dataflow.Api.Quota

/-!
# The quota functions without concurrency

When no other transaction is under way the tables come down to two versions of their rows: what is
committed, and what the transaction sees.

* `Environment`: the month at each call, the faults, and the run that Temporal starts.
* `runOn`: a program run on the tables.
* `Session`: the two versions of the rows, and what a call does to them. `runOn_eq` says that a run
  on the tables is a run on a session.
* `run_of_fault_none`, `run_of_fault`, `run_inTransaction`: a call, and a transaction as a whole.
-/

namespace Dataflow.Api

open Library Function Option

/-- The rows of the tables. -/
structure Rows where
  plans : String → Option BillingPlan
  counters : String × String → Option ℕ
  executions : String → Option ExecutionRow

/-- The counter of a tenant and a month; without a row it is zero. -/
def Rows.count (rows : Rows) (tenantId month : String) : ℕ :=
  (rows.counters (tenantId, month)).getD 0

/-- The limit of a tenant; without a row it is that of the default plan. -/
def Rows.limit (rows : Rows) (tenantId : String) : ℤ := ((rows.plans tenantId).getD {}).limit

/-- Tables with these rows that no transaction works on. -/
def Rows.tables (rows : Rows) : Tables Unit :=
  ⟨.ofRows rows.plans, .ofRows rows.counters, .ofRows rows.executions⟩

/-- The committed rows. -/
def Tables.rows {ι : Type} (tables : Tables ι) : Rows :=
  ⟨tables.plans.committed, tables.counters.committed, tables.executions.committed⟩

/-- The clock gives the month at which a call has returned. -/
structure Environment where
  clock : Call → String
  fault : Call → Fault := fun _ => .none
  runId : String := ""

/-- A call on the tables. A single transaction never waits. -/
def Environment.handle (env : Environment) (call : Call) (tables : Tables Unit) :
    (CallReply call × String) × Tables Unit :=
  match exec () env.runId (env.fault call) call tables with
  | some (reply, tables') => ((reply, env.clock call), tables')
  | none => ((.error (.other "blocked") call, env.clock call), tables)

/-- A program is run on rows. -/
def runOn {α : Type} (env : Environment) (program : Program α) (rows : Rows) : α × Rows :=
  let result := program.run env.handle rows.tables
  (result.1, result.2.rows)

/-! ## Sessions -/

/-- What is committed and what the transaction sees. -/
structure Session where
  base : Rows
  work : Rows

/-- Nothing is uncommitted. -/
def Session.clean (rows : Rows) : Session := ⟨rows, rows⟩

namespace Session

/-- A call that does not fail. -/
def perform (runId : String) : (call : Call) → Session → CallReply call × Session
  | .begin _, s => (Except.ok (), s)
  | .insertPlan tenantId, s =>
    (Except.ok (), { s with work := { s.work with
      plans := update s.work.plans tenantId
        (some ((s.work.plans tenantId).getD {})) } })
  | .insertCounter tenantId month, s =>
    (Except.ok (), { s with work := { s.work with
      counters := update s.work.counters (tenantId, month)
        (some ((s.work.counters (tenantId, month)).getD 0)) } })
  | .selectForUpdate tenantId month, s =>
    (match s.work.plans tenantId, s.work.counters (tenantId, month) with
      | some plan, some count => Except.ok (plan.limit, count)
      | _, _ => Except.error (.other "no rows in result set"), s)
  | .increment tenantId month, s =>
    (Except.ok (), { s with work := { s.work with
      counters := update s.work.counters (tenantId, month)
        ((s.work.counters (tenantId, month)).map (· + 1)) } })
  | .decrement tenantId month, s =>
    (Except.ok (), { s with work := { s.work with
      counters := update s.work.counters (tenantId, month)
        ((s.work.counters (tenantId, month)).map (· - 1)) } })
  | .insertExecution row ignoreConflict, s =>
    if s.work.executions row.id = none ∨ ignoreConflict then
      (Except.ok (), { s with work := { s.work with
        executions := update s.work.executions row.id
          (some ((s.work.executions row.id).getD row)) } })
    else (Except.error (.other "duplicate key value violates unique constraint"), s)
  | .startPartition _ _, s => (Except.ok (), s)
  | .commit _, s => (Except.ok (), clean s.work)
  | .rollback _, s => (Except.ok (), clean s.base)
  | .executeWorkflow _ _ _, s => (Except.ok runId, s)
  | .terminateWorkflow _ _ _, s => (Except.ok (), s)

/-- The session after a call that fails. -/
def afterFailure : Call → Session → Session
  | .commit _, s | .rollback _, s => clean s.base
  | _, s => s

/-- A call. -/
def exec (runId : String) (fault : Fault) (call : Call) (s : Session) : CallReply call × Session :=
  match fault with
  | .none => perform runId call s
  | .fails err => (.error err call, afterFailure call s)
  | .replyLost err => (.error err call, (perform runId call s).2)

/-- A call in an environment. -/
def handle (env : Environment) (call : Call) (s : Session) : (CallReply call × String) × Session :=
  (((exec env.runId (env.fault call) call s).1, env.clock call),
    (exec env.runId (env.fault call) call s).2)

end Session

/-! ## A run on the tables is a run on a session -/

/-- The tables have the two versions of the session. -/
structure Tables.Alone (tables : Tables Unit) (s : Session) : Prop where
  plans : tables.plans.Alone s.base.plans s.work.plans
  counters : tables.counters.Alone s.base.counters s.work.counters
  executions : tables.executions.Alone s.base.executions s.work.executions

theorem Rows.alone (rows : Rows) : rows.tables.Alone (.clean rows) :=
  ⟨RowStore.alone_ofRows _, RowStore.alone_ofRows _, RowStore.alone_ofRows _⟩

variable {tables : Tables Unit} {s : Session}

/-- The end of a transaction. -/
theorem Tables.Alone.commit (h : tables.Alone s) : (tables.commit ()).Alone (.clean s.work) :=
  ⟨h.plans.commit, h.counters.commit, h.executions.commit⟩

theorem Tables.Alone.rollback (h : tables.Alone s) : (tables.rollback ()).Alone (.clean s.base) :=
  ⟨h.plans.rollback, h.counters.rollback, h.executions.rollback⟩

/-- The locked join. -/
theorem Tables.Alone.selectForUpdate (h : tables.Alone s) (tenantId month : String) :
    ∃ tables', tables.selectForUpdate () tenantId month =
        some (match s.work.plans tenantId, s.work.counters (tenantId, month) with
          | some plan, some count => Except.ok (plan.limit, count)
          | _, _ => Except.error (.other "no rows in result set"), tables') ∧
      tables'.Alone s := by
  obtain ⟨plans, hplans, haloneP⟩ := h.plans.selectForUpdate tenantId
  obtain ⟨counters, hcounters, haloneC⟩ := h.counters.selectForUpdate (tenantId, month)
  rw [Tables.selectForUpdate, hplans, bind_some]
  dsimp only
  rw [hcounters, map_some]
  cases s.work.plans tenantId with
  | none => exact ⟨tables, rfl, h⟩
  | some plan =>
    cases s.work.counters (tenantId, month) with
    | none => exact ⟨tables, rfl, h⟩
    | some count => exact ⟨_, rfl, haloneP, haloneC, h.executions⟩

/-- **A call that does not fail** does to the tables what it does to the session. -/
theorem Tables.Alone.perform (h : tables.Alone s) (runId : String) (call : Call) :
    ∃ tables', Api.perform () runId call tables = some ((Session.perform runId call s).1, tables') ∧
      tables'.Alone (Session.perform runId call s).2 := by
  cases call with
  | begin | startPartition | executeWorkflow | terminateWorkflow => exact ⟨tables, rfl, h⟩
  | insertPlan tenantId =>
    obtain ⟨plans, heq, halone⟩ := h.plans.insertDoNothing tenantId {}
    exact ⟨{ tables with plans := plans }, by rw [Api.perform, heq]; rfl,
      halone, h.counters, h.executions⟩
  | insertCounter tenantId month =>
    obtain ⟨counters, heq, halone⟩ := h.counters.insertDoNothing (tenantId, month) 0
    exact ⟨{ tables with counters := counters }, by rw [Api.perform, heq]; rfl,
      h.plans, halone, h.executions⟩
  | selectForUpdate tenantId month => exact h.selectForUpdate tenantId month
  | increment tenantId month =>
    obtain ⟨counters, heq, halone⟩ := h.counters.update (tenantId, month) (· + 1)
    exact ⟨{ tables with counters := counters }, by rw [Api.perform, heq]; rfl,
      h.plans, halone, h.executions⟩
  | decrement tenantId month =>
    obtain ⟨counters, heq, halone⟩ := h.counters.update (tenantId, month) (· - 1)
    exact ⟨{ tables with counters := counters }, by rw [Api.perform, heq]; rfl,
      h.plans, halone, h.executions⟩
  | insertExecution row ignoreConflict =>
    have hvisible : tables.executions.visible () row.id = s.work.executions row.id :=
      congrFun h.executions.visible row.id
    obtain ⟨executions, heq, halone⟩ := h.executions.insertDoNothing row.id row
    rw [Api.perform, Tables.insertExecution, hvisible, heq, Session.perform]
    split_ifs
    · exact ⟨_, rfl, h.plans, h.counters, halone⟩
    · exact ⟨tables, rfl, h⟩
  | commit => exact ⟨_, rfl, h.commit⟩
  | rollback => exact ⟨_, rfl, h.rollback⟩

/-- **A call** does to the tables what it does to the session. -/
theorem Tables.Alone.handle (h : tables.Alone s) (env : Environment) (call : Call) :
    (env.handle call tables).1 = (Session.handle env call s).1 ∧
      (env.handle call tables).2.Alone (Session.handle env call s).2 := by
  obtain ⟨tables', heq, halone⟩ := h.perform env.runId call
  unfold Environment.handle Session.handle Api.exec Session.exec
  cases env.fault call with
  | none =>
    rw [heq]
    exact ⟨rfl, halone⟩
  | fails err =>
    refine ⟨rfl, ?_⟩
    cases call with
    | commit | rollback => exact h.rollback
    | _ => exact h
  | replyLost err =>
    dsimp only
    rw [heq, map_some]
    exact ⟨rfl, halone⟩

/-- **A run on the tables is a run on a session.** -/
theorem runOn_eq {α : Type} (env : Environment) (program : Program α) (rows : Rows) :
    runOn env program rows = ((program.run (Session.handle env) (.clean rows)).1,
        (program.run (Session.handle env) (.clean rows)).2.base) := by
  obtain ⟨hvalue, halone⟩ := Coroutine.run_related (r := Tables.Alone)
    (fun call tables s h => h.handle env call) program rows.alone
  refine Prod.ext hvalue ?_
  show Rows.mk _ _ _ = _
  rw [halone.plans.committed, halone.counters.committed, halone.executions.committed]

/-! ## Transactions -/

section calls

variable {env : Environment} {α : Type} {call : Call} {k : CallReply call → String → Program α}
  {s : Session}

/-- A call without a fault. -/
theorem run_of_fault_none (h : env.fault call = .none) :
    (Coroutine.await call k).run (Session.handle env) s =
      (k (Session.perform env.runId call s).1 (env.clock call)).run (Session.handle env)
        (Session.perform env.runId call s).2 := by
  rw [Coroutine.run_await, Session.handle, h]
  rfl

/-- A call without a fault, by what it does. -/
theorem run_of_perform (h : env.fault call = .none) {reply : CallReply call} {s' : Session}
    (hperform : Session.perform env.runId call s = (reply, s')) :
    (Coroutine.await call k).run (Session.handle env) s =
      (k reply (env.clock call)).run (Session.handle env) s' := by
  rw [run_of_fault_none h, hperform]

/-- The call does not end its transaction. -/
def Call.Inner : Call → Prop
  | .commit _ | .rollback _ => False
  | _ => True

/-- A statement leaves what is committed as it is. -/
theorem perform_base (h : call.Inner) : (Session.perform env.runId call s).2.base = s.base := by
  cases call with
  | commit | rollback => exact absurd h id
  | insertExecution row ignoreConflict =>
    unfold Session.perform
    dsimp only
    split_ifs <;> rfl
  | _ => rfl

/-- A statement with a fault reports an error. -/
theorem run_of_fault (hinner : call.Inner) (h : env.fault call ≠ .none) :
    ∃ err work, (Coroutine.await call k).run (Session.handle env) s =
      (k (.error err call) (env.clock call)).run (Session.handle env) ⟨s.base, work⟩ := by
  rw [Coroutine.run_await, Session.handle]
  cases hfault : env.fault call with
  | none => exact absurd hfault h
  | fails err =>
    refine ⟨err, s.work, ?_⟩
    cases call with
    | commit | rollback => exact absurd hinner id
    | _ => rfl
  | replyLost err =>
    have hbase : (Session.perform env.runId call s).2.base = s.base := perform_base hinner
    exact ⟨err, (Session.perform env.runId call s).2.work, by rw [← hbase]; rfl⟩

/-- Terminating a workflow does nothing to the tables. -/
theorem handle_terminateWorkflow (env : Environment) (executionId runId reason : String)
    (s : Session) : (Session.handle env (.terminateWorkflow executionId runId reason) s).2 = s := by
  rw [Session.handle]
  cases env.fault (.terminateWorkflow executionId runId reason) <;> rfl

end calls

/-- What a transaction comes to, by the faults of its begin and its commit, and by the outcome of
its statements and the rows they leave. -/
def transactionResult (atBegin atCommit : Fault) (outcome : Except ApiError Unit)
    (rows work : Rows) : Except ApiError Unit × Session :=
  match atBegin, outcome, atCommit with
  | .fails err, _, _ | .replyLost err, _, _ => (.error err, .clean rows)
  | .none, .error err, _ => (.error err, .clean rows)
  | .none, .ok (), .none => (.ok (), .clean work)
  | .none, .ok (), .fails err => (.error err, .clean rows)
  | .none, .ok (), .replyLost err => (.error err, .clean work)

/-- **A transaction as a whole**, when its statements do not end it. -/
theorem run_inTransaction (env : Environment) (transaction : Transaction)
    (body : String → Program (Except ApiError Unit)) {rows work : Rows}
    {outcome : Except ApiError Unit}
    (hbody : (body (env.clock (.begin transaction))).run (Session.handle env) (.clean rows) =
      (outcome, ⟨rows, work⟩)) :
    (inTransaction transaction body).run (Session.handle env) (.clean rows) =
      transactionResult (env.fault (.begin transaction)) (env.fault (.commit transaction)) outcome
        rows work := by
  unfold inTransaction
  rw [Coroutine.run_await]
  cases hbegin : env.fault (.begin transaction) with
  | fails err | replyLost err =>
    rw [Session.handle, hbegin]
    rfl
  | none =>
    rw [Session.handle, hbegin]
    show Coroutine.run (Session.handle env) ((body _).bind _) (.clean rows) = _
    rw [Coroutine.run_bind, hbody]
    cases outcome with
    | error err =>
      rw [Coroutine.run_await, Session.handle]
      cases env.fault (.rollback transaction) <;> rfl
    | ok _ =>
      rw [Coroutine.run_await, Session.handle]
      cases env.fault (.commit transaction) <;> rfl

end Dataflow.Api
