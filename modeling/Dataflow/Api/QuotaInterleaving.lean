import Dataflow.Api.QuotaSession
import Dataflow.Library.Transition
import Mathlib.Data.Finset.Card

/-!
# The quota under concurrency

Any number of executions of one tenant are started at the same time, within one month: some through
`fireExecution`, some through `PrepareScheduledExecution`. Their statements interleave in any order,
calls may fail or lose their replies, and the plan of the tenant may change in between. The row
locks keep the counter right.

* `Quota`: the tenant, the month and the jobs; `State`, `Event`, `Quota.step`: the system. A step
  is one call of one job, or a change of the plan. A job is `charged` when the transaction that has
  raised the counter commits, and `released` when the one that has lowered it does.
* `Phase`, `protocol`: what a job may do next, by how far it has come. `Job.follows_program` says
  that the code keeps to it.
* `Quota.Party`: what holds of the rows for a job in a phase, and `Quota.Invariant`: what holds in
  every state reached.
* **`charged_within_limit`**: the counter is the number of charges less the number of releases, and
  every charge leaves it within the limit of the plan.
-/

set_option linter.unusedSectionVars false

namespace Dataflow.Api

open Model Library Library.Transition Function Option

/-! ## The system -/

/-- An execution that is started. -/
inductive Job where
  | fire (request : FireRequest) (minted : Minted)
  | scheduled (params : ScheduledExecutionParams) (traceId : String)

namespace Job

/-- The tenant that is charged. -/
def tenantId : Job → String
  | fire request _ => request.definition.tenantId
  | scheduled params _ => params.tenantId

/-- What a job does. -/
def program : Job → Program (Except ApiError String)
  | fire request minted => fireExecution request minted
  | scheduled params traceId => (prepareScheduledExecution params traceId).bind fun prepared =>
    .done (prepared.map fun _ => params.executionId)

end Job

/-- The jobs of one tenant, and the month. Temporal starts the run `runId i` for job `i`. -/
structure Quota (ι : Type) where
  tenantId : String
  month : String
  job : ι → Job
  tenant : ∀ i, (job i).tenantId = tenantId
  runId : ι → String

/-- The tables, what the jobs have still to do, and the transactions on the counter that have
committed. -/
structure State (ι : Type) where
  tables : Tables ι
  programs : ι → Program (Except ApiError String)
  charged : Finset ι
  released : Finset ι

/-- A call of a job, or a change of the plan by somebody else. -/
inductive Event (ι : Type) where
  | call (i : ι) (fault : Fault)
  | changePlan (plan : BillingPlan)

/-- The call ends a transaction that has raised the counter. -/
def Call.charges : Call → Bool
  | .commit .consume | .commit .prepare => true
  | _ => false

/-- The call ends the transaction that has lowered the counter. -/
def Call.releases : Call → Bool
  | .commit .release => true
  | _ => false

namespace Quota

variable {ι : Type} [DecidableEq ι] (quota : Quota ι)

/-- The key of the counter. -/
def counter : String × String := (quota.tenantId, quota.month)

/-- The counter as committed; without a row it is zero. -/
def count (s : State ι) : ℕ := (s.tables.counters.committed quota.counter).getD 0

/-- The limit as committed; without a row it is that of the default plan. -/
def limit (s : State ι) : ℤ := ((s.tables.plans.committed quota.tenantId).getD {}).limit

/-- Nothing has been done yet. -/
def start (rows : Rows) : State ι where
  tables := ⟨.ofRows rows.plans, .ofRows rows.counters, .ofRows rows.executions⟩
  programs i := (quota.job i).program
  charged := ∅
  released := ∅

/-- The state after a call of job `i`. -/
def afterCall (s : State ι) (i : ι) (fault : Fault) (call : Call) (tables : Tables ι)
    (program : Program (Except ApiError String)) : State ι where
  tables := tables
  programs := update s.programs i program
  charged := if call.charges && fault.takesEffect then insert i s.charged else s.charged
  released := if call.releases && fault.takesEffect then insert i s.released else s.released

/-- The plan as others change it: not while a transaction owns the row. -/
def changePlan (s : State ι) (plan : BillingPlan) : Option (State ι) :=
  if s.tables.plans.owner quota.tenantId = none then
    some { s with tables := { s.tables with plans := { s.tables.plans with
      committed := update s.tables.plans.committed quota.tenantId (some plan) } } }
  else none

/-- One step. A call that has to wait is no step. -/
def step (s : State ι) : Event ι → Option (State ι)
  | .changePlan plan => quota.changePlan s plan
  | .call i fault =>
    match s.programs i with
    | .done _ => none
    | .await call resume =>
      (exec i (quota.runId i) fault call s.tables).map fun result =>
        afterCall s i fault call result.2 (resume result.1 quota.month)

end Quota

/-! ## The protocol -/

/-- How far a job has come with the counter. -/
inductive Phase where
  /-- Before its first transaction. -/
  | idle
  /-- In the transaction that is to raise the counter. -/
  | begun
  /-- It has read the two rows and locked them. -/
  | locked (limit : ℤ) (used : ℕ)
  /-- It has raised the counter. -/
  | raised
  /-- A statement has failed after that; the transaction is rolled back. -/
  | failed
  /-- It is charged. -/
  | owing
  /-- In the transaction that is to lower the counter. -/
  | returning
  /-- It has lowered the counter. -/
  | lowered
  /-- It does nothing more to the counter. -/
  | closed

namespace Phase

/-- The calls a job may make in a phase, for the counter of a tenant and a month. -/
def allows (tenantId month : String) : Phase → Call → Prop
  | idle, .begin .consume | idle, .begin .prepare => True
  | begun, .insertPlan tenantId' => tenantId' = tenantId
  | begun, .insertCounter tenantId' month' => tenantId' = tenantId ∧ month' = month
  | begun, .selectForUpdate tenantId' month' => tenantId' = tenantId ∧ month' = month
  | locked limit used, .increment tenantId' month' =>
    tenantId' = tenantId ∧ month' = month ∧ (used : ℤ) < limit
  | raised, .insertExecution _ _ | raised, .commit .consume | raised, .commit .prepare => True
  | begun, .rollback _ | locked _ _, .rollback _ | failed, .rollback _ => True
  | owing, .executeWorkflow _ _ _ | owing, .terminateWorkflow _ _ _ => True
  | owing, .begin .record | owing, .insertExecution _ _ | owing, .startPartition _ _ => True
  | owing, .commit .record | owing, .rollback .record | owing, .begin .release => True
  | returning, .decrement tenantId' month' => tenantId' = tenantId ∧ month' = month
  | lowered, .commit .release => True
  | _, _ => False

/-- The phase after a reply. -/
def next : Phase → (call : Call) → CallReply call → Phase
  | idle, .begin _, .ok () => begun
  | begun, .insertPlan _, _ => begun
  | begun, .insertCounter _ _, _ => begun
  | begun, .selectForUpdate _ _, .ok (limit, used) => locked limit used
  | begun, .selectForUpdate _ _, Except.error _ => begun
  | locked _ _, .increment _ _, .ok () => raised
  | locked _ _, .increment _ _, Except.error _ => failed
  | raised, .insertExecution _ _, .ok () => raised
  | raised, .insertExecution _ _, Except.error _ => failed
  | raised, .commit _, .ok () => owing
  | owing, .begin .release, .ok () => returning
  | owing, .begin .release, Except.error _ => closed
  | owing, _, _ => owing
  | returning, .decrement _ _, .ok () => lowered
  | returning, .decrement _ _, Except.error _ => failed
  | _, _, _ => closed

end Phase

/-- The protocol of a job. -/
def protocol (tenantId month : String) : Coroutine.Protocol Call CallReply String Phase where
  allows := Phase.allows tenantId month
  next := Phase.next
  sees month' := month' = month

/-- A job that succeeds is charged. -/
def Ended {α : Type} (phase : Phase) (result : Except ApiError α) : Prop :=
  ∀ value, result = .ok value → phase = .owing

variable {transaction : Transaction}

/-! ## The code keeps to the protocol -/

section follows

variable {tenantId month : String}

/-- A transaction keeps to the protocol when its statements do, its commit is allowed after them and
its rollback after an error. -/
theorem follows_inTransaction {phase : Phase}
    {body : String → Program (Except ApiError Unit)} {opened : Phase → Except ApiError Unit → Prop}
    {post : Phase → Except ApiError Unit → Prop}
    (hbegin : phase.allows tenantId month (.begin transaction))
    (hrefused : ∀ err, post (phase.next (.begin transaction) (Except.error err)) (.error err))
    (hbody : (protocol tenantId month).Follows opened
      (phase.next (.begin transaction) (Except.ok ())) (body month))
    (hcommit : ∀ phase', opened phase' (.ok ()) →
      phase'.allows tenantId month (.commit transaction) ∧
      ∀ reply, post (phase'.next (.commit transaction) reply) reply)
    (hrollback : ∀ phase' err, opened phase' (.error err) →
      phase'.allows tenantId month (.rollback transaction) ∧
      ∀ reply, post (phase'.next (.rollback transaction) reply) (.error err)) :
    (protocol tenantId month).Follows post phase (inTransaction transaction body) := by
  refine ⟨hbegin, ?_⟩
  rintro (err | _) month' rfl
  · exact hrefused err
  · refine Coroutine.Protocol.Follows.bind hbody ?_
    rintro phase' (err | _) hopened
    · exact ⟨(hrollback phase' err hopened).1, fun reply _ _ => (hrollback phase' err hopened).2 reply⟩
    · exact ⟨(hcommit phase' hopened).1, fun reply _ _ => (hcommit phase' hopened).2 reply⟩

/-- Where the statements of a transaction on the counter end: at a raised counter, or where it is
rolled back. -/
def Opened (phase : Phase) : Except ApiError Unit → Prop
  | .ok () => phase = .raised
  | .error _ => phase = .begun ∨ phase = .failed ∨ ∃ limit used, phase = .locked limit used

/-- A transaction that raises the counter. -/
theorem follows_charge {body : String → Program (Except ApiError Unit)}
    (htransaction : transaction = .consume ∨ transaction = .prepare)
    (hbody : (protocol tenantId month).Follows Opened .begun (body month)) :
    (protocol tenantId month).Follows Ended .idle (inTransaction transaction body) := by
  refine follows_inTransaction ?_ ?_ hbody ?_ ?_
  · rcases htransaction with rfl | rfl <;> exact trivial
  · intro err value h
    cases h
  · rintro _ rfl
    refine ⟨by rcases htransaction with rfl | rfl <;> exact trivial, ?_⟩
    rintro (err | _) value h
    · cases h
    · rfl
  · intro phase' err hopened
    refine ⟨?_, fun reply value h => by cases h⟩
    rcases hopened with rfl | rfl | ⟨limit, used, rfl⟩ <;> exact trivial

/-- `consumeQuota`. -/
theorem follows_consumeQuota :
    (protocol tenantId month).Follows Ended .idle (consumeQuota tenantId) := by
  apply follows_charge (.inl rfl)
  refine ⟨rfl, ?_⟩
  rintro (err | _) month' rfl
  · exact .inl rfl
  refine ⟨⟨rfl, rfl⟩, ?_⟩
  rintro (err | _) month' rfl
  · exact .inl rfl
  refine ⟨⟨rfl, rfl⟩, ?_⟩
  rintro (err | ⟨limit, used⟩) month' rfl
  · exact .inl rfl
  unfold chargeIfBelow
  dsimp only
  split_ifs with hused
  · exact .inr (.inr ⟨limit, used, rfl⟩)
  · refine ⟨⟨rfl, rfl, Int.not_le.mp hused⟩, ?_⟩
    rintro (err | _) month' rfl
    · exact .inr (.inl rfl)
    · rfl

/-- Where the statement that lowers the counter ends. -/
def Lowered (phase : Phase) : Except ApiError Unit → Prop
  | .ok () => phase = .lowered
  | .error _ => phase = .failed

/-- `releaseQuota`, by a job that is charged. -/
theorem follows_releaseQuota :
    (protocol tenantId month).Follows (fun _ _ => True) .owing (releaseQuota tenantId) := by
  have hbody : (protocol tenantId month).Follows Lowered .returning
      (releaseBody tenantId month) := by
    refine ⟨⟨rfl, rfl⟩, ?_⟩
    rintro (err | _) month' rfl
    · rfl
    · rfl
  refine follows_inTransaction ?_ ?_ hbody ?_ ?_
  · exact trivial
  · exact fun _ => trivial
  · rintro _ rfl
    exact ⟨trivial, fun _ => trivial⟩
  · rintro _ err rfl
    exact ⟨trivial, fun _ => trivial⟩

/-- `releaseQuota`, before an error is returned. -/
theorem follows_giveBack (err : ApiError) :
    (protocol tenantId month).Follows Ended .owing (giveBack tenantId err) := by
  apply Coroutine.Protocol.Follows.bind follows_releaseQuota
  intro phase' value _ value' h
  cases h

/-- The transaction that records the execution leaves the counter alone. -/
theorem follows_record (request : FireRequest) (minted : Minted) (runId : String) :
    (protocol tenantId month).Follows (fun phase _ => phase = .owing) .owing
      (inTransaction .record (recordBody request minted runId)) := by
  have hbody : (protocol tenantId month).Follows (fun phase _ => phase = .owing) .owing
      (recordBody request minted runId month) := by
    refine ⟨trivial, ?_⟩
    rintro (err | _) month' rfl
    · rfl
    · split_ifs
      · exact ⟨trivial, fun _ _ _ => rfl⟩
      · rfl
  refine follows_inTransaction ?_ ?_ hbody ?_ ?_
  · exact trivial
  · exact fun _ => rfl
  · rintro _ rfl
    exact ⟨trivial, fun _ => rfl⟩
  · rintro _ err rfl
    exact ⟨trivial, fun _ => rfl⟩

/-- **`fireExecution` keeps to the protocol.** -/
theorem follows_fireExecution (request : FireRequest) (minted : Minted) :
    (protocol request.definition.tenantId month).Follows Ended .idle
      (fireExecution request minted) := by
  apply Coroutine.Protocol.Follows.bind follows_consumeQuota
  rintro phase' (err | value) hended
  · intro value h
    cases h
  · obtain rfl := hended value rfl
    refine ⟨trivial, ?_⟩
    rintro (err | runId) month' rfl
    · exact follows_giveBack err
    · apply Coroutine.Protocol.Follows.bind (follows_record request minted runId)
      rintro _ (err | _) rfl
      · exact ⟨trivial, fun _ _ _ => follows_giveBack err⟩
      · exact fun _ _ => rfl

/-- **`PrepareScheduledExecution` keeps to the protocol.** -/
theorem follows_prepareScheduledExecution (params : ScheduledExecutionParams) (traceId : String) :
    (protocol params.tenantId month).Follows Ended .idle
      (prepareScheduledExecution params traceId) := by
  apply follows_charge (.inr rfl)
  refine ⟨rfl, ?_⟩
  rintro (err | _) month' rfl
  · exact .inl rfl
  refine ⟨⟨rfl, rfl⟩, ?_⟩
  rintro (err | _) month' rfl
  · exact .inl rfl
  refine ⟨⟨rfl, rfl⟩, ?_⟩
  rintro (err | ⟨limit, used⟩) month' rfl
  · exact .inl rfl
  unfold chargeScheduled
  dsimp only
  split_ifs with hused
  · exact .inr (.inr ⟨limit, used, rfl⟩)
  · refine ⟨⟨rfl, rfl, Int.not_le.mp hused⟩, ?_⟩
    rintro (err | _) month' rfl
    · exact .inr (.inl rfl)
    refine ⟨trivial, ?_⟩
    rintro (err | _) month' rfl
    · exact .inr (.inl rfl)
    · rfl

/-- **A job keeps to the protocol.** -/
theorem Job.follows_program (job : Job) :
    (protocol job.tenantId month).Follows Ended .idle job.program := by
  cases job with
  | fire request minted => exact follows_fireExecution request minted
  | scheduled params traceId =>
    apply Coroutine.Protocol.Follows.bind (follows_prepareScheduledExecution params traceId)
    rintro phase' (err | value) hended value' h
    · cases h
    · exact hended value rfl

end follows

/-! ## What a call does to the two rows -/

section calls

variable {ι : Type} [DecidableEq ι] {i : ι} {runId : String} {fault : Fault} {call : Call}
  {tables tables' : Tables ι} {reply : CallReply call}

/-- A call that does not end a transaction either does nothing and reports an error, or takes
effect; then its reply may be lost. -/
theorem exec_cases (hinner : call.Inner)
    (h : exec i runId fault call tables = some (reply, tables')) :
    (tables' = tables ∧ ∃ err, reply = .error err call) ∨
      ∃ reply', perform i runId call tables = some (reply', tables') ∧
        (reply = reply' ∨ ∃ err, reply = .error err call) := by
  cases fault with
  | none => exact .inr ⟨reply, h, .inl rfl⟩
  | fails err =>
    refine .inl ?_
    cases h
    refine ⟨?_, err, rfl⟩
    cases call with
    | commit | rollback => exact absurd hinner id
    | _ => rfl
  | replyLost err =>
    obtain ⟨⟨reply', tables''⟩, hperform, heq⟩ := map_eq_some_iff.mp h
    cases heq
    exact .inr ⟨reply', hperform, .inr ⟨err, rfl⟩⟩

/-- A commit publishes the rows of its transaction, or fails and drops them. -/
theorem exec_commit {reply : CallReply (.commit transaction)}
    (h : exec i runId fault (.commit transaction) tables = some (reply, tables')) :
    (fault.takesEffect = true ∧ tables' = tables.commit i) ∨
      (fault.takesEffect = false ∧ tables' = tables.rollback i ∧ reply ≠ .ok ()) := by
  cases fault with
  | none =>
    cases h
    exact .inl ⟨rfl, rfl⟩
  | fails err =>
    cases h
    exact .inr ⟨rfl, rfl, fun h => by cases h⟩
  | replyLost err =>
    cases h
    exact .inl ⟨rfl, rfl⟩

/-- A rollback drops the rows of its transaction. -/
theorem exec_rollback {reply : CallReply (.rollback transaction)}
    (h : exec i runId fault (.rollback transaction) tables = some (reply, tables')) :
    tables' = tables.rollback i := by
  cases fault <;> cases h <;> rfl

/-- What the rows of plans and counters may become through transaction `i`. -/
structure Tables.Touched (i : ι) (tables tables' : Tables ι) : Prop where
  plans : RowStore.ByOwner i tables.plans tables'.plans
  counters : RowStore.ByOwner i tables.counters tables'.counters

theorem Tables.Touched.rfl : Tables.Touched i tables tables := ⟨.refl _ _, .refl _ _⟩

theorem Tables.Touched.commit : Tables.Touched i tables (tables.commit i) :=
  ⟨.commit _ _, .commit _ _⟩

theorem Tables.Touched.rollback : Tables.Touched i tables (tables.rollback i) :=
  ⟨.rollback _ _, .rollback _ _⟩

/-- What is committed of plans and counters. -/
structure Tables.Uncommitted (tables tables' : Tables ι) : Prop where
  plans : tables'.plans.committed = tables.plans.committed
  counters : tables'.counters.committed = tables.counters.committed

/-- What the locked join reads, and what it locks. -/
theorem Tables.selectForUpdate_cases {tenantId month : String} {result : Except ApiError (ℤ × ℕ)}
    (h : tables.selectForUpdate i tenantId month = some (result, tables')) :
    (tables' = tables ∧ ∃ err, result = .error err) ∨
      ∃ plan count, tables.plans.selectForUpdate i tenantId = some (some plan, tables'.plans) ∧
        tables.counters.selectForUpdate i (tenantId, month) = some (some count, tables'.counters) ∧
        result = .ok (plan.limit, count) := by
  obtain ⟨⟨plan, plans⟩, hplan, h⟩ := bind_eq_some_iff.mp h
  obtain ⟨⟨count, counters⟩, hcount, h⟩ := map_eq_some_iff.mp h
  dsimp only at hcount h
  cases plan with
  | none =>
    cases h
    exact .inl ⟨rfl, _, rfl⟩
  | some plan =>
    cases count with
    | none =>
      cases h
      exact .inl ⟨rfl, _, rfl⟩
    | some count =>
      cases h
      exact .inr ⟨plan, count, hplan, hcount, rfl⟩

/-- A statement leaves the rows of others alone, and everything that is committed. -/
theorem perform_touched (hinner : call.Inner)
    (h : perform i runId call tables = some (reply, tables')) :
    Tables.Touched i tables tables' ∧ Tables.Uncommitted tables tables' := by
  cases call with
  | commit | rollback => exact absurd hinner id
  | insertPlan tenantId =>
    obtain ⟨plans, hplans, heq⟩ := map_eq_some_iff.mp h
    cases heq
    exact ⟨⟨.insertDoNothing hplans, .refl _ _⟩, RowStore.insertDoNothing_committed hplans, rfl⟩
  | insertCounter tenantId month =>
    obtain ⟨counters, hcounters, heq⟩ := map_eq_some_iff.mp h
    cases heq
    exact ⟨⟨.refl _ _, .insertDoNothing hcounters⟩, rfl,
      RowStore.insertDoNothing_committed hcounters⟩
  | increment tenantId month | decrement tenantId month =>
    obtain ⟨counters, hcounters, heq⟩ := map_eq_some_iff.mp h
    cases heq
    exact ⟨⟨.refl _ _, .update hcounters⟩, rfl, RowStore.update_committed hcounters⟩
  | selectForUpdate tenantId month =>
    rcases Tables.selectForUpdate_cases h with
      ⟨rfl, -⟩ | ⟨plan, count, hplan, hcount, -⟩
    · exact ⟨.rfl, rfl, rfl⟩
    · exact ⟨⟨.selectForUpdate hplan, .selectForUpdate hcount⟩,
        RowStore.selectForUpdate_committed hplan, RowStore.selectForUpdate_committed hcount⟩
  | insertExecution row ignoreConflict =>
    replace h : tables.insertExecution i row ignoreConflict = some (reply, tables') := h
    unfold Tables.insertExecution at h
    split_ifs at h
    · obtain ⟨executions, -, heq⟩ := map_eq_some_iff.mp h
      cases heq
      exact ⟨⟨.refl _ _, .refl _ _⟩, rfl, rfl⟩
    · cases h
      exact ⟨.rfl, rfl, rfl⟩
  | _ =>
    cases h
    exact ⟨.rfl, rfl, rfl⟩

/-- A statement, whether it fails or not. -/
theorem exec_touched (hinner : call.Inner)
    (h : exec i runId fault call tables = some (reply, tables')) :
    Tables.Touched i tables tables' ∧ Tables.Uncommitted tables tables' := by
  rcases exec_cases hinner h with ⟨rfl, -⟩ | ⟨reply', hperform, -⟩
  · exact ⟨.rfl, rfl, rfl⟩
  · exact perform_touched hinner hperform

/-- **A call leaves the rows of others alone.** -/
theorem exec_others (h : exec i runId fault call tables = some (reply, tables')) :
    Tables.Touched i tables tables' := by
  cases call with
  | commit transaction =>
    rcases exec_commit h with ⟨-, rfl⟩ | ⟨-, rfl, -⟩
    · exact .commit
    · exact .rollback
  | rollback transaction =>
    rw [exec_rollback h]
    exact .rollback
  | _ =>
    refine (exec_touched ?_ h).1
    exact trivial

end calls

/-! ## The invariant -/

namespace Quota

variable {ι : Type} [DecidableEq ι] (quota : Quota ι)

/-- The job has not been charged. -/
structure Uncharged (s : State ι) (i : ι) : Prop where
  charged : i ∉ s.charged
  released : i ∉ s.released

/-- The job has been charged, and has not given it back. -/
structure Owes (s : State ι) (i : ι) : Prop where
  charged : i ∈ s.charged
  released : i ∉ s.released

/-- The job has locked both rows. -/
structure Holds (s : State ι) (i : ι) : Prop where
  plan : s.tables.plans.owner quota.tenantId = some i
  counter : s.tables.counters.owner quota.counter = some i

/-- The counter as a job sees it. -/
def seen (s : State ι) (i : ι) : Option ℕ := s.tables.counters.visible i quota.counter

/-- The limit as a job sees it. -/
def seenLimit (s : State ι) (i : ι) : Option ℤ :=
  (s.tables.plans.visible i quota.tenantId).map BillingPlan.limit

/-- **What holds of a job in a phase.** -/
def Party (s : State ι) (i : ι) : Phase → Prop
  | .idle => Uncharged s i ∧ s.tables.counters.owner quota.counter ≠ some i
  | .begun => Uncharged s i ∧ (quota.seen s i).getD 0 = quota.count s
  | .locked limit used => Uncharged s i ∧ quota.Holds s i ∧ quota.seen s i = some used ∧
      quota.count s = used ∧ quota.seenLimit s i = some limit
  | .raised => Uncharged s i ∧ quota.Holds s i ∧ quota.seen s i = some (quota.count s + 1) ∧
      ∃ limit, quota.seenLimit s i = some limit ∧ (quota.count s + 1 : ℤ) ≤ limit
  | .owing | .returning => Owes s i ∧ s.tables.counters.owner quota.counter ≠ some i
  | .lowered => Owes s i ∧ s.tables.counters.owner quota.counter = some i ∧
      quota.seen s i = some (quota.count s - 1)
  | .failed | .closed => True

/-- The charges and releases of a state are accounted for. -/
structure Balanced (before : ℕ) (s : State ι) : Prop where
  count : quota.count s + s.released.card = before + s.charged.card
  released : s.released ⊆ s.charged

/-- **What holds in every state reached.** -/
structure Invariant (before : ℕ) (s : State ι) : Prop where
  balanced : quota.Balanced before s
  party : ∀ i, ∃ phase, (protocol quota.tenantId quota.month).Follows Ended phase (s.programs i) ∧
    quota.Party s i phase

section steps

variable {quota} {s s' : State ι} {i j : ι} {phase : Phase} {before : ℕ}

/-- A job that owes something has left a charge in the counter. -/
theorem Balanced.count_pos (h : quota.Balanced before s) (howes : Owes s i) :
    0 < quota.count s := by
  have hsub : insert i s.released ⊆ s.charged :=
    Finset.insert_subset howes.charged h.released
  have hcard := Finset.card_le_card hsub
  rw [Finset.card_insert_of_notMem howes.released] at hcard
  have := h.count
  omega

/-- **Others are left alone**: a job keeps its phase when another one touches only what is its
own. -/
theorem Party.frame (h : quota.Party s j phase) (hj : j ≠ i)
    (htouched : Tables.Touched i s.tables s'.tables) (hcharged : j ∈ s'.charged ↔ j ∈ s.charged)
    (hreleased : j ∈ s'.released ↔ j ∈ s.released) : quota.Party s' j phase := by
  have huncharged : Uncharged s j → Uncharged s' j := fun ⟨hc, hr⟩ =>
    ⟨mt hcharged.mp hc, mt hreleased.mp hr⟩
  have howes : Owes s j → Owes s' j := fun ⟨hc, hr⟩ => ⟨hcharged.mpr hc, mt hreleased.mp hr⟩
  have hcounter := htouched.counters j hj quota.counter
  have hseen := htouched.counters.visible (k := quota.counter) hj
  have hkept : s.tables.counters.owner quota.counter = some j → quota.count s' = quota.count s := by
    intro hown
    rw [count, count, (hcounter.1 hown).1]
  have hholds : quota.Holds s j → quota.Holds s' j ∧ quota.seen s' j = quota.seen s j ∧
      quota.count s' = quota.count s ∧ quota.seenLimit s' j = quota.seenLimit s j := by
    intro hholds
    refine ⟨⟨((htouched.plans j hj _).1 hholds.plan).2.1, (hcounter.1 hholds.counter).2.1⟩,
      hseen hholds.counter, hkept hholds.counter, ?_⟩
    rw [seenLimit, seenLimit, htouched.plans.visible hj hholds.plan]
  cases phase with
  | idle => exact ⟨huncharged h.1, mt hcounter.2 h.2⟩
  | begun =>
    refine ⟨huncharged h.1, ?_⟩
    by_cases hown : s.tables.counters.owner quota.counter = some j
    · rw [hkept hown, ← h.2, seen, seen, hseen hown]
    · rw [seen, RowStore.visible_of_ne (mt hcounter.2 hown), count]
  | locked limit used =>
    obtain ⟨hun, hholds', hseen', hcount, hlimit⟩ := h
    obtain ⟨hholds'', hseen'', hcount', hlimit'⟩ := hholds hholds'
    exact ⟨huncharged hun, hholds'', by rw [hseen'', hseen'], by rw [hcount', hcount],
      by rw [hlimit', hlimit]⟩
  | raised =>
    obtain ⟨hun, hholds', hseen', limit, hlimit, hle⟩ := h
    obtain ⟨hholds'', hseen'', hcount', hlimit'⟩ := hholds hholds'
    exact ⟨huncharged hun, hholds'', by rw [hseen'', hcount', hseen'], limit,
      by rw [hlimit', hlimit], by rwa [hcount']⟩
  | owing | returning => exact ⟨howes h.1, mt hcounter.2 h.2⟩
  | lowered =>
    obtain ⟨howes', hown, hseen'⟩ := h
    refine ⟨howes howes', (hcounter.1 hown).2.1, ?_⟩
    rw [hkept hown, ← hseen', seen, seen, hseen hown]
  | failed | closed => trivial

/-! ## A statement of the job itself -/

section statements

variable {runId : String} {fault : Fault} {call : Call} {reply : CallReply call}

/-- What a statement leaves of a job: the charges and what is committed. -/
structure Kept (s s' : State ι) : Prop where
  tables : Tables.Uncommitted s.tables s'.tables
  charged : s'.charged = s.charged
  released : s'.released = s.released

theorem Kept.count (h : Kept s s') : quota.count s' = quota.count s := by
  rw [Quota.count, h.tables.counters, Quota.count]

theorem Kept.uncharged (h : Kept s s') (hun : Uncharged s i) : Uncharged s' i :=
  ⟨h.charged ▸ hun.charged, h.released ▸ hun.released⟩

theorem Kept.owes (h : Kept s s') (howes : Owes s i) : Owes s' i :=
  ⟨h.charged ▸ howes.charged, h.released ▸ howes.released⟩

theorem Kept.balanced (h : Kept s s') (hbalanced : quota.Balanced before s) :
    quota.Balanced before s' where
  count := by rw [h.count, h.charged, h.released, hbalanced.count]
  released := by
    rw [h.charged, h.released]
    exact hbalanced.released

/-- A job that owns no counter row is in the same phase as long as it owns none. -/
theorem Kept.owing (h : Kept s s') (howing : quota.Party s i .owing)
    (hcounters : s'.tables.counters = s.tables.counters) : quota.Party s' i .owing :=
  ⟨h.owes howing.1, by rw [hcounters]; exact howing.2⟩

/-- The transaction has begun. -/
theorem Party.begin (h : quota.Party s i .idle) (hkept : Kept s s')
    (hcounters : s'.tables.counters = s.tables.counters) : quota.Party s' i .begun := by
  refine ⟨hkept.uncharged h.1, ?_⟩
  rw [seen, hcounters, RowStore.visible_of_ne h.2, hkept.count, count]

/-- The counter looks as it is committed, also after a statement that leaves its row alone. -/
theorem Party.begun_of_counters (h : quota.Party s i .begun) (hkept : Kept s s')
    (hcounters : s'.tables.counters.visible i quota.counter =
      s.tables.counters.visible i quota.counter) : quota.Party s' i .begun := by
  refine ⟨hkept.uncharged h.1, ?_⟩
  rw [seen, hcounters, hkept.count]
  exact h.2

/-- The row of the counter is there. -/
theorem Party.insertCounter (h : quota.Party s i .begun) (hkept : Kept s s')
    (hinsert : s.tables.counters.insertDoNothing i quota.counter 0 = some s'.tables.counters) :
    quota.Party s' i .begun := by
  refine ⟨hkept.uncharged h.1, ?_⟩
  rw [seen, RowStore.insertDoNothing_visible hinsert, hkept.count]
  exact h.2

/-- The two rows are read and locked. -/
theorem Party.selectForUpdate (h : quota.Party s i .begun) (hkept : Kept s s') {plan : BillingPlan}
    {used : ℕ} (hplan : s.tables.plans.selectForUpdate i quota.tenantId =
      some (some plan, s'.tables.plans))
    (hcounter : s.tables.counters.selectForUpdate i quota.counter =
      some (some used, s'.tables.counters)) : quota.Party s' i (.locked plan.limit used) := by
  obtain ⟨hownP, hseenP, -, -⟩ := RowStore.selectForUpdate_some hplan
  obtain ⟨hownC, hseenC, hseenC', -⟩ := RowStore.selectForUpdate_some hcounter
  refine ⟨hkept.uncharged h.1, ⟨hownP, hownC⟩, hseenC, ?_, by rw [seenLimit, hseenP]; rfl⟩
  rw [hkept.count, ← h.2, seen, hseenC']
  rfl

/-- The counter is raised, below the limit. -/
theorem Party.increment {limit : ℤ} {used : ℕ} (h : quota.Party s i (.locked limit used))
    (hkept : Kept s s') (hbelow : (used : ℤ) < limit)
    (hplans : s'.tables.plans = s.tables.plans)
    (hupdate : s.tables.counters.update i quota.counter (· + 1) = some s'.tables.counters) :
    quota.Party s' i .raised := by
  obtain ⟨hun, hholds, hseen, hcount, hlimit⟩ := h
  obtain ⟨hown, hseen', -⟩ := RowStore.update_some hseen hupdate
  refine ⟨hkept.uncharged hun, ⟨by rw [hplans]; exact hholds.plan, hown⟩, ?_, limit, ?_, ?_⟩
  · rw [seen, hseen', hkept.count, hcount]
  · rw [seenLimit, hplans]
    exact hlimit
  · rw [hkept.count, hcount]
    omega

/-- Something else is written. -/
theorem Party.raised_of_rows (h : quota.Party s i .raised) (hkept : Kept s s')
    (hplans : s'.tables.plans = s.tables.plans)
    (hcounters : s'.tables.counters = s.tables.counters) : quota.Party s' i .raised := by
  obtain ⟨hun, hholds, hseen, limit, hlimit, hle⟩ := h
  refine ⟨hkept.uncharged hun, ⟨by rw [hplans]; exact hholds.plan,
    by rw [hcounters]; exact hholds.counter⟩, ?_, limit, ?_, ?_⟩
  · rw [seen, hcounters, hkept.count]
    exact hseen
  · rw [seenLimit, hplans]
    exact hlimit
  · rwa [hkept.count]

/-- The counter is lowered. -/
theorem Party.decrement (h : quota.Party s i .returning) (hkept : Kept s s')
    (hpos : 0 < quota.count s)
    (hupdate : s.tables.counters.update i quota.counter (· - 1) = some s'.tables.counters) :
    quota.Party s' i .lowered := by
  obtain ⟨howes, hown⟩ := h
  have hvisible : s.tables.counters.visible i quota.counter = some (quota.count s) := by
    rw [RowStore.visible_of_ne hown]
    cases hcommitted : s.tables.counters.committed quota.counter with
    | none =>
      rw [count, hcommitted] at hpos
      exact absurd hpos (lt_irrefl 0)
    | some used =>
      rw [count, hcommitted]
      rfl
  obtain ⟨hown', hseen', -⟩ := RowStore.update_some hvisible hupdate
  refine ⟨hkept.owes howes, hown', ?_⟩
  rw [seen, hseen', hkept.count]

/-- Inserting an execution leaves plans and counters alone. -/
theorem insertExecution_rows {row : ExecutionRow} {ignoreConflict : Bool}
    {tables tables' : Tables ι} {result : Except ApiError Unit}
    (h : tables.insertExecution i row ignoreConflict = some (result, tables')) :
    tables'.plans = tables.plans ∧ tables'.counters = tables.counters := by
  unfold Tables.insertExecution at h
  split_ifs at h
  · obtain ⟨executions, -, heq⟩ := map_eq_some_iff.mp h
    cases heq
    exact ⟨rfl, rfl⟩
  · cases h
    exact ⟨rfl, rfl⟩

/-- The phase after a statement that has failed. -/
theorem Party.refused (h : quota.Party s i phase) (hinner : call.Inner) (err : ApiError)
    (hkept : Kept s s') (hcounters : s'.tables.counters = s.tables.counters)
    (hallow : phase.allows quota.tenantId quota.month call) :
    quota.Party s' i (phase.next call (.error err call)) := by
  have hbegun (h : quota.Party s i .begun) : quota.Party s' i .begun :=
    h.begun_of_counters hkept (by rw [hcounters])
  cases phase with
  | idle => cases call <;> exact trivial
  | begun =>
    cases call with
    | insertPlan | insertCounter | selectForUpdate => exact hbegun h
    | rollback => exact absurd hinner id
    | _ => exact absurd hallow id
  | locked limit used =>
    cases call with
    | increment => exact trivial
    | rollback => exact absurd hinner id
    | _ => exact absurd hallow id
  | raised =>
    cases call with
    | insertExecution => exact trivial
    | commit => exact absurd hinner id
    | _ => exact absurd hallow id
  | owing =>
    have hkeep := hkept.owing h hcounters
    cases call with
    | begin transaction =>
      cases transaction with
      | release => exact trivial
      | _ => exact hkeep
    | executeWorkflow | terminateWorkflow | insertExecution | startPartition => exact hkeep
    | commit | rollback => exact absurd hinner id
    | _ => exact absurd hallow id
  | returning =>
    cases call with
    | decrement => exact trivial
    | _ => exact absurd hallow id
  | lowered =>
    cases call with
    | commit => exact absurd hinner id
    | _ => exact absurd hallow id
  | failed =>
    cases call with
    | rollback => exact absurd hinner id
    | _ => exact absurd hallow id
  | closed => exact absurd hallow id

/-- The phase after a statement that has taken effect; its reply may be lost. -/
theorem Party.performed (h : quota.Party s i phase) (hinner : call.Inner)
    (hpos : phase = .returning → 0 < quota.count s) (hkept : Kept s s')
    (hallow : phase.allows quota.tenantId quota.month call) {reply' : CallReply call}
    (hperform : perform i runId call s.tables = some (reply', s'.tables))
    (hreply : reply = reply' ∨ ∃ err, reply = .error err call) :
    quota.Party s' i (phase.next call reply) := by
  -- where the statement leaves the counters alone, a lost reply is like a failure
  have hlost (err : ApiError) (hcounters : s'.tables.counters = s.tables.counters) :=
    h.refused hinner err hkept hcounters hallow
  cases phase with
  | idle =>
    cases call with
    | begin transaction =>
      obtain ⟨rfl, htables⟩ := Prod.mk.inj (some.inj hperform)
      rcases hreply with rfl | ⟨err, rfl⟩
      · exact h.begin hkept (by rw [← htables])
      · exact trivial
    | _ => exact absurd hallow id
  | begun =>
    cases call with
    | insertPlan tenantId =>
      obtain ⟨plans, -, heq⟩ := map_eq_some_iff.mp hperform
      exact h.begun_of_counters hkept (by rw [← (Prod.mk.inj heq).2])
    | insertCounter tenantId month =>
      obtain ⟨rfl, rfl⟩ := hallow
      obtain ⟨counters, hinsert, heq⟩ := map_eq_some_iff.mp hperform
      refine h.insertCounter hkept ?_
      rw [← (Prod.mk.inj heq).2]
      exact hinsert
    | selectForUpdate tenantId month =>
      obtain ⟨rfl, rfl⟩ := hallow
      rcases Tables.selectForUpdate_cases hperform with
        ⟨htables, err, rfl⟩ | ⟨plan, used, hplan, hcounter, rfl⟩
      · rcases hreply with rfl | ⟨err', rfl⟩ <;>
          exact h.begun_of_counters hkept (by rw [htables])
      · rcases hreply with rfl | ⟨err', rfl⟩
        · exact h.selectForUpdate hkept hplan hcounter
        · exact h.begun_of_counters hkept (RowStore.selectForUpdate_visible hcounter)
    | rollback => exact absurd hinner id
    | _ => exact absurd hallow id
  | locked limit used =>
    cases call with
    | increment tenantId month =>
      obtain ⟨rfl, rfl, hbelow⟩ := hallow
      obtain ⟨counters, hupdate, heq⟩ := map_eq_some_iff.mp hperform
      obtain ⟨rfl, htables⟩ := Prod.mk.inj heq
      rcases hreply with rfl | ⟨err, rfl⟩
      · refine h.increment hkept hbelow (by rw [← htables]) ?_
        rw [← htables]
        exact hupdate
      · exact trivial
    | rollback => exact absurd hinner id
    | _ => exact absurd hallow id
  | raised =>
    cases call with
    | insertExecution row ignoreConflict =>
      obtain ⟨hplans, hcounters⟩ := insertExecution_rows hperform
      have hreplied : quota.Party s' i (Phase.next .raised (.insertExecution row ignoreConflict)
          reply') := by
        rcases reply' with err | _
        · exact trivial
        · exact h.raised_of_rows hkept hplans hcounters
      rcases hreply with rfl | ⟨err, rfl⟩
      · exact hreplied
      · exact trivial
    | commit => exact absurd hinner id
    | _ => exact absurd hallow id
  | owing =>
    cases call with
    | begin transaction =>
      obtain ⟨rfl, htables⟩ := Prod.mk.inj (some.inj hperform)
      have hkeep := hkept.owing h (by rw [← htables])
      rcases hreply with rfl | ⟨err, rfl⟩
      · cases transaction <;> exact hkeep
      · exact hlost err (by rw [← htables])
    | executeWorkflow | terminateWorkflow | startPartition =>
      exact hkept.owing h (by rw [← (Prod.mk.inj (some.inj hperform)).2])
    | insertExecution row ignoreConflict =>
      exact hkept.owing h (insertExecution_rows hperform).2
    | commit | rollback => exact absurd hinner id
    | _ => exact absurd hallow id
  | returning =>
    cases call with
    | decrement tenantId month =>
      obtain ⟨rfl, rfl⟩ := hallow
      obtain ⟨counters, hupdate, heq⟩ := map_eq_some_iff.mp hperform
      obtain ⟨rfl, htables⟩ := Prod.mk.inj heq
      rcases hreply with rfl | ⟨err, rfl⟩
      · refine h.decrement hkept (hpos rfl) ?_
        rw [← htables]
        exact hupdate
      · exact trivial
    | _ => exact absurd hallow id
  | lowered =>
    cases call with
    | commit => exact absurd hinner id
    | _ => exact absurd hallow id
  | failed =>
    cases call with
    | rollback => exact absurd hinner id
    | _ => exact absurd hallow id
  | closed => exact absurd hallow id

end statements

/-! ## The end of a transaction -/

section ends

/-- After a rollback the job does nothing more to the counter, or is charged as before. -/
theorem Party.rollback (h : quota.Party s i phase) (transaction : Transaction) {tables : Tables ι}
    (htables : s'.tables = tables.rollback i) (hcharged : s'.charged = s.charged)
    (hreleased : s'.released = s.released) (reply : CallReply (.rollback transaction)) :
    quota.Party s' i (phase.next (.rollback transaction) reply) := by
  cases phase with
  | owing =>
    refine ⟨⟨hcharged ▸ h.1.charged, hreleased ▸ h.1.released⟩, ?_⟩
    rw [htables]
    exact RowStore.rollback_owner_ne_self
  | _ => exact trivial

/-- A rollback changes nothing that is committed. -/
theorem Balanced.rollback (h : quota.Balanced before s)
    (htables : s'.tables = s.tables.rollback i) (hcharged : s'.charged = s.charged)
    (hreleased : s'.released = s.released) : quota.Balanced before s' := by
  refine Kept.balanced ⟨?_, hcharged, hreleased⟩ h
  rw [htables]
  exact ⟨rfl, rfl⟩

/-- A commit of a raised counter: the count is one higher, within the limit, and the job is
charged. -/
theorem Party.commit_raised (h : quota.Party s i .raised)
    (hbalanced : quota.Balanced before s) (htables : s'.tables = s.tables.commit i)
    (hcharged : s'.charged = insert i s.charged) (hreleased : s'.released = s.released) :
    quota.Balanced before s' ∧ (quota.count s' : ℤ) ≤ quota.limit s' ∧ quota.Party s' i .owing := by
  obtain ⟨hun, -, hseen, limit, hlimit, hle⟩ := h
  have hcount : quota.count s' = quota.count s + 1 := by
    rw [count, htables]
    show (s.tables.counters.visible i quota.counter).getD 0 = _
    rw [show s.tables.counters.visible i quota.counter = _ from hseen]
    rfl
  have hlimit' : quota.limit s' = limit := by
    obtain ⟨plan, hplan, rfl⟩ := map_eq_some_iff.mp hlimit
    rw [Quota.limit, htables]
    show ((s.tables.plans.visible i quota.tenantId).getD {}).limit = _
    rw [hplan]
    rfl
  refine ⟨⟨?_, ?_⟩, ?_, ⟨⟨?_, ?_⟩, ?_⟩⟩
  · rw [hcount, hcharged, hreleased, Finset.card_insert_of_notMem hun.charged]
    have := hbalanced.count
    omega
  · rw [hcharged, hreleased]
    exact fun j hj => Finset.mem_insert_of_mem (hbalanced.released hj)
  · rw [hcount, hlimit']
    exact hle
  · rw [hcharged]
    exact Finset.mem_insert_self ..
  · rw [hreleased]
    exact hun.released
  · rw [htables]
    exact RowStore.commit_owner_ne_self

/-- A commit of a lowered counter: the count is one lower, and the job has given its charge back. -/
theorem Party.commit_lowered (h : quota.Party s i .lowered)
    (hbalanced : quota.Balanced before s) (htables : s'.tables = s.tables.commit i)
    (hcharged : s'.charged = s.charged) (hreleased : s'.released = insert i s.released) :
    quota.Balanced before s' := by
  obtain ⟨howes, -, hseen⟩ := h
  have hcount : quota.count s' = quota.count s - 1 := by
    rw [count, htables]
    show (s.tables.counters.visible i quota.counter).getD 0 = _
    rw [show s.tables.counters.visible i quota.counter = _ from hseen]
    rfl
  refine ⟨?_, ?_⟩
  · rw [hcount, hcharged, hreleased, Finset.card_insert_of_notMem howes.released]
    have := hbalanced.count
    have := hbalanced.count_pos howes
    omega
  · rw [hcharged, hreleased]
    exact Finset.insert_subset howes.charged hbalanced.released

/-- A commit of a transaction that has not touched the counter. -/
theorem Party.commit_owing (h : quota.Party s i .owing)
    (hbalanced : quota.Balanced before s) (htables : s'.tables = s.tables.commit i)
    (hcharged : s'.charged = s.charged) (hreleased : s'.released = s.released) :
    quota.Balanced before s' ∧ quota.Party s' i .owing := by
  have hcount : quota.count s' = quota.count s := by
    rw [count, htables]
    show (s.tables.counters.visible i quota.counter).getD 0 = _
    rw [RowStore.visible_of_ne h.2, count]
  refine ⟨⟨?_, ?_⟩, ⟨hcharged ▸ h.1.charged, hreleased ▸ h.1.released⟩, ?_⟩
  · rw [hcount, hcharged, hreleased, hbalanced.count]
  · rw [hcharged, hreleased]
    exact hbalanced.released
  · rw [htables]
    exact RowStore.commit_owner_ne_self

end ends

/-! ## Steps and runs -/

/-- What a step leads to: the charges are accounted for, the job is in its next phase, and a charge
is within the limit. -/
structure Advance (quota : Quota ι) (before : ℕ) (s s' : State ι) (i : ι) (phase : Phase) :
    Prop where
  balanced : quota.Balanced before s'
  party : quota.Party s' i phase
  limit : s'.charged ≠ s.charged → (quota.count s' : ℤ) ≤ quota.limit s'

section call

variable {before : ℕ} {runId : String} {fault : Fault} {call : Call} {reply : CallReply call}
  {tables' : Tables ι} {program : Program (Except ApiError String)}

/-- A statement. -/
theorem advance_inner (hbalanced : quota.Balanced before s) (h : quota.Party s i phase)
    (hallow : phase.allows quota.tenantId quota.month call) (hinner : call.Inner)
    (hexec : exec i runId fault call s.tables = some (reply, tables')) :
    Advance quota before s (afterCall s i fault call tables' program) i (phase.next call reply) := by
  have hcharged : (afterCall s i fault call tables' program).charged = s.charged := by
    cases call with
    | commit => exact absurd hinner id
    | _ => rfl
  have hreleased : (afterCall s i fault call tables' program).released = s.released := by
    cases call with
    | commit => exact absurd hinner id
    | _ => rfl
  have hkept : Kept s (afterCall s i fault call tables' program) :=
    ⟨(exec_touched hinner hexec).2, hcharged, hreleased⟩
  refine ⟨hkept.balanced hbalanced, ?_, fun hne => absurd hcharged hne⟩
  rcases exec_cases hinner hexec with ⟨rfl, err, rfl⟩ | ⟨reply', hperform, hreply⟩
  · exact h.refused hinner err hkept rfl hallow
  · refine h.performed hinner ?_ hkept hallow hperform hreply
    rintro rfl
    exact hbalanced.count_pos h.1

/-- A commit that fails. -/
theorem advance_dropped (hbalanced : quota.Balanced before s) (h : quota.Party s i phase)
    {reply : CallReply (.commit transaction)} (hreply : reply ≠ .ok ())
    (hallow : phase.allows quota.tenantId quota.month (.commit transaction))
    (htables : s'.tables = s.tables.rollback i) (hcharged : s'.charged = s.charged)
    (hreleased : s'.released = s.released) :
    Advance quota before s s' i (phase.next (.commit transaction) reply) := by
  refine ⟨hbalanced.rollback htables hcharged hreleased, ?_, fun hne => absurd hcharged hne⟩
  rcases reply with err | _
  · cases phase with
    | owing => exact h.rollback .record htables hcharged hreleased (.ok ())
    | _ => exact trivial
  · exact absurd rfl hreply

/-- **A call of a job.** -/
theorem advance (hbalanced : quota.Balanced before s) (h : quota.Party s i phase)
    (hallow : phase.allows quota.tenantId quota.month call)
    (hexec : exec i runId fault call s.tables = some (reply, tables')) :
    Advance quota before s (afterCall s i fault call tables' program) i (phase.next call reply) := by
  cases call with
  | rollback transaction =>
    have htables : (afterCall s i fault (.rollback transaction) tables' program).tables =
        s.tables.rollback i := exec_rollback hexec
    refine ⟨hbalanced.rollback htables rfl rfl, h.rollback transaction htables rfl rfl reply, ?_⟩
    exact fun hne => absurd rfl hne
  | commit transaction =>
    rcases exec_commit hexec with ⟨heffect, htables⟩ | ⟨heffect, htables, hreply⟩
    · cases phase with
      | raised =>
        have hcharged : (afterCall s i fault (.commit transaction) tables' program).charged =
            insert i s.charged := by
          cases transaction <;> first | exact absurd hallow id | exact if_pos heffect
        have hreleased : (afterCall s i fault (.commit transaction) tables' program).released =
            s.released := by
          cases transaction <;> first | exact absurd hallow id | rfl
        obtain ⟨hbalanced', hlimit, hparty⟩ :=
          h.commit_raised hbalanced htables hcharged hreleased
        refine ⟨hbalanced', ?_, fun _ => hlimit⟩
        rcases reply with err | _
        · exact trivial
        · exact hparty
      | owing =>
        cases transaction with
        | record =>
          have htables' : (afterCall s i fault (.commit .record) tables' program).tables =
              s.tables.commit i := htables
          obtain ⟨hbalanced', hparty⟩ := h.commit_owing hbalanced htables' rfl rfl
          exact ⟨hbalanced', hparty, fun hne => absurd rfl hne⟩
        | _ => exact absurd hallow id
      | lowered =>
        cases transaction with
        | release =>
          have htables' : (afterCall s i fault (.commit .release) tables' program).tables =
              s.tables.commit i := htables
          refine ⟨h.commit_lowered hbalanced htables' rfl (if_pos heffect), trivial, ?_⟩
          exact fun hne => absurd rfl hne
        | _ => exact absurd hallow id
      | _ => exact absurd hallow id
    · refine advance_dropped hbalanced h hreply hallow htables ?_ ?_
      · exact if_neg (by rw [heffect, Bool.and_false]; exact Bool.false_ne_true)
      · exact if_neg (by rw [heffect, Bool.and_false]; exact Bool.false_ne_true)
  | _ => exact advance_inner hbalanced h hallow trivial hexec

end call

/-- A change of the plan does not meet a job that has locked it. -/
theorem Party.changePlan (h : quota.Party s i phase) {plan : BillingPlan}
    (hstep : quota.changePlan s plan = some s') : quota.Party s' i phase := by
  unfold Quota.changePlan at hstep
  split_ifs at hstep with hfree
  cases hstep
  cases phase with
  | locked limit used | raised =>
    simp [h.2.1.plan] at hfree
  | failed | closed => exact trivial
  | _ => exact ⟨⟨h.1.charged, h.1.released⟩, h.2⟩

/-- **A step keeps the invariant, and a charge is within the limit.** -/
theorem Invariant.step {e : Event ι} (h : quota.Invariant before s)
    (hstep : quota.step s e = some s') :
    quota.Invariant before s' ∧
      (s'.charged ≠ s.charged → (quota.count s' : ℤ) ≤ quota.limit s') := by
  cases e with
  | changePlan plan =>
    have hparty (i : ι) : ∃ phase, (protocol quota.tenantId quota.month).Follows Ended phase
        (s.programs i) ∧ quota.Party s' i phase := by
      obtain ⟨phase, hfollows, hparty⟩ := h.party i
      exact ⟨phase, hfollows, hparty.changePlan hstep⟩
    unfold Quota.step Quota.changePlan at hstep
    dsimp only at hstep
    split_ifs at hstep
    cases hstep
    exact ⟨⟨⟨h.balanced.count, h.balanced.released⟩, hparty⟩, fun hne => absurd rfl hne⟩
  | call i fault =>
    obtain ⟨phase, hfollows, hparty⟩ := h.party i
    unfold Quota.step at hstep
    dsimp only at hstep
    cases hprogram : s.programs i with
    | done result =>
      simp [hprogram] at hstep
    | await call resume =>
      rw [hprogram] at hstep hfollows
      obtain ⟨⟨reply, tables'⟩, hexec, rfl⟩ := map_eq_some_iff.mp hstep
      have hadvance : Advance quota before s
          (afterCall s i fault call tables' (resume reply quota.month)) i
          (phase.next call reply) := advance h.balanced hparty hfollows.1 hexec
      obtain ⟨hbalanced, hparty', hlimit⟩ := hadvance
      refine ⟨⟨hbalanced, ?_⟩, hlimit⟩
      intro j
      by_cases hj : j = i
      · subst hj
        refine ⟨_, ?_, hparty'⟩
        show Coroutine.Protocol.Follows _ _ _ (update s.programs j _ j)
        rw [update_self]
        exact hfollows.2 reply quota.month rfl
      · obtain ⟨phaseJ, hfollowsJ, hpartyJ⟩ := h.party j
        refine ⟨phaseJ, ?_, hpartyJ.frame hj (exec_others hexec) ?_ ?_⟩
        · show Coroutine.Protocol.Follows _ _ _ (update s.programs i _ j)
          rw [update_of_ne hj]
          exact hfollowsJ
        · unfold afterCall
          dsimp only
          split_ifs
          · rw [Finset.mem_insert, or_iff_right hj]
          · rfl
        · unfold afterCall
          dsimp only
          split_ifs
          · rw [Finset.mem_insert, or_iff_right hj]
          · rfl

/-- The invariant holds at the start. -/
theorem invariant_start (quota : Quota ι) (rows : Rows) :
    quota.Invariant (rows.count quota.tenantId quota.month) (quota.start rows) where
  balanced := ⟨rfl, Finset.Subset.refl _⟩
  party i := by
    refine ⟨.idle, ?_, ⟨Finset.notMem_empty i, Finset.notMem_empty i⟩, ?_⟩
    · rw [← quota.tenant i]
      exact (quota.job i).follows_program
    · intro h
      cases h

/-- **The invariant holds in every state reached.** -/
theorem invariant_of_run {rows : Rows} {es : List (Event ι)}
    (run : Run quota.step Any (quota.start rows) es s) :
    quota.Invariant (rows.count quota.tenantId quota.month) s :=
  run.invariant (I := fun _ s => quota.Invariant (rows.count quota.tenantId quota.month) s)
    (invariant_start quota rows) (fun _ _ _ _ h _ hstep => (h.step hstep).1)

/-- **The monthly quota holds.** In every state reached the counter is what it was at the start, and
one more for each charge and one less for each release; only charges are released; a job that has
succeeded is charged, and has not been released. Every step that charges a job leaves the counter
within the limit in force. -/
theorem charged_within_limit {rows : Rows} {es : List (Event ι)}
    (run : Run quota.step Any (quota.start rows) es s) :
    (quota.count s : ℤ) = rows.count quota.tenantId quota.month + s.charged.card - s.released.card ∧
      s.released ⊆ s.charged ∧
      (∀ i executionId, s.programs i = .done (.ok executionId) → i ∈ s.charged ∧ i ∉ s.released) ∧
      ∀ e s', quota.step s e = some s' → s'.charged ≠ s.charged →
        (quota.count s' : ℤ) ≤ quota.limit s' := by
  have h := invariant_of_run run
  refine ⟨?_, h.balanced.released, ?_, fun e s' hstep => (h.step hstep).2⟩
  · have := h.balanced.count
    omega
  · intro i executionId hdone
    obtain ⟨phase, hfollows, hparty⟩ := h.party i
    rw [hdone] at hfollows
    obtain rfl : phase = .owing := hfollows executionId rfl
    exact ⟨hparty.1.charged, hparty.1.released⟩

end steps

end Quota

/-! ## Two starts at the same time -/

/-- An execution that is fired and one that is scheduled. -/
def firedAndScheduled : Quota Bool where
  tenantId := "tenant"
  month := "2026-01-01"
  job fired :=
    if fired then .fire
      { definition := { tenantId := "tenant" }, pipelineRowId := "row", triggerType := "manual"
        environment := "prod" }
      { executionId := "exec-1", traceId := "trace" }
    else .scheduled
      { executionId := "exec-2", pipelineRowId := "row", tenantId := "tenant"
        environment := "prod", workflowId := "workflow", runId := "run" } "trace"
  tenant fired := by cases fired <;> rfl
  runId _ := "run"

/-- The transaction of the first job is open while the second one begins; the start of the fired
execution then fails. -/
def interleaved : List (Event Bool) :=
  [.call true .none, .call false .none] ++ List.replicate 5 (.call true .none) ++
    List.replicate 6 (.call false .none) ++ [.call true (.fails (.other "unavailable"))] ++
    List.replicate 3 (.call true .none)

/-- Two jobs are charged and one of them gives its charge back. -/
theorem charged_within_limit_interleaved :
    ∃ s, Run firedAndScheduled.step Any (firedAndScheduled.start ⟨fun _ => none, fun _ => none,
        fun _ => none⟩) interleaved s ∧ (firedAndScheduled.count s : ℤ) = 0 + 2 - 1 := by
  obtain ⟨s, hrun, hcharged, hreleased⟩ :
      ∃ s, Run firedAndScheduled.step Any (firedAndScheduled.start ⟨fun _ => none, fun _ => none,
        fun _ => none⟩) interleaved s ∧ s.charged.card = 2 ∧ s.released.card = 1 :=
    exists_run_of_check (fun _ _ _ _ => trivial) (by decide +kernel)
  have hcount := (Quota.charged_within_limit hrun).1
  rw [hcharged, hreleased] at hcount
  exact ⟨s, hrun, hcount⟩

end Dataflow.Api
