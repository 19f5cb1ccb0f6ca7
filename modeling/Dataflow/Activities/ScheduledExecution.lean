import Dataflow.Api.QuotaSession

/-!
# `PrepareScheduledExecution`, called more than once

The activity charges a scheduled execution and inserts its row. Temporal calls an activity again
when it has not got a reply, also when the call before has committed.

* `prepare`: one call; `repeats`: one call after the other, for the same execution.
* `Refused`: the quota of the tenant is used up in the month.
* `prepare_of_refused`, `prepare_of_admitted`: what one call comes to.
* `repeats_eq_iff`: **main result**: several calls come to the same as one only if all are refused.
-/

namespace Dataflow.Activities

open Library Api List Function

/-- A call of the activity: the month in which its transaction begins, and the trace id it mints. -/
structure Attempt where
  month : String
  traceId : String
  deriving DecidableEq

/-- One call on the rows. -/
def prepare (params : ScheduledExecutionParams) (attempt : Attempt) (rows : Rows) :
    Except ApiError Unit × Rows :=
  runOn { clock := fun _ => attempt.month } (prepareScheduledExecution params attempt.traceId) rows

/-- One call after the other. What is returned is the reply of the last one. -/
def repeats (params : ScheduledExecutionParams) (first : Attempt) :
    List Attempt → Rows → Except ApiError Unit × Rows
  | [], rows => prepare params first rows
  | next :: rest, rows => repeats params next rest (prepare params first rows).2

/-- The quota of the tenant is used up. -/
def Refused (rows : Rows) (tenantId month : String) : Prop :=
  rows.limit tenantId ≤ rows.count tenantId month

/-! ## One call -/

section call

variable (params : ScheduledExecutionParams) (attempt : Attempt) (rows : Rows)

/-- The rows with a plan and a counter. -/
def prepared : Rows :=
  { rows with
    plans := update rows.plans params.tenantId
      (some ((rows.plans params.tenantId).getD {}))
    counters := update rows.counters (params.tenantId, attempt.month)
      (some (rows.count params.tenantId attempt.month)) }

/-- The rows after a call that is not refused. -/
def admitted : Rows :=
  { prepared params attempt rows with
    counters := update (prepared params attempt rows).counters
      (params.tenantId, attempt.month) (some (rows.count params.tenantId attempt.month + 1))
    executions := update rows.executions params.executionId
      (some ((rows.executions params.executionId).getD (scheduledRow params attempt.traceId))) }

/-- The environment of a call. -/
def Attempt.env : Environment := { clock := fun _ => attempt.month }

/-- **The statements up to the check.** -/
theorem run_prepareBody :
    (prepareBody params attempt.traceId attempt.month).run (Session.handle attempt.env)
        (.clean rows) =
      (chargeScheduled params attempt.traceId attempt.month
        (.ok (rows.limit params.tenantId, rows.count params.tenantId attempt.month))).run
          (Session.handle attempt.env) ⟨rows, prepared params attempt rows⟩ := by
  have hselect : Session.perform "" (.selectForUpdate params.tenantId attempt.month)
      ⟨rows, prepared params attempt rows⟩ =
      (Except.ok (rows.limit params.tenantId, rows.count params.tenantId attempt.month),
        ⟨rows, prepared params attempt rows⟩) := by
    have hplan : (prepared params attempt rows).plans params.tenantId =
      some ((rows.plans params.tenantId).getD {}) := update_self ..
    have hcounter : (prepared params attempt rows).counters (params.tenantId, attempt.month) =
      some (rows.count params.tenantId attempt.month) := update_self ..
    unfold Session.perform
    dsimp only
    rw [hplan, hcounter]
    rfl
  unfold prepareBody
  rw [run_of_fault_none rfl]
  show (Coroutine.await (Call.insertCounter params.tenantId attempt.month) _).run _ _ = _
  rw [run_of_fault_none rfl]
  exact run_of_perform rfl hselect

/-- The call by what its last statements come to. -/
theorem prepare_eq (outcome : Except ApiError Unit) (work : Rows)
    (h : (chargeScheduled params attempt.traceId attempt.month
      (.ok (rows.limit params.tenantId, rows.count params.tenantId attempt.month))).run
        (Session.handle attempt.env) ⟨rows, prepared params attempt rows⟩ =
          (outcome, ⟨rows, work⟩)) :
    prepare params attempt rows = ((transactionResult .none .none outcome rows work).1,
      (transactionResult .none .none outcome rows work).2.base) := by
  have hbody := (run_prepareBody params attempt rows).trans h
  have hrun : (prepareScheduledExecution params attempt.traceId).run (Session.handle attempt.env)
      (.clean rows) = transactionResult .none .none outcome rows work :=
    run_inTransaction attempt.env .prepare (prepareBody params attempt.traceId) hbody
  show runOn attempt.env _ rows = _
  rw [runOn_eq, hrun]

/-- **A call that is refused** changes nothing. -/
theorem prepare_of_refused (h : Refused rows params.tenantId attempt.month) :
    prepare params attempt rows = (.error (.other "scheduled execution quota exceeded"), rows) := by
  have hcharge : chargeScheduled params attempt.traceId attempt.month
      (.ok (rows.limit params.tenantId, rows.count params.tenantId attempt.month)) =
        .done (.error (.other "scheduled execution quota exceeded")) := if_pos h
  refine prepare_eq params attempt rows (.error (.other "scheduled execution quota exceeded"))
    (prepared params attempt rows) ?_
  rw [hcharge]
  rfl

/-- **A call that is not refused** charges its month. -/
theorem prepare_of_admitted (h : ¬ Refused rows params.tenantId attempt.month) :
    prepare params attempt rows = (.ok (), admitted params attempt rows) := by
  have hcharge : chargeScheduled params attempt.traceId attempt.month
      (.ok (rows.limit params.tenantId, rows.count params.tenantId attempt.month)) =
        .await (.increment params.tenantId attempt.month) _ := if_neg h
  have hcounter : (prepared params attempt rows).counters (params.tenantId, attempt.month) =
      some (rows.count params.tenantId attempt.month) := update_self ..
  have hincrement : Session.perform "" (.increment params.tenantId attempt.month)
      ⟨rows, prepared params attempt rows⟩ =
      (Except.ok (), ⟨rows, { prepared params attempt rows with
        counters := update (prepared params attempt rows).counters
          (params.tenantId, attempt.month)
          (some (rows.count params.tenantId attempt.month + 1)) }⟩) := by
    unfold Session.perform
    dsimp only
    rw [hcounter]
    rfl
  have hinsert : ∀ work : Rows, Session.perform ""
      (.insertExecution (scheduledRow params attempt.traceId) true) ⟨rows, work⟩ =
      (Except.ok (), ⟨rows, { work with
        executions := update work.executions params.executionId
          (some ((work.executions params.executionId).getD
            (scheduledRow params attempt.traceId))) }⟩) := fun _ => if_pos (.inr rfl)
  refine prepare_eq params attempt rows (.ok ()) (admitted params attempt rows) ?_
  rw [hcharge, run_of_perform rfl hincrement]
  exact run_of_perform rfl (hinsert _)

/-- A call that is not refused raises the counter of its month, and no other. -/
theorem admitted_count (tenantId month : String) :
    (admitted params attempt rows).count tenantId month = rows.count tenantId month +
      if (tenantId, month) = (params.tenantId, attempt.month) then 1 else 0 := by
  unfold admitted prepared Rows.count
  dsimp only
  rw [update_idem, update_apply]
  split_ifs with hkey
  · rw [hkey]
    rfl
  · rfl

end call

/-! ## Several calls -/

variable {params : ScheduledExecutionParams} {rows : Rows}

/-- No call lowers a counter. -/
theorem prepare_count_le (attempt : Attempt) (tenantId month : String) :
    rows.count tenantId month ≤ (prepare params attempt rows).2.count tenantId month := by
  by_cases h : Refused rows params.tenantId attempt.month
  · rw [prepare_of_refused params attempt rows h]
  · rw [prepare_of_admitted params attempt rows h, admitted_count]
    exact Nat.le_add_right _ _

theorem repeats_count_le (first : Attempt) (rest : List Attempt) (tenantId month : String) :
    rows.count tenantId month ≤ (repeats params first rest rows).2.count tenantId month := by
  induction rest generalizing first rows with
  | nil => exact prepare_count_le first tenantId month
  | cons next rest ih => exact (prepare_count_le first tenantId month).trans (ih next)

/-- **Calls that leave the counters as they are** are refused, all of them. -/
theorem refused_of_repeats {first : Attempt} {rest : List Attempt}
    (h : ∀ month, (repeats params first rest rows).2.count params.tenantId month =
      rows.count params.tenantId month) :
    ∀ attempt ∈ first :: rest, Refused rows params.tenantId attempt.month := by
  induction rest generalizing first rows with
  | nil =>
    intro attempt hattempt
    rw [mem_singleton.mp hattempt]
    by_contra hadmitted
    have hcount := h first.month
    rw [repeats, prepare_of_admitted params first rows hadmitted, admitted_count,
      if_pos rfl] at hcount
    omega
  | cons next rest ih =>
    have hfirst : Refused rows params.tenantId first.month := by
      by_contra hadmitted
      have hcount := h first.month
      have hle : (prepare params first rows).2.count params.tenantId first.month ≤
          (repeats params next rest (prepare params first rows).2).2.count params.tenantId
            first.month := repeats_count_le next rest params.tenantId first.month
      rw [repeats] at hcount
      rw [prepare_of_admitted params first rows hadmitted] at hcount hle
      dsimp only at hcount hle
      rw [admitted_count, if_pos rfl] at hle
      omega
    have hsame : (prepare params first rows).2 = rows := by
      rw [prepare_of_refused params first rows hfirst]
    rw [repeats, hsame] at h
    intro attempt hattempt
    rcases mem_cons.mp hattempt with rfl | hattempt
    · exact hfirst
    · exact ih h attempt hattempt

/-- Calls that are refused come to the same as one of them. -/
theorem repeats_of_refused {first : Attempt} {rest : List Attempt}
    (h : ∀ attempt ∈ first :: rest, Refused rows params.tenantId attempt.month) :
    repeats params first rest rows =
      (.error (.other "scheduled execution quota exceeded"), rows) := by
  induction rest generalizing first with
  | nil => exact prepare_of_refused params first rows (h first mem_cons_self)
  | cons next rest ih =>
    rw [repeats, prepare_of_refused params first rows (h first mem_cons_self)]
    exact ih fun attempt hattempt => h attempt (mem_cons_of_mem first hattempt)

/-- **Several calls come to the same as one iff there is one only, or all of them are refused.** The
calls may fall into different months.

Source: `activities.go` `PrepareScheduledExecution` -/
theorem repeats_eq_iff (params : ScheduledExecutionParams) (rows : Rows) (first : Attempt)
    (rest : List Attempt) :
    repeats params first rest rows = prepare params first rows ↔
      rest = [] ∨ ∀ attempt ∈ first :: rest, Refused rows params.tenantId attempt.month := by
  constructor
  · intro h
    cases rest with
    | nil => exact .inl rfl
    | cons next rest =>
      right
      have hrest : ∀ attempt ∈ next :: rest,
          Refused (prepare params first rows).2 params.tenantId attempt.month := by
        apply refused_of_repeats
        intro month
        rw [repeats] at h
        rw [h]
      have hlast := repeats_of_refused hrest
      have hfirst : Refused rows params.tenantId first.month := by
        by_contra hadmitted
        rw [repeats, hlast, prepare_of_admitted params first rows hadmitted] at h
        cases (Prod.mk.inj h).1
      rw [prepare_of_refused params first rows hfirst] at hrest
      intro attempt hattempt
      rcases mem_cons.mp hattempt with rfl | hattempt
      · exact hfirst
      · exact hrest attempt hattempt
  · rintro (rfl | hrefused)
    · rfl
    · rw [repeats_of_refused hrefused,
        prepare_of_refused params first rows (hrefused first mem_cons_self)]

/-! ## A retry after a lost reply -/

/-- A scheduled execution. -/
def exampleParams : ScheduledExecutionParams where
  executionId := "exec-1"
  pipelineRowId := "row"
  tenantId := "tenant"
  environment := "prod"
  workflowId := "schedule"
  runId := "run"

/-- A second call for one scheduled execution charges it again. -/
theorem scheduled_execution_charged_twice :
    let rows : Rows := ⟨fun _ => none, fun _ => none, fun _ => none⟩
    let first : Attempt := ⟨"2026-01-01", "trace-1"⟩
    let retry : Attempt := ⟨"2026-01-01", "trace-2"⟩
    (prepare exampleParams first rows).2.count "tenant" "2026-01-01" = 1 ∧
      (repeats exampleParams first [retry] rows).2.count "tenant" "2026-01-01" = 2 ∧
      repeats exampleParams first [retry] rows ≠ prepare exampleParams first rows := by
  intro rows first retry
  have honce : (prepare exampleParams first rows).2.count "tenant" "2026-01-01" = 1 := by
    decide +kernel
  have htwice : (repeats exampleParams first [retry] rows).2.count "tenant" "2026-01-01" = 2 := by
    decide +kernel
  refine ⟨honce, htwice, ?_⟩
  intro h
  rw [h, honce] at htwice
  cases htwice

end Dataflow.Activities
