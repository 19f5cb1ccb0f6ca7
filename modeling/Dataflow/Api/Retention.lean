import Dataflow.Activities.Payloads
import Dataflow.Library.Lists

/-!
# `purge_aged_data`: what is deleted when it is old

Seven statements delete the rows of seven tables that are older than the setting for each.
Executions and the three outboxes are looked at only when they are done, the audit log, the steps
and the payloads always.

* `Tables`, `purgeAgedData`: the code.
* `SparesLive`: what an execution that has not ended needs: its rows are kept, and so are those it
  references, which are read as before.
* **`sparesLive_iff`**: that is so exactly if these rows are young, or the purge fails.
* `webhook_payload_deleted`: a referenced row that is stored under another execution.

Source: `025_retention_function.sql`, `server.go` `purgeAgedData`
-/

namespace Dataflow.Api.Retention

open Activities Library Library.Base64 Model List

/-! ## The tables -/

/-- A row of `executions`, with times in microseconds since 2000. -/
structure Execution where
  id : String
  phase : String
  completedAt : Option ℤ
  retryOf : Option String
  deriving DecidableEq

/-- A row of `node_runs`. -/
structure NodeRun where
  executionId : String
  nodeId : String
  finishedAt : Option ℤ
  deriving DecidableEq

/-- A row of `node_payloads`. -/
structure NodePayload where
  id : String
  executionId : String
  nodeId : String
  stored : StoredPayload
  createdAt : Option ℤ
  deriving DecidableEq

/-- A row of `openlineage_outbox`, which belongs to an execution. -/
structure LineageEvent where
  executionId : String
  sentAt : Option ℤ

/-- The tables the function deletes from, and those that reference `executions`. Of the rows of the
audit log and the two other outboxes only the times are of interest, of `asset_materializations`,
`data_quality_results` and `pipeline_alerts` only the execution. -/
structure Tables where
  auditLog : List (Option ℤ)
  executions : List Execution
  nodeRuns : List NodeRun
  nodePayloads : List NodePayload
  openlineageOutbox : List LineageEvent
  pipelineEventOutbox : List (Option ℤ)
  pipelineAlertNotificationOutbox : List (Option ℤ)
  assetMaterializations : List String
  dataQualityResults : List String
  pipelineAlerts : List (Option String)

/-- The five settings. -/
structure RetentionDays where
  audit : Option ℤ
  execution : Option ℤ
  nodeRun : Option ℤ
  payload : Option ℤ
  outbox : Option ℤ

/-! ## The function -/

/-- A setting that is neither `NULL` nor below one. -/
def checkDays : Option ℤ → Except String ℤ
  | none => .error "retention days must be positive integers"
  | some days => if days ≤ 0 then .error "retention days must be positive integers" else .ok days

/-- The first time there is: 4713 BC. -/
def firstTimestamp : ℤ := -211813488000000000

/-- `CURRENT_TIMESTAMP - make_interval(days => days)`, where days have 24 hours. -/
def ago (now days : ℤ) : Except String ℤ :=
  let timestamp := now - days * 86400000000
  if timestamp < firstTimestamp then .error "timestamp out of range" else .ok timestamp

/-- `column < timestamp`; no row is deleted for a `NULL`. -/
def isBefore (timestamp : ℤ) : Option ℤ → Bool
  | none => false
  | some column => column < timestamp

/-- The executions that are over, and what happens to the rows that reference them. -/
def deleteExecutions (timestamp : ℤ) (t : Tables) : Tables :=
  let isDeleted (e : Execution) := e.completedAt.isSome && isBefore timestamp e.completedAt
  let deleted := (t.executions.filter isDeleted).map Execution.id
  { t with
    executions := (t.executions.filter fun e => !isDeleted e).map fun e =>
      { e with retryOf := e.retryOf.filter (· ∉ deleted) }
    openlineageOutbox := t.openlineageOutbox.filter (·.executionId ∉ deleted)
    assetMaterializations := t.assetMaterializations.filter (· ∉ deleted)
    dataQualityResults := t.dataQualityResults.filter (· ∉ deleted)
    pipelineAlerts := t.pipelineAlerts.map fun executionId => executionId.filter (· ∉ deleted) }

/-- Source: `purge_aged_data`. -/
def purgeAgedData (now : ℤ) (settings : RetentionDays) (t : Tables) : Except String Tables := do
  let auditDays ← checkDays settings.audit
  let executionDays ← checkDays settings.execution
  let nodeRunDays ← checkDays settings.nodeRun
  let payloadDays ← checkDays settings.payload
  let outboxDays ← checkDays settings.outbox
  let auditLimit ← ago now auditDays
  let t := { t with auditLog := t.auditLog.filter fun createdAt => !isBefore auditLimit createdAt }
  let executionLimit ← ago now executionDays
  let t := deleteExecutions executionLimit t
  let nodeRunLimit ← ago now nodeRunDays
  let t := { t with nodeRuns := t.nodeRuns.filter fun row => !isBefore nodeRunLimit row.finishedAt }
  let payloadLimit ← ago now payloadDays
  let t := { t with nodePayloads := t.nodePayloads.filter fun row => !isBefore payloadLimit row.createdAt }
  let outboxLimit ← ago now outboxDays
  let isSent (sentAt : Option ℤ) := sentAt.isSome && isBefore outboxLimit sentAt
  return { t with
    openlineageOutbox := t.openlineageOutbox.filter fun row => !isSent row.sentAt
    pipelineEventOutbox := t.pipelineEventOutbox.filter fun publishedAt => !isSent publishedAt
    pipelineAlertNotificationOutbox :=
      t.pipelineAlertNotificationOutbox.filter fun sentAt => !isSent sentAt }

/-- The tables after a call; if it fails they are as before. -/
def tablesAfter (now : ℤ) (settings : RetentionDays) (t : Tables) : Tables :=
  (purgeAgedData now settings t).toOption.getD t

/-! ## What an execution needs -/

/-- The row of `node_payloads` that `Payloads.Read` selects. -/
def Tables.payload (t : Tables) (id : String) : Option NodePayload :=
  t.nodePayloads.find? (·.id = id)

/-- `SELECT payload,encrypted,encryption_iv FROM node_payloads WHERE id=$1`. -/
def Tables.select (t : Tables) (id : String) : Except String StoredPayload :=
  match t.payload id with
  | some row => .ok row.stored
  | none => .error "no rows in result set"

/-- The phases that `MarkExecution` completes an execution with. -/
def Terminal (phase : String) : Prop := phase ∈ ["completed", "failed", "cancelled"]

instance (phase : String) : Decidable (Terminal phase) := inferInstanceAs (Decidable (_ ∈ _))

/-- An execution that has not reached a terminal phase. -/
def Tables.Live (t : Tables) (executionId : String) : Prop :=
  ∃ e ∈ t.executions, e.id = executionId ∧ ¬ Terminal e.phase

/-- What the executions reference, by their ids: the payload of the trigger, and what their nodes
have left. It is in the state of their workflows, not in a table, and a row that is referenced may
be stored under another execution: `webhookTrigger` stores the payload of a trigger before there is
one, as that of `webhook`. -/
abbrev References := String → DataRef → Prop

/-- **Live executions are spared**: none of their rows is deleted, nor is one that they reference,
and with any keys and object store what they reference is read as before. -/
structure SparesLive (now : ℤ) (settings : RetentionDays) (t : Tables) (references : References) :
    Prop where
  payloads : ∀ row ∈ t.nodePayloads, t.Live row.executionId →
    row ∈ (tablesAfter now settings t).nodePayloads
  runs : ∀ row ∈ t.nodeRuns, t.Live row.executionId → row ∈ (tablesAfter now settings t).nodeRuns
  referenced : ∀ executionId, t.Live executionId → ∀ ref, references executionId ref →
    ref.type = "pg" → (tablesAfter now settings t).payload ref.key = t.payload ref.key
  reads : ∀ executionId, t.Live executionId → ∀ ref, references executionId ref →
    ∀ (gcm : GCM) (codec : JsonCodec) (p : Payloads) getObject dek,
      payloadsRead gcm codec p ⟨getObject, (tablesAfter now settings t).select⟩ (some ref) dek =
        payloadsRead gcm codec p ⟨getObject, t.select⟩ (some ref) dek

/-- The column is no older than the days. -/
def Younger (now days : ℤ) (column : Option ℤ) : Prop :=
  ∀ time ∈ column, now - days * 86400000000 ≤ time

/-- **The rows of live executions are young**, and so are those that they reference. -/
structure LiveRowsYoung (now nodeRunDays payloadDays : ℤ) (t : Tables) (references : References) :
    Prop where
  payloads : ∀ row ∈ t.nodePayloads, t.Live row.executionId → Younger now payloadDays row.createdAt
  runs : ∀ row ∈ t.nodeRuns, t.Live row.executionId → Younger now nodeRunDays row.finishedAt
  referenced : ∀ executionId, t.Live executionId → ∀ ref, references executionId ref →
    ref.type = "pg" → ∀ row, t.payload ref.key = some row → Younger now payloadDays row.createdAt

section purge

variable {now audit execution nodeRun payload outbox days : ℤ} {t t' : Tables}
  {references : References}

/-! ## What a purge does -/

theorem checkDays_of_pos (h : 0 < days) : checkDays (some days) = .ok days := if_neg (not_le.mpr h)

theorem ago_eq_ok {timestamp : ℤ} : ago now days = .ok timestamp ↔
      firstTimestamp ≤ now - days * 86400000000 ∧ timestamp = now - days * 86400000000 := by
  unfold ago
  dsimp only
  split_ifs with h
  · simp [not_le.mpr h]
  · simp [not_lt.mp h, eq_comm]

theorem isBefore_eq_false_iff {column : Option ℤ} :
    isBefore (now - days * 86400000000) column = false ↔ Younger now days column := by
  cases column with
  | none | some time => simp [isBefore, Younger]

/-- **A purge that succeeds**: all times are in range, and of the two tables the old rows are
gone. -/
theorem purgeAgedData_eq_ok (hpositive : ∀ days ∈ [audit, execution, nodeRun, payload, outbox], 0 < days)
    (h : purgeAgedData now ⟨some audit, some execution, some nodeRun, some payload, some outbox⟩ t =
      .ok t') :
    (∀ days ∈ [audit, execution, nodeRun, payload, outbox], firstTimestamp ≤ now - days * 86400000000) ∧
      t'.nodeRuns = t.nodeRuns.filter
        (fun row => !isBefore (now - nodeRun * 86400000000) row.finishedAt) ∧
      t'.nodePayloads = t.nodePayloads.filter
        (fun row => !isBefore (now - payload * 86400000000) row.createdAt) := by
  simp only [forall_mem_cons] at hpositive
  obtain ⟨ha, he, hn, hp, ho, -⟩ := hpositive
  unfold purgeAgedData at h
  dsimp only at h
  rw [checkDays_of_pos ha, ok_bind, checkDays_of_pos he, ok_bind, checkDays_of_pos hn, ok_bind,
    checkDays_of_pos hp, ok_bind, checkDays_of_pos ho, ok_bind] at h
  obtain ⟨_, haudit, h⟩ := bind_eq_ok.mp h
  obtain ⟨_, hexecution, h⟩ := bind_eq_ok.mp h
  obtain ⟨_, hnodeRun, h⟩ := bind_eq_ok.mp h
  obtain ⟨_, hpayload, h⟩ := bind_eq_ok.mp h
  obtain ⟨_, houtbox, h⟩ := bind_eq_ok.mp h
  obtain ⟨hrn, rfl⟩ := ago_eq_ok.mp hnodeRun
  obtain ⟨hrp, rfl⟩ := ago_eq_ok.mp hpayload
  cases h
  refine ⟨?_, rfl, rfl⟩
  simp only [forall_mem_cons]
  exact ⟨(ago_eq_ok.mp haudit).1, (ago_eq_ok.mp hexecution).1, hrn, hrp,
    (ago_eq_ok.mp houtbox).1, nofun⟩

/-- A purge succeeds when all times are in range. -/
theorem exists_purgeAgedData (hpositive : ∀ days ∈ [audit, execution, nodeRun, payload, outbox], 0 < days)
    (hrange : ∀ days ∈ [audit, execution, nodeRun, payload, outbox],
      firstTimestamp ≤ now - days * 86400000000) :
    ∃ t', purgeAgedData now ⟨some audit, some execution, some nodeRun, some payload, some outbox⟩ t =
      .ok t' := by
  simp only [forall_mem_cons] at hpositive hrange
  obtain ⟨ha, he, hn, hp, ho, -⟩ := hpositive
  obtain ⟨hra, hre, hrn, hrp, hro, -⟩ := hrange
  unfold purgeAgedData
  rw [checkDays_of_pos ha, ok_bind, checkDays_of_pos he, ok_bind, checkDays_of_pos hn, ok_bind,
    checkDays_of_pos hp, ok_bind, checkDays_of_pos ho, ok_bind, ago_eq_ok.mpr ⟨hra, rfl⟩, ok_bind,
    ago_eq_ok.mpr ⟨hre, rfl⟩, ok_bind, ago_eq_ok.mpr ⟨hrn, rfl⟩, ok_bind, ago_eq_ok.mpr ⟨hrp, rfl⟩, ok_bind,
    ago_eq_ok.mpr ⟨hro, rfl⟩, ok_bind]
  exact ⟨_, rfl⟩

/-! ## Live executions -/

/-- What is read depends on the row of the reference alone. -/
theorem payloadsRead_congr {gcm : GCM} {codec : JsonCodec} {p : Payloads}
    {sources sources' : PayloadSources} {ref : DataRef} {dek : Bytes}
    (hget : sources.getObject = sources'.getObject)
    (hselect : ref.type = "pg" → sources.select ref.key = sources'.select ref.key) :
    payloadsRead gcm codec p sources (some ref) dek =
      payloadsRead gcm codec p sources' (some ref) dek := by
  have hbody : payloadsBody gcm codec p sources ref (p.key dek) =
      payloadsBody gcm codec p sources' ref (p.key dek) := by
    unfold payloadsBody storeGet
    rw [hget]
    by_cases hpg : ref.type = "pg"
    · rw [hselect hpg]
    · rw [if_neg hpg, if_neg hpg]
  rw [payloadsRead, payloadsRead, hbody]

/-- A row that is kept is found as before. -/
theorem payload_eq_of_kept {keep : NodePayload → Bool} {id : String}
    (hkept : ∀ row, t.payload id = some row → keep row = true)
    (hrows : t'.nodePayloads = t.nodePayloads.filter keep) : t'.payload id = t.payload id := by
  rw [Tables.payload, hrows]
  exact Lists.find?_filter_of_kept hkept

/-- A purge that fails spares everything. -/
theorem sparesLive_of_tablesAfter {settings : RetentionDays} (h : tablesAfter now settings t = t) :
    SparesLive now settings t references := by
  refine ⟨?_, ?_, ?_, ?_⟩
  · intro row hrow _
    rwa [h]
  · intro row hrow _
    rwa [h]
  · intros
    rw [h]
  · intros
    rw [h]

/-- **Live executions are spared iff their rows are young** or the purge fails: with positive
settings it fails when one of the five times is before the first one there is. -/
theorem sparesLive_iff (hpositive : ∀ days ∈ [audit, execution, nodeRun, payload, outbox], 0 < days) :
    SparesLive now ⟨some audit, some execution, some nodeRun, some payload, some outbox⟩ t references ↔
      (∃ days ∈ [audit, execution, nodeRun, payload, outbox],
        now - days * 86400000000 < firstTimestamp) ∨
        LiveRowsYoung now nodeRun payload t references := by
  by_cases hrange : ∀ days ∈ [audit, execution, nodeRun, payload, outbox],
      firstTimestamp ≤ now - days * 86400000000
  · obtain ⟨t', hpurge⟩ := exists_purgeAgedData (t := t) hpositive hrange
    obtain ⟨-, hruns, hpayloads⟩ := purgeAgedData_eq_ok hpositive hpurge
    have hafter :
        tablesAfter now ⟨some audit, some execution, some nodeRun, some payload, some outbox⟩ t =
        t' := by rw [tablesAfter, hpurge]; rfl
    constructor
    · intro h
      refine .inr ⟨?_, ?_, ?_⟩
      · intro row hrow hlive
        have hkept := h.payloads row hrow hlive
        rw [hafter, hpayloads, mem_filter, Bool.not_eq_true'] at hkept
        exact isBefore_eq_false_iff.mp hkept.2
      · intro row hrow hlive
        have hkept := h.runs row hrow hlive
        rw [hafter, hruns, mem_filter, Bool.not_eq_true'] at hkept
        exact isBefore_eq_false_iff.mp hkept.2
      · intro executionId hlive ref href hpg row hrow
        have hkept := h.referenced executionId hlive ref href hpg
        rw [hafter, hrow] at hkept
        have hmem := mem_of_find?_eq_some hkept
        rw [hpayloads, mem_filter, Bool.not_eq_true'] at hmem
        exact isBefore_eq_false_iff.mp hmem.2
    · rintro (⟨days, hdays, hlt⟩ | hyoung)
      · exact absurd (hrange days hdays) (not_le.mpr hlt)
      have hreferenced : ∀ executionId, t.Live executionId → ∀ ref, references executionId ref →
          ref.type = "pg" → t'.payload ref.key = t.payload ref.key := by
        intro executionId hlive ref href hpg
        apply payload_eq_of_kept _ hpayloads
        intro row hrow
        rw [Bool.not_eq_true']
        exact isBefore_eq_false_iff.mpr (hyoung.referenced executionId hlive ref href hpg row hrow)
      refine ⟨?_, ?_, ?_, ?_⟩
      · intro row hrow hlive
        rw [hafter, hpayloads, mem_filter, Bool.not_eq_true']
        exact ⟨hrow, isBefore_eq_false_iff.mpr (hyoung.payloads row hrow hlive)⟩
      · intro row hrow hlive
        rw [hafter, hruns, mem_filter, Bool.not_eq_true']
        exact ⟨hrow, isBefore_eq_false_iff.mpr (hyoung.runs row hrow hlive)⟩
      · intro executionId hlive ref href hpg
        rw [hafter]
        exact hreferenced executionId hlive ref href hpg
      · intro executionId hlive ref href gcm codec p getObject dek
        refine payloadsRead_congr (by rfl) ?_
        intro hpg
        rw [hafter]
        show t'.select ref.key = t.select ref.key
        unfold Tables.select
        rw [hreferenced executionId hlive ref href hpg]
  · have hafter :
        tablesAfter now ⟨some audit, some execution, some nodeRun, some payload, some outbox⟩ t =
        t := by
      rw [tablesAfter]
      cases hpurge :
          purgeAgedData now ⟨some audit, some execution, some nodeRun, some payload, some outbox⟩ t with
      | error _ => rfl
      | ok t' => exact absurd (purgeAgedData_eq_ok hpositive hpurge).1 hrange
    push Not at hrange
    exact iff_of_true (sparesLive_of_tablesAfter hafter) (.inl hrange)

end purge

/-! ## A paused execution -/

/-- An execution that is paused for a month, with a payload it has not read yet. -/
def pausedTables : Tables where
  auditLog := []
  executions := [⟨"run", "paused", none, none⟩]
  nodeRuns := []
  nodePayloads := [⟨"payload", "run", "source", ⟨textBytes "[]", false, none⟩, some 0⟩]
  openlineageOutbox := []
  pipelineEventOutbox := []
  pipelineAlertNotificationOutbox := []
  assetMaterializations := []
  dataQualityResults := []
  pipelineAlerts := []

/-- The execution references this payload, or one that its trigger has left. -/
def pausedReferences : References :=
  fun executionId ref => executionId = "run" ∧ ref.key ∈ ["payload", "trigger"]

theorem live_pausedTables : pausedTables.Live "run" :=
  ⟨_, mem_singleton_self _, rfl, by decide⟩

theorem sparesLive_iff_paused :
    SparesLive 129600000000 ⟨some 90, some 90, some 90, some 30, some 30⟩ pausedTables
        pausedReferences ↔
      (∃ days ∈ [90, 90, 90, 30, 30], 129600000000 - days * 86400000000 < firstTimestamp) ∨
        LiveRowsYoung 129600000000 90 30 pausedTables pausedReferences :=
  sparesLive_iff (by decide)

/-- **A payload of a paused execution is deleted** after 31 days. -/
theorem paused_payload_deleted :
    ¬ SparesLive 2678400000000 ⟨some 90, some 90, some 90, some 30, some 30⟩ pausedTables
      pausedReferences := by
  intro h
  have hkept := h.payloads _ (mem_singleton_self _) live_pausedTables
  have hafter : (tablesAfter 2678400000000 ⟨some 90, some 90, some 90, some 30, some 30⟩
      pausedTables).nodePayloads = [] := by decide
  rw [hafter] at hkept
  exact not_mem_nil hkept

/-- **The payload of its trigger is deleted** as well, which is the row of no execution. -/
theorem webhook_payload_deleted :
    ¬ SparesLive 2678400000000 ⟨some 90, some 90, some 90, some 30, some 30⟩
      { pausedTables with
        nodePayloads := [⟨"trigger", "webhook", "trigger", ⟨textBytes "[]", false, none⟩, some 0⟩] }
      pausedReferences := by
  intro h
  have hkept := h.referenced "run" ⟨_, mem_singleton_self _, rfl, by decide⟩
    { type := "pg", key := "trigger" } ⟨rfl, by decide⟩ rfl
  exact absurd (congrArg Option.isSome hkept) (by decide)

end Dataflow.Api.Retention
