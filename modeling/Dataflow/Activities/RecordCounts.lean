import Dataflow.Activities.MergeRefs

/-!
# The record count of a source

Every attempt at a page of a source, and every attempt at the merge of the pages, writes to the row
of the source in `node_runs`. A write adds its count to that of the row, unless the row says that
the attempt before has failed.

* `NodeRun`, `recordNodeRun`, `rowOf`: the row, and what a write does to it.
* `sinceReset`: the writes that the row counts; `recordedCount_eq` says so.
* `fetchSourcePage`: the activity, and `Can`: the replies that activities give.
* `Log`, `Attempted`, `Late`: the attempts of a call: some are lost, and some write late.
* `Finishes`, `finishes_readPages`: what a source that succeeds has as its output, and the write
  for it.
* `record_count_iff`: **main result**: the count is that of the output when the write for it counts
  and no other does, and, where the write for it counts, only then.
* `pages_counted_twice`: two pages of one record each.

Source: `activities.go` `FetchSourcePage`, `MergeRefs`, `recordNodeRun`, `dynamic_dag.go`
`runSource`
-/

namespace Dataflow.Activities.RecordCounts

open Connectors Library Library.Base64 Model List Option
  Dataflow.Workflows

/-! ## The row -/

/-- A row of `node_runs`, without the text of its error. Times are in milliseconds. -/
structure NodeRun where
  status : String
  durationMs : ℤ
  recordCount : Option ℕ
  startedAt : Option ℤ
  attempt : ℕ
  deriving DecidableEq

/-- A write to the row: what `recordNodeRun` is called with, the start of the activity, and the time
of the statement. -/
structure NodeWrite where
  run : RecordedRun
  startedAt : ℤ
  now : ℤ

/-- Source: `activities.go` `nullableCount`. -/
def nullableCount (value : ℕ) : Option ℕ := if value = 0 then none else some value

/-- The statement of `recordNodeRun`, with the row that it finds.
Source: `activities.go` `recordNodeRun`. -/
def recordNodeRun (write : NodeWrite) : Option NodeRun → NodeRun
  | none =>
    { status := write.run.status, durationMs := write.run.durationMs
      recordCount := nullableCount write.run.count, startedAt := some write.startedAt, attempt := 1 }
  | some row =>
    let reset := row.status = "failed"
    { status := write.run.status
      durationMs :=
        if reset then write.run.durationMs
        else max write.run.durationMs (write.now - row.startedAt.getD write.startedAt)
      recordCount :=
        if reset then nullableCount write.run.count
        else nullableCount (row.recordCount.getD 0 + (nullableCount write.run.count).getD 0)
      startedAt := if reset then some write.startedAt else some (row.startedAt.getD write.startedAt)
      attempt := row.attempt + if reset then 1 else 0 }

/-- The row after some writes. -/
def rowOf (writes : List NodeWrite) : Option NodeRun :=
  writes.foldl (fun row write => some (recordNodeRun write row)) none

/-- `record_count`, where `NULL` stands for none. -/
def recordedCount (writes : List NodeWrite) : ℕ := ((rowOf writes).bind (·.recordCount)).getD 0

/-- The write does not report a failure. -/
def NodeWrite.succeeded (write : NodeWrite) : Bool := write.run.status ≠ "failed"

/-- The writes since the row was last reset: a write resets it that follows a failure. -/
def sinceReset (writes : List NodeWrite) : List NodeWrite :=
  writes.dropLast.rtakeWhile NodeWrite.succeeded ++ writes.getLast?.toList

/-- The sum of the counts. -/
def totalCount (writes : List NodeWrite) : ℕ := (writes.map (·.run.count)).sum

section row

variable {write : NodeWrite} {writes : List NodeWrite}

@[simp] theorem getD_nullableCount (value : ℕ) : (nullableCount value).getD 0 = value := by
  unfold nullableCount
  split_ifs with h
  · exact h.symm
  · rfl

@[simp] theorem totalCount_nil : totalCount [] = 0 := rfl

@[simp] theorem totalCount_append (first second : List NodeWrite) :
    totalCount (first ++ second) = totalCount first + totalCount second := by
  simp [totalCount]

@[simp] theorem totalCount_cons (write : NodeWrite) :
    totalCount (write :: writes) = write.run.count + totalCount writes := by
  simp [totalCount]

theorem totalCount_eq_zero_iff : totalCount writes = 0 ↔ ∀ write ∈ writes, write.run.count = 0 := by
  simp [totalCount, List.sum_eq_zero_iff_forall_eq_nat]

variable (writes : List NodeWrite)

theorem rowOf_concat (write : NodeWrite) :
    rowOf (writes ++ [write]) = some (recordNodeRun write (rowOf writes)) := by
  simp [rowOf]

theorem sinceReset_concat (write : NodeWrite) :
    sinceReset (writes ++ [write]) = writes.rtakeWhile NodeWrite.succeeded ++ [write] := by
  simp [sinceReset]

theorem status_recordNodeRun (write : NodeWrite) (row : Option NodeRun) :
    (recordNodeRun write row).status = write.run.status := by
  cases row with
  | none | some row => rfl

/-- A write to a row. -/
theorem recordCount_recordNodeRun (write : NodeWrite) (row : NodeRun) :
    ((recordNodeRun write (some row)).recordCount).getD 0 =
      if row.status = "failed" then write.run.count
      else row.recordCount.getD 0 + write.run.count := by
  unfold recordNodeRun
  dsimp only
  split_ifs with hreset
  · exact getD_nullableCount _
  · rw [getD_nullableCount, getD_nullableCount]

/-- **The row counts the writes since it was last reset.** -/
theorem recordedCount_eq : recordedCount writes = totalCount (sinceReset writes) := by
  induction writes using reverseRecOn with
  | nil => rfl
  | append_singleton writes write ih =>
    rw [sinceReset_concat]
    rcases eq_nil_or_concat writes with rfl | ⟨earlier, last, rfl⟩
    · simp [recordedCount, rowOf, recordNodeRun]
    · rw [concat_eq_append] at ih ⊢
      have hrow := rowOf_concat earlier last
      have hcount : recordedCount (earlier ++ [last] ++ [write]) =
          if last.run.status = "failed" then write.run.count
          else recordedCount (earlier ++ [last]) + write.run.count := by
        unfold recordedCount
        rw [rowOf_concat, hrow, bind_some, recordCount_recordNodeRun, status_recordNodeRun,
          bind_some]
      rw [hcount]
      by_cases hfailed : last.run.status = "failed"
      · rw [if_pos hfailed, rtakeWhile_concat_neg _ _ _ (by simp [NodeWrite.succeeded, hfailed])]
        simp
      · rw [if_neg hfailed,
          rtakeWhile_concat_pos _ _ _ (by simp [NodeWrite.succeeded, hfailed]), ih,
          sinceReset_concat]
        simp [add_assoc]

end row

/-! ## The activities -/

/-- What a source gives. Source: `runtime.go` `SourceResult`. -/
structure FetchedRecords where
  records : List Json
  nextCursor : JsonMap := []
  hasMore : Bool := false

/-- What `FetchSourcePage` is given besides its parameters: the two checks, the source, the data key
of the execution, the replies to its write, and how long it takes. -/
structure FetchContext where
  entitled : Except String Unit
  owned : Except String Unit
  fetch : (cursor : JsonMap) → Except String FetchedRecords
  dek : Except String Bytes
  replies : WriteReplies
  durationMs : ℕ

/-- What the activities are configured with, and their libraries. -/
structure ActivityEnv where
  gcm : GCM
  codec : JsonCodec
  rendering : Rendering
  payloads : Payloads
  maxMergeInMemoryBytes : ℤ

section activities

variable (env : ActivityEnv) (state : ConnectorState) (context : FetchContext)
  (p : FetchSourceParams)

/-- The row of a page. -/
def pageRun (status : String) (count : ℕ) (errorText : String) : RecordedRun :=
  ⟨p.executionId, p.nodeId, p.tenantId, status, context.durationMs, count, errorText⟩

/-- Source: `activities.go` `FetchSourcePage`; an empty cursor is left out of the result. -/
def fetchSourcePage : Option RecordedRun × Except String SourcePage :=
  match context.entitled, context.owned with
  | .error err, _ | .ok (), .error err => (none, .error err)
  | .ok (), .ok () =>
    match context.fetch (fetchCursor state p) with
    | .error err => (some (pageRun context p "failed" 0 err), .error err)
    | .ok fetched =>
      match context.dek >>= fun dek => payloadsWrite env.gcm env.codec env.payloads
          context.replies (.array fetched.records) p.tenantId dek with
      | .error err => (none, .error err)
      | .ok (ref, _) => (some (pageRun context p "success" fetched.records.length ""),
          .ok { outputRef := some ref, hasMore := fetched.hasMore
                recordCount := fetched.records.length
                checkpoint := if fetched.nextCursor = [] then none else some fetched.nextCursor })

end activities

/-- **The replies that activities give**, with the row that they are about to write. A source calls
no other activities. -/
def Can (env : ActivityEnv) : (call : NodeCall) → Option RecordedRun → NodeReply call → Prop
  | .fetchSourcePage p, record, reply =>
    ∃ state context, fetchSourcePage env state context p = (record, reply)
  | .mergeRefs p, record, reply => ∃ context run result,
      mergeRefs env.gcm env.codec env.rendering env.payloads env.maxMergeInMemoryBytes context p =
        (run, result) ∧ record = some run ∧ reply = result.map (·.1)
  | .evalEdgeCondition _, _, _ | .dispatchNode _, _, _ => False

/-- The reply that reports an error. -/
def replyError (err : String) : (call : NodeCall) → NodeReply call
  | .fetchSourcePage _ | .mergeRefs _ | .evalEdgeCondition _ | .dispatchNode _ => .error err

variable {ref : DataRef}

variable {page : SourcePage}

section can

variable {env : ActivityEnv}

/-- A written array has its number of records in the reference. -/
theorem recordCount_of_payloadsWrite {replies : WriteReplies} {records : List Json}
    {tenantId : String} {dek : Bytes} {effect : PayloadEffect}
    (h : payloadsWrite env.gcm env.codec env.payloads replies (.array records) tenantId dek =
      .ok (ref, effect)) : ref.recordCount = records.length := by
  obtain ⟨ref', -, rfl⟩ := payloadsWrite_array_eq_ok.mp h
  rfl

/-- The output of a merge has its number of records in the reference. -/
theorem recordCount_of_mergeInputs {context : MergeContext} {p : MergeParams}
    {effect : PayloadEffect} {count : ℕ}
    (h : mergeInputs env.gcm env.codec env.rendering env.payloads env.maxMergeInMemoryBytes context p =
      .ok (ref, effect, count)) : ref.recordCount = count := by
  unfold mergeInputs at h
  obtain ⟨dek, -, h⟩ := bind_eq_ok.mp h
  dsimp only at h
  generalize (if p.strategy = "" then "concat" else p.strategy) = strategy at h
  split_ifs at h with hrefused hoversized
  · obtain ⟨⟨ref', effect', count'⟩, -, h⟩ := bind_eq_ok.mp h
    cases h
    rfl
  · obtain ⟨arrays, -, h⟩ := bind_eq_ok.mp h
    obtain ⟨merged, -, h⟩ := bind_eq_ok.mp h
    obtain ⟨⟨ref', effect'⟩, hwrite, h⟩ := bind_eq_ok.mp h
    cases h
    exact recordCount_of_payloadsWrite hwrite

/-- **A page**: its output has as many records as its write counts. -/
theorem can_fetchSourcePage {p : FetchSourceParams} {record : Option RecordedRun}
    (h : Can env (.fetchSourcePage p) record (.ok page)) :
    ∃ run ref, record = some run ∧
      page.outputRef = some ref ∧ run.status = "success" ∧ ref.recordCount = run.count := by
  obtain ⟨state, context, heq⟩ := h
  unfold fetchSourcePage at heq
  split at heq
  · cases heq
  · cases heq
  · split at heq
    · cases heq
    · split at heq
      · cases heq
      · rename_i hwrite
        obtain ⟨dek, -, hwrite⟩ := bind_eq_ok.mp hwrite
        cases heq
        exact ⟨_, _, rfl, rfl, rfl, recordCount_of_payloadsWrite hwrite⟩

/-- **A merge**: its output has as many records as its write counts. -/
theorem can_mergeRefs {p : MergeParams} {record : Option RecordedRun} {result : NodeResult}
    (h : Can env (.mergeRefs p) record (.ok result)) : ∃ run ref, record = some run ∧
      result.outputRef = some ref ∧ run.status = "success" ∧ ref.recordCount = run.count := by
  obtain ⟨context, run, merged, heq, rfl, hresult⟩ := h
  unfold mergeRefs at heq
  split at heq
  · cases heq
    cases hresult
  · rename_i ref effect count hinputs
    cases heq
    cases hresult
    exact ⟨_, ref, rfl, rfl, rfl, recordCount_of_mergeInputs hinputs⟩

end can

/-! ## Attempts -/

/-- The writes to the row, in their order: those up to the last reply that the workflow has taken,
the one of the attempt that has given this reply, if it has taken effect, and those after it.
`pending` are the runs that attempts are still about to write. -/
structure Log where
  before : List NodeWrite := []
  closing : Option NodeWrite := none
  after : List NodeWrite := []
  pending : List RecordedRun := []

namespace Log

variable (log : Log)

/-- All writes. -/
def writes : List NodeWrite := log.before ++ log.closing.toList ++ log.after

/-- A write of an attempt whose reply is not taken. -/
def note (write : Option NodeWrite) : Log := { log with after := log.after ++ write.toList }

/-- A reply is taken. -/
def take (write : Option NodeWrite) : Log :=
  { log with before := log.writes, closing := write, after := [] }

/-- An attempt goes on that the workflow has given up. -/
def wait (run : RecordedRun) : Log := { log with pending := log.pending ++ [run] }

end Log

/-- A write takes effect, or fails; nobody looks at its error. -/
inductive Lands : Option RecordedRun → Option NodeWrite → Prop
  | fails (record : Option RecordedRun) : Lands record none
  | lands (run : RecordedRun) (startedAt now : ℤ) : Lands (some run) (some ⟨run, startedAt, now⟩)

/-- Attempts that the workflow has given up write late. -/
inductive Late : Log → Log → Prop
  | none (log : Log) : Late log log
  | writes {log log' : Log} {run : RecordedRun} (hrun : run ∈ log.pending) (startedAt now : ℤ)
      (rest : Late (log.note (some ⟨run, startedAt, now⟩)) log') : Late log log'

/-- **The attempts of a call**, up to the reply that the workflow takes: the reply of an attempt is
taken, or is lost, or an error that is retried; an attempt that is given up may write late, also
during later ones; or the workflow gives the call up. -/
inductive Attempted (env : ActivityEnv) (call : NodeCall) : Log → NodeReply call → Log → Prop
  | taken {log : Log} {record : Option RecordedRun} {reply : NodeReply call} {write : Option NodeWrite}
      (hcan : Can env call record reply) (hlands : Lands record write) :
      Attempted env call log reply (log.take write)
  | again {log log' : Log} {record : Option RecordedRun} {lost reply : NodeReply call}
      {write : Option NodeWrite} (hcan : Can env call record lost) (hlands : Lands record write)
      (rest : Attempted env call (log.note write) reply log') : Attempted env call log reply log'
  | slow {log log' : Log} {run : RecordedRun} {lost reply : NodeReply call}
      (hcan : Can env call (some run) lost) (rest : Attempted env call (log.wait run) reply log') :
      Attempted env call log reply log'
  | late {log log' log'' : Log} {reply : NodeReply call} (hlate : Late log log')
      (rest : Attempted env call log' reply log'') : Attempted env call log reply log''
  | gaveUp (log : Log) (err : String) : Attempted env call log (replyError err call) log

/-- The closing write is a success with the number of records of the output. -/
def Log.Closes (log : Log) (ref : DataRef) : Prop :=
  ∀ write ∈ log.closing, write.run.status = "success" ∧ ref.recordCount = write.run.count

section attempts

variable {env : ActivityEnv} {log log' : Log} {ref : DataRef}

theorem Log.Closes.late (h : log.Closes ref) (hlate : Late log log') : log'.Closes ref := by
  induction hlate with
  | none log => exact h
  | writes hrun startedAt now rest ih => exact ih h

/-- The write of a run. -/
theorem closes_take {run : RecordedRun} {write : Option NodeWrite} (hlands : Lands (some run) write)
    (hstatus : run.status = "success") (hcount : ref.recordCount = run.count) :
    (log.take write).Closes ref := by
  intro other hother
  cases hlands with
  | fails => cases hother
  | lands _ startedAt now =>
    cases hother
    exact ⟨hstatus, hcount⟩

/-- **The reply that the workflow takes** is that of an attempt, or an error. -/
theorem Attempted.reply {call : NodeCall} {reply : NodeReply call}
    (h : Attempted env call log reply log') : (∃ err, reply = replyError err call) ∨
      ∃ earlier record write, Can env call record reply ∧ Lands record write ∧
        log' = Log.take earlier write := by
  induction h with
  | taken hcan hlands => exact .inr ⟨_, _, _, hcan, hlands, rfl⟩
  | again hcan hlands rest ih | slow hcan rest ih | late hlate rest ih => exact ih
  | gaveUp log err => exact .inl ⟨err, rfl⟩

/-- **A page that the workflow takes.** -/
theorem closes_of_page {p : FetchSourceParams}
    (h : Attempted env (.fetchSourcePage p) log (.ok page) log') :
    ∃ ref, page.outputRef = some ref ∧ log'.Closes ref := by
  rcases h.reply with ⟨err, herr⟩ | ⟨earlier, record, write, hcan, hlands, rfl⟩
  · cases herr
  · obtain ⟨run, ref, rfl, href, hstatus, hcount⟩ := can_fetchSourcePage hcan
    exact ⟨ref, href, closes_take hlands hstatus hcount⟩

/-- **A merge that the workflow takes.** -/
theorem closes_of_merge {p : MergeParams} {result : NodeResult}
    (h : Attempted env (.mergeRefs p) log (.ok result) log') :
    ∃ ref, result.outputRef = some ref ∧ log'.Closes ref := by
  rcases h.reply with ⟨err, herr⟩ | ⟨earlier, record, write, hcan, hlands, rfl⟩
  · cases herr
  · obtain ⟨run, ref, rfl, href, hstatus, hcount⟩ := can_mergeRefs hcan
    exact ⟨ref, href, closes_take hlands hstatus hcount⟩

end attempts

/-! ## The source -/

section source

variable {env : ActivityEnv} {input : WorkflowInput} {node : Node} {log log' : Log}
  {progress : SourceProgress} {result : NodeResult}

/-- **What a source that succeeds has as its output**, and the write for it. -/
def Finishes (env : ActivityEnv) (c : NodeCoroutine) (log : Log) : Prop :=
  ∀ result log', Coroutine.RunsIn (fun log call reply log' => Attempted env call log reply log') c log
    result log' → result.status = .success → ∃ ref, result.outputRef = some ref ∧ log'.Closes ref

/-- A result that is known. -/
theorem finishes_done (hresult : result.status = .success →
    ∃ ref, result.outputRef = some ref ∧ log.Closes ref) : Finishes env (.done result) log := by
  intro result' log' hruns hsuccess
  obtain ⟨rfl, rfl⟩ := Coroutine.runsIn_done.mp hruns
  exact hresult hsuccess

theorem finishes_failed (err : String) : Finishes env (.done (failed node.id err)) log :=
  finishes_done fun h => absurd h (by simp [failed])

/-- After the last page. -/
theorem finishes_finishSource (hlast : ∃ refs, progress.refs = refs ++ [ref])
    (hcloses : log.Closes ref) : Finishes env (finishSource input node progress) log := by
  unfold finishSource
  rcases hrefs : progress.refs with _ | ⟨first, _ | ⟨second, refs⟩⟩
  · simp [hrefs] at hlast
  · obtain ⟨refs, heq⟩ := hlast
    rw [hrefs] at heq
    obtain rfl : first = ref := by
      have hlast := congrArg List.getLast? heq
      simpa using hlast
    exact finishes_done fun _ => ⟨first, rfl, hcloses⟩
  · intro result log' hruns hsuccess
    obtain ⟨reply, s, log'', hattempted, hrest⟩ := Coroutine.runsIn_await.mp hruns
    cases reply with
    | error err => exact finishes_failed err result log' hrest hsuccess
    | ok merged =>
      obtain ⟨ref, href, hmerged⟩ := closes_of_merge hattempted
      have hdone :
          Finishes env (.done (sourceSuccess input node progress merged.outputRef)) log'' :=
        finishes_done fun _ => ⟨ref, href, hmerged⟩
      exact hdone result log' hrest hsuccess

/-- After a page. -/
theorem finishes_afterPage {more : SourceProgress → NodeCoroutine}
    (href : page.outputRef = some ref) (hcloses : log.Closes ref)
    (hmore : ∀ progress, Finishes env (more progress) log) :
    Finishes env (afterPage input node progress more (.ok page)) log := by
  unfold afterPage
  dsimp only
  split_ifs with hasMore
  · exact hmore _
  · exact finishes_finishSource ⟨progress.refs, by simp [SourceProgress.add, href]⟩ hcloses

/-- A page is read, and then the others. -/
theorem finishes_await {more : SourceProgress → NodeCoroutine}
    (hmore : ∀ progress log, Finishes env (more progress) log) :
    Finishes env (.await (.fetchSourcePage (fetchParams input node progress)) fun reply _ =>
      afterPage input node progress more reply) log := by
  intro result log' hruns hsuccess
  obtain ⟨reply, s, log'', hattempted, hrest⟩ := Coroutine.runsIn_await.mp hruns
  cases reply with
  | error err => exact finishes_failed err result log' hrest hsuccess
  | ok page =>
    obtain ⟨ref, href, hcloses⟩ := closes_of_page hattempted
    exact finishes_afterPage href hcloses (fun progress => hmore progress log'') result log' hrest
      hsuccess

/-- **The page loop.** -/
theorem finishes_readPages (pagesLeft : ℕ) :
    Finishes env (readPages input node pagesLeft progress) log := by
  induction pagesLeft generalizing progress log with
  | zero => exact finishes_await fun _ _ => finishes_failed tooManyPages
  | succ pagesLeft ih => exact finishes_await fun _ _ => ih

/-! ## The count -/

/-- The writes that the row counts besides the closing one. -/
def Log.others (log : Log) : List NodeWrite :=
  log.before.rtakeWhile NodeWrite.succeeded ++ log.after

/-- The closing write has taken effect, and the row has not been reset since. -/
def Log.Counted (log : Log) : Prop :=
  log.closing ≠ none ∧ ∀ write ∈ log.after.dropLast, write.succeeded

/-- **The condition**: the closing write counts, and the others that count are of no records. -/
structure Log.Clean (log : Log) : Prop where
  counted : log.Counted
  others : ∀ write ∈ log.others, write.run.count = 0

/-- What is counted with the closing write. -/
theorem sinceReset_of_counted {closing : NodeWrite} (hclosing : log.closing = some closing)
    (hsuccess : closing.succeeded) (h : log.Counted) :
    totalCount (sinceReset log.writes) = closing.run.count + totalCount log.others := by
  unfold Log.writes Log.others
  rw [hclosing, toList_some]
  rcases eq_nil_or_concat log.after with hnil | ⟨after, last, hlast⟩
  · rw [hnil, append_nil, append_nil, sinceReset_concat]
    simp [add_comm]
  · rw [concat_eq_append] at hlast
    have hafter : ∀ write ∈ closing :: after, write.succeeded := by
      intro write hwrite
      rcases mem_cons.mp hwrite with rfl | hwrite
      · exact hsuccess
      · exact h.2 write (by simpa [hlast] using hwrite)
    rw [hlast, ← append_assoc, sinceReset_concat, append_assoc, singleton_append,
      Lists.rtakeWhile_append hafter]
    simp only [totalCount_append, totalCount_cons, totalCount_nil]
    omega

/-- **Where the closing write counts**, the row counts the output exactly under the condition. -/
theorem count_eq_iff (hcloses : log.Closes ref) (hcounted : log.Counted) :
    (recordedCount log.writes : ℤ) = ref.recordCount ↔ log.Clean := by
  obtain ⟨closing, hclosing⟩ := ne_none_iff_exists'.mp hcounted.1
  obtain ⟨hstatus, hcount⟩ := hcloses closing hclosing
  have hsuccess : closing.succeeded := by simp [NodeWrite.succeeded, hstatus]
  rw [recordedCount_eq, sinceReset_of_counted hclosing hsuccess hcounted, hcount]
  have hothers : ((closing.run.count + totalCount log.others : ℕ) : ℤ) = closing.run.count ↔
      totalCount log.others = 0 := by omega
  rw [hothers, totalCount_eq_zero_iff]
  constructor
  · intro hnone
    exact ⟨hcounted, hnone⟩
  · intro hclean
    exact hclean.others

/-- **The record count of a source is exact** if the write of the attempt that has given the output
counts and no other write does. Where this write counts, the count is exact only then; where it does
not, what other attempts have written stands in the row. -/
theorem record_count_iff (env : ActivityEnv) (input : WorkflowInput) (node : Node)
    {result : NodeResult} {log log' : Log} (hruns : Coroutine.RunsIn
      (fun log call reply log' => Attempted env call log reply log') (runSource input node) {} result log)
    (hsuccess : result.status = .success) (hlate : Late log log') :
    ∃ ref, result.outputRef = some ref ∧
      (log'.Clean → (recordedCount log'.writes : ℤ) = ref.recordCount) ∧
      (log'.Counted → ((recordedCount log'.writes : ℤ) = ref.recordCount ↔ log'.Clean)) := by
  obtain ⟨ref, href, hcloses⟩ := finishes_readPages (maxSourcePages - 1) result log hruns hsuccess
  have hclosed := hcloses.late hlate
  refine ⟨ref, href, ?_, count_eq_iff hclosed⟩
  intro hclean
  exact (count_eq_iff hclosed hclean.counted).mpr hclean

/-! ## Two pages -/

/-- Payloads stay in their references. -/
noncomputable def inlineEnv : ActivityEnv :=
  ⟨tagGCM, marshalledCodec, textRendering, ⟨none, [], 100⟩, 100⟩

/-- A page with one row is fetched. -/
def rowFetch (hasMore : Bool) (nextCursor : JsonMap) : FetchContext where
  entitled := .ok ()
  owned := .ok ()
  fetch _ := .ok ⟨[.string "row"], nextCursor, hasMore⟩
  dek := .ok []
  replies := rowContext.replies
  durationMs := 0

/-- The page with one row. -/
def rowPage (hasMore : Bool) (nextCursor : JsonMap) : SourcePage where
  outputRef := some rowRef
  hasMore := hasMore
  recordCount := 1
  checkpoint := if nextCursor = [] then none else some nextCursor

/-- The write of an array with one text. -/
theorem payloadsWrite_row : payloadsWrite tagGCM marshalledCodec ⟨none, [], 100⟩ rowContext.replies
    (.array [.string "row"]) "t" [] = .ok (rowRef, .inline) := by
  have hkey :
      stdEncoding.encodeToString (textBytes (marshal quotientTexts (.array [.string "row"]))) =
      "WyJyb3ciXQ==" := by decide +kernel
  rw [rowRef, ← hkey]
  rfl

/-- A run of a source with the id `source`. -/
def rowsInput : WorkflowInput where
  tenantId := "t"
  executionId := "run"

/-- Its only node. -/
def rowsNode : Node where
  id := "source"
  type := .source

/-- The page is what the activity gives. -/
theorem can_rowPage (hasMore : Bool) (nextCursor : JsonMap) (progress : SourceProgress) :
    Can inlineEnv (.fetchSourcePage (fetchParams rowsInput rowsNode progress))
      (some ⟨"run", "source", "t", "success", 0, 1, ""⟩) (.ok (rowPage hasMore nextCursor)) := by
  refine ⟨fun _ _ => none, rowFetch hasMore nextCursor, ?_⟩
  have hwrite : payloadsWrite inlineEnv.gcm inlineEnv.codec inlineEnv.payloads
      (rowFetch hasMore nextCursor).replies (.array [.string "row"])
      (fetchParams rowsInput rowsNode progress).tenantId [] = .ok (rowRef, .inline) := payloadsWrite_row
  unfold fetchSourcePage
  simp only [rowFetch, ok_bind] at hwrite ⊢
  rw [hwrite]
  rfl

/-- The merge of the two pages. -/
theorem can_rowsMerge {progress : SourceProgress} (hrefs : progress.refs = [rowRef, rowRef]) :
    ∃ merged, Can inlineEnv (.mergeRefs (mergePagesParams rowsInput rowsNode progress))
      (some ⟨"run", "source", "t", "success", 0, 2, ""⟩) (.ok merged) := by
  have hstored : Forall₂ (StoredArray tagGCM marshalledCodec ⟨none, [], 100⟩ rowContext [])
      (mergePagesParams rowsInput rowsNode progress).inputRefs [[.string "row"], [.string "row"]] := by
    rw [mergePagesParams, hrefs]
    exact .cons storedArray_rowRef (.cons storedArray_rowRef .nil)
  have hsize : encodedSize marshalledCodec (.array [.string "row", .string "row"]) = 13 := by rfl
  obtain ⟨ref, hwrite⟩ : ∃ ref, payloadsWrite tagGCM marshalledCodec ⟨none, [], 100⟩ rowContext.replies
      (.array [.string "row", .string "row"]) "t" [] = .ok (ref, .inline) := ⟨_, rfl⟩
  have hmerge : mergeInputs tagGCM marshalledCodec textRendering ⟨none, [], 100⟩ 100 rowContext
      (mergePagesParams rowsInput rowsNode progress) = .ok (ref, .inline, 2) := by
    refine (mergeInputs_eq_ok (by decide) (.inr rfl) rfl ?_ hstored).mpr ⟨?_, hwrite, rfl⟩
    · simp [mergePagesParams, hrefs]
    · show (encodedSize marshalledCodec (.array [.string "row", .string "row"]) : ℤ) ≤ 100
      rw [hsize]
      decide
  refine ⟨mergeResult rowContext (mergePagesParams rowsInput rowsNode progress) ref 2, rowContext, _,
    .ok (_, .inline), ?_, rfl, rfl⟩
  show mergeRefs tagGCM marshalledCodec textRendering ⟨none, [], 100⟩ 100 rowContext
    (mergePagesParams rowsInput rowsNode progress) = _
  rw [mergeRefs, hmerge]
  rfl

/-- A write of `count` records. -/
def rowsWrite (count : ℕ) : NodeWrite := ⟨⟨"run", "source", "t", "success", 0, count, ""⟩, 0, 0⟩

/-- **One page**: the row counts what the source gives. -/
theorem record_count_iff_one_page : ∃ (result : NodeResult) (log : Log) (ref : DataRef),
    recordedCount log.writes = 1 ∧ result.outputRef = some ref ∧ log.Clean ∧
      (recordedCount log.writes : ℤ) = ref.recordCount := by
  have hpage : Attempted inlineEnv (.fetchSourcePage (fetchParams rowsInput rowsNode {})) {}
      (.ok (rowPage false [])) (Log.take {} (some (rowsWrite 1))) :=
    .taken (can_rowPage false [] {}) (.lands _ 0 0)
  have hruns : Coroutine.RunsIn (fun log call reply log' => Attempted inlineEnv call log reply log')
      (runSource rowsInput rowsNode) {}
      (sourceSuccess rowsInput rowsNode (SourceProgress.add {} (rowPage false [])) (some rowRef))
      (Log.take {} (some (rowsWrite 1))) := by
    refine .await ∅ hpage ?_
    exact .done _ _
  have hclean : (Log.take {} (some (rowsWrite 1))).Clean := by
    constructor
    · refine ⟨Option.some_ne_none _, ?_⟩
      intro write hwrite
      exact absurd hwrite not_mem_nil
    · intro write hwrite
      exact absurd hwrite not_mem_nil
  obtain ⟨ref, href, hexact, -⟩ := record_count_iff inlineEnv rowsInput rowsNode hruns rfl (.none _)
  exact ⟨_, _, ref, rfl, href, hclean, hexact hclean⟩

/-- **Two pages of one record each are counted twice**: page by page, and once more by the merge. -/
theorem pages_counted_twice : ¬ ∀ (env : ActivityEnv) (input : WorkflowInput) (node : Node)
    (result : NodeResult) (log : Log),
    Coroutine.RunsIn (fun log call reply log' => Attempted env call log reply log')
      (runSource input node) {} result log → result.status = .success →
    ∀ ref, result.outputRef = some ref → (recordedCount log.writes : ℤ) = ref.recordCount := by
  intro h
  let first : SourceProgress := SourceProgress.add {} (rowPage true [("page", .number 2)])
  let second : SourceProgress := first.add (rowPage false [])
  obtain ⟨merged, hmerged⟩ := @can_rowsMerge second rfl
  have hfirst : Attempted inlineEnv (.fetchSourcePage (fetchParams rowsInput rowsNode {})) {}
      (.ok (rowPage true [("page", .number 2)])) (Log.take {} (some (rowsWrite 1))) :=
    .taken (can_rowPage true _ {}) (.lands _ 0 0)
  have hsecond : Attempted inlineEnv (.fetchSourcePage (fetchParams rowsInput rowsNode first))
      (Log.take {} (some (rowsWrite 1))) (.ok (rowPage false []))
      (Log.take (Log.take {} (some (rowsWrite 1))) (some (rowsWrite 1))) :=
    .taken (can_rowPage false [] first) (.lands _ 0 0)
  have hmerge : Attempted inlineEnv (.mergeRefs (mergePagesParams rowsInput rowsNode second))
      (Log.take (Log.take {} (some (rowsWrite 1))) (some (rowsWrite 1))) (.ok merged)
      (Log.take (Log.take (Log.take {} (some (rowsWrite 1))) (some (rowsWrite 1)))
        (some (rowsWrite 2))) := .taken hmerged (.lands _ 0 0)
  obtain ⟨ref, href, hcloses⟩ := closes_of_merge hmerge
  have hruns : Coroutine.RunsIn (fun log call reply log' => Attempted inlineEnv call log reply log')
      (runSource rowsInput rowsNode) {} (sourceSuccess rowsInput rowsNode second merged.outputRef) _ :=
    .await ∅ hfirst (.await ∅ hsecond (.await ∅ hmerge (.done _ _)))
  have hcount := h inlineEnv rowsInput rowsNode _ _ hruns rfl ref href
  have hproduced : ref.recordCount = 2 := (hcloses (rowsWrite 2) rfl).2
  rw [hproduced] at hcount
  exact absurd hcount (by decide)

end source

end Dataflow.Activities.RecordCounts
