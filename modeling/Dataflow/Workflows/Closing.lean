import Dataflow.Workflows.DynamicDag

/-!
# Closing: what a run writes at its end

After its loops a run commits the cursors and dedupe checkpoints of its results, if it has
completed, and marks the execution. Everything it writes is a function of the results and of
whether it was cancelled.

* `finalPhase`, `closingCalls`: the phase and the calls, as functions of the state.
* `Closed`: how many of the calls are made at each blocking point; `closed_of_run` says that every
  run keeps this.
* `Point.Concluding`: the run is past its loops: its results are final, and only such a run has
  asked to commit.
* `Aborted`: the failures after which a run returns without marking; `ends_of_run` says that a run
  that has returned has marked its execution iff there was none of them.
-/

namespace Dataflow.Workflows

open Model Library List

/-! ## The closing calls -/

/-- The phase in which a run with these results ends. -/
def RunState.finalPhase (s : RunState) : Phase :=
  if s.cancelled then .cancelled else if anyFailed s.results then .failed else .completed

/-- The calls that write to the database. -/
def WorkflowCall.isClosing : WorkflowCall → Bool
  | .prepareScheduledExecution .. | .node .. => false
  | .commitSourceCursors .. | .commitDedupeKeys .. | .markExecution .. => true

/-- The closing calls scheduled so far. -/
def RunState.closingLog (s : RunState) : List WorkflowCall := s.scheduled.filter (·.isClosing)

/-- The run has not returned. -/
def Point.Open (point : Point) : Prop := ∀ outcome, point ≠ .returned outcome

/-- A failed reply after which the workflow returns at once. -/
def Event.aborts : Event → Bool
  | .prepared (.error _) | .cursorsCommitted (.error _) | .dedupeCommitted (.error _) => true
  | _ => false

/-- The event is no failed reply of an activity that prepares, commits or marks. -/
def Event.succeeds : Event → Bool
  | .prepared (.error _) | .cursorsCommitted (.error _) | .dedupeCommitted (.error _)
  | .marked (.error _) => false
  | _ => true

/-- The run is past its loops. -/
def Point.Concluding : Point → Prop
  | .committingCursors _ | .committingDedupe | .marking _ | .returned _ => True
  | _ => False

/-- `commitSourceCursors` and `commitDedupeKeys`. -/
def WorkflowCall.isCommit : WorkflowCall → Bool
  | .commitSourceCursors .. | .commitDedupeKeys .. => true
  | _ => false

namespace DynamicDag

variable (dag : DynamicDag)

/-- The cursors the results carry. -/
def cursors (results : Results) : List SourceCursor :=
  (dag.ranging.order results).filterMap sourceCursor

/-- The dedupe checkpoints the results carry. -/
def checkpoints (results : Results) : List JsonMap :=
  (dag.ranging.order results).filterMap dedupeCheckpoint

/-- The call of `commitSourceCursors`, if there is a cursor. -/
def cursorCalls (results : Results) : List WorkflowCall :=
  if dag.cursors results = [] then []
  else [.commitSourceCursors dag.input.tenantId (dag.cursors results)]

/-- The call of `commitDedupeKeys`, if there is a checkpoint. -/
def dedupeCalls (results : Results) : List WorkflowCall :=
  if dag.checkpoints results = [] then []
  else [.commitDedupeKeys dag.input.tenantId (dag.checkpoints results)]

/-- What a run commits. -/
def commitCalls (s : RunState) : List WorkflowCall :=
  if s.finalPhase = .completed then dag.cursorCalls s.results ++ dag.dedupeCalls s.results else []

/-- **What a run writes at its end.** -/
def closingCalls (s : RunState) : List WorkflowCall :=
  dag.commitCalls s ++ [.markExecution dag.input.executionId s.finalPhase]

/-- How many of the closing calls are made at the blocking point. -/
def Closed (s : RunState) : Prop :=
  match s.point with
  | .preparing | .level .. | .waiting .. | .batch .. => s.closingLog = []
  | .committingCursors checkpoints =>
    s.finalPhase = .completed ∧ checkpoints = dag.checkpoints s.results ∧
      s.closingLog = dag.cursorCalls s.results
  | .committingDedupe => s.finalPhase = .completed ∧ s.closingLog = dag.commitCalls s
  | .marking phase | .returned (.ok phase) =>
    phase = s.finalPhase ∧ s.closingLog = dag.closingCalls s
  | .returned (.error _) => s.closingLog <+: dag.closingCalls s

variable {dag} {s s' : RunState}

theorem Frame.finalPhase (h : Frame s s') : s'.finalPhase = s.finalPhase := by
  rw [RunState.finalPhase, RunState.finalPhase, h.cancelled, h.results]

theorem Frame.commitCalls (h : Frame s s') : dag.commitCalls s' = dag.commitCalls s := by
  rw [DynamicDag.commitCalls, DynamicDag.commitCalls, h.finalPhase, h.results]

theorem Frame.closingCalls (h : Frame s s') : dag.closingCalls s' = dag.closingCalls s := by
  rw [DynamicDag.closingCalls, DynamicDag.closingCalls, h.commitCalls, h.finalPhase]

/-- Whatever has happened, the closing calls are made in order. -/
theorem Closed.log_prefix (h : dag.Closed s) : s.closingLog <+: dag.closingCalls s := by
  unfold Closed at h
  split at h
  iterate 4 rw [h]; exact nil_prefix
  · obtain ⟨hphase, -, hlog⟩ := h
    rw [hlog, closingCalls, commitCalls, if_pos hphase, append_assoc]
    exact prefix_append _ _
  · rw [h.2, closingCalls]
    exact prefix_append _ _
  · rw [h.2]
  · rw [h.2]
  · exact h

theorem closed_fail (h : dag.Closed s) (err : String) : dag.Closed (s.fail err) := by
  change (s.fail err).closingLog <+: dag.closingCalls (s.fail err)
  rw [(frame_fail err s).closingCalls]
  exact h.log_prefix

variable {phase : Phase}

theorem closed_mark (hphase : phase = s.finalPhase)
    (hlog : s.closingLog = dag.commitCalls s) : dag.Closed (dag.mark phase s) := by
  refine ⟨hphase.trans (dag.frame_mark phase s).finalPhase.symm, ?_⟩
  rw [(dag.frame_mark phase s).closingCalls, closingCalls, ← hlog, ← hphase]
  exact filter_append ..

theorem closed_commitDedupe (hphase : s.finalPhase = .completed)
    (hlog : s.closingLog = dag.cursorCalls s.results) :
    dag.Closed (dag.commitDedupe (dag.checkpoints s.results) s) := by
  have hcommit : dag.commitCalls s = s.closingLog ++ dag.dedupeCalls s.results := by
    rw [commitCalls, if_pos hphase, hlog]
  have hf := dag.frame_commitDedupe (dag.checkpoints s.results) s
  unfold commitDedupe at hf ⊢
  split_ifs at hf ⊢ with hnil
  · refine closed_mark hphase.symm ?_
    rw [hcommit, dedupeCalls, if_pos hnil, append_nil]
  · refine ⟨hf.finalPhase.trans hphase, ?_⟩
    rw [hf.commitCalls, hcommit, dedupeCalls, if_neg hnil]
    exact filter_append ..

theorem closed_conclude (hlog : s.closingLog = []) : dag.Closed (dag.conclude s) := by
  unfold conclude
  dsimp only
  split_ifs with hcancelled hfailed hnil
  · refine closed_mark (by simp [RunState.finalPhase, hcancelled]) ?_
    rw [hlog, commitCalls, if_neg (by simp [RunState.finalPhase, hcancelled])]
  · refine closed_mark (by simp [RunState.finalPhase, hcancelled, hfailed]) ?_
    rw [hlog, commitCalls, if_neg (by simp [RunState.finalPhase, hcancelled, hfailed])]
  · exact closed_commitDedupe (by simp [RunState.finalPhase, hcancelled, hfailed])
      (by rw [hlog, cursorCalls, cursors, if_pos hnil])
  · refine ⟨by simp [RunState.finalPhase, hcancelled, hfailed], rfl, ?_⟩
    change (s.scheduled ++ [_]).filter _ = _
    rw [filter_append, cursorCalls, cursors, if_neg hnil]
    change s.closingLog ++ _ = _
    rw [hlog]
    rfl

theorem closed_nextLevel (rest : List (List Node)) (hlog : s.closingLog = []) :
    dag.Closed (dag.nextLevel rest s) := by
  cases rest with
  | nil => exact closed_conclude hlog
  | cons level rest => exact hlog

variable {call : WorkflowCall}

/-- The activities of nodes write nothing. -/
theorem isClosing_pendingCall {entry : Node × NodeCoroutine}
    (h : pendingCall entry = some call) : call.isClosing = false := by
  obtain ⟨q, -, rfl⟩ := Option.map_eq_some_iff.mp h
  rfl

theorem closingLog_append {calls : List WorkflowCall} (hlog : s.closingLog = [])
    (h : ∀ call ∈ calls, call.isClosing = false) :
    (s.scheduled ++ calls).filter (·.isClosing) = [] := by
  rw [filter_append, append_eq_nil_iff]
  exact ⟨hlog, filter_eq_nil_iff.mpr fun call hcall => by simp [h call hcall]⟩

theorem closed_nextBatch (queued : List Node) (rest : List (List Node))
    (hlog : s.closingLog = []) : dag.Closed (dag.nextBatch queued rest s) := by
  unfold nextBatch
  split_ifs
  · exact closed_nextLevel rest hlog
  · refine closingLog_append hlog fun call hcall => ?_
    obtain ⟨entry, -, hentry⟩ := mem_filterMap.mp hcall
    exact isClosing_pendingCall hentry

theorem closed_enterLevel (level : List Node) (rest : List (List Node))
    (hlog : s.closingLog = []) : dag.Closed (dag.enterLevel level rest s) := by
  unfold enterLevel
  split_ifs
  · exact hlog
  · exact closed_conclude hlog
  · exact closed_nextBatch level rest hlog

theorem closed_plan (hlog : s.closingLog = []) (hpoint : s.point = .preparing) :
    dag.Closed (dag.plan s) := by
  unfold plan
  split
  · exact closed_fail (by rw [Closed, hpoint]; exact hlog) _
  · exact closed_nextLevel _ hlog

variable {event : Event}

/-- **The step lemma of `Closed`.** -/
theorem closed_step (h : dag.Closed s) (hstep : dag.step s event = some s') : dag.Closed s' := by
  cases (dag.step_iff).mp hstep with
  | signal => exact h
  | prepareFailed hp err => exact closed_fail h err
  | prepared hp =>
    rw [Closed, hp] at h
    exact closed_plan h hp
  | beginLevel hp | selectResume hp | selectCancel hp =>
    rw [Closed, hp] at h
    exact closed_enterLevel _ _ h
  | nodeReply hp hi answer =>
    rw [Closed, hp] at h
    exact closingLog_append h fun call hcall => isClosing_pendingCall (Option.mem_toList.mp hcall)
  | @collect node result running queued rest hp =>
    rw [Closed, hp] at h
    cases running with
    | nil => exact closed_nextBatch _ _ h
    | cons entry running => exact h
  | cursorsFailed hp err => exact closed_fail h err
  | cursorsCommitted hp =>
    rw [Closed, hp] at h
    obtain ⟨hphase, rfl, hlog⟩ := h
    exact closed_commitDedupe hphase hlog
  | dedupeFailed hp err => exact closed_fail h err
  | dedupeCommitted hp =>
    rw [Closed, hp] at h
    exact closed_mark h.1.symm h.2
  | markFailed hp err => exact closed_fail h err
  | marked hp =>
    rw [Closed, hp] at h
    exact h

variable {es : List Event} {allowed : List Event → RunState → Event → Prop}

/-- **Every run makes its closing calls in order.** -/
theorem closed_of_run (h : dag.Run allowed es s) : dag.Closed s := by
  refine h.invariant (I := fun _ s => dag.Closed s) ?_ fun _ _ _ _ hs _ hstep => closed_step hs hstep
  unfold start
  dsimp only
  split_ifs
  · exact nil_prefix
  · exact rfl
  · exact closed_plan rfl rfl

/-- **Commits and the mark come in order, each once**: what a run has asked for is a prefix of the
cursors, the keys and the mark, as the results and the cancel at that moment say, and all of it when
the run returns a phase. -/
theorem closing_order (h : dag.Run allowed es s) :
    s.closingLog <+: dag.closingCalls s ∧ ∀ phase, s.point = .returned (.ok phase) →
      phase = s.finalPhase ∧ s.closingLog = dag.closingCalls s := by
  have hclosed := closed_of_run h
  refine ⟨hclosed.log_prefix, fun phase hreturned => ?_⟩
  rwa [Closed, hreturned] at hclosed

theorem closing_order_source : let dag : DynamicDag :=
      { info := {}, request := { definition := { nodes := [{ id := "source", type := .source }] } }
        ranging := .entries }
    dag.start.closingLog <+: dag.closingCalls dag.start := by
  intro dag
  exact (closing_order (.start : dag.Run Transition.Any [] dag.start)).1

/-! ## Runs that are past their loops -/

/-- A commit is a closing call. -/
theorem isClosing_of_isCommit (h : call.isCommit = true) : call.isClosing = true := by
  cases call <;> first | rfl | cases h

/-- **A run that has asked to commit** has completed, and is past its loops. -/
theorem Closed.of_isCommit (h : dag.Closed s) (hcall : call ∈ s.scheduled)
    (hcommit : call.isCommit = true) : s.finalPhase = .completed ∧ s.point.Concluding := by
  have hlog : call ∈ s.closingLog := mem_filter.mpr ⟨hcall, isClosing_of_isCommit hcommit⟩
  constructor
  · rcases mem_append.mp (h.log_prefix.subset hlog) with hmem | hmem
    · unfold commitCalls at hmem
      split_ifs at hmem with hphase
      · exact hphase
      · cases hmem
    · rw [mem_singleton.mp hmem] at hcommit
      cases hcommit
  · unfold Closed at h
    split at h
    iterate 4
      simp [h] at hlog
    · rename_i hp
      rw [hp]
      trivial
    · rename_i hp
      rw [hp]
      trivial
    · rename_i hp
      rw [hp]
      trivial
    · rename_i hp
      rw [hp]
      trivial
    · rename_i hp
      rw [hp]
      trivial

theorem concluding_commitDedupe (checkpoints : List JsonMap) :
    (dag.commitDedupe checkpoints s).point.Concluding := by
  unfold commitDedupe
  split_ifs <;> trivial

/-- **A run that is past its loops stays there**, with its results. -/
theorem concluding_step (h : s.point.Concluding) (hstep : dag.step s event = some s') :
    s'.point.Concluding ∧ s'.results = s.results ∧ s'.cancelled = s.cancelled := by
  cases (dag.step_iff).mp hstep with
  | signal => exact ⟨h, rfl, rfl⟩
  | prepareFailed => exact ⟨trivial, rfl, rfl⟩
  | prepared hp | beginLevel hp | selectResume hp | selectCancel hp | nodeReply hp | collect hp =>
    rw [hp] at h
    cases h
  | cursorsFailed => exact ⟨trivial, rfl, rfl⟩
  | @cursorsCommitted checkpoints hp =>
    have hf := dag.frame_commitDedupe checkpoints s
    exact ⟨concluding_commitDedupe checkpoints, hf.results, hf.cancelled⟩
  | dedupeFailed | dedupeCommitted | markFailed | marked => exact ⟨trivial, rfl, rfl⟩

/-- A run that is about to be marked as completed without a commit of its dedupe keys has none. -/
def NoKeysLeft (dag : DynamicDag) (s : RunState) : Prop :=
  s.point = .marking .completed → dag.checkpoints s.results = []

theorem noKeysLeft_of_ne (h : phase ≠ .completed) : NoKeysLeft dag (dag.mark phase s) := by
  intro hp
  injection hp with hphase
  exact absurd hphase h

theorem noKeysLeft_commitDedupe :
    NoKeysLeft dag (dag.commitDedupe (dag.checkpoints s.results) s) := by
  unfold commitDedupe
  split_ifs with hnil
  · exact fun _ => hnil
  · exact nofun

theorem noKeysLeft_conclude : NoKeysLeft dag (dag.conclude s) := by
  unfold conclude
  dsimp only
  split_ifs
  · exact noKeysLeft_of_ne nofun
  · exact noKeysLeft_of_ne nofun
  · exact noKeysLeft_commitDedupe
  · exact nofun

theorem noKeysLeft_nextLevel (rest : List (List Node)) : NoKeysLeft dag (dag.nextLevel rest s) := by
  cases rest with
  | nil => exact noKeysLeft_conclude
  | cons level rest => exact nofun

theorem noKeysLeft_nextBatch (queued : List Node) (rest : List (List Node)) :
    NoKeysLeft dag (dag.nextBatch queued rest s) := by
  unfold nextBatch
  split_ifs
  · exact noKeysLeft_nextLevel rest
  · exact nofun

theorem noKeysLeft_enterLevel (level : List Node) (rest : List (List Node)) :
    NoKeysLeft dag (dag.enterLevel level rest s) := by
  unfold enterLevel
  split_ifs
  · exact nofun
  · exact noKeysLeft_conclude
  · exact noKeysLeft_nextBatch level rest

theorem noKeysLeft_store (node : Node) (result : NodeResult) (running : List (Node × NodeCoroutine))
    (queued : List Node) (rest : List (List Node)) :
    NoKeysLeft dag (dag.store node result running queued rest s) := by
  cases running with
  | nil => exact noKeysLeft_nextBatch queued rest
  | cons entry running => exact nofun

theorem noKeysLeft_plan : NoKeysLeft dag (dag.plan s) := by
  unfold plan
  split
  · exact nofun
  · exact noKeysLeft_nextLevel _

theorem noKeysLeft_start : NoKeysLeft dag dag.start := by
  unfold start
  dsimp only
  split_ifs
  · exact nofun
  · exact nofun
  · exact noKeysLeft_plan

/-! ## Runs that return without marking -/

theorem open_commitDedupe (checkpoints : List JsonMap) :
    (dag.commitDedupe checkpoints s).point.Open := by
  unfold commitDedupe
  split_ifs <;> exact nofun

theorem open_conclude : (dag.conclude s).point.Open := by
  unfold conclude
  dsimp only
  split_ifs
  · exact nofun
  · exact nofun
  · exact open_commitDedupe _
  · exact nofun

theorem open_nextLevel (rest : List (List Node)) : (dag.nextLevel rest s).point.Open := by
  cases rest with
  | nil => exact open_conclude
  | cons level rest => exact nofun

theorem open_nextBatch (queued : List Node) (rest : List (List Node)) :
    (dag.nextBatch queued rest s).point.Open := by
  unfold nextBatch
  split_ifs
  · exact open_nextLevel rest
  · exact nofun

theorem open_enterLevel (level : List Node) (rest : List (List Node)) :
    (dag.enterLevel level rest s).point.Open := by
  unfold enterLevel
  split_ifs
  · exact nofun
  · exact open_conclude
  · exact open_nextBatch level rest

theorem open_store (node : Node) (result : NodeResult) (running : List (Node × NodeCoroutine))
    (queued : List Node) (rest : List (List Node)) :
    (dag.store node result running queued rest s).point.Open := by
  cases running with
  | nil => exact open_nextBatch queued rest
  | cons entry running => exact nofun

/-- A scheduled run without a row id. -/
def RowMissing (dag : DynamicDag) : Prop :=
  dag.input.trigger.type = "cron" ∧ dag.input.executionPrepared = false ∧
    dag.input.pipelineRowId = ""

/-- The definition has no plan. -/
def Unplannable (dag : DynamicDag) : Prop :=
  ∃ err, buildPlan dag.input.definition.nodes dag.input.definition.edges = .error err

/-- A failure after which the run returns without marking its execution. -/
def Aborted (dag : DynamicDag) (es : List Event) : Prop :=
  dag.RowMissing ∨ dag.Unplannable ∨ ∃ event ∈ es, event.aborts = true

/-- The execution is marked with the final phase. -/
def Marked (dag : DynamicDag) (s : RunState) : Prop :=
  .markExecution dag.input.executionId s.finalPhase ∈ s.scheduled

/-- How the events so far and the point go together. -/
structure Ends (dag : DynamicDag) (es : List Event) (s : RunState) : Prop where
  running : s.point.Open → ¬ dag.RowMissing ∧ (s.point ≠ .preparing → ¬ dag.Unplannable) ∧
    ∀ event ∈ es, event.aborts = false
  returned : ∀ outcome, s.point = .returned outcome →
    (Aborted dag es ∧ (∀ id phase, .markExecution id phase ∉ s.scheduled) ∧
        ∃ err, outcome = .error err) ∨
      (¬ Aborted dag es ∧ Marked dag s ∧ ∀ err, outcome = .error err → .marked (.error err) ∈ es)

/-- As long as the run goes on there is no failure. -/
theorem Ends.of_open (h : Ends dag es s)
    (hopen : s.point.Open) (hplanned : s'.point ≠ .preparing → s.point ≠ .preparing)
    (hevent : event.aborts = false) (hopen' : s'.point.Open) : Ends dag (es ++ [event]) s' where
  running _ := by
    obtain ⟨hrow, hplan, hes⟩ := h.running hopen
    refine ⟨hrow, fun hp => hplan (hplanned hp), fun e he => ?_⟩
    rcases mem_append.mp he with he | he
    · exact hes e he
    · rw [mem_singleton.mp he, hevent]
  returned outcome ho := absurd ho (hopen' outcome)

/-- A call of `markExecution` is a closing call. -/
theorem mem_closingLog {id : String} :
    .markExecution id phase ∈ s.scheduled ↔ .markExecution id phase ∈ s.closingLog := by
  simp [RunState.closingLog, mem_filter, WorkflowCall.isClosing]

/-- No commit is a call of `markExecution`. -/
theorem not_mem_commits {id : String} {results : Results} :
    .markExecution id phase ∉ dag.cursorCalls results ++ dag.dedupeCalls results := by
  intro h
  rcases mem_append.mp h with h | h
  · unfold cursorCalls at h
    split_ifs at h <;> simp at h
  · unfold dedupeCalls at h
    split_ifs at h <;> simp at h

/-- A run that ends before it is marked. -/
theorem Ends.of_aborted (haborted : Aborted dag es) (err : String)
    (hlog : ∀ id phase, .markExecution id phase ∉ s.closingLog) : Ends dag es (s.fail err) where
  running hopen := absurd rfl (hopen (.error err))
  returned outcome ho := .inl ⟨haborted, fun id phase hmem => hlog id phase (mem_closingLog.mp hmem),
    err, by injection ho with ho; exact ho.symm⟩

/-- A failed reply ends the run before it is marked. -/
theorem Ends.of_reply (hevent : event.aborts = true)
    (err : String) (hlog : ∀ id phase, .markExecution id phase ∉ s.closingLog) :
    Ends dag (es ++ [event]) (s.fail err) :=
  .of_aborted (.inr (.inr ⟨event, by simp, hevent⟩)) err hlog

/-- The reply to `markExecution` ends the run. -/
theorem Ends.of_marking {outcome : Except String Phase}
    {reply : Except String Unit} (h : Ends dag es s) (hc : dag.Closed s)
    (hp : s.point = .marking phase)
    (herr : ∀ err, outcome = .error err → reply = .error err) :
    Ends dag (es ++ [.marked reply]) { s with point := .returned outcome } where
  running hopen := absurd rfl (hopen outcome)
  returned outcome' ho := by
    obtain ⟨hrow, hplan, hes⟩ := h.running (by rw [hp]; nofun)
    injection ho with ho
    subst ho
    refine .inr ⟨?_, ?_, fun err herr' => by simp [herr err herr']⟩
    · rintro (hbad | hbad | ⟨e, he, hbad⟩)
      · exact hrow hbad
      · exact hplan (by rw [hp]; nofun) hbad
      · rcases mem_append.mp he with he | he
        · simp [hes e he] at hbad
        · simp [mem_singleton.mp he, Event.aborts] at hbad
    · rw [Closed, hp] at hc
      change _ ∈ s.scheduled
      rw [mem_closingLog, hc.2]
      exact mem_append_right _ mem_cons_self

/-- **The step lemma of `Ends`.** -/
theorem ends_step (h : Ends dag es s) (hc : dag.Closed s)
    (hstep : dag.step s event = some s') : Ends dag (es ++ [event]) s' := by
  cases (dag.step_iff).mp hstep with
  | signal signal hopen => exact h.of_open hopen id rfl hopen
  | prepareFailed hp err =>
    rw [Closed, hp] at hc
    exact .of_reply rfl err (by simp [hc])
  | prepared hp =>
    rw [Closed, hp] at hc
    obtain ⟨hrow, -, hes⟩ := h.running (by rw [hp]; nofun)
    unfold plan
    split
    · rename_i err hplan
      exact .of_aborted (.inr (.inl ⟨err, hplan⟩)) err.message (by simp [hc])
    · rename_i plan hplan
      refine ⟨fun _ => ⟨hrow, fun _ ⟨err, herr⟩ => ?_, fun e he => ?_⟩, fun outcome ho =>
        absurd ho (open_nextLevel _ outcome)⟩
      · simp [hplan] at herr
      · rcases mem_append.mp he with he | he
        · exact hes e he
        · rw [mem_singleton.mp he]
          rfl
  | beginLevel hp | selectResume hp | selectCancel hp =>
    exact h.of_open (by rw [hp]; nofun) (fun _ => by rw [hp]; nofun) rfl (open_enterLevel _ _)
  | nodeReply hp hi answer =>
    exact h.of_open (by rw [hp]; nofun) (fun _ => by rw [hp]; nofun) rfl nofun
  | collect hp =>
    exact h.of_open (by rw [hp]; nofun) (fun _ => by rw [hp]; nofun) rfl (open_store _ _ _ _ _)
  | cursorsFailed hp err =>
    rw [Closed, hp] at hc
    refine .of_reply rfl err fun id phase hmem => ?_
    rw [hc.2.2] at hmem
    exact not_mem_commits (mem_append_left _ hmem)
  | cursorsCommitted hp =>
    exact h.of_open (by rw [hp]; nofun) (fun _ => by rw [hp]; nofun) rfl (open_commitDedupe _)
  | dedupeFailed hp err =>
    rw [Closed, hp] at hc
    refine .of_reply rfl err fun id phase hmem => ?_
    rw [hc.2, commitCalls, if_pos hc.1] at hmem
    exact not_mem_commits hmem
  | dedupeCommitted hp =>
    exact h.of_open (by rw [hp]; nofun) (fun _ => by rw [hp]; nofun) rfl nofun
  | markFailed hp err => exact h.of_marking hc hp fun err' he => by cases he; rfl
  | marked hp => exact h.of_marking hc hp nofun

/-- **A run that has returned has marked its execution iff nothing aborted it.** -/
theorem ends_of_run (h : dag.Run allowed es s) : Ends dag es s := by
  have hboth : Ends dag es s ∧ dag.Closed s := by
    refine h.invariant (I := fun es s => Ends dag es s ∧ dag.Closed s)
      ⟨?_, closed_of_run (.start : dag.Run allowed [] dag.start)⟩ fun _ _ _ _ hs _ hstep =>
        ⟨ends_step hs.1 hs.2 hstep, closed_step hs.2 hstep⟩
    unfold start
    dsimp only
    split_ifs with hcron hrow
    · exact .of_aborted (s := { point := .preparing }) (.inl ⟨hcron.1, by simpa using hcron.2, hrow⟩)
        missingRow nofun
    · refine ⟨fun _ => ⟨fun hmissing => hrow hmissing.2.2, fun hp => absurd rfl hp, nofun⟩, nofun⟩
    · have hnotrow : ¬ RowMissing dag := fun hmissing => hcron ⟨hmissing.1, by simp [hmissing.2.1]⟩
      unfold plan
      split
      · rename_i err hplan
        exact .of_aborted (.inr (.inl ⟨err, hplan⟩)) err.message nofun
      · rename_i plan hplan
        refine ⟨fun _ => ⟨hnotrow, fun _ ⟨err, herr⟩ => ?_, nofun⟩, fun outcome ho =>
          absurd ho (open_nextLevel _ outcome)⟩
        simp [hplan] at herr
  exact hboth.1

end DynamicDag

end Dataflow.Workflows
