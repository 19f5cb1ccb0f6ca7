import Dataflow.Activities.DedupeKeys
import Dataflow.Workflows.Closing

/-!
# Cursors and dedupe keys of one run

A run commits its cursors first and its dedupe keys after that, each by an activity with retries of
its own. An attempt of an activity may write and still fail, and it may write after the workflow has
given it up.

* `Stored`: what the attempts of a run have written.
* `CommitState`, `CommitEvent`, `step`: a run together with the attempts of its two commits.
* `Together`: a run that has returned has stored its keys if it has stored its cursors, and nothing
  at all if it has not completed.
* `Clean`: no attempt has written when a commit or the marking fails, and none writes after that.
* **`together_of_run`**: if all steps are clean the run commits together; a step that is not clean
  leads to a state in which it does not.
* `cursors_without_keys`: `commitDedupeKeys` fails after the cursors are stored.
-/

namespace Dataflow.Activities.RunCommits

open Model Workflows Library Library.Transition List Option

/-! ## The system -/

/-- What a run has written: the cursors of a committed transaction, and rows of `dedupe_keys`. -/
structure Stored where
  cursors : List SourceCursor := []
  keys : Finset DedupeKey := ∅
  deriving DecidableEq

/-- A run and what it has written. -/
structure CommitState where
  run : RunState
  stored : Stored := {}

/-- What happens: an event of the workflow, an attempt of `CommitSourceCursors` that commits its
transaction, or an attempt of `CommitDedupeKeys` that has executed its first `n` statements. -/
inductive CommitEvent where
  | workflow (event : Event)
  | cursorsWritten
  | keysWritten (n : ℕ)

/-- The cursors that the workflow has asked to commit. -/
def requestedCursors (log : List WorkflowCall) : Option (List SourceCursor) :=
  log.findSome? fun
    | .commitSourceCursors _ cursors => some cursors
    | _ => none

/-- The tenant and the checkpoints that the workflow has asked to commit, as the activity decodes
them. -/
def requestedKeys (log : List WorkflowCall) : Option (String × List DedupeCheckpoint) :=
  log.findSome? fun
    | .commitDedupeKeys tenantId checkpoints =>
      (checkpoints.mapM DedupeCheckpoint.ofJson).map fun decoded => (tenantId, decoded)
    | _ => none

/-- An activity that succeeds has written all that it was asked to. -/
def Confirmed (s : CommitState) : Event → Prop
  | .cursorsCommitted (.ok _) => requestedCursors s.run.scheduled = some s.stored.cursors
  | .dedupeCommitted (.ok _) => ∃ request ∈ requestedKeys s.run.scheduled,
      checkpointKeys request.1 request.2 ⊆ s.stored.keys
  | _ => True

instance (s : CommitState) (event : Event) : Decidable (Confirmed s event) :=
  match event with
  | .cursorsCommitted (.ok _) =>
    inferInstanceAs (Decidable (requestedCursors s.run.scheduled = some s.stored.cursors))
  | .dedupeCommitted (.ok _) =>
    inferInstanceAs (Decidable (∃ request ∈ requestedKeys s.run.scheduled,
      checkpointKeys request.1 request.2 ⊆ s.stored.keys))
  | .cursorsCommitted (.error _) | .dedupeCommitted (.error _) | .signal _ | .prepared _ | .beginLevel
  | .select | .nodeReply _ _ | .collect | .marked _ => inferInstanceAs (Decidable True)

section code

variable (dag : DynamicDag)

/-- The run is about to begin. -/
def start : CommitState := { run := dag.start }

/-- One step.
Source: `dynamic_dag.go` `DynamicDAGWorkflow`, `activities.go` `CommitSourceCursors`,
`CommitDedupeKeys` -/
def step (s : CommitState) : CommitEvent → Option CommitState
  | .workflow event =>
    if Confirmed s event then (dag.step s.run event).map fun run => { s with run := run } else none
  | .cursorsWritten =>
    (requestedCursors s.run.scheduled).map fun cursors =>
      { s with stored := { s.stored with cursors := cursors } }
  | .keysWritten n =>
    (requestedKeys s.run.scheduled).map fun request =>
      { s with stored :=
        { s.stored with keys := commitDedupeKeys request.1 request.2 n s.stored.keys } }

/-- The rows of the dedupe keys of a run. -/
def runKeys (results : Results) : Finset DedupeKey :=
  checkpointKeys dag.input.tenantId ((dag.checkpoints results).filterMap DedupeCheckpoint.ofJson)

/-- **The run commits together**: when it has returned, its keys are stored if its cursors are, and
nothing is stored unless it has completed. -/
def Together (s : CommitState) : Prop :=
  ∀ outcome, s.run.point = .returned outcome →
    (s.stored.cursors ≠ [] → runKeys dag s.run.results ⊆ s.stored.keys) ∧
      (outcome ≠ .ok .completed → s.stored = {})

end code

/-- The run has returned an error. -/
def failed (s : CommitState) : Bool :=
  match s.run.point with
  | .returned (.error _) => true
  | _ => false

/-- When a commit or the marking fails, no attempt has written anything, and none does after the run has
failed. -/
def Clean (s : CommitState) : CommitEvent → Prop
  | .workflow (.cursorsCommitted (.error _)) | .workflow (.dedupeCommitted (.error _))
  | .workflow (.marked (.error _)) => s.stored = {}
  | .workflow _ => True
  | .cursorsWritten => failed s = false
  | .keysWritten n => failed s = false ∨ ∀ request ∈ requestedKeys s.run.scheduled,
      checkpointKeys request.1 (request.2.take n) = ∅

instance (s : CommitState) (e : CommitEvent) : Decidable (Clean s e) :=
  match e with
  | .workflow (.cursorsCommitted (.error _)) | .workflow (.dedupeCommitted (.error _))
  | .workflow (.marked (.error _)) => inferInstanceAs (Decidable (s.stored = {}))
  | .cursorsWritten => inferInstanceAs (Decidable (failed s = false))
  | .keysWritten n => inferInstanceAs (Decidable (failed s = false ∨
      ∀ request ∈ requestedKeys s.run.scheduled, checkpointKeys request.1 (request.2.take n) = ∅))
  | .workflow (.cursorsCommitted (.ok _)) | .workflow (.dedupeCommitted (.ok _))
  | .workflow (.marked (.ok _)) | .workflow (.signal _) | .workflow (.prepared _)
  | .workflow .beginLevel | .workflow .select | .workflow (.nodeReply _ _) | .workflow .collect =>
    inferInstanceAs (Decidable True)

/-! ## Requests -/

/-- A search that only looks at the closing calls. -/
theorem findSome?_closingLog {β : Type} {f : WorkflowCall → Option β}
    (h : ∀ call, call.isClosing = false → f call = none) (log : List WorkflowCall) :
    (log.filter (·.isClosing)).findSome? f = log.findSome? f := by
  induction log with
  | nil => rfl
  | cons call log ih =>
    rw [findSome?_cons]
    cases hclosing : call.isClosing with
    | true =>
      rw [filter_cons_of_pos hclosing, findSome?_cons, ih]
    | false =>
      rw [filter_cons_of_neg (by simp [hclosing]), ih, h call hclosing]

theorem requestedKeys_closingLog (s : RunState) :
    requestedKeys s.scheduled = requestedKeys s.closingLog := by
  refine (findSome?_closingLog ?_ s.scheduled).symm
  intro call hclosing
  cases call with
  | prepareScheduledExecution | node | commitSourceCursors => rfl
  | commitDedupeKeys | markExecution => cases hclosing

/-- A request for cursors was made by the workflow. -/
theorem mem_of_requestedCursors {log : List WorkflowCall} {cursors : List SourceCursor}
    (h : requestedCursors log = some cursors) :
    ∃ tenantId, .commitSourceCursors tenantId cursors ∈ log := by
  obtain ⟨call, hmem, hcall⟩ := exists_of_findSome?_eq_some h
  cases call with
  | commitSourceCursors tenantId other =>
    cases hcall
    exact ⟨tenantId, hmem⟩
  | prepareScheduledExecution | node | commitDedupeKeys | markExecution => cases hcall

/-- A request for keys was made by the workflow. -/
theorem mem_of_requestedKeys {log : List WorkflowCall} {request : String × List DedupeCheckpoint}
    (h : requestedKeys log = some request) :
    ∃ tenantId checkpoints, .commitDedupeKeys tenantId checkpoints ∈ log := by
  obtain ⟨call, hmem, hcall⟩ := exists_of_findSome?_eq_some h
  cases call with
  | commitDedupeKeys tenantId checkpoints => exact ⟨tenantId, checkpoints, hmem⟩
  | prepareScheduledExecution | node | commitSourceCursors | markExecution => cases hcall

/-- The workflow does not ask to commit an empty list of cursors. -/
theorem ne_nil_of_requestedCursors {dag : DynamicDag} {run : RunState} (h : dag.Closed run)
    {cursors : List SourceCursor} (hrequest : requestedCursors run.scheduled = some cursors) :
    cursors ≠ [] := by
  obtain ⟨tenantId, hmem⟩ := mem_of_requestedCursors hrequest
  have hlog : .commitSourceCursors tenantId cursors ∈ dag.closingCalls run :=
    h.log_prefix.subset (mem_filter.mpr ⟨hmem, rfl⟩)
  rcases mem_append.mp hlog with hcommit | hmark
  · unfold DynamicDag.commitCalls at hcommit
    split_ifs at hcommit
    · rcases mem_append.mp hcommit with hcursors | hdedupe
      · unfold DynamicDag.cursorCalls at hcursors
        split_ifs at hcursors with hnil
        · cases hcursors
        · cases mem_singleton.mp hcursors
          exact hnil
      · unfold DynamicDag.dedupeCalls at hdedupe
        split_ifs at hdedupe
        · cases hdedupe
        · cases mem_singleton.mp hdedupe
    · cases hcommit
  · cases mem_singleton.mp hmark

/-! ## The invariant -/

variable {dag : DynamicDag} {s s' : CommitState}

/-- **What holds in every state reached.** -/
structure Invariant (dag : DynamicDag) (s : CommitState) : Prop where
  closed : dag.Closed s.run
  written : s.stored ≠ {} → s.run.finalPhase = .completed ∧ s.run.point.Concluding
  keys : s.run.point = .marking .completed ∨ s.run.point = .returned (.ok .completed) →
    runKeys dag s.run.results ⊆ s.stored.keys
  clean : failed s = true → s.stored = {}

/-- When the keys are confirmed, all keys of the run are stored. -/
theorem runKeys_subset_of_confirmed (h : dag.Closed s.run) (hp : s.run.point = .committingDedupe)
    {reply : Unit} (hconfirmed : Confirmed s (.dedupeCommitted (.ok reply))) :
    runKeys dag s.run.results ⊆ s.stored.keys := by
  obtain ⟨request, hrequest, hkeys⟩ := hconfirmed
  rw [DynamicDag.Closed, hp] at h
  obtain ⟨hphase, hlog⟩ := h
  rw [requestedKeys_closingLog, hlog, DynamicDag.commitCalls, if_pos hphase] at hrequest
  by_cases hnil : dag.checkpoints s.run.results = []
  · rw [runKeys, hnil]
    exact Finset.empty_subset _
  · have hcursors : requestedKeys (dag.cursorCalls s.run.results) = none := by
      unfold DynamicDag.cursorCalls
      split_ifs <;> rfl
    have hdedupe : requestedKeys (dag.dedupeCalls s.run.results) =
        ((dag.checkpoints s.run.results).mapM DedupeCheckpoint.ofJson).map fun decoded =>
          (dag.input.tenantId, decoded) := by
      rw [DynamicDag.dedupeCalls, if_neg hnil]
      exact findSome?_singleton ..
    have hrequested :
        requestedKeys (dag.cursorCalls s.run.results ++ dag.dedupeCalls s.run.results) =
        requestedKeys (dag.dedupeCalls s.run.results) := by
      rw [requestedKeys, findSome?_append]
      exact (congrArg (Option.or · _) hcursors).trans (none_or ..)
    rw [hrequested, hdedupe] at hrequest
    obtain ⟨decoded, hdecoded, rfl⟩ := map_eq_some_iff.mp hrequest
    rw [runKeys, Lists.filterMap_of_mapM hdecoded]
    exact hkeys

/-- An open run has not failed. -/
theorem failed_of_open {s : CommitState} (h : s.run.point.Open) : failed s = false := by
  unfold failed
  split
  · exact absurd (by assumption) (h _)
  · rfl

/-- Planning does not complete a run. -/
theorem plan_ne_completed {run : RunState} : (dag.plan run).point ≠ .returned (.ok .completed) := by
  unfold DynamicDag.plan
  split
  · exact nofun
  · exact DynamicDag.open_nextLevel _ _

theorem start_ne_completed : dag.start.point ≠ .returned (.ok .completed) := by
  unfold DynamicDag.start
  dsimp only
  split_ifs
  · exact nofun
  · exact nofun
  · exact plan_ne_completed

/-- Before the run is past its loops nothing is stored. -/
theorem Invariant.stored_eq (h : Invariant dag s) (hp : ¬ s.run.point.Concluding) :
    s.stored = {} := by
  by_contra hstored
  exact hp (h.written hstored).2

/-- **A step of the workflow** keeps the invariant. -/
theorem Invariant.workflow {event : Event} {run : RunState} (h : Invariant dag s)
    (hclean : Clean s (.workflow event)) (hconfirmed : Confirmed s event)
    (hstep : dag.step s.run event = some run) : Invariant dag { s with run := run } where
  closed := DynamicDag.closed_step h.closed hstep
  written hstored := by
    obtain ⟨hphase, hconcluding⟩ := h.written hstored
    obtain ⟨hconcluding', hresults, hcancelled⟩ := DynamicDag.concluding_step hconcluding hstep
    refine ⟨?_, hconcluding'⟩
    rw [RunState.finalPhase] at hphase ⊢
    rw [hresults, hcancelled]
    exact hphase
  keys := by
    have hnone : ∀ run', DynamicDag.NoKeysLeft dag run' → run'.point ≠ .returned (.ok .completed) →
        run'.point = .marking .completed ∨ run'.point = .returned (.ok .completed) →
        runKeys dag run'.results ⊆ s.stored.keys := by
      intro run' hleft hopen hp
      rcases hp with hp | hp
      · rw [runKeys, hleft hp]
        exact Finset.empty_subset _
      · exact absurd hp hopen
    cases (dag.step_iff).mp hstep with
    | signal => exact h.keys
    | prepareFailed hp err =>
      rintro (hp' | hp')
      · cases hp'
      · cases hp'
    | prepared hp =>
      exact hnone _ DynamicDag.noKeysLeft_plan plan_ne_completed
    | beginLevel hp | selectResume hp | selectCancel hp =>
      exact hnone _ (DynamicDag.noKeysLeft_enterLevel _ _) (DynamicDag.open_enterLevel _ _ _)
    | nodeReply hp =>
      rintro (hp' | hp')
      · cases hp'
      · cases hp'
    | collect hp =>
      exact hnone _ (DynamicDag.noKeysLeft_store _ _ _ _ _) (DynamicDag.open_store _ _ _ _ _ _)
    | cursorsFailed hp err =>
      rintro (hp' | hp')
      · cases hp'
      · cases hp'
    | cursorsCommitted hp =>
      have hclosed := h.closed
      rw [DynamicDag.Closed, hp] at hclosed
      obtain ⟨-, rfl, -⟩ := hclosed
      exact hnone _ DynamicDag.noKeysLeft_commitDedupe (DynamicDag.open_commitDedupe _ _)
    | dedupeFailed hp err =>
      rintro (hp' | hp')
      · cases hp'
      · cases hp'
    | dedupeCommitted hp =>
      intro _
      show runKeys dag s.run.results ⊆ s.stored.keys
      exact runKeys_subset_of_confirmed h.closed hp hconfirmed
    | markFailed hp err =>
      rintro (hp' | hp')
      · cases hp'
      · cases hp'
    | @marked phase hp =>
      rintro (hp' | hp')
      · cases hp'
      · injection hp' with hphase
        injection hphase with hphase
        exact h.keys (.inl (hp.trans (congrArg Point.marking hphase)))
  clean hfailed := by
    have hopen : ∀ run', run'.point.Open → failed { s with run := run' } = true →
        s.stored = {} := by
      intro run' hopen hfailed
      rw [failed_of_open hopen] at hfailed
      cases hfailed
    have hbefore : ∀ point, s.run.point = point → ¬ point.Concluding → s.stored = {} := by
      rintro point rfl hp
      exact h.stored_eq hp
    cases (dag.step_iff).mp hstep with
    | signal signal hp => exact hopen _ hp hfailed
    | prepareFailed hp err | prepared hp | beginLevel hp | selectResume hp => exact hbefore _ hp id
    | selectCancel hp | nodeReply hp | collect hp => exact hbefore _ hp id
    | cursorsFailed hp err => exact hclean
    | cursorsCommitted hp => exact hopen _ (DynamicDag.open_commitDedupe _) hfailed
    | dedupeFailed hp err => exact hclean
    | dedupeCommitted hp =>
      exact hopen (dag.mark .completed s.run) (fun _ hp' => by cases hp') hfailed
    | markFailed hp err => exact hclean
    | marked hp => cases hfailed

/-- **An attempt that writes** keeps the invariant. -/
theorem Invariant.write {stored : Stored} (h : Invariant dag s)
    (hcalled : ∃ call ∈ s.run.scheduled, call.isCommit = true)
    (hkeys : s.stored.keys ⊆ stored.keys) (hclean : failed s = true → stored = {}) :
    Invariant dag { s with stored := stored } where
  closed := h.closed
  written _ := by
    obtain ⟨call, hmem, hcommit⟩ := hcalled
    exact h.closed.of_isCommit hmem hcommit
  keys hp := (h.keys hp).trans hkeys
  clean := hclean

/-- **The step lemma.** -/
theorem Invariant.step {e : CommitEvent} (h : Invariant dag s) (hclean : Clean s e)
    (hstep : step dag s e = some s') : Invariant dag s' := by
  unfold RunCommits.step at hstep
  cases e with
  | workflow event =>
    dsimp only at hstep
    split_ifs at hstep with hconfirmed
    obtain ⟨run, hrun, rfl⟩ := map_eq_some_iff.mp hstep
    exact h.workflow hclean hconfirmed hrun
  | cursorsWritten =>
    obtain ⟨cursors, hcursors, rfl⟩ := map_eq_some_iff.mp hstep
    obtain ⟨tenantId, hmem⟩ := mem_of_requestedCursors hcursors
    refine h.write ⟨_, hmem, rfl⟩ subset_rfl ?_
    intro hfailed
    exact absurd (hclean.symm.trans hfailed) Bool.false_ne_true
  | keysWritten n =>
    obtain ⟨request, hrequest, rfl⟩ := map_eq_some_iff.mp hstep
    obtain ⟨tenantId, checkpoints, hmem⟩ := mem_of_requestedKeys hrequest
    refine h.write ⟨_, hmem, rfl⟩ (subset_commitDedupeKeys ..) ?_
    intro hfailed
    rcases hclean with hopen | hnone
    · exact absurd (hopen.symm.trans hfailed) Bool.false_ne_true
    · rw [h.clean hfailed, commitDedupeKeys, hnone request hrequest]
      rfl

/-- The invariant holds at the start. -/
theorem invariant_start (dag : DynamicDag) : Invariant dag (start dag) where
  closed := DynamicDag.closed_of_run (.start : dag.Run Any [] dag.start)
  written h := absurd rfl h
  keys := by
    rintro (hp | hp)
    · show checkpointKeys _ ((dag.checkpoints dag.start.results).filterMap _) ⊆ _
      rw [DynamicDag.noKeysLeft_start hp]
      exact Finset.empty_subset _
    · exact absurd hp start_ne_completed
  clean _ := rfl

/-- **The invariant holds in every state reached.** -/
theorem invariant_of_run {es : List CommitEvent}
    (run : Run (RunCommits.step dag) (fun _ => Clean) (start dag) es s) : Invariant dag s := by
  refine run.invariant (I := fun _ s => Invariant dag s) (invariant_start dag) ?_
  intro _ s e s' h hclean hstep
  exact h.step hclean hstep

/-! ## The run commits together -/

/-- **From the invariant.** -/
theorem Invariant.together (h : Invariant dag s) : Together dag s := by
  intro outcome hp
  have hclosed := h.closed
  rw [DynamicDag.Closed, hp] at hclosed
  cases outcome with
  | error err =>
    have hnone : s.stored = {} := h.clean (by rw [failed, hp])
    refine ⟨fun hcursors => ?_, fun _ => hnone⟩
    rw [hnone] at hcursors
    exact absurd rfl hcursors
  | ok phase =>
    by_cases hphase : phase = .completed
    · subst hphase
      exact ⟨fun _ => h.keys (.inr hp), fun hne => absurd rfl hne⟩
    · have hnone : s.stored = {} := by
        by_contra hstored
        exact hphase (hclosed.1.trans (h.written hstored).1)
      refine ⟨fun hcursors => ?_, fun _ => hnone⟩
      rw [hnone] at hcursors
      exact absurd rfl hcursors

/-- A run that has failed with something stored does not commit together. -/
theorem not_together_of_failed (hfailed : failed s = true) (hstored : s.stored ≠ {}) :
    ¬ Together dag s := by
  intro h
  unfold failed at hfailed
  split at hfailed
  · rename_i err hp
    exact hstored ((h _ hp).2 nofun)
  · cases hfailed

/-- **A step that is not clean** leads to a state in which the run does not commit together. -/
theorem Invariant.not_together {e : CommitEvent} (h : Invariant dag s) (hclean : ¬ Clean s e)
    (hstep : RunCommits.step dag s e = some s') : ¬ Together dag s' := by
  unfold RunCommits.step at hstep
  cases e with
  | workflow event =>
    dsimp only at hstep
    split_ifs at hstep
    obtain ⟨run, hrun, rfl⟩ := map_eq_some_iff.mp hstep
    cases (dag.step_iff).mp hrun with
    | cursorsFailed hp err | dedupeFailed hp err => exact not_together_of_failed rfl hclean
    | markFailed hp err => exact not_together_of_failed rfl hclean
    | _ => exact absurd trivial hclean
  | cursorsWritten =>
    obtain ⟨cursors, hcursors, rfl⟩ := map_eq_some_iff.mp hstep
    refine not_together_of_failed (Bool.not_eq_false _ ▸ hclean) ?_
    intro hstored
    exact ne_nil_of_requestedCursors h.closed hcursors (congrArg Stored.cursors hstored)
  | keysWritten n =>
    obtain ⟨request, hrequest, rfl⟩ := map_eq_some_iff.mp hstep
    rw [Clean, not_or] at hclean
    refine not_together_of_failed (Bool.not_eq_false _ ▸ hclean.1) ?_
    intro hstored
    apply hclean.2
    intro other hother
    obtain rfl : request = other := some.inj (hrequest.symm.trans hother)
    have hkeys : commitDedupeKeys request.1 request.2 n s.stored.keys = ∅ :=
      congrArg Stored.keys hstored
    exact (Finset.union_eq_empty.mp hkeys).2

/-- **Cursors and keys are committed together under the condition.** In every run in which nothing is
stored when a commit or the marking fails, and nothing is stored after that, the cursors are stored
only together with the keys, and neither is stored unless the run completes. A step that does not meet
the condition leads to a state in which this fails.

Source: `dynamic_dag.go` `DynamicDAGWorkflow`, `activities.go` `CommitSourceCursors`,
`CommitDedupeKeys` -/
theorem together_of_run {es : List CommitEvent}
    (run : Run (RunCommits.step dag) (fun _ => Clean) (start dag) es s) :
    Together dag s ∧ ∀ e s', ¬ Clean s e → RunCommits.step dag s e = some s' →
    ¬ Together dag s' := by
  have h := invariant_of_run run
  exact ⟨h.together, fun e s' hclean hstep => h.not_together hclean hstep⟩

/-! ## A source and a dedupe node -/

/-- A pipeline that remembers the keys of its orders. -/
def exampleDag : DynamicDag where
  info := {}
  request :=
    { tenantId := "tenant"
      definition :=
        { nodes := [{ id := "orders", type := .source },
            { id := "unique", type := .transform, activityType := "transform.dedupe" }]
          edges := [{ source := "orders", target := "unique" }] } }
  ranging := .entries

/-- One page with a cursor, and a record with a new key. -/
def exampleOutcomes : Outcomes :=
  { Outcomes.successful { checkpoint := some [("id", .number 7)] } with
    dispatchNode := fun _ params =>
      .ok (dedupeResult params ⟨[], ⟨"pipeline", "unique", ["hash"]⟩⟩ none 0 1) }

/-- The nodes run. -/
def exampleNodes : List CommitEvent :=
  [.workflow .beginLevel,
    .workflow (.nodeReply 0 (exampleOutcomes.answer { id := "orders", type := .source })),
    .workflow .collect, .workflow .beginLevel,
    .workflow (.nodeReply 0 (exampleOutcomes.answer { id := "unique", type := .transform })),
    .workflow .collect]

/-- Both commits succeed. -/
def bothCommitted : List CommitEvent :=
  exampleNodes ++ [.cursorsWritten, .workflow (.cursorsCommitted (.ok ())), .keysWritten 1,
    .workflow (.dedupeCommitted (.ok ())), .workflow (.marked (.ok ()))]

/-- A run that completes has stored its cursors and its keys. -/
theorem together_of_run_bothCommitted :
    ∃ s, Run (RunCommits.step exampleDag) (fun _ => Clean) (start exampleDag) bothCommitted s ∧
      s.stored.cursors ≠ [] ∧ s.stored.keys ≠ ∅ ∧ Together exampleDag s := by
  obtain ⟨s, hrun, hcursors, hkeys⟩ : ∃ s, Run (RunCommits.step exampleDag) (fun _ => Clean)
      (start exampleDag) bothCommitted s ∧ s.stored.cursors ≠ [] ∧ s.stored.keys ≠ ∅ :=
    exists_run_of_guarded (by decide +kernel)
  exact ⟨s, hrun, hcursors, hkeys, (together_of_run hrun).1⟩

/-- The cursors are stored, and `commitDedupeKeys` fails. -/
def keysRefused : List CommitEvent :=
  exampleNodes ++ [.cursorsWritten, .workflow (.cursorsCommitted (.ok ())),
    .workflow (.dedupeCommitted (.error "connection refused"))]

/-- The run has failed, its cursor is stored, its key is not. -/
theorem cursors_without_keys :
    ∃ s, Run (RunCommits.step exampleDag) Any (start exampleDag) keysRefused s ∧
      s.stored.cursors ≠ [] ∧ s.stored.keys = ∅ ∧ ¬ Together exampleDag s := by
  obtain ⟨s, hrun, hfailed, hcursors, hkeys⟩ : ∃ s, Run (RunCommits.step exampleDag) Any
      (start exampleDag) keysRefused s ∧ failed s = true ∧ s.stored.cursors ≠ [] ∧
        s.stored.keys = ∅ :=
    exists_run_of_check (fun _ _ _ _ => trivial) (by decide +kernel)
  refine ⟨s, hrun, hcursors, hkeys, not_together_of_failed hfailed ?_⟩
  intro hstored
  exact hcursors (congrArg Stored.cursors hstored)

end Dataflow.Activities.RunCommits
