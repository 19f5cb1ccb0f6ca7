import Dataflow.Api.VersionRuns

/-!
# The schedules of a pipeline

`syncSchedule` runs after a version has become the active one. It replaces the schedule of a version
with a cron trigger, and leaves a schedule that is there when the trigger is another one. What it
makes always starts `DynamicDAGWorkflow`, and it is given the definition that was loaded, which for
a promotion has the number of the version that was promoted.

* `SchedulesFollow`: there is a schedule for a pipeline in an environment exactly when the trigger
  of the active version is cron, and it carries that version.
* `SchedulesMatch`: the invariant: which schedule is there under which id.
* `ActivationFollows`, `PromotionFollows`: when an activation, or a promotion, keeps it.
* `schedulesFollow_iff`: **the schedules follow the active versions exactly as long as every
  operation does this.**
* `schedule_left_behind`: a version without a cron trigger is activated, and the schedule stays.

Source: `temporal.go` `syncSchedule`, `routes_pipelines.go`
-/

namespace Dataflow.Api

open Library.Transition Model List Function Option

variable {env : PipelineEnv} {s s' : PipelineState} {e : PipelineEvent} {es : List PipelineEvent}
  {replies : CallReplies} {row : PipelineRow} {newId : String}

/-! ## Schedules and versions -/

/-- The trigger of the version is cron. -/
def IsCron (row : PipelineRow) : Prop := row.definition.triggerType = "cron"

instance : DecidablePred IsCron := fun _ => inferInstanceAs (Decidable (_ = _))

/-- A schedule of a pipeline in an environment: its id has a text for the key. -/
def HasSchedule (env : PipelineEnv) (s : PipelineState) (key environment : String)
    (schedule : Schedule) : Prop :=
  ∃ text, env.parseUuid text = some key ∧
    s.schedules environment (scheduleId text environment) = some schedule

/-- The schedule has the cron expression, the definition and the row of the version, and starts the
workflow that `fireExecution` starts. -/
structure Carries (schedule : Schedule) (row : PipelineRow) : Prop where
  cronExpressions : schedule.cronExpressions = [row.definition.triggerSchedule]
  definition : schedule.input.definition = row.definition
  pipelineRowId : schedule.input.pipelineRowId = row.id
  workflow : schedule.workflow = workflowName row.definition

/-- The schedules follow the active versions. -/
def SchedulesFollow (env : PipelineEnv) (s : PipelineState) : Prop :=
  ∀ key environment, ((∃ schedule, HasSchedule env s key environment schedule) ↔
      ∃ row, activeRow s.rows key environment = some row ∧ IsCron row) ∧
    ∀ schedule row, HasSchedule env s key environment schedule →
      activeRow s.rows key environment = some row → Carries schedule row

/-- The calls that change schedules succeed. -/
def SchedulesReply (e : PipelineEvent) : Prop := e.calls.deleted = true ∧ e.calls.create = none

/-- A version with a cron trigger has the engine of `DynamicDAGWorkflow`. One that replaces a
version with a cron trigger has one as well, and the same text for the id. -/
def ActivationFollows (s : PipelineState) (row : PipelineRow) : Prop :=
  (IsCron row → workflowName row.definition = "DynamicDAGWorkflow") ∧
    ∀ old, activeRow s.rows row.pipelineKey row.environment = some old → IsCron old →
      IsCron row ∧ old.definition.id = row.definition.id

/-- Neither the version nor the active one has a cron trigger. -/
def PromotionFollows (s : PipelineState) (row : PipelineRow) : Prop :=
  ¬ IsCron row ∧ ∀ old, activeRow s.rows row.pipelineKey "prod" = some old → ¬ IsCron old

/-- What an operation activates or promotes lets the schedules follow. -/
def KeepsSchedules (env : PipelineEnv) (s : PipelineState) (e : PipelineEvent) : Prop :=
  (∀ row, activation s e = some row → ActivationFollows s row) ∧
    ∀ row newId, promotion env s e = some (row, newId) → PromotionFollows s row

/-! ## What the calls leave -/

/-- Two texts have two ids. -/
theorem scheduleId_inj {text text' environment : String} :
    scheduleId text environment = scheduleId text' environment ↔ text = text' := by
  constructor
  · intro h
    have hlist := congrArg String.toList h
    unfold scheduleId at hlist
    rw [String.toList_append, String.toList_append, String.toList_append, String.toList_append,
      String.toList_append, String.toList_append] at hlist
    have hprefix := append_cancel_right (append_cancel_right hlist)
    exact String.toList_inj.mp (append_cancel_left hprefix)
  · intro h
    rw [h]

/-- Without a cron trigger nothing happens. -/
theorem syncSchedule_of_not_cron {definition : PipelineDefinition} {rowId environment : String}
    (h : definition.triggerType ≠ "cron") :
    (syncSchedule replies s definition rowId environment).2 = s := by
  rw [syncSchedule, if_pos h]

/-- With a cron trigger the schedule is replaced. -/
theorem syncSchedule_of_cron {definition : PipelineDefinition} {rowId environment : String}
    (h : definition.triggerType = "cron") (hdeleted : replies.deleted = true)
    (hcreate : replies.create = none) (environment' id : String) :
    (syncSchedule replies s definition rowId environment).2.schedules environment' id =
      if environment' = environment ∧ id = scheduleId definition.id environment then
        some (newSchedule definition rowId environment)
      else s.schedules environment' id := by
  rw [syncSchedule, if_neg (not_not.mpr h)]
  dsimp only
  rw [deleteSchedule, if_pos hdeleted, createSchedule, hcreate]
  unfold PipelineState.setSchedule
  dsimp only
  rw [update_self, update_self]
  dsimp only
  by_cases henvironment : environment' = environment
  · subst henvironment
    rw [update_self, update_idem]
    by_cases hid : id = scheduleId definition.id environment'
    · rw [hid, update_self, if_pos ⟨rfl, rfl⟩]
    · rw [update_of_ne hid, if_neg (fun hboth => hid hboth.2)]
  · rw [update_of_ne henvironment, update_of_ne henvironment,
      if_neg (fun hboth => henvironment hboth.1)]

/-! ## The invariant -/

/-- The schedule of a version. -/
def versionSchedule (row : PipelineRow) (environment : String) : Schedule :=
  { newSchedule row.definition row.id environment with workflow := workflowName row.definition }

/-- The schedule for a text, given the active version. -/
def expectedSchedule (active : Option PipelineRow) (text environment : String) : Option Schedule :=
  match active with
  | some row =>
    if IsCron row ∧ row.definition.id = text then some (versionSchedule row environment) else none
  | none => none

/-- Every schedule is the one of the active version, under the id that its definition has. -/
def SchedulesMatch (env : PipelineEnv) (s : PipelineState) : Prop :=
  ∀ key environment text, env.parseUuid text = some key →
    s.schedules environment (scheduleId text environment) =
      expectedSchedule (activeRow s.rows key environment) text environment

theorem carries_versionSchedule (row : PipelineRow) (environment : String) :
    Carries (versionSchedule row environment) row := ⟨rfl, rfl, rfl, rfl⟩

theorem expectedSchedule_eq_some {active : Option PipelineRow} {text environment : String}
    {schedule : Schedule} : expectedSchedule active text environment = some schedule ↔
      ∃ row, active = some row ∧ IsCron row ∧ row.definition.id = text ∧
        versionSchedule row environment = schedule := by
  unfold expectedSchedule
  cases active with
  | none => simp
  | some row => simp [and_assoc]

/-- Without a cron trigger there is no schedule. -/
theorem expectedSchedule_of_not_cron {active : Option PipelineRow} {text environment : String}
    (h : ∀ row, active = some row → ¬ IsCron row) :
    expectedSchedule active text environment = none := by
  rw [eq_none_iff_forall_ne_some]
  intro schedule hschedule
  obtain ⟨row, hactive, hcron, -⟩ := expectedSchedule_eq_some.mp hschedule
  exact h row hactive hcron

/-- No versions, no schedules. -/
theorem schedulesMatch_empty : SchedulesMatch env {} := by
  intro key environment text _
  rfl

theorem SchedulesMatch.congr (h : SchedulesMatch env s) (hactive : ∀ key environment,
      activeRow s'.rows key environment = activeRow s.rows key environment)
    (hschedules : s'.schedules = s.schedules) : SchedulesMatch env s' := by
  intro key environment text htext
  rw [hschedules, hactive, h key environment text htext]

/-- **The invariant gives what the schedules should be.** -/
theorem schedulesFollow_of_match (hproper : ProperVersions env s) (h : SchedulesMatch env s) :
    SchedulesFollow env s := by
  intro key environment
  constructor
  · constructor
    · rintro ⟨schedule, text, htext, hschedule⟩
      rw [h key environment text htext] at hschedule
      obtain ⟨row, hactive, hcron, -⟩ := expectedSchedule_eq_some.mp hschedule
      exact ⟨row, hactive, hcron⟩
    · rintro ⟨row, hactive, hcron⟩
      obtain ⟨hmem, hkey, -⟩ := isActive_of_activeRow hactive
      have htext := (hproper.proper row hmem).key
      rw [hkey] at htext
      refine ⟨versionSchedule row environment, row.definition.id, htext, ?_⟩
      rw [h key environment _ htext]
      exact expectedSchedule_eq_some.mpr ⟨row, hactive, hcron, rfl, rfl⟩
  · rintro schedule row ⟨text, htext, hschedule⟩ hactive
    rw [h key environment text htext] at hschedule
    obtain ⟨found, hfound, -, -, rfl⟩ := expectedSchedule_eq_some.mp hschedule
    rw [hactive] at hfound
    cases hfound
    exact carries_versionSchedule row environment

/-! ## What keeps the invariant -/

/-- A version without a cron trigger replaces another one, or none. -/
theorem SchedulesMatch.replace_of_not_cron {key₀ environment₀ : String} (h : SchedulesMatch env s)
    (hactive : ∀ key environment, activeRow s'.rows key environment =
      if key = key₀ ∧ environment = environment₀ then some row
      else activeRow s.rows key environment)
    (hschedules : s'.schedules = s.schedules) (hrow : ¬ IsCron row)
    (hold : ∀ old, activeRow s.rows key₀ environment₀ = some old → ¬ IsCron old) :
    SchedulesMatch env s' := by
  intro key environment text htext
  rw [hschedules, hactive, h key environment text htext]
  split_ifs with hkey
  · obtain ⟨rfl, rfl⟩ := hkey
    rw [expectedSchedule_of_not_cron hold, expectedSchedule_of_not_cron]
    intro found hfound
    cases hfound
    exact hrow
  · rfl

/-- **An activation** keeps the invariant. -/
theorem SchedulesMatch.activate (h : SchedulesMatch env s) (hproper : ProperVersions env s)
    (hrow : row ∈ s.rows) (hdeleted : replies.deleted = true) (hcreate : replies.create = none)
    (hfollows : ActivationFollows s row) :
    SchedulesMatch env
      (syncSchedule replies (s.activate row) row.definition row.id (rowEnvironment row)).2 := by
  obtain ⟨hworkflow, hreplaces⟩ := hfollows
  have hrowProper := hproper.proper row hrow
  have henvironment := hrowProper.rowEnvironment
  by_cases hcron : IsCron row
  · intro key environment text htext
    rw [syncSchedule_of_cron hcron hdeleted hcreate, syncSchedule_rows.1,
      activeRow_activate hproper.ids hrow henvironment, henvironment]
    by_cases hkey : key = row.pipelineKey ∧ environment = row.environment
    · rw [if_pos hkey]
      obtain ⟨rfl, rfl⟩ := hkey
      by_cases hid : row.definition.id = text
      · subst hid
        rw [if_pos ⟨rfl, rfl⟩]
        refine (expectedSchedule_eq_some.mpr ⟨activated row, rfl, hcron, rfl, ?_⟩).symm
        show ({ newSchedule row.definition row.id row.environment with
          workflow := workflowName row.definition } : Schedule) = _
        rw [hworkflow hcron]
        rfl
      · -- No other text for the id has a schedule.
        rw [if_neg (fun hboth => hid (scheduleId_inj.mp hboth.2).symm)]
        show s.schedules _ _ = _
        rw [h _ _ _ htext, expectedSchedule, if_neg (fun hboth => hid hboth.2)]
        rw [eq_none_iff_forall_ne_some]
        intro schedule hschedule
        obtain ⟨old, hactive, hold, htextOld, -⟩ := expectedSchedule_eq_some.mp hschedule
        exact hid ((hreplaces old hactive hold).2.symm.trans htextOld)
    · rw [if_neg hkey, if_neg]
      · exact h key environment text htext
      · rintro ⟨rfl, hid⟩
        cases scheduleId_inj.mp hid
        rw [hrowProper.key] at htext
        exact hkey ⟨(some.inj htext).symm, rfl⟩
  · rw [syncSchedule_of_not_cron hcron]
    have hactive : ∀ key environment, activeRow (s.activate row).rows key environment =
        if key = row.pipelineKey ∧ environment = row.environment then some (activated row)
        else activeRow s.rows key environment := by
      intro key environment
      exact activeRow_activate hproper.ids hrow henvironment
    apply h.replace_of_not_cron hactive rfl hcron
    intro old hold hcronOld
    exact hcron (hreplaces old hold hcronOld).1

/-- **A promotion** keeps the invariant. -/
theorem SchedulesMatch.promote (h : SchedulesMatch env s) (hfollows : PromotionFollows s row) :
    SchedulesMatch env (syncSchedule replies (s.promote row newId) row.definition newId "prod").2 := by
  rw [syncSchedule_of_not_cron hfollows.1]
  have hactive : ∀ key environment, activeRow (s.promote row newId).rows key environment =
      if key = row.pipelineKey ∧ environment = "prod" then some (productionRow s row newId)
      else activeRow s.rows key environment := by
    intro key environment
    exact activeRow_promote
  exact h.replace_of_not_cron hactive rfl hfollows.1 hfollows.2

/-- **An operation** that meets the condition keeps the invariant. -/
theorem SchedulesMatch.handle (h : SchedulesMatch env s) (hproper : ProperVersions env s)
    (hreply : SchedulesReply e) (hkeeps : KeepsSchedules env s e) :
    SchedulesMatch env (handle env s e) := by
  have heffect : Effect env s e (Dataflow.Api.handle env s e) := handle_effect
  generalize Dataflow.Api.handle env s e = s' at heffect ⊢
  cases heffect with
  | nothing rows schedules =>
    refine h.congr ?_ schedules
    intro key environment
    rw [rows]
  | created row _ status =>
    refine h.congr ?_ rfl
    intro key environment
    exact activeRow_append_of_not (not_isActive_of_draft status)
  | activated row activates mem =>
    exact h.activate hproper mem hreply.1 hreply.2 (hkeeps.1 row activates)
  | promoted row newId promotes => exact h.promote (hkeeps.2 row newId promotes)

/-- **The invariant holds in every state that is reached.** -/
theorem schedulesMatch_of_run
    (hrun : Run (pipelineStep env) (fun _ s e => SchedulesReply e ∧ KeepsSchedules env s e) {} es s) :
    SchedulesMatch env s := by
  have hboth : ProperVersions env s ∧ SchedulesMatch env s := by
    apply hrun.invariant (I := fun _ s => ProperVersions env s ∧ SchedulesMatch env s)
    · exact ⟨properVersions_empty, schedulesMatch_empty⟩
    · rintro _ s e s' ⟨hproper, hmatch⟩ ⟨hreply, hkeeps⟩ hstep
      refine ⟨properVersions_step hproper hstep, ?_⟩
      cases hstep
      exact hmatch.handle hproper hreply hkeeps
  exact hboth.2

/-! ## What breaks it -/

/-- The schedule of the active version stays under its id, when the id is not that of a new one. -/
theorem hasSchedule_old {key environment : String} {old : PipelineRow} (h : SchedulesMatch env s)
    (hproper : ProperVersions env s) (hactive : activeRow s.rows key environment = some old)
    (hcron : IsCron old)
    (hschedules : s'.schedules environment (scheduleId old.definition.id environment) =
      s.schedules environment (scheduleId old.definition.id environment)) :
    HasSchedule env s' key environment (versionSchedule old environment) := by
  obtain ⟨hmem, hkey, -⟩ := isActive_of_activeRow hactive
  have htext := (hproper.proper old hmem).key
  rw [hkey] at htext
  refine ⟨old.definition.id, htext, ?_⟩
  rw [hschedules, h key environment _ htext]
  exact expectedSchedule_eq_some.mpr ⟨old, hactive, hcron, rfl, rfl⟩

/-- A version without a cron trigger cannot replace one with a cron trigger. -/
theorem not_follow_of_not_cron {key environment : String} {old : PipelineRow}
    (h : SchedulesMatch env s) (hproper : ProperVersions env s)
    (hold : activeRow s.rows key environment = some old) (hcron : IsCron old)
    (hschedules : s'.schedules = s.schedules)
    (hactive : activeRow s'.rows key environment = some row) (hrow : ¬ IsCron row) :
    ¬ SchedulesFollow env s' := by
  intro hfollow
  have hschedule : HasSchedule env s' key environment (versionSchedule old environment) := by
    apply hasSchedule_old h hproper hold hcron
    rw [hschedules]
  obtain ⟨found, hfound, hfoundCron⟩ := (hfollow key environment).1.mp ⟨_, hschedule⟩
  rw [hactive] at hfound
  cases hfound
  exact hrow hfoundCron

/-- An activation after which the schedules follow meets the condition. -/
theorem activationFollows_of_follow (h : SchedulesMatch env s) (hproper : ProperVersions env s)
    (hreply : SchedulesReply e) (hactivation : activation s e = some row)
    (hfollow : SchedulesFollow env (handle env s e)) : ActivationFollows s row := by
  obtain ⟨hmem, hhandle⟩ : row ∈ s.rows ∧ handle env s e = _ := handle_of_activation hactivation
  have hrowProper := hproper.proper row hmem
  have hactive : activeRow (handle env s e).rows row.pipelineKey row.environment =
      some (activated row) := by
    rw [hhandle, syncSchedule_rows.1, activeRow_activate hproper.ids hmem hrowProper.rowEnvironment,
      if_pos ⟨rfl, rfl⟩]
  rw [hrowProper.rowEnvironment] at hhandle
  constructor
  · intro hcron
    have hschedule : HasSchedule env (handle env s e) row.pipelineKey row.environment
        (newSchedule row.definition row.id row.environment) := by
      refine ⟨row.definition.id, hrowProper.key, ?_⟩
      rw [hhandle, syncSchedule_of_cron hcron hreply.1 hreply.2, if_pos ⟨rfl, rfl⟩]
    exact ((hfollow _ _).2 _ _ hschedule hactive).workflow.symm
  · intro old hold hcronOld
    by_cases hcron : IsCron row
    · refine ⟨hcron, ?_⟩
      by_contra hid
      have hschedule : HasSchedule env (handle env s e) row.pipelineKey row.environment
          (versionSchedule old row.environment) := by
        apply hasSchedule_old h hproper hold hcronOld
        rw [hhandle, syncSchedule_of_cron hcron hreply.1 hreply.2,
          if_neg (fun hboth => hid (scheduleId_inj.mp hboth.2))]
        rfl
      have hdefinition := ((hfollow _ _).2 _ _ hschedule hactive).definition
      exact hid (congrArg PipelineDefinition.id hdefinition)
    · refine absurd hfollow (not_follow_of_not_cron h hproper hold hcronOld ?_ hactive hcron)
      rw [hhandle, syncSchedule_of_not_cron hcron]
      rfl

/-- A promotion after which the schedules follow meets the condition. -/
theorem promotionFollows_of_follow (h : SchedulesMatch env s) (hproper : ProperVersions env s)
    (hreply : SchedulesReply e) (hpromotion : promotion env s e = some (row, newId))
    (hfollow : SchedulesFollow env (handle env s e)) : PromotionFollows s row := by
  obtain ⟨hmem, hhandle⟩ := handle_of_promotion hpromotion
  have hrowProper := hproper.proper row hmem
  have hactive : activeRow (handle env s e).rows row.pipelineKey "prod" =
      some (productionRow s row newId) := by
    rw [hhandle, syncSchedule_rows.1, activeRow_promote, if_pos ⟨rfl, rfl⟩]
  have hnot : ¬ IsCron row := by
    intro hcron
    have hschedule : HasSchedule env (handle env s e) row.pipelineKey "prod"
        (newSchedule row.definition newId "prod") := by
      refine ⟨row.definition.id, hrowProper.key, ?_⟩
      rw [hhandle, syncSchedule_of_cron hcron hreply.1 hreply.2, if_pos ⟨rfl, rfl⟩]
    have hdefinition := ((hfollow _ _).2 _ _ hschedule hactive).definition
    -- The definition has the number of the version that is promoted, which is an older one.
    have hversion : row.definition.version = nextVersion s.rows row.pipelineKey :=
      congrArg PipelineDefinition.version hdefinition
    rw [hrowProper.version] at hversion
    exact absurd (version_lt_nextVersion hmem) (by omega)
  refine ⟨hnot, ?_⟩
  intro old hold hcronOld
  refine not_follow_of_not_cron h hproper hold hcronOld ?_ hactive hnot hfollow
  rw [hhandle, syncSchedule_of_not_cron hnot]
  rfl

/-- **The schedules in a run**: after operations that meet the condition and whose calls succeed,
the schedules follow the active versions, and they do so after the next operation if and only if it
meets the condition. -/
theorem schedulesFollow_iff
    (hrun : Run (pipelineStep env) (fun _ s e => SchedulesReply e ∧ KeepsSchedules env s e) {} es s)
    (hreply : SchedulesReply e) :
    SchedulesFollow env s ∧ (SchedulesFollow env (handle env s e) ↔ KeepsSchedules env s e) := by
  have hproper := properVersions_of_run hrun
  have hmatch := schedulesMatch_of_run hrun
  refine ⟨schedulesFollow_of_match hproper hmatch, ?_⟩
  constructor
  · intro hfollow
    constructor
    · intro row hactivation
      exact activationFollows_of_follow hmatch hproper hreply hactivation hfollow
    · intro row newId hpromotion
      exact promotionFollows_of_follow hmatch hproper hreply hpromotion hfollow
  · intro hkeeps
    have hproper' : ProperVersions env (handle env s e) := properVersions_step hproper rfl
    exact schedulesFollow_of_match hproper' (hmatch.handle hproper hreply hkeeps)

/-! ## A cron trigger that goes -/

/-- A definition with a cron trigger. -/
def cronPipeline : PipelineDefinition :=
  { objectPipeline with
    id := exampleUuid "0"
    triggerType := "cron"
    triggerSchedule := "0 * * * *" }

/-- The first version has a cron trigger. -/
def createCron : PipelineEvent :=
  .create {} "tenant" "user" (exampleUuid "0") (exampleUuid "1") cronPipeline

/-- The row of the first version. -/
def cronRow : PipelineRow where
  id := exampleUuid "1"
  pipelineKey := exampleUuid "0"
  version := 1
  tenantId := "tenant"
  name := "orders"
  definition := { cronPipeline with version := 1, tenantId := "tenant" }
  createdBy := some "user"

/-- The first version is activated. -/
def activateCron : PipelineEvent := .activate {} (exampleUuid "1")

/-- The second version has no cron trigger; it is activated as well. -/
def manualAfterCron : List PipelineEvent :=
  [createCron, activateCron, .create {} "tenant" "user" (exampleUuid "0") (exampleUuid "2")
      { objectPipeline with id := exampleUuid "0" },
    .activate {} (exampleUuid "2")]

/-- The theorem at the activation of the first version. -/
theorem schedulesFollow_iff_activateCron : ∃ s, Run (pipelineStep plainPipelineEnv)
      (fun _ s e => SchedulesReply e ∧ KeepsSchedules plainPipelineEnv s e) {} [createCron] s ∧
      SchedulesFollow plainPipelineEnv (handle plainPipelineEnv s activateCron) := by
  obtain ⟨s, hrun, hactivation, hactive⟩ : ∃ s, Run (pipelineStep plainPipelineEnv)
      (fun _ _ e => e = createCron) {} [createCron] s ∧
      activation s activateCron = some cronRow ∧
        activeRow s.rows cronRow.pipelineKey cronRow.environment = none :=
    exists_run_of_check (fun e he _ _ => mem_singleton.mp he) (by decide +kernel)
  have hallowed : Run (pipelineStep plainPipelineEnv)
      (fun _ s e => SchedulesReply e ∧ KeepsSchedules plainPipelineEnv s e) {} [createCron] s := by
    apply hrun.mono
    rintro _ s e rfl
    refine ⟨⟨rfl, rfl⟩, ?_, ?_⟩
    · intro row h
      cases h
    · intro row newId h
      cases h
  refine ⟨s, hallowed, ((schedulesFollow_iff hallowed ⟨rfl, rfl⟩).2).mpr ?_⟩
  constructor
  · intro row hrow
    rw [hactivation] at hrow
    cases hrow
    refine ⟨fun _ => rfl, ?_⟩
    intro old hold
    rw [hactive] at hold
    cases hold
  · intro row newId h
    cases h

/-- **The schedule stays**: after a version without a cron trigger has been activated, the schedule
of the one before it is still there, and every call has succeeded. -/
theorem schedule_left_behind :
    ∃ s, Run (pipelineStep plainPipelineEnv) (fun _ _ e => SchedulesReply e) {} manualAfterCron s ∧
      ¬ SchedulesFollow plainPipelineEnv s := by
  obtain ⟨s, hrun, hschedule, row, hactive, hcron⟩ : ∃ s, Run (pipelineStep plainPipelineEnv)
      (fun _ _ e => e.calls.deleted = true ∧ e.calls.create = none) {} manualAfterCron s ∧
      (s.schedules "test" (scheduleId (exampleUuid "0") "test")).isSome ∧
        ∃ row ∈ activeRow s.rows (exampleUuid "0") "test", ¬ IsCron row :=
    exists_run_of_guarded (by decide +kernel)
  refine ⟨s, hrun, ?_⟩
  intro hfollow
  obtain ⟨schedule, hschedule⟩ := isSome_iff_exists.mp hschedule
  obtain ⟨found, hfound, hfoundCron⟩ :=
    (hfollow (exampleUuid "0") "test").1.mp ⟨schedule, exampleUuid "0", by decide, hschedule⟩
  cases hactive.symm.trans hfound
  exact hcron hfoundCron

end Dataflow.Api
