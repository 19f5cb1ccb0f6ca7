import Dataflow.Api.PipelineVersions

/-!
# What holds of the versions of a pipeline

Every version has the key and the number of its definition, and belongs to the test or the
production environment. A version of the production environment comes from a promotion, and stays
what the promotion made it, apart from its status. Each pipeline has one active version at most in
an environment.

* `MadeByPromotion`: the version is what `createProductionVersion` has made of a version with a
  completed run.
* `ProperVersions`: the invariant.
* `properVersions_step`, `properVersions_of_run`: it is kept by every operation, and holds in every
  state that is reached.

Source: `routes_pipelines.go`
-/

namespace Dataflow.Api

open Library.Transition Model List

variable {env : PipelineEnv} {s s' : PipelineState} {e : PipelineEvent} {es : List PipelineEvent}
  {row : PipelineRow} {newId : String}

/-! ## The invariant -/

/-- A promotion has made the version, of a version of the test environment with a completed run. -/
def MadeByPromotion (promotions : List Promotion) (row : PipelineRow) : Prop :=
  ∃ p ∈ promotions, p.rowId = row.id ∧ p.source.pipelineKey = row.pipelineKey ∧
    p.source.environment = "test" ∧ row.promotedFromVersion = some p.source.version ∧
    row.definition = { p.source.definition with version := row.version } ∧
    HasCompletedRun p.executions p.source.id

/-- What holds of a version, whatever its status. -/
structure ProperVersion (env : PipelineEnv) (promotions : List Promotion) (row : PipelineRow) :
    Prop where
  environment : row.environment = "test" ∨ row.environment = "prod"
  key : env.parseUuid row.definition.id = some row.pipelineKey
  version : row.definition.version = row.version
  promoted : row.environment = "prod" → MadeByPromotion promotions row

/-- What holds of the versions. -/
structure ProperVersions (env : PipelineEnv) (s : PipelineState) : Prop where
  ids : (s.rows.map PipelineRow.id).Nodup
  proper : ∀ row ∈ s.rows, ProperVersion env s.promotions row
  unique : ∀ row ∈ s.rows, ∀ other ∈ s.rows, row.status = .active →
    IsActive row.pipelineKey row.environment other → other = row

/-- No versions. -/
theorem properVersions_empty : ProperVersions env {} where
  ids := nodup_nil
  proper _ h := absurd h not_mem_nil
  unique _ h := absurd h not_mem_nil

/-- The invariant looks at the versions and the promotions only. -/
theorem ProperVersions.congr (h : ProperVersions env s) (hrows : s'.rows = s.rows)
    (hpromotions : s'.promotions = s.promotions) : ProperVersions env s' := by
  obtain ⟨ids, proper, unique⟩ := h
  constructor
  · rwa [hrows]
  · rwa [hrows, hpromotions]
  · rwa [hrows]

theorem ProperVersion.setStatus {promotions : List Promotion}
    (h : ProperVersion env promotions row) (status : PipelineStatus) :
    ProperVersion env promotions { row with status := status } :=
  ⟨h.environment, h.key, h.version, h.promoted⟩

/-- Promotions are never taken back. -/
theorem ProperVersion.mono {promotions promotions' : List Promotion}
    (h : ProperVersion env promotions row) (hsub : promotions ⊆ promotions') :
    ProperVersion env promotions' row := by
  refine ⟨h.environment, h.key, h.version, ?_⟩
  intro hprod
  obtain ⟨p, hp, hmade⟩ := h.promoted hprod
  exact ⟨p, hsub hp, hmade⟩

/-- The environment of a version is not empty. -/
theorem ProperVersion.rowEnvironment {promotions : List Promotion}
    (h : ProperVersion env promotions row) : rowEnvironment row = row.environment := by
  unfold Dataflow.Api.rowEnvironment
  rcases h.environment with henv | henv
  · rw [henv, if_neg (by decide)]
  · rw [henv, if_neg (by decide)]

/-- Archiving a version changes its status at most. -/
theorem archive_eq (key environment : String) (row : PipelineRow) :
    ∃ status, archive key environment row = { row with status := status } := by
  unfold archive
  split_ifs
  · exact ⟨_, rfl⟩
  · exact ⟨row.status, rfl⟩

/-- Setting a version active changes its status at most. -/
theorem setActive_eq (rowId : String) (row : PipelineRow) :
    ∃ status, setActive rowId row = { row with status := status } := by
  unfold setActive
  split_ifs
  · exact ⟨_, rfl⟩
  · exact ⟨row.status, rfl⟩

/-- A version after an activation is one from before, apart from its status. -/
theorem mem_activate {row' : PipelineRow} (h : row' ∈ (s.activate row).rows) :
    ∃ old ∈ s.rows, ∃ status, row' = { old with status := status } := by
  obtain ⟨archived, harchived, rfl⟩ := mem_map.mp h
  obtain ⟨old, hold, rfl⟩ := mem_map.mp harchived
  obtain ⟨status, hstatus⟩ := archive_eq row.pipelineKey (rowEnvironment row) old
  rw [hstatus]
  obtain ⟨status', hstatus'⟩ := setActive_eq row.id { old with status := status }
  exact ⟨old, hold, status', hstatus'⟩

/-- An active version after archiving was active before. -/
theorem isActive_of_archive {key key' environment environment' : String}
    (h : IsActive key' environment' (archive key environment row)) :
    archive key environment row = row ∧ IsActive key' environment' row := by
  by_cases hactive : IsActive key environment row
  · have hstatus := h.2.2
    simp [archive, if_pos hactive] at hstatus
  · rw [archive_of_not_isActive hactive] at h ⊢
    exact ⟨rfl, h⟩

/-- A draft is not active. -/
theorem not_isActive_of_draft {key environment : String} (h : row.status = .draft) :
    ¬ IsActive key environment row := by
  intro hactive
  have hstatus := hactive.2.2
  simp [h] at hstatus

/-! ## What an operation keeps -/

/-- The ids stay. -/
theorem ids_activate : (s.activate row).rows.map PipelineRow.id = s.rows.map PipelineRow.id := by
  unfold PipelineState.activate
  rw [map_map, map_map]
  apply map_congr_left
  intro old _
  show (setActive row.id (archive row.pipelineKey (rowEnvironment row) old)).id = old.id
  obtain ⟨status, hstatus⟩ := archive_eq row.pipelineKey (rowEnvironment row) old
  obtain ⟨status', hstatus'⟩ := setActive_eq row.id { old with status := status }
  rw [hstatus, hstatus']

/-- A new draft. -/
theorem ProperVersions.created (h : ProperVersions env s)
    (fresh : row.id ∉ s.rows.map PipelineRow.id) (status : row.status = .draft)
    (environment : row.environment = "test")
    (key : env.parseUuid row.definition.id = some row.pipelineKey)
    (version : row.definition.version = row.version) :
    ProperVersions env { s with rows := s.rows ++ [row] } := by
  constructor
  · have hnodup := h.ids.concat fresh
    rw [concat_eq_append] at hnodup
    rw [map_append]
    exact hnodup
  · intro other hother
    rcases mem_append.mp hother with hold | hnew
    · exact h.proper other hold
    · cases mem_singleton.mp hnew
      refine ⟨.inl environment, key, version, ?_⟩
      intro hprod
      rw [environment] at hprod
      exact absurd hprod (by decide)
  · intro first hfirst other hother hactive hother'
    rcases mem_append.mp hfirst with hold | hnew
    · rcases mem_append.mp hother with hold' | hnew'
      · exact h.unique first hold other hold' hactive hother'
      · cases mem_singleton.mp hnew'
        exact absurd hother' (not_isActive_of_draft status)
    · cases mem_singleton.mp hnew
      exact absurd ⟨rfl, rfl, hactive⟩ (not_isActive_of_draft status)

/-- **An activation** leaves one active version. -/
theorem ProperVersions.activate (h : ProperVersions env s) (hrow : row ∈ s.rows) :
    ProperVersions env (s.activate row) := by
  have henvironment := (h.proper row hrow).rowEnvironment
  constructor
  · rw [ids_activate]
    exact h.ids
  · intro other hother
    obtain ⟨old, hold, status, rfl⟩ := mem_activate hother
    exact (h.proper old hold).setStatus status
  · -- Every active version is the one that is found.
    have hfound : ∀ other ∈ (s.activate row).rows, ∀ key environment,
        IsActive key environment other →
          activeRow (s.activate row).rows key environment = some other := by
      intro other hother key environment hactive
      rw [activeRow_activate h.ids hrow henvironment]
      obtain ⟨archived, harchived, rfl⟩ := mem_map.mp hother
      obtain ⟨old, hold, rfl⟩ := mem_map.mp harchived
      by_cases hid : old.id = row.id
      · cases inj_on_of_nodup_map h.ids hold hrow hid
        rw [setActive_archive] at hactive ⊢
        rw [if_pos ⟨hactive.1.symm, hactive.2.1.symm⟩]
      · have hother : setActive row.id (archive row.pipelineKey (rowEnvironment row) old) =
            archive row.pipelineKey (rowEnvironment row) old :=
          if_neg (by rwa [(archive_fields _ _ old).1])
        rw [hother] at hactive ⊢
        obtain ⟨hsame, hactive'⟩ := isActive_of_archive hactive
        rw [hsame]
        have hne : ¬ (key = row.pipelineKey ∧ environment = row.environment) := by
          rintro ⟨rfl, rfl⟩
          rw [henvironment] at hactive
          exact not_isActive_archive hactive
        rw [if_neg hne]
        apply activeRow_of_unique hold hactive'
        intro third hthird hactive''
        obtain ⟨rfl, rfl, hstatus⟩ := hactive'
        exact h.unique old hold third hthird hstatus hactive''
    intro first hfirst other hother hactive hother'
    have hfirst' := hfound first hfirst _ _ ⟨rfl, rfl, hactive⟩
    have hother'' := hfound other hother _ _ hother'
    exact Option.some.inj (hother''.symm.trans hfirst')

/-- **A promotion** leaves one active version, which it has made. -/
theorem ProperVersions.promote (h : ProperVersions env s) (hrow : row ∈ s.rows)
    (fresh : newId ∉ s.rows.map PipelineRow.id) (htest : row.environment = "test")
    (hcompleted : HasCompletedRun s.executions row.id) :
    ProperVersions env (s.promote row newId) := by
  have hids : (s.rows.map (archive row.pipelineKey "prod")).map PipelineRow.id =
      s.rows.map PipelineRow.id := by
    rw [map_map]
    apply map_congr_left
    intro old _
    exact (archive_fields _ _ old).1
  constructor
  · have hnodup := h.ids.concat fresh
    rw [concat_eq_append] at hnodup
    show ((s.rows.map (archive row.pipelineKey "prod") ++ [productionRow s row newId]).map
      PipelineRow.id).Nodup
    rw [map_append, hids]
    exact hnodup
  · intro other hother
    rcases mem_append.mp hother with harchived | hnew
    · obtain ⟨old, hold, rfl⟩ := mem_map.mp harchived
      obtain ⟨status, hstatus⟩ := archive_eq row.pipelineKey "prod" old
      rw [hstatus]
      exact ((h.proper old hold).setStatus status).mono (subset_append_left _ _)
    · cases mem_singleton.mp hnew
      refine ⟨.inr rfl, (h.proper row hrow).key, rfl, ?_⟩
      intro _
      exact ⟨_, mem_append_right _ (mem_singleton.mpr rfl), rfl, rfl, htest, rfl, rfl, hcompleted⟩
  · have hold : ∀ other ∈ s.rows.map (archive row.pipelineKey "prod"),
        ¬ IsActive row.pipelineKey "prod" other ∧ ∀ key environment, IsActive key environment other →
          other ∈ s.rows := by
      intro other hother
      obtain ⟨old, hold, rfl⟩ := mem_map.mp hother
      refine ⟨not_isActive_archive, ?_⟩
      intro key environment hactive
      rw [(isActive_of_archive hactive).1]
      exact hold
    intro first hfirst other hother hactive hother'
    rcases mem_append.mp hfirst with hfirst | hnew
    · rcases mem_append.mp hother with hother | hnew'
      · exact h.unique first ((hold first hfirst).2 _ _ ⟨rfl, rfl, hactive⟩) other
          ((hold other hother).2 _ _ hother') hactive hother'
      · cases mem_singleton.mp hnew'
        obtain ⟨hkey, henvironment, -⟩ := hother'
        exact absurd ⟨hkey.symm, henvironment.symm, hactive⟩ (hold first hfirst).1
    · cases mem_singleton.mp hnew
      rcases mem_append.mp hother with hother | hnew'
      · exact absurd hother' (hold other hother).1
      · exact mem_singleton.mp hnew'

/-- A version that passes the gate is one of the test environment, with a completed run. -/
theorem of_promotionGate {allow : Bool} (h : promotionGate env s row allow = .ok ()) :
    row.environment = "test" ∧ HasCompletedRun s.executions row.id ∧
      (allow = false → contractBreaks env s row = []) := by
  unfold promotionGate at h
  split_ifs at h with htest hcompleted hbreaks
  refine ⟨not_not.mp htest, hcompleted, ?_⟩
  intro hallow
  by_contra hne
  exact hbreaks ⟨hne, hallow⟩

/-- **Every operation keeps the invariant.** -/
theorem properVersions_step (h : ProperVersions env s) (hstep : pipelineStep env s e = some s') :
    ProperVersions env s' := by
  have heffect : Effect env s e s' := by
    cases hstep
    exact handle_effect
  cases heffect with
  | nothing rows _ promotions => exact h.congr rows promotions
  | created row fresh status environment key version =>
    exact h.created fresh status environment key version
  | activated row _ mem =>
    exact (h.activate mem).congr syncSchedule_rows.1 syncSchedule_rows.2
  | promoted row newId _ mem gate fresh =>
    obtain ⟨htest, hcompleted, -⟩ := of_promotionGate gate
    exact (h.promote mem fresh htest hcompleted).congr syncSchedule_rows.1 syncSchedule_rows.2

/-- **The invariant holds in every state that is reached.** -/
theorem properVersions_of_run {allowed : List PipelineEvent → PipelineState → PipelineEvent → Prop}
    (h : Run (pipelineStep env) allowed {} es s) : ProperVersions env s := by
  apply h.invariant (I := fun _ s => ProperVersions env s)
  · exact properVersions_empty
  · intro _ _ _ _ hproper _ hstep
    exact properVersions_step hproper hstep

/-! ## One pipeline -/

/-- The UUIDs of the examples. -/
def exampleUuid (digit : String) : String := "00000000-0000-4000-8000-00000000000" ++ digit

/-- A build without enterprise checks and with the limits by default. A configuration has the size
of none, of one with a contract of one field, or of one with two. -/
def plainPipelineEnv : PipelineEnv where
  ops := plainContractOps
  enterprise := plainEnterprise
  ranging := plainRanging
  isUuid text := decide (text.length = 36)
  parseUuid text := if text.length = 36 then some text else none
  jsonSize config :=
    if config = [] then 4
    else if config = [("schemaJson", .object [("f", .string "string")])] then 29
    else 42
  limits :=
    { nodes := 500, edges := 1000, fanout := 50, configBytes := 65536, nodePageSize := 100000
      maxParallel := 100 }
  formatValue := formatValue plainContractOps

/-- A version is created, activated in the test environment, and has a completed run there. -/
def testedVersion (digit : String) (definition : PipelineDefinition) : List PipelineEvent :=
  [.create {} "tenant" "user" (exampleUuid "0") (exampleUuid digit) definition,
    .activate {} (exampleUuid digit),
    .executions [{ pipelineId := exampleUuid digit, environment := "test", phase := "completed" }]]

/-- **The active version is found**, in every state that is reached: a version is what the query for
the active one of a key and an environment returns exactly if it is active there. -/
theorem activeRow_eq_some_iff
    {allowed : List PipelineEvent → PipelineState → PipelineEvent → Prop}
    (h : Run (pipelineStep env) allowed {} es s) (key environment : String) :
    activeRow s.rows key environment = some row ↔ row ∈ s.rows ∧ IsActive key environment row := by
  constructor
  · exact isActive_of_activeRow
  · rintro ⟨hrow, hactive⟩
    apply activeRow_of_unique hrow hactive
    obtain ⟨rfl, rfl, hstatus⟩ := hactive
    exact fun other hother => (properVersions_of_run h).unique row hrow other hother hstatus

theorem activeRow_eq_some_iff_tested :
    ∃ s, Run (pipelineStep plainPipelineEnv) Any {} (testedVersion "1" objectPipeline) s ∧
      ∃ row, activeRow s.rows (exampleUuid "0") "test" = some row := by
  obtain ⟨s, hrun, row, hrow⟩ : ∃ s, Run (pipelineStep plainPipelineEnv) Any {}
      (testedVersion "1" objectPipeline) s ∧
      ∃ row ∈ s.rows, IsActive (exampleUuid "0") "test" row :=
    exists_run_of_check (fun _ _ _ _ => trivial) (by decide +kernel)
  exact ⟨s, hrun, row, (activeRow_eq_some_iff hrun _ _).mpr hrow⟩

end Dataflow.Api
