import Dataflow.Api.VersionRuns

/-!
# The production gate

A version gets into production by `createProductionVersion`, which asks for a completed run in the
test environment, and for contracts that do not break those of the active production version. But an
archived production version can be activated again, by `pipelineActivate` as well as by
`pipelineStage`, to which it is a draft; the contracts are not compared then.

* `GateKept`: a production version that replaces another one has been promoted, and its contracts
  do not break those of the other.
* `ReactivationKeepsContracts`: an archived production version that is activated does not break the
  contracts of the active one.
* `gateKept_iff`: **the gate is kept by exactly the operations for which this holds**, in every run
  in which contracts may not be broken.
* `gate_passed_by`: an archived version is activated again and takes a field away.

Source: `routes_pipelines.go`
-/

namespace Dataflow.Api

open Library.Transition Model

variable {env : PipelineEnv} {s s' : PipelineState} {e : PipelineEvent} {es : List PipelineEvent}
  {row P Q : PipelineRow}

/-! ## The gate -/

/-- A version that replaces another one in production has been made by a promotion, and has no
breaks against it. -/
def GateKept (env : PipelineEnv) (s s' : PipelineState) : Prop :=
  ∀ key P Q, activeRow s.rows key "prod" = some P → activeRow s'.rows key "prod" = some Q →
    P.id ≠ Q.id → MadeByPromotion s'.promotions Q ∧
      compareContracts env.ops (extractContracts P.definition) (extractContracts Q.definition) = []

/-- A production version that is activated has no breaks against the active one. -/
def ReactivationKeepsContracts (env : PipelineEnv) (s : PipelineState) (e : PipelineEvent) : Prop :=
  ∀ row, activation s e = some row → row.environment = "prod" →
    ∀ P, activeRow s.rows row.pipelineKey "prod" = some P → P.id ≠ row.id →
      contractBreaks env s row = []

/-- No operation may break contracts. -/
def NeverBreaking (_ : List PipelineEvent) (_ : PipelineState) (e : PipelineEvent) : Prop :=
  e.allowBreakingContract = false

/-! ## What the operations compare -/

theorem contractBreaks_of_active (h : activeRow s.rows row.pipelineKey "prod" = some P) :
    contractBreaks env s row = compareContracts env.ops (extractContracts P.definition)
      (extractContracts row.definition) := by
  rw [contractBreaks, h]

/-- An operation that leaves the active version in production. -/
theorem gateKept_of_activeRow
    (h : ∀ key, activeRow s'.rows key "prod" = activeRow s.rows key "prod") :
    GateKept env s s' := by
  intro key P Q hP hQ hne
  rw [h key, hP] at hQ
  cases hQ
  exact absurd rfl hne

section

variable (hproper : ProperVersions env s)

include hproper

/-- **An activation keeps the gate**, if the version has no breaks. -/
theorem gateKept_activate (hrow : row ∈ s.rows)
    (hkeeps : row.environment = "prod" → ∀ P, activeRow s.rows row.pipelineKey "prod" = some P →
      P.id ≠ row.id → contractBreaks env s row = [])
    (hrows : s'.rows = (s.activate row).rows) (hpromotions : s'.promotions = s.promotions) :
    GateKept env s s' := by
  intro key P Q hP hQ hne
  have hrowProper := hproper.proper row hrow
  rw [hrows, activeRow_activate hproper.ids hrow hrowProper.rowEnvironment] at hQ
  split_ifs at hQ with hkey
  · cases hQ
    obtain ⟨rfl, hprod⟩ := hkey
    constructor
    · rw [hpromotions]
      exact hrowProper.promoted hprod.symm
    · have hnone := hkeeps hprod.symm P hP hne
      rwa [contractBreaks_of_active hP] at hnone
  · rw [hP] at hQ
    cases hQ
    exact absurd rfl hne

/-- **A promotion keeps the gate.** -/
theorem gateKept_promote {newId : String} (hrow : row ∈ s.rows)
    (hgate : promotionGate env s row false = .ok ()) (fresh : newId ∉ s.rows.map PipelineRow.id)
    (hrows : s'.rows = (s.promote row newId).rows)
    (hpromotions : s'.promotions = (s.promote row newId).promotions) : GateKept env s s' := by
  obtain ⟨htest, hcompleted, hbreaks⟩ := of_promotionGate hgate
  intro key P Q hP hQ hne
  rw [hrows, activeRow_promote] at hQ
  split_ifs at hQ with hkey
  · cases hQ
    obtain ⟨rfl, -⟩ := hkey
    constructor
    · rw [hpromotions]
      have hnew : productionRow s row newId ∈ (s.promote row newId).rows :=
        List.mem_append_right _ (List.mem_singleton.mpr rfl)
      exact ((hproper.promote hrow fresh htest hcompleted).proper _ hnew).promoted rfl
    · have hnone := hbreaks rfl
      rw [contractBreaks_of_active hP] at hnone
      exact hnone
  · rw [hP] at hQ
    cases hQ
    exact absurd rfl hne

/-- An operation keeps the gate, if a version that is activated again has no breaks. -/
theorem gateKept_handle (he : e.allowBreakingContract = false)
    (hkeeps : ReactivationKeepsContracts env s e) : GateKept env s (handle env s e) := by
  have heffect : Effect env s e (handle env s e) := handle_effect
  generalize handle env s e = s' at heffect ⊢
  cases heffect with
  | nothing rows =>
    apply gateKept_of_activeRow
    intro key
    rw [rows]
  | created row _ status =>
    apply gateKept_of_activeRow
    intro key
    exact activeRow_append_of_not (not_isActive_of_draft status)
  | activated row activates mem =>
    exact gateKept_activate hproper mem (hkeeps row activates) syncSchedule_rows.1
      syncSchedule_rows.2
  | promoted row newId _ mem gate fresh =>
    rw [he] at gate
    exact gateKept_promote hproper mem gate fresh syncSchedule_rows.1 syncSchedule_rows.2

/-- An activation that keeps the gate has no breaks. -/
theorem keepsContracts_of_gateKept
    (hgate : GateKept env s (handle env s e)) : ReactivationKeepsContracts env s e := by
  intro row hactivation hprod P hP hne
  obtain ⟨hrow, hhandle⟩ : row ∈ s.rows ∧ handle env s e = _ := handle_of_activation hactivation
  have hactive : activeRow (handle env s e).rows row.pipelineKey "prod" = some (activated row) := by
    rw [hhandle, syncSchedule_rows.1, activeRow_activate hproper.ids hrow
      (hproper.proper row hrow).rowEnvironment, if_pos ⟨rfl, hprod.symm⟩]
  obtain ⟨-, hnone⟩ := hgate row.pipelineKey P (activated row) hP hactive hne
  rw [contractBreaks_of_active hP]
  exact hnone

end

/-- **The gate in a run**: after any operations that may not break contracts, the next one keeps the
gate if and only if it does not activate an archived production version that breaks the contracts of
the active one. -/
theorem gateKept_iff (hrun : Run (pipelineStep env) NeverBreaking {} es s)
    (he : e.allowBreakingContract = false) :
    GateKept env s (handle env s e) ↔ ReactivationKeepsContracts env s e := by
  have hproper := properVersions_of_run hrun
  constructor
  · exact keepsContracts_of_gateKept hproper
  · exact gateKept_handle hproper he

/-! ## Two versions in production -/

/-- A definition whose contract has a field more. -/
def extendedPipeline : PipelineDefinition :=
  { contractPipeline (.object [("f", .string "string"), ("g", .string "string")]) with
    id := exampleUuid "0" }

/-- A version is promoted, and then one with a field more is tested. -/
def secondTested : List PipelineEvent :=
  testedVersion "1" objectPipeline ++ [.promote {} (exampleUuid "1") false (exampleUuid "2")] ++
    testedVersion "3" extendedPipeline

/-- The second version is promoted as well. -/
def secondPromotion : PipelineEvent := .promote {} (exampleUuid "3") false (exampleUuid "4")

/-- The first production version goes to testing, as if it were a draft. -/
def firstAgain : PipelineEvent := .stage {} (exampleUuid "2") "testing" false (exampleUuid "5")

/-- The active production version of the example. -/
def activeInProduction (s : PipelineState) : Option PipelineRow :=
  activeRow s.rows (exampleUuid "0") "prod"

/-- The theorem at the second promotion, which replaces the first one. -/
theorem gateKept_iff_secondPromotion :
    ∃ s, Run (pipelineStep plainPipelineEnv) NeverBreaking {} secondTested s ∧
      ((activeInProduction s).map PipelineRow.id = some (exampleUuid "2") ∧
        (activeInProduction (handle plainPipelineEnv s secondPromotion)).map PipelineRow.id =
          some (exampleUuid "4")) ∧
      GateKept plainPipelineEnv s (handle plainPipelineEnv s secondPromotion) := by
  obtain ⟨s, hrun, hactive⟩ : ∃ s, Run (pipelineStep plainPipelineEnv) NeverBreaking {}
      secondTested s ∧
      ((activeInProduction s).map PipelineRow.id = some (exampleUuid "2") ∧
        (activeInProduction (handle plainPipelineEnv s secondPromotion)).map PipelineRow.id =
          some (exampleUuid "4")) :=
    exists_run_of_guarded (by decide +kernel)
  refine ⟨s, hrun, hactive, (gateKept_iff hrun rfl).mpr ?_⟩
  intro row hactivation
  cases hactivation

/-- **The gate is passed by**: after both promotions the first production version goes to testing,
and is the active one in production again; its contract has a field less. -/
theorem gate_passed_by :
    ∃ s, Run (pipelineStep plainPipelineEnv) NeverBreaking {} (secondTested ++ [secondPromotion]) s ∧
      firstAgain.allowBreakingContract = false ∧
      ¬ GateKept plainPipelineEnv s (handle plainPipelineEnv s firstAgain) := by
  obtain ⟨s, hrun, P, hP, Q, hQ, hne, hbreaks⟩ : ∃ s, Run (pipelineStep plainPipelineEnv)
      NeverBreaking {} (secondTested ++ [secondPromotion]) s ∧
      ∃ P ∈ activeInProduction s,
        ∃ Q ∈ activeInProduction (handle plainPipelineEnv s firstAgain), P.id ≠ Q.id ∧
          compareContracts plainPipelineEnv.ops (extractContracts P.definition)
            (extractContracts Q.definition) ≠ [] :=
    exists_run_of_guarded (by decide +kernel)
  refine ⟨s, hrun, rfl, ?_⟩
  intro hgate
  exact hbreaks (hgate (exampleUuid "0") P Q hP hQ hne).2

end Dataflow.Api
