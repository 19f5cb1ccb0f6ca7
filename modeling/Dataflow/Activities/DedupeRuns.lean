import Dataflow.Activities.DedupeKeys
import Mathlib.Data.Fintype.Basic

/-!
# Deduplication across concurrent runs

Runs of one pipeline with a dedupe node of pipeline scope. A run filters its records by the hashes
that are stored when it filters; its own hashes are stored when it commits, which is after all its
nodes have run. Between the two another run may filter the same keys.

* `Dedupe`, `RunState`, `State`, `Event`, `step`: the runs over the table `dedupe_keys`.
* `Exclusive`: no key value is let through by two runs that have completed.
* `Covered`: a run that filters is told which of its hashes are stored, and none of the others is
  one that another run has let through and not stored yet.
* **`exclusive_of_run`**: if every filter step is covered, keys are exclusive in every state
  reached.
* `key_emitted_twice`: two runs that filter before one of them has committed.
-/

set_option linter.unusedSectionVars false

namespace Dataflow.Activities.DedupeRuns

open Connectors Library Library.Transition Model Function Option
  Dataflow.Workflows

/-! ## The code -/

/-- A dedupe node of pipeline scope, and what each run of the pipeline calls its activity with. -/
structure Dedupe (ι : Type) where
  tenantId : String
  pipelineId : String
  nodeId : String
  params : ι → DispatchParams
  tenant : ∀ i, (params i).tenantId = tenantId
  node : ∀ i, (params i).nodeId = nodeId

/-- How a run has ended, if it has. -/
inductive Outcome where
  | running
  | completed
  | failed
  deriving DecidableEq

/-- What a run has done: the records it has let through with the result of its dedupe node, whether
an attempt of its commit has stored its hashes, and its outcome. -/
structure RunState where
  emitted : Option (List JsonMap × NodeResult) := none
  stored : Bool := false
  outcome : Outcome := .running

/-- The table and the runs. -/
structure State (ι : Type) where
  keys : Finset DedupeKey
  run : ι → RunState

/-- What a run does next: an attempt of `DispatchNode` with the replies to its two queries and the
records that `dedupeHandler` has left, an attempt of `CommitDedupeKeys`, or its end. -/
inductive Event (ι : Type) where
  | filter (i : ι) (found : Except String Unit) (query : Except String (List String)) (output : Json)
      (outputRef : Option DataRef) (durationMs recordCount : ℕ)
  | commit (i : ι)
  | complete (i : ι)
  | fail (i : ι)

/-- The hashes of the checkpoint of a result. -/
def resultHashes (result : NodeResult) : List String :=
  (((dedupeCheckpoint result).bind DedupeCheckpoint.ofJson).map DedupeCheckpoint.hashes).getD []

/-- The hashes that a run has let through. -/
def RunState.hashes (run : RunState) : List String :=
  (run.emitted.map fun emitted => resultHashes emitted.2).getD []

/-- The records that a run has let through. -/
def RunState.records (run : RunState) : List JsonMap := (run.emitted.map Prod.fst).getD []

section code

variable {ι : Type} [DecidableEq ι] (digest : List Json → String) (formatting : Formatting)
  (dedupe : Dedupe ι)

/-- The row of a hash. -/
def Dedupe.key (hash : String) : DedupeKey :=
  ⟨dedupe.tenantId, dedupe.pipelineId, dedupe.nodeId, hash⟩

/-- The hash of a record in a run. -/
def Dedupe.hashOf (i : ι) (record : JsonMap) : String :=
  dedupeHash digest (keyFields formatting ((dedupe.params i).config.get "key")) record

/-- The key values of a record in a run. -/
def Dedupe.valuesOf (i : ι) (record : JsonMap) : List Json :=
  keyValues (keyFields formatting ((dedupe.params i).config.get "key")) record

/-- Nothing has happened yet. -/
def start (keys : Finset DedupeKey) : State ι := { keys := keys, run := fun _ => {} }

/-- A run becomes another one. -/
def State.set (s : State ι) (i : ι) (run : RunState) : State ι :=
  { s with run := update s.run i run }

/-- The query delivers stored hashes only. -/
def Delivers (s : State ι) (query : Except String (List String)) : Prop :=
  match query with
  | .ok existing => ∀ hash ∈ existing, dedupe.key hash ∈ s.keys
  | .error _ => True

instance (s : State ι) (query : Except String (List String)) :
    Decidable (Delivers dedupe s query) :=
  match query with
  | .ok existing => inferInstanceAs (Decidable (∀ hash ∈ existing, dedupe.key hash ∈ s.keys))
  | .error _ => inferInstanceAs (Decidable True)

/-- One step. An attempt that fails is repeated, a run commits and completes once it has filtered,
and an attempt to commit may still write when the run has ended.
Source: `activities.go` `DispatchNode`, `CommitDedupeKeys`, `dynamic_dag.go` `DynamicDAGWorkflow` -/
def step (s : State ι) : Event ι → Option (State ι)
  | .filter i found query output outputRef durationMs recordCount =>
    if (s.run i).outcome = .running ∧ (s.run i).emitted = none ∧ Delivers dedupe s query then
      match filterCrossRunDedupe digest formatting (dedupe.params i)
          (found.map fun _ => dedupe.pipelineId) query output with
      | .error _ => some s
      | .ok filtered =>
        some (s.set i { s.run i with emitted := some (filtered.records,
          dedupeResult (dedupe.params i) filtered outputRef durationMs recordCount) })
    else none
  | .commit i =>
    match (s.run i).emitted with
    | none => none
    | some (_, result) =>
      ((dedupeCheckpoint result).bind DedupeCheckpoint.ofJson).map fun checkpoint =>
        { s.set i { s.run i with stored := true } with
          keys := commitDedupeKeys dedupe.tenantId [checkpoint] 1 s.keys }
  | .complete i =>
    if (s.run i).outcome = .running ∧ ((s.run i).emitted = none ∨ (s.run i).stored = true) then
      some (s.set i { s.run i with outcome := .completed })
    else none
  | .fail i =>
    if (s.run i).outcome = .running then some (s.set i { s.run i with outcome := .failed }) else none

/-- **Keys are exclusive**: no key value is let through by two runs that have completed. -/
def Exclusive (s : State ι) : Prop :=
  ∀ i j, i ≠ j → (s.run i).outcome = .completed → (s.run j).outcome = .completed →
    ∀ record ∈ (s.run i).records, ∀ record' ∈ (s.run j).records,
      dedupe.valuesOf formatting i record ≠ dedupe.valuesOf formatting j record'

/-- The run has let the hash through and not stored it yet. -/
def RunState.InFlight (run : RunState) (hash : String) : Prop :=
  run.outcome = .running ∧ run.stored = false ∧ hash ∈ run.hashes

instance (run : RunState) (hash : String) : Decidable (run.InFlight hash) :=
  inferInstanceAs (Decidable (_ ∧ _ ∧ _))

/-- The query has delivered the hash. -/
def Delivered (query : Except String (List String)) (hash : String) : Prop :=
  match query with
  | .ok existing => hash ∈ existing
  | .error _ => True

instance (query : Except String (List String)) (hash : String) : Decidable (Delivered query hash) :=
  match query with
  | .ok existing => inferInstanceAs (Decidable (hash ∈ existing))
  | .error _ => inferInstanceAs (Decidable True)

/-- A run that filters is told which of its hashes are stored, and no other hash of it is in
flight. -/
def Covered (s : State ι) : Event ι → Prop
  | .filter i _ query output _ _ _ => ∀ record ∈ recordsOf output,
      let hash := dedupe.hashOf digest formatting i record
      if dedupe.key hash ∈ s.keys then Delivered query hash
      else ∀ j, j ≠ i → ¬ (s.run j).InFlight hash
  | _ => True

end code

instance {ι : Type} [DecidableEq ι] [Fintype ι] (digest : List Json → String)
    (formatting : Formatting) (dedupe : Dedupe ι) (s : State ι) (e : Event ι) :
    Decidable (Covered digest formatting dedupe s e) :=
  match e with
  | .filter i _ query output _ _ _ => inferInstanceAs (Decidable (∀ record ∈ recordsOf output,
      let hash := dedupe.hashOf digest formatting i record
      if dedupe.key hash ∈ s.keys then Delivered query hash
      else ∀ j, j ≠ i → ¬ (s.run j).InFlight hash))
  | .commit _ | .complete _ | .fail _ => inferInstanceAs (Decidable True)

/-! ## The invariant -/

section steps

variable {ι : Type} [DecidableEq ι] {digest : List Json → String} {formatting : Formatting}
  {dedupe : Dedupe ι} {s s' : State ι} {i j : ι}

/-- What holds of one run. -/
structure Party (digest : List Json → String) (formatting : Formatting) (dedupe : Dedupe ι)
    (keys : Finset DedupeKey) (i : ι) (run : RunState) : Prop where
  records : ∀ record ∈ run.records, dedupe.hashOf digest formatting i record ∈ run.hashes
  checkpoint : ∀ records result, run.emitted = some (records, result) →
    (dedupeCheckpoint result).bind DedupeCheckpoint.ofJson =
      some ⟨dedupe.pipelineId, dedupe.nodeId, run.hashes⟩
  unstored : run.emitted = none → run.stored = false
  stored : run.stored = true → ∀ hash ∈ run.hashes, dedupe.key hash ∈ keys
  completed : run.outcome = .completed → run.emitted = none ∨ run.stored = true

/-- **What holds in every state reached.** -/
structure Invariant (digest : List Json → String) (formatting : Formatting) (dedupe : Dedupe ι)
    (s : State ι) : Prop where
  party : ∀ i, Party digest formatting dedupe s.keys i (s.run i)
  disjoint : ∀ i j, i ≠ j → (s.run i).outcome ≠ .failed → (s.run j).outcome ≠ .failed →
    ∀ hash ∈ (s.run i).hashes, hash ∉ (s.run j).hashes

variable {run : RunState}

/-- A run that has let nothing through has no hashes. -/
theorem hashes_of_none (h : run.emitted = none) : run.hashes = [] := by
  rw [RunState.hashes, h]
  rfl

/-- The hashes of a run that has just filtered. -/
theorem resultHashes_dedupeResult (params : DispatchParams) (filtered : Filtered)
    (outputRef : Option DataRef) (durationMs recordCount : ℕ) :
    resultHashes (dedupeResult params filtered outputRef durationMs recordCount) =
      filtered.checkpoint.hashes := by
  rw [resultHashes, dedupeCheckpoint_dedupeResult]
  rfl

/-- **Keys are exclusive** where the invariant holds. -/
theorem Invariant.exclusive (h : Invariant digest formatting dedupe s) :
    Exclusive formatting dedupe s := by
  intro i j hij hi hj record hrecord record' hrecord' hvalues
  have hhash : dedupe.hashOf digest formatting i record =
      dedupe.hashOf digest formatting j record' :=
    congrArg digest hvalues
  refine h.disjoint i j hij (by rw [hi]; nofun) (by rw [hj]; nofun) _
    ((h.party i).records record hrecord) ?_
  rw [hhash]
  exact (h.party j).records record' hrecord'

/-- More rows do no harm to a run. -/
theorem Party.mono {keys keys' : Finset DedupeKey}
    (h : Party digest formatting dedupe keys i run) (hkeys : keys ⊆ keys') :
    Party digest formatting dedupe keys' i run :=
  { h with stored := fun hstored hash hmem => hkeys (h.stored hstored hash hmem) }

section

variable (h : Invariant digest formatting dedupe s)

include h

/-- **One run moves on.** -/
theorem Invariant.move {keys : Finset DedupeKey}
    (hkeys : s.keys ⊆ keys) (hparty : Party digest formatting dedupe keys i run)
    (hdisjoint : run.outcome ≠ .failed → ∀ j, j ≠ i → (s.run j).outcome ≠ .failed →
      ∀ hash ∈ run.hashes, hash ∉ (s.run j).hashes) :
    Invariant digest formatting dedupe { keys := keys, run := update s.run i run } where
  party j := by
    dsimp only
    by_cases hji : j = i
    · subst hji
      rw [update_self]
      exact hparty
    · rw [update_of_ne hji]
      exact (h.party j).mono hkeys
  disjoint j k hjk hj hk hash hmem hmem' := by
    dsimp only at hj hk hmem hmem'
    by_cases hji : j = i
    · subst hji
      rw [update_self] at hj hmem
      rw [update_of_ne (Ne.symm hjk)] at hk hmem'
      exact hdisjoint hj k (Ne.symm hjk) hk hash hmem hmem'
    · rw [update_of_ne hji] at hj hmem
      by_cases hki : k = i
      · subst hki
        rw [update_self] at hk hmem'
        exact hdisjoint hk j hji hj hash hmem' hmem
      · rw [update_of_ne hki] at hk hmem'
        exact h.disjoint j k hjk hj hk hash hmem hmem'

/-- A run that moves on with the hashes it has. -/
theorem Invariant.keep {keys : Finset DedupeKey}
    (hkeys : s.keys ⊆ keys) (hparty : Party digest formatting dedupe keys i run)
    (hhashes : run.hashes = (s.run i).hashes)
    (houtcome : run.outcome ≠ .failed → (s.run i).outcome ≠ .failed) :
    Invariant digest formatting dedupe { keys := keys, run := update s.run i run } := by
  refine h.move hkeys hparty ?_
  intro hrun j hji hj hash hmem
  rw [hhashes] at hmem
  exact h.disjoint i j (Ne.symm hji) (houtcome hrun) hj hash hmem

/-- A hash that is neither stored nor in flight has not been let through by a run that goes on. -/
theorem Invariant.not_mem_hashes {hash : String}
    (hkey : dedupe.key hash ∉ s.keys) (hflight : ¬ (s.run j).InFlight hash)
    (hfailed : (s.run j).outcome ≠ .failed) : hash ∉ (s.run j).hashes := by
  intro hmem
  cases hstored : (s.run j).stored with
  | true => exact hkey ((h.party j).stored hstored hash hmem)
  | false =>
    cases houtcome : (s.run j).outcome with
    | running => exact hflight ⟨houtcome, hstored, hmem⟩
    | completed =>
      rcases (h.party j).completed houtcome with hnone | hstored'
      · simp [hashes_of_none hnone] at hmem
      · rw [hstored] at hstored'
        cases hstored'
    | failed => exact hfailed houtcome

/-- **What a covered filter lets through** has not been let through by another run that goes on. -/
theorem Invariant.not_mem_of_filter
    {found : Except String Unit} {query : Except String (List String)} {output : Json}
    {outputRef : Option DataRef} {durationMs recordCount : ℕ} {filtered : Filtered}
    (hcovered : Covered digest formatting dedupe s
      (.filter i found query output outputRef durationMs recordCount))
    (hfilter : filterCrossRunDedupe digest formatting (dedupe.params i)
      (found.map fun _ => dedupe.pipelineId) query output = .ok filtered)
    (hji : j ≠ i) (hfailed : (s.run j).outcome ≠ .failed) :
    ∀ hash ∈ filtered.checkpoint.hashes, hash ∉ (s.run j).hashes := by
  intro hash hmem
  obtain ⟨-, -, -, hhashes⟩ := filtered_of_ok hfilter
  obtain ⟨⟨record, hrecord, rfl⟩, existing, rfl, hnew⟩ := hhashes hash hmem
  have hcover := hcovered record hrecord
  dsimp only at hcover
  split_ifs at hcover with hkey
  · exact absurd hcover hnew
  · exact h.not_mem_hashes hkey (hcover j hji) hfailed

end

/-- A run that has just filtered. -/
theorem Party.filter (h : Party digest formatting dedupe s.keys i (s.run i))
    {found : Except String Unit} {query : Except String (List String)} {output : Json}
    {outputRef : Option DataRef} {durationMs recordCount : ℕ} {filtered : Filtered}
    (hrunning : (s.run i).outcome = .running) (hnone : (s.run i).emitted = none)
    (hfilter : filterCrossRunDedupe digest formatting (dedupe.params i)
      (found.map fun _ => dedupe.pipelineId) query output = .ok filtered) :
    Party digest formatting dedupe s.keys i { s.run i with emitted := some (filtered.records,
      dedupeResult (dedupe.params i) filtered outputRef durationMs recordCount) } := by
  obtain ⟨hpipeline, hnode, hrecords, -⟩ := filtered_of_ok hfilter
  have hhashes : RunState.hashes { s.run i with emitted := some (filtered.records,
      dedupeResult (dedupe.params i) filtered outputRef durationMs recordCount) } =
      filtered.checkpoint.hashes := resultHashes_dedupeResult ..
  have hid : dedupe.pipelineId = filtered.checkpoint.pipelineId := by
    cases found with
    | error err => cases hpipeline
    | ok reply => exact Except.ok.inj hpipeline
  have hunstored : (s.run i).stored = false := h.unstored hnone
  constructor
  · rw [hhashes]
    exact hrecords
  · intro records result hemitted
    cases hemitted
    rw [hhashes, hid, ← dedupe.node i, ← hnode]
    exact dedupeCheckpoint_dedupeResult ..
  · exact nofun
  · intro hstored
    simp [hunstored] at hstored
  · intro hcompleted
    simp [hrunning] at hcompleted

/-- A run whose attempt to commit has stored its hashes. -/
theorem Party.commit (h : Party digest formatting dedupe s.keys i (s.run i))
    {records : List JsonMap} {result : NodeResult} {checkpoint : DedupeCheckpoint}
    (hemitted : (s.run i).emitted = some (records, result))
    (hcheckpoint : (dedupeCheckpoint result).bind DedupeCheckpoint.ofJson = some checkpoint) :
    Party digest formatting dedupe (commitDedupeKeys dedupe.tenantId [checkpoint] 1 s.keys) i
      { s.run i with stored := true } where
  records := h.records
  checkpoint := h.checkpoint
  unstored hnone := by
    simp [hemitted] at hnone
  stored _ hash hmem := by
    obtain rfl : checkpoint = ⟨dedupe.pipelineId, dedupe.nodeId, (s.run i).hashes⟩ :=
      some.inj (hcheckpoint.symm.trans (h.checkpoint records result hemitted))
    refine Finset.mem_union_right _ (Finset.mem_union_left _ ?_)
    exact mem_keys.mpr hmem
  completed _ := .inr rfl

/-- **The step lemma.** -/
theorem Invariant.step {e : Event ι} (h : Invariant digest formatting dedupe s)
    (hcovered : Covered digest formatting dedupe s e)
    (hstep : step digest formatting dedupe s e = some s') :
    Invariant digest formatting dedupe s' := by
  unfold DedupeRuns.step at hstep
  cases e with
  | filter i found query output outputRef durationMs recordCount =>
    dsimp only at hstep
    split_ifs at hstep with hguard
    obtain ⟨hrunning, hnone, -⟩ := hguard
    cases hfilter : filterCrossRunDedupe digest formatting (dedupe.params i)
        (found.map fun _ => dedupe.pipelineId) query output with
    | error err =>
      rw [hfilter] at hstep
      cases hstep
      exact h
    | ok filtered =>
      rw [hfilter] at hstep
      cases hstep
      refine h.move subset_rfl ((h.party i).filter hrunning hnone hfilter) ?_
      intro _ j hji hj hash hmem
      refine h.not_mem_of_filter hcovered hfilter hji hj hash ?_
      rwa [RunState.hashes, map_some, getD_some, resultHashes_dedupeResult] at hmem
  | commit i =>
    dsimp only at hstep
    split at hstep
    · cases hstep
    · rename_i records result hemitted
      obtain ⟨checkpoint, hcheckpoint, rfl⟩ := map_eq_some_iff.mp hstep
      exact h.keep (subset_commitDedupeKeys ..) ((h.party i).commit hemitted hcheckpoint) rfl id
  | complete i =>
    dsimp only at hstep
    split_ifs at hstep with hguard
    cases hstep
    refine h.keep subset_rfl { h.party i with completed := fun _ => hguard.2 } rfl ?_
    intro _
    rw [hguard.1]
    exact nofun
  | fail i =>
    dsimp only at hstep
    split_ifs at hstep with hguard
    cases hstep
    refine h.keep subset_rfl { h.party i with completed := nofun } rfl ?_
    intro hfailed
    exact absurd rfl hfailed

/-- The invariant holds at the start. -/
theorem invariant_start (keys : Finset DedupeKey) :
    Invariant digest formatting dedupe (start keys) where
  party i := by
    constructor
    · exact nofun
    · exact nofun
    · exact fun _ => rfl
    · exact nofun
    · exact nofun
  disjoint i j _ _ _ := nofun

end steps

/-! ## Two runs with the same order -/

/-- A digest that keeps lists of one string apart. -/
def exampleDigest : List Json → String
  | [.string text] => text
  | _ => ""

/-- Two runs of a pipeline that keeps one order for each id. -/
def twoRuns : Dedupe Bool where
  tenantId := "tenant"
  pipelineId := "pipeline"
  nodeId := "unique"
  params second :=
    { activityType := "transform.dedupe"
      config := [("key", .string "id"), ("scope", .string "pipeline")]
      inputRef := none
      tenantId := "tenant"
      executionId := if second then "second" else "first"
      nodeId := "unique"
      pipelineVersion := 1
      encryptedDek := "" }
  tenant _ := rfl
  node _ := rfl

/-- The records of a run: one order. -/
def order : Json := .array [.object [("id", .string "o-1")]]

/-- The second run filters when the first one has completed. -/
def oneByOne : List (Event Bool) :=
  [.filter false (.ok ()) (.ok []) order none 0 1, .commit false, .complete false,
    .filter true (.ok ()) (.ok ["o-1"]) order none 0 0, .commit true, .complete true]

/-- Both runs filter before one of them has committed. -/
def bothFilter : List (Event Bool) :=
  [.filter false (.ok ()) (.ok []) order none 0 1, .filter true (.ok ()) (.ok []) order none 0 1,
    .commit false, .complete false, .commit true, .complete true]

end Dataflow.Activities.DedupeRuns
