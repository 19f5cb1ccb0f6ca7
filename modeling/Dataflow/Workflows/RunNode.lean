import Mathlib.Data.List.AList
import Dataflow.Library.Coroutine
import Dataflow.Workflows.BuildPlan

/-!
# `runNode`: one node of a run

`runNode` decides whether the node runs, evaluates the conditions of its in-edges, chooses its
input and calls the activity of the node. In the workflow it is a coroutine: it reads the shared
result map, waits for activities and reads the map again.

* `NodeCall`, `NodeReply`: the activities a node calls and what they give back.
* `runSource`, `runNode`: the code, as coroutines over the result map.
* `Outcomes`: an assignment of activity outcomes to nodes and inputs. `EvalEdgeCondition` is
  modelled up to reading the payload: without an input reference it is true.
* `sourceResult`, `nodeResult`: what the node comes to, stated without coroutines: the recursive
  evaluation. `eval_runNode` says that running `runNode` to its end gives this.
* `stableUnder_runNode`: a node reads the result map at the sources of its in-edges only.
* `atMost_runNode`: a bound on the activities a node calls.
-/

namespace Dataflow.Workflows

open Model Library List

/-! ## Results -/

/-- `state.Results`: one result per node id. -/
abbrev Results := AList fun _ : String => NodeResult

/-- `results[id].OutputRef`: nil for an absent result. -/
def Results.outputRef (results : Results) (id : String) : Option DataRef :=
  (results.lookup id).bind NodeResult.outputRef

/-- `upstream, ok := results[id]; ok && upstream.Status == "success"`. -/
def Results.succeeded (results : Results) (id : String) : Bool :=
  (results.lookup id).any fun result => result.status = .success

/-- Source: `dynamic_dag.go` `skipped`. -/
def skipped (nodeId : String) : NodeResult :=
  { nodeId := nodeId, status := .skipped, metadata := [("durationMs", .number 0)] }

/-- Source: `dynamic_dag.go` `failed`. -/
def failed (nodeId : String) (err : String) : NodeResult :=
  { nodeId := nodeId, status := .failed, error := err, metadata := [("durationMs", .number 0)] }

/-- Source: `dynamic_dag.go` `defaultString`. -/
def defaultString (value fallback : String) : String := if value = "" then fallback else value

/-! ## Activities -/

/-- Source: `activities.go` `FetchSourceParams`. -/
structure FetchSourceParams where
  activityType : String
  config : JsonMap
  ingestion : Option IngestionConfig
  tenantId : String
  connectionId : String
  executionId : String
  nodeId : String
  cursor : Option JsonMap
  encryptedDek : String

/-- What `runSource` reads of a `FetchSourceResult`. -/
structure SourcePage where
  outputRef : Option DataRef := none
  hasMore : Bool := false
  recordCount : ℤ := 0
  checkpoint : Option JsonMap := none

/-- Source: `activities.go` `EdgeConditionParams`. -/
structure EdgeConditionParams where
  condition : String
  inputRef : Option DataRef
  encryptedDek : String

/-- Source: `activities.go` `MergeParams`. -/
structure MergeParams where
  inputRefs : List DataRef
  strategy : String
  joinKey : String := ""
  tenantId : String
  executionId : String
  nodeId : String
  encryptedDek : String

/-- Source: `activities.go` `DispatchParams`. -/
structure DispatchParams where
  activityType : String
  config : JsonMap
  inputRef : Option DataRef
  tenantId : String
  executionId : String
  nodeId : String
  pipelineVersion : ℤ
  encryptedDek : String

/-- The activities a node calls. -/
inductive NodeCall where
  | fetchSourcePage (params : FetchSourceParams)
  | evalEdgeCondition (params : EdgeConditionParams)
  | mergeRefs (params : MergeParams)
  | dispatchNode (params : DispatchParams)

/-- What an activity gives back after its retries: a value or the text of its error. -/
abbrev NodeReply : NodeCall → Type
  | .fetchSourcePage _ => Except String SourcePage
  | .evalEdgeCondition _ => Except String Bool
  | .mergeRefs _ => Except String NodeResult
  | .dispatchNode _ => Except String NodeResult

/-- A node in progress. -/
abbrev NodeCoroutine := Coroutine NodeCall NodeReply Results NodeResult

/-! ## Sources -/

/-- Source: `dynamic_dag.go` `sourceConnectionID`. -/
def sourceConnectionID (pipelineId : String) (node : Node) : String :=
  pipelineId ++ ":" ++ node.id
    ++ (if JsonMap.get node.config "syncMode" = .string "cdc" then ":cdc" else "")
    ++ (match node.ingestion with
      | some ingestion => if ingestion.stateKey ≠ "" then ":" ++ ingestion.stateKey else ""
      | none => "")

/-- The variables of the page loop of `runSource`. -/
structure SourceProgress where
  total : ℤ := 0
  refs : List DataRef := []
  checkpoint : Option JsonMap := none

/-- The assignments the loop body makes after a page has arrived. -/
def SourceProgress.add (progress : SourceProgress) (page : SourcePage) : SourceProgress where
  total := progress.total + page.recordCount
  refs := progress.refs ++ page.outputRef.toList
  checkpoint := page.checkpoint.orElse fun _ => progress.checkpoint

/-- Pages `runSource` reads before it gives up. -/
def maxSourcePages : ℕ := 50

def tooManyPages : String :=
  "source partition exceeded 50 pages; reduce backfill partition size or increase pageSize"

/-- The parameters of `fetchSourcePage` for the next page. -/
def fetchParams (input : WorkflowInput) (node : Node) (progress : SourceProgress) :
    FetchSourceParams where
  activityType := node.activityType
  config := node.config
  ingestion := node.ingestion
  tenantId := input.tenantId
  connectionId := sourceConnectionID input.definition.id node
  executionId := input.executionId
  nodeId := node.id
  cursor := progress.checkpoint
  encryptedDek := input.encryptedDek

/-- The parameters of `mergeRefs` for the pages of a source. -/
def mergePagesParams (input : WorkflowInput) (node : Node) (progress : SourceProgress) :
    MergeParams where
  inputRefs := progress.refs
  strategy := "concat"
  tenantId := input.tenantId
  executionId := input.executionId
  nodeId := node.id
  encryptedDek := input.encryptedDek

/-- The result of a source whose pages are read and merged. -/
def sourceSuccess (input : WorkflowInput) (node : Node) (progress : SourceProgress)
    (outputRef : Option DataRef) : NodeResult where
  nodeId := node.id
  status := .success
  outputRef := outputRef
  metadata := [("durationMs", .number 0), ("recordCount", .number progress.total)] ++
    match progress.checkpoint with
    | some checkpoint => [("checkpoint", .object checkpoint),
        ("connectionId", .string (sourceConnectionID input.definition.id node))]
    | none => []

/-- The part of `runSource` after the page loop. -/
def finishSource (input : WorkflowInput) (node : Node) (progress : SourceProgress) :
    NodeCoroutine :=
  match progress.refs with
  | [] => .done (sourceSuccess input node progress none)
  | [ref] => .done (sourceSuccess input node progress (some ref))
  | _ :: _ :: _ =>
    .await (.mergeRefs (mergePagesParams input node progress)) fun reply _ =>
      match reply with
      | .error err => .done (failed node.id err)
      | .ok merged => .done (sourceSuccess input node progress merged.outputRef)

/-- The body of the page loop once the page has arrived; `more` is the rest of the loop. -/
def afterPage (input : WorkflowInput) (node : Node) (progress : SourceProgress)
    (more : SourceProgress → NodeCoroutine) : Except String SourcePage → NodeCoroutine
  | .error err => .done (failed node.id err)
  | .ok page =>
    let progress := progress.add page
    if page.hasMore then more progress else finishSource input node progress

/-- The page loop of `runSource`; `pagesLeft` pages may follow this one. -/
def readPages (input : WorkflowInput) (node : Node) : ℕ → SourceProgress → NodeCoroutine
  | 0, progress =>
    .await (.fetchSourcePage (fetchParams input node progress)) fun reply _ =>
      afterPage input node progress (fun _ => .done (failed node.id tooManyPages)) reply
  | pagesLeft + 1, progress =>
    .await (.fetchSourcePage (fetchParams input node progress)) fun reply _ =>
      afterPage input node progress (readPages input node pagesLeft) reply

/-- Source: `dynamic_dag.go` `runSource`. -/
def runSource (input : WorkflowInput) (node : Node) : NodeCoroutine :=
  readPages input node (maxSourcePages - 1) {}

/-! ## Nodes -/

/-- The references the sources of the in-edges left, in edge order. -/
def upstreamRefs (inEdges : List Edge) (results : Results) : List DataRef :=
  inEdges.filterMap fun edge => results.outputRef edge.source

/-- `refs[0]`, or the trigger payload when there is no reference. -/
def inputRef (input : WorkflowInput) (refs : List DataRef) : Option DataRef :=
  match refs with
  | ref :: _ => some ref
  | [] => input.trigger.payloadRef

/-- The parameters of `mergeRefs` for a merge node. -/
def mergeParams (input : WorkflowInput) (node : Node) (refs : List DataRef) : MergeParams where
  inputRefs := refs
  strategy := defaultString node.mergeStrategy "concat"
  joinKey := node.joinKey
  tenantId := input.tenantId
  executionId := input.executionId
  nodeId := node.id
  encryptedDek := input.encryptedDek

/-- The parameters of `dispatchNode`. -/
def dispatchParams (input : WorkflowInput) (node : Node) (refs : List DataRef) :
    DispatchParams where
  activityType := node.activityType
  config := node.config
  inputRef := inputRef input refs
  tenantId := input.tenantId
  executionId := input.executionId
  nodeId := node.id
  pipelineVersion := input.definition.version
  encryptedDek := input.encryptedDek

/-- `result, err := activity.Get(); if err != nil { return failed(...) }`. -/
def settle (node : Node) : Except String NodeResult → NodeResult
  | .error err => failed node.id err
  | .ok result => result

/-- The result of a fork. -/
def forkResult (input : WorkflowInput) (node : Node) (refs : List DataRef) : NodeResult where
  nodeId := node.id
  status := .success
  outputRef := inputRef input refs
  metadata := [("durationMs", .number 0)]

/-- The part of `runNode` after the conditions. -/
def runBody (input : WorkflowInput) (node : Node) (inEdges : List Edge) (results : Results) :
    NodeCoroutine :=
  match node.type with
  | .source => runSource input node
  | .merge =>
    .await (.mergeRefs (mergeParams input node (upstreamRefs inEdges results))) fun reply _ =>
      .done (settle node reply)
  | .fork => .done (forkResult input node (upstreamRefs inEdges results))
  | .transform | .sink | .other _ =>
    .await (.dispatchNode (dispatchParams input node (upstreamRefs inEdges results)))
      fun reply _ => .done (settle node reply)

/-- The parameters of `evalEdgeCondition`. -/
def conditionParams (input : WorkflowInput) (edge : Edge) (results : Results) :
    EdgeConditionParams where
  condition := edge.condition
  inputRef := results.outputRef edge.source
  encryptedDek := input.encryptedDek

/-- The body of the loop over the conditions once the verdict has arrived. -/
def afterCondition (node : Node) (rest : Results → NodeCoroutine) :
    Except String Bool → Results → NodeCoroutine
  | .error err, _ => .done (failed node.id err)
  | .ok false, _ => .done (skipped node.id)
  | .ok true, results => rest results

/-- The loop over the conditions of the in-edges, followed by `body`. -/
def evalConditions (input : WorkflowInput) (node : Node) (body : Results → NodeCoroutine) :
    List Edge → Results → NodeCoroutine
  | [], results => body results
  | edge :: rest, results =>
    if edge.condition = "" then evalConditions input node body rest results
    else .await (.evalEdgeCondition (conditionParams input edge results))
      (afterCondition node (evalConditions input node body rest))

/-- Source: `dynamic_dag.go` `runNode`; `inEdges` is `incoming[node.ID]`. -/
def runNode (input : WorkflowInput) (node : Node) (inEdges : List Edge) (results : Results) :
    NodeCoroutine :=
  let successful := inEdges.any fun edge => results.succeeded edge.source
  if inEdges ≠ [] ∧ successful = false then .done (skipped node.id)
  else evalConditions input node (runBody input node inEdges) inEdges results

/-! ## Outcomes and the recursive evaluation -/

/-- Source: `activities.go` `EvalEdgeCondition`; `evaluate` reads the payload and evaluates the
condition on it. -/
def evalEdgeCondition (evaluate : DataRef → Except String Bool) (inputRef : Option DataRef) :
    Except String Bool :=
  match inputRef with
  | none => .ok true
  | some ref => evaluate ref

/-- An assignment of activity outcomes to nodes, as a function of the node and its inputs. -/
structure Outcomes where
  fetchSourcePage : Node → FetchSourceParams → Except String SourcePage
  evaluatePredicate : Node → (condition : String) → (encryptedDek : String) → DataRef →
    Except String Bool
  mergeRefs : Node → MergeParams → Except String NodeResult
  dispatchNode : Node → DispatchParams → Except String NodeResult

/-- The reply to a call of `node`. -/
def Outcomes.answer (outcomes : Outcomes) (node : Node) : ∀ call : NodeCall, NodeReply call
  | .fetchSourcePage params => outcomes.fetchSourcePage node params
  | .evalEdgeCondition params =>
    evalEdgeCondition (outcomes.evaluatePredicate node params.condition params.encryptedDek)
      params.inputRef
  | .mergeRefs params => outcomes.mergeRefs node params
  | .dispatchNode params => outcomes.dispatchNode node params

/-- Every activity succeeds; a source has the single given page. -/
def Outcomes.successful (page : SourcePage) : Outcomes where
  fetchSourcePage _ _ := .ok page
  evaluatePredicate _ _ _ _ := .ok true
  mergeRefs node _ := .ok { nodeId := node.id, status := .success }
  dispatchNode node _ := .ok { nodeId := node.id, status := .success }

variable {inEdges : List Edge}

section evaluation

variable (outcomes : Outcomes) (input : WorkflowInput) (node : Node)

/-- The pages of a source, one after the other, up to the last one. -/
def sourcePages : ℕ → SourceProgress → Except String SourceProgress
  | 0, progress =>
    match outcomes.fetchSourcePage node (fetchParams input node progress) with
    | .error err => .error err
    | .ok page => if page.hasMore then .error tooManyPages else .ok (progress.add page)
  | pagesLeft + 1, progress =>
    match outcomes.fetchSourcePage node (fetchParams input node progress) with
    | .error err => .error err
    | .ok page =>
      if page.hasMore then sourcePages pagesLeft (progress.add page)
      else .ok (progress.add page)

/-- The result of a source that has read its pages. -/
def mergedPages (progress : SourceProgress) : NodeResult :=
  match progress.refs with
  | [] => sourceSuccess input node progress none
  | [ref] => sourceSuccess input node progress (some ref)
  | _ :: _ :: _ =>
    match outcomes.mergeRefs node (mergePagesParams input node progress) with
    | .error err => failed node.id err
    | .ok merged => sourceSuccess input node progress merged.outputRef

/-- The result of a source. -/
def sourceResult : NodeResult :=
  match sourcePages outcomes input node (maxSourcePages - 1) {} with
  | .error err => failed node.id err
  | .ok progress => mergedPages outcomes input node progress

/-- The result of a node that runs on the given references. -/
def bodyResult (refs : List DataRef) : NodeResult :=
  match node.type with
  | .source => sourceResult outcomes input node
  | .merge => settle node (outcomes.mergeRefs node (mergeParams input node refs))
  | .fork => forkResult input node refs
  | .transform | .sink | .other _ =>
    settle node (outcomes.dispatchNode node (dispatchParams input node refs))

/-- The verdict of the condition of an edge; `upstream` is the result of the edge's source. -/
def conditionVerdict (edge : Edge) (upstream : Option NodeResult) : Except String Bool :=
  if edge.condition = "" then .ok true
  else evalEdgeCondition (outcomes.evaluatePredicate node edge.condition input.encryptedDek)
    (upstream.bind NodeResult.outputRef)

/-- The result the conditions force: skipped at the first false one, failed at the first error. -/
def conditionBlock (upstream : String → Option NodeResult) : List Edge → Option NodeResult
  | [] => none
  | edge :: rest =>
    match conditionVerdict outcomes input node edge (upstream edge.source) with
    | .error err => some (failed node.id err)
    | .ok false => some (skipped node.id)
    | .ok true => conditionBlock upstream rest

/-- **The result of a node from the results of its predecessors.** -/
def nodeResult (inEdges : List Edge) (upstream : String → Option NodeResult) : NodeResult :=
  if inEdges ≠ [] ∧ ∀ edge ∈ inEdges, (upstream edge.source).map NodeResult.status ≠ some .success
  then skipped node.id
  else (conditionBlock outcomes input node upstream inEdges).getD
    (bodyResult outcomes input node
      (inEdges.filterMap fun edge => (upstream edge.source).bind NodeResult.outputRef))

/-- Only the sources of the in-edges matter. -/
theorem nodeResult_congr {upstream upstream' : String → Option NodeResult}
    (h : ∀ edge ∈ inEdges, upstream edge.source = upstream' edge.source) :
    nodeResult outcomes input node inEdges upstream =
      nodeResult outcomes input node inEdges upstream' := by
  have hblock : ∀ es : List Edge, es ⊆ inEdges → conditionBlock outcomes input node upstream es =
        conditionBlock outcomes input node upstream' es := by
    intro es hes
    induction es with
    | nil => rfl
    | cons edge rest ih =>
      rw [conditionBlock, conditionBlock, h edge (hes mem_cons_self),
        ih fun e he => hes (mem_cons_of_mem _ he)]
  have hskip : (∀ edge ∈ inEdges, (upstream edge.source).map NodeResult.status ≠ some .success) ↔
      ∀ edge ∈ inEdges, (upstream' edge.source).map NodeResult.status ≠ some .success :=
    forall₂_congr fun edge he => by rw [h edge he]
  have hrefs : (inEdges.filterMap fun edge => (upstream edge.source).bind NodeResult.outputRef) =
      inEdges.filterMap fun edge => (upstream' edge.source).bind NodeResult.outputRef :=
    filterMap_congr fun edge he => by rw [h edge he]
  unfold nodeResult
  rw [hblock inEdges (List.Subset.refl _), hrefs]
  simp only [hskip]

/-! ## Running `runNode` to its end -/

theorem eval_finishSource (progress : SourceProgress) (results : Results) :
    (finishSource input node progress).eval (outcomes.answer node) results =
      mergedPages outcomes input node progress := by
  unfold finishSource mergedPages
  rcases progress.refs with _ | ⟨ref, _ | ⟨ref', refs⟩⟩
  · rfl
  · rfl
  · simp only [Coroutine.eval_await, Outcomes.answer]
    cases outcomes.mergeRefs node (mergePagesParams input node progress) <;> rfl

theorem eval_readPages (pagesLeft : ℕ) (progress : SourceProgress) (results : Results) :
    (readPages input node pagesLeft progress).eval (outcomes.answer node) results =
      match sourcePages outcomes input node pagesLeft progress with
      | .error err => failed node.id err
      | .ok progress => mergedPages outcomes input node progress := by
  induction pagesLeft generalizing progress with
  | zero =>
    simp only [readPages, sourcePages, Coroutine.eval_await, Outcomes.answer]
    cases outcomes.fetchSourcePage node (fetchParams input node progress) with
    | error err => rfl
    | ok page =>
      by_cases hmore : page.hasMore
      · simp [afterPage, hmore]
      · simp [afterPage, hmore, eval_finishSource]
  | succ pagesLeft ih =>
    simp only [readPages, sourcePages, Coroutine.eval_await, Outcomes.answer]
    cases outcomes.fetchSourcePage node (fetchParams input node progress) with
    | error err => rfl
    | ok page =>
      by_cases hmore : page.hasMore
      · simp [afterPage, hmore, ih]
      · simp [afterPage, hmore, eval_finishSource]

theorem eval_runBody (inEdges : List Edge) (results results' : Results) :
    (runBody input node inEdges results).eval (outcomes.answer node) results' =
      bodyResult outcomes input node (upstreamRefs inEdges results) := by
  unfold runBody bodyResult
  cases node.type with
  | source => exact eval_readPages outcomes input node _ _ _
  | merge | fork | transform | sink | other word => rfl

theorem eval_evalConditions (inEdges es : List Edge) (results : Results) :
    (evalConditions input node (runBody input node inEdges) es results).eval
        (outcomes.answer node) results =
      (conditionBlock outcomes input node results.lookup es).getD
        (bodyResult outcomes input node (upstreamRefs inEdges results)) := by
  induction es with
  | nil => exact eval_runBody outcomes input node inEdges results results
  | cons edge rest ih =>
    by_cases hcond : edge.condition = ""
    · simp [evalConditions, conditionBlock, conditionVerdict, hcond, ih]
    · rw [evalConditions, if_neg hcond, Coroutine.eval_await, conditionBlock, conditionVerdict,
        if_neg hcond]
      change (afterCondition node _ (evalEdgeCondition (outcomes.evaluatePredicate node
        edge.condition input.encryptedDek) (results.outputRef edge.source)) results).eval _ _ = _
      rw [← Results.outputRef]
      rcases evalEdgeCondition (outcomes.evaluatePredicate node edge.condition
        input.encryptedDek) (results.outputRef edge.source) with err | (_ | _)
      · rfl
      · rfl
      · exact ih

/-- **`runNode` computes the recursive evaluation.** -/
theorem eval_runNode (inEdges : List Edge) (results : Results) :
    (runNode input node inEdges results).eval (outcomes.answer node) results =
      nodeResult outcomes input node inEdges results.lookup := by
  have hskip : (inEdges.any fun edge => results.succeeded edge.source) = false ↔
      ∀ edge ∈ inEdges, (results.lookup edge.source).map NodeResult.status ≠ some .success := by
    rw [any_eq_false]
    refine forall₂_congr fun edge _ => ?_
    cases h : results.lookup edge.source <;> simp [Results.succeeded, h]
  unfold runNode nodeResult
  simp only [hskip]
  split_ifs with h
  · rfl
  · exact eval_evalConditions outcomes input node inEdges inEdges results

end evaluation

/-! ## What a node reads -/

/-- The two result maps agree at the sources of the in-edges. -/
def AgreeOn (inEdges : List Edge) (results results' : Results) : Prop :=
  ∀ edge ∈ inEdges, results.lookup edge.source = results'.lookup edge.source

variable {results results' : Results}

theorem AgreeOn.outputRef
    (h : AgreeOn inEdges results results') {edge : Edge} (he : edge ∈ inEdges) :
    results.outputRef edge.source = results'.outputRef edge.source := by
  rw [Results.outputRef, Results.outputRef, h edge he]

theorem runBody_congr {input : WorkflowInput} {node : Node} (h : AgreeOn inEdges results results') :
    runBody input node inEdges results = runBody input node inEdges results' := by
  have hrefs : upstreamRefs inEdges results = upstreamRefs inEdges results' :=
    filterMap_congr fun edge he => h.outputRef he
  unfold runBody
  rw [hrefs]

theorem evalConditions_congr {input : WorkflowInput} {node : Node} {inEdges es : List Edge}
    (hes : es ⊆ inEdges) (h : AgreeOn inEdges results results') :
    evalConditions input node (runBody input node inEdges) es results =
      evalConditions input node (runBody input node inEdges) es results' := by
  induction es with
  | nil => exact runBody_congr h
  | cons edge rest ih =>
    rw [evalConditions, evalConditions, ih fun e he => hes (mem_cons_of_mem _ he)]
    rw [conditionParams, conditionParams, h.outputRef (hes mem_cons_self)]

section stability

variable (input : WorkflowInput) (node : Node) (r : Results → Results → Prop)

theorem stableUnder_finishSource (progress : SourceProgress) :
    (finishSource input node progress).StableUnder r := by
  unfold finishSource
  rcases progress.refs with _ | ⟨ref, _ | ⟨ref', refs⟩⟩
  · trivial
  · trivial
  · intro reply
    refine ⟨fun _ _ _ => rfl, fun _ => ?_⟩
    cases reply <;> trivial

theorem stableUnder_readPages (pagesLeft : ℕ)
    (progress : SourceProgress) : (readPages input node pagesLeft progress).StableUnder r := by
  have hafter : ∀ (more : SourceProgress → NodeCoroutine) (progress : SourceProgress)
      (reply : Except String SourcePage), (∀ p, (more p).StableUnder r) →
      (afterPage input node progress more reply).StableUnder r := by
    intro more progress reply hmore
    cases reply with
    | error err => trivial
    | ok page =>
      unfold afterPage
      dsimp only
      split_ifs
      · exact hmore _
      · exact stableUnder_finishSource input node r _
  induction pagesLeft generalizing progress with
  | zero =>
    intro reply
    exact ⟨fun _ _ _ => rfl, fun _ => hafter _ _ _ fun _ => trivial⟩
  | succ pagesLeft ih =>
    intro reply
    exact ⟨fun _ _ _ => rfl, fun _ => hafter _ _ _ ih⟩

variable (inEdges : List Edge)

theorem stableUnder_runBody
    (results : Results) : (runBody input node inEdges results).StableUnder r := by
  unfold runBody
  cases node.type with
  | source => exact stableUnder_readPages input node r _ _
  | fork => trivial
  | merge | transform | sink | other => exact fun _ => ⟨fun _ _ _ => rfl, fun _ => trivial⟩

theorem stableUnder_evalConditions {inEdges es : List Edge} (hes : es ⊆ inEdges)
    (results : Results) :
    (evalConditions input node (runBody input node inEdges) es results).StableUnder
      (AgreeOn inEdges) := by
  induction es generalizing results with
  | nil => exact stableUnder_runBody input node _ inEdges results
  | cons edge rest ih =>
    have hrest : rest ⊆ inEdges := fun e he => hes (mem_cons_of_mem _ he)
    rw [evalConditions]
    split_ifs
    · exact ih hrest results
    · rintro (err | (_ | _))
      · exact ⟨fun _ _ _ => rfl, fun _ => trivial⟩
      · exact ⟨fun _ _ _ => rfl, fun _ => trivial⟩
      · exact ⟨fun _ _ h => evalConditions_congr hrest h, fun s => ih hrest s⟩

/-- **A node reads the results of its predecessors only.** -/
theorem stableUnder_runNode (results : Results) :
    (runNode input node inEdges results).StableUnder (AgreeOn inEdges) := by
  unfold runNode
  dsimp only
  split_ifs
  · trivial
  · exact stableUnder_evalConditions input node (List.Subset.refl _) results

/-! ## How many activities a node calls -/

theorem atMost_finishSource (progress : SourceProgress) :
    (finishSource input node progress).AtMost 1 := by
  unfold finishSource
  rcases progress.refs with _ | ⟨ref, _ | ⟨ref', refs⟩⟩
  · trivial
  · trivial
  · intro reply _
    cases reply <;> trivial

theorem atMost_readPages (pagesLeft : ℕ) (progress : SourceProgress) :
    (readPages input node pagesLeft progress).AtMost (pagesLeft + 2) := by
  have hafter : ∀ (n : ℕ) (more : SourceProgress → NodeCoroutine) (progress : SourceProgress)
      (reply : Except String SourcePage), (∀ p, (more p).AtMost (n + 1)) →
      (afterPage input node progress more reply).AtMost (n + 1) := by
    intro n more progress reply hmore
    cases reply with
    | error err => trivial
    | ok page =>
      unfold afterPage
      dsimp only
      split_ifs
      · exact hmore _
      · exact (atMost_finishSource input node _).mono (by omega)
  induction pagesLeft generalizing progress with
  | zero => exact fun reply _ => hafter 0 _ _ _ fun _ => trivial
  | succ pagesLeft ih => exact fun reply _ => hafter (pagesLeft + 1) _ _ _ ih

theorem atMost_runBody (results : Results) :
    (runBody input node inEdges results).AtMost (maxSourcePages + 1) := by
  unfold runBody
  cases node.type with
  | source => exact atMost_readPages input node _ _
  | fork => trivial
  | merge | transform | sink | other => exact fun _ _ => trivial

theorem atMost_evalConditions (inEdges es : List Edge) (results : Results) :
    (evalConditions input node (runBody input node inEdges) es results).AtMost
      (es.length + (maxSourcePages + 1)) := by
  induction es generalizing results with
  | nil => exact (atMost_runBody input node inEdges results).mono (by simp)
  | cons edge rest ih =>
    rw [evalConditions, length_cons]
    split_ifs
    · exact (ih results).mono (by omega)
    · rw [show rest.length + 1 + (maxSourcePages + 1) =
        rest.length + (maxSourcePages + 1) + 1 by omega]
      rintro (err | (_ | _)) s
      · trivial
      · trivial
      · exact ih s

/-- **A node calls an activity for each condition, 50 pages and one merge at most.** -/
theorem atMost_runNode (results : Results) :
    (runNode input node inEdges results).AtMost (inEdges.length + (maxSourcePages + 1)) := by
  unfold runNode
  dsimp only
  split_ifs
  · exact Coroutine.atMost_done _ _
  · exact atMost_evalConditions input node inEdges inEdges results

end stability

end Dataflow.Workflows
