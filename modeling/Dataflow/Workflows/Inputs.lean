import Dataflow.Api.PipelineValidation
import Dataflow.Workflows.Contracts

/-!
# Inputs: what the nodes of a run consume

`runNode` collects the references of all predecessors. A merge hands all of them to its activity;
every other node takes the first one, and the trigger payload when there is none.

* `NodeCall.inputs`, `consumedBy`: the references an activity reads, and what a node has consumed.
* `Fed`, `guarantees_runNode`: what a node that succeeds has consumed, as a property of the
  coroutine; `feeding` is the contract of a run.
* `upstream_consumed_iff`: **main result**: the nodes for which nothing of the upstream data is
  dropped or replaced.
-/

namespace Dataflow.Workflows

open Model Library List

/-! ## What a node consumes -/

/-- The payloads an activity reads as the input of its node. -/
def NodeCall.inputs : NodeCall → List DataRef
  | .fetchSourcePage _ | .evalEdgeCondition _ => []
  | .mergeRefs params => params.inputRefs
  | .dispatchNode params => params.inputRef.toList

/-- What a node with these activities and this result has consumed. A fork reads nothing; it hands
its input on as its output. -/
def consumedBy (node : Node) (calls : List NodeCall) (result : NodeResult) : List DataRef :=
  if node.type = .fork then result.outputRef.toList else calls.flatMap NodeCall.inputs

/-- What `runNode` feeds to a node with these upstream references. -/
def fedRefs (input : WorkflowInput) (node : Node) (refs : List DataRef) : List DataRef :=
  if node.type = .merge then refs else (inputRef input refs).toList

/-- A node that has succeeded was fed by its upstream references. -/
def Fed (input : WorkflowInput) (node : Node) (refs : List DataRef) (calls : List NodeCall)
    (result : NodeResult) : Prop :=
  node.type ≠ .source → result.status = .success →
    consumedBy node calls result = fedRefs input node refs

theorem upstreamRefs_congr {inEdges : List Edge} {results results' : Results}
    (h : AgreeOn inEdges results results') :
    upstreamRefs inEdges results = upstreamRefs inEdges results' :=
  filterMap_congr fun _ he => h.outputRef he

section guarantees

variable {input : WorkflowInput} {node : Node} {inEdges : List Edge} {results : Results}
  {made : List NodeCall}

/-- A node that does not succeed satisfies `Fed`. -/
theorem fed_of_ne {refs : List DataRef} {calls : List NodeCall} {result : NodeResult}
    (h : result.status ≠ .success) : Fed input node refs calls result :=
  fun _ hsuccess => absurd hsuccess h

/-- The node's own activity is fed, and nothing was before it. -/
theorem fed_of_call {refs : List DataRef} {call : NodeCall}
    (hmade : made.flatMap NodeCall.inputs = []) (hfork : node.type ≠ .fork)
    (hcall : call.inputs = fedRefs input node refs) (result : NodeResult) :
    Fed input node refs (made ++ [call]) result := by
  intro _ _
  rw [consumedBy, if_neg hfork, flatMap_append, hmade, flatMap_singleton, hcall]
  rfl

theorem guarantees_runBody (hmade : made.flatMap NodeCall.inputs = []) :
    (runBody input node inEdges results).Guarantees (fun _ _ => True) (AgreeOn inEdges results)
      (Fed input node (upstreamRefs inEdges results)) made := by
  have htype : ∀ type, node.type = type → type ≠ .source → type ≠ .merge → type ≠ .fork →
      (Coroutine.await (.dispatchNode (dispatchParams input node (upstreamRefs inEdges results)))
        fun reply _ => .done (settle node reply) : NodeCoroutine).Guarantees (fun _ _ => True)
        (AgreeOn inEdges results) (Fed input node (upstreamRefs inEdges results)) made := by
    intro type htype _ hmerge hfork reply s _ _
    refine fed_of_call hmade (htype ▸ hfork) ?_ _
    rw [fedRefs, if_neg (htype ▸ hmerge)]
    rfl
  unfold runBody
  cases hnode : node.type with
  | source =>
    apply Coroutine.guarantees_of_forall
    intro calls value hsource
    exact absurd hnode hsource
  | merge =>
    intro reply s _ _
    refine fed_of_call hmade (by rw [hnode]; nofun) ?_ _
    rw [fedRefs, if_pos hnode]
    rfl
  | fork =>
    intro _ _
    rw [consumedBy, if_pos hnode, fedRefs, if_neg (by rw [hnode]; nofun)]
    rfl
  | transform | sink | other word => exact htype _ hnode nofun nofun nofun

/-- **A node that succeeds is fed by the results of its predecessors at its start.** -/
theorem guarantees_runNode (input : WorkflowInput) (node : Node) (inEdges : List Edge)
    (results : Results) :
    (runNode input node inEdges results).Guarantees (fun _ _ => True) (AgreeOn inEdges results)
      (Fed input node (upstreamRefs inEdges results)) [] := by
  refine guarantees_runNode_of_body (fun made => made.flatMap NodeCall.inputs = []) rfl ?_ ?_ ?_ ?_
    fun _ _ => rfl
  · intro made params hmade
    rw [flatMap_append, hmade]
    rfl
  · exact fun _ => fed_of_ne fun h => NodeStatus.noConfusion h
  · exact fun _ _ _ _ => fed_of_ne fun h => NodeStatus.noConfusion h
  · intro made results' hmade hagree
    rw [← runBody_congr hagree]
    exact guarantees_runBody hmade

end guarantees

/-- The contract of `Fed`: a node may get any replies. -/
def feeding (dag : DynamicDag) : dag.NodeContract where
  answers _ _ _ := True
  post node results :=
    Fed dag.input node (upstreamRefs (inEdges dag.input.definition.edges node.id) results)
  congr node results results' h := by rw [upstreamRefs_congr h]
  starts node results := guarantees_runNode dag.input node _ results

namespace DynamicDag

variable {dag : DynamicDag} {s : RunState}

/-! ## Runs in which all nodes succeed -/

variable {allowed : List Event → RunState → Event → Prop} {es : List Event}

/-- A definition without a plan leaves the run without results. -/
theorem unplanned_of_unplannable (hplan : dag.Unplannable)
    (h : dag.Run allowed es s) : Unplanned s := by
  obtain ⟨err, herr⟩ := hplan
  have hfails : ∀ s : RunState, dag.plan s = s.fail err.message := by
    intro s
    rw [plan, herr]
  refine h.invariant (I := fun _ s => Unplanned s) ?_ ?_
  · unfold start
    dsimp only
    split_ifs
    · exact ⟨rfl, .inr ⟨_, rfl⟩⟩
    · exact ⟨rfl, .inl rfl⟩
    · rw [hfails]
      exact ⟨rfl, .inr ⟨_, rfl⟩⟩
  · rintro _ s event s' ⟨hresults, hpoint⟩ _ hstep
    cases (dag.step_iff).mp hstep with
    | signal => exact ⟨hresults, hpoint⟩
    | prepareFailed _ err => exact ⟨hresults, .inr ⟨err, rfl⟩⟩
    | prepared =>
      rw [hfails]
      exact ⟨hresults, .inr ⟨_, rfl⟩⟩
    | _ hp => simp_all

/-- Every node has a result, and it is a success. -/
def AllSucceeded (dag : DynamicDag) (s : RunState) : Prop :=
  ∀ node ∈ dag.request.definition.nodes,
    (s.results.lookup node.id).map NodeResult.status = some .success

instance (dag : DynamicDag) : DecidablePred (AllSucceeded dag) := fun _ =>
  inferInstanceAs (Decidable (∀ node ∈ _, _))

/-- A run of an accepted definition that has results runs an acyclic definition. -/
theorem isDag_of_accepted {enterprise : Api.Enterprise} {ranging : Api.RangeIds}
    (haccepted : Api.Accepted enterprise ranging dag.request.definition)
    (hrun : dag.Run allowed es s) (hresults : s.results ≠ ∅) : IsDag dag.input.definition := by
  refine isDag_iff.mpr ⟨Api.nodup_of_accepted haccepted, ?_⟩
  cases hplan : buildPlan dag.input.definition.nodes dag.input.definition.edges with
  | ok plan => rfl
  | error err => exact absurd (unplanned_of_unplannable ⟨err, hplan⟩ hrun).1 hresults

/-- What a finished node has consumed. -/
def consumed (s : RunState) (node : Node) : List DataRef :=
  ((s.results.lookup node.id).map (consumedBy node (callsOf s.scheduled node.id))).getD []

/-- The references the predecessors of a node have left. -/
def upstream (dag : DynamicDag) (s : RunState) (node : Node) : List DataRef :=
  upstreamRefs (inEdges dag.input.definition.edges node.id) s.results

variable {node : Node}

theorem mem_upstream {ref : DataRef} :
    ref ∈ upstream dag s node ↔ ∃ edge ∈ inEdges dag.input.definition.edges node.id,
      s.results.outputRef edge.source = some ref :=
  mem_filterMap

/-- **What a node of a run in which all nodes succeed has consumed.** -/
theorem consumed_eq (hdag : IsDag dag.input.definition)
    (hrun : dag.Run allowed es s) (hsuccess : AllSucceeded dag s)
    (hnode : node ∈ dag.request.definition.nodes) (htype : node.type ≠ .source) :
    consumed s node = fedRefs dag.input node (upstream dag s node) := by
  obtain ⟨result, hlookup, hstatus⟩ := Option.map_eq_some_iff.mp (hsuccess node hnode)
  have hfed := (feeding dag).post_of_run hdag
    (fun _ s event _ => NodeContract.answered_of_forall (fun _ _ _ => trivial) s event)
    hrun hnode hlookup
  rw [consumed, hlookup]
  exact hfed htype hstatus

/-- Nothing of the upstream data of a node is dropped or replaced. -/
structure NothingLost (dag : DynamicDag) (s : RunState) (node : Node) : Prop where
  consumes : ∀ edge ∈ inEdges dag.input.definition.edges node.id, ∀ ref,
    s.results.outputRef edge.source = some ref → ref ∈ consumed s node
  ownInput : inEdges dag.input.definition.edges node.id ≠ [] → ∀ payload ∈ consumed s node,
    dag.input.trigger.payloadRef = some payload →
      ∃ edge ∈ inEdges dag.input.definition.edges node.id,
        s.results.outputRef edge.source = some payload

/-- The predecessors have left one payload at most, and if none, there is no trigger payload to take
its place. -/
structure OnePayload (dag : DynamicDag) (s : RunState) (node : Node) : Prop where
  same : ∀ ref ∈ upstream dag s node, (upstream dag s node).head? = some ref
  noTrigger : inEdges dag.input.definition.edges node.id ≠ [] → upstream dag s node = [] →
    dag.input.trigger.payloadRef = none

theorem nothingLost_of_merge (hdag : IsDag dag.input.definition)
    (hrun : dag.Run allowed es s) (hsuccess : AllSucceeded dag s)
    (hnode : node ∈ dag.request.definition.nodes) (htype : node.type = .merge) :
    NothingLost dag s node := by
  have hconsumed := consumed_eq hdag hrun hsuccess hnode (by rw [htype]; nofun)
  rw [fedRefs, if_pos htype] at hconsumed
  constructor
  · intro edge he ref href
    rw [hconsumed]
    exact mem_upstream.mpr ⟨edge, he, href⟩
  · intro _ payload hpayload _
    rw [hconsumed] at hpayload
    exact mem_upstream.mp hpayload

/-- A node that is no merge consumes one payload at most. -/
theorem nothingLost_iff_onePayload (hdag : IsDag dag.input.definition)
    (hrun : dag.Run allowed es s) (hsuccess : AllSucceeded dag s)
    (hnode : node ∈ dag.request.definition.nodes) (hsource : node.type ≠ .source)
    (hmerge : node.type ≠ .merge) : NothingLost dag s node ↔ OnePayload dag s node := by
  have hconsumed := consumed_eq hdag hrun hsuccess hnode hsource
  rw [fedRefs, if_neg hmerge] at hconsumed
  cases hrefs : upstream dag s node with
  | nil =>
    rw [hrefs] at hconsumed
    have hnone : ∀ edge ∈ inEdges dag.input.definition.edges node.id, ∀ ref,
        s.results.outputRef edge.source ≠ some ref := by
      intro edge he ref href
      have hmem : ref ∈ upstream dag s node := mem_upstream.mpr ⟨edge, he, href⟩
      simp [hrefs] at hmem
    constructor
    · intro h
      refine ⟨fun ref href => ?_, fun hedges _ => ?_⟩
      · simp [hrefs] at href
      cases hpayload : dag.input.trigger.payloadRef with
      | none => rfl
      | some payload =>
        have hmem : payload ∈ consumed s node := by
          rw [hconsumed]
          simp [inputRef, hpayload]
        obtain ⟨edge, he, href⟩ := h.ownInput hedges payload hmem hpayload
        exact absurd href (hnone edge he payload)
    · intro h
      refine ⟨fun edge he ref href => absurd href (hnone edge he ref), ?_⟩
      intro hedges payload _ hpayload
      simp [h.noTrigger hedges hrefs] at hpayload
  | cons first rest =>
    rw [hrefs] at hconsumed
    have hmem : ∀ ref, ref ∈ consumed s node ↔ ref = first := by
      intro ref
      rw [hconsumed]
      simp [inputRef, eq_comm]
    constructor
    · intro h
      refine ⟨fun ref href => ?_, fun _ hnil => ?_⟩
      · obtain ⟨edge, he, hout⟩ := mem_upstream.mp href
        rw [hrefs, (hmem ref).mp (h.consumes edge he ref hout)]
        rfl
      · simp [hrefs] at hnil
    · intro h
      constructor
      · intro edge he ref href
        have hhead := h.same ref (mem_upstream.mpr ⟨edge, he, href⟩)
        rw [hrefs, head?_cons, Option.some.injEq] at hhead
        exact (hmem ref).mpr hhead.symm
      · intro _ payload hpayload _
        apply mem_upstream.mp
        rw [hrefs, (hmem payload).mp hpayload]
        exact mem_cons_self

/-- **Which nodes lose upstream data.** In every run of an accepted definition in which all nodes
succeed, whatever the activities reply and in whatever order, a node that is no source consumes the
output of all its predecessors, and no trigger payload in its place, iff it is a merge or its
predecessors have left one payload (or none, and the run has no trigger payload).

Source: `dynamic_dag.go` `runNode`, `pipeline_validation.go` `validatePipeline` -/
theorem upstream_consumed_iff (enterprise : Api.Enterprise) (ranging : Api.RangeIds)
    (dag : DynamicDag) (haccepted : Api.Accepted enterprise ranging dag.request.definition)
    (es : List Event) (s : RunState) (hrun : dag.Run Transition.Any es s)
    (hsuccess : AllSucceeded dag s) (node : Node) (hnode : node ∈ dag.request.definition.nodes)
    (hsource : node.type ≠ .source) :
    NothingLost dag s node ↔ node.type = .merge ∨ OnePayload dag s node := by
  have hdag : IsDag dag.input.definition := by
    apply isDag_of_accepted haccepted hrun
    have hstatus := hsuccess node hnode
    intro hempty
    rw [hempty] at hstatus
    cases hstatus
  by_cases hmerge : node.type = .merge
  · have hlost := nothingLost_of_merge hdag hrun hsuccess hnode hmerge
    exact ⟨fun _ => .inl hmerge, fun _ => hlost⟩
  · rw [nothingLost_iff_onePayload hdag hrun hsuccess hnode hsource hmerge, or_iff_right hmerge]

/-! ## One source and two sources before a sink -/

/-- The sink of the examples below. -/
def exampleSink : Node := { id := "sink", type := .sink, activityType := "sink.postgres" }

/-- Sources before a sink. -/
def examplePipeline (sources : List String) : DynamicDag where
  info := {}
  request :=
    { definition :=
        { name := "example", triggerType := "manual"
          nodes := sources.map (fun id => { id := id, type := .source, activityType := "http.fetch" })
            ++ [exampleSink]
          edges := sources.map fun id => { source := id, target := "sink" } } }
  ranging := .entries

/-- The page of a source. -/
def examplePage (id : String) : SourcePage := { outputRef := some { key := id } }

/-- The reply of a source that has one page. -/
def pageReply (id : String) : ∀ call, NodeReply call :=
  (Outcomes.successful (examplePage id)).answer { id := id, type := .source }

/-- The reply of a sink. -/
def sinkReply : ∀ call, NodeReply call := (Outcomes.successful {}).answer { id := "sink" }

/-- A build without enterprise checks, and the order in which ids were added. -/
def exampleEnterprise : Api.Enterprise :=
  ⟨fun _ => .ok (), fun _ _ => .ok (), fun _ => .ok ()⟩

def exampleRanging : Api.RangeIds := ⟨id, List.Perm.refl⟩

/-- The theorem at a sink with one source. -/
theorem upstream_consumed_iff_one_source : let dag := examplePipeline ["orders"]
    ∃ s, dag.Run Transition.Any [.beginLevel, .nodeReply 0 (pageReply "orders"), .collect,
        .beginLevel, .nodeReply 0 sinkReply, .collect, .marked (.ok ())] s ∧
      NothingLost dag s exampleSink := by
  intro dag
  have hrun : ∃ s, dag.Run Transition.Any [.beginLevel, .nodeReply 0 (pageReply "orders"), .collect,
      .beginLevel, .nodeReply 0 sinkReply, .collect, .marked (.ok ())] s ∧
      (AllSucceeded dag s ∧ upstream dag s exampleSink = [{ key := "orders" }]) :=
    Transition.exists_run_of_check (fun _ _ _ _ => trivial) (by decide +kernel)
  obtain ⟨s, hrun, hsuccess, hupstream⟩ := hrun
  refine ⟨s, hrun, (upstream_consumed_iff exampleEnterprise exampleRanging dag (by decide +kernel) _ s
    hrun hsuccess exampleSink (by simp [dag, examplePipeline]) nofun).mpr (.inr ⟨?_, ?_⟩)⟩
  · intro ref href
    rw [hupstream] at href ⊢
    rw [mem_singleton.mp href]
    rfl
  · intro _ hnil
    rw [hupstream] at hnil
    cases hnil

/-- Two sources before a sink: the definition is accepted, all nodes succeed, and the sink consumes
the page of the first source only. -/
theorem second_source_dropped : let dag := examplePipeline ["orders", "customers"]
    Api.Accepted exampleEnterprise exampleRanging dag.request.definition ∧
    ∃ s, dag.Run Transition.Any [.beginLevel, .nodeReply 0 (pageReply "orders"),
        .nodeReply 1 (pageReply "customers"), .collect, .collect, .beginLevel,
        .nodeReply 0 sinkReply, .collect, .marked (.ok ())] s ∧
      AllSucceeded dag s ∧ s.results.outputRef "customers" = some { key := "customers" } ∧
      { key := "customers" } ∉ consumed s exampleSink := by
  intro dag
  refine ⟨by decide +kernel, ?_⟩
  exact Transition.exists_run_of_check (fun _ _ _ _ => trivial) (by decide +kernel)

end DynamicDag

end Dataflow.Workflows
