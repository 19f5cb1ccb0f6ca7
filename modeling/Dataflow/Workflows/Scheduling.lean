import Dataflow.Library.Evaluation
import Dataflow.Workflows.Closing

/-!
# Scheduling: a run computes the recursive evaluation

Over an acyclic definition the result of every node is a function of the results of its
predecessors (`nodeResult`). A run computes exactly these results, whatever the size of its batches,
the order of the replies and the pauses in between.

* `IsDag`, `recursiveEvaluation`: the definition as a graph, and the abstract evaluation.
* `Progress`: what every run keeps: each node is finished or still to do, and the nodes of the
  current level have finished predecessors.
* `Valued`: what a run keeps whose activities answer by `outcomes`: the finished nodes have the
  right results and the running ones are on their way to them.
* `Left`: how many of its own events and replies a run can still take.
* `run_eq_recursiveEvaluation`: **main result**: scheduling does not matter.
-/

namespace Dataflow.Workflows

open Model Library Library.Graph Library.Evaluation List Function

/-! ## Definitions as graphs -/

/-- Distinct node ids, edges between nodes, no cycle. -/
structure IsDag (definition : PipelineDefinition) : Prop where
  ids : (definition.nodes.map Node.id).Nodup
  known : EndpointsKnown definition.nodes definition.edges
  acyclic : ¬ Cyclic (HasEdge definition.edges)

/-- The in-edges of a node, in definition order. -/
def inEdges (edges : List Edge) (id : String) : List Edge :=
  edges.filter fun edge => edge.target = id

@[simp] theorem mem_inEdges {edges : List Edge} {id : String} {edge : Edge} :
    edge ∈ inEdges edges id ↔ edge ∈ edges ∧ edge.target = id := by
  simp [inEdges]

/-- The node with an id. -/
def nodeAt (nodes : List Node) (id : String) : Node := (registerNodes nodes id).getD { id := id }

variable {node : Node}

theorem nodeAt_of_mem {nodes : List Node} (hids : (nodes.map Node.id).Nodup)
    (h : node ∈ nodes) : nodeAt nodes node.id = node := by
  rw [nodeAt, registerNodes_of_mem hids h, Option.getD_some]

/-- The result of the node with an id, from the results of its predecessors. -/
def resultAt (outcomes : Outcomes) (input : WorkflowInput) (id : String)
    (upstream : String → Option NodeResult) : NodeResult :=
  nodeResult outcomes input (nodeAt input.definition.nodes id)
    (inEdges input.definition.edges id) upstream

/-- **The recursive evaluation** of a definition, in a given topological order. -/
def recursiveEvaluation (outcomes : Outcomes) (input : WorkflowInput) (order : List String) :
    String → Option NodeResult :=
  evaluateAll (resultAt outcomes input) order

variable (outcomes : Outcomes)

theorem local_resultAt (input : WorkflowInput) :
    Local (HasEdge input.definition.edges) (resultAt outcomes input) :=
  fun id m m' h => nodeResult_congr outcomes input _ fun edge he => by
    obtain ⟨hedge, htarget⟩ := mem_inEdges.mp he
    exact h edge.source ⟨edge, hedge, rfl, htarget⟩

theorem IsDag.wellFounded {definition : PipelineDefinition} (h : IsDag definition) :
    WellFounded (HasEdge definition.edges) :=
  wellFounded_of_acyclic (V := {id | id ∈ definition.nodes.map Node.id}) (finite_toSet _)
    (fun _ _ ⟨edge, he, hs, _⟩ => hs ▸ (h.known edge he).1) h.acyclic

theorem isDag_iff {definition : PipelineDefinition} :
    IsDag definition ↔ (definition.nodes.map Node.id).Nodup ∧
      (buildPlan definition.nodes definition.edges).isOk = true := by
  constructor
  · intro h
    obtain ⟨plan, hplan, -⟩ := buildPlan_ok h.ids h.known h.acyclic
    exact ⟨h.ids, by rw [hplan]; rfl⟩
  · rintro ⟨hids, hok⟩
    by_contra hnot
    obtain ⟨err, herr⟩ := buildPlan_error hids fun ⟨hknown, hacyclic⟩ =>
      hnot ⟨hids, hknown, hacyclic⟩
    rw [herr] at hok
    cases hok

instance (definition : PipelineDefinition) : Decidable (IsDag definition) :=
  decidable_of_iff _ isDag_iff.symm

/-! ## What is left to do at a point -/

/-- The nodes in progress. -/
def Point.running : Point → List (Node × NodeCoroutine)
  | .batch running _ _ => running
  | _ => []

/-- The unfinished nodes of the level that has begun. -/
def Point.current : Point → List Node
  | .batch running queued _ => running.map Prod.fst ++ queued
  | _ => []

/-- The levels that have not begun. -/
def Point.later : Point → List (List Node)
  | .level next rest => next :: rest
  | .waiting next rest => next :: rest
  | .batch _ _ rest => rest
  | _ => []

/-- The loops are over. -/
structure Point.Idle (point : Point) : Prop where
  planned : point ≠ .preparing
  running : point.running = []
  current : point.current = []
  later : point.later = []

theorem Point.mem_current {point : Point} {entry : Node × NodeCoroutine}
    (h : entry ∈ point.running) : entry.1 ∈ point.current := by
  cases point with
  | batch running queued rest => exact mem_append_left _ (mem_map_of_mem h)
  | _ => cases h

namespace DynamicDag

variable (dag : DynamicDag)

theorem idle_commitDedupe (checkpoints : List JsonMap) (s : RunState) :
    (dag.commitDedupe checkpoints s).point.Idle := by
  unfold commitDedupe
  split_ifs <;> exact ⟨nofun, rfl, rfl, rfl⟩

theorem idle_conclude (s : RunState) : (dag.conclude s).point.Idle := by
  unfold conclude
  dsimp only
  split_ifs
  · exact ⟨nofun, rfl, rfl, rfl⟩
  · exact ⟨nofun, rfl, rfl, rfl⟩
  · exact dag.idle_commitDedupe _ s
  · exact ⟨nofun, rfl, rfl, rfl⟩

theorem running_nextLevel (rest : List (List Node)) (s : RunState) :
    (dag.nextLevel rest s).point.running = [] := by
  cases rest with
  | nil => exact (dag.idle_conclude s).running
  | cons level rest => rfl

theorem running_plan (s : RunState) : (dag.plan s).point.running = [] := by
  unfold plan
  split
  · rfl
  · exact dag.running_nextLevel _ _

theorem maxParallel_pos : 0 < dag.maxParallel := by
  unfold maxParallel
  split
  · split_ifs <;> omega
  · omega

theorem map_fst_startNode (s : RunState) (nodes : List Node) :
    (nodes.map (dag.startNode s)).map Prod.fst = nodes := by
  rw [map_map, show Prod.fst ∘ dag.startNode s = id from rfl, map_id]

variable {running : List (Node × NodeCoroutine)}

/-- A reply leaves the nodes of the batch as they are. -/
theorem map_fst_set {index : ℕ} {c c' : NodeCoroutine} (hi : running[index]? = some (node, c)) :
    (running.set index (node, c')).map Prod.fst = running.map Prod.fst := by
  obtain ⟨hlt, hget⟩ := List.getElem?_eq_some_iff.mp hi
  rw [map_set]
  refine ext_getElem (by simp) fun j hj _ => ?_
  rw [getElem_set]
  split_ifs with hij
  · subst hij
    simp [hget]
  · rfl

/-! ## Progress -/

/-- No node of a level has an in-edge from its own or a later level. -/
def Layered (edges : List Edge) : List (List Node) → Prop
  | [] => True
  | level :: rest =>
    (∀ node ∈ level, ∀ edge ∈ edges, edge.target = node.id →
      edge.source ∉ (level :: rest).flatten.map Node.id) ∧ Layered edges rest

/-- With `current` and `later` still to do: the other nodes are finished, unless the run is
cancelled, and the predecessors of the current nodes are. -/
structure ProgressAt (s : RunState) (current : List Node) (later : List (List Node)) : Prop where
  incoming : ∀ id, s.incoming id = inEdges dag.input.definition.edges id
  covered : s.cancelled = false → ∀ node ∈ dag.input.definition.nodes,
    node.id ∈ s.results ∨ node ∈ current ++ later.flatten
  only : ∀ id ∈ s.results, id ∈ dag.input.definition.nodes.map Node.id
  fresh : ∀ node ∈ current ++ later.flatten, node.id ∉ s.results
  sub : current ++ later.flatten ⊆ dag.input.definition.nodes
  nodup : ((current ++ later.flatten).map Node.id).Nodup
  ready : ∀ node ∈ current, ∀ edge ∈ dag.input.definition.edges, edge.target = node.id →
    edge.source ∈ s.results
  layered : Layered dag.input.definition.edges later

/-- The run has planned and keeps `ProgressAt`. -/
structure Progress (s : RunState) : Prop where
  planned : s.point ≠ .preparing
  at_point : dag.ProgressAt s s.point.current s.point.later

variable {dag} {s s' : RunState} {current : List Node} {later : List (List Node)}

section

variable (h : dag.ProgressAt s current later)

include h

theorem ProgressAt.congr (hincoming : s'.incoming = s.incoming)
    (hresults : s'.results = s.results) (hcancelled : s.cancelled = true → s'.cancelled = true) :
    dag.ProgressAt s' current later where
  incoming := hincoming ▸ h.incoming
  covered hc := hresults ▸ h.covered (by
    by_contra hne
    rw [hcancelled (by simpa using hne)] at hc
    cases hc)
  only := hresults ▸ h.only
  fresh := hresults ▸ h.fresh
  sub := h.sub
  nodup := h.nodup
  ready := hresults ▸ h.ready
  layered := h.layered

theorem ProgressAt.frame (hf : Frame s s') : dag.ProgressAt s' current later :=
  h.congr hf.incoming hf.results fun hc => hf.cancelled.trans hc

/-- The state has the given things to do. -/
theorem ProgressAt.progress (hplanned : s.point ≠ .preparing)
    (hcurrent : s.point.current = current) (hlater : s.point.later = later) : dag.Progress s :=
  ⟨hplanned, by rw [hcurrent, hlater]; exact h⟩

/-- When the run is over, nothing more is claimed of the nodes that are left. -/
theorem ProgressAt.idle (hcancelled : s.cancelled = true) : dag.ProgressAt s [] [] where
  incoming := h.incoming
  covered hc := by
    simp [hcancelled] at hc
  only := h.only
  fresh node hnode := by cases hnode
  sub := nil_subset _
  nodup := nodup_nil
  ready node hnode := by cases hnode
  layered := trivial

end

theorem ProgressAt.conclude (h : dag.ProgressAt s [] []) : dag.Progress (dag.conclude s) :=
  (h.frame (dag.frame_conclude s)).progress (dag.idle_conclude s).planned
    (dag.idle_conclude s).current (dag.idle_conclude s).later

theorem ProgressAt.nextLevel (h : dag.ProgressAt s [] later) :
    dag.Progress (dag.nextLevel later s) := by
  cases later with
  | nil => exact h.conclude
  | cons level rest => exact (h.frame (dag.frame_nextLevel _ s)).progress nofun rfl rfl

theorem ProgressAt.nextBatch (h : dag.ProgressAt s current later) :
    dag.Progress (dag.nextBatch current later s) := by
  have hf := h.frame (dag.frame_nextBatch current later s)
  unfold DynamicDag.nextBatch at hf ⊢
  split_ifs at hf ⊢ with hnil
  · subst hnil
    exact h.nextLevel
  · refine hf.progress nofun ?_ rfl
    rw [Point.current, map_fst_startNode, take_append_drop]

variable {level : List Node}

/-- **A level begins**: its predecessors are finished, since they are in no level that is left. -/
theorem ProgressAt.begin (hdag : IsDag dag.input.definition)
    (h : dag.ProgressAt s [] (level :: later)) (hcancelled : s.cancelled = false) :
    dag.ProgressAt s level later where
  incoming := h.incoming
  covered := h.covered
  only := h.only
  fresh := h.fresh
  sub := h.sub
  nodup := h.nodup
  ready node hnode edge he htarget := by
    obtain ⟨source, hsource, hid⟩ := mem_map.mp (hdag.known edge he).1
    rcases h.covered hcancelled source hsource with hdone | htodo
    · exact hid ▸ hdone
    · exact absurd (hid ▸ mem_map_of_mem htodo) (h.layered.1 node hnode edge he htarget)
  layered := h.layered.2

theorem ProgressAt.enterLevel (hdag : IsDag dag.input.definition)
    (h : dag.ProgressAt s [] (level :: later)) : dag.Progress (dag.enterLevel level later s) := by
  unfold DynamicDag.enterLevel
  split_ifs with hwait hcancelled
  · exact (h.frame (frame_point s _)).progress nofun rfl rfl
  · exact (h.idle hcancelled).conclude
  · exact (h.begin hdag (by simpa using hcancelled)).nextBatch

theorem ProgressAt.store (result : NodeResult) (h : dag.ProgressAt s (node :: current) later) :
    dag.ProgressAt { s with results := s.results.insert node.id result } current later where
  incoming := h.incoming
  covered hc other hother := by
    simp only [AList.mem_insert]
    rcases h.covered hc other hother with hdone | htodo
    · exact .inl (.inr hdone)
    · rcases mem_cons.mp htodo with rfl | htodo
      · exact .inl (.inl rfl)
      · exact .inr htodo
  only id hid := by
    rcases (AList.mem_insert _).mp hid with rfl | hid
    · exact mem_map_of_mem (h.sub (by simp))
    · exact h.only id hid
  fresh other hother hin := by
    rcases (AList.mem_insert _).mp hin with heq | hin
    · have hnodup := h.nodup
      rw [cons_append, map_cons, nodup_cons, ← heq] at hnodup
      exact hnodup.1 (mem_map_of_mem hother)
    · exact h.fresh other (mem_cons_of_mem _ hother) hin
  sub other hother := h.sub (mem_cons_of_mem _ hother)
  nodup := by
    have hnodup := h.nodup
    rw [cons_append, map_cons, nodup_cons] at hnodup
    exact hnodup.2
  ready other hother edge he htarget :=
    (AList.mem_insert _).mpr (.inr (h.ready other (mem_cons_of_mem _ hother) edge he htarget))
  layered := h.layered

/-- The levels of a plan are layered: an edge goes from a lower to a higher rank. -/
theorem layered_of_ranks {edges : List Edge} {levels : List (List Node)} {k : ℕ}
    (h : ∀ i level, levels[i]? = some level →
      ∀ node ∈ level, Rank (HasEdge edges) node.id (k + i)) :
    Layered edges levels := by
  induction levels generalizing k with
  | nil => trivial
  | cons level rest ih =>
    refine ⟨fun node hnode edge he htarget hmem => ?_, ih (k := k + 1) fun i l hl n hn => ?_⟩
    · obtain ⟨source, hsource, hid⟩ := mem_map.mp hmem
      obtain ⟨l, hl, hin⟩ := mem_flatten.mp hsource
      obtain ⟨i, hi, rfl⟩ := getElem_of_mem hl
      have hsrank := h i _ (getElem?_eq_getElem hi) source hin
      have hnrank := h 0 level rfl node hnode
      have := Rank.lt_of_edge ⟨edge, he, hid.symm, htarget⟩ hsrank hnrank
      omega
    · have := h (i + 1) l (by simpa using hl) n hn
      rwa [show k + 1 + i = k + (i + 1) by omega]

/-- A planned run has everything to do. -/
theorem progress_plan (hdag : IsDag dag.input.definition) (hresults : s.results = ∅) :
    dag.Progress (dag.plan s) := by
  obtain ⟨plan, hplan, hspec⟩ := buildPlan_ok hdag.ids hdag.known hdag.acyclic
  have hperm := hspec.flatten_perm
  unfold DynamicDag.plan
  rw [hplan]
  refine ProgressAt.nextLevel ⟨hspec.incoming, fun _ node hnode => .inr (hperm.mem_iff.mpr hnode),
    ?_, ?_, hperm.subset, ?_, ?_, layered_of_ranks (k := 0) ?_⟩
  · simp [hresults]
  · simp [hresults]
  · exact (hperm.map Node.id).nodup_iff.mpr hdag.ids
  · simp
  · intro i level hlevel node hnode
    rw [zero_add]
    exact ((hspec.mem_level i level hlevel node).mp hnode).2

/-- Before planning there is nothing yet. -/
def Unplanned (s : RunState) : Prop :=
  s.results = ∅ ∧ (s.point = .preparing ∨ ∃ err, s.point = .returned (.error err))

variable {event : Event}

/-- **The step lemma of `Progress`.** -/
theorem progress_step (hdag : IsDag dag.input.definition)
    (h : Unplanned s ∨ dag.Progress s) (hstep : dag.step s event = some s') :
    Unplanned s' ∨ dag.Progress s' := by
  rcases h with ⟨hresults, hpoint⟩ | ⟨hplanned, h⟩
  · cases (dag.step_iff).mp hstep with
    | signal => exact .inl ⟨hresults, hpoint⟩
    | prepareFailed _ err => exact .inl ⟨hresults, .inr ⟨err, rfl⟩⟩
    | prepared => exact .inr (progress_plan hdag hresults)
    | _ hp => simp_all
  · right
    cases (dag.step_iff).mp hstep with
    | signal => exact ⟨hplanned, h.congr rfl rfl id⟩
    | prepareFailed hp err | prepared hp => exact absurd hp hplanned
    | beginLevel hp =>
      rw [hp] at h
      refine ProgressAt.enterLevel hdag (h.congr rfl rfl fun hc => ?_)
      simp [drainSignals, hc]
    | selectResume hp hr =>
      rw [hp] at h
      exact ProgressAt.enterLevel hdag (h.congr rfl rfl id)
    | selectCancel hp hr hc =>
      rw [hp] at h
      exact ProgressAt.enterLevel hdag (h.congr rfl rfl fun _ => rfl)
    | @nodeReply running queued rest index node call k hp hi answer =>
      rw [hp] at h
      refine (h.frame (frame_advance index node _ running queued rest s)).progress nofun ?_ rfl
      change (running.set index _).map Prod.fst ++ queued = running.map Prod.fst ++ queued
      rw [map_fst_set hi]
    | @collect node result running queued rest hp =>
      rw [hp] at h
      have hstored := ProgressAt.store result h
      cases running with
      | nil => exact ProgressAt.nextBatch hstored
      | cons entry running =>
        exact (hstored.frame (dag.frame_store node result _ queued rest s)).progress nofun rfl rfl
    | cursorsFailed hp err =>
      rw [hp] at h
      exact (h.frame (frame_fail err s)).progress nofun rfl rfl
    | @cursorsCommitted checkpoints hp =>
      rw [hp] at h
      have hidle := dag.idle_commitDedupe checkpoints s
      exact (h.frame (dag.frame_commitDedupe _ s)).progress hidle.planned hidle.current hidle.later
    | dedupeFailed hp err =>
      rw [hp] at h
      exact (h.frame (frame_fail err s)).progress nofun rfl rfl
    | dedupeCommitted hp =>
      rw [hp] at h
      exact (h.frame (dag.frame_mark _ s)).progress nofun rfl rfl
    | markFailed hp err =>
      rw [hp] at h
      exact (h.frame (frame_fail err s)).progress nofun rfl rfl
    | marked hp =>
      rw [hp] at h
      exact (h.frame (frame_point s _)).progress nofun rfl rfl

variable {allowed : List Event → RunState → Event → Prop} {es : List Event}

/-- Every run is unplanned or makes progress. -/
theorem progress_of_run (hdag : IsDag dag.input.definition)
    (h : dag.Run allowed es s) : Unplanned s ∨ dag.Progress s := by
  refine h.invariant (I := fun _ s => Unplanned s ∨ dag.Progress s) ?_
    fun _ _ _ _ hs _ hstep => progress_step hdag hs hstep
  unfold start
  dsimp only
  split_ifs
  · exact .inl ⟨rfl, .inr ⟨_, rfl⟩⟩
  · exact .inl ⟨rfl, .inl rfl⟩
  · exact .inr (progress_plan hdag rfl)

/-- Inside its loops the run has planned. -/
theorem ProgressAt.of_loop (hs : Unplanned s ∨ dag.Progress s)
    (hpoint : s.point.running ≠ [] ∨ s.point.later ≠ []) :
    dag.ProgressAt s s.point.current s.point.later := by
  rcases hs with ⟨-, hp | ⟨err, hp⟩⟩ | hs
  · simp [hp, Point.running, Point.later] at hpoint
  · simp [hp, Point.running, Point.later] at hpoint
  · exact hs.at_point

variable {results : Results}

/-! ## Values -/

section values

variable (outcomes : Outcomes)

/-- A running node is on its way to the result of `resultAt`. -/
def Predicted (dag : DynamicDag) (results : Results) (entry : Node × NodeCoroutine) : Prop :=
  entry.2.StableUnder (AgreeOn (inEdges dag.input.definition.edges entry.1.id)) ∧
    ∃ before : Results, AgreeOn (inEdges dag.input.definition.edges entry.1.id) before results ∧
      entry.2.eval (outcomes.answer entry.1) before =
        resultAt outcomes dag.input entry.1.id before.lookup

/-- The finished nodes have the right results, the running ones are on their way to them. -/
structure Valued (dag : DynamicDag) (s : RunState) : Prop where
  solution : PartialSolution (HasEdge dag.input.definition.edges) (resultAt outcomes dag.input)
    s.results.lookup
  running : ∀ entry ∈ s.point.running, Predicted outcomes dag s.results entry

/-- The reply to a pending call is the outcome of the node. -/
def AnsweredBy (s : RunState) : Event → Prop
  | .nodeReply index answer => ∀ node call k,
      s.point.running[index]? = some (node, .await call k) → answer call = outcomes.answer node call
  | _ => True

variable {outcomes}

theorem Valued.frame (h : Valued outcomes dag s) (hf : Frame s s')
    (hrunning : s'.point.running = []) : Valued outcomes dag s' where
  solution := hf.results ▸ h.solution
  running entry hentry := by
    simp [hrunning] at hentry

theorem Valued.nextBatch (hdag : IsDag dag.input.definition)
    (hs : dag.ProgressAt s current later) (h : PartialSolution
      (HasEdge dag.input.definition.edges) (resultAt outcomes dag.input) s.results.lookup) :
    Valued outcomes dag (dag.nextBatch current later s) := by
  refine ⟨(dag.frame_nextBatch current later s).results ▸ h, fun entry hentry => ?_⟩
  rw [(dag.frame_nextBatch current later s).results]
  unfold DynamicDag.nextBatch at hentry
  split_ifs at hentry with hnil
  · simp [dag.running_nextLevel] at hentry
  · obtain ⟨node, hnode, rfl⟩ := mem_map.mp hentry
    have hmem : node ∈ dag.input.definition.nodes :=
      hs.sub (mem_append_left _ (mem_of_mem_take hnode))
    refine ⟨?_, s.results, fun _ _ => rfl, ?_⟩
    · exact hs.incoming node.id ▸ stableUnder_runNode dag.input node _ s.results
    · change (runNode dag.input node (s.incoming node.id) s.results).eval (outcomes.answer node)
        s.results = resultAt outcomes dag.input node.id s.results.lookup
      rw [eval_runNode, hs.incoming, resultAt, nodeAt_of_mem hdag.ids hmem]

theorem Valued.enterLevel (hdag : IsDag dag.input.definition)
    (hs : dag.ProgressAt s [] (level :: later)) (h : Valued outcomes dag s) :
    Valued outcomes dag (dag.enterLevel level later s) := by
  unfold DynamicDag.enterLevel
  split_ifs with hwait hcancelled
  · exact h.frame (frame_point s _) rfl
  · exact h.frame (dag.frame_conclude s) (dag.idle_conclude s).running
  · exact Valued.nextBatch hdag (hs.begin hdag (by simpa using hcancelled)) h.solution

/-- A finished node has the result that was predicted for it. -/
theorem Predicted.done {result : NodeResult}
    (h : Predicted outcomes dag results (node, .done result)) :
    result = resultAt outcomes dag.input node.id results.lookup := by
  obtain ⟨-, before, hagree, heval⟩ := h
  rw [Coroutine.eval_done] at heval
  rw [heval]
  exact nodeResult_congr outcomes dag.input _ hagree

/-- The prediction survives the result of a node that is no predecessor. -/
theorem Predicted.insert {entry : Node × NodeCoroutine} {id : String}
    (h : Predicted outcomes dag results entry) (hfresh : id ∉ results)
    (hready : ∀ edge ∈ dag.input.definition.edges, edge.target = entry.1.id → edge.source ∈ results)
    (result : NodeResult) : Predicted outcomes dag (results.insert id result) entry := by
  obtain ⟨hstable, before, hagree, heval⟩ := h
  refine ⟨hstable, before, fun edge he => (hagree edge he).trans ?_, heval⟩
  obtain ⟨hedge, htarget⟩ := mem_inEdges.mp he
  refine (AList.lookup_insert_ne fun heq => hfresh ?_).symm
  exact heq ▸ hready edge hedge htarget

/-- The prediction survives a reply. -/
theorem Predicted.reply {call : NodeCall}
    {k : NodeReply call → Results → NodeCoroutine} {reply : NodeReply call}
    (h : Predicted outcomes dag results (node, .await call k))
    (hreply : reply = outcomes.answer node call) :
    Predicted outcomes dag results (node, k reply results) := by
  obtain ⟨hstable, before, hagree, heval⟩ := h
  subst hreply
  refine ⟨hstable.resume (outcomes.answer node) results, before, hagree, ?_⟩
  rw [← heval]
  exact Coroutine.eval_resume hstable (outcomes.answer node) hagree

theorem lookup_insert_eq_update (results : Results) (id : String) (result : NodeResult) :
    (fun a => (results.insert id result).lookup a) =
      update (fun a => results.lookup a) id (some result) := by
  funext a
  by_cases ha : a = id
  · subst ha
    rw [update_self, AList.lookup_insert]
  · rw [update_of_ne ha, AList.lookup_insert_ne ha]

/-- **The first node of the batch is stored.** -/
theorem Valued.store (hdag : IsDag dag.input.definition) {result : NodeResult} {queued : List Node}
    (hs : dag.ProgressAt s (((node, .done result) :: running).map Prod.fst ++ queued) later)
    (hsolution : PartialSolution (HasEdge dag.input.definition.edges) (resultAt outcomes dag.input)
      s.results.lookup)
    (hrunning : ∀ entry ∈ (node, .done result) :: running, Predicted outcomes dag s.results entry) :
    Valued outcomes dag (dag.store node result running queued later s) := by
  have hfresh : node.id ∉ s.results := hs.fresh node (by simp)
  have hresult := (hrunning _ mem_cons_self).done
  have hsolution' : PartialSolution (HasEdge dag.input.definition.edges)
      (resultAt outcomes dag.input) (s.results.insert node.id result).lookup := by
    rw [lookup_insert_eq_update, hresult]
    refine hsolution.update (local_resultAt outcomes dag.input)
      (AList.lookup_eq_none.mpr hfresh) ?_
    rintro u ⟨edge, he, rfl, htarget⟩
    exact AList.lookup_isSome.mpr (hs.ready node (by simp) edge he htarget)
  have hstored := ProgressAt.store result hs
  cases running with
  | nil => exact Valued.nextBatch hdag hstored hsolution'
  | cons entry running =>
    refine ⟨hsolution', fun other hother => ?_⟩
    exact (hrunning other (mem_cons_of_mem _ hother)).insert hfresh (hs.ready other.1
      (mem_append_left _ (mem_map_of_mem (mem_cons_of_mem _ hother)))) result

/-- **The step lemma of `Valued`.** -/
theorem valued_step (hdag : IsDag dag.input.definition)
    (hs : Unplanned s ∨ dag.Progress s) (h : Valued outcomes dag s)
    (hanswer : AnsweredBy outcomes s event) (hstep : dag.step s event = some s') :
    Valued outcomes dag s' := by
  cases (dag.step_iff).mp hstep with
  | signal => exact ⟨h.solution, h.running⟩
  | prepareFailed hp err => exact h.frame (frame_fail err s) rfl
  | prepared hp =>
    refine ⟨by rw [(dag.frame_plan s).2.2.2]; exact h.solution, fun entry hentry => ?_⟩
    simp [dag.running_plan] at hentry
  | beginLevel hp =>
    have hs := ProgressAt.of_loop hs (by simp [hp, Point.later])
    rw [hp] at hs
    refine Valued.enterLevel hdag (hs.congr rfl rfl fun hc => ?_) ⟨h.solution, h.running⟩
    simp [drainSignals, hc]
  | selectResume hp hr =>
    have hs := ProgressAt.of_loop hs (by simp [hp, Point.later])
    rw [hp] at hs
    exact Valued.enterLevel hdag (hs.congr rfl rfl id) ⟨h.solution, h.running⟩
  | selectCancel hp hr hc =>
    have hs := ProgressAt.of_loop hs (by simp [hp, Point.later])
    rw [hp] at hs
    exact Valued.enterLevel hdag (hs.congr rfl rfl fun _ => rfl) ⟨h.solution, h.running⟩
  | nodeReply hp hi answer =>
    have hrunning := h.running
    rw [hp] at hrunning
    have hreply := hanswer _ _ _ (by rw [hp]; exact hi)
    refine ⟨h.solution, fun entry hentry => ?_⟩
    rcases mem_or_eq_of_mem_set hentry with hentry | rfl
    · exact hrunning entry hentry
    · exact (hrunning _ (mem_of_getElem? hi)).reply hreply
  | collect hp =>
    have hs := ProgressAt.of_loop hs (by simp [hp, Point.running])
    have hrunning := h.running
    rw [hp] at hs hrunning
    exact Valued.store hdag hs h.solution hrunning
  | cursorsFailed hp err => exact h.frame (frame_fail err s) rfl
  | @cursorsCommitted checkpoints hp =>
    exact h.frame (dag.frame_commitDedupe _ s) (dag.idle_commitDedupe checkpoints s).running
  | dedupeFailed hp err => exact h.frame (frame_fail err s) rfl
  | dedupeCommitted hp => exact h.frame (dag.frame_mark _ s) rfl
  | markFailed hp err => exact h.frame (frame_fail err s) rfl
  | marked hp => exact h.frame (frame_point s _) rfl

/-- The first state has no values. -/
theorem valued_start : Valued outcomes dag dag.start := by
  have hresults := dag.frame_start.2.2.2
  refine ⟨by rw [hresults]; exact .empty, ?_⟩
  unfold start
  dsimp only
  split_ifs
  · exact nofun
  · exact nofun
  · intro entry hentry
    simp [dag.running_plan] at hentry

/-- **In every run whose activities answer by `outcomes`, finished nodes have the right
results.** -/
theorem valued_of_run (hdag : IsDag dag.input.definition)
    (hallowed : ∀ es s event, allowed es s event → AnsweredBy outcomes s event)
    (h : dag.Run allowed es s) : Valued outcomes dag s := by
  have hboth : (Unplanned s ∨ dag.Progress s) ∧ Valued outcomes dag s := by
    refine h.invariant (I := fun _ s => (Unplanned s ∨ dag.Progress s) ∧ Valued outcomes dag s)
      ⟨progress_of_run hdag (.start : dag.Run allowed [] dag.start), valued_start⟩ ?_
    rintro es s event s' ⟨hs, hv⟩ hok hstep
    exact ⟨progress_step hdag hs hstep, valued_step hdag hs hv (hallowed _ _ _ hok) hstep⟩
  exact hboth.2

end values

/-! ## How long a run can go on -/

section budget

/-- Replies and a collection for each node. -/
def levelCost (incoming : String → List Edge) (level : List Node) : ℕ :=
  (level.map fun node => (incoming node.id).length + (maxSourcePages + 1) + 1).sum

/-- A level also has its two loop heads. -/
def laterCost (incoming : String → List Edge) (later : List (List Node)) : ℕ :=
  (later.map fun level => levelCost incoming level + 2).sum

/-- The cost of everything that is planned. -/
def planCost (dag : DynamicDag) : ℕ :=
  match buildPlan dag.input.definition.nodes dag.input.definition.edges with
  | .error _ => 0
  | .ok plan => laterCost plan.incoming plan.levels

/-- `n` suffices for the replies and the collections of the batch. -/
def BatchLeft : List (Node × NodeCoroutine) → ℕ → Prop
  | [], _ => True
  | entry :: running, n => ∃ k m, entry.2.AtMost k ∧ BatchLeft running m ∧ k + 1 + m ≤ n

/-- `n` suffices for the events of the run that are left; the three closing calls are always
counted. -/
def Left (dag : DynamicDag) (s : RunState) (n : ℕ) : Prop :=
  match s.point with
  | .preparing => dag.planCost + 4 ≤ n
  | .level level rest => levelCost s.incoming level + 2 + laterCost s.incoming rest + 3 ≤ n
  | .waiting level rest => levelCost s.incoming level + 1 + laterCost s.incoming rest + 3 ≤ n
  | .batch running queued rest => running ≠ [] ∧ ∃ m, BatchLeft running m ∧
      m + levelCost s.incoming queued + laterCost s.incoming rest + 3 ≤ n
  | .committingCursors _ => 3 ≤ n
  | .committingDedupe => 2 ≤ n
  | .marking _ => 1 ≤ n
  | .returned _ => True

theorem BatchLeft.start (dag : DynamicDag) (s : RunState) (nodes : List Node) :
    BatchLeft (nodes.map (dag.startNode s)) (levelCost s.incoming nodes) := by
  induction nodes with
  | nil => trivial
  | cons node nodes ih =>
    refine ⟨_, _, atMost_runNode dag.input node (s.incoming node.id) s.results, ih, ?_⟩
    simp [levelCost]

/-- A reply to a node of the batch uses one up. -/
theorem BatchLeft.reply {n index : ℕ}
    {call : NodeCall} {k : NodeReply call → Results → NodeCoroutine} (h : BatchLeft running n)
    (hi : running[index]? = some (node, .await call k)) (reply : NodeReply call)
    (results : Results) :
    ∃ m < n, BatchLeft (running.set index (node, k reply results)) m := by
  induction running generalizing n index with
  | nil => simp at hi
  | cons entry running ih =>
    obtain ⟨b, m, hentry, hrest, hle⟩ := h
    cases index with
    | zero =>
      cases hi
      obtain ⟨b, rfl⟩ := hentry.pos
      exact ⟨b + 1 + m, by omega, b, m, hentry reply results, hrest, le_rfl⟩
    | succ index =>
      obtain ⟨m', hlt, hrest'⟩ := ih hrest hi
      exact ⟨b + 1 + m', by omega, b, m', hentry, hrest', le_rfl⟩

variable {n : ℕ}

theorem left_commitDedupe (checkpoints : List JsonMap) (h : 2 ≤ n) :
    Left dag (dag.commitDedupe checkpoints s) n := by
  unfold commitDedupe
  split_ifs
  · change 1 ≤ n
    omega
  · exact h

theorem left_conclude (h : 3 ≤ n) : Left dag (dag.conclude s) n := by
  unfold conclude
  dsimp only
  split_ifs
  · change 1 ≤ n
    omega
  · change 1 ≤ n
    omega
  · exact left_commitDedupe _ (by omega)
  · exact h

theorem left_nextLevel (h : laterCost s.incoming later + 3 ≤ n) :
    Left dag (dag.nextLevel later s) n := by
  cases later with
  | nil => exact left_conclude (by omega)
  | cons level rest =>
    change levelCost s.incoming level + 2 + laterCost s.incoming rest + 3 ≤ n
    simpa [laterCost] using h

theorem left_nextBatch (h : levelCost s.incoming current + laterCost s.incoming later + 3 ≤ n) :
    Left dag (dag.nextBatch current later s) n := by
  unfold nextBatch
  split_ifs with hnil
  · exact left_nextLevel (by omega)
  · refine ⟨?_, _, BatchLeft.start dag s _, ?_⟩
    · have := dag.maxParallel_pos
      simp only [ne_eq, map_eq_nil_iff, take_eq_nil_iff, not_or]
      exact ⟨by omega, hnil⟩
    · change levelCost s.incoming _ + levelCost s.incoming _ + laterCost s.incoming later + 3 ≤ n
      have hsplit : levelCost s.incoming current =
          levelCost s.incoming (current.take dag.maxParallel) +
            levelCost s.incoming (current.drop dag.maxParallel) := by
        rw [levelCost, levelCost, levelCost, ← sum_append, ← map_append, take_append_drop]
      omega

/-- Entering a level without waiting. -/
theorem left_enterLevel_of_not (hgo : ¬ (s.paused ∧ ¬ s.cancelled))
    (h : levelCost s.incoming level + laterCost s.incoming later + 3 ≤ n) :
    Left dag (dag.enterLevel level later s) n := by
  unfold enterLevel
  rw [if_neg hgo]
  split_ifs
  · exact left_conclude (by omega)
  · exact left_nextBatch h

theorem left_enterLevel (h : levelCost s.incoming level + 1 + laterCost s.incoming later + 3 ≤ n) :
    Left dag (dag.enterLevel level later s) n := by
  by_cases hgo : s.paused ∧ ¬ s.cancelled
  · unfold enterLevel
    rw [if_pos hgo]
    exact h
  · exact left_enterLevel_of_not hgo (by omega)

theorem left_plan (h : dag.planCost + 3 ≤ n) : Left dag (dag.plan s) n := by
  unfold planCost at h
  unfold plan
  split
  · trivial
  · rename_i plan hplan
    rw [hplan] at h
    exact left_nextLevel h

/-- **The step lemma of `Left`**: an event of the run uses one up. -/
theorem left_step (h : Left dag s n) (hstep : dag.step s event = some s')
    (hown : event.isOwn) : ∃ m < n, Left dag s' m := by
  unfold Left at h
  cases (dag.step_iff).mp hstep with
  | signal => cases hown
  | prepareFailed hp err =>
    rw [hp] at h
    exact ⟨0, by dsimp only at h; omega, trivial⟩
  | prepared hp =>
    rw [hp] at h
    dsimp only at h
    exact ⟨n - 1, by omega, left_plan (by omega)⟩
  | beginLevel hp =>
    rw [hp] at h
    dsimp only at h
    exact ⟨n - 1, by omega, left_enterLevel (by change levelCost s.incoming _ + 1 + laterCost s.incoming _ + 3 ≤ _; omega)⟩
  | selectResume hp hr | selectCancel hp hr hc =>
    rw [hp] at h
    dsimp only at h
    exact ⟨n - 1, by omega, left_enterLevel_of_not (by simp) (by dsimp only; omega)⟩
  | nodeReply hp hi answer =>
    rw [hp] at h
    obtain ⟨hne, m, hbatch, hle⟩ := h
    obtain ⟨m', hlt, hbatch'⟩ := hbatch.reply hi (answer _) s.results
    refine ⟨n - 1, by omega, by simpa using hne, m', hbatch', ?_⟩
    change m' + levelCost s.incoming _ + laterCost s.incoming _ + 3 ≤ _
    omega
  | @collect node result running queued rest hp =>
    rw [hp] at h
    obtain ⟨-, m, ⟨k, m', -, hrest, hsum⟩, hle⟩ := h
    refine ⟨n - 1, by omega, ?_⟩
    cases running with
    | nil =>
      refine left_nextBatch ?_
      dsimp only
      omega
    | cons entry running =>
      refine ⟨by simp, m', hrest, ?_⟩
      change m' + levelCost s.incoming _ + laterCost s.incoming _ + 3 ≤ _
      omega
  | cursorsFailed hp err =>
    rw [hp] at h
    exact ⟨0, by dsimp only at h; omega, trivial⟩
  | cursorsCommitted hp =>
    rw [hp] at h
    exact ⟨2, by dsimp only at h; omega, left_commitDedupe _ le_rfl⟩
  | dedupeFailed hp err =>
    rw [hp] at h
    exact ⟨0, by dsimp only at h; omega, trivial⟩
  | dedupeCommitted hp =>
    rw [hp] at h
    exact ⟨1, by dsimp only at h; omega, le_refl 1⟩
  | markFailed hp err | marked hp =>
    rw [hp] at h
    exact ⟨0, by dsimp only at h; omega, trivial⟩

/-- Signals use nothing up. -/
theorem left_signal (h : Left dag s n) (hstep : dag.step s event = some s')
    (hown : ¬ event.isOwn) : Left dag s' n := by
  cases (dag.step_iff).mp hstep with
  | signal => exact h
  | _ => exact absurd rfl hown

theorem left_start (dag : DynamicDag) : Left dag dag.start (dag.planCost + 4) := by
  unfold start
  dsimp only
  split_ifs
  · trivial
  · exact le_refl (dag.planCost + 4)
  · exact left_plan (by omega)

end budget

/-! ## The main result -/

/-- The run has returned. -/
def Returned (s : RunState) : Prop := ∃ outcome, s.point = .returned outcome

/-- The run waits for a resume or a cancel. -/
def Blocked (s : RunState) : Prop :=
  ∃ level rest, s.point = .waiting level rest ∧ s.inbox.resume = 0 ∧ s.inbox.cancel = 0

/-- Some event of the run itself can happen next. -/
def CanStep (dag : DynamicDag) (outcomes : Outcomes) (s : RunState) : Prop :=
  ∃ event s', event.isOwn ∧ AnsweredBy outcomes s event ∧ dag.step s event = some s'

/-- An event of the run itself, with a reply by `outcomes`, and nothing that fails. -/
def Smooth (outcomes : Outcomes) (s : RunState) (event : Event) : Prop :=
  event.isOwn = true ∧ event.succeeds = true ∧ AnsweredBy outcomes s event

/-- A run can go on smoothly, but for a pause that nobody ends. -/
theorem smooth_of_left {n : ℕ} (h : Left dag s n) : Returned s ∨ Blocked s ∨
      ∃ event s', Smooth outcomes s event ∧ dag.step s event = some s' := by
  have next : ∀ {event : Event} {s' : RunState}, dag.Stepped s event s' → event.isOwn →
      event.succeeds → AnsweredBy outcomes s event → Returned s ∨ Blocked s ∨
        ∃ event s', Smooth outcomes s event ∧ dag.step s event = some s' := by
    intro event s' hstep hown hsucceeds hanswer
    exact .inr (.inr ⟨event, s', ⟨hown, hsucceeds, hanswer⟩, dag.step_iff.mpr hstep⟩)
  unfold Left at h
  cases hp : s.point with
  | preparing => exact next (.prepared hp) rfl rfl trivial
  | level level rest => exact next (.beginLevel hp) rfl rfl trivial
  | waiting level rest =>
    by_cases hr : 0 < s.inbox.resume
    · exact next (.selectResume hp hr) rfl rfl trivial
    · by_cases hc : 0 < s.inbox.cancel
      · exact next (.selectCancel hp (by omega) hc) rfl rfl trivial
      · exact .inr (.inl ⟨level, rest, hp, by omega, by omega⟩)
  | batch running queued rest =>
    rw [hp] at h
    cases running with
    | nil => exact absurd rfl h.1
    | cons entry running =>
      obtain ⟨node, c⟩ := entry
      cases c with
      | done result => exact next (.collect hp) rfl rfl trivial
      | await call k =>
        have hi : ((node, Coroutine.await call k) :: running)[0]? = some (node, .await call k) :=
          rfl
        refine next (.nodeReply hp hi (outcomes.answer node)) rfl rfl ?_
        intro node' call' k' hentry
        rw [hp] at hentry
        cases hentry
        rfl
  | committingCursors checkpoints => exact next (.cursorsCommitted hp) rfl rfl trivial
  | committingDedupe => exact next (.dedupeCommitted hp) rfl rfl trivial
  | marking phase => exact next (.marked hp) rfl rfl trivial
  | returned outcome => exact .inl ⟨outcome, hp⟩

/-- **A run is never stuck**, but for a pause that nobody ends. -/
theorem canStep_of_left {n : ℕ} (h : Left dag s n) :
    Returned s ∨ Blocked s ∨ CanStep dag outcomes s := by
  rcases smooth_of_left outcomes h with hreturned | hblocked | ⟨event, s', hsmooth, hstep⟩
  · exact .inl hreturned
  · exact .inr (.inl hblocked)
  · exact .inr (.inr ⟨event, s', hsmooth.1, hsmooth.2.2, hstep⟩)

/-- **A run settles**, whatever the replies and the signals so far: it takes a bounded number of
events of its own, and from every state that it reaches, replies alone bring it to its end or to a
pause. -/
theorem settles_of_run {allowed : List Event → RunState → Event → Prop} (h : dag.Run allowed es s) :
    es.countP Event.isOwn ≤ dag.planCost + 4 ∧ ∃ es' s',
      Transition.Run dag.step (fun _ => Smooth outcomes) s es' s' ∧ (Returned s' ∨ Blocked s') := by
  obtain ⟨n, hleft, hcount⟩ := h.budget Event.isOwn (Left dag) (left_start dag)
    (fun _ _ _ _ _ hleft _ hstep hown => left_step hleft hstep hown)
    (fun _ _ _ _ _ hleft _ hstep hown => left_signal hleft hstep hown)
  refine ⟨by omega, ?_⟩
  have hprogress : ∀ s n, Left dag s n → (Returned s ∨ Blocked s) ∨
      ∃ event s' m, Smooth outcomes s event ∧ dag.step s event = some s' ∧ m < n ∧ Left dag s' m := by
    intro s n hleft
    rcases smooth_of_left outcomes hleft with hreturned | hblocked | ⟨event, s', hsmooth, hstep⟩
    · exact .inl (.inl hreturned)
    · exact .inl (.inr hblocked)
    · obtain ⟨m, hlt, hleft'⟩ := left_step hleft hstep hsmooth.1
      exact .inr ⟨event, s', m, hsmooth, hstep, hlt, hleft'⟩
  simpa using Transition.exists_run_to_final hprogress .start hleft

theorem settles_of_run_source : let dag : DynamicDag :=
      { info := {}, request := { definition := { nodes := [{ id := "source", type := .source }] } }
        ranging := .entries }
    ∃ es s, Transition.Run dag.step (fun _ => Smooth (.successful {})) dag.start es s ∧
      (Returned s ∨ Blocked s) := by
  intro dag
  exact (settles_of_run (.successful {}) (.start : dag.Run Transition.Any [] dag.start)).2

/-- Only a cancel signal cancels. -/
theorem not_cancelled_step (h : s.cancelled = false ∧ s.inbox.cancel = 0)
    (hevent : event ≠ .signal .cancel) (hstep : dag.step s event = some s') :
    s'.cancelled = false ∧ s'.inbox.cancel = 0 := by
  have hframe : ∀ {t t' : RunState}, Frame t t' → t.cancelled = false ∧ t.inbox.cancel = 0 →
      t'.cancelled = false ∧ t'.inbox.cancel = 0 := fun hf ht => by
    rwa [hf.cancelled, hf.inbox]
  cases (dag.step_iff).mp hstep with
  | signal signal =>
    cases signal with
    | pause | resume => exact h
    | cancel => exact absurd rfl hevent
  | prepareFailed hp err => exact h
  | prepared hp =>
    obtain ⟨hinbox, -, hcancelled, -⟩ := dag.frame_plan s
    rwa [hinbox, hcancelled]
  | beginLevel hp =>
    exact hframe (dag.frame_enterLevel _ _ _) ⟨by simp [drainSignals, h], by simp [drainSignals]⟩
  | selectResume hp hr => exact hframe (dag.frame_enterLevel _ _ _) h
  | selectCancel hp hr hc => exact absurd h.2 (by omega)
  | nodeReply hp hi answer => exact h
  | collect hp => exact hframe (dag.frame_store _ _ _ _ _ s) h
  | cursorsFailed hp err => exact h
  | cursorsCommitted hp => exact hframe (dag.frame_commitDedupe _ s) h
  | dedupeFailed hp err | dedupeCommitted hp | markFailed hp err | marked hp => exact h

/-- No cancel signal comes, and the activities of the nodes answer by `outcomes`. -/
def Uncancelled (outcomes : Outcomes) (_ : List Event) (s : RunState) (event : Event) : Prop :=
  event ≠ .signal .cancel ∧ AnsweredBy outcomes s event

theorem not_cancelled_of_run (hallowed : ∀ es s event, allowed es s event → event ≠ .signal .cancel)
    (h : dag.Run allowed es s) : s.cancelled = false ∧ s.inbox.cancel = 0 := by
  refine h.invariant (I := fun _ s => s.cancelled = false ∧ s.inbox.cancel = 0) ?_ ?_
  · obtain ⟨hinbox, -, hcancelled, -⟩ := dag.frame_start
    exact ⟨hcancelled, by rw [hinbox]⟩
  · intro es s event s' hs hok hstep
    exact not_cancelled_step hs (hallowed es s event hok) hstep

/-- When an uncancelled run has ended regularly, every node is finished. -/
theorem Progress.complete (h : dag.Progress s) (hcancelled : s.cancelled = false)
    (hcurrent : s.point.current = []) (hlater : s.point.later = []) (id : String) :
    id ∈ s.results ↔ id ∈ dag.input.definition.nodes.map Node.id := by
  have hat := h.at_point
  rw [hcurrent, hlater] at hat
  refine ⟨hat.only id, fun hid => ?_⟩
  obtain ⟨node, hnode, rfl⟩ := mem_map.mp hid
  rcases hat.covered hcancelled node hnode with hdone | htodo
  · exact hdone
  · cases htodo

/-- **An uncancelled run that has returned a phase** has a result for each node, and the phase is
the final one. -/
theorem complete_of_returned (hdag : IsDag dag.input.definition) (hrun : dag.Run allowed es s)
    (hcancelled : s.cancelled = false) {phase : Phase}
    (hreturned : s.point = .returned (.ok phase)) :
    (∀ id, id ∈ s.results ↔ id ∈ dag.input.definition.nodes.map Node.id) ∧
      phase = s.finalPhase := by
  have hprogress : dag.Progress s := by
    rcases progress_of_run hdag hrun with ⟨-, hp | ⟨err, hp⟩⟩ | hprogress
    · simp [hp] at hreturned
    · simp [hp] at hreturned
    · exact hprogress
  have hclosed := closed_of_run hrun
  rw [Closed, hreturned] at hclosed
  exact ⟨hprogress.complete hcancelled (by rw [hreturned]; rfl) (by rw [hreturned]; rfl), hclosed.1⟩

theorem anyFailed_iff : anyFailed results = true ↔ ∃ id result, results.lookup id = some result ∧
      result.status = .failed := by
  unfold anyFailed
  rw [any_eq_true]
  constructor
  · rintro ⟨⟨id, result⟩, hmem, hstatus⟩
    exact ⟨id, result, AList.mem_lookup_iff.mpr hmem, by simpa using hstatus⟩
  · rintro ⟨id, result, hlookup, hstatus⟩
    exact ⟨⟨id, result⟩, AList.mem_lookup_iff.mp hlookup, by simpa using hstatus⟩

/-- **The result of a run does not depend on scheduling.** Over an acyclic definition, for every
batch size, every order of replies and every pattern of pauses, an uncancelled run

* takes a bounded number of events of its own, and is never stuck before it returns unless it is
  paused and nobody resumes it;
* starts a node only when its predecessors have results;
* stores only the results of the recursive evaluation;
* when it returns a phase, has stored exactly one result for each node, and the phase is failed iff
  some result is failed, and completed otherwise;
* returns an error only when one of the activities that prepare, commit or mark has failed, or the
  row id of a scheduled run is missing.

Source: `dynamic_dag.go` `DynamicDAGWorkflow`, `runNode` -/
theorem run_eq_recursiveEvaluation (dag : DynamicDag) (outcomes : Outcomes)
    (hdag : IsDag dag.input.definition) (order : List String)
    (horder : Topological (HasEdge dag.input.definition.edges) order)
    (hperm : order.Perm (dag.input.definition.nodes.map Node.id)) :
    (∃ bound, ∀ es s, dag.Run (Uncancelled outcomes) es s →
      es.countP Event.isOwn ≤ bound ∧ (Returned s ∨ Blocked s ∨ CanStep dag outcomes s)) ∧
    ∀ es s, dag.Run (Uncancelled outcomes) es s →
      (∀ entry ∈ s.point.running, ∀ edge ∈ dag.input.definition.edges,
        edge.target = entry.1.id → edge.source ∈ s.results) ∧
      (∀ id result, s.results.lookup id = some result →
        recursiveEvaluation outcomes dag.input order id = some result) ∧
      (∀ phase, s.point = .returned (.ok phase) →
        s.results.keys.Perm (dag.input.definition.nodes.map Node.id) ∧
        (∀ id, s.results.lookup id = recursiveEvaluation outcomes dag.input order id) ∧
        (phase = .failed ∨ phase = .completed) ∧
        (phase = .failed ↔ ∃ id result,
          recursiveEvaluation outcomes dag.input order id = some result ∧
            result.status = .failed)) ∧
      (∀ err, s.point = .returned (.error err) →
        dag.RowMissing ∨ (∃ event ∈ es, event.aborts) ∨ .marked (.error err) ∈ es) := by
  have hwf := hdag.wellFounded
  have hlocal := local_resultAt outcomes dag.input
  refine ⟨⟨dag.planCost + 4, fun es s hrun => ?_⟩, fun es s hrun => ?_⟩
  · obtain ⟨m, hleft, hcount⟩ := hrun.budget Event.isOwn (Left dag) (left_start dag)
      (fun _ _ _ _ _ hleft _ hstep hown => left_step hleft hstep hown)
      (fun _ _ _ _ _ hleft _ hstep hown => left_signal hleft hstep hown)
    exact ⟨by omega, canStep_of_left outcomes hleft⟩
  · have hprogress := progress_of_run hdag hrun
    have hvalued := valued_of_run hdag (fun _ _ _ hok => hok.2) hrun
    have hcancelled := (not_cancelled_of_run (fun _ _ _ hok => hok.1) hrun).1
    have hends := ends_of_run hrun
    have hmem : ∀ id, id ∈ order ↔ id ∈ dag.input.definition.nodes.map Node.id :=
      fun id => hperm.mem_iff
    refine ⟨fun entry hentry edge hedge htarget => ?_, fun id result hlookup => ?_,
      fun phase hpoint => ?_, fun err hpoint => ?_⟩
    · rcases hprogress with ⟨-, hp | ⟨err, hp⟩⟩ | hprogress
      · simp [hp, Point.running] at hentry
      · simp [hp, Point.running] at hentry
      · exact hprogress.at_point.ready entry.1 (Point.mem_current hentry) edge hedge htarget
    · have hid : id ∈ order := by
        rw [hmem]
        rcases hprogress with ⟨hempty, -⟩ | hprogress
        · simp [hempty] at hlookup
        · exact hprogress.at_point.only id (AList.lookup_isSome.mp (by simp [hlookup]))
      rw [← hlookup, eq_comm]
      exact hvalued.solution.unique hwf hlocal (.evaluateAll hlocal horder) id (by simp [hlookup])
        ((evaluateAll_isSome order id).mpr hid)
    · obtain ⟨hcomplete, hphase⟩ := complete_of_returned hdag hrun hcancelled hpoint
      have heq : ∀ id, s.results.lookup id = recursiveEvaluation outcomes dag.input order id := by
        refine congrFun (hvalued.solution.eq_evaluateAll hwf hlocal horder fun id => ?_)
        rw [AList.lookup_isSome, hcomplete, hmem]
      rw [RunState.finalPhase, hcancelled] at hphase
      simp only [Bool.false_eq_true, if_false] at hphase
      refine ⟨?_, heq, ?_, ?_⟩
      · exact (perm_ext_iff_of_nodup s.results.keys_nodup hdag.ids).mpr hcomplete
      · rw [hphase]
        split_ifs
        · exact .inl rfl
        · exact .inr rfl
      · simp only [← heq, ← anyFailed_iff]
        rw [hphase]
        simp
    · rcases hends.returned _ hpoint with ⟨haborted, -⟩ | ⟨-, -, hmark⟩
      · rcases haborted with hrow | ⟨err', hplan⟩ | hevent
        · exact .inl hrow
        · obtain ⟨plan, hok, -⟩ := buildPlan_ok hdag.ids hdag.known hdag.acyclic
          rw [hok] at hplan
          cases hplan
        · exact .inr (.inl hevent)
      · exact .inr (.inr (hmark err rfl))

/-- The theorem at a source and a sink, with activities that always succeed. -/
theorem run_eq_recursiveEvaluation_pair :
    let nodes : List Node := [{ id := "source", type := .source }, { id := "sink", type := .sink }]
    let dag : DynamicDag :=
      { info := {}
        request := { definition := { nodes, edges := [{ source := "source", target := "sink" }] } }
        ranging := .entries }
    ∃ bound, ∀ es s, dag.Run (Uncancelled (.successful {})) es s → es.countP Event.isOwn ≤ bound ∧
      ∀ phase, s.point = .returned (.ok phase) → s.results.keys.Perm ["source", "sink"] := by
  intro nodes dag
  have horder : Topological (HasEdge dag.input.definition.edges) ["source", "sink"] := by
    intro pre v post h
    rcases pre with _ | ⟨x, _ | ⟨y, pre⟩⟩
    · cases h
      refine ⟨by simp, fun u hu => ?_⟩
      obtain ⟨edge, he, -, ht⟩ := hu
      rw [mem_singleton.mp he] at ht
      exact absurd ht (by decide)
    · cases h
      refine ⟨by simp, fun u hu => ?_⟩
      obtain ⟨edge, he, hs, -⟩ := hu
      rw [mem_singleton.mp he] at hs
      simp [← hs]
    · simp at h
  obtain ⟨⟨bound, hbound⟩, hruns⟩ := run_eq_recursiveEvaluation dag (.successful {}) (by decide)
    ["source", "sink"] horder (.refl _)
  exact ⟨bound, fun es s hrun => ⟨(hbound es s hrun).1, fun phase hpoint =>
    ((hruns es s hrun).2.2.1 phase hpoint).1⟩⟩

end DynamicDag

end Dataflow.Workflows
