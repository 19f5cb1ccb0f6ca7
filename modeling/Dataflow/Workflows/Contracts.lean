import Dataflow.Workflows.Scheduling

/-!
# Contracts: from one node to all nodes of a run

A contract says which replies a node may get and what its activities and its result then satisfy. It
is proved of the coroutine of a node alone; a run in which all replies keep to it satisfies it for
every node, whatever the order of events.

* `callsOf`: the activities of a node in the log of a run.
* `guarantees_runNode_of_body`: the conditions of a node, and then its body.
* `NodeContract`: the contract, with the proof that `runNode` keeps it.
* `Tracked`: the log and the results of a run agree with the contract, for finished and running
  nodes; `tracked_of_run` says that every run keeps this.
* `NodeContract.post_of_run`: **the rule**: every finished node satisfies the postcondition.
-/

namespace Dataflow.Workflows

open Model Library List

/-! ## The log of a run -/

/-- The activities of a node in a log. -/
def callsOf (log : List WorkflowCall) (id : String) : List NodeCall :=
  log.filterMap fun
    | .node nodeId call => if nodeId = id then some call else none
    | _ => none

@[simp] theorem callsOf_append (log log' : List WorkflowCall) (id : String) :
    callsOf (log ++ log') id = callsOf log id ++ callsOf log' id :=
  filterMap_append ..

theorem callsOf_singleton_node (nodeId : String) (call : NodeCall) (id : String) :
    callsOf [.node nodeId call] id = if nodeId = id then [call] else [] := by
  unfold callsOf
  split_ifs with h <;> simp [h]

/-- The closing calls belong to no node. -/
theorem callsOf_closing {call : WorkflowCall} (h : call.isClosing = true) (id : String) :
    callsOf [call] id = [] := by
  cases call with
  | prepareScheduledExecution | node => cases h
  | commitSourceCursors | commitDedupeKeys | markExecution => rfl

/-- The result of a node that is no predecessor changes nothing for the node. -/
theorem agreeOn_insert {inEdges : List Edge} {results : Results} {id : String}
    (hfresh : id ∉ results) (hready : ∀ edge ∈ inEdges, edge.source ∈ results)
    (result : NodeResult) : AgreeOn inEdges results (results.insert id result) := by
  intro edge he
  refine (AList.lookup_insert_ne fun heq => hfresh ?_).symm
  exact heq ▸ hready edge he

theorem callsOf_pending (entry : Node × NodeCoroutine) (id : String) :
    callsOf (DynamicDag.pendingCall entry).toList id =
      if entry.1.id = id then entry.2.pending?.toList else [] := by
  obtain ⟨node, c⟩ := entry
  cases c with
  | done value => exact (ite_self []).symm
  | await call k => exact callsOf_singleton_node node.id call id

theorem callsOf_batch_of_not_mem {running : List (Node × NodeCoroutine)} {id : String}
    (h : id ∉ running.map fun entry => entry.1.id) :
    callsOf (running.filterMap DynamicDag.pendingCall) id = [] := by
  induction running with
  | nil => rfl
  | cons entry running ih =>
    rw [map_cons, mem_cons, not_or] at h
    rw [Lists.filterMap_cons_toList, callsOf_append, callsOf_pending, if_neg (Ne.symm h.1), ih h.2]
    rfl

/-- A batch that starts adds the pending call of each of its nodes. -/
theorem callsOf_batch {running : List (Node × NodeCoroutine)}
    (hnodup : (running.map fun entry => entry.1.id).Nodup) {entry : Node × NodeCoroutine}
    (hentry : entry ∈ running) :
    callsOf (running.filterMap DynamicDag.pendingCall) entry.1.id = entry.2.pending?.toList := by
  induction running with
  | nil => cases hentry
  | cons first running ih =>
    rw [map_cons, nodup_cons] at hnodup
    rw [Lists.filterMap_cons_toList, callsOf_append, callsOf_pending]
    rcases mem_cons.mp hentry with rfl | hentry
    · rw [if_pos rfl, callsOf_batch_of_not_mem hnodup.1, append_nil]
    · have hne : first.1.id ≠ entry.1.id := by
        intro heq
        exact hnodup.1 (heq ▸ mem_map_of_mem hentry)
      rw [if_neg hne, ih hnodup.2 hentry]
      rfl

variable {node : Node}

/-- **The conditions come first**: a node is skipped, fails at a condition, or does what its body
does after the calls of its conditions. -/
theorem guarantees_runNode_of_body {input : WorkflowInput} {inEdges : List Edge}
    {results : Results} {answers : ∀ call, NodeReply call → Prop} {ok : Results → Prop}
    {post : List NodeCall → NodeResult → Prop} (asked : List NodeCall → Prop) (hnil : asked [])
    (hasked : ∀ made params, asked made → asked (made ++ [.evalEdgeCondition params]))
    (hskipped : ∀ made, post made (skipped node.id))
    (hfailed : ∀ made params err, answers (.evalEdgeCondition params) (.error err) →
      post made (failed node.id err))
    (hbody : ∀ made results', asked made → ok results' →
      (runBody input node inEdges results').Guarantees answers ok post made) (hok : ok results) :
    (runNode input node inEdges results).Guarantees answers ok post [] := by
  have hconditions : ∀ (es : List Edge) (results' : Results) (made : List NodeCall), asked made →
      ok results' → (evalConditions input node (runBody input node inEdges) es results').Guarantees
        answers ok post made := by
    intro es
    induction es with
    | nil => exact fun results' made hmade hok => hbody made results' hmade hok
    | cons edge rest ih =>
      intro results' made hmade hok
      rw [evalConditions]
      split_ifs
      · exact ih results' made hmade hok
      · intro reply s hreply hs
        rcases reply with err | _ | _
        · exact hfailed _ _ err hreply
        · exact hskipped _
        · exact ih s _ (hasked _ _ hmade) hs
  unfold runNode
  dsimp only
  split_ifs
  · exact hskipped []
  · exact hconditions inEdges results [] hnil hok

namespace DynamicDag

variable {dag : DynamicDag} {s s' : RunState} {current : List Node} {later : List (List Node)}
  {running : List (Node × NodeCoroutine)}

theorem callsOf_mark (phase : Phase) (id : String) :
    callsOf (dag.mark phase s).scheduled id = callsOf s.scheduled id := by
  show callsOf (s.scheduled ++ [_]) id = _
  rw [callsOf_append, callsOf_closing rfl, append_nil]

theorem callsOf_commitDedupe (checkpoints : List JsonMap) (id : String) :
    callsOf (dag.commitDedupe checkpoints s).scheduled id = callsOf s.scheduled id := by
  unfold commitDedupe
  split_ifs
  · exact callsOf_mark _ id
  · rw [callsOf_append, callsOf_closing rfl, append_nil]

theorem callsOf_conclude (id : String) :
    callsOf (dag.conclude s).scheduled id = callsOf s.scheduled id := by
  unfold conclude
  dsimp only
  split_ifs
  · exact callsOf_mark _ id
  · exact callsOf_mark _ id
  · exact callsOf_commitDedupe _ id
  · rw [callsOf_append, callsOf_closing rfl, append_nil]

theorem callsOf_nextLevel (rest : List (List Node)) (id : String) :
    callsOf (dag.nextLevel rest s).scheduled id = callsOf s.scheduled id := by
  cases rest with
  | nil => exact callsOf_conclude id
  | cons level rest => rfl

/-! ## Contracts -/

/-- What the nodes of a run rely on and guarantee. The postcondition reads the result map at the
sources of the in-edges only. -/
structure NodeContract (dag : DynamicDag) where
  answers : Node → ∀ call, NodeReply call → Prop
  post : Node → Results → List NodeCall → NodeResult → Prop
  congr : ∀ node results results',
    AgreeOn (inEdges dag.input.definition.edges node.id) results results' →
      post node results = post node results'
  starts : ∀ node results,
    (runNode dag.input node (inEdges dag.input.definition.edges node.id) results).Guarantees
      (answers node) (AgreeOn (inEdges dag.input.definition.edges node.id) results)
      (post node results) []

/-- The event is no reply, or a reply within the contract. -/
def NodeContract.Answered {dag : DynamicDag} (contract : NodeContract dag) (s : RunState) :
    Event → Prop
  | .nodeReply index answer => ∀ node call k,
      s.point.running[index]? = some (node, .await call k) → contract.answers node call (answer call)
  | _ => True

/-- A contract for any replies. -/
theorem NodeContract.answered_of_forall {contract : NodeContract dag}
    (h : ∀ node call reply, contract.answers node call reply) (s : RunState) (event : Event) :
    contract.Answered s event := by
  cases event with
  | nodeReply index answer => exact fun node call _ _ => h node call (answer call)
  | _ => trivial

/-- With the nodes `running` in progress: the finished nodes satisfy the postcondition, and the
running ones are on their way to it. -/
structure TrackedAt (contract : NodeContract dag) (s : RunState)
    (running : List (Node × NodeCoroutine)) : Prop where
  known : ∀ id ∈ s.results, (nodeAt dag.input.definition.nodes id).id = id
  closed : ∀ id ∈ s.results, ∀ edge ∈ inEdges dag.input.definition.edges id, edge.source ∈ s.results
  finished : ∀ id result, s.results.lookup id = some result →
    contract.post (nodeAt dag.input.definition.nodes id) s.results (callsOf s.scheduled id) result
  inProgress : ∀ entry ∈ running, ∃ made,
    callsOf s.scheduled entry.1.id = made ++ entry.2.pending?.toList ∧
      entry.2.Guarantees (contract.answers entry.1)
        (AgreeOn (inEdges dag.input.definition.edges entry.1.id) s.results)
        (contract.post entry.1 s.results) made
  fresh : ∀ id, id ∉ s.results → id ∉ (running.map fun entry => entry.1.id) →
    callsOf s.scheduled id = []

/-- The log and the results agree with the contract. -/
def Tracked (contract : NodeContract dag) (s : RunState) : Prop :=
  TrackedAt contract s s.point.running

variable {contract : NodeContract dag}

/-- Steps that neither store a result nor call an activity of a node. -/
theorem TrackedAt.quiet (h : TrackedAt contract s running) (hresults : s'.results = s.results)
    (hcalls : ∀ id, callsOf s'.scheduled id = callsOf s.scheduled id) :
    TrackedAt contract s' running where
  known := by
    rw [hresults]
    exact h.known
  closed := by
    rw [hresults]
    exact h.closed
  finished id := by
    rw [hresults, hcalls]
    exact h.finished id
  inProgress entry hentry := by
    rw [hresults, hcalls]
    exact h.inProgress entry hentry
  fresh id := by
    rw [hresults, hcalls]
    exact h.fresh id

theorem TrackedAt.nextLevel (h : TrackedAt contract s []) (rest : List (List Node)) :
    Tracked contract (dag.nextLevel rest s) := by
  rw [Tracked, dag.running_nextLevel]
  exact h.quiet (dag.frame_nextLevel rest s).results (callsOf_nextLevel rest)

/-- **A batch starts.** -/
theorem TrackedAt.nextBatch (hs : dag.ProgressAt s current later) (h : TrackedAt contract s []) :
    Tracked contract (dag.nextBatch current later s) := by
  unfold DynamicDag.nextBatch
  split_ifs with hnil
  · exact h.nextLevel later
  · set batch := current.take dag.maxParallel with hbatch
    have hids : (batch.map (dag.startNode s)).map (fun entry => entry.1.id) =
        batch.map Node.id := by
      rw [map_map]
      rfl
    have hsub : ∀ node ∈ batch, node ∈ current ++ later.flatten := by
      intro node hnode
      exact mem_append_left _ (mem_of_mem_take hnode)
    have hnodup : (batch.map Node.id).Nodup := by
      refine hs.nodup.sublist (List.Sublist.map _ ?_)
      exact (take_sublist _ _).trans (sublist_append_left _ _)
    refine ⟨h.known, h.closed, ?_, ?_, ?_⟩
    · intro id result hlookup
      have hnot : id ∉ (batch.map (dag.startNode s)).map fun entry => entry.1.id := by
        rw [hids]
        intro hmem
        obtain ⟨node, hnode, rfl⟩ := mem_map.mp hmem
        exact hs.fresh node (hsub node hnode) (AList.lookup_isSome.mp (by simp [hlookup]))
      rw [callsOf_append, callsOf_batch_of_not_mem hnot, append_nil]
      exact h.finished id result hlookup
    · intro entry hentry
      obtain ⟨node, hnode, rfl⟩ := mem_map.mp hentry
      refine ⟨[], ?_, ?_⟩
      · show callsOf (s.scheduled ++ _) node.id = _
        rw [callsOf_append, h.fresh node.id (hs.fresh node (hsub node hnode)) (by simp)]
        exact callsOf_batch (hids ▸ hnodup) hentry
      · show (runNode dag.input node (s.incoming node.id) s.results).Guarantees _ _ _ _
        rw [hs.incoming]
        exact contract.starts node s.results
    · intro id hresults hrunning
      have hbatched := callsOf_batch_of_not_mem hrunning
      rw [callsOf_append, h.fresh id hresults (by simp)]
      exact hbatched

theorem TrackedAt.enterLevel (hdag : IsDag dag.input.definition) {level : List Node}
    (hs : dag.ProgressAt s [] (level :: later)) (h : TrackedAt contract s []) :
    Tracked contract (dag.enterLevel level later s) := by
  unfold DynamicDag.enterLevel
  split_ifs with hwait hcancelled
  · exact h.quiet rfl fun _ => rfl
  · rw [Tracked, (dag.idle_conclude s).running]
    exact h.quiet (dag.frame_conclude s).results callsOf_conclude
  · exact h.nextBatch (hs.begin hdag (by simpa using hcancelled))

/-- **The first node of the batch is stored.** -/
theorem TrackedAt.store (hdag : IsDag dag.input.definition) {result : NodeResult}
    (hs : dag.ProgressAt s (node :: current) later) (hcurrent : running.map Prod.fst ⊆ current)
    (h : TrackedAt contract s ((node, .done result) :: running)) :
    TrackedAt contract { s with results := s.results.insert node.id result } running := by
  have hfresh : node.id ∉ s.results := hs.fresh node (by simp)
  have hready : ∀ other ∈ node :: current, ∀ edge ∈ inEdges dag.input.definition.edges other.id,
      edge.source ∈ s.results := by
    intro other hother edge he
    obtain ⟨hedge, htarget⟩ := mem_inEdges.mp he
    exact hs.ready other hother edge hedge htarget
  have hnode : nodeAt dag.input.definition.nodes node.id = node :=
    nodeAt_of_mem hdag.ids (hs.sub (by simp))
  refine ⟨?_, ?_, ?_, ?_, ?_⟩
  · intro id hid
    rcases (AList.mem_insert _).mp hid with rfl | hid
    · rw [hnode]
    · exact h.known id hid
  · intro id hid edge he
    refine (AList.mem_insert _).mpr (.inr ?_)
    rcases (AList.mem_insert _).mp hid with rfl | hid
    · exact hready node (by simp) edge he
    · exact h.closed id hid edge he
  · intro id stored hlookup
    by_cases hid : id = node.id
    · subst hid
      rw [AList.lookup_insert, Option.some.injEq] at hlookup
      subst hlookup
      obtain ⟨made, hmade, hfed⟩ := h.inProgress (node, .done result) (by simp)
      rw [hnode, ← contract.congr node _ _ (agreeOn_insert hfresh (hready node (by simp)) result)]
      rw [hmade]
      exact (append_nil made).symm ▸ hfed
    · rw [AList.lookup_insert_ne hid] at hlookup
      have hmem : id ∈ s.results := AList.lookup_isSome.mp (by simp [hlookup])
      have hfound : (nodeAt dag.input.definition.nodes id).id = id := h.known id hmem
      have hclosed := h.closed id hmem
      rw [← hfound] at hclosed
      rw [← contract.congr _ _ _ (agreeOn_insert hfresh hclosed result)]
      exact h.finished id stored hlookup
  · intro entry hentry
    obtain ⟨made, hmade, hguarantees⟩ := h.inProgress entry (mem_cons_of_mem _ hentry)
    have hagree := agreeOn_insert hfresh
      (hready entry.1 (mem_cons_of_mem _ (hcurrent (mem_map_of_mem hentry)))) result
    refine ⟨made, hmade, ?_⟩
    rw [← contract.congr entry.1 _ _ hagree]
    refine hguarantees.consequence (fun _ _ hreply => hreply) ?_ (fun _ _ hpost => hpost)
    intro results hresults edge he
    exact (hagree edge he).trans (hresults edge he)
  · intro id hid hrunning
    rw [AList.mem_insert, not_or] at hid
    apply h.fresh id hid.2
    rw [map_cons, mem_cons, not_or]
    exact ⟨hid.1, hrunning⟩

/-- Two nodes of a batch have different ids. -/
theorem ids_ne (hnodup : (running.map fun entry => entry.1.id).Nodup) {i j : ℕ}
    {entry entry' : Node × NodeCoroutine} (hi : running[i]? = some entry)
    (hj : running[j]? = some entry') (hij : i ≠ j) : entry.1.id ≠ entry'.1.id := by
  obtain ⟨hilt, rfl⟩ := List.getElem?_eq_some_iff.mp hi
  obtain ⟨hjlt, rfl⟩ := List.getElem?_eq_some_iff.mp hj
  have hpairs := pairwise_iff_getElem.mp (pairwise_map.mp hnodup)
  rcases Nat.lt_or_gt_of_ne hij with hlt | hgt
  · exact hpairs i j hilt hjlt hlt
  · exact (hpairs j i hjlt hilt hgt).symm

/-- **A reply has arrived.** -/
theorem TrackedAt.advance {call : NodeCall}
    {k : NodeReply call → Results → NodeCoroutine} {index : ℕ}
    (hnodup : (running.map fun entry => entry.1.id).Nodup) (hnew : node.id ∉ s.results)
    (h : TrackedAt contract s running)
    (hi : running[index]? = some (node, .await call k)) (answer : ∀ call, NodeReply call)
    (hanswer : contract.answers node call (answer call)) (queued : List Node)
    (rest : List (List Node)) :
    TrackedAt contract (advance index node (k (answer call) s.results) running queued rest s)
      (running.set index (node, k (answer call) s.results)) := by
  have hcalls :
      ∀ id, callsOf (s.scheduled ++ (pendingCall (node, k (answer call) s.results)).toList)
      id = callsOf s.scheduled id ++
        if node.id = id then (k (answer call) s.results).pending?.toList else [] := by
    intro id
    rw [callsOf_append, callsOf_pending]
  have hother : ∀ id, node.id ≠ id → callsOf (s.scheduled ++
      (pendingCall (node, k (answer call) s.results)).toList) id = callsOf s.scheduled id := by
    intro id hid
    rw [hcalls, if_neg hid, append_nil]
  refine ⟨h.known, h.closed, ?_, ?_, ?_⟩
  · intro id result hlookup
    have hid : node.id ≠ id := by
      rintro rfl
      exact hnew (AList.lookup_isSome.mp (hlookup ▸ rfl))
    show contract.post _ _ (callsOf (s.scheduled ++ _) id) result
    rw [hother id hid]
    exact h.finished id result hlookup
  · intro entry hentry
    obtain ⟨j, hj⟩ := mem_iff_getElem?.mp hentry
    show ∃ made, callsOf (s.scheduled ++ _) _ = _ ∧ _
    by_cases hij : index = j
    · subst hij
      rw [getElem?_set_self (List.getElem?_eq_some_iff.mp hi).1, Option.some.injEq] at hj
      subst hj
      obtain ⟨made, hmade, hguarantees⟩ := h.inProgress _ (mem_of_getElem? hi)
      refine ⟨made ++ [call], ?_, hguarantees (answer call) s.results hanswer fun _ _ => rfl⟩
      rw [hcalls, if_pos rfl, hmade]
      rfl
    · rw [getElem?_set_ne hij] at hj
      obtain ⟨made, hmade, hguarantees⟩ := h.inProgress entry (mem_of_getElem? hj)
      refine ⟨made, ?_, hguarantees⟩
      rw [hother entry.1.id (ids_ne hnodup hi hj hij), hmade]
  · intro id hid hrunning
    show callsOf (s.scheduled ++ _) id = []
    have hids :
        (running.set index (node, k (answer call) s.results)).map (fun entry => entry.1.id) =
        running.map fun entry => entry.1.id := by
      have hset : (running.set index (node, k (answer call) s.results)).map Prod.fst =
          running.map Prod.fst := map_fst_set hi
      replace hset := congrArg (List.map Node.id) hset
      rwa [map_map, map_map] at hset
    rw [hids] at hrunning
    have hne : node.id ≠ id := by
      rintro rfl
      exact hrunning (mem_map_of_mem (f := fun entry => entry.1.id) (mem_of_getElem? hi))
    rw [hother id hne]
    exact h.fresh id hid hrunning

/-- The parts of a run that neither store nor call: nothing is in progress. -/
theorem Tracked.quiet (h : Tracked contract s) (hrunning : s.point.running = [])
    (hrunning' : s'.point.running = []) (hresults : s'.results = s.results)
    (hcalls : ∀ id, callsOf s'.scheduled id = callsOf s.scheduled id) : Tracked contract s' := by
  rw [Tracked, hrunning] at h
  rw [Tracked, hrunning']
  exact h.quiet hresults hcalls

/-- Without results there is nothing to track. -/
theorem tracked_of_empty (hresults : s.results = ∅) (hrunning : s.point.running = [])
    (hcalls : ∀ id, callsOf s.scheduled id = []) : Tracked contract s := by
  refine ⟨?_, ?_, ?_, ?_, fun id _ _ => hcalls id⟩
  · intro id hid
    rw [hresults] at hid
    exact absurd hid (AList.notMem_empty id)
  · intro id hid
    rw [hresults] at hid
    exact absurd hid (AList.notMem_empty id)
  · intro id result hlookup
    simp [hresults] at hlookup
  · intro entry hentry
    simp [hrunning] at hentry

theorem tracked_plan (h : Tracked contract s) (hrunning : s.point.running = []) :
    Tracked contract (dag.plan s) := by
  refine h.quiet hrunning (dag.running_plan s) (dag.frame_plan s).2.2.2 fun id => ?_
  unfold plan
  split
  · rfl
  · exact callsOf_nextLevel _ id

/-- **The step lemma of `Tracked`.** -/
theorem tracked_step (hdag : IsDag dag.input.definition) (hs : Unplanned s ∨ dag.Progress s)
    (h : Tracked contract s) {event : Event} (hanswered : contract.Answered s event)
    (hstep : dag.step s event = some s') : Tracked contract s' := by
  cases (dag.step_iff).mp hstep with
  | signal => exact TrackedAt.quiet h rfl fun _ => rfl
  | prepareFailed hp err => exact h.quiet (by rw [hp]; rfl) rfl rfl fun _ => rfl
  | prepared hp => exact tracked_plan h (by rw [hp]; rfl)
  | beginLevel hp =>
    have hat := ProgressAt.of_loop hs (.inr (by rw [hp]; exact cons_ne_nil _ _))
    rw [hp] at hat
    rw [Tracked, hp] at h
    refine TrackedAt.enterLevel hdag (hat.congr rfl rfl fun hc => ?_) (h.quiet rfl fun _ => rfl)
    show (if _ then true else s.cancelled) = true
    rw [hc, ite_self]
  | selectResume hp hr =>
    have hat := ProgressAt.of_loop hs (.inr (by rw [hp]; exact cons_ne_nil _ _))
    rw [hp] at hat
    rw [Tracked, hp] at h
    exact TrackedAt.enterLevel hdag (hat.congr rfl rfl id) (h.quiet rfl fun _ => rfl)
  | selectCancel hp hr hc =>
    have hat := ProgressAt.of_loop hs (.inr (by rw [hp]; exact cons_ne_nil _ _))
    rw [hp] at hat
    rw [Tracked, hp] at h
    exact TrackedAt.enterLevel hdag (hat.congr rfl rfl fun _ => rfl) (h.quiet rfl fun _ => rfl)
  | @nodeReply running queued rest index node call k hp hi answer =>
    have hmem : node ∈ running.map Prod.fst := mem_map_of_mem (mem_of_getElem? hi)
    have hprogress := ProgressAt.of_loop hs (.inl (by
      rw [hp]
      exact ne_nil_of_mem (mem_of_getElem? hi)))
    rw [hp] at hprogress
    rw [Tracked, hp] at h
    refine TrackedAt.advance ?_ ?_ h hi answer ?_ queued rest
    · have hnodup := hprogress.nodup.sublist (List.Sublist.map Node.id
        ((sublist_append_left (running.map Prod.fst) queued).trans (sublist_append_left _ _)))
      rwa [map_map] at hnodup
    · exact hprogress.fresh node (mem_append_left _ (mem_append_left _ hmem))
    · exact hanswered node call k (by rw [hp]; exact hi)
  | @collect node result running queued rest hp =>
    have hprogress := ProgressAt.of_loop hs (.inl (by rw [hp]; exact cons_ne_nil _ _))
    rw [hp] at hprogress
    rw [Tracked, hp] at h
    have hstored := TrackedAt.store hdag hprogress (subset_append_left _ _) h
    cases running with
    | nil => exact TrackedAt.nextBatch (ProgressAt.store result hprogress) hstored
    | cons entry running => exact TrackedAt.quiet hstored rfl fun _ => rfl
  | cursorsFailed hp err => exact h.quiet (by rw [hp]; rfl) rfl rfl fun _ => rfl
  | @cursorsCommitted checkpoints hp =>
    exact h.quiet (by rw [hp]; rfl) (dag.idle_commitDedupe checkpoints s).running
      (dag.frame_commitDedupe checkpoints s).results (callsOf_commitDedupe checkpoints)
  | dedupeFailed hp err => exact h.quiet (by rw [hp]; rfl) rfl rfl fun _ => rfl
  | dedupeCommitted hp =>
    exact h.quiet (by rw [hp]; rfl) rfl (dag.frame_mark _ s).results (callsOf_mark _)
  | markFailed hp err | marked hp => exact h.quiet (by rw [hp]; rfl) rfl rfl fun _ => rfl

/-- **Every run within the contract is tracked.** -/
theorem tracked_of_run (hdag : IsDag dag.input.definition)
    {allowed : List Event → RunState → Event → Prop} {es : List Event}
    (hallowed : ∀ es s event, allowed es s event → contract.Answered s event)
    (h : dag.Run allowed es s) : Tracked contract s := by
  have hpair : (Unplanned s ∨ dag.Progress s) ∧ Tracked contract s := by
    have hstart : dag.Run allowed [] dag.start := .start
    refine h.invariant (I := fun _ s => (Unplanned s ∨ dag.Progress s) ∧ Tracked contract s)
      ⟨progress_of_run hdag hstart, ?_⟩
      fun _ _ _ _ hs hok hstep => ⟨progress_step hdag hs.1 hstep,
        tracked_step hdag hs.1 hs.2 (hallowed _ _ _ hok) hstep⟩
    unfold start
    dsimp only
    split_ifs
    · exact tracked_of_empty rfl rfl fun _ => rfl
    · exact tracked_of_empty rfl rfl fun _ => rfl
    · exact tracked_plan (tracked_of_empty rfl rfl fun _ => rfl) rfl
  exact hpair.2

/-- **Every finished node satisfies the postcondition.** -/
theorem NodeContract.post_of_run (contract : NodeContract dag) (hdag : IsDag dag.input.definition)
    {allowed : List Event → RunState → Event → Prop} {es : List Event}
    (hallowed : ∀ es s event, allowed es s event → contract.Answered s event)
    (h : dag.Run allowed es s) (hnode : node ∈ dag.input.definition.nodes)
    {result : NodeResult} (hlookup : s.results.lookup node.id = some result) :
    contract.post node s.results (callsOf s.scheduled node.id) result := by
  have hpost := (tracked_of_run hdag hallowed h).finished node.id result hlookup
  rwa [nodeAt_of_mem hdag.ids hnode] at hpost

end DynamicDag

end Dataflow.Workflows
