import Dataflow.Api.PipelineValidation
import Dataflow.Workflows.BuildPlan

/-!
# The graph check of `validatePipeline` and `buildPlan`

Both look for cycles with counters of incoming edges. `validatePipeline` takes one id after the
other from a queue that it fills in the order in which Go visits a map; `buildPlan` takes whole
levels. They reject the same graphs.

* `VisitInv`: the loop invariant of the queue: the counters count the edges whose source is not
  visited yet, and the ids whose counter is zero are visited or queued.
* `visit_spec`: the loop ends with an empty queue before its rounds are used up.
* `visitedCount_eq_iff`: all ids are visited iff there is no cycle.
* `validation_agrees_with_planning`: **the two agree on every definition whose nodes pass**.
-/

namespace Dataflow.Api

open Model Library Library.Graph Workflows List Function

/-! ## The maps -/

/-- The maps after the loop over the edges. -/
structure GraphMapsSpec (edges : List Edge) (maps : GraphMaps) : Prop where
  indegree : ∀ v, maps.indegree v = (edges.countP (fun e => e.target = v) : ℤ)
  outgoing : ∀ v, maps.outgoing v = (edges.filter fun e => e.source = v).map Edge.target

variable {maps : GraphMaps}

/-- One edge read. -/
theorem GraphMapsSpec.snoc {edges : List Edge} (h : GraphMapsSpec edges maps) (edge : Edge) :
    GraphMapsSpec (edges ++ [edge])
      { indegree := update maps.indegree edge.target (maps.indegree edge.target + 1)
        outgoing := update maps.outgoing edge.source
          (maps.outgoing edge.source ++ [edge.target]) }
    where
  indegree v := by
    by_cases hv : v = edge.target
    · subst hv
      simp [h.indegree, countP_append]
    · simp [update_of_ne hv, h.indegree, countP_append, Ne.symm hv]
  outgoing v := by
    by_cases hv : v = edge.source
    · subst hv
      simp [h.outgoing]
    · simp [update_of_ne hv, h.outgoing, Ne.symm hv]

/-- With known end points the loop over the edges succeeds and fills the maps. -/
theorem checkEdges_ok {ids : List String} (edges : List Edge)
    (h : ∀ e ∈ edges, e.source ∈ ids ∧ e.target ∈ ids) :
    ∃ maps, edges.foldlM (checkEdge ids) {} = .ok maps ∧ GraphMapsSpec edges maps := by
  induction edges using reverseRecOn with
  | nil => exact ⟨{}, rfl, ⟨fun _ => rfl, fun _ => rfl⟩⟩
  | append_singleton edges edge ih =>
    obtain ⟨maps, hmaps, hspec⟩ := ih fun e he => h e (mem_append_left _ he)
    obtain ⟨hs, ht⟩ := h edge (by simp)
    refine ⟨_, ?_, hspec.snoc edge⟩
    rw [foldlM_append, hmaps]
    simp [checkEdge, hs, ht, bind, Except.bind, pure, Except.pure]

/-- The only error of the loop over the edges. -/
theorem checkEdges_error {ids : List String} {edges : List Edge}
    {err : ValidationError} (h : edges.foldlM (checkEdge ids) maps = .error err) :
    ∃ id, err = .unknownNode id := by
  induction edges generalizing maps with
  | nil => cases h
  | cons edge edges ih =>
    rw [foldlM_cons] at h
    cases hedge : checkEdge ids maps edge with
    | ok maps' =>
      rw [hedge] at h
      exact ih h
    | error err' =>
      rw [hedge] at h
      obtain rfl := Except.error.inj h
      unfold checkEdge at hedge
      split_ifs at hedge
      exact ⟨_, (Except.error.inj hedge).symm⟩

/-! ## The queue -/

/-- The targets of one id are released as `buildPlan` releases edges. -/
theorem foldl_releaseTarget (targets : List String) (indegree : String → ℤ) (queue : List Node) :
    targets.foldl releaseTarget (indegree, queue.map Node.id) =
      (((targets.map fun t => ({ source := "", target := t } : Edge)).foldl
          (releaseEdge fun v => some { id := v }) (indegree, queue)).1,
        ((targets.map fun t => ({ source := "", target := t } : Edge)).foldl
          (releaseEdge fun v => some { id := v }) (indegree, queue)).2.map Node.id) := by
  induction targets generalizing indegree queue with
  | nil => rfl
  | cons target targets ih =>
    have hstep : releaseTarget (indegree, queue.map Node.id) target =
        ((releaseEdge (fun v => some { id := v }) (indegree, queue)
            { source := "", target := target }).1,
          (releaseEdge (fun v => some { id := v }) (indegree, queue)
            { source := "", target := target }).2.map Node.id) := by
      unfold releaseTarget releaseEdge
      dsimp only
      split_ifs <;> simp
    rw [foldl_cons, hstep, ih, map_cons, foldl_cons]

/-- The effect of releasing the targets of one id. -/
theorem released_targets (targets : List String) (indegree : String → ℤ) (queue : List String)
    (h : ∀ v, (targets.count v : ℤ) ≤ indegree v) :
    (∀ v, (targets.foldl releaseTarget (indegree, queue)).1 v = indegree v - targets.count v) ∧
      ∃ hits : List String, hits.Nodup ∧
        (∀ v, v ∈ hits ↔ 0 < targets.count v ∧ indegree v = (targets.count v : ℤ)) ∧
        (targets.foldl releaseTarget (indegree, queue)).2 = queue ++ hits := by
  have hcount : ∀ v, (targets.map fun t => ({ source := "", target := t } : Edge)).countP
      (fun e => e.target = v) = targets.count v := by
    intro v
    rw [countP_map, count_eq_countP]
    exact countP_congr fun t _ => by simp
  have hfold := foldl_releaseTarget targets indegree (queue.map fun v => { id := v })
  rw [map_map, show Node.id ∘ (fun v => ({ id := v } : Node)) = id from rfl, map_id] at hfold
  obtain ⟨hdegree, hits, hnodup, hmem, hqueue⟩ := foldl_releaseEdge (fun v => some { id := v })
    (targets.map fun t => ({ source := "", target := t } : Edge)) indegree
    (queue.map fun v => { id := v }) (by simpa only [hcount] using h)
  rw [hfold]
  refine ⟨fun v => ?_, hits, hnodup, fun v => ?_, ?_⟩
  · rw [hdegree, hcount]
  · rw [hmem, hcount]
  · rw [hqueue]
    simp [comp_def]

/-- The loop invariant: `visited` are the ids taken from the queue so far. -/
structure VisitInv (ids : List String) (edges : List Edge) (visited : List String)
    (indegree : String → ℤ) (queue : List String) : Prop where
  indegree_eq : ∀ v, indegree v = (edges.countP (fun e => e.target = v ∧ e.source ∉ visited) : ℤ)
  mem_iff : ∀ v, v ∈ visited ++ queue ↔ v ∈ ids ∧ indegree v = 0
  nodup : (visited ++ queue).Nodup
  acc : ∀ v ∈ visited ++ queue, Acc (HasEdge edges) v

variable {ids : List String} {edges : List Edge} {visited queue : List String}
  {indegree : String → ℤ}

/-- A counter is zero when all predecessors are visited. -/
theorem VisitInv.indegree_eq_zero (hinv : VisitInv ids edges visited indegree queue) {v : String} :
    indegree v = 0 ↔ ∀ u, HasEdge edges u v → u ∈ visited := by
  rw [hinv.indegree_eq, Int.natCast_eq_zero, countP_eq_zero]
  simp only [decide_eq_true_eq, not_and, not_not]
  constructor
  · rintro h u ⟨e, he, rfl, ht⟩
    exact h e he ht
  · rintro h e he rfl
    exact h _ ⟨e, he, rfl, rfl⟩

/-- **One round of the loop** takes an id from the queue. -/
theorem VisitInv.step {id : String} (hknown : ∀ e ∈ edges, e.target ∈ ids)
    {outgoing : String → List String}
    (hout : outgoing id = (edges.filter fun e => e.source = id).map Edge.target)
    (hinv : VisitInv ids edges visited indegree (id :: queue)) :
    VisitInv ids edges (visited ++ [id]) ((outgoing id).foldl releaseTarget (indegree, queue)).1
      ((outgoing id).foldl releaseTarget (indegree, queue)).2 := by
  have hid : id ∉ visited := by
    intro hmem
    exact (nodup_append.mp hinv.nodup).2.2 id hmem id mem_cons_self rfl
  have hcount : ∀ v, (outgoing id).count v =
      edges.countP fun e => e.target = v ∧ e.source = id := by
    intro v
    rw [hout, count_eq_countP, countP_map, countP_filter]
    exact countP_congr fun e _ => by simp
  have hsplit : ∀ v, indegree v =
      (edges.countP (fun e => e.target = v ∧ e.source ∉ visited ++ [id]) : ℤ) +
        (outgoing id).count v := by
    intro v
    rw [hinv.indegree_eq, hcount, ← Int.natCast_add]
    congr 1
    refine Lists.countP_eq_add edges fun e _ => ?_
    simp only [decide_eq_true_eq, mem_append, mem_singleton, not_or]
    constructor
    · constructor
      · rintro ⟨ht, hs⟩
        by_cases heq : e.source = id
        · exact .inr ⟨ht, heq⟩
        · exact .inl ⟨ht, hs, heq⟩
      · rintro (⟨ht, hs, -⟩ | ⟨ht, heq⟩)
        · exact ⟨ht, hs⟩
        · exact ⟨ht, heq ▸ hid⟩
    · rintro ⟨⟨-, -, hne⟩, -, heq⟩
      exact hne heq
  obtain ⟨hdegree, hits, hnodup, hmem, hqueue⟩ := released_targets (outgoing id) indegree queue
    fun v => by
      have := hsplit v
      omega
  have hafter : ∀ v, ((outgoing id).foldl releaseTarget (indegree, queue)).1 v =
      (edges.countP (fun e => e.target = v ∧ e.source ∉ visited ++ [id]) : ℤ) := by
    intro v
    have := hsplit v
    rw [hdegree]
    omega
  have hold : ∀ v, v ∈ visited ++ [id] ++ queue ↔ v ∈ ids ∧ indegree v = 0 := by
    intro v
    rw [append_assoc, singleton_append]
    exact hinv.mem_iff v
  -- an id is queued in this round when its last unvisited predecessor is the one taken
  have hnew : ∀ v, v ∈ hits ↔ v ∈ ids ∧ indegree v ≠ 0 ∧
      ((outgoing id).foldl releaseTarget (indegree, queue)).1 v = 0 := by
    intro v
    rw [hmem, hdegree]
    have hpos : 0 < (outgoing id).count v → v ∈ ids := by
      intro h
      rw [hcount, countP_pos_iff] at h
      obtain ⟨e, he, hev⟩ := h
      rw [decide_eq_true_eq] at hev
      exact hev.1 ▸ hknown e he
    constructor
    · rintro ⟨h, heq⟩
      exact ⟨hpos h, by omega, by omega⟩
    · rintro ⟨-, hne, heq⟩
      exact ⟨by omega, by omega⟩
  have hboth : ∀ v, v ∈ visited ++ [id] ++ (queue ++ hits) ↔ v ∈ ids ∧
      ((outgoing id).foldl releaseTarget (indegree, queue)).1 v = 0 := by
    intro v
    rw [← append_assoc, mem_append, hold, hnew]
    have h₁ := hsplit v
    have h₂ := hafter v
    constructor
    · rintro (⟨hv, hzero⟩ | ⟨hv, -, hzero⟩)
      · exact ⟨hv, by omega⟩
      · exact ⟨hv, hzero⟩
    · rintro ⟨hv, hzero⟩
      by_cases h : indegree v = 0
      · exact .inl ⟨hv, h⟩
      · exact .inr ⟨hv, h, hzero⟩
  have hacc : ∀ v ∈ visited ++ [id] ++ queue, Acc (HasEdge edges) v := by
    intro v hv
    rw [append_assoc, singleton_append] at hv
    exact hinv.acc v hv
  rw [hqueue]
  refine ⟨hafter, hboth, ?_, ?_⟩
  · rw [← append_assoc, nodup_append]
    refine ⟨?_, hnodup, ?_⟩
    · rw [append_assoc, singleton_append]
      exact hinv.nodup
    · rintro a ha _ hb rfl
      exact ((hnew a).mp hb).2.1 ((hold a).mp ha).2
  · intro v hv
    rw [← append_assoc, mem_append] at hv
    rcases hv with hv | hv
    · exact hacc v hv
    · refine ⟨v, fun u hu => hacc u (mem_append_left _ ?_)⟩
      obtain ⟨e, he, rfl, ht⟩ := hu
      by_contra hnot
      have hzero := ((hnew v).mp hv).2.2
      rw [hafter, Int.natCast_eq_zero, countP_eq_zero] at hzero
      exact hzero e he (by simpa only [decide_eq_true_eq] using ⟨ht, hnot⟩)

/-- **The loop runs to its end**: the queue is empty before the rounds are used up. -/
theorem visit_spec {outgoing : String → List String} (hknown : ∀ e ∈ edges, e.target ∈ ids)
    (hout : ∀ v, outgoing v = (edges.filter fun e => e.source = v).map Edge.target)
    (rounds : ℕ) (hinv : VisitInv ids edges visited indegree queue)
    (hrounds : ids.length < visited.length + rounds) :
    ∃ final indegree', VisitInv ids edges final indegree' [] ∧
      visited.length + visit outgoing rounds indegree queue = final.length := by
  induction rounds generalizing visited indegree queue with
  | zero =>
    have hsub : visited ++ queue ⊆ ids := fun v hv => ((hinv.mem_iff v).mp hv).1
    have hle := (hinv.nodup.subperm hsub).length_le
    rw [length_append] at hle
    omega
  | succ rounds ih =>
    cases queue with
    | nil => exact ⟨visited, indegree, hinv, by rw [visit, add_zero]⟩
    | cons id queue =>
      obtain ⟨final, indegree', hfinal, hlen⟩ := ih (hinv.step hknown (hout id)) (by
        rw [length_append, length_singleton]
        omega)
      rw [length_append, length_singleton] at hlen
      refine ⟨final, indegree', hfinal, ?_⟩
      rw [visit]
      omega

/-- At the end every id is visited iff there is no cycle. -/
theorem VisitInv.length_eq_iff (hids : ids.Nodup) (hknown : ∀ e ∈ edges, e.source ∈ ids)
    (hinv : VisitInv ids edges visited indegree []) :
    visited.length = ids.length ↔ ¬ Cyclic (HasEdge edges) := by
  have hmem : ∀ v, v ∈ visited ↔ v ∈ ids ∧ indegree v = 0 := by
    intro v
    simpa using hinv.mem_iff v
  have hsub : visited ⊆ ids := fun v hv => ((hmem v).mp hv).1
  have hnodup : visited.Nodup := by simpa using hinv.nodup
  have hV : ({v | v ∈ ids} : Set String).Finite := finite_toSet ids
  have hE : ∀ u v, HasEdge edges u v → u ∈ {v | v ∈ ids} := by
    rintro u v ⟨e, he, rfl, -⟩
    exact hknown e he
  constructor
  · intro hlen
    rw [not_cyclic_iff_acc hV hE]
    intro v hv
    have hperm := Lists.perm_of_subset_of_length_eq hnodup hsub hlen.ge
    exact hinv.acc v (mem_append_left _ (hperm.mem_iff.mpr hv))
  · intro hacyclic
    refine le_antisymm (hnodup.subperm hsub).length_le ?_
    refine (hids.subperm fun v hv => ?_).length_le
    induction v using (wellFounded_of_acyclic hV hE hacyclic).induction with
    | _ v ih =>
      rw [hmem, hinv.indegree_eq_zero]
      exact ⟨hv, fun u hu => ih u hu (hE u v hu)⟩

/-- The invariant holds before the loop, in whatever order the ids are visited. -/
theorem VisitInv.init (ranging : RangeIds) (hids : ids.Nodup) (hmaps : GraphMapsSpec edges maps) :
    VisitInv ids edges [] maps.indegree
      ((ranging.order ids).filter fun id => maps.indegree id = 0) := by
  have hdegree : ∀ v, maps.indegree v =
      (edges.countP (fun e => e.target = v ∧ e.source ∉ []) : ℤ) := by
    intro v
    rw [hmaps.indegree]
    congr 1
    exact countP_congr fun e _ => by simp
  have hmem : ∀ v, v ∈ (ranging.order ids).filter (fun id => maps.indegree id = 0) ↔
      v ∈ ids ∧ maps.indegree v = 0 := by
    intro v
    rw [mem_filter, (ranging.perm ids).mem_iff, decide_eq_true_eq]
  refine ⟨hdegree, hmem, ?_, ?_⟩
  · exact ((ranging.perm ids).nodup_iff.mpr hids).filter _
  · intro v hv
    have hzero := ((hmem v).mp hv).2
    rw [hmaps.indegree, Int.natCast_eq_zero, countP_eq_zero] at hzero
    refine ⟨v, ?_⟩
    rintro u ⟨e, he, rfl, ht⟩
    exact absurd (by simpa using ht) (hzero e he)

/-- **The walk visits every id iff there is no cycle.** -/
theorem visitedCount_eq_iff (ranging : RangeIds) (hids : ids.Nodup)
    (hmaps : GraphMapsSpec edges maps) (hknown : ∀ e ∈ edges, e.source ∈ ids ∧ e.target ∈ ids) :
    visitedCount ranging ids maps = ids.length ↔ ¬ Cyclic (HasEdge edges) := by
  obtain ⟨final, indegree', hfinal, hlen⟩ := visit_spec (fun e he => (hknown e he).2)
    hmaps.outgoing (ids.length + 1) (VisitInv.init ranging hids hmaps) (by
      rw [length_nil]
      omega)
  rw [length_nil, zero_add] at hlen
  rw [visitedCount, hlen]
  exact hfinal.length_eq_iff hids fun e he => (hknown e he).1

/-! ## The two checks side by side -/

/-- The errors of the graph check. -/
def ValidationError.OfGraph : ValidationError → Prop
  | .unknownNode _ | .cycle => True
  | _ => False

section agreement

variable {ranging : RangeIds} {definition : PipelineDefinition} {err : ValidationError}

/-- What `checkGraph` does once the nodes have passed. -/
theorem checkGraph_of_nodes (hnodes : definition.nodes.foldlM checkNode [] = .ok ids) :
    checkGraph ranging definition = (definition.edges.foldlM (checkEdge ids) {}).bind fun maps =>
        if visitedCount ranging ids maps ≠ definition.nodes.length then .error .cycle else .ok () := by
  unfold checkGraph
  rw [hnodes]
  rfl

/-- **The graph check of `validatePipeline`**: with known end points it is decided by the cycles. -/
theorem checkGraph_of_known (ranging : RangeIds)
    (hnodes : definition.nodes.foldlM checkNode [] = .ok ids)
    (hknown : EndpointsKnown definition.nodes definition.edges) :
    (Cyclic (HasEdge definition.edges) → checkGraph ranging definition = .error .cycle) ∧
      (¬ Cyclic (HasEdge definition.edges) → checkGraph ranging definition = .ok ()) := by
  obtain ⟨rfl, hnodup, -⟩ := checkNodes_eq_ok hnodes
  obtain ⟨maps, hmaps, hspec⟩ := checkEdges_ok definition.edges hknown
  have hcount := visitedCount_eq_iff ranging (hnodup nodup_nil) hspec hknown
  rw [nil_append, length_map] at hcount
  rw [checkGraph_of_nodes hnodes, nil_append, hmaps]
  constructor
  · intro hcyclic
    exact if_pos (hcount.not.mpr (not_not.mpr hcyclic))
  · intro hacyclic
    exact if_neg (not_not.mpr (hcount.mpr hacyclic))

/-- An unknown end point is reported as such. -/
theorem checkGraph_of_not_known (hnodes : definition.nodes.foldlM checkNode [] = .ok ids)
    (hknown : ¬ EndpointsKnown definition.nodes definition.edges) :
    ∃ id, checkGraph ranging definition = .error (.unknownNode id) := by
  obtain ⟨rfl, -, -⟩ := checkNodes_eq_ok hnodes
  rw [checkGraph_of_nodes hnodes]
  cases hedges : definition.edges.foldlM (checkEdge ([] ++ definition.nodes.map Node.id)) {} with
  | ok maps => exact absurd (checkEdges_eq_ok hedges) hknown
  | error err =>
    obtain ⟨id, rfl⟩ := checkEdges_error hedges
    exact ⟨id, rfl⟩

/-- The graph check fails, and with an error of its own, iff an end point is unknown or there is a
cycle. -/
theorem checkGraph_error_iff (ranging : RangeIds)
    (hnodes : definition.nodes.foldlM checkNode [] = .ok ids) :
    (∃ err, err.OfGraph ∧ checkGraph ranging definition = .error err) ↔
      ¬ (EndpointsKnown definition.nodes definition.edges ∧
        ¬ Cyclic (HasEdge definition.edges)) := by
  constructor
  · rintro ⟨err, -, herr⟩ ⟨hknown, hacyclic⟩
    simp [(checkGraph_of_known ranging hnodes hknown).2 hacyclic] at herr
  · intro hbad
    by_cases hknown : EndpointsKnown definition.nodes definition.edges
    · have hcyclic : Cyclic (HasEdge definition.edges) := by
        by_contra hacyclic
        exact hbad ⟨hknown, hacyclic⟩
      exact ⟨.cycle, trivial, (checkGraph_of_known ranging hnodes hknown).1 hcyclic⟩
    · obtain ⟨id, herr⟩ : ∃ id, checkGraph ranging definition = .error (.unknownNode id) :=
        checkGraph_of_not_known hnodes hknown
      exact ⟨.unknownNode id, trivial, herr⟩

/-- `buildPlan` fails on the same graphs. -/
theorem buildPlan_error_iff {nodes : List Node} (hids : (nodes.map Node.id).Nodup) :
    (∃ err, buildPlan nodes edges = .error err) ↔
      ¬ (EndpointsKnown nodes edges ∧ ¬ Cyclic (HasEdge edges)) := by
  constructor
  · rintro ⟨err, herr⟩ ⟨hknown, hacyclic⟩
    obtain ⟨plan, hplan, -⟩ := buildPlan_ok hids hknown hacyclic
    simp [herr] at hplan
  · exact buildPlan_error hids

/-- A sequence of checks fails where the first of them that fails does. -/
theorem bind_eq_error {ε α β : Type} {x : Except ε α} {f : α → Except ε β} {err : ε} :
    (x >>= f) = .error err ↔ x = .error err ∨ ∃ a, x = .ok a ∧ f a = .error err := by
  cases x with
  | error err' | ok a => simp [bind, Except.bind]

/-- The checks on the definition's own fields have other errors. -/
theorem not_ofGraph_of_checkHeader (h : checkHeader definition = .error err) : ¬ err.OfGraph := by
  unfold checkHeader at h
  by_cases hname : blank definition.name = true
  · rw [if_pos hname] at h
    cases h
    exact id
  by_cases hnodes : definition.nodes = []
  · rw [if_neg hname, if_pos hnodes] at h
    cases h
    exact id
  by_cases htrigger : definition.triggerType = ""
  · rw [if_neg hname, if_neg hnodes, if_pos htrigger] at h
    cases h
    exact id
  rw [if_neg hname, if_neg hnodes, if_neg htrigger] at h
  cases hexecution : definition.execution with
  | none =>
    rw [hexecution] at h
    cases h
  | some execution =>
    rw [hexecution] at h
    dsimp only at h
    split_ifs at h
    · cases h
    · cases h
      exact id

/-- A check on each node in turn. -/
theorem exists_of_forM_error {check : Node → Except ValidationError Unit} {nodes : List Node}
    (h : nodes.forM check = .error err) :
    ∃ node ∈ nodes, check node = .error err := by
  induction nodes with
  | nil => cases h
  | cons node nodes ih =>
    rcases bind_eq_error.mp h with h | ⟨_, -, h⟩
    · exact ⟨node, mem_cons_self, h⟩
    · obtain ⟨other, hother, h⟩ := ih h
      exact ⟨other, mem_cons_of_mem _ hother, h⟩

theorem not_ofGraph_of_checkSparkNode {node : Node}
    (h : checkSparkNode node = .error err) : ¬ err.OfGraph := by
  unfold checkSparkNode at h
  split at h
  · split_ifs at h
    cases h
    exact id
  · split_ifs at h
    cases h
    exact id
  · cases h
    exact id
  · cases h

theorem not_ofGraph_of_checkFlinkNode {node : Node}
    (h : checkFlinkNode node = .error err) : ¬ err.OfGraph := by
  unfold checkFlinkNode at h
  split at h
  · split_ifs at h
    cases h
    exact id
  · split_ifs at h
    cases h
    exact id
  · cases h
    exact id
  · cases h

/-- So have the checks of the engines. -/
theorem not_ofGraph_of_validateEngine {enterprise : Enterprise}
    (h : validateEngine enterprise definition = .error err) : ¬ err.OfGraph := by
  have henterprise : ∀ result, enterpriseCheck result = .error err → ¬ err.OfGraph := by
    intro result h
    cases result with
    | ok _ => cases h
    | error text =>
      cases h
      exact id
  unfold validateEngine at h
  split at h
  · unfold validateStreamDirect at h
    split at h
    · cases h
      exact id
    · split_ifs at h
      cases h
      exact id
  · rcases bind_eq_error.mp h with h | ⟨_, -, h⟩
    · exact henterprise _ h
    rcases bind_eq_error.mp h with h | ⟨_, -, h⟩
    · obtain ⟨node, -, h⟩ := exists_of_forM_error h
      exact not_ofGraph_of_checkSparkNode h
    · split_ifs at h
      · cases h
        exact id
      · cases h
  · rcases bind_eq_error.mp h with h | ⟨_, -, h⟩
    · exact henterprise _ h
    rcases bind_eq_error.mp h with h | ⟨_, -, h⟩
    · obtain ⟨node, -, h⟩ := exists_of_forM_error h
      exact not_ofGraph_of_checkFlinkNode h
    · dsimp only at h
      split_ifs at h
      · cases h
        exact id
      · exact henterprise _ h
  · cases h

/-- **Validation and planning agree.** Where the nodes pass, the graph check fails, for an unknown
end point or a cycle, iff `buildPlan` returns an error, in whatever order Go visits its maps. So
what can be saved can be planned, and what can be planned is not rejected for its graph. -/
theorem validation_agrees_with_planning (ranging : RangeIds) (definition : PipelineDefinition)
    (ids : List String) (hnodes : definition.nodes.foldlM checkNode [] = .ok ids) :
    ((∃ err, err.OfGraph ∧ checkGraph ranging definition = .error err) ↔
      ∃ err, buildPlan definition.nodes definition.edges = .error err) ∧
    (∀ enterprise, Accepted enterprise ranging definition →
      ∃ plan, buildPlan definition.nodes definition.edges = .ok plan) ∧
    (∀ enterprise plan err, buildPlan definition.nodes definition.edges = .ok plan →
      validatePipeline enterprise ranging definition = .error err → ¬ err.OfGraph) := by
  have hids : (definition.nodes.map Node.id).Nodup := by
    obtain ⟨rfl, hnodup, -⟩ := checkNodes_eq_ok hnodes
    exact hnodup nodup_nil
  have hagree : (∃ err, err.OfGraph ∧ checkGraph ranging definition = .error err) ↔
      ∃ err, buildPlan definition.nodes definition.edges = .error err := by
    rw [checkGraph_error_iff ranging hnodes, buildPlan_error_iff hids]
  refine ⟨hagree, ?_, ?_⟩
  · intro enterprise haccepted
    cases hplan : buildPlan definition.nodes definition.edges with
    | ok plan => exact ⟨plan, rfl⟩
    | error err =>
      obtain ⟨err', -, herr⟩ := hagree.mpr ⟨err, hplan⟩
      rw [checkGraph_of_accepted haccepted] at herr
      cases herr
  · intro enterprise plan err hplan herr hgraph
    rcases bind_eq_error.mp herr with h | ⟨_, -, h⟩
    · exact not_ofGraph_of_checkHeader h hgraph
    rcases bind_eq_error.mp h with h | ⟨_, -, h⟩
    · obtain ⟨err', herr'⟩ := hagree.mp ⟨err, hgraph, h⟩
      rw [hplan] at herr'
      cases herr'
    · exact not_ofGraph_of_validateEngine h hgraph

/-- The theorem at two nodes that wait for each other, one of the edges doubled. -/
theorem validation_agrees_with_planning_two_nodes : let definition : PipelineDefinition :=
      { nodes := [{ id := "a", type := .merge }, { id := "b", type := .fork }]
        edges := [{ source := "a", target := "b" }, { source := "a", target := "b" },
          { source := "b", target := "a" }] }
    ∀ ranging : RangeIds, ∃ err, err.OfGraph ∧ checkGraph ranging definition = .error err := by
  intro definition ranging
  have hagree := validation_agrees_with_planning ranging definition ["a", "b"] (by rfl)
  exact hagree.1.mpr ⟨.cycle, by rfl⟩

end agreement

end Dataflow.Api
