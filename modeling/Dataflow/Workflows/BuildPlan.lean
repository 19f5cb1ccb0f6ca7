import Mathlib.Algebra.Ring.Nat
import Dataflow.Library.Graph
import Dataflow.Library.Lists
import Dataflow.Model.Types

/-!
# `buildPlan`: the level-by-level topological sort

`buildPlan` counts in-degrees with multiplicity, starts from the nodes of in-degree zero and
releases the outgoing edges of one level at a time; a node enters the next level when its counter
reaches zero.

* `registerNodes`, `addEdge`, `releaseEdge`, `peelLevels`, `buildPlan`: the code. The Go maps are
  functions with the Go zero value as default; `peelLevels` takes the number of rounds it may run,
  and `buildPlan` gives it one more than there are edges. `peelLevels_spec` shows that this is
  always enough, so the bound is never what ends the loop.
* `PeelInv`: what holds before round `k`: a counter holds the number of incoming edges whose
  source is not yet in a level, and the queue holds the nodes of rank `k` (`Graph.Rank`, the length
  of the longest path ending in the node).
* `buildPlan_correct`, `PlanSpec`: when a plan is returned and what it is.
-/

namespace Dataflow.Workflows

open Model Library Library.Graph List Function

/-! ## The code -/

/-- Source: `dynamic_dag.go` `executionPlan`. -/
structure ExecutionPlan where
  levels : List (List Node)
  incoming : String → List Edge

/-- The errors of `buildPlan`. -/
inductive PlanError where
  | unknownSource (id : String)
  | unknownTarget (id : String)
  | cycle
  deriving DecidableEq

/-- The texts of the errors (`%q` quotes the id). -/
def PlanError.message : PlanError → String
  | .unknownSource id => "edge references unknown source " ++ id.quote
  | .unknownTarget id => "edge references unknown target " ++ id.quote
  | .cycle => "pipeline contains a cycle"

/-- The maps `buildPlan` fills while it reads the edges. -/
structure PlanMaps where
  inDegree : String → ℤ := fun _ => 0
  incoming : String → List Edge := fun _ => []
  outgoing : String → List Edge := fun _ => []

/-- `byID[node.ID] = node`. -/
def registerNode (byId : String → Option Node) (node : Node) : String → Option Node :=
  update byId node.id (some node)

/-- `byID`: the last node with an id wins, as the map assignment overwrites. -/
def registerNodes (nodes : List Node) : String → Option Node :=
  nodes.foldl registerNode fun _ => none

/-- One round of the loop over the edges. -/
def addEdge (byId : String → Option Node) (maps : PlanMaps) (edge : Edge) :
    Except PlanError PlanMaps :=
  if byId edge.source = none then .error (.unknownSource edge.source)
  else if byId edge.target = none then .error (.unknownTarget edge.target)
  else .ok
    { inDegree := update maps.inDegree edge.target (maps.inDegree edge.target + 1)
      incoming := update maps.incoming edge.target (maps.incoming edge.target ++ [edge])
      outgoing := update maps.outgoing edge.source (maps.outgoing edge.source ++ [edge]) }

/-- Decrement the counter of the edge's target and queue the target when it reaches zero. -/
def releaseEdge (byId : String → Option Node) (acc : (String → ℤ) × List Node) (edge : Edge) :
    (String → ℤ) × List Node :=
  let inDegree := update acc.1 edge.target (acc.1 edge.target - 1)
  (inDegree, if inDegree edge.target = 0 then acc.2 ++ [(byId edge.target).getD default] else acc.2)

/-- The two nested loops that turn a level into the next queue. -/
def releaseLevel (byId : String → Option Node) (outgoing : String → List Edge)
    (inDegree : String → ℤ) (level : List Node) : (String → ℤ) × List Node :=
  level.foldl (fun acc node => (outgoing node.id).foldl (releaseEdge byId) acc) (inDegree, [])

/-- The loop `for len(queue) > 0`, for at most `rounds` rounds. -/
def peelLevels (byId : String → Option Node) (outgoing : String → List Edge) :
    ℕ → (String → ℤ) → List Node → List (List Node)
  | 0, _, _ => []
  | _ + 1, _, [] => []
  | rounds + 1, inDegree, queue =>
    let released := releaseLevel byId outgoing inDegree queue
    queue :: peelLevels byId outgoing rounds released.1 released.2

/-- Source: `dynamic_dag.go` `buildPlan`. -/
def buildPlan (nodes : List Node) (edges : List Edge) : Except PlanError ExecutionPlan := do
  let byId := registerNodes nodes
  let maps ← edges.foldlM (addEdge byId) {}
  let queue := nodes.filter fun node => maps.inDegree node.id = 0
  let levels := peelLevels byId maps.outgoing (edges.length + 1) maps.inDegree queue
  let visited := (levels.map List.length).sum
  if visited = nodes.length then .ok { levels := levels, incoming := maps.incoming }
  else .error .cycle

/-- The edge relation of a list of edges. -/
def HasEdge (edges : List Edge) (u v : String) : Prop :=
  ∃ edge ∈ edges, edge.source = u ∧ edge.target = v

/-- Both ends of every edge are node ids. -/
def EndpointsKnown (nodes : List Node) (edges : List Edge) : Prop :=
  ∀ edge ∈ edges, edge.source ∈ nodes.map Node.id ∧ edge.target ∈ nodes.map Node.id

/-! ## The maps -/

theorem registerNodes_snoc (nodes : List Node) (node : Node) : registerNodes (nodes ++ [node]) =
      update (registerNodes nodes) node.id (some node) := by
  simp [registerNodes, registerNode]

variable {nodes : List Node}

/-- `_, ok := byID[id]` is membership of the id. -/
theorem registerNodes_eq_none {id : String} :
    registerNodes nodes id = none ↔ id ∉ nodes.map Node.id := by
  induction nodes using reverseRecOn with
  | nil => simp [registerNodes]
  | append_singleton nodes node ih =>
    rw [registerNodes_snoc]
    by_cases h : id = node.id
    · simp [h]
    · rw [update_of_ne h, ih]
      simp [h]

/-- With distinct ids, `byID` finds the node itself. -/
theorem registerNodes_of_mem (hids : (nodes.map Node.id).Nodup) {node : Node}
    (hmem : node ∈ nodes) : registerNodes nodes node.id = some node := by
  induction nodes using reverseRecOn with
  | nil => cases hmem
  | append_singleton nodes last ih =>
    rw [map_append, nodup_append] at hids
    obtain ⟨hinit, -, hne⟩ := hids
    rw [registerNodes_snoc]
    rcases mem_append.mp hmem with hmem | hmem
    · have hid : node.id ≠ last.id := hne _ (mem_map_of_mem hmem) _ (by simp)
      rw [update_of_ne hid, ih hinit hmem]
    · rw [mem_singleton.mp hmem, update_self]

/-- The maps after the loop over the edges. -/
structure MapsSpec (edges : List Edge) (maps : PlanMaps) : Prop where
  inDegree : ∀ v, maps.inDegree v = (edges.countP (fun e => e.target = v) : ℤ)
  incoming : ∀ v, maps.incoming v = edges.filter fun e => e.target = v
  outgoing : ∀ v, maps.outgoing v = edges.filter fun e => e.source = v

variable {edges : List Edge}

/-- One edge read. -/
theorem MapsSpec.snoc {maps : PlanMaps} (h : MapsSpec edges maps) (edge : Edge) :
    MapsSpec (edges ++ [edge])
      { inDegree := update maps.inDegree edge.target (maps.inDegree edge.target + 1)
        incoming := update maps.incoming edge.target (maps.incoming edge.target ++ [edge])
        outgoing := update maps.outgoing edge.source (maps.outgoing edge.source ++ [edge]) }
    where
  inDegree v := by
    by_cases hv : v = edge.target
    · subst hv
      simp [h.inDegree, countP_append]
    · simp [update_of_ne hv, h.inDegree, countP_append, Ne.symm hv]
  incoming v := by
    by_cases hv : v = edge.target
    · subst hv
      simp [h.incoming]
    · simp [update_of_ne hv, h.incoming, Ne.symm hv]
  outgoing v := by
    by_cases hv : v = edge.source
    · subst hv
      simp [h.outgoing]
    · simp [update_of_ne hv, h.outgoing, Ne.symm hv]

variable (byId : String → Option Node)

/-- With known end points the loop over the edges succeeds and fills the maps. -/
theorem addEdges_ok (edges : List Edge)
    (h : ∀ e ∈ edges, byId e.source ≠ none ∧ byId e.target ≠ none) :
    ∃ maps, edges.foldlM (addEdge byId) {} = .ok maps ∧ MapsSpec edges maps := by
  induction edges using reverseRecOn with
  | nil => exact ⟨{}, rfl, ⟨fun _ => rfl, fun _ => rfl, fun _ => rfl⟩⟩
  | append_singleton edges edge ih =>
    obtain ⟨maps, hmaps, hspec⟩ := ih fun e he => h e (mem_append_left _ he)
    obtain ⟨hs, ht⟩ := h edge (by simp)
    refine ⟨_, ?_, hspec.snoc edge⟩
    rw [foldlM_append, hmaps]
    simp [addEdge, hs, ht, bind, Except.bind, pure, Except.pure]

/-- An unknown end point makes the loop over the edges fail. -/
theorem addEdges_error {byId : String → Option Node} (edges : List Edge) (maps : PlanMaps)
    (h : ∃ e ∈ edges, byId e.source = none ∨ byId e.target = none) :
    ∃ err, edges.foldlM (addEdge byId) maps = .error err := by
  induction edges generalizing maps with
  | nil => simp at h
  | cons edge edges ih =>
    rw [foldlM_cons]
    cases hstep : addEdge byId maps edge with
    | error err => exact ⟨err, rfl⟩
    | ok maps' =>
      apply ih
      obtain ⟨e, he, hbad⟩ := h
      rcases mem_cons.mp he with rfl | he
      · unfold addEdge at hstep
        split_ifs at hstep with hs ht
        exact absurd hbad (by simp [hs, ht])
      · exact ⟨e, he, hbad⟩

/-! ## Releasing a level -/

/-- The effect of releasing a list of edges: every counter drops by the number of released edges
into it, and the targets whose counter reaches zero are queued once each. -/
theorem foldl_releaseEdge (es : List Edge) (inDegree : String → ℤ)
    (next : List Node) (h : ∀ v, (es.countP (fun e => e.target = v) : ℤ) ≤ inDegree v) :
    (∀ v, (es.foldl (releaseEdge byId) (inDegree, next)).1 v =
        inDegree v - es.countP fun e => e.target = v) ∧
      ∃ hits : List String, hits.Nodup ∧ (∀ v, v ∈ hits ↔ 0 < es.countP (fun e => e.target = v) ∧
          inDegree v = (es.countP (fun e => e.target = v) : ℤ)) ∧
        (es.foldl (releaseEdge byId) (inDegree, next)).2 =
          next ++ hits.map fun v => (byId v).getD default := by
  induction es generalizing inDegree next with
  | nil => exact ⟨by simp, [], by simp⟩
  | cons e es ih =>
    have hcount : ∀ v, ((e :: es).countP (fun e => e.target = v) : ℤ) =
        es.countP (fun e => e.target = v) + if e.target = v then 1 else 0 := by
      intro v
      by_cases hv : e.target = v <;> simp [hv]
    have hd : ∀ v, update inDegree e.target (inDegree e.target - 1) v =
        inDegree v - if e.target = v then 1 else 0 := by
      intro v
      by_cases hv : e.target = v
      · subst hv
        simp
      · simp [update_of_ne (Ne.symm hv), hv]
    obtain ⟨ih₁, hits, hnodup, hmem, ih₂⟩ := ih
      (update inDegree e.target (inDegree e.target - 1))
      (releaseEdge byId (inDegree, next) e).2 (fun v => by
        have := h v
        rw [hcount] at this
        rw [hd]
        omega)
    have hfold : (e :: es).foldl (releaseEdge byId) (inDegree, next) = es.foldl (releaseEdge byId)
          (update inDegree e.target (inDegree e.target - 1),
            (releaseEdge byId (inDegree, next) e).2) := rfl
    rw [hfold]
    refine ⟨fun v => by rw [ih₁, hd, hcount]; omega, ?_⟩
    by_cases hzero : inDegree e.target - 1 = 0
    · -- the target is queued here, and no later edge points at it
      have hlast : es.countP (fun e' => e'.target = e.target) = 0 := by
        have := h e.target
        rw [hcount, if_pos rfl] at this
        omega
      refine ⟨e.target :: hits, ?_, ?_, ?_⟩
      · refine nodup_cons.mpr ⟨fun hin => ?_, hnodup⟩
        have := ((hmem _).mp hin).1
        omega
      · intro v
        rw [mem_cons, hmem, hd]
        have := hcount v
        by_cases hv : e.target = v
        · subst hv
          rw [if_pos rfl] at this
          simp only [true_or, true_iff]
          omega
        · rw [if_neg hv] at this ⊢
          simp only [Ne.symm hv, false_or]
          omega
      · rw [ih₂]
        simp [releaseEdge, hzero]
    · refine ⟨hits, hnodup, ?_, ?_⟩
      · intro v
        rw [hmem, hd]
        have := hcount v
        by_cases hv : e.target = v
        · subst hv
          rw [if_pos rfl] at this ⊢
          omega
        · rw [if_neg hv] at this ⊢
          omega
      · rw [ih₂]
        simp [releaseEdge, hzero]

/-- The two nested loops release the edges of the level in one list. -/
theorem releaseLevel_eq (outgoing : String → List Edge)
    (inDegree : String → ℤ) (level : List Node) :
    releaseLevel byId outgoing inDegree level =
      (level.flatMap fun node => outgoing node.id).foldl (releaseEdge byId) (inDegree, []) := by
  rw [releaseLevel, foldl_flatMap]

/-! ## The loop over the levels -/

section peel

variable (nodes : List Node) (edges : List Edge) {inDegree : String → ℤ} {k : ℕ}

open scoped Classical in
/-- The incoming edges of `v` whose source is in no level before level `k`. -/
noncomputable def pending (k : ℕ) (v : String) : ℕ :=
  edges.countP fun e => e.target = v ∧ ¬ Below (HasEdge edges) k e.source

open scoped Classical in
/-- The edges whose source is in no level before level `k`. -/
noncomputable def unreleased (k : ℕ) : ℕ :=
  edges.countP fun e => ¬ Below (HasEdge edges) k e.source

/-- The loop invariant before level `k` is processed. -/
structure PeelInv (k : ℕ) (inDegree : String → ℤ) (queue : List Node) : Prop where
  inDegree_eq : ∀ v, inDegree v = (pending edges k v : ℤ)
  mem_queue : ∀ node, node ∈ queue ↔ node ∈ nodes ∧ Rank (HasEdge edges) node.id k
  nodup : queue.Nodup

variable {nodes edges}

theorem below_succ {v : String} :
    Below (HasEdge edges) (k + 1) v ↔ Below (HasEdge edges) k v ∨ Rank (HasEdge edges) v k := by
  constructor
  · rintro ⟨j, hj, hr⟩
    rcases lt_or_ge j k with hlt | hge
    · exact .inl ⟨j, hlt, hr⟩
    · exact .inr (by rwa [show k = j by omega])
  · rintro (⟨j, hj, hr⟩ | hr)
    · exact ⟨j, by omega, hr⟩
    · exact ⟨k, by omega, hr⟩

theorem not_below_of_rank {v : String} (h : Rank (HasEdge edges) v k) :
    ¬ Below (HasEdge edges) k v := (rank_iff_not_below.mp h).1

variable {queue : List Node}

/-- A queue that holds exactly the vertices of rank `k` releases the edges out of rank `k`. -/
theorem mem_queue_ids (hknown : EndpointsKnown nodes edges)
    (hinv : PeelInv nodes edges k inDegree queue) {e : Edge} (he : e ∈ edges) :
    e.source ∈ queue.map Node.id ↔ Rank (HasEdge edges) e.source k := by
  constructor
  · intro h
    obtain ⟨node, hnode, hid⟩ := mem_map.mp h
    exact hid ▸ ((hinv.mem_queue node).mp hnode).2
  · intro h
    obtain ⟨node, hnode, hid⟩ := mem_map.mp (hknown e he).1
    exact mem_map.mpr ⟨node, (hinv.mem_queue node).mpr ⟨hnode, hid ▸ h⟩, hid⟩

open scoped Classical in
/-- The released edges of a level are the edges out of rank `k`. -/
theorem released_perm (hids : (nodes.map Node.id).Nodup) (hknown : EndpointsKnown nodes edges)
    (hinv : PeelInv nodes edges k inDegree queue) :
    (queue.flatMap fun node => edges.filter fun e => e.source = node.id).Perm
      (edges.filter fun e => Rank (HasEdge edges) e.source k) := by
  have hkeys : (queue.map Node.id).Nodup :=
    hinv.nodup.map_on fun a ha b hb hab =>
      inj_on_of_nodup_map hids ((hinv.mem_queue a).mp ha).1 ((hinv.mem_queue b).mp hb).1 hab
  have hgroup := Lists.flatMap_filter_perm Edge.source edges hkeys
  rw [flatMap_map] at hgroup
  have hfilter : (edges.filter fun e => e.source ∈ queue.map Node.id) =
      edges.filter fun e => Rank (HasEdge edges) e.source k :=
    filter_congr fun e he => by simp only [mem_queue_ids hknown hinv he]
  rwa [hfilter] at hgroup

open scoped Classical in
/-- Releasing level `k` moves the edges out of rank `k` from pending to released. -/
theorem pending_split (k : ℕ) (v : String) : pending edges k v = pending edges (k + 1) v +
      (edges.filter fun e => Rank (HasEdge edges) e.source k).countP fun e => e.target = v := by
  rw [countP_filter, pending, pending]
  refine Lists.countP_eq_add edges fun e _ => ?_
  have hrank : Rank (HasEdge edges) e.source k → ¬ Below (HasEdge edges) k e.source :=
    not_below_of_rank
  simp only [decide_eq_true_eq, below_succ, Bool.and_eq_true]
  tauto

/-- An edge out of rank `k` is one unreleased edge less. -/
theorem unreleased_lt {e : Edge} (he : e ∈ edges)
    (hr : Rank (HasEdge edges) e.source k) : unreleased edges (k + 1) < unreleased edges k := by
  classical
  have hsplit : unreleased edges k = unreleased edges (k + 1) +
      edges.countP fun e => Rank (HasEdge edges) e.source k := by
    refine Lists.countP_eq_add edges fun e _ => ?_
    have hrank : Rank (HasEdge edges) e.source k → ¬ Below (HasEdge edges) k e.source :=
      not_below_of_rank
    simp only [decide_eq_true_eq, below_succ]
    tauto
  have hpos : 0 < edges.countP fun e => Rank (HasEdge edges) e.source k :=
    countP_pos_iff.mpr ⟨e, he, by simpa using hr⟩
  omega

/-- No pending edge: every predecessor is in an earlier level. -/
theorem pending_eq_zero {v : String} :
    pending edges k v = 0 ↔ ∀ u, HasEdge edges u v → Below (HasEdge edges) k u := by
  rw [pending, countP_eq_zero]
  simp only [decide_eq_true_eq, not_and, not_not]
  constructor
  · rintro h u ⟨e, he, rfl, ht⟩
    exact h e he ht
  · rintro h e he rfl
    exact h _ ⟨e, he, rfl, rfl⟩

/-- **One round of the loop** turns the invariant for level `k` into the one for `k + 1`. -/
theorem PeelInv.step (hids : (nodes.map Node.id).Nodup) (hknown : EndpointsKnown nodes edges)
    {outgoing : String → List Edge} (hout : ∀ v, outgoing v = edges.filter fun e => e.source = v)
    (hinv : PeelInv nodes edges k inDegree queue) :
    PeelInv nodes edges (k + 1) (releaseLevel (registerNodes nodes) outgoing inDegree queue).1
      (releaseLevel (registerNodes nodes) outgoing inDegree queue).2 := by
  classical
  rw [releaseLevel_eq]
  have hperm := released_perm hids hknown hinv
  simp only [← hout] at hperm
  have hcount : ∀ v, (queue.flatMap fun node => outgoing node.id).countP
      (fun e => e.target = v) = (edges.filter fun e => Rank (HasEdge edges) e.source k).countP
        fun e => e.target = v := fun v => hperm.countP_eq _
  have hsplit : ∀ v, inDegree v = (pending edges (k + 1) v : ℤ) +
      ((queue.flatMap fun node => outgoing node.id).countP fun e => e.target = v : ℕ) := by
    intro v
    rw [hinv.inDegree_eq, pending_split k v, hcount]
    simp
  obtain ⟨hdeg, hits, hnodup, hhits, hqueue⟩ := foldl_releaseEdge (registerNodes nodes)
    (queue.flatMap fun node => outgoing node.id) inDegree [] (fun v => by rw [hsplit]; omega)
  -- a released edge into `v` is an edge out of rank `k`
  have hreleased : ∀ v, 0 < (queue.flatMap fun node => outgoing node.id).countP
      (fun e => e.target = v) ↔ ∃ u, HasEdge edges u v ∧ Rank (HasEdge edges) u k := by
    intro v
    rw [hcount, countP_pos_iff]
    simp only [mem_filter, decide_eq_true_eq]
    constructor
    · rintro ⟨e, ⟨he, hr⟩, rfl⟩
      exact ⟨e.source, ⟨e, he, rfl, rfl⟩, hr⟩
    · rintro ⟨u, ⟨e, he, rfl, rfl⟩, hr⟩
      exact ⟨e, ⟨he, hr⟩, rfl⟩
  have hrank : ∀ v, v ∈ hits ↔ Rank (HasEdge edges) v (k + 1) := by
    intro v
    rw [hhits, hreleased, hsplit]
    constructor
    · rintro ⟨⟨u, hu, hru⟩, hzero⟩
      have hpred := pending_eq_zero.mp (show pending edges (k + 1) v = 0 by omega)
      refine rank_iff_not_below.mpr ⟨?_, hpred⟩
      rintro ⟨j, hj, hrj⟩
      have := Rank.lt_of_edge hu hru hrj
      omega
    · intro hr
      have hzero := pending_eq_zero.mpr (rank_iff_not_below.mp hr).2
      exact ⟨hr.exists_pred, by omega⟩
  -- every hit is the id of a node, and `byID` gives that node back
  have hnode : ∀ v ∈ hits, ∃ node ∈ nodes, node.id = v ∧
      (registerNodes nodes v).getD default = node := by
    intro v hv
    obtain ⟨u, ⟨e, he, -, rfl⟩, -⟩ := ((hrank v).mp hv).exists_pred
    obtain ⟨node, hnode, hid⟩ := mem_map.mp (hknown e he).2
    exact ⟨node, hnode, hid, by rw [← hid, registerNodes_of_mem hids hnode]; rfl⟩
  rw [nil_append] at hqueue
  refine ⟨fun v => by rw [hdeg, hsplit]; omega, fun node => ?_, ?_⟩
  · rw [hqueue, mem_map]
    constructor
    · rintro ⟨v, hv, rfl⟩
      obtain ⟨node, hmem, hid, heq⟩ := hnode v hv
      rw [heq]
      exact ⟨hmem, hid ▸ (hrank v).mp hv⟩
    · rintro ⟨hmem, hr⟩
      exact ⟨node.id, (hrank _).mpr hr, by rw [registerNodes_of_mem hids hmem]; rfl⟩
  · rw [hqueue]
    refine hnodup.map_on fun v hv w hw heq => ?_
    obtain ⟨a, -, ha, hav⟩ := hnode v hv
    obtain ⟨b, -, hb, hbw⟩ := hnode w hw
    rw [← ha, ← hb, ← hav, ← hbw, heq]

variable (nodes edges) in
/-- What the loop returns when it starts at level `k`: level by level the nodes of rank `k`,
`k + 1`, …, without a gap and up to the highest rank. -/
structure LevelsFrom (k : ℕ) (levels : List (List Node)) : Prop where
  mem_level : ∀ j level, levels[j]? = some level →
    ∀ node, node ∈ level ↔ node ∈ nodes ∧ Rank (HasEdge edges) node.id (k + j)
  level_nodup : ∀ level ∈ levels, level.Nodup ∧ level ≠ []
  complete : ∀ node ∈ nodes, ∀ r, Rank (HasEdge edges) node.id r → r < k + levels.length

/-- An empty queue at level `k` means that no rank is `k` or higher. -/
theorem LevelsFrom.nil (hknown : EndpointsKnown nodes edges)
    (hinv : PeelInv nodes edges k inDegree []) : LevelsFrom nodes edges k [] := by
  refine ⟨by simp, by simp, fun node hnode r hr => ?_⟩
  by_contra hge
  obtain ⟨u, hu, hor⟩ := hr.exists_of_le (j := k) (by simpa using hge)
  have hid : u ∈ nodes.map Node.id := by
    rcases hor with rfl | ⟨w, e, he, rfl, -⟩
    · exact mem_map_of_mem hnode
    · exact (hknown e he).1
  obtain ⟨node', hnode', rfl⟩ := mem_map.mp hid
  exact absurd ((hinv.mem_queue node').mpr ⟨hnode', hu⟩) not_mem_nil

/-- **The loop runs to its end** in as many rounds as there are unreleased edges, plus one. -/
theorem peelLevels_spec (hids : (nodes.map Node.id).Nodup) (hknown : EndpointsKnown nodes edges)
    {outgoing : String → List Edge} (hout : ∀ v, outgoing v = edges.filter fun e => e.source = v)
    (rounds k : ℕ) (inDegree : String → ℤ) (queue : List Node)
    (hinv : PeelInv nodes edges k inDegree queue)
    (hrounds : queue = [] ∨ unreleased edges k < rounds) :
    LevelsFrom nodes edges k (peelLevels (registerNodes nodes) outgoing rounds inDegree queue) := by
  induction rounds generalizing k inDegree queue with
  | zero =>
    obtain rfl : queue = [] := by simpa using hrounds
    exact .nil hknown hinv
  | succ rounds ih =>
    cases queue with
    | nil => exact .nil hknown hinv
    | cons head tail =>
      have hstep := hinv.step hids hknown hout
      rw [peelLevels]
      · have hnext : (releaseLevel (registerNodes nodes) outgoing inDegree (head :: tail)).2 = []
            ∨ unreleased edges (k + 1) < rounds := by
          rw [or_iff_not_imp_left]
          intro hne
          -- a node of the next level has an edge into it that this round releases
          obtain ⟨node, hnode⟩ := exists_mem_of_ne_nil _ hne
          obtain ⟨u, ⟨e, he, rfl, -⟩, hu⟩ := ((hstep.mem_queue node).mp hnode).2.exists_pred
          have := unreleased_lt he hu
          have := hrounds.resolve_left (by simp)
          omega
        have hrest := ih (k + 1) _ _ hstep hnext
        refine ⟨?_, ?_, ?_⟩
        · intro j level hlevel node
          cases j with
          | zero =>
            obtain rfl : head :: tail = level := by simpa using hlevel
            exact hinv.mem_queue node
          | succ j =>
            rw [getElem?_cons_succ] at hlevel
            have := hrest.mem_level j level hlevel node
            rwa [show k + 1 + j = k + (j + 1) by omega] at this
        · intro level hlevel
          rcases mem_cons.mp hlevel with rfl | hlevel
          · exact ⟨hinv.nodup, by simp⟩
          · exact hrest.level_nodup level hlevel
        · intro node hnode r hr
          have := hrest.complete node hnode r hr
          rw [length_cons]
          omega
      · simp

/-- The invariant holds before the loop. -/
theorem PeelInv.init (hids : (nodes.map Node.id).Nodup) {maps : PlanMaps}
    (hmaps : MapsSpec edges maps) :
    PeelInv nodes edges 0 maps.inDegree (nodes.filter fun node => maps.inDegree node.id = 0) := by
  have hbelow : ∀ v, ¬ Below (HasEdge edges) 0 v := by
    rintro v ⟨j, hj, -⟩
    omega
  have hpending : ∀ v, pending edges 0 v = edges.countP fun e => e.target = v := by
    intro v
    rw [pending]
    exact countP_congr fun e _ => by simp [hbelow]
  refine ⟨fun v => by rw [hmaps.inDegree, hpending], fun node => ?_, ?_⟩
  · rw [mem_filter, decide_eq_true_eq, hmaps.inDegree, ← hpending, Int.natCast_eq_zero,
      pending_eq_zero, rank_iff_not_below]
    simp [hbelow]
  · exact (List.Nodup.of_map _ hids).filter _

theorem unreleased_zero : unreleased edges 0 = edges.length := by
  classical
  rw [unreleased, countP_eq_length]
  intro e _
  rw [decide_eq_true_eq]
  rintro ⟨j, hj, -⟩
  omega

variable {levels : List (List Node)}

/-- Ranked levels are pairwise disjoint. -/
theorem LevelsFrom.flatten_nodup (h : LevelsFrom nodes edges k levels) : levels.flatten.Nodup := by
  refine nodup_flatten.mpr ⟨fun level hlevel => (h.level_nodup level hlevel).1, ?_⟩
  rw [pairwise_iff_getElem]
  intro i j hi hj hij node hni hnj
  have hri := ((h.mem_level i _ (getElem?_eq_getElem hi) node).mp hni).2
  have hrj := ((h.mem_level j _ (getElem?_eq_getElem hj) node).mp hnj).2
  have := hri.unique hrj
  omega

/-- The flattened levels are the ranked nodes. -/
theorem LevelsFrom.mem_flatten (h : LevelsFrom nodes edges 0 levels) (node : Node) :
    node ∈ levels.flatten ↔ node ∈ nodes ∧ ∃ r, Rank (HasEdge edges) node.id r := by
  rw [List.mem_flatten]
  constructor
  · rintro ⟨level, hlevel, hnode⟩
    obtain ⟨j, hj, rfl⟩ := getElem_of_mem hlevel
    obtain ⟨hmem, hr⟩ := (h.mem_level j _ (getElem?_eq_getElem hj) node).mp hnode
    exact ⟨hmem, _, hr⟩
  · rintro ⟨hmem, r, hr⟩
    have hlt := h.complete node hmem r hr
    rw [zero_add] at hlt
    refine ⟨levels[r], getElem_mem hlt, ?_⟩
    refine (h.mem_level r _ (getElem?_eq_getElem hlt) node).mpr ⟨hmem, ?_⟩
    rwa [zero_add]

/-- All nodes are visited iff there is no cycle. -/
theorem LevelsFrom.visited_iff (hids : (nodes.map Node.id).Nodup)
    (hknown : EndpointsKnown nodes edges)
    (h : LevelsFrom nodes edges 0 levels) :
    (levels.map List.length).sum = nodes.length ↔ ¬ Cyclic (HasEdge edges) := by
  have hsub : levels.flatten ⊆ nodes := fun node hnode => ((h.mem_flatten node).mp hnode).1
  have hV : ({v | v ∈ nodes.map Node.id} : Set String).Finite := finite_toSet _
  have hE : ∀ u v, HasEdge edges u v → u ∈ {v | v ∈ nodes.map Node.id} := by
    rintro u v ⟨e, he, rfl, -⟩
    exact (hknown e he).1
  rw [← length_flatten, not_cyclic_iff_rank hV hE]
  constructor
  · intro hlen v hv
    have hperm := Lists.perm_of_subset_of_length_eq h.flatten_nodup hsub hlen.ge
    obtain ⟨node, hnode, rfl⟩ := mem_map.mp hv
    exact ((h.mem_flatten node).mp (hperm.mem_iff.mpr hnode)).2
  · intro hrank
    refine le_antisymm (h.flatten_nodup.subperm hsub).length_le ?_
    refine ((List.Nodup.of_map _ hids).subperm fun node hnode => ?_).length_le
    exact (h.mem_flatten node).mpr ⟨hnode, hrank _ (mem_map_of_mem hnode)⟩

end peel

/-! ## The specification of `buildPlan` -/

/-- What a returned plan is: the levels partition the nodes by the length of the longest path
ending in them, and `incoming` lists the in-edges of a node in definition order. -/
structure PlanSpec (nodes : List Node) (edges : List Edge) (plan : ExecutionPlan) : Prop where
  flatten_perm : plan.levels.flatten.Perm nodes
  mem_level : ∀ k level, plan.levels[k]? = some level →
    ∀ node, node ∈ level ↔ node ∈ nodes ∧ Rank (HasEdge edges) node.id k
  level_nodup : ∀ level ∈ plan.levels, level.Nodup ∧ level ≠ []
  incoming : ∀ v, plan.incoming v = edges.filter fun e => e.target = v

section

variable (hids : (nodes.map Node.id).Nodup)

include hids

/-- With known end points `buildPlan` is decided by the number of visited nodes. -/
theorem buildPlan_of_known (hknown : EndpointsKnown nodes edges) :
    ∃ plan : ExecutionPlan, LevelsFrom nodes edges 0 plan.levels ∧
      (∀ v, plan.incoming v = edges.filter fun e => e.target = v) ∧
      buildPlan nodes edges =
        if (plan.levels.map List.length).sum = nodes.length then .ok plan else .error .cycle := by
  obtain ⟨maps, hmaps, hspec⟩ := addEdges_ok (registerNodes nodes) edges fun e he => by
    simpa only [ne_eq, registerNodes_eq_none, not_not] using hknown e he
  have hlevels := peelLevels_spec hids hknown hspec.outgoing (edges.length + 1) 0 _ _
    (PeelInv.init hids hspec) (.inr (by rw [unreleased_zero]; omega))
  exact ⟨⟨_, maps.incoming⟩, hlevels, hspec.incoming, by
    simp only [buildPlan, hmaps, bind, Except.bind]⟩

/-- With known end points and no cycle a plan is returned, and it is the right one. -/
theorem buildPlan_ok (hknown : EndpointsKnown nodes edges) (hacyclic : ¬ Cyclic (HasEdge edges)) :
    ∃ plan, buildPlan nodes edges = .ok plan ∧ PlanSpec nodes edges plan := by
  obtain ⟨plan, hlevels, hincoming, hplan⟩ := buildPlan_of_known hids hknown
  have hvisited := (hlevels.visited_iff hids hknown).mpr hacyclic
  refine ⟨plan, by rw [hplan, if_pos hvisited], ?_, fun k level h node => ?_,
    hlevels.level_nodup, hincoming⟩
  · refine Lists.perm_of_subset_of_length_eq hlevels.flatten_nodup
      (fun node hnode => ((hlevels.mem_flatten node).mp hnode).1) ?_
    rw [length_flatten, hvisited]
  · have := hlevels.mem_level k level h node
    rwa [zero_add] at this

/-- An unknown end point or a cycle is an error. -/
theorem buildPlan_error (h : ¬ (EndpointsKnown nodes edges ∧ ¬ Cyclic (HasEdge edges))) :
    ∃ err, buildPlan nodes edges = .error err := by
  by_cases hknown : EndpointsKnown nodes edges
  · obtain ⟨plan, hlevels, -, hplan⟩ := buildPlan_of_known hids hknown
    have hvisited := (hlevels.visited_iff hids hknown).not.mpr fun hacyclic => h ⟨hknown, hacyclic⟩
    exact ⟨.cycle, by rw [hplan, if_neg hvisited]⟩
  · have hbad : ∃ e ∈ edges, registerNodes nodes e.source = none ∨
        registerNodes nodes e.target = none := by
      simp only [registerNodes_eq_none]
      by_contra hall
      refine hknown fun e he => ?_
      by_contra hnot
      exact hall ⟨e, he, by tauto⟩
    obtain ⟨err, herr⟩ := addEdges_error edges {} hbad
    exact ⟨err, by simp only [buildPlan, herr, bind, Except.bind]⟩

/-- The plan, where there is one, is the right one. -/
theorem PlanSpec.of_buildPlan {plan : ExecutionPlan}
    (h : buildPlan nodes edges = .ok plan) : PlanSpec nodes edges plan := by
  by_cases hgood : EndpointsKnown nodes edges ∧ ¬ Cyclic (HasEdge edges)
  · obtain ⟨plan', hplan', hspec⟩ := buildPlan_ok hids hgood.1 hgood.2
    rw [h] at hplan'
    exact Except.ok.inj hplan' ▸ hspec
  · obtain ⟨err, herr⟩ := buildPlan_error hids hgood
    simp [h] at herr

end

/-- In a plan every node sits in the level of its rank. -/
theorem PlanSpec.level_of_mem {plan : ExecutionPlan}
    (h : PlanSpec nodes edges plan) {node : Node} (hnode : node ∈ nodes) :
    ∃ k level, plan.levels[k]? = some level ∧ node ∈ level ∧ Rank (HasEdge edges) node.id k := by
  obtain ⟨level, hlevel, hmem⟩ := List.mem_flatten.mp (h.flatten_perm.mem_iff.mpr hnode)
  obtain ⟨k, hk, rfl⟩ := getElem_of_mem hlevel
  have hget := getElem?_eq_getElem hk
  exact ⟨k, _, hget, hmem, ((h.mem_level k _ hget node).mp hmem).2⟩

/-- **`buildPlan` is correct and complete.** It fails iff an edge names an unknown id or the graph
has a cycle. Otherwise the levels list every node once, each in the level whose index is the length
of the longest path ending in it; so every edge goes strictly upward, and level `0` holds the nodes
without in-edges.
Source: `dynamic_dag.go` `buildPlan` -/
theorem buildPlan_correct (nodes : List Node) (edges : List Edge)
    (hids : (nodes.map Node.id).Nodup) :
    ((∃ err, buildPlan nodes edges = .error err) ↔
      (∃ e ∈ edges, e.source ∉ nodes.map Node.id ∨ e.target ∉ nodes.map Node.id) ∨
        Cyclic (HasEdge edges)) ∧
    ∀ plan, buildPlan nodes edges = .ok plan →
      (plan.levels.flatten.map Node.id).Perm (nodes.map Node.id) ∧
      (∀ node ∈ nodes, ∃ k level, plan.levels[k]? = some level ∧ node ∈ level ∧
        IsGreatest {n | ∃ a, Walk (HasEdge edges) a node.id n} k) ∧
      (∀ e ∈ edges, ∀ (i j : ℕ) (li lj : List Node), plan.levels[i]? = some li →
        plan.levels[j]? = some lj →
        e.source ∈ li.map Node.id → e.target ∈ lj.map Node.id → i < j) ∧
      (∀ node ∈ nodes, (∃ level, plan.levels[0]? = some level ∧ node ∈ level) ↔
        ∀ e ∈ edges, e.target ≠ node.id) := by
  refine ⟨?_, fun plan hplan => ?_⟩
  · constructor
    · rintro ⟨err, herr⟩
      by_contra hnot
      rw [not_or] at hnot
      have hknown : EndpointsKnown nodes edges := fun e he => by
        by_contra hbad
        exact hnot.1 ⟨e, he, by tauto⟩
      obtain ⟨plan, hplan, -⟩ := buildPlan_ok hids hknown hnot.2
      rw [herr] at hplan
      cases hplan
    · intro hbad
      refine buildPlan_error hids fun ⟨hknown, hacyclic⟩ => ?_
      rcases hbad with ⟨e, he, hunknown⟩ | hcyclic
      · have := hknown e he
        tauto
      · exact hacyclic hcyclic
  · have hspec := PlanSpec.of_buildPlan hids hplan
    refine ⟨hspec.flatten_perm.map _, fun node hnode => hspec.level_of_mem hnode, ?_, ?_⟩
    · intro e he i j li lj hli hlj hs ht
      obtain ⟨u, hu, hus⟩ := mem_map.mp hs
      obtain ⟨v, hv, hvt⟩ := mem_map.mp ht
      exact Rank.lt_of_edge ⟨e, he, hus.symm, hvt.symm⟩ ((hspec.mem_level i li hli u).mp hu).2
        ((hspec.mem_level j lj hlj v).mp hv).2
    · intro node hnode
      have hzero : Rank (HasEdge edges) node.id 0 ↔ ∀ e ∈ edges, e.target ≠ node.id := by
        rw [rank_zero_iff]
        exact ⟨fun h e he ht => h e.source ⟨e, he, rfl, ht⟩, fun h u ⟨e, he, _, ht⟩ => h e he ht⟩
      rw [← hzero]
      constructor
      · rintro ⟨level, hlevel, hmem⟩
        exact ((hspec.mem_level 0 level hlevel node).mp hmem).2
      · intro hr
        obtain ⟨k, level, hlevel, hmem, hrk⟩ := hspec.level_of_mem hnode
        exact ⟨level, hrk.unique hr ▸ hlevel, hmem⟩

/-- The theorem at the graph of `TestBuildPlanCreatesParallelLevels`, with one edge doubled. -/
theorem buildPlan_correct_parallelLevels :
    let nodes : List Node := [{ id := "a" }, { id := "b" }, { id := "merge" }, { id := "sink" }]
    let edges : List Edge := [{ source := "a", target := "merge" },
      { source := "b", target := "merge" }, { source := "a", target := "merge" },
      { source := "merge", target := "sink" }]
    ∃ plan, buildPlan nodes edges = .ok plan ∧
      plan.levels.map (List.map Node.id) = [["a", "b"], ["merge"], ["sink"]] ∧
      (plan.levels.flatten.map Node.id).Perm ["a", "b", "merge", "sink"] := by
  intro nodes edges
  have hcorrect := buildPlan_correct nodes edges (by decide)
  exact ⟨_, rfl, by decide, (hcorrect.2 _ rfl).1⟩

end Dataflow.Workflows
