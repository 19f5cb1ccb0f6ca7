import Dataflow.Library.Kahn
import Dataflow.Model.Json
import Mathlib.Algebra.Order.Field.Rat
import Mathlib.Tactic.Linarith

/-!
# The layout of the lineage graph

The nodes of the graph are shown in columns, from left to right along the data: a node stands in the
column of its rank. The nodes of a column are ordered by where their neighbours stand, and stacked
around the middle line.

* `LineageGraph`, `FlowNode`, `FlowEdge`: what is given and what is shown.
* `ranks`, `columns`, `sweep`, `layoutColumns`: the nodes of each column.
* `placeColumn`, `placeColumns`, `buildFlow`: the rectangles.
* `mem_layoutColumns`: who is in which column, whatever the order in it.
* `placeColumns_spec`: where the nodes of each column stand.
* **`sound_buildFlow`**: every node has its place, edges go to the right, and rectangles do not
  overlap.

Source: `lineageFlow.tsx` `buildFlow`
-/

namespace Dataflow.Web.LineageFlow

open Library Model List Function Option

/-! ## Graphs and what is shown of them -/

/-- What a node stands for; `null` where a field is not set. -/
inductive NodeKind where
  | asset (asset : JsonMap) (materialization quality : Json)
  | externalJob (externalJob : JsonMap)
  | pipeline (pipeline : JsonMap)

/-- Source: `lineage.ts` `WorkspaceLineageNode`, with the metrics that some pages add. -/
structure LineageNode where
  id : String
  kind : NodeKind
  metrics : Json := .null

/-- Source: `lineage.ts` `WorkspaceLineageEdge`. -/
structure LineageEdge where
  id : String
  source : String
  target : String
  pipelineRowId : String

/-- What `buildFlow` reads of a `WorkspaceLineage`. -/
structure LineageGraph where
  nodes : List LineageNode
  edges : List LineageEdge

/-- `Record<string, PipelineHealth>`. -/
abbrev HealthById := List (String × JsonMap)

/-- A width and a height. -/
structure Size where
  width : ℚ
  height : ℚ

/-- A node as it is shown. -/
structure FlowNode where
  id : String
  position : Option (ℚ × ℚ)
  size : Size
  draggable : Bool := false
  type : String
  data : JsonMap

/-- An edge as it is shown. -/
structure FlowEdge where
  id : String
  source : String
  target : String
  stroke : String
  strokeWidth : ℚ := 3 / 2

/-! ## The code -/

/-- Source: `lineageFlow.tsx` `ASSET_WIDTH`, `ASSET_HEIGHT`. -/
def assetSize : Size := ⟨360, 152⟩

/-- Source: `lineageFlow.tsx` `PIPELINE_WIDTH`, `PIPELINE_HEIGHT`. -/
def pipelineSize : Size := ⟨200, 128⟩

/-- Source: `lineageFlow.tsx` `COL_GAP`. -/
def colGap : ℚ := 160

/-- Source: `lineageFlow.tsx` `ROW_GAP`. -/
def rowGap : ℚ := 32

/-- Source: `lineageFlow.tsx` `normalizeLayer`. -/
def normalizeLayer : Json → String
  | .string layer => if layer ∈ ["external", "bronze", "silver", "gold"] then layer else "external"
  | _ => "external"

/-- Source: `lineageFlow.tsx` `HEALTH_COLOR`. -/
def healthColor : List (String × String) :=
  [("healthy", "#10b981"), ("warning", "#f59e0b"), ("critical", "#ef4444"), ("unmonitored", "#94a3b8")]

/-- `{ ...left, ...right }`. -/
def spread (left right : JsonMap) : JsonMap :=
  right.foldl (fun data field => data.set field.1 field.2) left

section ranks

variable (graph : LineageGraph)

/-- The names of the nodes. -/
def LineageGraph.ids : List String := graph.nodes.map LineageNode.id

/-- The ends of the edges. -/
def LineageGraph.ends : List (String × String) :=
  graph.edges.map fun edge => (edge.source, edge.target)

/-- The loop with the queue; between the nodes of the graph. -/
def ranks : String → ℕ := (Kahn.ranking graph.ids graph.ends).rank

/-- `(columns[r] ??= []).push(id)`; a column that is not there yet is empty. -/
def pushAt (id : String) : ℕ → List (List String) → List (List String)
  | 0, [] => [[id]]
  | 0, column :: columns => (column ++ [id]) :: columns
  | r + 1, [] => [] :: pushAt id r []
  | r + 1, column :: columns => column :: pushAt id r columns

/-- The columns, before their nodes are ordered. -/
def columns : List (List String) :=
  graph.ids.foldl (fun columns id => pushAt id (ranks graph id) columns) []

end ranks

section order

variable (divide : ℕ → ℕ → ℚ) (neighbours : String → List String)

/-- `column.forEach((id, index) => orderIndex.set(id, index))`. -/
def setOrder (orderIndex : String → ℕ) (column : List String) : String → ℕ :=
  column.zipIdx.foldl (fun orderIndex entry => update orderIndex entry.1 entry.2) orderIndex

/-- The mean place of the neighbours, as `divide` computes it; without neighbours the own place. -/
def barycenter (orderIndex : String → ℕ) (id : String) : ℚ :=
  match (neighbours id).map orderIndex with
  | [] => orderIndex id
  | positions => divide positions.sum positions.length

/-- The nodes of each column are ordered, one column after the other. -/
def sweep : List (List String) → (String → ℕ) → List (List String) × (String → ℕ)
  | [], orderIndex => ([], orderIndex)
  | column :: columns, orderIndex =>
    let column := column.mergeSort fun a b =>
      decide (barycenter divide neighbours orderIndex a ≤ barycenter divide neighbours orderIndex b)
    let rest := sweep columns (setOrder orderIndex column)
    (column :: rest.1, rest.2)

/-- A sweep to the right by the sources of the edges, and one to the left by their targets. -/
def sweepBoth (graph : LineageGraph) (state : List (List String) × (String → ℕ)) :
    List (List String) × (String → ℕ) :=
  let right := sweep divide (Kahn.sources graph.ends) state.1 state.2
  let left := sweep divide (Kahn.targets graph.ends) right.1.reverse right.2
  (left.1.reverse, left.2)

/-- The columns after four sweeps. -/
def layoutColumns (graph : LineageGraph) : List (List String) :=
  let columns := columns graph
  (sweepBoth divide graph (sweepBoth divide graph (columns, columns.foldl setOrder fun _ => 0))).1

end order

section place

variable (sizeOf : String → Size)

/-- The nodes of a column, one under the other. -/
def placeColumn (x columnWidth : ℚ) :
    (y : ℚ) → List String → (String → Option (ℚ × ℚ)) → String → Option (ℚ × ℚ)
  | _, [], position => position
  | y, id :: column, position =>
    placeColumn x columnWidth (y + ((sizeOf id).height + rowGap)) column
      (update position id (some (x + (columnWidth - (sizeOf id).width) / 2, y)))

/-- `Math.max(...column.map(id => sizeOf(id).width))`. -/
def columnWidth (column : List String) : ℚ := (column.map fun id => (sizeOf id).width).foldr max 0

/-- The height of a column, with gaps between its nodes. -/
def columnHeight (column : List String) : ℚ :=
  column.foldl (fun sum id => sum + (sizeOf id).height + rowGap) (-rowGap)

/-- One column after the other; empty ones take no place. -/
def placeColumns :
    (x : ℚ) → List (List String) → (String → Option (ℚ × ℚ)) → String → Option (ℚ × ℚ)
  | _, [], position => position
  | x, column :: columns, position =>
    if column = [] then placeColumns x columns position
    else placeColumns (x + (columnWidth sizeOf column + colGap)) columns
      (placeColumn sizeOf x (columnWidth sizeOf column) (-columnHeight sizeOf column / 2) column position)

end place

/-- `kindById.get(id)`. -/
def LineageGraph.kindById (graph : LineageGraph) (id : String) : Option NodeKind :=
  (graph.nodes.reverse.find? fun node => node.id = id).map LineageNode.kind

/-- The size of a node by its name. -/
def LineageGraph.sizeOf (graph : LineageGraph) (id : String) : Size :=
  match graph.kindById id with
  | some (.asset _ _ _) => assetSize
  | _ => pipelineSize

/-- The type of a node as it is shown. -/
def NodeKind.type : NodeKind → String
  | .asset _ _ _ => "asset"
  | _ => "pipeline"

/-- The data of a node as it is shown. -/
def LineageNode.data (healthById : HealthById) (node : LineageNode) : JsonMap :=
  match node.kind with
  | .asset asset materialization quality =>
    spread asset [("layer", .string (normalizeLayer (asset.get "layer"))), ("materialization", materialization),
      ("quality", quality), ("metrics", node.metrics)]
  | .externalJob externalJob =>
    spread externalJob [("external", .bool true), ("status", .string "external"),
      ("health", .string "unmonitored"), ("metrics", node.metrics)]
  | .pipeline pipeline =>
    let health := ((pipeline.get "rowId").asString?.bind fun rowId => healthById.lookup rowId).getD
      [("health", .string "unmonitored"), ("breaches", .array [])]
    spread (spread pipeline health) [("metrics", node.metrics)]

/-- An edge as it is shown. -/
def LineageEdge.show (healthById : HealthById) (edge : LineageEdge) : FlowEdge where
  id := edge.id
  source := edge.source
  target := edge.target
  stroke :=
    let health := (healthById.lookup edge.pipelineRowId).bind fun health => (health.get "health").asString?
    (health.bind fun health => healthColor.lookup health).getD "#8b86f8"

/-- Source: `lineageFlow.tsx` `buildFlow`; `divide` is the division of floating-point numbers, which
only the order in a column depends on. -/
def buildFlow (divide : ℕ → ℕ → ℚ) (graph : LineageGraph) (healthById : HealthById) :
    List FlowNode × List FlowEdge :=
  let position := placeColumns graph.sizeOf 0 (layoutColumns divide graph) fun _ => none
  (graph.nodes.map fun node =>
      { id := node.id, position := position node.id, size := graph.sizeOf node.id, type := node.kind.type,
        data := node.data healthById },
    graph.edges.map (LineageEdge.show healthById))

/-! ## Columns -/

section columns

variable {graph : LineageGraph}

/-- A name is put at the end of its column. -/
theorem getD_pushAt (id : String) (r : ℕ) (columns : List (List String)) (k : ℕ) :
    (pushAt id r columns).getD k [] = if k =
      r then columns.getD k [] ++ [id] else columns.getD k [] := by
  induction r, columns using pushAt.induct generalizing k with
  | case1 | case2 column columns => cases k <;> simp [pushAt]
  | case3 r ih | case4 r column columns ih =>
    cases k with
    | zero => simp [pushAt]
    | succ k => simpa [pushAt] using ih k

/-- No name is lost. -/
theorem pushAt_flatten (id : String) (r : ℕ) (columns : List (List String)) :
    (pushAt id r columns).flatten.Perm (columns.flatten ++ [id]) := by
  induction r, columns using pushAt.induct with
  | case1 => exact .rfl
  | case2 column columns =>
    rw [pushAt, flatten_cons, flatten_cons, append_assoc, append_assoc]
    exact List.perm_append_comm.append_left column
  | case3 r ih => exact ih
  | case4 r column columns ih =>
    rw [pushAt, flatten_cons, flatten_cons, append_assoc]
    exact ih.append_left column

/-- The names of a column are those of its rank, in their order. -/
theorem getD_columns (k : ℕ) :
    (columns graph).getD k [] = graph.ids.filter fun id => ranks graph id = k := by
  suffices h : ∀ (ids : List String) (start : List (List String)),
      (ids.foldl (fun columns id => pushAt id (ranks graph id) columns) start).getD k [] =
        start.getD k [] ++ ids.filter fun id => ranks graph id = k by
    exact h graph.ids []
  intro ids
  induction ids with
  | nil => simp
  | cons id ids ih =>
    intro start
    rw [foldl_cons, ih, getD_pushAt, filter_cons]
    by_cases hk : ranks graph id = k
    · simp [hk]
    · simp [hk, Ne.symm hk]

theorem columns_flatten : (columns graph).flatten.Perm graph.ids := by
  suffices h : ∀ (ids : List String) (start : List (List String)),
      (ids.foldl (fun columns id => pushAt id (ranks graph id) columns) start).flatten.Perm
        (start.flatten ++ ids) from h graph.ids []
  intro ids
  induction ids with
  | nil => simp
  | cons id ids ih =>
    intro start
    refine (ih (pushAt id (ranks graph id) start)).trans ?_
    rw [append_cons]
    exact (pushAt_flatten id _ start).append_right ids

variable (divide : ℕ → ℕ → ℚ) (neighbours : String → List String)

/-- **A sweep** orders each column anew. -/
theorem sweep_perm (columns : List (List String)) (orderIndex : String → ℕ) :
    Forall₂ List.Perm (sweep divide neighbours columns orderIndex).1 columns := by
  induction columns generalizing orderIndex with
  | nil => exact .nil
  | cons column columns ih => exact .cons (mergeSort_perm _ _) (ih _)

theorem sweepBoth_perm (state : List (List String) × (String → ℕ)) :
    Forall₂ List.Perm (sweepBoth divide graph state).1 state.1 := by
  refine Lists.forall₂_trans ?_ (sweep_perm divide (Kahn.sources graph.ends) state.1 state.2)
    fun _ _ _ => List.Perm.trans
  rw [← forall₂_reverse_iff, sweepBoth, reverse_reverse]
  exact sweep_perm _ _ _ _

/-- **The order of a column changes, not who is in it.** -/
theorem layoutColumns_perm : Forall₂ List.Perm (layoutColumns divide graph) (columns graph) :=
  Lists.forall₂_trans (sweepBoth_perm divide _) (sweepBoth_perm divide _) fun _ _ _ => List.Perm.trans

theorem layoutColumns_flatten : (layoutColumns divide graph).flatten.Perm graph.ids :=
  (List.Perm.flatten_congr (layoutColumns_perm divide)).trans columns_flatten

/-- A node stands in the column of its rank. -/
theorem mem_layoutColumns (id : String) (k : ℕ) :
    id ∈ (layoutColumns divide graph).getD k [] ↔ id ∈ graph.ids ∧ ranks graph id = k := by
  have hperm : ∀ {a b : List (List String)}, Forall₂ List.Perm a b →
      (a.getD k []).Perm (b.getD k []) := by
    intro a b h
    induction h generalizing k with
    | nil => exact .rfl
    | cons hab _ ih =>
      cases k with
      | zero => exact hab
      | succ k => exact ih k
  rw [(hperm (layoutColumns_perm divide)).mem_iff, getD_columns]
  simp

end columns

/-! ## Rectangles -/

section place

variable {sizeOf : String → Size} {position : String → Option (ℚ × ℚ)} {x y W : ℚ} {id : String}
  {column : List String} {columns : List (List String)}

/-- A node stands on the left of another one, with a gap. -/
def LeftOf (sizeOf : String → Size) (position : String → Option (ℚ × ℚ)) (a b : String) : Prop :=
  ∃ p q, position a = some p ∧ position b = some q ∧ p.1 + (sizeOf a).width + colGap ≤ q.1

/-- A node stands above another one, with a gap. -/
def Above (sizeOf : String → Size) (position : String → Option (ℚ × ℚ)) (a b : String) : Prop :=
  ∃ p q, position a = some p ∧ position b = some q ∧ p.2 + (sizeOf a).height + rowGap ≤ q.2

theorem placeColumn_of_notMem (h : id ∉ column) :
    placeColumn sizeOf x W y column position id = position id := by
  induction column generalizing y position with
  | nil => rfl
  | cons first column ih =>
    obtain ⟨hne, hrest⟩ := not_or.mp (mt mem_cons.mpr h)
    rw [placeColumn, ih hrest, update_of_ne hne]

/-- A node of a column is centred in it, below where the column starts. -/
theorem placeColumn_of_mem (hsize : ∀ id, 0 ≤ (sizeOf id).height) (x W y : ℚ)
    (position : String → Option (ℚ × ℚ)) (h : id ∈ column) :
    ∃ y', placeColumn sizeOf x W y column position id = some (x + (W - (sizeOf id).width) / 2, y') ∧
    y ≤ y' := by
  induction column generalizing y position with
  | nil => exact absurd h not_mem_nil
  | cons first column ih =>
    rw [placeColumn]
    by_cases hrest : id ∈ column
    · obtain ⟨y', hplace, hy⟩ := ih (y + ((sizeOf first).height + rowGap)) _ hrest
      refine ⟨y', hplace, ?_⟩
      have hheight := hsize first
      have hgap : (0 : ℚ) ≤ rowGap := by norm_num [rowGap]
      linarith
    · obtain rfl : id = first := (mem_cons.mp h).resolve_right hrest
      rw [placeColumn_of_notMem hrest, update_self]
      exact ⟨y, rfl, le_rfl⟩

/-- **A column is a stack.** -/
theorem placeColumn_pairwise (hsize : ∀ id, 0 ≤ (sizeOf id).height) (x W y : ℚ)
    (position : String → Option (ℚ × ℚ)) (hnodup : column.Nodup) :
    column.Pairwise (Above sizeOf (placeColumn sizeOf x W y column position)) := by
  induction column generalizing y position with
  | nil => exact .nil
  | cons first column ih =>
    obtain ⟨hfirst, hnodup⟩ := nodup_cons.mp hnodup
    refine .cons (fun id hid => ?_) (ih _ _ hnodup)
    rw [placeColumn]
    obtain ⟨y', hplace, hy⟩ := placeColumn_of_mem hsize x W (y + ((sizeOf first).height + rowGap))
      (update position first (some (x + (W - (sizeOf first).width) / 2, y))) hid
    refine ⟨(x + (W - (sizeOf first).width) / 2, y), _, ?_, hplace, ?_⟩
    · rw [placeColumn_of_notMem hfirst, update_self]
    · linarith

/-- A column is as wide as its widest node. -/
theorem width_le_columnWidth (sizeOf : String → Size) (h : id ∈ column) :
    (sizeOf id).width ≤ columnWidth sizeOf column := by
  induction column with
  | nil => exact absurd h not_mem_nil
  | cons first column ih =>
    rw [columnWidth, map_cons, foldr_cons]
    rcases mem_cons.mp h with rfl | h
    · exact le_max_left _ _
    · exact le_max_of_le_right (ih h)

theorem columnWidth_nonneg (sizeOf : String → Size) (column : List String) :
    0 ≤ columnWidth sizeOf column := by
  induction column with
  | nil => exact le_rfl
  | cons first column ih => exact le_max_of_le_right ih

theorem placeColumns_of_notMem (h : id ∉ columns.flatten) :
    placeColumns sizeOf x columns position id = position id := by
  induction columns generalizing x position with
  | nil => rfl
  | cons column columns ih =>
    obtain ⟨hcolumn, hrest⟩ := not_or.mp (mt mem_append.mpr h)
    rw [placeColumns]
    split_ifs
    · exact ih hrest
    · rw [ih hrest, placeColumn_of_notMem hcolumn]

/-- A node stands on the right of where the columns start. -/
theorem placeColumns_of_mem (hsize : ∀ id, 0 ≤ (sizeOf id).height) (x : ℚ)
    (position : String → Option (ℚ × ℚ)) (h : id ∈ columns.flatten) :
    ∃ p, placeColumns sizeOf x columns position id = some p ∧ x ≤ p.1 := by
  induction columns generalizing x position with
  | nil => exact absurd h not_mem_nil
  | cons column columns ih =>
    rw [placeColumns]
    by_cases hrest : id ∈ columns.flatten
    · split_ifs
      · exact ih x position hrest
      · obtain ⟨p, hplace, hx⟩ := ih (x + (columnWidth sizeOf column + colGap)) _ hrest
        refine ⟨p, hplace, ?_⟩
        have hwidth := columnWidth_nonneg sizeOf column
        have hgap : (0 : ℚ) ≤ colGap := by norm_num [colGap]
        linarith
    · have hid : id ∈ column := (mem_append.mp h).resolve_right hrest
      rw [if_neg (ne_nil_of_mem hid), placeColumns_of_notMem hrest]
      obtain ⟨y', hplace, -⟩ := placeColumn_of_mem hsize x (columnWidth sizeOf column)
        (-columnHeight sizeOf column / 2) position hid
      refine ⟨_, hplace, ?_⟩
      have hwidth := width_le_columnWidth sizeOf hid
      linarith

/-- One of two nodes stands on the left of the other, or above it. -/
def Beside (sizeOf : String → Size) (position : String → Option (ℚ × ℚ)) (a b : String) : Prop :=
  (LeftOf sizeOf position a b ∨ Above sizeOf position a b) ∨
    (LeftOf sizeOf position b a ∨ Above sizeOf position b a)

/-- **Columns stand next to each other, and each is a stack.** -/
theorem placeColumns_spec (hsize : ∀ id, 0 ≤ (sizeOf id).height) (x : ℚ)
    (position : String → Option (ℚ × ℚ)) (hnodup : columns.flatten.Nodup) :
    (∀ column ∈ columns, column.Pairwise (Above sizeOf (placeColumns sizeOf x columns position))) ∧
      columns.Pairwise fun left right =>
        ∀ a ∈ left, ∀ b ∈ right, LeftOf sizeOf (placeColumns sizeOf x columns position) a b := by
  induction columns generalizing x position with
  | nil => simp
  | cons column columns ih =>
    obtain ⟨hcolumn, hrest, hdisjoint⟩ := nodup_append.mp hnodup
    rw [placeColumns]
    split_ifs with hempty
    · obtain ⟨hstack, hleft⟩ := ih x position hrest
      subst hempty
      exact ⟨forall_mem_cons.mpr ⟨.nil, hstack⟩, .cons (fun _ _ a ha => absurd ha not_mem_nil) hleft⟩
    · -- the other columns leave the first one where it is
      have hfirst : ∀ id ∈ column, id ∉ columns.flatten :=
        fun id hid hin => hdisjoint id hid id hin rfl
      obtain ⟨hstack, hleft⟩ := ih (x + (columnWidth sizeOf column + colGap)) (placeColumn sizeOf x
        (columnWidth sizeOf column) (-columnHeight sizeOf column / 2) column position) hrest
      refine ⟨forall_mem_cons.mpr ⟨?_, hstack⟩, .cons (fun right hright a ha b hb => ?_) hleft⟩
      · refine (placeColumn_pairwise hsize x (columnWidth sizeOf column) (-columnHeight sizeOf column / 2)
          position hcolumn).imp_of_mem fun {a b} ha hb => ?_
        rintro ⟨p, q, hp, hq, hgap⟩
        refine ⟨p, q, ?_, ?_, hgap⟩
        · rw [placeColumns_of_notMem (hfirst a ha), hp]
        · rw [placeColumns_of_notMem (hfirst b hb), hq]
      · obtain ⟨y', hplace, -⟩ := placeColumn_of_mem hsize x (columnWidth sizeOf column)
          (-columnHeight sizeOf column / 2) position ha
        obtain ⟨q, hq, hx⟩ := placeColumns_of_mem hsize (x + (columnWidth sizeOf column + colGap))
          (placeColumn sizeOf x (columnWidth sizeOf column) (-columnHeight sizeOf column / 2) column position)
          (mem_flatten.mpr ⟨right, hright, hb⟩)
        refine ⟨_, q, (placeColumns_of_notMem (hfirst a ha)).trans hplace, hq, ?_⟩
        have hwidth := width_le_columnWidth sizeOf ha
        linarith

end place

/-! ## Sound layouts -/

/-- A point of the rectangle of a node, its border included. -/
def FlowNode.Covers (node : FlowNode) (point : ℚ × ℚ) : Prop :=
  ∃ p, node.position = some p ∧ p.1 ≤ point.1 ∧ point.1 ≤ p.1 + node.size.width ∧
    p.2 ≤ point.2 ∧ point.2 ≤ p.2 + node.size.height

/-- Two rectangles have no point in common. -/
def FlowNode.Apart (a b : FlowNode) : Prop := ∀ point, ¬ (a.Covers point ∧ b.Covers point)

/-- The rectangle of a node ends before that of another one starts, from left to right. -/
def FlowNode.Before (a b : FlowNode) : Prop :=
  ∃ p q, a.position = some p ∧ b.position = some q ∧ p.1 + a.size.width < q.1

/-- A layout is sound: every node is shown once and has its place, and stands in one column; every
edge goes to a later column, and so to the right; and no two rectangles overlap. -/
structure Sound (graph : LineageGraph) (columns : List (List String))
    (flow : List FlowNode × List FlowEdge) :
    Prop where
  nodes : flow.1.map FlowNode.id = graph.ids
  placed : ∀ node ∈ flow.1, node.position ≠ none
  once : columns.flatten.Perm graph.ids
  edges : flow.2.map (fun edge => (edge.source, edge.target)) = graph.ends
  later : ∀ edge ∈ flow.2, ∃ i j, i < j ∧ edge.source ∈ columns.getD i [] ∧ edge.target ∈ columns.getD j []
  right : ∀ i j, i < j → ∀ a ∈ flow.1, ∀ b ∈ flow.1, a.id ∈ columns.getD i [] → b.id ∈ columns.getD j [] →
    a.Before b
  apart : flow.1.Pairwise FlowNode.Apart

section sound

variable {graph : LineageGraph} (divide : ℕ → ℕ → ℚ) (healthById : HealthById)

theorem FlowNode.Apart.symm {a b : FlowNode} (h : a.Apart b) : b.Apart a := fun point hpoint =>
  h point ⟨hpoint.2, hpoint.1⟩

theorem sizeOf_height_nonneg (id : String) : 0 ≤ (graph.sizeOf id).height := by
  rw [LineageGraph.sizeOf]
  split <;> norm_num [assetSize, pipelineSize]

/-- Where the nodes stand. -/
def positions (graph : LineageGraph) : String → Option (ℚ × ℚ) :=
  placeColumns graph.sizeOf 0 (layoutColumns divide graph) fun _ => none

/-- A node as it is shown. -/
def LineageGraph.show (graph : LineageGraph) (node : LineageNode) : FlowNode where
  id := node.id
  position := positions divide graph node.id
  size := graph.sizeOf node.id
  type := node.kind.type
  data := node.data healthById

theorem buildFlow_nodes :
    (buildFlow divide graph healthById).1 = graph.nodes.map (graph.show divide healthById) :=
  rfl

theorem show_before {a b : LineageNode}
    (h : LeftOf graph.sizeOf (positions divide graph) a.id b.id) :
    (graph.show divide healthById a).Before (graph.show divide healthById b) := by
  obtain ⟨p, q, hp, hq, hgap⟩ := h
  refine ⟨p, q, hp, hq, lt_of_lt_of_le ?_ hgap⟩
  exact lt_add_of_pos_right _ (by norm_num [colGap])

theorem show_apart {a b : LineageNode} (h : LeftOf graph.sizeOf (positions divide graph) a.id b.id ∨
    Above graph.sizeOf (positions divide graph) a.id b.id) :
    (graph.show divide healthById a).Apart (graph.show divide healthById b) := by
  rintro ⟨x, y⟩ ⟨⟨p', hp', -, hx, -, hy⟩, ⟨q', hq', hx', -, hy', -⟩⟩
  rcases h with ⟨p, q, hp, hq, hgap⟩ | ⟨p, q, hp, hq, hgap⟩
  · obtain rfl : p = p' := some.inj (hp.symm.trans hp')
    obtain rfl : q = q' := some.inj (hq.symm.trans hq')
    have hpos : (0 : ℚ) < colGap := by norm_num [colGap]
    change x ≤ p.1 + (graph.sizeOf a.id).width at hx
    change q.1 ≤ x at hx'
    linarith
  · obtain rfl : p = p' := some.inj (hp.symm.trans hp')
    obtain rfl : q = q' := some.inj (hq.symm.trans hq')
    have hpos : (0 : ℚ) < rowGap := by norm_num [rowGap]
    change y ≤ p.2 + (graph.sizeOf a.id).height at hy
    change q.2 ≤ y at hy'
    linarith

/-- Edges between nodes go up in rank when there is no cycle. -/
theorem ranks_lt_ranks (hids : graph.ids.Nodup)
    (hknown : ∀ edge ∈ graph.edges, edge.source ∈ graph.ids ∧ edge.target ∈ graph.ids)
    (hacyclic : ¬ Graph.Cyclic fun u v => ∃ edge ∈ graph.edges, edge.source = u ∧ edge.target = v)
    {edge : LineageEdge} (hedge : edge ∈ graph.edges) :
    ranks graph edge.source < ranks graph edge.target := by
  have hends : (fun u v => (u, v) ∈ graph.ends) =
      fun u v => ∃ edge ∈ graph.edges, edge.source = u ∧ edge.target = v := by
    funext u v
    simp [LineageGraph.ends]
  have hmem : (edge.source, edge.target) ∈ graph.ends := List.mem_map_of_mem hedge
  refine Kahn.rank_lt_rank hids (fun ends hin => ?_) (hends ▸ hacyclic) hmem
  obtain ⟨edge, hedge, rfl⟩ := List.mem_map.mp hin
  exact hknown edge hedge

/-- **The layout of a graph without cycles is sound.** -/
theorem sound_buildFlow (hids : graph.ids.Nodup)
    (hknown : ∀ edge ∈ graph.edges, edge.source ∈ graph.ids ∧ edge.target ∈ graph.ids)
    (hacyclic : ¬ Graph.Cyclic fun u v => ∃ edge ∈ graph.edges, edge.source = u ∧ edge.target = v) :
    Sound graph (layoutColumns divide graph) (buildFlow divide graph healthById) := by
  have hflatten : (layoutColumns divide graph).flatten.Perm graph.ids :=
    layoutColumns_flatten divide
  have hsize : ∀ id, 0 ≤ (graph.sizeOf id).height := sizeOf_height_nonneg
  obtain ⟨hstack, hleft⟩ := placeColumns_spec hsize 0 (fun _ => none) (hflatten.nodup_iff.mpr hids)
  refine ⟨?_, ?_, hflatten, ?_, ?_, ?_, ?_⟩
  · rw [buildFlow_nodes, List.map_map]
    rfl
  · rw [buildFlow_nodes]
    intro _ hshown
    obtain ⟨node, hnode, rfl⟩ := List.mem_map.mp hshown
    obtain ⟨p, hplace, -⟩ := placeColumns_of_mem hsize 0 (fun _ => none)
      (hflatten.mem_iff.mpr (List.mem_map_of_mem hnode))
    exact ne_none_iff_exists'.mpr ⟨p, hplace⟩
  · rw [buildFlow, List.map_map]
    rfl
  · intro _ hshown
    obtain ⟨edge, hedge, rfl⟩ := List.mem_map.mp hshown
    obtain ⟨hsource, htarget⟩ := hknown edge hedge
    exact ⟨_, _, ranks_lt_ranks hids hknown hacyclic hedge, (mem_layoutColumns divide _ _).mpr ⟨hsource, rfl⟩,
      (mem_layoutColumns divide _ _).mpr ⟨htarget, rfl⟩⟩
  · rw [buildFlow_nodes]
    intro i j hij _ hshown _ hshown' hi hj
    obtain ⟨a, -, rfl⟩ := List.mem_map.mp hshown
    obtain ⟨b, -, rfl⟩ := List.mem_map.mp hshown'
    exact show_before divide healthById (Lists.getD_pairwise hleft hij hi hj)
  · rw [buildFlow_nodes, pairwise_map]
    -- any two names of the columns, in either order, stand next to each other or one above the
    -- other
    have hall :
        (layoutColumns divide graph).flatten.Pairwise (Beside graph.sizeOf (positions divide graph)) := by
      refine pairwise_flatten.mpr ⟨fun column hcolumn => ?_, ?_⟩
      · exact (hstack column hcolumn).imp fun h => .inl (.inr h)
      · exact hleft.imp fun h a ha b hb => .inl (.inl (h a ha b hb))
    have hids : graph.ids.Pairwise (Beside graph.sizeOf (positions divide graph)) :=
      (hflatten.pairwise_iff Or.symm).mp hall
    refine (pairwise_map.mp hids).imp fun {a b} h => ?_
    rcases h with h | h
    · exact show_apart divide healthById h
    · exact (show_apart divide healthById h).symm

/-- A table, a pipeline that reads it, and a table and an external job after that. -/
def branching : LineageGraph where
  nodes := [⟨"out", .asset [] .null .null, .null⟩, ⟨"in", .asset [] .null .null, .null⟩,
    ⟨"run", .pipeline [("rowId", .string "row")], .null⟩, ⟨"job", .externalJob [], .null⟩]
  edges := [⟨"e1", "in", "run", "row"⟩, ⟨"e2", "run", "out", "row"⟩, ⟨"e3", "run", "job", "row"⟩]

theorem sound_buildFlow_branching : Sound branching (layoutColumns (fun sum n => sum / n) branching)
      (buildFlow (fun sum n => sum / n) branching []) := by
  apply sound_buildFlow (fun sum n => sum / n) []
  · decide
  · decide
  · apply Graph.not_cyclic_of_lt fun id => if id = "in" then 0 else if id = "run" then 1 else 2
    rintro u v ⟨edge, hedge, rfl, rfl⟩
    simp only [branching, mem_cons, not_mem_nil, or_false] at hedge
    rcases hedge with rfl | rfl | rfl <;> decide

end sound

end Dataflow.Web.LineageFlow
