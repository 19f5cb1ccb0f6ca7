import Dataflow.Api.WorkspaceLineage

/-!
# The fields that the lineage of a workspace carries

On its way the code carries the fields behind the nodes that it has visited, each with the field of
the source that it comes from. A contract adds the fields that it names. A map whose text mentions
fields that are carried replaces all fields by those.

* `carryFields`: what one node makes of the fields, as a function of names.
* `SchemaCarries`, `SchemaCarries.visitNode`: the walk carries such fields, and every node does its part.
* `carryFields_eq_none_iff`: nothing is carried iff no contract names a field.
* **`mem_columnEdges_chain`**: the links between fields that a chain adds.

Source: `routes_pipelines.go`
-/

namespace Dataflow.Api

open Library Model List

/-! ## What a node makes of the fields -/

/-- Which field of the source the field with a name comes from. -/
abbrev FieldTypes := String → Option String

/-- The names of the fields of a contract. -/
def contractNames (codec : NumberCodec) (node : Node) : List String :=
  if node.activityType = "transform.contract" then
    ((lineageContractSchema codec (node.config.get "schemaJson")).getD []).map Prod.fst
  else []

/-- The new names with the old names in the text of a map. -/
def mapMatches (node : Node) : List (String × String) :=
  match node.config.get "expression" with
  | .string expression => fieldMatches (expression.length + 1) expression.toList
  | _ => []

/-- A map: of several matches with one new name the last one counts. -/
def renameFields (found : List (String × String)) (fields : FieldTypes) : FieldTypes :=
  let known := found.filter fun entry => (fields entry.2).isSome
  if known = [] then fields else fun name => (known.reverse.lookup name).bind fields

/-- One node. -/
def carryFields (codec : NumberCodec) (fields : FieldTypes) (node : Node) : FieldTypes :=
  if node.activityType = "transform.map" then renameFields (mapMatches node) fields
  else fun name => if name ∈ contractNames codec node then some name else fields name

section fields

variable {codec : NumberCodec} {fields : FieldTypes} {nodes : List Node} {node : Node}

/-- Something is found if there is a match. -/
theorem lookup_known_eq_none_iff {found : List (String × String)} :
    (fun name => ((found.filter fun entry => (fields entry.2).isSome).reverse.lookup name).bind fields) =
        (fun _ => none) ↔
      found.filter (fun entry => (fields entry.2).isSome) = [] := by
  constructor
  · intro h
    by_contra hnil
    obtain ⟨entry, hentry⟩ := exists_mem_of_ne_nil _ hnil
    have hnone := congrFun h entry.1
    cases hlookup : (found.filter fun entry => (fields entry.2).isSome).reverse.lookup entry.1 with
    | none =>
      have hne := lookup_eq_none_iff.mp hlookup entry (mem_reverse.mpr hentry)
      exact bne_iff_ne.mp hne rfl
    | some old =>
      have hold := (mem_filter.mp (mem_reverse.mp (Lists.mem_of_lookup hlookup))).2
      rw [hlookup, Option.bind_some] at hnone
      simp [hnone] at hold
  · intro h
    rw [h]
    rfl

theorem renameFields_eq_none_iff {found : List (String × String)} :
    renameFields found fields = (fun _ => none) ↔ fields = fun _ => none := by
  unfold renameFields
  dsimp only
  split_ifs with hnil
  · exact Iff.rfl
  · rw [lookup_known_eq_none_iff]
    refine iff_of_false hnil ?_
    rintro rfl
    exact hnil (filter_eq_nil_iff.mpr fun _ _ => Bool.false_ne_true)

theorem contractNames_of_map (h : node.activityType = "transform.map") :
    contractNames codec node = [] := by
  rw [contractNames, h, if_neg (by decide)]

/-- **Nothing is carried** iff nothing was and no contract names a field. -/
theorem carryFields_eq_none_iff : nodes.foldl (carryFields codec) fields = (fun _ => none) ↔
    fields = (fun _ => none) ∧ nodes.flatMap (contractNames codec) = [] := by
  induction nodes generalizing fields with
  | nil => simp
  | cons node nodes ih =>
    rw [foldl_cons, ih, flatMap_cons, append_eq_nil_iff, ← and_assoc]
    refine and_congr_left' ?_
    unfold carryFields
    split_ifs with hmap
    · rw [renameFields_eq_none_iff, contractNames_of_map hmap]
      exact (and_iff_left rfl).symm
    · constructor
      · intro h
        have hnames : contractNames codec node = [] := by
          rw [eq_nil_iff_forall_not_mem]
          intro name hname
          have hnone := congrFun h name
          simp [if_pos hname] at hnone
        simpa [hnames] using h
      · rintro ⟨rfl, hnames⟩
        simp [hnames]

/-- Without maps the fields of the contracts are carried, as they are. -/
theorem foldl_carryFields_of_no_map (h : ∀ node ∈ nodes, node.activityType ≠ "transform.map")
    (name : String) : nodes.foldl (carryFields codec) fields name =
      if name ∈ nodes.flatMap (contractNames codec) then some name else fields name := by
  induction nodes generalizing fields with
  | nil => rfl
  | cons node nodes ih =>
    obtain ⟨hnode, hnodes⟩ := forall_mem_cons.mp h
    rw [foldl_cons, ih hnodes, flatMap_cons, carryFields, if_neg hnode]
    by_cases hmem : name ∈ nodes.flatMap (contractNames codec)
    · rw [if_pos hmem, if_pos (mem_append_right _ hmem)]
    · rw [if_neg hmem]
      exact if_congr (by simp [hmem]) rfl rfl

end fields

/-! ## The walk -/

/-- The fields of a schema. -/
def fieldsOf (schema : AList fun _ : String => FieldOrigin) : FieldTypes := fun name =>
  (schema.lookup name).map FieldOrigin.field

/-- **A schema carries the fields** of an asset. -/
structure SchemaCarries (schema : AList fun _ : String => FieldOrigin) (urn : String) (fields : FieldTypes) :
    Prop where
  origins : ∀ name origin, schema.lookup name = some origin → origin.assetURN = urn
  fields : fieldsOf schema = fields

section walk

variable {codec : NumberCodec} {ranging : RangeIds} {node : Node} {walk : LineageWalk}
  {rowID urn : String} {fields : FieldTypes} {schema next : AList fun _ : String => FieldOrigin}

theorem schemaCarries_empty : SchemaCarries ∅ urn fun _ => none where
  origins name origin h := by simp at h
  fields := funext fun _ => rfl

theorem SchemaCarries.congr {others : FieldTypes} (h : SchemaCarries schema urn fields)
    (heq : ∀ name, fields name = others name) : SchemaCarries schema urn others :=
  funext heq ▸ h

theorem SchemaCarries.insert (h : SchemaCarries schema urn fields) (name : String) {origin : FieldOrigin}
    (horigin : origin.assetURN = urn) : SchemaCarries (schema.insert name origin) urn fun other =>
      if other = name then some origin.field else fields other where
  origins other found hfound := by
    by_cases hname : other = name
    · rw [hname, AList.lookup_insert, Option.some.injEq] at hfound
      exact hfound ▸ horigin
    · rw [AList.lookup_insert_ne hname] at hfound
      exact h.origins other found hfound
  fields := by
    funext other
    rw [← h.fields]
    unfold fieldsOf
    split_ifs with hname
    · rw [hname, AList.lookup_insert]
      rfl
    · rw [AList.lookup_insert_ne hname]

/-- The loop over the fields of a contract. -/
theorem SchemaCarries.contract (origin : String × Json → FieldOrigin)
    (horigin : ∀ entry, (origin entry).field = entry.1 ∧ (origin entry).assetURN = urn)
    (h : SchemaCarries schema urn fields) (entries : JsonMap) :
    SchemaCarries (entries.foldl (fun schema entry => schema.insert entry.1 (origin entry)) schema) urn
      fun name => if name ∈ entries.map Prod.fst then some name else fields name := by
  induction entries generalizing schema fields with
  | nil => exact h
  | cons entry entries ih =>
    refine (ih (h.insert entry.1 (horigin entry).2)).congr fun name => ?_
    rw [(horigin entry).1, map_cons]
    by_cases hname : name = entry.1
    · rw [if_pos (mem_cons.mpr (.inl hname)), if_pos hname, hname, ite_self]
    · rw [if_neg hname]
      exact if_congr (by rw [mem_cons, or_iff_right hname]) rfl rfl

/-- The loop over the matches of a map. -/
theorem SchemaCarries.map (renamed : FieldOrigin → FieldOrigin)
    (hrenamed : ∀ origin, (renamed origin).field = origin.field ∧
      (renamed origin).assetURN = origin.assetURN)
    (h : SchemaCarries schema urn fields) {others : FieldTypes} (hnext : SchemaCarries next urn others)
    (found : List (String × String)) :
    SchemaCarries (found.foldl (fun next entry =>
      match schema.lookup entry.2 with
      | some origin => next.insert entry.1 (renamed origin)
      | none => next) next) urn fun name =>
        (((found.filter fun entry => (fields entry.2).isSome).reverse.lookup name).bind fields).or
          (others name) := by
  induction found generalizing next others with
  | nil => exact hnext
  | cons entry found ih =>
    obtain ⟨new, old⟩ := entry
    have hentry : fields old = (schema.lookup old).map FieldOrigin.field := by
      rw [← h.fields, fieldsOf]
    cases hlookup : schema.lookup old with
    | none =>
      rw [hlookup] at hentry
      rw [filter_cons_of_neg (by rw [hentry]; decide)]
      rw [foldl_cons]
      rw [hlookup]
      exact ih hnext
    | some origin =>
      rw [hlookup] at hentry
      have horigin := (hrenamed origin).2.trans (h.origins _ _ hlookup)
      rw [filter_cons_of_pos (by rw [hentry]; rfl), foldl_cons]
      rw [hlookup]
      refine (ih (hnext.insert new horigin)).congr fun name => ?_
      rw [reverse_cons, lookup_append, (hrenamed origin).1]
      cases hfound : (found.filter fun entry => (fields entry.2).isSome).reverse.lookup name with
      | some old =>
        have hold := (mem_filter.mp (mem_reverse.mp (Lists.mem_of_lookup hfound))).2
        obtain ⟨field, hfield⟩ := Option.isSome_iff_exists.mp hold
        rw [Option.some_or, Option.bind_some, hfield]
        rfl
      | none =>
        by_cases hname : name = new
        · simp [hname, hentry]
        · simp [hname, lookup_cons, beq_false_of_ne hname]

theorem SchemaCarries.keys_eq_nil_iff (h : SchemaCarries schema urn fields) :
    schema.keys = [] ↔ fields = fun _ => none := by
  rw [← h.fields, eq_nil_iff_forall_not_mem, funext_iff]
  refine forall_congr' fun name => ?_
  rw [← AList.mem_keys, ← AList.lookup_eq_none, fieldsOf, Option.map_eq_none_iff]

variable (codec ranging rowID) in
/-- **A transform does its part**, and adds nothing to the graph. -/
theorem SchemaCarries.visitNode (h : SchemaCarries walk.schema walk.upstreamAssetURN fields)
    (hsource : node.type ≠ .source) (hsink : node.type ≠ .sink) :
    SchemaCarries (visitNode codec ranging rowID walk node).schema walk.upstreamAssetURN
        (carryFields codec fields node) ∧
      (visitNode codec ranging rowID walk node).build = walk.build ∧
      (visitNode codec ranging rowID walk node).upstreamAssetURN = walk.upstreamAssetURN := by
  rw [Api.visitNode, visitSink, if_neg hsink, visitSource, if_neg hsource]
  by_cases hmap : node.activityType = "transform.map"
  · have hcontract : visitContract codec node walk = walk := by
      rw [visitContract, hmap, if_neg (by decide)]
    rw [hcontract, visitMap, if_pos hmap, carryFields, if_pos hmap, mapMatches]
    cases hexpression : node.config.get "expression" with
    | string expression =>
      have hnext := (h.map (fun origin => { origin with transformNodeID := node.id })
        (fun origin => ⟨rfl, rfl⟩) schemaCarries_empty
        (fieldMatches (expression.length + 1) expression.toList)).congr fun _ => Option.or_none
      have hkeys := hnext.keys_eq_nil_iff.trans lookup_known_eq_none_iff
      unfold renameFields
      dsimp only
      split_ifs with hnil hknown hknown
      · exact ⟨h, rfl, rfl⟩
      · exact absurd (hkeys.mp hnil) hknown
      · exact absurd (hkeys.mpr hknown) hnil
      · exact ⟨hnext, rfl, rfl⟩
    | _ => exact ⟨h, rfl, rfl⟩
  · rw [visitMap, if_neg hmap, carryFields, if_neg hmap, visitContract]
    by_cases hcontract : node.activityType = "transform.contract"
    · rw [if_pos hcontract, contractNames, if_pos hcontract]
      cases lineageContractSchema codec (node.config.get "schemaJson") with
      | some entries =>
        exact ⟨h.contract (fun entry => ⟨walk.upstreamAssetURN, entry.1,
          (contractField codec entry.2).fieldType, (contractField codec entry.2).nullable, node.id⟩)
          (fun entry => ⟨rfl, rfl⟩) entries, rfl, rfl⟩
      | none => exact ⟨h, rfl, rfl⟩
    · rw [if_neg hcontract, contractNames, if_neg hcontract]
      exact ⟨h, rfl, rfl⟩

variable (codec ranging rowID) in
/-- **All transforms behind a source.** -/
theorem SchemaCarries.visitNodes (h : SchemaCarries walk.schema walk.upstreamAssetURN fields)
    {nodes : List Node} (htypes : ∀ node ∈ nodes, node.type ≠ .source ∧ node.type ≠ .sink) :
    SchemaCarries (nodes.foldl (Api.visitNode codec ranging rowID) walk).schema walk.upstreamAssetURN
        (nodes.foldl (carryFields codec) fields) ∧
      (nodes.foldl (Api.visitNode codec ranging rowID) walk).build = walk.build := by
  induction nodes generalizing walk fields with
  | nil => exact ⟨h, rfl⟩
  | cons node nodes ih =>
    obtain ⟨hnode, hnodes⟩ := forall_mem_cons.mp htypes
    obtain ⟨hcarries, hbuild, hupstream⟩ := h.visitNode codec ranging rowID hnode.1 hnode.2
    rw [← hupstream] at hcarries ⊢
    obtain ⟨hall, hrest⟩ := ih hcarries hnodes
    exact ⟨hall, hrest.trans hbuild⟩

/-! ## The links of a sink -/

/-- What a link between fields connects, and for which pipeline. -/
def ColumnLink.key (link : ColumnLink) : String × String × String × String × String :=
  (link.pipelineRowId, link.sourceAssetUrn, link.sourceField, link.targetAssetUrn, link.targetField)

/-- **The fields at a sink** become links. -/
theorem mem_addColumns {nodeID target : String} {build : LineageBuild} (hurn : urn ≠ "")
    (h : SchemaCarries schema urn fields) (key : String × String × String × String × String) :
    key ∈ (addColumns ranging rowID nodeID target schema build).columnEdges.map ColumnLink.key ↔
      key ∈ build.columnEdges.map ColumnLink.key ∨
        ∃ name field, fields name = some field ∧ key = (rowID, urn, field, target, name) := by
  have hloop : ∀ (names : List String) (build : LineageBuild),
      key ∈ (names.foldl (fun build renamed =>
        match schema.lookup renamed with
        | some origin => addColumn rowID nodeID target build renamed origin
        | none => build) build).columnEdges.map ColumnLink.key ↔
      key ∈ build.columnEdges.map ColumnLink.key ∨
        ∃ name ∈ names, ∃ field, fields name = some field ∧ key = (rowID, urn, field, target, name) := by
    intro names
    induction names with
    | nil => simp
    | cons name names ih =>
      intro build
      rw [foldl_cons, ih]
      have hfield : fields name = (schema.lookup name).map FieldOrigin.field := by
        rw [← h.fields, fieldsOf]
      cases hlookup : schema.lookup name with
      | none => simp [hfield, hlookup]
      | some origin =>
        have horigin := h.origins name origin hlookup
        simp [hfield, hlookup, addColumn, horigin, hurn, ColumnLink.key, or_assoc]
  refine (hloop _ _).trans (or_congr_right (exists_congr fun name => ?_))
  rw [(ranging.perm schema.keys).mem_iff, ← AList.mem_keys, ← AList.lookup_isSome]
  constructor
  · exact fun hmem => hmem.2
  · rintro ⟨field, hfield, hkey⟩
    rw [← h.fields, fieldsOf] at hfield
    exact ⟨by rw [← Option.isSome_map, hfield]; rfl, field, by rw [← h.fields, fieldsOf, hfield], hkey⟩

theorem columnEdges_addLink (named : NamedAsset) (link : AssetLink) (build : LineageBuild) :
    (addLink named link build).columnEdges = build.columnEdges := by
  unfold addLink ensureAsset
  dsimp only
  split_ifs <;> rfl

theorem columnEdges_visitSource : (visitSource codec rowID node walk).build.columnEdges =
    walk.build.columnEdges := by
  unfold visitSource
  split_ifs
  · split
    · exact columnEdges_addLink _ _ _
    · rfl
  · rfl

/-- **The links of a chain**: the fields that are carried behind its transforms. -/
theorem mem_columnEdges_chain {source sink : Node} {nodes : List Node} {build : LineageBuild}
    (hsource : source.type = .source ∧ source.activityType = "s3.fetch" ∧ Names source.config)
    (hsink : sink.type = .sink ∧ sink.activityType = "sink.s3" ∧ Names sink.config)
    (htypes : ∀ node ∈ nodes, node.type ≠ .source ∧ node.type ≠ .sink)
    (key : String × String × String × String × String) :
    key ∈ ((source :: (nodes ++ [sink])).foldl (visitNode codec ranging rowID)
        { build }).build.columnEdges.map ColumnLink.key ↔
      key ∈ build.columnEdges.map ColumnLink.key ∨
        ∃ name field, nodes.foldl (carryFields codec) (fun _ => none) name = some field ∧
          key = (rowID, (assetOf codec source.config).urn, field, (assetOf codec sink.config).urn, name) := by
  have hother : ∀ {node : Node} (walk : LineageWalk), node.activityType ≠ "transform.contract" →
      node.activityType ≠ "transform.map" → visitMap node (visitContract codec node walk) = walk := by
    intro node walk hcontract hmap
    rw [visitMap, if_neg hmap, visitContract, if_neg hcontract]
  obtain ⟨hsourceType, hsourceActivity, hsourceNames⟩ := hsource
  obtain ⟨hsinkType, hsinkActivity, hsinkNames⟩ := hsink
  have hread : assetURN codec source.config = some (assetOf codec source.config) :=
    assetURN_of_marked ⟨.inl hsourceType, fun field hfield => (hsourceNames field hfield).2⟩
  have hwritten : assetURN codec sink.config = some (assetOf codec sink.config) :=
    assetURN_of_marked ⟨.inr hsinkType, fun field hfield => (hsinkNames field hfield).2⟩
  have hurn : (assetOf codec source.config).urn ≠ "" := by
    intro h
    simpa [assetOf] using congrArg String.toList h
  have hfirst : visitNode codec ranging rowID { build } source =
      visitSource codec rowID source { build } := by
    rw [visitNode, hother _ (by rw [hsourceActivity]; decide) (by rw [hsourceActivity]; decide),
      visitSink, if_neg (by rw [hsourceType]; decide)]
  have hbegin : SchemaCarries (visitSource codec rowID source { build }).schema
      (visitSource codec rowID source { build }).upstreamAssetURN fun _ => none := by
    rw [visitSource, if_pos hsourceType, hread]
    exact schemaCarries_empty
  obtain ⟨hcarries, hbuild⟩ := hbegin.visitNodes codec ranging rowID htypes
  have hupstream : (visitSource codec rowID source { build }).upstreamAssetURN =
      (assetOf codec source.config).urn := by
    rw [visitSource, if_pos hsourceType, hread]
  rw [foldl_cons, foldl_append, foldl_cons, foldl_nil, hfirst, visitNode,
    visitSource, if_neg (by rw [hsinkType]; decide),
    hother _ (by rw [hsinkActivity]; decide) (by rw [hsinkActivity]; decide), visitSink, if_pos hsinkType,
    hwritten]
  rw [mem_addColumns hurn (hupstream ▸ hcarries), columnEdges_addLink, hbuild,
    columnEdges_visitSource]

end walk

end Dataflow.Api
