import Dataflow.Connectors.MergeArrays

/-!
# The transform that renames fields

`transform.rename` writes the value of each old name under its new name. It removes nothing, and
writes the value of a name that the row does not have as null.

* `renameRow`, `renameHandler`: the code; `RangeFields` is the order in which Go visits the
  mapping.
* `lookup_renameRow`: what a row has then, in whatever order the mapping is visited.
* `renamedField`: what simultaneous renaming gives; `Renames`: the handler does that for every
  row.
* **`renameHandler_renames_iff`**: it does so iff every old name that a row has is a new name as
  well, and every old name that it lacks has a new name under which it has null.
* `old_name_stays`: a row that has both names then.

Source: `transforms.go`
-/

namespace Dataflow.Connectors

open Activities Library Model List

/-! ## The code -/

section code

variable (formatting : Formatting) (unmarshalObject : String → Except String JsonMap)

/-- `cfg["mapping"]`: a map, or a text that holds one. -/
def renameMapping (cfg : JsonMap) : Except String JsonMap :=
  match cfg.get "mapping" with
  | .string text =>
    match unmarshalObject text with
    | .ok mapping => .ok mapping
    | .error _ => .error "transform.rename: mapping must be a JSON object"
  | .object mapping => .ok mapping
  | _ => .error "transform.rename: mapping must be a JSON object"

/-- The new name of an entry of the mapping. -/
def newName (entry : String × Json) : String := stringValue formatting entry.2

/-- The body of the loop over the mapping: a field is read from the row and written to its copy. -/
def renameField (row copy : JsonMap) (entry : String × Json) : JsonMap :=
  copy.set (newName formatting entry) (row.get entry.1)

/-- The loop over the mapping. -/
def renameRow (visited row : JsonMap) : JsonMap := visited.foldl (renameField formatting row) row

/-- The loop over the rows, from a number on. -/
def renameRows (ranging : RangeFields) (mapping : JsonMap) :
    ℕ → List Json → Except String (List Json)
  | _, [] => .ok []
  | i, raw :: rows => do
      let row ← asRow raw
      let out ← renameRows ranging mapping (i + 1) rows
      return .object (renameRow formatting (ranging.order i mapping) row) :: out

/-- Source: `transforms.go` `renameHandler`. -/
def renameHandler (ranging : RangeFields) (input : Json) (cfg : JsonMap) :
    Except String (List Json) :=
  match input with
  | .array rows =>
    (renameMapping unmarshalObject cfg).bind fun mapping => renameRows formatting ranging mapping 0 rows
  | _ => .error "input must be an array"

end code

/-! ## What renaming is -/

section rename

variable (formatting : Formatting) (unmarshalObject : String → Except String JsonMap)

/-- The entries of the mapping that give a field of a row. -/
def sourcesOf (mapping row : JsonMap) (field : String) : JsonMap :=
  mapping.filter fun entry => newName formatting entry = field ∧ entry.1 ∈ row.keys

/-- **Simultaneous renaming**: a field has the value of the old name that moves there; otherwise an
old name is gone, and any other field is kept. -/
def renamedField (mapping row : JsonMap) (field : String) : Option Json :=
  match sourcesOf formatting mapping row field with
  | entry :: _ => row.lookup entry.1
  | [] => if field ∈ mapping.keys then none else row.lookup field

/-- **The handler renames**, in whatever order Go visits the mapping. -/
def Renames (mapping : JsonMap) (rows : List JsonMap) (cfg : JsonMap) : Prop :=
  ∀ ranging, ∃ outs : List JsonMap,
    renameHandler formatting unmarshalObject ranging (.array (rows.map .object)) cfg =
      .ok (outs.map .object) ∧
    Forall₂ (fun row out => ∀ field, out.lookup field = renamedField formatting mapping row field)
      rows outs

/-- A row that is renamed by writing alone. -/
def RenamedByWriting (mapping row : JsonMap) : Prop :=
  ∀ entry ∈ mapping, (entry.1 ∈ row.keys → ∃ other ∈ mapping, newName formatting other = entry.1) ∧
    (entry.1 ∉ row.keys → newName formatting entry ∉ mapping.keys ∧
      row.lookup (newName formatting entry) = some .null)

instance (mapping row : JsonMap) : Decidable (RenamedByWriting formatting mapping row) :=
  inferInstanceAs (Decidable (∀ entry ∈ mapping, _))

end rename

/-! ## One row -/

section row

variable {formatting : Formatting} {mapping visited row copy : JsonMap} {entry : String × Json}
  {field : String}

/-- A field that is no new name. -/
theorem lookup_foldl_of_not_mem (h : field ∉ visited.map (newName formatting)) :
    (visited.foldl (renameField formatting row) copy).lookup field = copy.lookup field := by
  induction visited generalizing copy with
  | nil => rfl
  | cons first visited ih =>
    rw [map_cons, mem_cons, not_or] at h
    rw [foldl_cons, ih h.2, renameField, JsonMap.lookup_set, if_neg h.1]

/-- **A new name has the value of its old name**, if no other old name moves there. -/
theorem lookup_foldl_of_mem (h : (visited.map (newName formatting)).Nodup)
    (hentry : entry ∈ visited) :
    (visited.foldl (renameField formatting row) copy).lookup (newName formatting entry) =
      some (row.get entry.1) := by
  induction visited generalizing copy with
  | nil => exact absurd hentry not_mem_nil
  | cons first visited ih =>
    rw [map_cons, nodup_cons] at h
    rw [foldl_cons]
    rcases mem_cons.mp hentry with rfl | hentry
    · rw [lookup_foldl_of_not_mem h.1, renameField, JsonMap.lookup_set, if_pos rfl]
    · exact ih h.2 hentry

/-- **What a row has**, in whatever order the mapping is visited. -/
theorem lookup_renameRow (hnames : (mapping.map (newName formatting)).Nodup)
    (hvisited : visited.Perm mapping) (field : String) :
    (renameRow formatting visited row).lookup field =
      match mapping.find? fun entry => newName formatting entry = field with
      | some entry => some (row.get entry.1)
      | none => row.lookup field := by
  cases hfind : mapping.find? fun entry => newName formatting entry = field with
  | some entry =>
    obtain rfl : newName formatting entry = field := by simpa using find?_some hfind
    have hnodup : (visited.map (newName formatting)).Nodup :=
      (hvisited.map (newName formatting)).nodup_iff.mpr hnames
    exact lookup_foldl_of_mem hnodup (hvisited.mem_iff.mpr (mem_of_find?_eq_some hfind))
  | none =>
    refine lookup_foldl_of_not_mem fun hmem => ?_
    obtain ⟨entry, hentry, hname⟩ := mem_map.mp hmem
    have := find?_eq_none.mp hfind entry (hvisited.mem_iff.mp hentry)
    simp [hname] at this

theorem lookup_eq_some_get (h : field ∈ row.keys) : row.lookup field = some (row.get field) := by
  cases hlookup : row.lookup field with
  | none => exact absurd h (JsonMap.lookup_eq_none.mp hlookup)
  | some value => rw [JsonMap.get, hlookup, Option.getD_some]

theorem get_eq_null (h : field ∉ row.keys) : row.get field = .null := by
  rw [JsonMap.get, JsonMap.lookup_eq_none.mpr h, Option.getD_none]

/-- A field that an old name moves to. -/
theorem renamedField_of_mem (hnames : (mapping.map (newName formatting)).Nodup)
    (hentry : entry ∈ mapping) (hpresent : entry.1 ∈ row.keys) :
    renamedField formatting mapping row (newName formatting entry) = some (row.get entry.1) := by
  unfold renamedField
  have hmem : entry ∈ sourcesOf formatting mapping row (newName formatting entry) := by
    simp [sourcesOf, hentry, hpresent]
  cases hsources : sourcesOf formatting mapping row (newName formatting entry) with
  | nil => simp [hsources] at hmem
  | cons first rest =>
    have hfirst : first ∈ sourcesOf formatting mapping row (newName formatting entry) := by
      simp [hsources]
    simp only [sourcesOf, mem_filter, decide_eq_true_eq] at hfirst
    obtain rfl := inj_on_of_nodup_map hnames hfirst.1 hentry hfirst.2.1
    exact lookup_eq_some_get hpresent

/-- A field that no old name of the row moves to. -/
theorem renamedField_of_not_mem
    (h : ∀ entry ∈ mapping, newName formatting entry = field → entry.1 ∉ row.keys) :
    renamedField formatting mapping row field =
      if field ∈ mapping.keys then none else row.lookup field := by
  have hnil : sourcesOf formatting mapping row field = [] := by
    rw [sourcesOf, filter_eq_nil_iff]
    intro entry hentry
    simpa using h entry hentry
  rw [renamedField, hnil]

/-- **A row is renamed** iff every old name that it has is a new name, and it has null under the new
names of those that it lacks, which are no old names. -/
theorem renameRow_renames_iff (hnames : (mapping.map (newName formatting)).Nodup)
    (hvisited : visited.Perm mapping) :
    (∀ field, (renameRow formatting visited row).lookup field =
      renamedField formatting mapping row field) ↔
      RenamedByWriting formatting mapping row := by
  constructor
  · intro h entry hentry
    constructor
    · intro hpresent
      by_contra hnone
      push Not at hnone
      have hold : entry.1 ∈ mapping.keys := mem_map_of_mem hentry
      have hfield := h entry.1
      rw [renamedField_of_not_mem fun other hother heq => absurd heq (hnone other hother),
        if_pos hold, lookup_renameRow hnames hvisited,
        find?_eq_none.mpr (by simpa using hnone)] at hfield
      exact JsonMap.lookup_eq_none.mp hfield hpresent
    · intro habsent
      have hfield := h (newName formatting entry)
      have honly : ∀ other ∈ mapping, newName formatting other = newName formatting entry →
          other.1 ∉ row.keys := by
        intro other hother heq
        rw [inj_on_of_nodup_map hnames hother hentry heq]
        exact habsent
      rw [renamedField_of_not_mem honly, renameRow, lookup_foldl_of_mem
        ((hvisited.map (newName formatting)).nodup_iff.mpr hnames) (hvisited.mem_iff.mpr hentry),
        get_eq_null habsent] at hfield
      split_ifs at hfield with hold
      exact ⟨hold, hfield.symm⟩
  · intro h field
    rw [lookup_renameRow hnames hvisited]
    cases hfind : mapping.find? fun entry => newName formatting entry = field with
    | some entry =>
      obtain rfl : newName formatting entry = field := by simpa using find?_some hfind
      have hentry := mem_of_find?_eq_some hfind
      by_cases hpresent : entry.1 ∈ row.keys
      · exact (renamedField_of_mem hnames hentry hpresent).symm
      · obtain ⟨hold, hnull⟩ := (h entry hentry).2 hpresent
        have honly : ∀ other ∈ mapping, newName formatting other = newName formatting entry →
            other.1 ∉ row.keys := by
          intro other hother heq
          rw [inj_on_of_nodup_map hnames hother hentry heq]
          exact hpresent
        dsimp only
        rw [renamedField_of_not_mem honly, if_neg hold, hnull, get_eq_null hpresent]
    | none =>
      have hnone : ∀ entry ∈ mapping, newName formatting entry ≠ field := by
        simpa using find?_eq_none.mp hfind
      rw [renamedField_of_not_mem fun entry hentry heq => absurd heq (hnone entry hentry)]
      split_ifs with hold
      · obtain ⟨entry, hentry, rfl⟩ := mem_map.mp hold
        refine JsonMap.lookup_eq_none.mpr fun hpresent => ?_
        obtain ⟨other, hother, heq⟩ := (h entry hentry).1 hpresent
        exact hnone other hother heq
      · rfl

end row

/-! ## All rows -/

section rows

variable {formatting : Formatting} {unmarshalObject : String → Except String JsonMap}
  {mapping cfg : JsonMap} {rows : List JsonMap}

/-- The loop over rows that are maps. -/
theorem renameRows_objects (ranging : RangeFields) (i : ℕ) :
    renameRows formatting ranging mapping i (rows.map .object) = .ok ((rows.zipIdx i).map fun row =>
        .object (renameRow formatting (ranging.order row.2 mapping) row.1)) := by
  induction rows generalizing i with
  | nil => rfl
  | cons row rows ih =>
    rw [map_cons, renameRows, ih]
    rfl

theorem forall₂_zipIdx_map {R : JsonMap → JsonMap → Prop} (f : ℕ → JsonMap → JsonMap) (i : ℕ) :
    Forall₂ R rows ((rows.zipIdx i).map fun row => f row.2 row.1) ↔
      ∀ row ∈ rows.zipIdx i, R row.1 (f row.2 row.1) := by
  induction rows generalizing i with
  | nil => simp
  | cons row rows ih => simp [zipIdx_cons, ih]

/-- **Fields are renamed iff each row is renamed by writing alone.** -/
theorem renameHandler_renames_iff (formatting : Formatting)
    (unmarshalObject : String → Except String JsonMap) (mapping cfg : JsonMap) (rows : List JsonMap)
    (hmapping : renameMapping unmarshalObject cfg = .ok mapping)
    (hnames : (mapping.map (newName formatting)).Nodup) :
    Renames formatting unmarshalObject mapping rows cfg ↔
      ∀ row ∈ rows, RenamedByWriting formatting mapping row := by
  have hhandler : ∀ ranging, renameHandler formatting unmarshalObject ranging
      (.array (rows.map .object)) cfg = .ok (((rows.zipIdx 0).map fun row =>
        renameRow formatting (ranging.order row.2 mapping) row.1).map .object) := by
    intro ranging
    rw [renameHandler, hmapping, map_map]
    exact renameRows_objects ranging 0
  have hrows : ∀ ranging : RangeFields,
      Forall₂ (fun row out => ∀ field, out.lookup field = renamedField formatting mapping row field)
        rows ((rows.zipIdx 0).map fun row => renameRow formatting (ranging.order row.2 mapping) row.1) ↔
          ∀ row ∈ rows, RenamedByWriting formatting mapping row := by
    intro ranging
    rw [forall₂_zipIdx_map fun i row => renameRow formatting (ranging.order i mapping) row]
    constructor
    · intro h row hrow
      obtain ⟨i, hi, rfl⟩ := getElem_of_mem hrow
      have hmem : (rows[i], i) ∈ rows.zipIdx 0 := by
        rw [mem_zipIdx_iff_getElem?]
        exact getElem?_eq_getElem hi
      exact (renameRow_renames_iff hnames (ranging.perm i mapping)).mp (h _ hmem)
    · intro h row hrow
      exact (renameRow_renames_iff hnames (ranging.perm row.2 mapping)).mpr
        (h row.1 (fst_mem_of_mem_zipIdx hrow))
  constructor
  · intro h
    obtain ⟨outs, houts, hall⟩ := h plainFields
    rw [hhandler] at houts
    have hmaps :=
      map_injective_iff.mpr (fun _ _ heq => Json.object.inj heq) (Except.ok.inj houts)
    rw [← hmaps] at hall
    exact (hrows plainFields).mp hall
  · intro h ranging
    exact ⟨_, hhandler ranging, (hrows ranging).mpr h⟩

/-- The theorem at two names that are swapped. -/
theorem renameHandler_renames_iff_swap :
    Renames textRendering.toFormatting (fun _ => .ok []) [("a", .string "b"), ("b", .string "a")]
      [[("a", .string "1"), ("b", .string "2")]]
      [("mapping", .object [("a", .string "b"), ("b", .string "a")])] :=
  (renameHandler_renames_iff _ _ _ _ _ rfl (by decide)).mpr (by decide)

/-- **The old name stays**: a row has the value under both names. -/
theorem old_name_stays : ¬ Renames textRendering.toFormatting (fun _ => .ok [])
    [("customer", .string "customer_name")] [[("customer", .string "Bob")]]
    [("mapping", .object [("customer", .string "customer_name")])] := by
  intro h
  obtain ⟨outs, houts, hall⟩ := h plainFields
  have heq : outs.map Json.object =
      [Json.object [("customer", .string "Bob"), ("customer_name", .string "Bob")]] :=
    (Except.ok.inj houts).symm
  cases hall with
  | @cons row out rows outs hfield hall =>
    obtain rfl : out = [("customer", .string "Bob"), ("customer_name", .string "Bob")] :=
      Json.object.inj (cons.inj heq).1
    have hstays := hfield "customer"
    revert hstays
    decide

end rows

end Dataflow.Connectors
