import Dataflow.Connectors.MergeArrays
import Dataflow.Model.GoMaps

/-!
# The transform that flattens rows

`transform.flatten` writes each leaf of a row under the keys and indices that lead to it, joined by
a delimiter. Leaves are the values at which the depth and the array policy stop.

* `flattenValue`, `flattenHandler`: the code.
* `leavesOf`: the leaves of a map with their paths; `pathName`: the joined text of a path.
* `flattenValue_eq_writeAll`: flattening writes every leaf under the name of its path.
* `leavesOf_perm`: the leaves do not depend on the order of the fields of any map.
* `Flattens`: one entry for each leaf, and the same row in whatever order Go visits the maps.
* **`flattenValue_flattens_iff`**: this holds iff no two leaves have paths of one joined text.
* `dotted_key_is_path`: a key with the delimiter in it is taken for a path.

Source: `transforms.go`
-/

namespace Dataflow.Connectors

open Activities Library Model List

/-! ## The code -/

section code

variable (numbers : NumberTexts) (delimiter : String) (maxDepth : ℤ) (arrayPolicy : String)

/-- The name of a field below another one; `prefix` is empty at the top. -/
def fieldName (before key : String) : String :=
  if before ≠ "" then before ++ delimiter ++ key else key

/-- `indexed`: the name of an element of an array. -/
def indexedName (before : String) (i : ℕ) : String := before ++ delimiter ++ i.repr

mutual

/-- Source: `transforms.go` `flattenValue`, which visits the fields in the order in which they are
listed. -/
def flattenValue (before : String) (depth : ℕ) (out : JsonMap) : JsonMap → JsonMap
  | [] => out
  | (key, item) :: value =>
    flattenValue before depth (flattenItem (fieldName delimiter before key) depth out item) value
termination_by structural value => value

/-- The switch over a value. -/
def flattenItem (name : String) (depth : ℕ) (out : JsonMap) : Json → JsonMap
  | .object item =>
    if maxDepth ≤ depth then out.set name (.object item) else flattenValue name (depth + 1) out item
  | .array item =>
    if arrayPolicy = "stringify" then out.set name (.string (marshal numbers (.array item)))
    else if arrayPolicy = "keep" ∨ maxDepth ≤ depth then out.set name (.array item)
    else flattenItems name depth 0 out item
  | .null => out.set name .null
  | .bool item => out.set name (.bool item)
  | .number item => out.set name (.number item)
  | .string item => out.set name (.string item)
termination_by structural value => value

/-- The loop over the elements of an array, from a number on. -/
def flattenItems (name : String) (depth i : ℕ) (out : JsonMap) : List Json → JsonMap
  | [] => out
  | element :: items =>
    flattenItems name depth (i + 1) (flattenElement (indexedName delimiter name i) depth out element) items
termination_by structural value => value

/-- An element of an array: a map is flattened, anything else is kept. -/
def flattenElement (indexed : String) (depth : ℕ) (out : JsonMap) : Json → JsonMap
  | .object child => flattenValue indexed (depth + 1) out child
  | .array element => out.set indexed (.array element)
  | .null => out.set indexed .null
  | .bool element => out.set indexed (.bool element)
  | .number element => out.set indexed (.number element)
  | .string element => out.set indexed (.string element)
termination_by structural value => value

end

end code

/-- Source: `transforms.go` `flattenHandler`. -/
def flattenHandler (numbers : NumberTexts) (conversions : Conversions) (input : Json)
    (cfg : JsonMap) :
    Except String (List Json) :=
  match input with
  | .array rows =>
    let given := stringValue conversions.toFormatting (cfg.get "delimiter")
    let delimiter := if given = "" then "." else given
    let max := truncate (number conversions (cfg.get "maxDepth"))
    let policy := stringValue conversions.toFormatting (cfg.get "arrayPolicy")
    rows.mapM fun raw => do
      let row ← asRow raw
      return .object (flattenValue numbers delimiter (if max = 0 then 10 else max)
        (if policy = "" then "index" else policy) "" 0 [] row)
  | _ => .error "input must be an array"

/-! ## Leaves -/

/-- A step of a path: a key of a map, or an index of an array. -/
inductive Part where
  | key (text : String)
  | index (i : ℕ)
deriving DecidableEq, Repr

/-- A leaf with its path. -/
abbrev Leaf := List Part × Json

/-- A leaf one step further down. -/
def under (part : Part) (leaf : Leaf) : Leaf := (part :: leaf.1, leaf.2)

section leaves

variable (numbers : NumberTexts) (maxDepth : ℤ) (arrayPolicy : String)

mutual

/-- **The leaves of a map**, with their paths. -/
def leavesOf (depth : ℕ) : JsonMap → List Leaf
  | [] => []
  | (key, item) :: value => (leavesOfItem depth item).map (under (.key key)) ++ leavesOf depth value

/-- The leaves of a value; an array that is written as text is a leaf. -/
def leavesOfItem (depth : ℕ) : Json → List Leaf
  | .object item => if maxDepth ≤ depth then [([], .object item)] else leavesOf (depth + 1) item
  | .array item =>
    if arrayPolicy = "stringify" then [([], .string (marshal numbers (.array item)))]
    else if arrayPolicy = "keep" ∨ maxDepth ≤ depth then [([], .array item)]
    else leavesOfItems depth 0 item
  | .null => [([], .null)]
  | .bool item => [([], .bool item)]
  | .number item => [([], .number item)]
  | .string item => [([], .string item)]

/-- The leaves of the elements of an array, from a number on. -/
def leavesOfItems (depth i : ℕ) : List Json → List Leaf
  | [] => []
  | element :: items =>
    (leavesOfElement depth element).map (under (.index i)) ++ leavesOfItems depth (i + 1) items

/-- The leaves of an element of an array. -/
def leavesOfElement (depth : ℕ) : Json → List Leaf
  | .object child => leavesOf (depth + 1) child
  | .array element => [([], .array element)]
  | .null => [([], .null)]
  | .bool element => [([], .bool element)]
  | .number element => [([], .number element)]
  | .string element => [([], .string element)]

end

end leaves

/-- The text of a path with one more step. -/
def joinPart (delimiter before : String) : Part → String
  | .key text => fieldName delimiter before text
  | .index i => indexedName delimiter before i

/-- The joined text of a path below a name. -/
def pathName (delimiter before : String) (path : List Part) : String :=
  path.foldl (joinPart delimiter) before

/-- The field of a leaf: its value under the joined text of its path. -/
def leafField (delimiter before : String) (leaf : Leaf) : String × Json :=
  (pathName delimiter before leaf.1, leaf.2)

/-! ## What flattening is -/

section flattens

variable (numbers : NumberTexts) (delimiter : String) (maxDepth : ℤ) (arrayPolicy : String)

/-- **Flattening is exact**: the row has every leaf under its path and nothing else, one entry for
each, and is the same for every order of the fields of every map. -/
def Flattens (fields : JsonMap) : Prop :=
  let flatten := flattenValue numbers delimiter maxDepth arrayPolicy "" 0 []
  let leaves := leavesOf numbers maxDepth arrayPolicy 0 fields
  (∀ leaf ∈ leaves, (flatten fields).lookup (pathName delimiter "" leaf.1) = some leaf.2) ∧
  (flatten fields).length = leaves.length ∧
  ∀ listed : JsonMap, (Json.object listed).DistinctKeys →
    (Json.object listed).normalize = (Json.object fields).normalize →
    (Json.object (flatten listed)).normalize = (Json.object (flatten fields)).normalize

/-- **No two leaves have paths of one joined text.** -/
def PathsApart (fields : JsonMap) : Prop :=
  (leavesOf numbers maxDepth arrayPolicy 0 fields).Pairwise fun leaf other =>
    pathName delimiter "" leaf.1 ≠ pathName delimiter "" other.1

instance (fields : JsonMap) :
    Decidable (PathsApart numbers delimiter maxDepth arrayPolicy fields) :=
  inferInstanceAs (Decidable (List.Pairwise _ _))

end flattens

/-! ## Flattening writes the leaves -/

section write

variable {numbers : NumberTexts} {delimiter : String} {maxDepth : ℤ} {arrayPolicy : String}

theorem writeAll_append (m entries more : JsonMap) :
    m.writeAll (entries ++ more) = (m.writeAll entries).writeAll more := foldl_append

/-- The leaves below one step. -/
theorem map_leafField_under (before : String) (part : Part) (leaves : List Leaf) :
    (leaves.map (under part)).map (leafField delimiter before) =
      leaves.map (leafField delimiter (joinPart delimiter before part)) := by
  rw [map_map]
  rfl

mutual

/-- **Flattening writes every leaf** under the joined text of its path. -/
theorem flattenValue_eq_writeAll (before : String) (depth : ℕ) (out fields : JsonMap) :
    flattenValue numbers delimiter maxDepth arrayPolicy before depth out fields = out.writeAll
        ((leavesOf numbers maxDepth arrayPolicy depth fields).map (leafField delimiter before)) := by
  match fields with
  | [] => rfl
  | (key, item) :: fields =>
    rw [flattenValue, leavesOf, map_append, map_leafField_under, writeAll_append,
      flattenValue_eq_writeAll before depth _ fields, flattenItem_eq_writeAll _ depth out item]
    rfl
termination_by structural fields

theorem flattenItem_eq_writeAll (name : String) (depth : ℕ) (out : JsonMap) (item : Json) :
    flattenItem numbers delimiter maxDepth arrayPolicy name depth out item = out.writeAll
        ((leavesOfItem numbers maxDepth arrayPolicy depth item).map (leafField delimiter name)) := by
  match item with
  | .null | .bool _ | .number _ | .string _ => rfl
  | .object fields =>
    rw [flattenItem, leavesOfItem]
    split_ifs with hdepth
    · rfl
    · exact flattenValue_eq_writeAll name (depth + 1) out fields
  | .array items =>
    rw [flattenItem, leavesOfItem]
    split_ifs with htext hkeep
    · rfl
    · rfl
    · exact flattenItems_eq_writeAll name depth 0 out items
termination_by structural item

theorem flattenItems_eq_writeAll (name : String) (depth i : ℕ) (out : JsonMap) (items : List Json) :
    flattenItems numbers delimiter maxDepth arrayPolicy name depth i out items = out.writeAll
        ((leavesOfItems numbers maxDepth arrayPolicy depth i items).map (leafField delimiter name)) := by
  match items with
  | [] => rfl
  | element :: items =>
    rw [flattenItems, leavesOfItems, map_append, map_leafField_under, writeAll_append,
      flattenItems_eq_writeAll name depth (i + 1) _ items, flattenElement_eq_writeAll _ depth out element]
    rfl
termination_by structural items

theorem flattenElement_eq_writeAll (indexed : String) (depth : ℕ) (out : JsonMap) (element : Json) :
    flattenElement numbers delimiter maxDepth arrayPolicy indexed depth out element = out.writeAll
        ((leavesOfElement numbers maxDepth arrayPolicy depth element).map (leafField delimiter indexed)) := by
  match element with
  | .null | .bool _ | .number _ | .string _ | .array _ => rfl
  | .object child =>
    rw [flattenElement, leavesOfElement]
    exact flattenValue_eq_writeAll indexed (depth + 1) out child
termination_by structural element

end

end write

/-! ## Leaves and the order of fields -/

section order

variable {numbers : NumberTexts} {maxDepth : ℤ} {arrayPolicy : String}

/-- A leaf with the normal form of its value. -/
def normalLeaf (leaf : Leaf) : Leaf := (leaf.1, leaf.2.normalize)

theorem map_normalLeaf_under (part : Part) (leaves : List Leaf) :
    (leaves.map (under part)).map normalLeaf = (leaves.map normalLeaf).map (under part) := by
  rw [map_map, map_map]
  rfl

theorem leavesOf_eq_flatMap (depth : ℕ) (fields : JsonMap) :
    leavesOf numbers maxDepth arrayPolicy depth fields = fields.flatMap fun entry =>
        (leavesOfItem numbers maxDepth arrayPolicy depth entry.2).map (under (.key entry.1)) := by
  induction fields with
  | nil => rfl
  | cons entry fields ih => rw [leavesOf, ih, flatMap_cons]

/-- The leaves of a map and of its normal form, if those of its fields are the same. -/
theorem leavesOf_normalizeFields_perm {depth : ℕ} {fields : JsonMap} (hkeys : fields.keys.Nodup)
    (h : ((leavesOf numbers maxDepth arrayPolicy depth (fields.map normalField)).map normalLeaf).Perm
      ((leavesOf numbers maxDepth arrayPolicy depth fields).map normalLeaf)) :
    ((leavesOf numbers maxDepth arrayPolicy depth (Json.normalizeFields fields)).map normalLeaf).Perm
      ((leavesOf numbers maxDepth arrayPolicy depth fields).map normalLeaf) := by
  refine List.Perm.trans (List.Perm.map _ ?_) h
  rw [leavesOf_eq_flatMap, leavesOf_eq_flatMap]
  exact (normalizeFields_perm hkeys).flatMap_right _

mutual

/-- **The leaves of a map** do not depend on the order of its fields. -/
theorem leavesOf_perm {fields : JsonMap} (depth : ℕ) (h : Json.DistinctFields fields) :
    ((leavesOf numbers maxDepth arrayPolicy depth (fields.map normalField)).map normalLeaf).Perm
      ((leavesOf numbers maxDepth arrayPolicy depth fields).map normalLeaf) := by
  match fields with
  | [] => exact List.Perm.refl _
  | (key, item) :: fields =>
    rw [map_cons, normalField, leavesOf, leavesOf, map_append, map_append,
      map_normalLeaf_under, map_normalLeaf_under]
    exact ((leavesOfItem_perm depth h.1).map _).append (leavesOf_perm depth h.2)
termination_by structural fields

theorem leavesOfItem_perm {item : Json} (depth : ℕ) (h : item.DistinctKeys) :
    ((leavesOfItem numbers maxDepth arrayPolicy depth item.normalize).map normalLeaf).Perm
      ((leavesOfItem numbers maxDepth arrayPolicy depth item).map normalLeaf) := by
  match item with
  | .null | .bool _ | .number _ | .string _ => exact List.Perm.refl _
  | .object fields =>
    rw [Json.normalize, leavesOfItem, leavesOfItem]
    split_ifs with hdepth
    · rw [map_singleton, map_singleton, normalLeaf, normalLeaf]
      have hnormal := normalize_normalize (.object fields)
      rw [show (Json.object fields).normalize = .object (Json.normalizeFields fields) from rfl] at hnormal
      rw [hnormal]
      exact List.Perm.refl _
    · exact leavesOf_normalizeFields_perm h.1 (leavesOf_perm (depth + 1) h.2)
  | .array items =>
    have hnormal := normalize_normalize (.array items)
    rw [show (Json.array items).normalize = .array (Json.normalizeItems items) from rfl] at hnormal
    rw [Json.normalize, leavesOfItem, leavesOfItem]
    split_ifs with htext hkeep
    · have hmarshal : marshal numbers (.array (Json.normalizeItems items)) =
          marshal numbers (.array items) :=
        marshal_eq_iff.mpr (normalize_normalize (.array items))
      rw [hmarshal]
    · rw [map_singleton, map_singleton, normalLeaf, normalLeaf, hnormal]
      exact List.Perm.refl _
    · exact leavesOfItems_perm depth 0 h
termination_by structural item

theorem leavesOfItems_perm {items : List Json} (depth i : ℕ) (h : Json.DistinctItems items) :
    ((leavesOfItems numbers maxDepth arrayPolicy depth i (Json.normalizeItems items)).map normalLeaf).Perm
      ((leavesOfItems numbers maxDepth arrayPolicy depth i items).map normalLeaf) := by
  match items with
  | [] => exact List.Perm.refl _
  | element :: items =>
    rw [Json.normalizeItems, leavesOfItems, leavesOfItems, map_append, map_append,
      map_normalLeaf_under, map_normalLeaf_under]
    exact ((leavesOfElement_perm depth h.1).map _).append (leavesOfItems_perm depth (i + 1) h.2)
termination_by structural items

theorem leavesOfElement_perm {element : Json} (depth : ℕ) (h : element.DistinctKeys) :
    ((leavesOfElement numbers maxDepth arrayPolicy depth element.normalize).map normalLeaf).Perm
      ((leavesOfElement numbers maxDepth arrayPolicy depth element).map normalLeaf) := by
  match element with
  | .null | .bool _ | .number _ | .string _ => exact List.Perm.refl _
  | .array items =>
    have hnormal := normalize_normalize (.array items)
    rw [show (Json.array items).normalize = .array (Json.normalizeItems items) from rfl] at hnormal
    rw [Json.normalize, leavesOfElement, leavesOfElement, map_singleton, map_singleton,
      normalLeaf, normalLeaf, hnormal]
    exact List.Perm.refl _
  | .object child => exact leavesOf_normalizeFields_perm h.1 (leavesOf_perm (depth + 1) h.2)
termination_by structural element

end

/-- Two lists of the fields of one map have the same leaves. -/
theorem leavesOf_perm_of_normalize_eq {fields listed : JsonMap}
    (h : (Json.object fields).DistinctKeys) (h' : (Json.object listed).DistinctKeys)
    (heq : (Json.object listed).normalize = (Json.object fields).normalize) :
    ((leavesOf numbers maxDepth arrayPolicy 0 listed).map normalLeaf).Perm
      ((leavesOf numbers maxDepth arrayPolicy 0 fields).map normalLeaf) := by
  have hnormal : ∀ {m : JsonMap}, (Json.object m).DistinctKeys →
      ((leavesOf numbers maxDepth arrayPolicy 0 (Json.normalizeFields m)).map normalLeaf).Perm
        ((leavesOf numbers maxDepth arrayPolicy 0 m).map normalLeaf) :=
    fun hm => leavesOf_normalizeFields_perm hm.1 (leavesOf_perm 0 hm.2)
  have hfields : Json.normalizeFields listed = Json.normalizeFields fields := Json.object.inj heq
  refine (hnormal h').symm.trans ?_
  rw [hfields]
  exact hnormal h

end order

/-! ## When flattening is exact -/

section exact

variable {numbers : NumberTexts} {delimiter : String} {maxDepth : ℤ} {arrayPolicy : String}

/-- The fields of the leaves of a map. -/
def leafFields (numbers : NumberTexts) (delimiter : String) (maxDepth : ℤ) (arrayPolicy : String)
    (fields : JsonMap) : JsonMap :=
  (leavesOf numbers maxDepth arrayPolicy 0 fields).map (leafField delimiter "")

theorem pathsApart_iff {fields : JsonMap} :
    PathsApart numbers delimiter maxDepth arrayPolicy fields ↔
      (leafFields numbers delimiter maxDepth arrayPolicy fields).keys.Nodup := by
  rw [leafFields, JsonMap.keys, map_map, List.Nodup, pairwise_map]
  rfl

/-- The fields of the leaves of two lists of the fields of one map. -/
theorem leafFields_perm {fields listed : JsonMap} (h : (Json.object fields).DistinctKeys)
    (h' : (Json.object listed).DistinctKeys)
    (heq : (Json.object listed).normalize = (Json.object fields).normalize) :
    ((leafFields numbers delimiter maxDepth arrayPolicy listed).map normalField).Perm
      ((leafFields numbers delimiter maxDepth arrayPolicy fields).map normalField) := by
  have hcomm : ∀ leaves : List Leaf, (leaves.map (leafField delimiter "")).map normalField =
      (leaves.map normalLeaf).map (leafField delimiter "") := by
    intro leaves
    rw [map_map, map_map]
    rfl
  rw [leafFields, leafFields, hcomm, hcomm]
  exact (leavesOf_perm_of_normalize_eq h h' heq).map _

/-- **Flattening is exact** iff no two leaves have paths of one joined text.
Source: `transforms.go` `flattenValue`, as `flattenHandler` calls it for a row -/
theorem flattenValue_flattens_iff (numbers : NumberTexts) (delimiter : String) (maxDepth : ℤ)
    (arrayPolicy : String) (fields : JsonMap) (h : (Json.object fields).DistinctKeys) :
    Flattens numbers delimiter maxDepth arrayPolicy fields ↔
      PathsApart numbers delimiter maxDepth arrayPolicy fields := by
  rw [pathsApart_iff]
  have hwrite :
      ∀ listed : JsonMap, flattenValue numbers delimiter maxDepth arrayPolicy "" 0 [] listed =
      JsonMap.writeAll [] (leafFields numbers delimiter maxDepth arrayPolicy listed) :=
    fun listed => flattenValue_eq_writeAll "" 0 [] listed
  have hlength : (leafFields numbers delimiter maxDepth arrayPolicy fields).length =
      (leavesOf numbers maxDepth arrayPolicy 0 fields).length := length_map _
  constructor
  · rintro ⟨-, hall, -⟩
    rw [hwrite, ← hlength] at hall
    exact JsonMap.length_writeAll_iff.mp hall
  · intro hapart
    have hout : ∀ listed : JsonMap,
        (leafFields numbers delimiter maxDepth arrayPolicy listed).keys.Nodup →
        flattenValue numbers delimiter maxDepth arrayPolicy "" 0 [] listed =
          leafFields numbers delimiter maxDepth arrayPolicy listed := by
      intro listed hnodup
      rw [hwrite, @JsonMap.writeAll_eq_append [] _ hnodup, nil_append]
    refine ⟨?_, ?_, ?_⟩
    · intro leaf hleaf
      rw [hout fields hapart]
      exact (JsonMap.lookup_eq_some_iff hapart).mpr (mem_map_of_mem hleaf)
    · rw [hout fields hapart, hlength]
    · intro listed hlisted heq
      have hperm : ((leafFields numbers delimiter maxDepth arrayPolicy fields).map normalField).Perm
          ((leafFields numbers delimiter maxDepth arrayPolicy listed).map normalField) :=
        (leafFields_perm h hlisted heq).symm
      rw [hout fields hapart, hout listed (nodup_keys_of_perm hapart hperm)]
      exact (normalize_object_eq_of_perm hapart hperm).symm

/-- A map, an array and a map in the array. -/
theorem flattenValue_flattens_iff_nested : let fields : JsonMap :=
      [("a", .object [("b", .number 1), ("c", .null)]), ("d", .array [.bool true, .object [("b", .string "")]])]
    Flattens quotientTexts "." 10 "index" fields ∧
      flattenValue quotientTexts "." 10 "index" "" 0 [] fields =
        [("a.b", .number 1), ("a.c", .null), ("d.0", .bool true), ("d.1.b", .string "")] :=
  ⟨(flattenValue_flattens_iff quotientTexts "." 10 "index" _ (by
      simp only [Json.DistinctKeys, Json.DistinctFields, Json.DistinctItems, JsonMap.keys]
      decide)).mpr (by decide +kernel), by decide +kernel⟩

/-- **A key with the delimiter in it** is taken for a path: one of the two values is lost. -/
theorem dotted_key_is_path :
    ¬ Flattens quotientTexts "." 10 "index" [("a.b", .number 1), ("a", .object [("b", .number 2)])] := by
  rintro ⟨-, hlength, -⟩
  exact absurd hlength (by decide +kernel)

end exact

end Dataflow.Connectors
