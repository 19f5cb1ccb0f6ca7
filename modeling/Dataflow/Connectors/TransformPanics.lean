import Dataflow.Connectors.ContractHandler
import Dataflow.Connectors.Dedupe
import Dataflow.Connectors.Flatten
import Dataflow.Connectors.Rename
import Dataflow.Library.Endings

/-!
# When transforms panic

Most transforms assert that a row is a map, `raw.(map[string]interface{})`, and panic if it is not.
The models of the single transforms take a panic for an error; here the two are told apart.

* `Transform`: a call of a transform with its configuration and its input; `Transform.run`: the
  code.
* `parseField`, `parseRow`: the loop of `transform.parse` over the fields of a row.
* `FailsBefore`: an error is found in a row before the first element that is no map is reached.
* **`transform_panics_iff`**: exactly when a call does not panic.
* `number_in_array`: an array with a number in it.

Source: `transforms.go`
-/

namespace Dataflow.Connectors

open Activities Library Model List Option

/-! ## The code -/

/-- What the transforms are run with: `json.Unmarshal` into a map and into a value, the dates that
`time.Parse` accepts, and the order in which Go visits maps. -/
structure TransformOps extends Rendering where
  unmarshalObject : String → Except String JsonMap
  unmarshal : String → Option Json
  isRfc3339 : String → Bool
  newYear : isRfc3339 "2026-01-01T00:00:00Z" = true
  ranging : RangeFields

/-- What `transform.contract` is run with. -/
def TransformOps.contractOps (ops : TransformOps) : ContractOps :=
  { ops.toFormatting with
    unmarshalObject := ops.unmarshalObject
    isRfc3339 := ops.isRfc3339
    newYear := ops.newYear }

/-- A call of a transform. -/
inductive Transform where
  | rename (input : Json) (cfg : JsonMap)
  | dedupe (input : Json) (cfg : JsonMap)
  | flatten (input : Json) (cfg : JsonMap)
  | parse (input : Json) (cfg : JsonMap)
  | contract (input : Json) (cfg : JsonMap)
  | mergeArrays (strategy : String) (arrays : List (List Json)) (joinKey : String)

/-- `raw.(map[string]interface{})` without a second result. -/
def rowOf (raw : Json) : Ending JsonMap :=
  match raw with
  | .object row => .value row
  | _ => .panic

/-- Source: `transforms.go` `records`. -/
def records (input : Json) : Ending (List Json) :=
  match input with
  | .array rows => .value rows
  | _ => .error "input must be an array"

section code

variable (ops : TransformOps)

/-- The body of the loop of `parseHandler` over the fields. -/
def parseField (mode : String) (row : JsonMap) (field : String) : Ending JsonMap :=
  match row.lookup field with
  | some (.string value) =>
    match ops.unmarshal value with
    | some parsed => .value (row.set field parsed)
    | none =>
      if mode = "fail" then .error ("transform.parse: field " ++ ops.quote field ++ " is not valid JSON")
      else .value (if mode = "null" then row.set field .null else row)
  | _ => .value row

/-- The loop of `parseHandler` over the fields. -/
def parseRow (mode : String) : List String → JsonMap → Ending JsonMap
  | [], row => .value row
  | field :: fields, row => (parseField ops mode row field).bind (parseRow mode fields)

/-- The body of the loop of `contractHandler` over the rows; a rejected row is not handed on. -/
def contractRow (schema : JsonMap) (onViolation : Json) (i : ℕ) (row : JsonMap) :
    Ending (Option Json) :=
  let problems := contractProblems ops.contractOps schema row
  if problems = [] then .value (some (.object row))
  else if onViolation = .string "fail" ∨ onViolation = .null then
    .error ("transform.contract: row " ++ (i + 1).repr ++ ": " ++ String.intercalate "; " problems)
  else .value none

/-- The loop of a transform over the rows. -/
def eachRow {β : Type} (body : ℕ → JsonMap → Ending β) (rows : List Json) : Ending (List β) :=
  Ending.forEach (fun i raw => (rowOf raw).bind (body i)) 0 rows

/-- Source: `transforms.go` `renameHandler`. -/
def Transform.runRename (input : Json) (cfg : JsonMap) : Ending (List Json) :=
  (records input).bind fun rows =>
    (Ending.ofExcept (renameMapping ops.unmarshalObject cfg)).bind fun mapping =>
      eachRow (fun i row => .value (.object (renameRow ops.toFormatting (ops.ranging.order i mapping) row))) rows

/-- Source: `transforms.go` `dedupeHandler`, whose assertion has a second result. -/
def Transform.runDedupe (input : Json) (cfg : JsonMap) : Ending (List Json) :=
  (records input).bind fun rows =>
    let keys := keyFields ops.toFormatting (cfg.get "key")
    if keys = [] then .value rows
    else .value (dedupeRows ops.toRendering keys (cfg.get "keep" = .string "last") rows)

/-- Source: `transforms.go` `flattenHandler`. -/
def Transform.runFlatten (input : Json) (cfg : JsonMap) : Ending (List Json) :=
  (records input).bind fun rows =>
    let given := stringValue ops.toFormatting (cfg.get "delimiter")
    let delimiter := if given = "" then "." else given
    let max := truncate (number ops.toConversions (cfg.get "maxDepth"))
    let policy := stringValue ops.toFormatting (cfg.get "arrayPolicy")
    eachRow (fun _ row => .value (.object (flattenValue ops.numbers delimiter (if max = 0 then 10 else max)
      (if policy = "" then "index" else policy) "" 0 [] row))) rows

/-- Source: `transforms.go` `parseHandler`. -/
def Transform.runParse (input : Json) (cfg : JsonMap) : Ending (List Json) :=
  (records input).bind fun rows =>
    let fields := keyFields ops.toFormatting (cfg.get "fields")
    let mode := stringValue ops.toFormatting (cfg.get "onError")
    eachRow (fun _ row => (parseRow ops mode fields row).map .object) rows

/-- Source: `transforms.go` `contractHandler`, without what it reports about the rows. -/
def Transform.runContract (input : Json) (cfg : JsonMap) : Ending (List Json) :=
  (records input).bind fun rows =>
    (Ending.ofExcept (contractSchema ops.contractOps cfg)).bind fun schema =>
      (eachRow (contractRow ops schema (cfg.get "onViolation")) rows).map fun out => out.filterMap id

/-- Source: `transforms.go` `MergeArrays`. The loop that lists the keys asserts the rows of the
first array once more. -/
def Transform.runMergeArrays (strategy : String) (arrays : List (List Json)) (joinKey : String) :
    Ending (List Json) :=
  let strategy := if strategy = "" then "concat" else strategy
  if strategy = "concat" then .value arrays.flatten
  else if strategy = "union" then .value (unionRows ops.toRendering [] arrays.flatten)
  else if strategy = "appendWithSourceTag" then
    (Ending.forEach (fun i array =>
      eachRow (fun _ row => .value (Json.object (row.set "_source" (.number i)))) array) 0 arrays).map List.flatten
  else if joinKey = "" then .error ("merge strategy " ++ ops.quote strategy ++ " requires a joinKey")
  else
    (eachRow (fun _ row => .value row) (arrays.getD 0 [])).bind fun a =>
      (eachRow (fun _ row => .value row) (arrays.getD 1 [])).bind fun b =>
        (if strategy = "outerJoin" then .value a
          else eachRow (fun _ row => .value row) (arrays.getD 0 [])).bind fun _ =>
            .value (joinRows ops.toRendering strategy joinKey a b)

/-- A call of a transform. -/
def Transform.run : Transform → Ending (List Json)
  | .rename input cfg => runRename ops input cfg
  | .dedupe input cfg => runDedupe ops input cfg
  | .flatten input cfg => runFlatten ops input cfg
  | .parse input cfg => runParse ops input cfg
  | .contract input cfg => runContract ops input cfg
  | .mergeArrays strategy arrays joinKey => runMergeArrays ops strategy arrays joinKey

end code

/-! ## When a transform panics -/

section panics

/-- All elements are maps. -/
def AllRows (rows : List Json) : Prop := ∀ raw ∈ rows, raw.asObject? ≠ none

/-- **A row with an error comes first**: all elements are maps, or those up to a row that has an
error. -/
def FailsBefore (fails : JsonMap → Prop) (rows : List Json) : Prop :=
  AllRows rows ∨ ∃ before row after, rows = before ++ .object row :: after ∧ AllRows before ∧ fails row

/-- A field of a row holds a text that is no JSON, as the fields are decoded one after the other. -/
def HasInvalidText (unmarshal : String → Option Json) : List String → JsonMap → Prop
  | [], _ => False
  | field :: fields, row =>
    match row.lookup field with
    | some (.string value) =>
      match unmarshal value with
      | some parsed => HasInvalidText unmarshal fields (row.set field parsed)
      | none => True
    | _ => HasInvalidText unmarshal fields row

/-- **A call does not panic.** -/
def Transform.Safe (ops : TransformOps) : Transform → Prop
  | .rename input cfg => ∀ rows mapping, input = .array rows →
      renameMapping ops.unmarshalObject cfg = .ok mapping → AllRows rows
  | .dedupe _ _ => True
  | .flatten input _ => ∀ rows, input = .array rows → AllRows rows
  | .parse input cfg => ∀ rows, input = .array rows →
      FailsBefore (fun row => stringValue ops.toFormatting (cfg.get "onError") = "fail" ∧
        HasInvalidText ops.unmarshal (keyFields ops.toFormatting (cfg.get "fields")) row) rows
  | .contract input cfg =>
    ∀ rows schema, input = .array rows → contractSchema ops.contractOps cfg = .ok schema →
    FailsBefore (fun row => contractProblems ops.contractOps schema row ≠ [] ∧
      (cfg.get "onViolation" = .string "fail" ∨ cfg.get "onViolation" = .null)) rows
  | .mergeArrays strategy arrays joinKey =>
    strategy ∈ ["", "concat", "union"] ∨
    if strategy = "appendWithSourceTag" then ∀ array ∈ arrays, AllRows array
    else joinKey ≠ "" → AllRows (arrays.getD 0 []) ∧ AllRows (arrays.getD 1 [])

variable {ops : TransformOps} {β : Type}

theorem rowOf_object (row : JsonMap) : rowOf (.object row) = .value row := rfl

theorem rowOf_of_asObject? {raw : Json} (h : raw.asObject? = none) : rowOf raw = .panic := by
  cases raw with
  | object row => cases h
  | null | bool _ | number _ | string _ | array _ => rfl

theorem exists_object {raw : Json} (h : raw.asObject? ≠ none) : ∃ row, raw = .object row := by
  cases raw with
  | object row => exact ⟨row, rfl⟩
  | null | bool _ | number _ | string _ | array _ => exact absurd rfl h

theorem failsBefore_nil (fails : JsonMap → Prop) : FailsBefore fails [] :=
  .inl fun _ h => absurd h not_mem_nil

/-- The first element decides, or the others do. -/
theorem failsBefore_cons_iff {fails : JsonMap → Prop} {raw : Json} {rows : List Json} :
    FailsBefore fails (raw :: rows) ↔ ∃ row, raw = .object row ∧
    (fails row ∨ FailsBefore fails rows) := by
  constructor
  · rintro (hall | ⟨before, row, after, heq, hbefore, hfails⟩)
    · obtain ⟨row, rfl⟩ := exists_object (hall raw mem_cons_self)
      exact ⟨row, rfl, .inr (.inl fun r hr => hall r (mem_cons_of_mem _ hr))⟩
    · cases before with
      | nil =>
        obtain ⟨rfl, -⟩ := cons.inj heq
        exact ⟨row, rfl, .inl hfails⟩
      | cons first before =>
        obtain ⟨rfl, rfl⟩ := cons.inj heq
        obtain ⟨firstRow, rfl⟩ := exists_object (hbefore raw mem_cons_self)
        exact ⟨firstRow, rfl, .inr (.inr ⟨before, row, after, rfl,
          fun r hr => hbefore r (mem_cons_of_mem _ hr), hfails⟩)⟩
  · rintro ⟨row, rfl, hfails | hall | ⟨before, failing, after, rfl, hbefore, hfails⟩⟩
    · exact .inr ⟨[], row, rows, rfl, fun _ h => absurd h not_mem_nil, hfails⟩
    · exact .inl fun r hr => (mem_cons.mp hr).elim (fun h => h ▸ some_ne_none row) (hall r)
    · exact .inr ⟨.object row :: before, failing, after, rfl,
        fun r hr => (mem_cons.mp hr).elim (fun h => h ▸ some_ne_none row) (hbefore r), hfails⟩

/-- **A loop over rows** does not panic iff a row with an error comes before the first element that
is no map. -/
theorem eachRow_ne_panic_iff {body : ℕ → JsonMap → Ending β} {fails : JsonMap → Prop}
    (hpanic : ∀ i row, body i row ≠ .panic)
    (hfails : ∀ i row, (∃ b, body i row = .value b) ↔ ¬ fails row) (rows : List Json) :
    eachRow body rows ≠ .panic ↔ FailsBefore fails rows := by
  rw [eachRow]
  generalize 0 = i
  induction rows generalizing i with
  | nil => exact iff_of_true nofun (failsBefore_nil fails)
  | cons raw rows ih =>
    rw [Ne, Ending.panics_forEach_cons_iff, failsBefore_cons_iff]
    cases hraw : raw.asObject? with
    | none =>
      rw [rowOf_of_asObject? hraw]
      refine iff_of_false (fun h => h (.inl rfl)) ?_
      rintro ⟨row, rfl, -⟩
      cases hraw
    | some row =>
      obtain ⟨row, rfl⟩ := exists_object (ne_none_iff_exists'.mpr ⟨row, hraw⟩)
      have hbody := hpanic i row
      have hrest := ih (i + 1)
      simp only [rowOf_object, Ending.bind_value, hfails, Json.object.injEq, exists_eq_left']
      tauto

theorem eachRow_ne_panic_of_value {body : ℕ → JsonMap → Ending β}
    (h : ∀ i row, ∃ b, body i row = .value b) (rows : List Json) :
    eachRow body rows ≠ .panic ↔ AllRows rows := by
  have hfails : ∀ i row, (∃ b, body i row = .value b) ↔ ¬ False :=
    fun i row => iff_of_true (h i row) not_false
  rw [@eachRow_ne_panic_iff _ _ (fun _ => False) ?_ hfails]
  · simp [FailsBefore]
  · intro i row hpanic
    obtain ⟨b, hb⟩ := h i row
    simp [hb] at hpanic

/-- What a transform does with its input. -/
theorem records_bind_ne_panic_iff {input : Json} {f : List Json → Ending β} :
    (records input).bind f ≠ .panic ↔ ∀ rows, input = .array rows → f rows ≠ .panic := by
  cases input with
  | array rows => simp [records]
  | null | bool _ | number _ | string _ | object _ => simp [records, Ending.bind]

/-- What a transform does with its configuration. -/
theorem ofExcept_bind_ne_panic_iff {α : Type} {e : Except String α} {f : α → Ending β} :
    (Ending.ofExcept e).bind f ≠ .panic ↔ ∀ a, e = .ok a → f a ≠ .panic := by
  cases e with
  | error message => simp [Ending.ofExcept, Ending.bind]
  | ok a => simp [Ending.ofExcept]

theorem parseField_ne_panic (mode : String) (row : JsonMap) (field : String) :
    parseField ops mode row field ≠ .panic := by
  unfold parseField
  split
  · split
    · exact nofun
    · split_ifs <;> exact nofun
  · exact nofun

theorem parseRow_ne_panic (mode : String) (fields : List String) (row : JsonMap) :
    parseRow ops mode fields row ≠ .panic := by
  induction fields generalizing row with
  | nil => exact nofun
  | cons field fields ih =>
    rw [parseRow, Ne, Ending.panics_bind_iff]
    rintro (hfield | ⟨next, -, hrest⟩)
    · exact parseField_ne_panic mode row field hfield
    · exact ih next hrest

/-- A row is handed on unless a text of it is no JSON and the mode is to fail. -/
theorem exists_parseRow_iff {mode : String} {fields : List String} {row : JsonMap} :
    (∃ out, parseRow ops mode fields row = .value out) ↔
      ¬ (mode = "fail" ∧ HasInvalidText ops.unmarshal fields row) := by
  induction fields generalizing row with
  | nil => exact iff_of_true ⟨row, rfl⟩ fun h => h.2
  | cons field fields ih =>
    rw [parseRow, parseField, HasInvalidText]
    split
    · split
      · exact ih
      · by_cases hmode : mode = "fail"
        · rw [if_pos hmode]
          exact iff_of_false nofun fun h => h ⟨hmode, trivial⟩
        · rw [if_neg hmode, Ending.bind_value, ih]
          exact iff_of_true (fun h => hmode h.1) fun h => hmode h.1
    · exact ih

theorem parse_body {mode : String} {fields : List String} (row : JsonMap) :
    (∃ out, (parseRow ops mode fields row).map Json.object = .value out) ↔
      ¬ (mode = "fail" ∧ HasInvalidText ops.unmarshal fields row) := by
  rw [← exists_parseRow_iff]
  cases parseRow ops mode fields row with
  | value out => simp
  | error message | panic => simp [Ending.map, Ending.bind]

theorem contractRow_ne_panic (schema : JsonMap) (onViolation : Json) (i : ℕ) (row : JsonMap) :
    contractRow ops schema onViolation i row ≠ .panic := by
  unfold contractRow
  dsimp only
  split_ifs <;> exact nofun

theorem exists_contractRow_iff {schema : JsonMap} {onViolation : Json} (i : ℕ) (row : JsonMap) :
    (∃ out, contractRow ops schema onViolation i row = .value out) ↔
      ¬ (contractProblems ops.contractOps schema row ≠ [] ∧
        (onViolation = .string "fail" ∨ onViolation = .null)) := by
  unfold contractRow
  dsimp only
  split_ifs with hproblems hfail
  · exact iff_of_true ⟨_, rfl⟩ fun h => h.1 hproblems
  · exact iff_of_false nofun fun h => h ⟨hproblems, hfail⟩
  · exact iff_of_true ⟨_, rfl⟩ fun h => hfail h.2

/-- The loop of the strategy `appendWithSourceTag` over the arrays. -/
theorem tags_ne_panic_iff (arrays : List (List Json)) : (Ending.forEach (fun i array =>
      eachRow (fun _ row => .value (Json.object (row.set "_source" (.number (i : ℕ))))) array) 0 arrays).map
        List.flatten ≠ .panic ↔ ∀ array ∈ arrays, AllRows array := by
  have hbody : ∀ (i : ℕ) (array : List Json),
      eachRow (fun _ row => .value (Json.object (row.set "_source" (.number i)))) array = .panic ↔
        ¬ AllRows array := by
    intro i array
    rw [← eachRow_ne_panic_of_value fun _ _ => ⟨_, rfl⟩, not_not]
  have herror : ∀ (i : ℕ) (array : List Json) (message : String),
      eachRow (fun _ row => .value (Json.object (row.set "_source" (.number i)))) array ≠ .error message := by
    intro i array
    apply Ending.forEach_ne_error
    intro _ raw message
    cases raw <;> exact nofun
  rw [Ne, Ending.panics_map_iff, Ending.panics_forEach_iff herror hbody]
  simp only [not_exists, not_and, not_not]

/-- The two loops that index the rows of a join. -/
theorem joins_ne_panic_iff {strategy : String} {first second : List Json}
    {f : List JsonMap → List JsonMap → List Json} :
    ((eachRow (fun _ row => .value row) first).bind fun a =>
      (eachRow (fun _ row => .value row) second).bind fun b =>
        (if strategy = "outerJoin" then Ending.value a else eachRow (fun _ row => .value row) first).bind fun _ =>
          .value (f a b)) ≠ .panic ↔ AllRows first ∧ AllRows second := by
  have hrows : ∀ rows : List Json,
      eachRow (fun _ row => Ending.value row) rows = .panic ∨ ∃ out, eachRow (fun _ row => Ending.value row) rows =
        .value out := by
    intro rows
    have herror : ∀ message, eachRow (fun _ row => Ending.value row) rows ≠ .error message := by
      apply Ending.forEach_ne_error
      intro _ raw message
      cases raw <;> exact nofun
    cases hend : eachRow (fun _ row => Ending.value row) rows with
    | value out => exact .inr ⟨out, rfl⟩
    | error message => exact absurd hend (herror message)
    | panic => exact .inl rfl
  have hall : ∀ rows : List Json, AllRows rows ↔
      eachRow (fun _ row => Ending.value row) rows ≠ .panic :=
    fun rows => (eachRow_ne_panic_of_value (fun _ row => ⟨row, rfl⟩) rows).symm
  rw [hall, hall]
  rcases hrows first with ha | ⟨a, ha⟩
  · simp [ha, Ending.bind]
  · rcases hrows second with hb | ⟨b, hb⟩
    · simp [ha, hb, Ending.bind]
    · simp [ha, hb, Ending.bind]

/-- **A call panics** iff it reaches an element that is no map: in whatever array, whatever the
elements, for every configuration.
Source: `transforms.go` `renameHandler`, `dedupeHandler`, `flattenHandler`, `parseHandler`,
`contractHandler`, `MergeArrays` -/
theorem transform_panics_iff (ops : TransformOps) (call : Transform) :
    call.run ops ≠ .panic ↔ call.Safe ops := by
  cases call with
  | rename input cfg =>
    rw [Transform.run, Transform.runRename, records_bind_ne_panic_iff, Transform.Safe]
    apply forall_congr'
    intro rows
    rw [ofExcept_bind_ne_panic_iff]
    simp only [eachRow_ne_panic_of_value fun _ _ => ⟨_, rfl⟩]
    tauto
  | dedupe input cfg =>
    rw [Transform.run, Transform.runDedupe, records_bind_ne_panic_iff]
    refine iff_of_true ?_ trivial
    intro rows _
    dsimp only
    split_ifs <;> exact nofun
  | flatten input cfg =>
    rw [Transform.run, Transform.runFlatten, records_bind_ne_panic_iff, Transform.Safe]
    simp only [eachRow_ne_panic_of_value fun _ _ => ⟨_, rfl⟩]
  | parse input cfg =>
    rw [Transform.run, Transform.runParse, records_bind_ne_panic_iff, Transform.Safe]
    refine forall_congr' fun rows => imp_congr_right fun _ => ?_
    apply eachRow_ne_panic_iff
    · exact fun _ row hpanic => parseRow_ne_panic _ _ row (Ending.panics_map_iff.mp hpanic)
    · exact fun _ row => parse_body row
  | contract input cfg =>
    rw [Transform.run, Transform.runContract, records_bind_ne_panic_iff, Transform.Safe]
    refine forall_congr' fun rows => ?_
    rw [ofExcept_bind_ne_panic_iff, forall_comm]
    refine forall_congr' fun schema => imp_congr_right fun _ => imp_congr_right fun _ => ?_
    rw [Ne, Ending.panics_map_iff]
    apply eachRow_ne_panic_iff
    · exact contractRow_ne_panic schema (cfg.get "onViolation")
    · exact exists_contractRow_iff
  | mergeArrays strategy arrays joinKey =>
    rw [Transform.run, Transform.Safe]
    unfold Transform.runMergeArrays
    dsimp only
    by_cases hempty : strategy = ""
    · rw [if_pos hempty, if_pos rfl]
      exact iff_of_true nofun (.inl (by simp [hempty]))
    · rw [if_neg hempty]
      by_cases hconcat : strategy = "concat"
      · rw [if_pos hconcat]
        exact iff_of_true nofun (.inl (by simp [hconcat]))
      by_cases hunion : strategy = "union"
      · rw [if_neg hconcat, if_pos hunion]
        exact iff_of_true nofun (.inl (by simp [hunion]))
      have hmem : ¬ strategy ∈ ["", "concat", "union"] := by simp [hempty, hconcat, hunion]
      rw [if_neg hconcat, if_neg hunion, or_iff_right hmem]
      by_cases htag : strategy = "appendWithSourceTag"
      · rw [if_pos htag, if_pos htag, tags_ne_panic_iff]
      rw [if_neg htag, if_neg htag]
      by_cases hkey : joinKey = ""
      · rw [if_pos hkey]
        exact iff_of_true nofun fun h => absurd hkey h
      · rw [if_neg hkey, joins_ne_panic_iff, imp_iff_right hkey]

/-- **An array with a number in it**: flattening it panics. -/
theorem number_in_array : ¬ ∀ call : Transform, call.run { textRendering with
        unmarshalObject := fun _ => .ok []
        unmarshal := fun _ => none
        isRfc3339 := fun _ => true
        newYear := rfl
        ranging := plainFields } ≠ .panic :=
  fun h => h (.flatten (.array [.number 1]) []) rfl

end panics

end Dataflow.Connectors
