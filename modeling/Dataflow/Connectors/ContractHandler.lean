import Dataflow.Connectors.Values

/-!
# The contract transform

`transform.contract` checks rows against a schema, which has a text for each field: a kind, with a
question mark behind it when the field may be missing.

* `isOptional`, `kindOf`: the two parts of the text.
* `contractMatches`, `contractProblems`, `contractHandler`: the code.
* `Accepts`: a row is handed on; `accepts_iff` says what that means for each field.
* `Satisfiable`: the schema accepts some row, by `satisfiable_iff`.

Source: `transforms.go`
-/

namespace Dataflow.Connectors

open Activities Model List

/-! ## The code -/

/-- `Formatting` with `json.Unmarshal` into a map, and whether `time.Parse` with the layout RFC 3339
accepts a text; it accepts that of the beginning of 2026. -/
structure ContractOps extends Formatting where
  unmarshalObject : String → Except String JsonMap
  isRfc3339 : String → Bool
  newYear : isRfc3339 "2026-01-01T00:00:00Z" = true

/-- `strings.HasSuffix(spec, "?")`. -/
def isOptional (spec : String) : Bool := decide (spec.toList.getLast? = some '?')

/-- `strings.TrimSuffix(spec, "?")`. -/
def kindOf (spec : String) : String :=
  if isOptional spec then .ofList spec.toList.dropLast else spec

section code

variable (ops : ContractOps)

/-- Source: `transforms.go` `contractMatches`. -/
def contractMatches (value : Json) (kind : String) : Bool :=
  match kind with
  | "any" => true
  | "string" => match value with
      | .string _ => true
      | _ => false
  | "number" => match value with
      | .number _ => true
      | _ => false
  | "boolean" => match value with
      | .bool _ => true
      | _ => false
  | "object" => match value with
      | .object _ => true
      | _ => false
  | "array" => match value with
      | .array _ => true
      | _ => false
  | "date" => ops.isRfc3339 (stringValue ops.toFormatting value)
  | _ => false

/-- The text of a field of a schema. -/
def fieldSpec (schema : JsonMap) (field : String) : String :=
  stringValue ops.toFormatting (schema.get field)

/-- What is wrong with a field of a row. -/
def fieldProblem (schema row : JsonMap) (field : String) : Option String :=
  match row.get field with
  | .null =>
    if isOptional (fieldSpec ops schema field) then none else some (field ++ " is required")
  | value =>
    if contractMatches ops value (kindOf (fieldSpec ops schema field)) then none
    else some (field ++ " must be " ++ kindOf (fieldSpec ops schema field))

/-- The loop over the fields of the schema. -/
def contractProblems (schema row : JsonMap) : List String :=
  schema.keys.filterMap (fieldProblem ops schema row)

/-- `schemaJson`: a map, or a text that holds one. -/
def contractSchema (cfg : JsonMap) : Except String JsonMap :=
  match cfg.get "schemaJson" with
  | .string text => match ops.unmarshalObject text with
      | .ok schema => .ok schema
      | .error _ => .error "transform.contract: schemaJson must be a JSON object"
  | .object schema => .ok schema
  | _ => .error "transform.contract: schemaJson must be a JSON object"

/-- The loop over the rows, from a number on: the rows that are handed on, and how many are
rejected. A row that is no map panics. -/
def contractRows (schema : JsonMap) (onViolation : Json) : ℕ → List Json →
    Except String (List Json × ℕ)
  | _, [] => .ok ([], 0)
  | i, raw :: rows =>
    match raw with
    | .object row =>
      let problems := contractProblems ops schema row
      if problems = [] then
        (contractRows schema onViolation (i + 1) rows).map fun (valid, rejected) =>
          (raw :: valid, rejected)
      else if onViolation = .string "fail" ∨ onViolation = .null then
        .error ("transform.contract: row " ++ (i + 1).repr ++ ": " ++
          String.intercalate "; " problems)
      else (contractRows schema onViolation (i + 1) rows).map fun (valid, rejected) =>
        (valid, rejected + 1)
    | _ => .error "interface conversion"

/-- What is reported about the rows. -/
def contractMeta (valid : List Json) (rejected : ℕ) : JsonMap :=
  [("qualityStatus", .string (if 0 < rejected then "warning" else "passed")),
    ("passedCount", .number valid.length), ("failedCount", .number rejected)]

/-- Source: `transforms.go` `contractHandler`. -/
def contractHandler (input : Json) (cfg : JsonMap) : Except String (List Json × JsonMap) :=
  match input with
  | .array rows => (contractSchema ops cfg).bind fun schema =>
    (contractRows ops schema (cfg.get "onViolation") 0 rows).map fun (valid, rejected) =>
      (valid, contractMeta valid rejected)
  | _ => .error "input must be an array"

end code

/-! ## The rows that are handed on -/

variable {ops : ContractOps} {schema row : JsonMap}

/-- The rows of a batch that are handed on are those without a problem. -/
theorem mem_contractRows {onViolation : Json} {i : ℕ} {rows valid : List Json} {rejected : ℕ}
    (h : contractRows ops schema onViolation i rows = .ok (valid, rejected)) :
    .object row ∈ valid ↔ .object row ∈ rows ∧ contractProblems ops schema row = [] := by
  induction rows generalizing i valid rejected with
  | nil =>
    cases h
    simp
  | cons raw rows ih =>
    unfold contractRows at h
    cases raw with
    | object first =>
      dsimp only at h
      split_ifs at h with hproblems
      · cases hrest : contractRows ops schema onViolation (i + 1) rows with
        | error text =>
          rw [hrest] at h
          cases h
        | ok rest =>
          rw [hrest] at h
          cases h
          rw [mem_cons, mem_cons, ih hrest, Json.object.injEq]
          constructor
          · rintro (rfl | hrow)
            · exact ⟨.inl rfl, hproblems⟩
            · exact ⟨.inr hrow.1, hrow.2⟩
          · rintro ⟨hrow | hrow, hnone⟩
            · exact .inl hrow
            · exact .inr ⟨hrow, hnone⟩
      · cases hrest : contractRows ops schema onViolation (i + 1) rows with
        | error text =>
          rw [hrest] at h
          cases h
        | ok rest =>
          rw [hrest] at h
          cases h
          rw [mem_cons, ih hrest, Json.object.injEq]
          constructor
          · intro hrow
            exact ⟨.inr hrow.1, hrow.2⟩
          · rintro ⟨rfl | hrow, hnone⟩
            · exact absurd hnone hproblems
            · exact ⟨hrow, hnone⟩
    | null | bool _ | number _ | string _ | array _ => cases h

variable (ops schema row) in
/-- The transform, with this schema in one of its forms, hands on the row as one of a batch. -/
def Accepts : Prop :=
  ∃ cfg rows valid info, contractSchema ops cfg = .ok schema ∧ .object row ∈ rows ∧
    contractHandler ops (.array rows) cfg = .ok (valid, info) ∧ .object row ∈ valid

/-- A row is handed on if and only if nothing is wrong with it. -/
theorem accepts_iff_contractProblems :
    Accepts ops schema row ↔ contractProblems ops schema row = [] := by
  constructor
  · rintro ⟨cfg, rows, valid, info, hschema, -, hhandler, hvalid⟩
    rw [contractHandler, hschema] at hhandler
    cases hrows : contractRows ops schema (cfg.get "onViolation") 0 rows with
    | error text =>
      rw [Except.bind, hrows] at hhandler
      cases hhandler
    | ok out =>
      rw [Except.bind, hrows] at hhandler
      cases hhandler
      exact ((mem_contractRows hrows).mp hvalid).2
  · intro hnone
    refine ⟨[("schemaJson", .object schema)], [.object row], [.object row],
      contractMeta [.object row] 0, rfl, mem_singleton_self _, ?_, mem_singleton_self _⟩
    show (contractRows ops schema .null 0 [.object row]).map _ = _
    rw [contractRows]
    rw [if_pos hnone]
    rfl

/-- **The rows that are handed on**, field by field: a value of the kind of the field, and no value
only where the field is optional. -/
theorem accepts_iff : Accepts ops schema row ↔ ∀ field ∈ schema.keys,
    (row.get field = .null → isOptional (fieldSpec ops schema field) = true) ∧
    (row.get field ≠ .null →
      contractMatches ops (row.get field) (kindOf (fieldSpec ops schema field)) = true) := by
  rw [accepts_iff_contractProblems, contractProblems, filterMap_eq_nil_iff]
  refine forall₂_congr fun field _ => ?_
  unfold fieldProblem
  cases row.get field <;> simp

/-! ## Schemas that accept a row -/

/-- A value of a kind; null when there is none. -/
def sampleOf (kind : String) : Json :=
  match kind with
  | "any" => .bool true
  | "string" => .string ""
  | "number" => .number 0
  | "boolean" => .bool true
  | "object" => .object []
  | "array" => .array []
  | "date" => .string "2026-01-01T00:00:00Z"
  | _ => .null

/-- The kinds there are. -/
def kinds : List String := ["any", "string", "number", "boolean", "object", "array", "date"]

theorem sampleOf_ne_null {kind : String} (h : kind ∈ kinds) : sampleOf kind ≠ .null := by
  simp only [kinds, mem_cons, not_mem_nil, or_false] at h
  rcases h with rfl | rfl | rfl | rfl | rfl | rfl | rfl <;> simp [sampleOf]

theorem contractMatches_sampleOf {kind : String} (h : kind ∈ kinds) :
    contractMatches ops (sampleOf kind) kind = true := by
  simp only [kinds, mem_cons, not_mem_nil, or_false] at h
  rcases h with rfl | rfl | rfl | rfl | rfl | rfl | rfl <;>
    simp [sampleOf, contractMatches, stringValue, ops.newYear]

/-- Nothing matches what is no kind. -/
theorem mem_kinds_of_contractMatches {value : Json} {kind : String}
    (h : contractMatches ops value kind = true) : kind ∈ kinds := by
  unfold contractMatches at h
  split at h <;> simp_all [kinds]

variable (ops schema) in
/-- Every field that is required has one of the kinds. -/
def Satisfiable : Prop :=
  ∀ field ∈ schema.keys, isOptional (fieldSpec ops schema field) = false →
    kindOf (fieldSpec ops schema field) ∈ kinds

/-- **A schema is satisfiable** if and only if it accepts a row. -/
theorem satisfiable_iff : Satisfiable ops schema ↔ ∃ row, Accepts ops schema row := by
  constructor
  · intro h
    let sample field := if isOptional (fieldSpec ops schema field) then Json.null
      else sampleOf (kindOf (fieldSpec ops schema field))
    have hget : ∀ field ∈ schema.keys,
        JsonMap.get (schema.keys.map fun field => (field, sample field)) field = sample field := by
      intro field hfield
      rw [JsonMap.get, lookup_graph sample hfield, Option.getD_some]
    refine ⟨schema.keys.map fun field => (field, sample field), accepts_iff.mpr ?_⟩
    intro field hfield
    rw [hget field hfield]
    cases hoptional : isOptional (fieldSpec ops schema field) with
    | true => simp [sample, hoptional]
    | false =>
      have hkind := h field hfield hoptional
      simp [sample, hoptional, sampleOf_ne_null hkind, contractMatches_sampleOf hkind]
  · rintro ⟨row, hrow⟩ field hfield hrequired
    obtain ⟨hnull, hvalue⟩ := accepts_iff.mp hrow field hfield
    by_cases hmissing : row.get field = .null
    · simp [hnull hmissing] at hrequired
    · exact mem_kinds_of_contractMatches (hvalue hmissing)

end Dataflow.Connectors
