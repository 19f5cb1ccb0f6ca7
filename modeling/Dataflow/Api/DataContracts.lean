import Dataflow.Connectors.ContractHandler

/-!
# Data contracts of two versions

Before a version replaces the one in production, the contracts of its sinks are compared with those
of the version in production: a contract for each sink, as the contract transform reads it.

* `compareContracts`: the code.
* `Sound`: what the new version hands on to a sink, the old version would have handed on too.
* `Relaxed`: a field that was required is optional now.
* `compareContracts_sound_iff`: the comparison takes no notice of the marker of an optional field.

Source: `routes_pipelines.go`
-/

namespace Dataflow.Api

open Activities Connectors Library.Lists Model List

/-! ## The code -/

/-- The contracts of a version: a schema for each sink that has one. -/
abbrev DataContracts := List (String × JsonMap)

/-- Source: `routes_pipelines.go` `trimOptional`. -/
def trimOptional (spec : String) : String := kindOf spec

section code

variable (ops : ContractOps)

/-- `fmt.Sprintf` of a value with the verb `%v`. -/
def formatValue : Json → String
  | .null => "<nil>"
  | value => stringValue ops.toFormatting value

/-- The fields of a contract that the new one does not have. -/
def removedFields (sinkId : String) (oldContract newContract : JsonMap) : List String :=
  oldContract.filterMap fun (field, _) =>
    match newContract.lookup field with
    | some _ => none
    | none => some ("field " ++ field ++ " removed from contract for sink " ++ sinkId)

/-- The fields of a contract whose type is another in the new one. -/
def changedFields (sinkId : String) (oldContract newContract : JsonMap) : List String :=
  oldContract.filterMap fun (field, oldSpec) =>
    match newContract.lookup field with
    | some newSpec =>
      let oldType := trimOptional (formatValue ops oldSpec)
      let newType := trimOptional (formatValue ops newSpec)
      if oldType = newType then none
      else some ("field " ++ field ++ " type changed from " ++ oldType ++ " to " ++ newType ++
        " in sink " ++ sinkId)
    | none => none

/-- Source: `routes_pipelines.go` `compareContracts`. -/
def compareContracts (oldContracts newContracts : DataContracts) : List String :=
  oldContracts.flatMap fun (sinkId, oldContract) =>
    match newContracts.lookup sinkId with
    | none => ["contract removed for sink " ++ sinkId]
    | some newContract =>
      removedFields sinkId oldContract newContract ++
        changedFields ops sinkId oldContract newContract

end code

/-! ## What the comparison establishes -/

variable {ops : ContractOps} {oldContracts newContracts : DataContracts} {sinkId : String}
  {oldContract newContract : JsonMap} {field : String}

/-- Nothing matches the kind of a field without a text, neither as the transform reads it nor as the
comparison does. -/
theorem contractMatches_trimOptional (value spec : Json) :
    contractMatches ops value (trimOptional (formatValue ops spec)) =
      contractMatches ops value (kindOf (stringValue ops.toFormatting spec)) := by
  cases spec with
  | null =>
    have hnil : trimOptional (formatValue ops .null) = "<nil>" := by
      show kindOf "<nil>" = "<nil>"
      decide
    have hempty : kindOf (stringValue ops.toFormatting .null) = "" := by
      show kindOf "" = ""
      decide
    rw [hnil, hempty]
    rfl
  | bool _ | number _ | string _ | array _ | object _ => rfl

/-- Without a break every sink of the old version has a contract in the new one. -/
theorem exists_newContract (hnone : compareContracts ops oldContracts newContracts = [])
    (hold : (sinkId, oldContract) ∈ oldContracts) :
    ∃ newContract, newContracts.lookup sinkId = some newContract ∧
      removedFields sinkId oldContract newContract = [] ∧
      changedFields ops sinkId oldContract newContract = [] := by
  have hsink := flatMap_eq_nil_iff.mp hnone _ hold
  dsimp only at hsink
  cases hlookup : newContracts.lookup sinkId with
  | none =>
    simp [hlookup] at hsink
  | some newContract =>
    rw [hlookup] at hsink
    exact ⟨newContract, rfl, append_eq_nil_iff.mp hsink⟩

/-- Without a break every field of the old contract is one of the new contract, and the same values
match it. -/
theorem field_kept (hremoved : removedFields sinkId oldContract newContract = [])
    (hchanged : changedFields ops sinkId oldContract newContract = [])
    (hfield : field ∈ oldContract.keys) :
    field ∈ newContract.keys ∧ ∀ value,
      contractMatches ops value (kindOf (fieldSpec ops newContract field)) =
        contractMatches ops value (kindOf (fieldSpec ops oldContract field)) := by
  cases hold : oldContract.lookup field with
  | none => exact absurd hfield (JsonMap.lookup_eq_none.mp hold)
  | some oldSpec =>
    have hentry : (field, oldSpec) ∈ oldContract := mem_of_lookup hold
    have hkept := filterMap_eq_nil_iff.mp hremoved _ hentry
    have hsame := filterMap_eq_nil_iff.mp hchanged _ hentry
    dsimp only at hkept hsame
    cases hnew : newContract.lookup field with
    | none =>
      simp [hnew] at hkept
    | some newSpec =>
      rw [hnew] at hsame
      dsimp only at hsame
      split_ifs at hsame with htype
      refine ⟨?_, ?_⟩
      · by_contra hmissing
        simp [JsonMap.lookup_eq_none.mpr hmissing] at hnew
      · intro value
        rw [fieldSpec, fieldSpec, JsonMap.get, JsonMap.get, hold, hnew, Option.getD_some,
          Option.getD_some, ← contractMatches_trimOptional, ← contractMatches_trimOptional,
          htype]

/-! ## When the comparison is sound -/

variable (ops oldContracts newContracts) in
/-- Every row that the transform hands on under the new contract of a sink, it hands on under the
old one. -/
def Sound : Prop :=
  ∀ sinkId oldContract, oldContracts.lookup sinkId = some oldContract →
    ∃ newContract, newContracts.lookup sinkId = some newContract ∧
      ∀ row, Accepts ops newContract row → Accepts ops oldContract row

variable (ops oldContract newContract field) in
/-- The field is required by the old contract, and optional in the new one. -/
def Relaxed : Prop :=
  field ∈ oldContract.keys ∧ isOptional (fieldSpec ops oldContract field) = false ∧
    isOptional (fieldSpec ops newContract field) = true

/-- Without a relaxed field the old contract accepts what the new one does. -/
theorem accepts_of_not_relaxed (hremoved : removedFields sinkId oldContract newContract = [])
    (hchanged : changedFields ops sinkId oldContract newContract = [])
    (hrequired : ∀ field, ¬ Relaxed ops oldContract newContract field) {row : JsonMap}
    (hrow : Accepts ops newContract row) : Accepts ops oldContract row := by
  rw [accepts_iff] at hrow ⊢
  intro field hfield
  obtain ⟨hkept, hmatches⟩ := field_kept hremoved hchanged hfield
  obtain ⟨hnull, hvalue⟩ := hrow field hkept
  refine ⟨?_, ?_⟩
  · intro hmissing
    by_contra hold
    exact hrequired field ⟨hfield, Bool.eq_false_iff.mpr hold, hnull hmissing⟩
  · intro hpresent
    rw [← hmatches]
    exact hvalue hpresent

/-- A row of the new contract without the relaxed field is one that the old contract rejects. -/
theorem exists_rejected (hrelaxed : Relaxed ops oldContract newContract field)
    (hsatisfiable : Satisfiable ops newContract) :
    ∃ row, Accepts ops newContract row ∧ ¬ Accepts ops oldContract row := by
  obtain ⟨hfield, hold, hnew⟩ := hrelaxed
  obtain ⟨row, hrow⟩ := satisfiable_iff.mp hsatisfiable
  rw [accepts_iff] at hrow
  refine ⟨row.set field .null, accepts_iff.mpr ?_, ?_⟩
  · intro other hother
    rw [JsonMap.get_set]
    split_ifs with heq
    · rw [heq]
      exact ⟨fun _ => hnew, fun hne => absurd rfl hne⟩
    · exact hrow other hother
  · intro haccepts
    have hnull : (row.set field .null).get field = .null := by
      rw [JsonMap.get_set, if_pos rfl]
    simp [(accepts_iff.mp haccepts field hfield).1 hnull] at hold

/-- **When the comparison is sound**: where it reports no break, the old contracts accept what the
new ones do if and only if no contract that accepts a row makes a required field optional. -/
theorem compareContracts_sound_iff (hnone : compareContracts ops oldContracts newContracts = []) :
    Sound ops oldContracts newContracts ↔ ∀ sinkId oldContract newContract,
      oldContracts.lookup sinkId = some oldContract →
      newContracts.lookup sinkId = some newContract → Satisfiable ops newContract →
      ∀ field, ¬ Relaxed ops oldContract newContract field := by
  constructor
  · intro hsound sinkId oldContract newContract hold hnew hsatisfiable field hrelaxed
    obtain ⟨found, hfound, hrows⟩ := hsound sinkId oldContract hold
    rw [hnew] at hfound
    cases hfound
    obtain ⟨row, haccepts, hrejects⟩ := exists_rejected hrelaxed hsatisfiable
    exact hrejects (hrows row haccepts)
  · intro hkept sinkId oldContract hold
    obtain ⟨newContract, hnew, hremoved, hchanged⟩ :=
      exists_newContract hnone (mem_of_lookup hold)
    refine ⟨newContract, hnew, ?_⟩
    intro row hrow
    exact accepts_of_not_relaxed hremoved hchanged
      (hkept sinkId oldContract newContract hold hnew (satisfiable_iff.mpr ⟨row, hrow⟩)) hrow

/-! ## One contract -/

/-- Operations for texts and dates that print and parse nothing else. -/
def plainContractOps : ContractOps where
  sprint _ := ""
  scanFloat _ := 0
  unmarshalObject _ := .error "unexpected end of JSON input"
  isRfc3339 text := decide (text = "2026-01-01T00:00:00Z")
  newYear := by decide

/-- A contract with one text field, required. -/
def requiredContract : DataContracts := [("out", [("f", .string "string")])]

/-- The same contract with one more field. -/
def extendedContract : DataContracts :=
  [("out", [("f", .string "string"), ("g", .string "number?")])]

/-- The same contract with the field optional. -/
def optionalContract : DataContracts := [("out", [("f", .string "string?")])]

/-- A field more is no break, and the comparison is sound. -/
theorem compareContracts_sound_iff_extended :
    Sound plainContractOps requiredContract extendedContract ↔
      ∀ sinkId oldContract newContract, requiredContract.lookup sinkId = some oldContract →
        extendedContract.lookup sinkId = some newContract →
        Satisfiable plainContractOps newContract →
        ∀ field, ¬ Relaxed plainContractOps oldContract newContract field :=
  compareContracts_sound_iff (by decide)

/-- **A field that was required is optional now**: the comparison reports no break, and a row
without the field is accepted where it was rejected. -/
theorem compareContracts_unsound :
    compareContracts plainContractOps requiredContract optionalContract = [] ∧
      ¬ Sound plainContractOps requiredContract optionalContract := by
  refine ⟨by decide, ?_⟩
  intro hsound
  obtain ⟨newContract, hnew, hrows⟩ := hsound "out" [("f", .string "string")] rfl
  cases hnew
  have hrow := hrows [] (accepts_iff_contractProblems.mpr (by decide))
  exact absurd (accepts_iff_contractProblems.mp hrow) (by decide)

end Dataflow.Api
