import Dataflow.Connectors.Values
import Dataflow.Library.Results
import Dataflow.Model.Marshal

/-!
# `MergeArrays`: the inputs of a merge

A merge puts arrays of records one after the other, with or without those it has seen, or joins the
first two of them on a key.

* `mergeArrays`: the code, with one definition for each strategy.
* `Rendering`: what Go makes of values as text.

Source: `transforms.go` `MergeArrays`
-/

namespace Dataflow.Connectors

open Activities Library Model

/-! ## Rows -/

/-- The texts of values: `fmt.Sprint`, and the numbers of `json.Marshal`. -/
structure Rendering extends Conversions where
  numbers : NumberTexts

/-- A rendering for values that are texts or `null`, which Go makes nothing else of. -/
def textRendering : Rendering where
  sprint _ := ""
  scanFloat _ := 0
  parseFloat _ := 0
  quote text := text
  numbers := quotientTexts

section code

variable (rendering : Rendering)

/-- `raw.(map[string]interface{})`, which ends the activity with an error if the value is no map. -/
def asRow (raw : Json) : Except String JsonMap :=
  match raw.asObject? with
  | some row => .ok row
  | none => .error "interface conversion: interface {} is not map[string]interface {}"

/-- The loop of the strategy `union`: rows that have not been seen. -/
def unionRows : (seen : List String) → List Json → List Json
  | _, [] => []
  | seen, row :: rows =>
    let key := marshal rendering.numbers row
    if key ∈ seen then unionRows seen rows else row :: unionRows (key :: seen) rows

/-- The loop of the strategy `appendWithSourceTag`. -/
def tagRows : (i : ℕ) → List (List Json) → Except String (List Json)
  | _, [] => .ok []
  | i, array :: arrays => do
      let tagged ← array.mapM fun raw => (asRow raw).map fun row => Json.object (row.set "_source" (.number i))
      let rest ← tagRows (i + 1) arrays
      return tagged ++ rest

/-- The text of a row's join key. -/
def joinText (joinKey : String) (row : JsonMap) : String :=
  stringValue rendering.toFormatting (row.get joinKey)

/-- `index(rows)[key]`: of rows with one text the last one. -/
def indexRow (joinKey : String) (rows : List JsonMap) (key : String) : Option JsonMap :=
  rows.reverse.find? fun row => joinText rendering joinKey row = key

/-- The keys of `index(rows)`. -/
def indexKeys (joinKey : String) (rows : List JsonMap) : List String :=
  (rows.map (joinText rendering joinKey)).dedup

/-- The keys of a join in their order. -/
def joinKeys (strategy joinKey : String) (a b : List JsonMap) : List String :=
  if strategy = "outerJoin" then
    (indexKeys rendering joinKey a ++
      (indexKeys rendering joinKey b).filter fun key => (indexRow rendering joinKey a key).isNone).mergeSort
        fun key key' => decide (key ≤ key')
  else a.map (joinText rendering joinKey)

/-- The fields of both rows, those of the right one over those of the left one. -/
def mergeRow (left right : Option JsonMap) : JsonMap :=
  let assign (row : JsonMap) (entry : String × Json) := row.set entry.1 entry.2
  (right.getD []).foldl assign ((left.getD []).foldl assign [])

/-- The rows of a join. -/
def joinRows (strategy joinKey : String) (a b : List JsonMap) : List Json :=
  (joinKeys rendering strategy joinKey a b).filterMap fun key =>
    let left := indexRow rendering joinKey a key
    let right := indexRow rendering joinKey b key
    if strategy = "innerJoin" ∧ right.isNone then none else some (.object (mergeRow left right))

/-- Source: `transforms.go` `MergeArrays`. -/
def mergeArrays (strategy : String) (arrays : List (List Json)) (joinKey : String) :
    Except String (List Json) :=
  let strategy := if strategy = "" then "concat" else strategy
  if strategy = "concat" then .ok arrays.flatten
  else if strategy = "union" then .ok (unionRows rendering [] arrays.flatten)
  else if strategy = "appendWithSourceTag" then tagRows 0 arrays
  else if joinKey = "" then .error ("merge strategy " ++ rendering.quote strategy ++ " requires a joinKey")
  else do
    let a ← (arrays.getD 0 []).mapM asRow
    let b ← (arrays.getD 1 []).mapM asRow
    return joinRows rendering strategy joinKey a b

end code

/-- Arrays are put one after the other. -/
theorem mergeArrays_concat {rendering : Rendering} {strategy joinKey : String}
    {arrays : List (List Json)} (h : strategy = "" ∨ strategy = "concat") :
    mergeArrays rendering strategy arrays joinKey = .ok arrays.flatten := by
  rcases h with rfl | rfl
  · rfl
  · rfl

end Dataflow.Connectors
