import Dataflow.Activities.ConnectorState
import Mathlib.Data.Rat.Floor

/-!
# Values of connector configurations

Connectors read their configuration from a map of decoded JSON values, and check the names that go
into the text of a query.

* `trimSpace`, `splitText`, `keyFields`: texts.
* `number`, `firstNumber`, `truncate`, `boundedPageSize`: numbers; `boundedPageSize_bounds` says
  that a page has a row at least.
* `isIdentifier`, `quoteIdentifier`, `quotePath`, `isSnowflakePath`: the names that are accepted.
* `RangeFields`: the order in which Go visits the fields of a map.
* `JsonSourceParams`, `JsonSourceResult`: what a connector is called with and what it gives back,
  where cursors and records are decoded JSON.

Source: `transforms.go`, `http.go`, `databases.go`, `runtime.go`
-/

namespace Dataflow.Connectors

open Activities Model

/-! ## Texts -/

/-- Go's `strings.TrimSpace`. -/
def trimSpace (text : String) : String :=
  .ofList ((text.toList.dropWhile isSpace).reverse.dropWhile isSpace).reverse

/-- Go's `strings.Split` at a single character. -/
def splitText (separator : Char) (text : String) : List String :=
  (text.toList.splitOn separator).map .ofList

/-- Source: `transforms.go` `keyFields`, `DedupeKeyFields`. -/
def keyFields (formatting : Formatting) : Json → List String
  | .array items => items.map fun item => trimSpace (stringValue formatting item)
  | value =>
    ((splitText ',' (stringValue formatting value)).map trimSpace).filter fun part => part ≠ ""

/-! ## Numbers -/

/-- `Formatting` with `strconv.ParseFloat`, zero when it fails, and the verb `%q`. -/
structure Conversions extends Formatting where
  parseFloat : String → ℚ
  quote : String → String

/-- Source: `transforms.go` `number`; a decoded number is a `float64`. -/
def number (conversions : Conversions) : Json → ℚ
  | .number value => value
  | .string text => conversions.parseFloat text
  | _ => 0

/-- Source: `http.go` `firstNumber`. -/
def firstNumber (conversions : Conversions) : List Json → ℚ
  | [] => 0
  | value :: values =>
    if number conversions value ≠ 0 then number conversions value
    else firstNumber conversions values

/-- Source: `http.go` `firstString`. -/
def firstString (formatting : Formatting) : List Json → String
  | [] => ""
  | value :: values =>
    if stringValue formatting value ≠ "" then stringValue formatting value
    else firstString formatting values

/-- Go's conversion of a `float64` to an `int`. -/
def truncate (value : ℚ) : ℤ := if value < 0 then ⌈value⌉ else ⌊value⌋

theorem truncate_natCast (n : ℕ) : truncate (n : ℚ) = n := by
  rw [truncate, if_neg (not_lt.mpr (Nat.cast_nonneg n)), Int.floor_natCast]

/-- The first of two numbers that is not zero. -/
theorem firstNumber_pair {conversions : Conversions} (x y : ℚ) :
    firstNumber conversions [.number x, .number y] = if x ≠ 0 then x else y := by
  unfold firstNumber firstNumber firstNumber number
  split_ifs with hx hy
  · rfl
  · rfl
  · exact (not_not.mp hy).symm

/-- Source: `databases.go` `boundedPageSize`. -/
def boundedPageSize (conversions : Conversions) (values : List Json) : ℕ :=
  let page := truncate (firstNumber conversions (values ++ [.number 1000]))
  if page < 1 then 1 else if 10000 < page then 10000 else page.toNat

/-- A page has between one row and 10000. -/
theorem boundedPageSize_bounds (conversions : Conversions) (values : List Json) :
    0 < boundedPageSize conversions values ∧ boundedPageSize conversions values ≤ 10000 := by
  unfold boundedPageSize
  dsimp only
  split_ifs <;> omega

/-! ## Maps -/

/-- The order in which `range` visits the fields of a map, each time that it starts. -/
structure RangeFields where
  order : ℕ → JsonMap → JsonMap
  perm : ∀ i m, (order i m).Perm m

/-- The order in which the fields are listed. -/
def plainFields : RangeFields := ⟨fun _ m => m, fun _ _ => List.Perm.refl _⟩

/-! ## Calls -/

/-- Source: `runtime.go` `SourceParams`. -/
structure JsonSourceParams where
  config : JsonMap := []
  cursor : JsonMap := []
  ingestion : Option IngestionConfig := none

/-- Source: `runtime.go` `SourceResult`. -/
structure JsonSourceResult where
  records : List Json
  nextCursor : JsonMap
  hasMore : Bool

/-- The page size of the ingestion; the nil interface without one. -/
def JsonSourceParams.ingestionPageSize (p : JsonSourceParams) : Json :=
  (p.ingestion.map fun ingestion => Json.number ingestion.pageSize).getD .null

/-! ## Names -/

/-- `[A-Za-z_]`. -/
def isNameStart (c : Char) : Bool := c.isAlpha || c = '_'

/-- `[A-Za-z0-9_]`. -/
def isNamePart (c : Char) : Bool := isNameStart c || c.isDigit

/-- Source: `databases.go` `identifier`. -/
def isIdentifier (value : String) : Bool :=
  match value.toList with
  | [] => false
  | c :: cs => isNameStart c && cs.all isNamePart

/-- Source: `databases.go` `snowflakePath`. -/
def isSnowflakePath (value : String) : Bool := (splitText '.' value).all isIdentifier

/-- The quotation mark. -/
def quoteMark : Char := .ofNat 34

/-- The grave accent, which MySQL quotes with. -/
def graveAccent : Char := .ofNat 96

/-- A name in quotes. -/
def quoted (mark : Char) (value : String) : String := .ofList (mark :: value.toList ++ [mark])

/-- Source: `databases.go` `quoteIdentifier`. -/
def quoteIdentifier (conversions : Conversions) (value : String) : Except String String :=
  if isIdentifier value then .ok (quoted quoteMark value)
  else .error ("invalid identifier " ++ conversions.quote value)

/-- Source: `databases.go` `quotePath`. -/
def quotePath (conversions : Conversions) (value : String) : Except String String :=
  ((splitText '.' value).mapM (quoteIdentifier conversions)).map (String.intercalate ".")

/-- Go's `strings.Trim` of quotation marks. -/
def trimQuotes (value : String) : String :=
  .ofList ((value.toList.dropWhile (· = quoteMark)).reverse.dropWhile (· = quoteMark)).reverse

end Dataflow.Connectors
