import Mathlib.Data.List.DropRight

/-!
# Which fields a projection reads

A map of a pipeline is an expression that gives an object. The lineage takes the fields that go into
each of the fields of the object from the text of the expression.

* `jsTrim`: `trim` of the language.
* `splitProjectionFields`, `deriveMapFieldLineage`: the code.

Source: `safe-expression.ts`
-/

namespace Dataflow.Shared

/-! ## Blanks -/

/-- White space and line ends, as `trim` and `\s` have them. -/
def isJsSpace (c : Char) : Bool :=
  c ∈ ['\t', '\n', '\x0b', '\x0c', '\r', ' ', '\u00a0', '\u1680', '\u2028', '\u2029', '\u202f',
    '\u205f', '\u3000', '\ufeff'] || (0x2000 ≤ c.toNat && c.toNat ≤ 0x200a)

/-- `trim`, of characters. -/
def jsTrimChars (text : List Char) : List Char :=
  (text.dropWhile isJsSpace).rdropWhile isJsSpace

/-- `trim`. -/
def jsTrim (text : String) : String := .ofList (jsTrimChars text.toList)

/-! ## The code -/

/-- Source: `safe-expression.ts` `MapFieldLineage`. -/
structure MapFieldLineage where
  outputField : String
  inputFields : List String
  deriving DecidableEq

/-- What is between the first brace and the last one, of a text that is an object. The pattern is
`^\(?\s*\{([\s\S]*)\}\s*\)?$`. -/
def objectBody (text : List Char) : Option (List Char) :=
  let front := if text.head? = some '(' then text.tail else text
  match front.dropWhile isJsSpace with
  | '\x7b' :: rest =>
    let back := if rest.getLast? = some ')' then rest.dropLast else rest
    let inner := back.rdropWhile isJsSpace
    if inner.getLast? = some '\x7d' then some inner.dropLast else none
  | _ => none

/-- The loop of `splitProjectionFields`; `field` is what has been read since the last comma. -/
def splitFrom : (quote : Option Char) → (escaped : Bool) → (depth : ℤ) → (field : List Char) →
    List Char → List (List Char)
  | _, _, _, field, [] => [field]
  | quote, true, depth, field, ch :: body => splitFrom quote false depth (field ++ [ch]) body
  | some quote, false, depth, field, ch :: body =>
    if ch = '\\' then splitFrom (some quote) true depth (field ++ [ch]) body
    else if ch = quote then splitFrom none false depth (field ++ [ch]) body
    else splitFrom (some quote) false depth (field ++ [ch]) body
  | none, false, depth, field, ch :: body =>
    if ch = '\'' ∨ ch = '"' then splitFrom (some ch) false depth (field ++ [ch]) body
    else if ch = '(' then splitFrom none false (depth + 1) (field ++ [ch]) body
    else if ch = ')' then splitFrom none false (depth - 1) (field ++ [ch]) body
    else if ch = ',' ∧ depth = 0 then field :: splitFrom none false depth [] body
    else splitFrom none false depth (field ++ [ch]) body

/-- Source: `safe-expression.ts` `splitProjectionFields`. -/
def splitProjectionFields (body : List Char) : List (List Char) :=
  ((splitFrom none false 0 [] body).map jsTrimChars).filter (· ≠ [])

/-- `\w`. -/
def isJsWord (c : Char) : Bool := c.isAlphanum || c = '_'

/-- `[A-Za-z_$]`. -/
def isNameStart (c : Char) : Bool := c.isAlpha || c = '_' || c = '$'

/-- `[A-Za-z0-9_$.]`. -/
def isPathChar (c : Char) : Bool := c.isAlphanum || c = '_' || c = '$' || c = '.'

/-- A match of `\br\.([A-Za-z_$][A-Za-z0-9_$.]*)` at the start of a text, behind a character. -/
def memberAt (previous : Option Char) : List Char → Option (List Char)
  | 'r' :: '.' :: c :: text =>
    if previous.any isJsWord = false ∧ isNameStart c then some (c :: text.takeWhile isPathChar)
    else none
  | _ => none

/-- `matchAll`; `skip` characters belong to the match before. -/
def memberPaths : (previous : Option Char) → (skip : ℕ) → List Char → List (List Char)
  | _, _, [] => []
  | _, skip + 1, c :: text => memberPaths (some c) skip text
  | previous, 0, c :: text =>
    match memberAt previous (c :: text) with
    | some path => path :: memberPaths (some c) (path.length + 1) text
    | none => memberPaths (some c) 0 text

/-- `replace(/^['"]|['"]$/g, '')`. -/
def stripQuotes (text : List Char) : List Char :=
  let isQuote := fun c : Char => c = '\'' || c = '"'
  let front := if text.head?.any isQuote then text.tail else text
  if front.getLast?.any isQuote then front.dropLast else front

/-- The lineage of one field. -/
def fieldLineage (field : List Char) : Except String MapFieldLineage :=
  let name := field.takeWhile (· ≠ ':')
  if name = [] ∨ ':' ∉ field then
    .error ("invalid map projection field \"" ++ .ofList field ++ "\"")
  else
    .ok
      { outputField := .ofList (stripQuotes (jsTrimChars name))
        inputFields :=
          ((memberPaths none 0 (field.drop (name.length + 1))).map String.ofList).eraseDups }

/-- Source: `safe-expression.ts` `deriveMapFieldLineage`. -/
def deriveMapFieldLineage (expression : String) : Except String (List MapFieldLineage) :=
  match objectBody (jsTrimChars expression.toList) with
  | none => .ok []
  | some body => (splitProjectionFields body).mapM fieldLineage

end Dataflow.Shared
