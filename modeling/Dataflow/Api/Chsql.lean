import Dataflow.Connectors.Values
import Dataflow.Library.Quoting

/-!
# Package `chsql`

The package builds queries for ClickHouse from parts: values enter a query through `literal` and
`string`, names through `ident` and `jsonField`. ClickHouse reads a quoted literal with a backslash
as escape character, which `string` does not know of.

* `Rendering`: what `fmt` and `strconv` make of values and texts.
* `string`, `literal`, `compare`, `inValues`, `jsonField`, `Select`, `Select.build`: the code. A
  text is the list of its characters.
* `Token`, `read`: how ClickHouse reads a query: quoted literals, comments that start with two
  dashes, and all other characters one by one.
* `Separated`, `read_render`: **tokens that are kept apart are read as they were written**, if no
  literal has a backslash.
* `read_string_iff`, `read_literal_iff`: a literal is inert iff it is without a backslash.
* `RecordField`, `exists_of_jsonField`: a field of a record, as it is written.

Source: `chsql.go`
-/

namespace Dataflow.Api.Chsql

open Connectors Library Model List Option

/-! ## The code -/

/-- A part of a query. -/
abbrev Expr := List Char

/-- Source: `chsql.go` `Raw`. -/
def raw (sql : String) : Expr := sql.toList

/-- The quote of a literal, and the character that ClickHouse escapes with. -/
def apostrophe : Char := .ofNat 39

def backslash : Char := .ofNat 92

/-- A number as it is written: letters, digits, a point, and a sign at the start. -/
def Bare (text : String) : Prop :=
  text ≠ "" ∧ (∀ c ∈ text.toList, c.isAlphanum ∨ c = '.' ∨ c = '+' ∨ c = '-') ∧
    '-' ∉ text.toList.tail

instance (text : String) : Decidable (Bare text) :=
  @instDecidableAnd _ _ inferInstance (@instDecidableAnd _ _ (List.decidableBAll _ _) inferInstance)

/-- `fmt.Sprint` of a value that is not a string, the verb `%q`, and `float64` with
`strconv.ParseFloat` and `strconv.FormatFloat` for the format `f`. -/
structure Rendering where
  sprint : Json → String
  quote : String → String
  Float64 : Type
  decoded : ℚ → Float64
  parseFloat : String → Option Float64
  formatFloat : Float64 → String
  bare : ∀ number, Bare (formatFloat number)

/-- The pattern `^[A-Za-z_][A-Za-z0-9_.]*$`. -/
def isIdent (name : String) : Bool :=
  match name.toList with
  | [] => false
  | c :: cs => isNameStart c && cs.all fun c => isNamePart c || c = '.'

/-- Source: `chsql.go` `String`. -/
def string (v : String) : Expr :=
  apostrophe :: Quoting.double apostrophe v.toList ++ [apostrophe]

/-- `strconv.ParseBool`. -/
def parseBool (text : String) : Option Bool :=
  if text ∈ ["1", "t", "T", "true", "TRUE", "True"] then some true
  else if text ∈ ["0", "f", "F", "false", "FALSE", "False"] then some false
  else none

/-- `strconv.FormatBool`. -/
def formatBool (b : Bool) : String := if b then "true" else "false"

/-- The operators that may be compared with. -/
def comparisonOps : List String := ["=", "!=", ">", "<", ">=", "<=", "LIKE"]

/-- Source: `chsql.go` `Compare`. -/
def compare (quote : String → String) (left : Expr) (op : String) (right : Expr) :
    Except String Expr :=
  if op ∉ comparisonOps then .error ("invalid operator " ++ quote op)
  else .ok (left ++ raw " " ++ raw op ++ raw " " ++ right)

/-- Go's `strings.Join`. -/
def join (separator : String) (parts : List Expr) : Expr := (raw separator).intercalate parts

/-- Source: `chsql.go` `In`. -/
def inValues (left : Expr) (values : List Expr) : Expr :=
  left ++ raw " IN (" ++ join "," values ++ raw ")"

section rendering

variable (rendering : Rendering)

/-- `fmt.Sprint`. -/
def Rendering.text : Json → String
  | .string text => text
  | value => rendering.sprint value

/-- The value as a `float64`. -/
def Rendering.float? : Json → Option rendering.Float64
  | .number value => some (rendering.decoded value)
  | value => rendering.parseFloat (rendering.text value)

/-- The value as a boolean. -/
def Rendering.bool? : Json → Option Bool
  | .bool value => some value
  | value => parseBool (rendering.text value)

/-- Source: `chsql.go` `Ident`. -/
def ident (name : String) : Except String Expr :=
  if ¬ isIdent name then .error ("invalid identifier " ++ rendering.quote name)
  else .ok (raw "`" ++ raw name ++ raw "`")

/-- Source: `chsql.go` `Literal`. -/
def literal (kind : String) (value : Json) : Expr :=
  match kind with
  | "number" =>
    match rendering.float? value with
    | some number => raw (rendering.formatFloat number)
    | none => string (rendering.text value)
  | "boolean" =>
    match rendering.bool? value with
    | some b => raw (formatBool b)
    | none => string (rendering.text value)
  | "date" => raw "parseDateTimeBestEffort(" ++ string (rendering.text value) ++ raw ")"
  | _ => string (rendering.text value)

/-- Source: `chsql.go` `JSONField`. -/
def jsonField (column : Expr) (path kind : String) : Except String Expr :=
  if ¬ isIdent path then .error ("invalid column name " ++ rendering.quote path)
  else .ok (match kind with
    | "number" => raw "JSONExtract(" ++ column ++ raw "," ++ string path ++ raw ",'Float64')"
    | "boolean" => raw "JSONExtract(" ++ column ++ raw "," ++ string path ++ raw ",'Bool')"
    | "date" => raw "parseDateTimeBestEffortOrNull(JSONExtractString(" ++ column ++ raw "," ++
        string path ++ raw "))"
    | _ => raw "JSONExtractString(" ++ column ++ raw "," ++ string path ++ raw ")")

end rendering

/-- Source: `chsql.go` `Select`. -/
structure Select where
  columns : List Expr := []
  «from» : String := ""
  final : Bool := false
  «where» : List Expr := []
  groupBy : List Expr := []
  orderBy : List (Expr × Bool) := []
  limit : ℤ := -1
  offset : ℤ := -1
  settings : List String := []
  err : Option String := none

/-- Source: `chsql.go` `Column`. -/
def Select.column (rendering : Rendering) (s : Select) (expr : Expr) (name : String) : Select :=
  if name ≠ "" then
    match ident rendering name with
    | .error err => { s with err := some err }
    | .ok quoted => { s with columns := s.columns ++ [expr ++ raw " AS " ++ quoted] }
  else { s with columns := s.columns ++ [expr] }

/-- The words after an expression of `ORDER BY`. -/
def direction (desc : Bool) : Expr := if desc then raw " DESC" else raw " ASC"

/-- Source: `chsql.go` `Build`. -/
def Select.build (s : Select) : Except String Expr :=
  match s.err with
  | some err => .error err
  | none =>
    if s.columns = [] ∨ s.from = "" then .error "select needs at least one column and a table"
    else .ok (raw "SELECT " ++ join "," s.columns ++ raw " FROM " ++ raw s.from ++
      (if s.final then raw " FINAL" else []) ++
      (if s.where ≠ [] then raw " WHERE " ++ join " AND " s.where else []) ++
      (if s.groupBy ≠ [] then raw " GROUP BY " ++ join "," s.groupBy else []) ++
      (if s.orderBy ≠ [] then raw " ORDER BY " ++
        join "," (s.orderBy.map fun order => order.1 ++ direction order.2) else []) ++
      (if 0 ≤ s.limit then raw " LIMIT " ++ raw (toString s.limit) else []) ++
      (if 0 ≤ s.offset then raw " OFFSET " ++ raw (toString s.offset) else []) ++
      (if s.settings ≠ [] then raw " SETTINGS " ++ raw (", ".intercalate s.settings) else []))

/-! ## Reading a query -/

/-- A quoted literal with its value, or a character outside of literals and comments. -/
inductive Token where
  | char (c : Char)
  | literal (value : String)
  deriving DecidableEq

/-- The tokens of a text; `unescape` is the character that an escaped one stands for. The text has
at most as many tokens as the first argument. -/
def lex (unescape : Char → Char) : ℕ → Expr → Option (List Token)
  | _, [] => some []
  | 0, _ :: _ => none
  | fuel + 1, c :: rest =>
    if c = apostrophe then
      match Quoting.readLiteral apostrophe backslash unescape [] rest with
      | none => none
      | some (value, rest) => (lex unescape fuel rest).map (.literal (.ofList value) :: ·)
    else if c = '-' ∧ rest.head? = some '-' then lex unescape fuel (rest.dropWhile (· ≠ '\n'))
    else (lex unescape fuel rest).map (.char c :: ·)

/-- **How ClickHouse reads a query.** -/
def read (unescape : Char → Char) (text : Expr) : Option (List Token) :=
  lex unescape text.length text

/-- Tokens that are not literals. -/
def code (sql : String) : List Token := sql.toList.map .char

/-- How a token is written. -/
def Token.text : Token → Expr
  | .char c => [c]
  | .literal value => string value

/-- How tokens are written. -/
def render (tokens : List Token) : Expr := tokens.flatMap Token.text

/-- The tokens do not run into each other. -/
def Separated : List Token → Prop
  | [] => True
  | .char c :: rest => c ≠ apostrophe ∧ (c = '-' → rest.head? ≠ some (.char '-')) ∧ Separated rest
  | .literal _ :: rest => (∀ value, rest.head? ≠ some (.literal value)) ∧ Separated rest

/-- No literal among the tokens has a backslash. -/
def Plain (tokens : List Token) : Prop :=
  ∀ value, .literal value ∈ tokens → backslash ∉ value.toList

theorem apostrophe_ne_backslash : apostrophe ≠ backslash := by decide +kernel

@[simp] theorem render_nil : render [] = [] := rfl

@[simp] theorem render_cons (token : Token) (tokens : List Token) :
    render (token :: tokens) = token.text ++ render tokens := flatMap_cons

@[simp] theorem render_append (tokens tokens' : List Token) :
    render (tokens ++ tokens') = render tokens ++ render tokens' := flatMap_append

@[simp] theorem render_code (sql : String) : render (code sql) = raw sql := by
  unfold render code raw
  rw [flatMap_map]
  exact flatMap_singleton' _

/-- What is written of separated tokens does not begin with the quote of a literal, unless the first
one is a literal. -/
theorem head?_render {tokens : List Token} (hseparated : Separated tokens)
    (hhead : ∀ value, tokens.head? ≠ some (.literal value)) :
    (render tokens).head? ≠ some apostrophe := by
  cases tokens with
  | nil => simp
  | cons token rest =>
    cases token with
    | char c => simpa [Token.text] using hseparated.1
    | literal value => exact absurd rfl (hhead value)

variable (unescape : Char → Char)

/-- **Separated tokens are read as they were written.** -/
theorem lex_render {tokens : List Token} (hseparated : Separated tokens)
    (hplain : Plain tokens) {fuel : ℕ} (hfuel : tokens.length ≤ fuel) :
    lex unescape fuel (render tokens) = some tokens := by
  induction tokens generalizing fuel with
  | nil => simp [lex]
  | cons token rest ih =>
    obtain ⟨fuel, rfl⟩ : ∃ fuel', fuel = fuel' + 1 := ⟨fuel - 1, by simp at hfuel; omega⟩
    have hplain' : Plain rest := fun value hvalue => hplain value (mem_cons_of_mem _ hvalue)
    have hfuel' : rest.length ≤ fuel := by simpa using hfuel
    cases token with
    | char c =>
      obtain ⟨hc, hdash, hrest⟩ := hseparated
      have hcomment : ¬ (c = '-' ∧ (render rest).head? = some '-') := by
        rintro ⟨rfl, hhead⟩
        apply hdash rfl
        cases rest with
        | nil => simp at hhead
        | cons next rest =>
          cases next with
          | char d => simpa [Token.text] using hhead
          | literal value =>
            have hquote : apostrophe = '-' := by simpa [Token.text, string] using hhead
            exact absurd hquote (by decide +kernel)
      simp only [render_cons, Token.text, singleton_append, lex, if_neg hc,
        if_neg hcomment, ih hrest hplain' hfuel', map_some]
    | literal value =>
      obtain ⟨hhead, hrest⟩ := hseparated
      have hread : Quoting.readLiteral apostrophe backslash unescape []
          (Quoting.double apostrophe value.toList ++ apostrophe :: render rest) =
            some ([] ++ value.toList, render rest) :=
        Quoting.readLiteral_double apostrophe_ne_backslash
          (hplain value mem_cons_self) (head?_render hrest hhead) []
      simp only [render_cons, Token.text, string, cons_append, append_assoc, lex,
        if_true, hread, ih hrest hplain' hfuel', map_some, nil_append,
        String.ofList_toList]

theorem length_le_length_render (tokens : List Token) : tokens.length ≤ (render tokens).length := by
  induction tokens with
  | nil => exact le_refl _
  | cons token rest ih =>
    have hpos : 1 ≤ token.text.length := by cases token <;> simp [Token.text, string]
    rw [render_cons, length_cons, length_append]
    omega

/-- **What is written is read**, if the tokens are separated and no literal has a backslash. -/
theorem read_render {tokens : List Token} (hseparated : Separated tokens)
    (hplain : Plain tokens) : read unescape (render tokens) = some tokens :=
  lex_render unescape hseparated hplain (length_le_length_render tokens)

/-! ### Tokens in a row -/

/-- Code that runs into nothing: it has no quote and no dash. -/
def Neutral (sql : String) : Prop := ∀ c ∈ sql.toList, c ≠ apostrophe ∧ c ≠ '-'

instance (sql : String) : Decidable (Neutral sql) := List.decidableBAll _ _

variable {sql : String}

/-- Neutral code may stand before anything. -/
theorem Separated.code_append (hsql : Neutral sql) {tokens : List Token}
    (h : Separated tokens) : Separated (code sql ++ tokens) := by
  unfold Neutral at hsql
  unfold code
  generalize sql.toList = chars at hsql ⊢
  induction chars with
  | nil => exact h
  | cons c cs ih =>
    have hc := hsql c mem_cons_self
    refine ⟨hc.1, fun hdash => absurd hdash hc.2, ih ?_⟩
    exact fun d hd => hsql d (mem_cons_of_mem _ hd)

/-- Tokens are separated from those after some neutral code. -/
theorem Separated.append_code (hne : sql ≠ "") (hsql : Neutral sql)
    {tokens tokens' : List Token} (h : Separated tokens) (h' : Separated (code sql ++ tokens')) :
    Separated (tokens ++ (code sql ++ tokens')) := by
  obtain ⟨c, cs, hcs⟩ : ∃ c cs, sql.toList = c :: cs :=
    exists_cons_of_ne_nil fun hnil => hne (String.toList_eq_nil_iff.mp hnil)
  have hc := hsql c (by rw [hcs]; exact mem_cons_self)
  have hcode : code sql ++ tokens' = .char c :: (cs.map .char ++ tokens') := by
    rw [code, hcs]
    rfl
  rw [hcode] at h' ⊢
  induction tokens with
  | nil => exact h'
  | cons token rest ih =>
    have hhead : ∀ token', (rest ++ .char c :: (cs.map Token.char ++ tokens')).head? =
        some token' → token' = .char c ∨ rest.head? = some token' := by
      intro token' htoken
      cases rest with
      | nil => exact .inl (by simpa using htoken.symm)
      | cons _ _ => exact .inr htoken
    cases token with
    | char d =>
      obtain ⟨hd, hdash, hrest⟩ := h
      refine ⟨hd, fun heq hnext => ?_, ih hrest⟩
      rcases hhead _ hnext with hchar | hsame
      · exact hc.2 (Token.char.inj hchar).symm
      · exact hdash heq hsame
    | literal value =>
      obtain ⟨hlit, hrest⟩ := h
      refine ⟨fun value' hnext => ?_, ih hrest⟩
      rcases hhead _ hnext with hchar | hsame
      · cases hchar
      · exact hlit value' hsame

theorem separated_code (hsql : Neutral sql) : Separated (code sql) := by
  have hnil : Separated [] := trivial
  simpa using hnil.code_append hsql

/-- A number that is written is separated. -/
theorem separated_of_bare {text : String} (h : Bare text) : Separated (code text) := by
  obtain ⟨-, hchars, htail⟩ := h
  unfold code
  have hquote : ∀ c ∈ text.toList, c ≠ apostrophe := by
    rintro c hc rfl
    exact absurd (hchars _ hc) (by decide +kernel)
  cases hcs : text.toList with
  | nil => trivial
  | cons c cs =>
    rw [hcs] at htail hquote
    refine ⟨hquote c mem_cons_self, fun _ hnext => ?_, ?_⟩
    · rw [head?_map, map_eq_some_iff] at hnext
      obtain ⟨d, hd, heq⟩ := hnext
      rw [Token.char.inj heq] at hd
      exact htail (mem_of_head? hd)
    · have hneutral : Neutral (String.ofList cs) := by
        intro d hd
        rw [String.toList_ofList] at hd
        refine ⟨hquote d (mem_cons_of_mem _ hd), ?_⟩
        rintro rfl
        exact htail hd
      simpa [code] using separated_code hneutral

/-! ### Literals -/

/-- The first token of a quoted text, before some code without quotes. -/
theorem lex_string (v : String) {rest : Expr} (hrest : apostrophe ∉ rest)
    (fuel : ℕ) {tokens : List Token}
    (h : lex unescape (fuel + 1) (string v ++ rest) = some (.literal v :: tokens)) :
    backslash ∉ v.toList := by
  simp only [string, cons_append, append_assoc, nil_append, lex, if_true] at h
  split at h
  · cases h
  · rename_i value rest' hread
    obtain ⟨tokens', -, heq⟩ := map_eq_some_iff.mp h
    obtain ⟨hvalue, -⟩ := cons.inj heq
    have hv : value = v.toList := by
      rw [← String.toList_ofList (l := value), Token.literal.inj hvalue]
    rw [hv] at hread
    exact (Quoting.readLiteral_double_iff apostrophe_ne_backslash hrest).mp ⟨rest', hread⟩

theorem plain_literal {v : String} (h : backslash ∉ v.toList) : Plain [.literal v] := by
  intro value hvalue
  rw [Token.literal.inj (mem_singleton.mp hvalue)]
  exact h

/-- **A text is inert iff it is without a backslash.** -/
theorem read_string_iff (v : String) :
    read unescape (string v) = some [.literal v] ↔ backslash ∉ v.toList := by
  constructor
  · intro h
    have hlength : (string v).length =
        (Quoting.double apostrophe v.toList ++ [apostrophe]).length + 1 :=
      rfl
    rw [read, hlength, ← append_nil (string v)] at h
    exact lex_string unescape v (by simp) _ h
  · intro h
    have hseparated : Separated [.literal v] := ⟨by simp, trivial⟩
    have hread := read_render unescape hseparated (plain_literal h)
    simpa [Token.text] using hread

/-- What a value is meant to be read as: a number or a boolean, a text, or a date. -/
inductive Value where
  | bare (text : String) (h : Bare text)
  | text (v : String)
  | date (v : String)

/-- Its tokens. -/
def Value.tokens : Value → List Token
  | .bare number _ => code number
  | .text v => [.literal v]
  | .date v => code "parseDateTimeBestEffort(" ++ .literal v :: code ")"

/-- The texts that are quoted. -/
def Value.texts : Value → List String
  | .bare _ _ => []
  | .text v | .date v => [v]

theorem bare_formatBool (b : Bool) : Bare (formatBool b) := by cases b <;> decide

/-- The value that `literal` writes. -/
def Rendering.value (rendering : Rendering) (kind : String) (value : Json) : Value :=
  match kind with
  | "number" =>
    match rendering.float? value with
    | some number => .bare (rendering.formatFloat number) (rendering.bare number)
    | none => .text (rendering.text value)
  | "boolean" =>
    match rendering.bool? value with
    | some b => .bare (formatBool b) (bare_formatBool b)
    | none => .text (rendering.text value)
  | "date" => .date (rendering.text value)
  | _ => .text (rendering.text value)

/-- **`literal` writes the tokens of the value.** -/
theorem literal_eq_render (rendering : Rendering) (kind : String) (value : Json) :
    literal rendering kind value = render (rendering.value kind value).tokens := by
  unfold literal Rendering.value
  split
  · cases rendering.float? value <;> simp [Value.tokens, Token.text]
  · cases rendering.bool? value <;> simp [Value.tokens, Token.text]
  · simp [Value.tokens, Token.text]
  · simp [Value.tokens, Token.text]

theorem Value.separated (value : Value) : Separated value.tokens := by
  cases value with
  | bare text h => exact separated_of_bare h
  | text v => exact ⟨by simp, trivial⟩
  | date v =>
    apply Separated.code_append (by decide +kernel)
    refine ⟨?_, separated_code (by decide +kernel)⟩
    intro value hhead
    have hparen : (Token.char ')') = .literal value := some.inj hhead
    cases hparen

theorem not_literal_mem_code {sql v : String} : Token.literal v ∉ code sql := by
  unfold code
  simp

theorem Value.mem_tokens {value : Value} {v : String} :
    Token.literal v ∈ value.tokens ↔ v ∈ value.texts := by
  cases value with
  | bare text h => simp [Value.tokens, Value.texts, not_literal_mem_code]
  | text w => simp [Value.tokens, Value.texts]
  | date w => simp [Value.tokens, Value.texts, not_literal_mem_code]

/-- Neutral code is read as it is. -/
theorem lex_code_append (hsql : Neutral sql) (rest : Expr)
    (fuel : ℕ) : lex unescape (sql.toList.length + fuel) (raw sql ++ rest) =
      (lex unescape fuel rest).map (code sql ++ ·) := by
  unfold Neutral at hsql
  unfold raw code
  generalize sql.toList = chars at hsql ⊢
  induction chars with
  | nil => simp
  | cons c cs ih =>
    have hc := hsql c mem_cons_self
    have hrest := ih fun d hd => hsql d (mem_cons_of_mem _ hd)
    have hfuel : (c :: cs).length + fuel = (cs.length + fuel) + 1 := by
      rw [length_cons]
      omega
    rw [hfuel, cons_append, lex, if_neg hc.1, if_neg fun h => hc.2 h.1, hrest, Option.map_map]
    rfl

/-- **A literal is inert iff its text is without a backslash**: it is then read as the value that is
meant, and as nothing else. -/
theorem read_literal_iff (rendering : Rendering) (kind : String) (value : Json) :
    read unescape (literal rendering kind value) = some (rendering.value kind value).tokens ↔
      ∀ v ∈ (rendering.value kind value).texts, backslash ∉ v.toList := by
  rw [literal_eq_render]
  generalize rendering.value kind value = meant
  constructor
  · intro h v hv
    cases meant with
    | bare text hbare => cases hv
    | text w =>
      rw [mem_singleton.mp hv]
      apply (read_string_iff unescape w).mp
      simpa [Value.tokens, Token.text] using h
    | date w =>
      rw [mem_singleton.mp hv]
      have htokens : render (Value.date w).tokens =
          raw "parseDateTimeBestEffort(" ++ (string w ++ raw ")") := by
        simp [Value.tokens, Token.text]
      have hlength : (raw "parseDateTimeBestEffort(" ++ (string w ++ raw ")")).length =
          "parseDateTimeBestEffort(".toList.length + ((string w).length + 1) := by
        simp only [length_append, raw]
        rfl
      rw [read, htokens, hlength, lex_code_append unescape (by decide +kernel)] at h
      obtain ⟨tokens, hlex, heq⟩ := map_eq_some_iff.mp h
      rw [append_cancel_left heq] at hlex
      exact lex_string unescape w (by decide +kernel) _ hlex
  · intro h
    apply read_render unescape meant.separated
    intro v hv
    exact h v (Value.mem_tokens.mp hv)

/-! ### Fields -/

/-- A field of a record. -/
structure RecordField where
  path : String
  kind : String
  ident : isIdent path = true

/-- Its tokens. -/
def RecordField.tokens (f : RecordField) : List Token :=
  match f.kind with
  | "number" => code "JSONExtract(record," ++
      .literal f.path :: (code "," ++ .literal "Float64" :: code ")")
  | "boolean" => code "JSONExtract(record," ++
      .literal f.path :: (code "," ++ .literal "Bool" :: code ")")
  | "date" => code "parseDateTimeBestEffortOrNull(JSONExtractString(record," ++
      .literal f.path :: code "))"
  | _ => code "JSONExtractString(record," ++ .literal f.path :: code ")"

/-- A field of a record is written. -/
theorem exists_of_jsonField {rendering : Rendering} {path kind : String} {e : Expr}
    (h : jsonField rendering (raw "record") path kind = .ok e) :
    ∃ f : RecordField, e = render f.tokens := by
  unfold jsonField at h
  split_ifs at h with hident
  refine ⟨⟨path, kind, hident⟩, (Except.ok.inj h).symm.trans ?_⟩
  unfold RecordField.tokens
  split
  · rfl
  · rfl
  · rfl
  · rfl

end Dataflow.Api.Chsql
