import Dataflow.Connectors.MergeArrays
import Dataflow.Library.Replace
import Dataflow.Library.TopLevel
import Mathlib.Data.List.TakeWhile

/-!
# Map expressions

The expression of `transform.map` is a projection `({ key: expression, … })`, or any other
expression.

* `Scan`, `splitProjection`: the scanner that cuts a projection at its commas. It knows quotation
  marks and parentheses, but no escapes, brackets or braces.
* `stripped`: the text without blanks, and without a parenthesis at its beginning and one at its
  end.
* `ExpressionLanguage`: what is used of `expr.Compile` and `expr.Run`.
* `normalizeExpression`, `evalExpression`, `evalMap`: the code.
* `splitProjection_projection_iff`: expressions are found again iff each is without blanks around
  it, has no comma that the scanner takes for its end, and leaves the scanner as it found it.
* `evalMap_iff`: stripping keeps the value of an expression iff it takes away no single parenthesis
  and what remains is an expression.
* **`projection_faithful_iff`**: both.
* `array_in_projection`: an expression that is an array.

Source: `transforms.go`, `expr-lang/expr` (`parser/lexer`, `parser`)
-/

namespace Dataflow.Connectors

open Library Library.TopLevel Model List Option

/-! ## Cutting a projection -/

/-- The character of single quotation marks. -/
def singleQuote : Char := .ofNat 39

/-- What the scanner knows: the quotation mark it is inside of, and how many parentheses are
open. -/
structure Scan where
  quote : Option Char := none
  depth : ℤ := 0
deriving DecidableEq, Repr

/-- One character, unless it is a comma at which the projection is cut. -/
def Scan.next (scan : Scan) (ch : Char) : Scan :=
  match scan.quote with
  | some quote => if ch = quote then { scan with quote := none } else scan
  | none =>
    if ch = singleQuote ∨ ch = quoteMark then { scan with quote := some ch }
    else if ch = '(' then { scan with depth := scan.depth + 1 }
    else if ch = ')' then { scan with depth := scan.depth - 1 }
    else scan

/-- Outside of quotation marks and parentheses. -/
def Scan.isTop (scan : Scan) : Bool := scan.quote = none && scan.depth = 0

/-- The loop of `splitProjection`, with the characters since `start`. -/
def splitLoop (scan : Scan) (part : List Char) : List Char → List String
  | [] => [trimSpace (.ofList part)]
  | ch :: runes =>
    match scan.quote with
    | some quote =>
      splitLoop (if ch = quote then { scan with quote := none } else scan) (part ++ [ch]) runes
    | none =>
      if ch = singleQuote ∨ ch = quoteMark then splitLoop { scan with quote := some ch } (part ++ [ch]) runes
      else if ch = '(' then splitLoop { scan with depth := scan.depth + 1 } (part ++ [ch]) runes
      else if ch = ')' then splitLoop { scan with depth := scan.depth - 1 } (part ++ [ch]) runes
      else if ch = ',' ∧ scan.depth = 0 then trimSpace (.ofList part) :: splitLoop scan [] runes
      else splitLoop scan (part ++ [ch]) runes

/-- Source: `transforms.go` `splitProjection`. -/
def splitProjection (value : String) : List String := splitLoop {} [] value.toList

/-- Characters without blanks around them. -/
def trim (text : List Char) : List Char :=
  ((text.dropWhile isSpace).reverse.dropWhile isSpace).reverse

/-- Go's `strings.TrimPrefix` of a parenthesis. -/
def dropOpening : List Char → List Char
  | [] => []
  | c :: text => if c = '(' then text else c :: text

/-- Go's `strings.TrimSuffix` of a parenthesis. -/
def dropClosing (text : List Char) : List Char :=
  if text.getLast? = some ')' then text.dropLast else text

/-- The text that `evalMap` looks at. -/
def stripped (value : String) : List Char := dropClosing (dropOpening (trim value.toList))

/-- A text in braces. -/
def inBraces (text : List Char) : Bool := text.head? = some '\x7b' && text.getLast? = some '\x7d'

/-- What is between the braces of a projection. -/
def projectionBody (value : String) : String := trimSpace (.ofList (stripped value).tail.dropLast)

/-- **The projection** of expressions. -/
def projectionText (exprs : List String) : String :=
  .ofList ('(' :: '\x7b' :: [','].intercalate (exprs.map String.toList) ++ ['\x7d', ')'])

/-! ## Evaluation -/

/-- Source: `transforms.go` `normalizeExpression`. -/
def normalizeExpression (value : List Char) : List Char :=
  Replace.replaceAll "records.length".toList "len(records)".toList
    (Replace.replaceAll "===".toList "==".toList (Replace.replaceAll "!==".toList "!=".toList value))

/-- **The expression language**: a text has tokens, which are compiled for the types of a record and
run with it. Blanks around a text are no tokens, a parenthesis is a token of its own unless it ends
a comment, what compiles has as many opening as closing parentheses, and parentheses around an
expression keep its value. -/
structure ExpressionLanguage where
  Token : Type
  Program : Type
  Value : Type
  [decEq : DecidableEq Token]
  opening : Token
  closing : Token
  tokens : List Char → Option (List Token)
  compile : Json → List Token → Option Program
  run : Json → Program → Option Value
  message : Json → List Char → String
  opening_ne_closing : opening ≠ closing
  tokens_space_cons : ∀ c text, isSpace c = true → tokens (c :: text) = tokens text
  tokens_append_space : ∀ c text, isSpace c = true → tokens (text ++ [c]) = tokens text
  tokens_opening : ∀ text, tokens ('(' :: text) = (tokens text).map (opening :: ·)
  tokens_closing : ∀ text, tokens (text ++ [')']) = tokens text ∨
    tokens (text ++ [')']) = (tokens text).map (· ++ [closing])
  balanced : ∀ record ts program, compile record ts = some program → ts.count opening = ts.count closing
  parentheses : ∀ record ts program inner, compile record (opening :: ts ++ [closing]) = some program →
    compile record ts = some inner → run record inner = run record program

instance (language : ExpressionLanguage) : DecidableEq language.Token := language.decEq

section evaluation

variable (language : ExpressionLanguage) (conversions : Conversions)

/-- `expr.Compile`. -/
def ExpressionLanguage.program (record : Json) (text : List Char) : Option language.Program :=
  (language.tokens (normalizeExpression text)).bind (language.compile record)

/-- Source: `transforms.go` `evalExpression`, for one record. -/
def evalExpression (value : List Char) (record : Json) : Except String language.Value :=
  match (language.program record value).bind (language.run record) with
  | some result => .ok result
  | none => .error (language.message record value)

/-- `^[A-Za-z_$][A-Za-z0-9_$-]*$`. -/
def isProjectionKey (key : List Char) : Bool :=
  match key with
  | [] => false
  | c :: rest => (isNameStart c || c = '$') && rest.all fun d => isNamePart d || d = '$' || d = '-'

/-- What a map expression gives. -/
inductive Mapped (Value : Type) where
  | value (result : Value)
  | fields (out : List (String × Value))

/-- The loop over the fields of a projection. -/
def projectFields (record : Json) :
    (fields : List String) → (out : List (String × language.Value)) →
    Except String (List (String × language.Value))
  | [], out => .ok out
  | field :: fields, out => do
      let before := field.toList.takeWhile (· ≠ ':')
      if before = [] ∨ before = field.toList then
        throw ("invalid map projection field " ++ conversions.quote field)
      let inMarks (c : Char) : Bool := c = singleQuote || c = quoteMark
      let key := (((trim before).dropWhile inMarks).reverse.dropWhile inMarks).reverse
      if ¬ isProjectionKey key then throw ("invalid projection key " ++ conversions.quote (.ofList key))
      let value ← evalExpression language (trim (field.toList.drop (before.length + 1))) record
      projectFields record fields (out.filter (·.1 ≠ .ofList key) ++ [(.ofList key, value)])

/-- Source: `transforms.go` `evalMap`. -/
def evalMap (value : String) (record : Json) : Except String (Mapped language.Value) :=
  if inBraces (stripped value) then
    (projectFields language conversions record (splitProjection (projectionBody value)) []).map .fields
  else (evalExpression language (stripped value) record).map .value

end evaluation

/-! ## What is asked of both -/

/-- **Expressions that are found again.** -/
def Splittable (exprs : List String) : Prop :=
  (∀ e ∈ exprs, trimSpace e = e) ∧ Separable ',' Scan.isTop Scan.next {} (exprs.map String.toList)

instance (exprs : List String) : Decidable (Splittable exprs) :=
  inferInstanceAs (Decidable (_ ∧ Separable _ _ _ _ _))

/-- **Stripping takes away no single parenthesis**, and what remains of an expression in parentheses
is an expression. A parenthesis at the end that is in a comment counts for nothing. -/
def StripsEvenly (language : ExpressionLanguage) (value : String) (record : Json) : Prop :=
  let text := trim value.toList
  if text.head? = some '(' then
    text.tail.getLast? = some ')' ∧ (language.program record text.tail.dropLast).isSome
  else
    text.getLast? = some ')' →
      language.tokens (normalizeExpression text) = language.tokens (normalizeExpression text.dropLast)

/-! ## Blanks -/

section trim

theorem trimSpace_eq (text : String) : trimSpace text = .ofList (trim text.toList) := rfl

variable (text : List Char)

theorem length_trim_le : (trim text).length ≤ text.length := by
  rw [trim, length_reverse]
  refine (dropWhile_suffix _).length_le.trans ?_
  rw [length_reverse]
  exact (dropWhile_suffix _).length_le

theorem dropWhile_eq_self_iff {text : List Char} :
    text.dropWhile isSpace = text ↔ ∀ c ∈ text.head?, isSpace c = false := by
  cases text with
  | nil => simp
  | cons c text =>
    rw [dropWhile_cons]
    by_cases hc : isSpace c = true
    · rw [if_pos hc]
      refine iff_of_false ?_ ?_
      · intro h
        have hlength := (dropWhile_suffix isSpace (l := text)).length_le
        rw [h, length_cons] at hlength
        omega
      · intro h
        simp [h c rfl] at hc
    · rw [if_neg hc]
      simpa using hc

/-- **A text without blanks around it.** -/
theorem trim_eq_self_iff {text : List Char} :
    trim text = text ↔ (∀ c ∈ text.head?, isSpace c = false) ∧
    ∀ c ∈ text.getLast?, isSpace c = false := by
  rw [← head?_reverse, ← dropWhile_eq_self_iff, ← dropWhile_eq_self_iff]
  constructor
  · intro h
    have hfirst := (dropWhile_suffix isSpace (l := text)).length_le
    have hlast := (dropWhile_suffix isSpace (l := (text.dropWhile isSpace).reverse)).length_le
    have hlength := congrArg List.length h
    rw [length_reverse] at hlast
    rw [trim, length_reverse] at hlength
    have hdrop : text.dropWhile isSpace = text :=
      (dropWhile_suffix isSpace).eq_of_length (by omega)
    rw [hdrop] at hlength
    exact ⟨hdrop, (dropWhile_suffix isSpace).eq_of_length (by rw [length_reverse]; exact hlength)⟩
  · rintro ⟨hfirst, hlast⟩
    rw [trim, hfirst, hlast, reverse_reverse]

/-- Blanks and what is between them. -/
theorem exists_trim : ∃ before after : List Char, text = before ++ trim text ++ after ∧
    (∀ c ∈ before, isSpace c = true) ∧ ∀ c ∈ after, isSpace c = true := by
  refine ⟨text.takeWhile isSpace, ((text.dropWhile isSpace).reverse.takeWhile isSpace).reverse, ?_, ?_, ?_⟩
  · rw [append_assoc, trim, ← reverse_append, takeWhile_append_dropWhile,
      reverse_reverse, takeWhile_append_dropWhile]
  · exact fun c hc => mem_takeWhile_imp hc
  · exact fun c hc => mem_takeWhile_imp (mem_reverse.mp hc)

theorem length_trim (h : (trim text).length = text.length) : trim text = text := by
  obtain ⟨before, after, htext, -, -⟩ := exists_trim text
  have hlength := congrArg List.length htext
  rw [length_append, length_append] at hlength
  have hbefore : before = [] := eq_nil_of_length_eq_zero (by omega)
  have hafter : after = [] := eq_nil_of_length_eq_zero (by omega)
  rw [hbefore, hafter, nil_append, append_nil] at htext
  exact htext.symm

theorem head?_dropWhile : ∀ c ∈ (text.dropWhile isSpace).head?, isSpace c = false := by
  intro c hc
  have hnot := head?_dropWhile_not isSpace text
  rw [mem_def.mp hc] at hnot
  exact hnot

theorem trim_trim : trim (trim text) = trim text := by
  rw [trim_eq_self_iff]
  refine ⟨?_, ?_⟩
  · -- the first character is that of the text without the blanks before it
    have hfirst : text.dropWhile isSpace =
        trim text ++ ((text.dropWhile isSpace).reverse.takeWhile isSpace).reverse := by
      rw [trim, ← reverse_append, takeWhile_append_dropWhile, reverse_reverse]
    intro c hc
    apply head?_dropWhile text c
    rw [hfirst]
    cases htrim : trim text with
    | nil =>
      simp [htrim] at hc
    | cons d rest =>
      rw [htrim] at hc
      exact hc
  · rw [trim, getLast?_reverse]
    exact head?_dropWhile _

end trim

/-! ## Expressions that are found again -/

section split

/-- The first part has been read in part. -/
def withFirst (part : List Char) : List (List Char) → List (List Char)
  | [] => [part]
  | first :: parts => (part ++ first) :: parts

theorem withFirst_consFirst (part : List Char) (ch : Char) (parts : List (List Char))
    (h : parts ≠ []) :
    withFirst part (consFirst ch parts) = withFirst (part ++ [ch]) parts := by
  cases parts with
  | nil => exact absurd rfl h
  | cons first parts => simp [withFirst, consFirst]

/-- **The loop** cuts at the top level, and takes the blanks around each part away. -/
theorem splitLoop_eq (scan : Scan) (part runes : List Char) : splitLoop scan part runes =
      (withFirst part (splitTop ',' Scan.isTop Scan.next scan runes)).map fun p => trimSpace (.ofList p) := by
  induction runes generalizing scan part with
  | nil => simp [splitLoop, splitTop, withFirst]
  | cons ch runes ih =>
    have hread : ∀ next : Scan, Scan.next scan ch = next → ¬ (ch = ',' ∧ scan.isTop = true) →
        splitLoop next (part ++ [ch]) runes =
          (withFirst part (splitTop ',' Scan.isTop Scan.next scan (ch :: runes))).map
            fun p => trimSpace (.ofList p) := by
      rintro next rfl htop
      rw [splitTop, if_neg htop, withFirst_consFirst _ _ _ (splitTop_ne_nil runes), ih]
    rw [splitLoop]
    cases hquote : scan.quote with
    | some quote =>
      exact hread _ (by rw [Scan.next, hquote]) fun h => by simp [Scan.isTop, hquote] at h
    | none =>
      split_ifs with hmark hopen hclose hcomma
      · apply hread _ (by rw [Scan.next, hquote]; exact if_pos hmark)
        rintro ⟨rfl, -⟩
        exact absurd hmark (by decide)
      · apply hread _ (by rw [Scan.next, hquote]; dsimp only; rw [if_neg hmark, if_pos hopen])
        rintro ⟨rfl, -⟩
        exact absurd hopen (by decide)
      · apply hread _ (by rw [Scan.next, hquote]; dsimp only; rw [if_neg hmark, if_neg hopen, if_pos hclose])
        rintro ⟨rfl, -⟩
        exact absurd hclose (by decide)
      · rw [splitTop, if_pos ⟨hcomma.1, by simp [Scan.isTop, hquote, hcomma.2]⟩, ih]
        cases hparts : splitTop ',' Scan.isTop Scan.next scan runes with
        | nil => exact absurd hparts (splitTop_ne_nil runes)
        | cons first parts => simp [withFirst]
      · apply hread scan (by
          rw [Scan.next, hquote]
          rw [if_neg hmark, if_neg hopen, if_neg hclose])
        rintro ⟨rfl, htop⟩
        exact hcomma ⟨rfl, by simpa [Scan.isTop, hquote] using htop⟩

/-- **The parts** of a projection, without the blanks around them. -/
theorem splitProjection_eq (value : List Char) : splitProjection (.ofList value) =
      ((splitTop ',' Scan.isTop Scan.next {} value).map trim).map String.ofList := by
  rw [splitProjection, splitLoop_eq, String.toList_ofList, List.map_map]
  cases hparts : splitTop ',' Scan.isTop Scan.next {} value with
  | nil => exact absurd hparts (splitTop_ne_nil value)
  | cons first parts =>
    rw [withFirst, nil_append]
    apply map_congr_left
    intro p _
    rw [trimSpace_eq, String.toList_ofList]
    rfl

/-- The body of the projection of expressions. -/
theorem projectionBody_projectionText (exprs : List String) :
    projectionBody (projectionText exprs) =
      .ofList (trim ([','].intercalate (exprs.map String.toList))) := by
  have htrim :
      trim ('(' :: '\x7b' :: [','].intercalate (exprs.map String.toList) ++ ['\x7d', ')']) =
      '(' :: '\x7b' :: [','].intercalate (exprs.map String.toList) ++ ['\x7d', ')'] := by
    rw [trim_eq_self_iff]
    refine ⟨?_, ?_⟩
    · rintro c hc
      obtain rfl : '(' = c := some.inj hc
      decide
    · rintro c hc
      rw [getLast?_append] at hc
      obtain rfl : ')' = c := some.inj hc
      decide
  have hends : '\x7b' :: [','].intercalate (exprs.map String.toList) ++ ['\x7d', ')'] =
      ('\x7b' :: [','].intercalate (exprs.map String.toList) ++ ['\x7d']) ++ [')'] := by simp
  have hopening : ∀ text : List Char, dropOpening ('(' :: text) = text := fun _ => rfl
  rw [projectionBody, stripped, projectionText, String.toList_ofList, htrim, cons_append,
    hopening, hends, dropClosing, getLast?_concat, if_pos rfl, dropLast_concat,
    cons_append, tail_cons, dropLast_concat, trimSpace_eq, String.toList_ofList]

/-- Texts without blanks around them, put together, have none around them. -/
theorem trim_intercalate {parts : List (List Char)} (h : ∀ part ∈ parts, trim part = part) :
    trim ([','].intercalate parts) = [','].intercalate parts := by
  rw [trim_eq_self_iff]
  induction parts with
  | nil => simp
  | cons part parts ih =>
    obtain ⟨hhead, hlast⟩ := trim_eq_self_iff.mp (h part mem_cons_self)
    cases parts with
    | nil => simpa using ⟨hhead, hlast⟩
    | cons next parts =>
      obtain ⟨-, hrest⟩ := ih fun p hp => h p (mem_cons_of_mem _ hp)
      rw [intercalate_cons_cons, append_assoc]
      refine ⟨?_, ?_⟩
      · intro c hc
        cases part with
        | nil =>
          obtain rfl : ',' = c := some.inj hc
          decide
        | cons d part => exact hhead c hc
      · intro c hc
        rw [getLast?_append, getLast?_append] at hc
        cases hmore : ([','].intercalate (next :: parts)).getLast? with
        | none =>
          rw [hmore] at hc
          obtain rfl : ',' = c := some.inj hc
          decide
        | some d =>
          rw [hmore] at hc
          exact hrest c (hmore.trans hc)

/-- **Expressions are found again** in their projection iff the scanner can tell them apart. -/
theorem splitProjection_projection_iff (exprs : List String) :
    splitProjection (projectionBody (projectionText exprs)) = exprs ↔ Splittable exprs := by
  have hlists : ∀ parts : List (List Char), parts.map String.ofList = exprs ↔
      parts = exprs.map String.toList := by
    intro parts
    constructor
    · rintro rfl
      rw [List.map_map]
      exact (map_id'' (fun p => String.toList_ofList) parts).symm
    · rintro rfl
      rw [List.map_map]
      exact map_id'' (fun e => String.ofList_toList) exprs
  have htrimmed : (∀ e ∈ exprs, trimSpace e = e) ↔
      ∀ part ∈ exprs.map String.toList, trim part = part := by
    rw [List.forall_mem_map]
    apply forall₂_congr
    intro e _
    rw [trimSpace_eq, ← String.toList_inj, String.toList_ofList]
  rw [projectionBody_projectionText, splitProjection_eq, hlists, Splittable, htrimmed]
  constructor
  · intro h
    have hparts : ∀ part ∈ exprs.map String.toList, trim part = part := by
      rw [← h, List.forall_mem_map]
      exact fun part _ => trim_trim part
    rw [trim_intercalate hparts] at h
    refine ⟨hparts, splitTop_intercalate_iff.mp ?_⟩
    exact eq_of_map_eq length_trim_le length_trim (intercalate_splitTop _) h
  · rintro ⟨hparts, hseparable⟩
    rw [trim_intercalate hparts, splitTop_intercalate_iff.mpr hseparable]
    exact (map_congr_left hparts).trans (List.map_id' _)

end split

/-! ## Expressions that keep their value -/

section evaluation

variable {language : ExpressionLanguage} {record : Json} {result : language.Value}
  {ts : List language.Token}

/-- No pattern of `normalizeExpression` has the character. -/
def Unchanged (c : Char) : Prop := c ∉ "!==".toList ∧ c ∉ "===".toList ∧ c ∉ "records.length".toList

theorem unchanged_of_isSpace {c : Char} (h : isSpace c = true) : Unchanged c := by
  have hpatterns :
      ("!==".toList ++ "===".toList ++ "records.length".toList).all (fun d => !isSpace d) = true := by
    decide +kernel
  have hnot : c ∉ "!==".toList ++ "===".toList ++ "records.length".toList := by
    intro hc
    have hspace := List.all_eq_true.mp hpatterns c hc
    simp [h] at hspace
  rw [mem_append, mem_append, not_or, not_or] at hnot
  exact ⟨hnot.1.1, hnot.1.2, hnot.2⟩

theorem normalizeExpression_append_cons {c : Char} (h : Unchanged c) (text rest : List Char) :
    normalizeExpression (text ++ c :: rest) =
      normalizeExpression text ++ c :: normalizeExpression rest := by
  obtain ⟨hne, heq, hlength⟩ := h
  rw [normalizeExpression, Replace.replaceAll_append_cons (by decide) hne,
    Replace.replaceAll_append_cons (by decide) heq, Replace.replaceAll_append_cons (by decide) hlength]
  rfl

theorem normalizeExpression_cons {c : Char} (h : Unchanged c) (rest : List Char) :
    normalizeExpression (c :: rest) = c :: normalizeExpression rest :=
  normalizeExpression_append_cons h [] rest

theorem normalizeExpression_concat {c : Char} (h : Unchanged c) :
    normalizeExpression (text ++ [c]) = normalizeExpression text ++ [c] :=
  normalizeExpression_append_cons h text []

/-- The tokens of a text. -/
def ExpressionLanguage.read (language : ExpressionLanguage) (text : List Char) :
    Option (List language.Token) :=
  language.tokens (normalizeExpression text)

variable (text : List Char)

theorem program_eq :
    language.program record text = (language.read text).bind (language.compile record) := rfl

theorem read_opening :
    language.read ('(' :: text) = (language.read text).map (language.opening :: ·) := by
  rw [ExpressionLanguage.read, normalizeExpression_cons (by unfold Unchanged; decide +kernel),
    language.tokens_opening]
  rfl

theorem read_closing : language.read (text ++ [')']) = language.read text ∨
      language.read (text ++ [')']) = (language.read text).map (· ++ [language.closing]) := by
  rw [ExpressionLanguage.read, normalizeExpression_concat (by unfold Unchanged; decide +kernel)]
  exact language.tokens_closing (normalizeExpression text)

/-- Blanks around a text. -/
theorem read_trim : language.read (trim text) = language.read text := by
  obtain ⟨before, after, htext, hbefore, hafter⟩ := exists_trim text
  have hleft : ∀ (blanks rest : List Char), (∀ c ∈ blanks, isSpace c = true) →
      language.read (blanks ++ rest) = language.read rest := by
    intro blanks rest hblanks
    induction blanks with
    | nil => rfl
    | cons c blanks ih =>
      have hc := hblanks c mem_cons_self
      rw [cons_append, ExpressionLanguage.read,
        normalizeExpression_cons (unchanged_of_isSpace hc), language.tokens_space_cons c _ hc]
      exact ih fun d hd => hblanks d (mem_cons_of_mem _ hd)
  have hright : ∀ (rest blanks : List Char), (∀ c ∈ blanks, isSpace c = true) →
      language.read (rest ++ blanks) = language.read rest := by
    intro rest blanks hblanks
    induction blanks generalizing rest with
    | nil => rw [append_nil]
    | cons c blanks ih =>
      have hc := hblanks c mem_cons_self
      rw [append_cons, ih _ fun d hd => hblanks d (mem_cons_of_mem _ hd)]
      rw [ExpressionLanguage.read, normalizeExpression_concat (unchanged_of_isSpace hc),
        language.tokens_append_space c _ hc]
      rfl
  conv_rhs => rw [htext]
  rw [hright _ _ hafter, hleft _ _ hbefore]

variable {value : List Char}

theorem evalExpression_eq_ok_iff : evalExpression language value record = .ok result ↔
      ∃ ts program, language.read value = some ts ∧ language.compile record ts = some program ∧
        language.run record program = some result := by
  rw [evalExpression, program_eq]
  cases hread : language.read value with
  | none => simp
  | some ts =>
    cases hcompile : language.compile record ts with
    | none => simp [hcompile]
    | some program =>
      cases hrun : language.run record program with
      | none | some out => simp [hcompile, hrun]

theorem evalExpression_of_read (h : language.read value = some ts) :
    evalExpression language value record = .ok result ↔
      ∃ program, language.compile record ts = some program ∧ language.run record program = some result := by
  rw [evalExpression_eq_ok_iff, h]
  simp

theorem program_of_read (h : language.read value = some ts) :
    language.program record value = language.compile record ts := by
  rw [program_eq, h, bind_some]

/-- Two texts with the same tokens. -/
theorem evalExpression_congr {value other : List Char}
    (h : language.read other = language.read value)
    (hvalue : evalExpression language value record = .ok result) :
    evalExpression language other record = .ok result := by
  rw [evalExpression_eq_ok_iff] at hvalue ⊢
  rw [h]
  exact hvalue

/-- A parenthesis less at the beginning. -/
theorem compile_of_opening {program : language.Program}
    (h : language.compile record (language.opening :: ts) = some program) :
    language.compile record ts = none := by
  cases hinner : language.compile record ts with
  | none => rfl
  | some inner =>
    have hall := language.balanced _ _ _ h
    have hrest := language.balanced _ _ _ hinner
    rw [count_cons_self, count_cons_of_ne language.opening_ne_closing] at hall
    omega

/-- A parenthesis less at the end. -/
theorem compile_of_closing {program : language.Program}
    (h : language.compile record (ts ++ [language.closing]) = some program) :
    language.compile record ts = none := by
  cases hinner : language.compile record ts with
  | none => rfl
  | some inner =>
    have hall := language.balanced _ _ _ h
    have hrest := language.balanced _ _ _ hinner
    rw [count_append, count_append, count_singleton_self,
      count_singleton, if_neg (by simpa using language.opening_ne_closing.symm)] at hall
    omega

variable {value : String}

theorem stripped_of_opening {rest : List Char} (h : trim value.toList = '(' :: rest) :
    stripped value = dropClosing rest := by
  rw [stripped, h]
  rfl

theorem stripped_of_not_opening (h : (trim value.toList).head? ≠ some '(') :
    stripped value = dropClosing (trim value.toList) := by
  rw [stripped]
  cases htrim : trim value.toList with
  | nil => rfl
  | cons c text =>
    have hc : c ≠ '(' := fun heq => h (by rw [htrim, heq]; rfl)
    rw [dropOpening, if_neg hc]

/-- **Stripping keeps the value** of an expression iff it takes away no single parenthesis and
leaves an expression. -/
theorem eval_stripped_iff (hvalue : evalExpression language value.toList record = .ok result) :
    evalExpression language (stripped value) record = .ok result ↔
      StripsEvenly language value record := by
  have htext := evalExpression_congr (read_trim value.toList) hvalue
  obtain ⟨ts, program, hread, hcompile, hrun⟩ := evalExpression_eq_ok_iff.mp htext
  rw [StripsEvenly]
  by_cases hopening : (trim value.toList).head? = some '('
  · obtain ⟨rest, hrest⟩ : ∃ rest, trim value.toList = '(' :: rest := head?_eq_some_iff.mp hopening
    rw [if_pos hopening, stripped_of_opening hrest, hrest, tail_cons]
    rw [hrest, read_opening] at hread
    by_cases hclosing : rest.getLast? = some ')'
    · obtain ⟨inner, rfl⟩ := getLast?_eq_some_iff.mp hclosing
      rw [dropClosing, if_pos hclosing, dropLast_concat, and_iff_right hclosing]
      rcases read_closing inner with hcomment | htoken
      · -- the parenthesis at the end is in a comment, that at the beginning is not closed
        rw [hcomment] at hread
        obtain ⟨inside, hinside, rfl⟩ := map_eq_some_iff.mp hread
        have hnone := compile_of_opening hcompile
        rw [evalExpression_of_read hinside, program_of_read hinside, hnone]
        simp
      · rw [htoken, Option.map_map] at hread
        obtain ⟨inside, hinside, rfl⟩ := map_eq_some_iff.mp hread
        rw [evalExpression_of_read hinside, program_of_read hinside]
        cases hcompiled : language.compile record inside with
        | none => simp
        | some smaller =>
          have hsame := language.parentheses record inside program smaller hcompile hcompiled
          exact iff_of_true ⟨smaller, rfl, hsame.trans hrun⟩ rfl
    · -- a single parenthesis is taken away
      rw [dropClosing, if_neg hclosing]
      refine iff_of_false ?_ fun h => hclosing h.1
      obtain ⟨inside, hinside, rfl⟩ := map_eq_some_iff.mp hread
      rw [evalExpression_of_read hinside, compile_of_opening hcompile]
      simp
  · rw [if_neg hopening, stripped_of_not_opening hopening]
    by_cases hclosing : (trim value.toList).getLast? = some ')'
    · obtain ⟨inner, hinner⟩ := getLast?_eq_some_iff.mp hclosing
      rw [dropClosing, if_pos hclosing, imp_iff_right hclosing]
      rw [hinner] at htext hread ⊢
      rw [dropLast_concat]
      rcases read_closing inner with hcomment | htoken
      · exact iff_of_true (evalExpression_congr hcomment.symm htext) hcomment
      · rw [htoken] at hread
        obtain ⟨inside, hinside, rfl⟩ := map_eq_some_iff.mp hread
        refine iff_of_false ?_ ?_
        · rw [evalExpression_of_read hinside, compile_of_closing hcompile]
          simp
        · intro hsame
          have hread' : language.read (inner ++ [')']) = language.read inner := hsame
          rw [htoken, hinside] at hread'
          simp at hread'
    · rw [dropClosing, if_neg hclosing]
      exact iff_of_true htext fun h => absurd h hclosing

/-- **`evalMap` keeps the value** of an expression that is no projection iff stripping does. -/
theorem evalMap_iff (conversions : Conversions) (hplain : inBraces (stripped value) = false)
    (hvalue : evalExpression language value.toList record = .ok result) :
    evalMap language conversions value record = .ok (.value result) ↔
      StripsEvenly language value record := by
  rw [evalMap, if_neg (by rw [hplain]; exact Bool.false_ne_true), ← eval_stripped_iff hvalue]
  cases heval : evalExpression language (stripped value) record with
  | error message | ok out => simp [Except.map]

end evaluation

/-! ## Both -/

/-- **Projections are read faithfully** iff: expressions are found again in their projection iff the
scanner can tell them apart, and an expression that is no projection keeps its value iff it is
stripped evenly.
Source: `transforms.go` `splitProjection`, `evalMap` -/
theorem projection_faithful_iff (language : ExpressionLanguage) (conversions : Conversions)
    (exprs : List String) (value : String) (record : Json) (result : language.Value)
    (hplain : inBraces (stripped value) = false)
    (hvalue : evalExpression language value.toList record = .ok result) :
    (splitProjection (projectionBody (projectionText exprs)) = exprs ∧
      evalMap language conversions value record = .ok (.value result)) ↔
    Splittable exprs ∧ StripsEvenly language value record :=
  and_congr (splitProjection_projection_iff exprs) (evalMap_iff conversions hplain hvalue)

/-- A language of which only `r` in parentheses is used: every text gives the record. -/
def recordLanguage : ExpressionLanguage where
  Token := Char
  Program := Unit
  Value := Json
  opening := '('
  closing := ')'
  tokens text := some (text.filter fun c => ! isSpace c)
  compile _ ts := if ts.count '(' = ts.count ')' then some () else none
  run record _ := some record
  message _ _ := ""
  opening_ne_closing := by decide
  tokens_space_cons c text h := by rw [filter_cons, h]; rfl
  tokens_append_space c text h := by rw [filter_append, filter_cons, h]; simp
  tokens_opening text := rfl
  tokens_closing text := .inr (by rw [filter_append]; rfl)
  balanced _ ts _ h := by
    by_contra hne
    simp [if_neg hne] at h
  parentheses _ _ _ _ _ _ := rfl

/-- Two fields with a call in one of them, and the record in parentheses. -/
theorem projection_faithful_iff_record : let exprs := ["id: r.id", "name: concat(r.first, r.last)"]
    let record := Json.object [("id", .number 1)]
    splitProjection (projectionBody (projectionText exprs)) = exprs ∧
      evalMap recordLanguage textRendering.toConversions "(r)" record = .ok (.value record) :=
  (projection_faithful_iff recordLanguage textRendering.toConversions _ "(r)" (.object [("id", .number 1)])
    (Json.object [("id", .number 1)]) (by decide +kernel) (by rfl)).mpr ⟨by decide +kernel, by
      unfold StripsEvenly
      decide +kernel⟩

/-- **An array in a projection** is cut in two. -/
theorem array_in_projection :
    splitProjection (projectionBody (projectionText ["[1, 2]"])) ≠ ["[1, 2]"] := by
  decide +kernel

end Dataflow.Connectors
