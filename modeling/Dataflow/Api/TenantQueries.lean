import Dataflow.Api.AnalyticsQuery
import Dataflow.Api.PipelineValidation

/-!
# Queries of a tenant

What the analytics queries are meant to be: a selection from `sink_records` whose first condition is
that on the tenant, joined by `AND` with conditions that a filter can state.

* `Term`, `Column`, `Condition`, `TenantQuery`: a query as a tree, and its tokens.
* `Part`: tokens that are separated, with the texts that are quoted in them.
* `Select.Written`, `written_build`: **what is built is written from such a tree.**
* **`literals_inert_iff`**: a quoted text is read back iff it is without a backslash, and a query
  whose texts are all read back keeps the condition on the tenant.

Source: `routes_analytics.go`, `chsql.go`
-/

namespace Dataflow.Api

open Connectors Library Model Chsql List Function

/-! ## Trees -/

/-- The columns that are not fields of a record. -/
def termNames : List String :=
  ["record", "created_at", "collection", "count()", "aggregate_value", "time_bucket"]

/-- What is selected, grouped or ordered by. -/
inductive Term where
  | name (text : String) (h : text ∈ termNames)
  | bucket (interval : String) (h : interval ∈ bucketIntervals.map Prod.snd)
  | field (f : RecordField)
  | aggregate (fn : String) (h : fn ∈ aggregateFns) (f : RecordField)

/-- Its tokens. -/
def Term.tokens : Term → List Token
  | .name text _ => code text
  | .bucket interval _ => code ("toStartOfInterval(created_at, INTERVAL " ++ interval ++ ")")
  | .field f => f.tokens
  | .aggregate fn _ f => code (fn ++ "(") ++ (f.tokens ++ code ")")

/-- A term with the name it is given, if any. -/
structure Column where
  term : Term
  name : Option { name : String // isIdent name = true }

/-- Its tokens. -/
def Column.tokens (column : Column) : List Token :=
  match column.name with
  | none => column.term.tokens
  | some name => column.term.tokens ++ code (" AS `" ++ name.1 ++ "`")

/-- The conditions besides that on the tenant. -/
inductive Condition where
  | collection (name : String)
  | since (time : String)
  | before (time : String)
  | compare (f : RecordField) (op : String) (h : op ∈ comparisonOps) (value : Value)
  | oneOf (f : RecordField) (values : List Value)

/-- The tokens of a list. -/
def listTokens (separator : String) (parts : List (List Token)) : List Token :=
  (code separator).intercalate parts

/-- Its tokens. -/
def Condition.tokens : Condition → List Token
  | .collection name => code "collection=" ++ [.literal name]
  | .since time => code "created_at >= " ++ (Value.date time).tokens
  | .before time => code "created_at < " ++ (Value.date time).tokens
  | .compare f op _ value => f.tokens ++ (code (" " ++ op ++ " ") ++ value.tokens)
  | .oneOf f values => f.tokens ++ (code " IN (" ++
      (listTokens "," (values.map Value.tokens) ++ code ")"))

/-- The texts that are quoted in a condition, apart from the path of the field. -/
def Condition.texts : Condition → List String
  | .collection name => [name]
  | .since time | .before time => [time]
  | .compare _ _ _ value => value.texts
  | .oneOf _ values => values.flatMap Value.texts

/-- **A query of a tenant.** -/
structure TenantQuery where
  columns : List Column
  conditions : List Condition
  groupBy : List Term
  orderBy : List (Term × Bool)
  limit : Option ℕ
  offset : Option ℕ
  capped : Bool

/-- The tokens of the word after a term of `ORDER BY`. -/
def directionTokens (desc : Bool) : List Token := if desc then code " DESC" else code " ASC"

/-- The condition on the tenant. -/
def tenantTokens (tenantId : String) : List Token := code "tenant_id=" ++ [.literal tenantId]

/-- What comes after the conditions. -/
def TenantQuery.tail (query : TenantQuery) : List Token :=
  (if query.groupBy ≠ [] then
    code " GROUP BY " ++ listTokens "," (query.groupBy.map Term.tokens) else []) ++
  ((if query.orderBy ≠ [] then
    code " ORDER BY " ++ listTokens "," (query.orderBy.map fun order =>
      order.1.tokens ++ directionTokens order.2) else []) ++
  ((query.limit.elim [] fun n => code (" LIMIT " ++ toString n)) ++
  ((query.offset.elim [] fun n => code (" OFFSET " ++ toString n)) ++
  (if query.capped then code (" SETTINGS " ++ chMaxExecution ++ ", " ++ chMaxRows) else []))))

/-- Its tokens. -/
def TenantQuery.tokens (tenantId : String) (query : TenantQuery) : List Token :=
  code "SELECT " ++ (listTokens "," (query.columns.map Column.tokens) ++
    (code " FROM sink_records FINAL WHERE " ++
      (listTokens " AND " (tenantTokens tenantId :: query.conditions.map Condition.tokens) ++
        query.tail)))

/-- **The tokens are those of a query of the tenant.** -/
def KeepsTenant (tenantId : String) (tokens : List Token) : Prop :=
  ∃ query : TenantQuery, tokens = query.tokens tenantId

/-! ## Tokens that are separated -/

/-- Code between two parts: it runs into neither of them. -/
def Joint (sql : String) : Prop :=
  sql ≠ "" ∧ ∀ c ∈ sql.toList, c ≠ apostrophe ∧ c ≠ '-' ∧ c ≠ '*'

instance (sql : String) : Decidable (Joint sql) :=
  @instDecidableAnd _ _ inferInstance (List.decidableBAll _ _)

/-- Tokens that are separated and have no star among them, and whose literals are among some texts
or without a backslash. -/
structure Part (texts : List String) (tokens : List Token) : Prop where
  separated : Separated tokens
  texts : ∀ v, Token.literal v ∈ tokens → v ∈ texts ∨ backslash ∉ v.toList
  star : Token.char '*' ∉ tokens

variable {tenantId : String}

variable {name : String}

section parts

variable {texts : List String} {tokens tokens' : List Token} {sql : String}

theorem Joint.neutral (h : Joint sql) : Neutral sql := fun c hc => ⟨(h.2 c hc).1, (h.2 c hc).2.1⟩

theorem Joint.star (h : Joint sql) : Token.char '*' ∉ code sql := by
  unfold code
  rw [mem_map]
  rintro ⟨c, hc, heq⟩
  exact (h.2 c hc).2.2 (Token.char.inj heq)

theorem Joint.append {sql' : String} (h : Joint sql) (h' : Joint sql') : Joint (sql ++ sql') := by
  constructor
  · intro hnil
    apply h.1
    rw [← String.toList_eq_nil_iff] at hnil ⊢
    rw [String.toList_append, append_eq_nil_iff] at hnil
    exact hnil.1
  · intro c hc
    rw [String.toList_append, mem_append] at hc
    exact hc.elim (h.2 c) (h'.2 c)

theorem code_append (sql sql' : String) : code (sql ++ sql') = code sql ++ code sql' := by
  simp [code, String.toList_append]

theorem raw_append (sql sql' : String) : raw (sql ++ sql') = raw sql ++ raw sql' :=
  String.toList_append

theorem part_nil : Part texts [] := ⟨trivial, by simp, by simp⟩

theorem part_literal {v : String} (h : v ∈ texts ∨ backslash ∉ v.toList) :
    Part texts [.literal v] where
  separated := ⟨by simp, trivial⟩
  texts w hw := by
    rw [Token.literal.inj (mem_singleton.mp hw)]
    exact h
  star := by simp

/-- Code before a part. -/
theorem Part.code_append (h : Part texts tokens) (hsql : Joint sql) :
    Part texts (code sql ++ tokens) where
  separated := h.separated.code_append hsql.neutral
  texts v hv := by
    rcases mem_append.mp hv with hcode | hv
    · exact absurd hcode not_literal_mem_code
    · exact h.texts v hv
  star hstar := by
    rcases mem_append.mp hstar with hcode | hrest
    · exact hsql.star hcode
    · exact h.star hrest

theorem part_code (hsql : Joint sql) : Part texts (code sql) := by
  have hnil : Part texts [] := part_nil
  simpa using hnil.code_append hsql

/-- **Two parts with code between them.** -/
theorem Part.append_code (h : Part texts tokens) (hsql : Joint sql)
    (h' : Part texts tokens') : Part texts (tokens ++ (code sql ++ tokens')) where
  separated := h.separated.append_code hsql.1 hsql.neutral (h'.separated.code_append hsql.neutral)
  texts v hv := by
    rcases mem_append.mp hv with hv | hv
    · exact h.texts v hv
    · exact (h'.code_append hsql).texts v hv
  star hstar := by
    rcases mem_append.mp hstar with hstar | hstar
    · exact h.star hstar
    · exact (h'.code_append hsql).star hstar

/-- Code after a part. -/
theorem Part.append (h : Part texts tokens) (hsql : Joint sql) :
    Part texts (tokens ++ code sql) := by
  simpa using h.append_code hsql part_nil

/-- The elements of a list with code between them. -/
theorem part_list (hsql : Joint sql) {parts : List (List Token)}
    (h : ∀ part ∈ parts, Part texts part) : Part texts (listTokens sql parts) := by
  unfold listTokens
  induction parts with
  | nil => exact part_nil
  | cons part rest ih =>
    have hpart := h part mem_cons_self
    have hrest := ih fun other hother => h other (mem_cons_of_mem _ hother)
    cases rest with
    | nil => simpa using hpart
    | cons next rest =>
      rw [intercalate_cons_cons, append_assoc]
      exact hpart.append_code hsql hrest

/-- What may come after any part. -/
def Follows (texts : List String) (tokens : List Token) : Prop :=
  ∀ before, Part texts before → Part texts (before ++ tokens)

theorem follows_nil : Follows texts [] := by
  intro before h
  rwa [append_nil]

/-- A clause that begins with code, and what follows it. -/
theorem Follows.clause (hsql : Joint sql) (h : Part texts tokens) (h' : Follows texts tokens') :
    Follows texts ((code sql ++ tokens) ++ tokens') := by
  intro before hbefore
  rw [append_assoc]
  exact hbefore.append_code hsql (h' tokens h)

theorem Follows.code (hsql : Joint sql) (h' : Follows texts tokens') :
    Follows texts (code sql ++ tokens') := by
  have hclause := Follows.clause hsql part_nil h'
  rwa [append_nil] at hclause

/-! ### Parts of a query -/

/-- The characters of a name. -/
theorem chars_of_isIdent (h : isIdent name = true) :
    name ≠ "" ∧ ∀ c ∈ name.toList, isNamePart c = true ∨ c = '.' := by
  unfold isIdent at h
  split at h
  · cases h
  · rename_i c cs hname
    rw [Bool.and_eq_true, all_eq_true] at h
    constructor
    · rintro rfl
      cases hname
    · intro d hd
      rw [hname] at hd
      rcases mem_cons.mp hd with rfl | hd
      · left
        rw [isNamePart, h.1, Bool.true_or]
      · have hrest := h.2 d hd
        rw [Bool.or_eq_true, decide_eq_true_iff] at hrest
        exact hrest

theorem not_mem_of_isIdent (h : isIdent name = true) {c : Char}
    (hc : isNamePart c = false ∧ c ≠ '.') : c ∉ name.toList := by
  intro hmem
  rcases (chars_of_isIdent h).2 c hmem with hpart | hdot
  · simp [hc.1] at hpart
  · exact hc.2 hdot

/-- The pieces of code between names and values. -/
@[simp] def codePieces : List String :=
  termNames ++ (bucketIntervals.map Prod.snd).map (fun interval =>
    "toStartOfInterval(created_at, INTERVAL " ++ interval ++ ")") ++
  aggregateFns.map (· ++ "(") ++ comparisonOps.map (fun op => " " ++ op ++ " ") ++
  ["parseDateTimeBestEffort(", "JSONExtract(record,", "JSONExtractString(record,",
    "parseDateTimeBestEffortOrNull(JSONExtractString(record,", ",", ")", "))", " AS `", "`",
    "collection=", "created_at >= ", "created_at < ", " IN (", " DESC", " ASC", " GROUP BY ",
    " ORDER BY ", " LIMIT ", " OFFSET ", " SETTINGS " ++ chMaxExecution ++ ", " ++ chMaxRows,
    "SELECT ", " FROM sink_records FINAL WHERE ", " AND ", "tenant_id="]

/-- They run into nothing. -/
theorem joint_piece : ∀ sql ∈ codePieces, Joint sql := by
  have hopen : Joint "toStartOfInterval(created_at, INTERVAL " := by decide +kernel
  have hinterval : ∀ interval ∈ bucketIntervals.map Prod.snd, Joint interval := by decide +kernel
  have hclose : Joint ")" := by decide +kernel
  simp only [codePieces, forall_mem_append]
  refine ⟨⟨⟨⟨by decide +kernel, ?_⟩, by decide +kernel⟩, by decide +kernel⟩, by decide +kernel⟩
  intro sql hsql
  obtain ⟨interval, hmem, rfl⟩ := mem_map.mp hsql
  exact (hopen.append (hinterval interval hmem)).append hclose

theorem joint_of_isIdent (h : isIdent name = true) : Joint name := by
  refine ⟨(chars_of_isIdent h).1, fun c hc => ⟨?_, ?_, ?_⟩⟩
  · rintro rfl
    exact not_mem_of_isIdent h (by decide) hc
  · rintro rfl
    exact not_mem_of_isIdent h (by decide) hc
  · rintro rfl
    exact not_mem_of_isIdent h (by decide) hc

theorem joint_toString (n : ℕ) : Joint (toString n) := by
  have hrepr : toString n = n.repr := rfl
  rw [hrepr]
  constructor
  · intro hnil
    have hlength : n.repr.toList = [] := String.toList_eq_nil_iff.mpr hnil
    rw [Nat.toList_repr] at hlength
    exact Nat.toDigits_ne_nil hlength
  · intro c hc
    rw [Nat.toList_repr] at hc
    have hdigit := Nat.isDigit_of_mem_toDigits (by omega) (by omega) hc
    refine ⟨?_, ?_, ?_⟩ <;>
    · rintro rfl
      exact absurd hdigit (by decide)

/-- A value, with its text among those that are quoted. -/
theorem part_value {value : Value} (h : ∀ v ∈ value.texts, v ∈ texts ∨ backslash ∉ v.toList) :
    Part texts value.tokens where
  separated := value.separated
  texts v hv := h v (Value.mem_tokens.mp hv)
  star hstar := by
    cases value with
    | bare number hbare =>
      obtain ⟨c, hc, heq⟩ := mem_map.mp hstar
      rw [Token.char.inj heq] at hc
      exact absurd (hbare.2.1 _ hc) (by decide)
    | text v => simp [Value.tokens] at hstar
    | date v =>
      rcases mem_append.mp hstar with hstar | hstar
      · exact (joint_piece _ (by simp)).star hstar
      · rcases mem_cons.mp hstar with heq | hstar
        · cases heq
        · exact (joint_piece _ (by simp)).star hstar

theorem Chsql.RecordField.part (f : RecordField) : Part texts f.tokens := by
  have hpath : Part texts [.literal f.path] :=
    part_literal (.inr (not_mem_of_isIdent f.ident (by decide)))
  have htyped : ∀ type : String, backslash ∉ type.toList → Part texts (code "JSONExtract(record," ++
        .literal f.path :: (code "," ++ .literal type :: code ")")) := by
    intro type htype
    have htail : Part texts (.literal type :: code ")") :=
      (part_literal (.inr htype)).append (joint_piece _ (by simp))
    have hrest : Part texts ([.literal f.path] ++ (code "," ++ .literal type :: code ")")) :=
      hpath.append_code (joint_piece _ (by simp)) htail
    exact hrest.code_append (joint_piece _ (by simp))
  unfold RecordField.tokens
  split
  · exact htyped "Float64" (by simp [backslash])
  · exact htyped "Bool" (by simp [backslash])
  · have htail : Part texts ([.literal f.path] ++ code "))") :=
      hpath.append (joint_piece _ (by simp))
    exact htail.code_append (joint_piece _ (by simp))
  · have htail : Part texts ([.literal f.path] ++ code ")") :=
      hpath.append (joint_piece _ (by simp))
    exact htail.code_append (joint_piece _ (by simp))

theorem Term.part (t : Term) : Part texts t.tokens := by
  cases t with
  | name text h =>
    exact part_code (joint_piece text (by simp [h]))
  | bucket interval h =>
    exact part_code (joint_piece _ (by simp [mem_map.mp h]))
  | field f => exact f.part
  | aggregate fn h f =>
    exact (f.part.append (joint_piece _ (by simp))).code_append
      (joint_piece _ (by simp [h]))

theorem Column.part (column : Column) : Part texts column.tokens := by
  unfold Column.tokens
  split
  · exact column.term.part
  · rename_i name _
    apply column.term.part.append
    have hopen : Joint " AS `" := joint_piece _ (by simp)
    exact (hopen.append (joint_of_isIdent name.2)).append (joint_piece _ (by simp))

theorem Condition.part (condition : Condition)
    (h : ∀ v ∈ condition.texts, v ∈ texts ∨ backslash ∉ v.toList) :
    Part texts condition.tokens := by
  cases condition with
  | collection name =>
    exact (part_literal (h name mem_cons_self)).code_append (joint_piece _ (by simp))
  | since time | before time =>
    have hdate : Part texts (Value.date time).tokens := part_value h
    exact hdate.code_append (joint_piece _ (by simp))
  | compare f op hop value =>
    exact f.part.append_code (joint_piece _ (by simp [hop])) (part_value h)
  | oneOf f values =>
    have hvalues : ∀ part ∈ values.map Value.tokens, Part texts part := by
      intro part hpart
      obtain ⟨value, hvalue, rfl⟩ := mem_map.mp hpart
      exact part_value fun v hv => h v (mem_flatMap.mpr ⟨value, hvalue, hv⟩)
    have hlist : Part texts (listTokens "," (values.map Value.tokens)) :=
      part_list (joint_piece _ (by simp)) hvalues
    exact f.part.append_code (joint_piece _ (by simp)) (hlist.append (joint_piece _ (by simp)))

/-- What comes after the conditions. -/
theorem TenantQuery.follows_tail (query : TenantQuery) : Follows texts query.tail := by
  have hgroup : ∀ tokens, Follows texts tokens → Follows texts ((if query.groupBy ≠ [] then
      code " GROUP BY " ++ listTokens "," (query.groupBy.map Term.tokens) else []) ++ tokens) := by
    intro tokens h
    split_ifs
    · refine Follows.clause (joint_piece _ (by simp)) (part_list (joint_piece _ (by simp)) ?_) h
      intro part hpart
      obtain ⟨t, -, rfl⟩ := mem_map.mp hpart
      exact t.part
    · exact h
  have horder : ∀ tokens, Follows texts tokens → Follows texts ((if query.orderBy ≠ [] then
      code " ORDER BY " ++ listTokens "," (query.orderBy.map fun order =>
        order.1.tokens ++ directionTokens order.2) else []) ++ tokens) := by
    intro tokens h
    split_ifs
    · refine Follows.clause (joint_piece _ (by simp)) (part_list (joint_piece _ (by simp)) ?_) h
      intro part hpart
      obtain ⟨order, -, rfl⟩ := mem_map.mp hpart
      unfold directionTokens
      split_ifs
      · exact order.1.part.append (joint_piece _ (by simp))
      · exact order.1.part.append (joint_piece _ (by simp))
    · exact h
  have hnumber : ∀ (sql : String) (n : Option ℕ) (tokens : List Token), Joint sql →
      Follows texts tokens → Follows texts ((n.elim [] fun n => code (sql ++ toString n)) ++
        tokens) := by
    intro sql n tokens hsql h
    cases n with
    | none => exact h
    | some n => exact Follows.code (hsql.append (joint_toString n)) h
  apply hgroup
  apply horder
  apply hnumber _ _ _ (joint_piece _ (by simp))
  apply hnumber _ _ _ (joint_piece _ (by simp))
  split_ifs
  · rw [← append_nil (code _)]
    exact Follows.code (joint_piece _ (by simp)) follows_nil
  · exact follows_nil

/-- **The tokens of a query are separated.** -/
theorem TenantQuery.part (query : TenantQuery)
    (htenant : tenantId ∈ texts ∨ backslash ∉ tenantId.toList)
    (h : ∀ condition ∈ query.conditions, ∀ v ∈ condition.texts, v ∈ texts ∨ backslash ∉ v.toList) :
    Part texts (query.tokens tenantId) := by
  refine Part.code_append (Part.append_code (part_list (joint_piece _ (by simp)) ?_)
    (joint_piece _ (by simp)) ?_) (joint_piece _ (by simp))
  · intro part hpart
    obtain ⟨column, -, rfl⟩ := mem_map.mp hpart
    exact column.part
  · apply query.follows_tail
    apply part_list (joint_piece _ (by simp))
    intro part hpart
    rcases mem_cons.mp hpart with rfl | hpart
    · exact (part_literal htenant).code_append (joint_piece _ (by simp))
    · obtain ⟨condition, hcondition, rfl⟩ := mem_map.mp hpart
      exact condition.part (h condition hcondition)

/-- A query has no star in it. -/
theorem KeepsTenant.star {tokens : List Token} (h : KeepsTenant tenantId tokens) :
    Token.char '*' ∉ tokens := by
  obtain ⟨query, rfl⟩ := h
  have hpart : Part (tenantId :: query.conditions.flatMap Condition.texts)
      (query.tokens tenantId) := by
    refine query.part (.inl mem_cons_self) ?_
    intro condition hcondition v hv
    exact .inl (mem_cons_of_mem _ (mem_flatMap.mpr ⟨condition, hcondition, hv⟩))
  exact hpart.star

end parts

/-! ## What is built -/

/-- A list is the image of another one when each element is. -/
theorem exists_map_of_forall {α β : Type} {f : β → α} {P : β → Prop} {as : List α}
    (h : ∀ a ∈ as, ∃ b, a = f b ∧ P b) : ∃ bs : List β, as = bs.map f ∧ ∀ b ∈ bs, P b := by
  induction as with
  | nil => exact ⟨[], rfl, by simp⟩
  | cons a as ih =>
    obtain ⟨b, rfl, hb⟩ := h a mem_cons_self
    obtain ⟨bs, rfl, hbs⟩ := ih fun a' ha' => h a' (mem_cons_of_mem _ ha')
    exact ⟨b :: bs, rfl, by simpa using ⟨hb, hbs⟩⟩

/-- Parts that are joined. -/
theorem render_listTokens (separator : String) (parts : List (List Token)) :
    render (listTokens separator parts) = join separator (parts.map render) := by
  unfold listTokens join
  induction parts with
  | nil => rfl
  | cons part rest ih =>
    cases rest with
    | nil => simp
    | cons next rest =>
      rw [map_cons] at ih
      rw [map_cons, map_cons, intercalate_cons_cons, intercalate_cons_cons,
        render_append, render_append, render_code, ih]

/-- A selection is written from the columns of a tree. -/
structure Written (s : Select) : Prop where
  table : s.from = "sink_records" ∧ s.final = true
  columns : ∀ e ∈ s.columns, ∃ column : Column, e = render column.tokens
  groupBy : ∀ e ∈ s.groupBy, ∃ t : Term, e = render t.tokens

/-- The words after the conditions. -/
structure Ends (s : Select) : Prop where
  orderBy : ∀ order ∈ s.orderBy, ∃ t : Term, order.1 = render t.tokens
  settings : s.settings = [] ∨ s.settings = [chMaxExecution, chMaxRows]

/-- The text after the conditions. -/
def renderedTail (s : Select) : Expr :=
  (if s.groupBy ≠ [] then raw " GROUP BY " ++ join "," s.groupBy else []) ++
  (if s.orderBy ≠ [] then raw " ORDER BY " ++
    join "," (s.orderBy.map fun order => order.1 ++ direction order.2) else []) ++
  (if 0 ≤ s.limit then raw " LIMIT " ++ raw (toString s.limit) else []) ++
  (if 0 ≤ s.offset then raw " OFFSET " ++ raw (toString s.offset) else []) ++
  (if s.settings ≠ [] then raw " SETTINGS " ++ raw (", ".intercalate s.settings) else [])

variable {text : Expr}

/-- The text of a selection. -/
theorem build_eq_ok {s : Select} (h : s.build = .ok text) :
    text = raw "SELECT " ++ join "," s.columns ++ raw " FROM " ++ raw s.from ++
      (if s.final then raw " FINAL" else []) ++
      (if s.where ≠ [] then raw " WHERE " ++ join " AND " s.where else []) ++ renderedTail s := by
  unfold Select.build at h
  split at h
  · cases h
  · by_cases hempty : s.columns = [] ∨ s.from = ""
    · simp [if_pos hempty] at h
    · rw [if_neg hempty] at h
      rw [← Except.ok.inj h, renderedTail]
      simp only [append_assoc]

/-- The tree of a selection with these parts. -/
def treeOf (s : Select) (columns : List Column) (conditions : List Condition) (groupBy : List Term)
    (orderBy : List (Term × Bool)) : TenantQuery where
  columns := columns
  conditions := conditions
  groupBy := groupBy
  orderBy := orderBy
  limit := if 0 ≤ s.limit then some s.limit.toNat else none
  offset := if 0 ≤ s.offset then some s.offset.toNat else none
  capped := decide (s.settings ≠ [])

/-- A number in a clause. -/
theorem render_number (sql : String) (n : ℤ) :
    render ((if 0 ≤ n then some n.toNat else none).elim [] fun n => code (sql ++ toString n)) =
      if 0 ≤ n then raw sql ++ raw (toString n) else [] := by
  split_ifs with h
  · obtain ⟨m, rfl⟩ := Int.eq_ofNat_of_zero_le h
    rw [Option.elim_some, render_code, raw_append]
    rfl
  · rfl

/-- What comes after the conditions is written from the tree. -/
theorem render_tail {s : Select} {columns : List Column} {conditions : List Condition}
    {groupBy : List Term} {orderBy : List (Term × Bool)}
    (hgroupBy : s.groupBy = groupBy.map fun t => render t.tokens)
    (horderBy : s.orderBy = orderBy.map fun order => (render order.1.tokens, order.2))
    (hsettings : s.settings = [] ∨ s.settings = [chMaxExecution, chMaxRows]) :
    render (treeOf s columns conditions groupBy orderBy).tail = renderedTail s := by
  have hgroup : render (if groupBy ≠ [] then
      code " GROUP BY " ++ listTokens "," (groupBy.map Term.tokens) else []) =
      if s.groupBy ≠ [] then raw " GROUP BY " ++ join "," s.groupBy else [] := by
    rw [hgroupBy]
    by_cases hnil : groupBy = []
    · simp [hnil]
    · simp [hnil, render_listTokens, comp_def]
  have horder : render (if orderBy ≠ [] then code " ORDER BY " ++
        listTokens "," (orderBy.map fun order => order.1.tokens ++ directionTokens order.2) else []) =
      if s.orderBy ≠ [] then raw " ORDER BY " ++
        join "," (s.orderBy.map fun order => order.1 ++ direction order.2) else [] := by
    have hdirection : ∀ desc, render (directionTokens desc) = direction desc := by
      intro desc
      cases desc <;> exact render_code _
    rw [horderBy]
    by_cases hnil : orderBy = []
    · simp [hnil]
    · simp [hnil, render_listTokens, comp_def, hdirection]
  have hcaps : render (if decide (s.settings ≠ []) = true then
        code (" SETTINGS " ++ chMaxExecution ++ ", " ++ chMaxRows) else []) =
      if s.settings ≠ [] then raw " SETTINGS " ++ raw (", ".intercalate s.settings) else [] := by
    rcases hsettings with hnil | hcapped
    · simp [hnil]
    · rw [hcapped]
      rfl
  unfold TenantQuery.tail renderedTail treeOf
  rw [render_append, render_append, render_append, render_append, hgroup, horder, hcaps,
    render_number, render_number]
  simp only [append_assoc]

section written

variable {server : AnalyticsServer} {s s' : Select} {schema : String → Option String}

theorem written_sinkRecords : Written AnalyticsServer.sinkRecords where
  table := ⟨rfl, rfl⟩
  columns := by simp [AnalyticsServer.sinkRecords]
  groupBy := by simp [AnalyticsServer.sinkRecords]

/-- A column is added. -/
theorem Written.column (h : Written s) (t : Term) (name : String) :
    Written (s.column server.toRendering (render t.tokens) name) := by
  unfold Select.column ident
  by_cases hname : name ≠ ""
  · rw [if_pos hname]
    split_ifs with hident
    · refine ⟨h.table, ?_, h.groupBy⟩
      intro e he
      rcases mem_append.mp he with he | he
      · exact h.columns e he
      · rw [mem_singleton.mp he]
        refine ⟨⟨t, some ⟨name, hident⟩⟩, ?_⟩
        have hopen : raw " AS `" = raw " AS " ++ raw "`" := rfl
        simp [Column.tokens, code_append, hopen]
    · exact ⟨h.table, h.columns, h.groupBy⟩
  · rw [if_neg hname]
    refine ⟨h.table, ?_, h.groupBy⟩
    intro e he
    rcases mem_append.mp he with he | he
    · exact h.columns e he
    · rw [mem_singleton.mp he]
      exact ⟨⟨t, none⟩, rfl⟩

/-- A term is grouped by. -/
theorem Written.group (h : Written s) (t : Term) :
    Written { s with groupBy := s.groupBy ++ [render t.tokens] } where
  table := h.table
  columns := h.columns
  groupBy e he := by
    rcases mem_append.mp he with he | he
    · exact h.groupBy e he
    · rw [mem_singleton.mp he]
      exact ⟨t, rfl⟩

/-- One of the columns that are not fields. -/
theorem Written.plainColumn (h : Written s) {text : String} (htext : text ∈ termNames)
    (name : String) : Written (s.column server.toRendering (raw text) name) := by
  have hterm : raw text = render (Term.name text htext).tokens := by simp [Term.tokens]
  rw [hterm]
  exact h.column _ name

/-- **What is built is written from the tree of a query of the tenant.** -/
theorem written_build {conditions : List Condition} (h : Written s) (hends : Ends s)
    (hwhere : s.where = (raw "tenant_id=" ++ string tenantId) ::
      conditions.map fun condition => render condition.tokens)
    (hbuild : s.build = .ok text) :
    ∃ query : TenantQuery, query.conditions = conditions ∧
      text = render (query.tokens tenantId) := by
  obtain ⟨columns, hcolumns, -⟩ := exists_map_of_forall (P := fun _ => True)
    (f := fun column : Column => render column.tokens) fun e he => by
      obtain ⟨column, hcolumn⟩ := h.columns e he
      exact ⟨column, hcolumn, trivial⟩
  obtain ⟨groupBy, hgroupBy, -⟩ := exists_map_of_forall (P := fun _ => True)
    (f := fun t : Term => render t.tokens) fun e he => by
      obtain ⟨t, ht⟩ := h.groupBy e he
      exact ⟨t, ht, trivial⟩
  have hordered : ∀ order ∈ s.orderBy, ∃ order' : Term × Bool,
      order = (render order'.1.tokens, order'.2) ∧ True := by
    intro order horder
    obtain ⟨t, ht⟩ := hends.orderBy order horder
    exact ⟨(t, order.2), Prod.ext ht rfl, trivial⟩
  obtain ⟨orderBy, horderBy, -⟩ := exists_map_of_forall hordered
  refine ⟨treeOf s columns conditions groupBy orderBy, rfl, ?_⟩
  have htail : render (treeOf s columns conditions groupBy orderBy).tail = renderedTail s :=
    render_tail hgroupBy horderBy hends.settings
  have hselected : join "," s.columns = render (listTokens "," (columns.map Column.tokens)) := by
    rw [hcolumns, render_listTokens, map_map]
    rfl
  have hconditions : join " AND " s.where = render (listTokens " AND "
      (tenantTokens tenantId :: conditions.map Condition.tokens)) := by
    rw [hwhere, render_listTokens, map_cons, map_map]
    simp only [tenantTokens, render_append, render_code, render_cons, Token.text, render_nil,
      append_nil]
    rfl
  have hfrom : raw " FROM sink_records FINAL WHERE " =
      raw " FROM " ++ raw "sink_records" ++ raw " FINAL" ++ raw " WHERE " := rfl
  have hnonempty : s.where ≠ [] := by
    rw [hwhere]
    exact cons_ne_nil _ _
  rw [build_eq_ok hbuild, h.table.1, h.table.2, if_pos rfl, if_pos hnonempty, hselected,
    hconditions]
  unfold TenantQuery.tokens
  simp only [render_append, render_code, htail, hfrom, append_assoc]
  rfl

/-! ### The steps of a handler -/

/-- A loop that may fail keeps what each round keeps. -/
theorem keeps_of_foldlM {σ α ε : Type} {P : σ → Prop} {f : σ → α → Except ε σ}
    (h : ∀ s a s', P s → f s a = .ok s' → P s') {as : List α} {s s' : σ} (hs : P s)
    (hfold : as.foldlM f s = .ok s') : P s' := by
  induction as generalizing s with
  | nil =>
    obtain rfl : s = s' := Except.ok.inj hfold
    exact hs
  | cons a as ih =>
    rw [foldlM_cons] at hfold
    obtain ⟨next, hnext, hrest⟩ := bind_eq_ok.mp hfold
    exact ih (h s a next hs hnext) hrest

theorem exists_of_field {e : Expr}
    (h : server.field schema name = .ok e) : ∃ f : RecordField, e = render f.tokens := by
  unfold AnalyticsServer.field at h
  split at h
  · cases h
  · exact exists_of_jsonField (mapError_eq_ok.mp h)

variable {spec : AnalyticsSpec}

/-- The columns of a request. -/
theorem Written.columns_of_request {s₁ s₂ s₃ s₄ : Select}
    (h₁ : spec.select.foldlM (server.selectColumn schema) AnalyticsServer.sinkRecords = .ok s₁)
    (h₂ : spec.groupBy.foldlM (server.groupColumn schema spec.select) s₁ = .ok s₂)
    (h₃ : server.bucketColumn s₂ spec.bucket = .ok s₃)
    (h₄ : server.aggregateColumn schema s₃ spec.aggregate = .ok s₄) : Written s₄ := by
  have hselect : Written s₁ := by
    refine keeps_of_foldlM ?_ written_sinkRecords h₁
    intro s name s' hs hstep
    obtain ⟨e, he, hstep⟩ := bind_eq_ok.mp hstep
    obtain ⟨f, rfl⟩ := exists_of_field he
    rw [← Except.ok.inj hstep]
    exact hs.column (.field f) name
  have hgroup : Written s₂ := by
    refine keeps_of_foldlM ?_ hselect h₂
    intro s name s' hs hstep
    obtain ⟨e, he, hstep⟩ := bind_eq_ok.mp hstep
    obtain ⟨f, rfl⟩ := exists_of_field he
    rw [← Except.ok.inj hstep]
    split_ifs
    · exact hs.group (.field f)
    · exact (hs.group (.field f)).column (.field f) name
  have hbucket : Written s₃ := by
    unfold AnalyticsServer.bucketColumn at h₃
    split_ifs at h₃
    · rwa [← Except.ok.inj h₃]
    · split at h₃
      · cases h₃
      · rename_i interval hlookup
        have hmem : interval ∈ bucketIntervals.map Prod.snd := by
          obtain ⟨before, after, heq, -⟩ := lookup_eq_some_iff.mp hlookup
          simp [heq]
        have hterm : bucketExpr interval = render (Term.bucket interval hmem).tokens := by
          simp [bucketExpr, Term.tokens]
        rw [← Except.ok.inj h₃, hterm]
        exact (hgroup.column _ _).group _
  unfold AnalyticsServer.aggregateColumn at h₄
  split at h₄
  · rwa [← Except.ok.inj h₄]
  · rename_i name fn _
    split_ifs at h₄ with hfn
    obtain ⟨e, he, h₄⟩ := map_eq_ok.mp h₄
    obtain ⟨f, rfl⟩ := exists_of_field he
    have hterm : raw (fn ++ "(") ++ render f.tokens ++ raw ")" =
        render (Term.aggregate fn hfn f).tokens := by
      simp [Term.tokens]
    rw [← h₄, hterm]
    exact hbucket.column _ _

/-- The condition of a filter. -/
theorem exists_of_filterCondition {filter : AnalyticsFilter}
    {e : Expr} (h : server.filterCondition schema filter = .ok e) :
    ∃ condition : Condition, e = render condition.tokens ∧ ∀ v ∈ condition.texts,
      v ∈ filter.values.flatMap fun value =>
        (server.value ((schema filter.field).getD "") value).texts := by
  obtain ⟨left, hleft, h⟩ := bind_eq_ok.mp h
  obtain ⟨f, rfl⟩ := exists_of_field hleft
  unfold AnalyticsFilter.values
  dsimp only at h
  split_ifs at h ⊢ with hop
  · split at h
    · rename_i value values hvalue
      refine ⟨.oneOf f ((value :: values).map
        (server.value ((schema filter.field).getD ""))), ?_, ?_⟩
      · have hliteral : literal server.toRendering ((schema filter.field).getD "") = fun value =>
            render (server.value ((schema filter.field).getD "") value).tokens :=
          funext (literal_eq_render server.toRendering _)
        rw [← Except.ok.inj h, hliteral]
        simp only [Condition.tokens, inValues, render_append, render_code, render_listTokens,
          map_map, append_assoc, comp_def]
      · rw [hvalue]
        intro v hv
        simpa [Condition.texts, flatMap_map] using hv
    · cases h
  · split at h
    · cases h
    · rename_i condition hcompare
      unfold Chsql.compare at hcompare
      split_ifs at hcompare with hknown
      refine ⟨.compare f filter.op (by simpa using hknown)
        (server.value ((schema filter.field).getD "") filter.value), ?_, ?_⟩
      · rw [← Except.ok.inj h, ← Except.ok.inj hcompare]
        simp only [Condition.tokens, render_append, render_code, raw_append, append_assoc,
          literal_eq_render]
      · intro v hv
        simpa [Condition.texts] using hv

/-- The conditions of a range of time. -/
theorem exists_of_timeRange {range : Option (String × String)} {conditions : List Expr}
    (h : server.timeRangeConditions range = .ok conditions) :
    ∀ e ∈ conditions, ∃ condition : Condition, e = render condition.tokens ∧
      ∀ v ∈ condition.texts, backslash ∉ v.toList := by
  cases range with
  | none =>
    rw [← Except.ok.inj h]
    simp
  | some range =>
    obtain ⟨start, stop⟩ := range
    have h := mapError_eq_ok.mp h
    unfold AnalyticsServer.analyticsTimeRangeClauses at h
    split at h
    · cases h
    · split at h
      · cases h
      · rename_i _ start _ _ stop _
        split_ifs at h with hbefore
        rw [← Except.ok.inj h]
        have hdate : ∀ time, literal server.toRendering "date" (.string (server.formatTime time)) =
            render (Value.date (server.formatTime time)).tokens :=
          fun time => literal_eq_render server.toRendering "date" _
        intro e he
        rw [hdate, hdate] at he
        rcases mem_cons.mp he with rfl | he
        · refine ⟨.since (server.formatTime start), ?_, ?_⟩
          · simp [Condition.tokens]
          · simpa [Condition.texts] using server.plain_formatTime start
        · rw [mem_singleton.mp he]
          refine ⟨.before (server.formatTime stop), ?_, ?_⟩
          · simp [Condition.tokens]
          · simpa [Condition.texts] using server.plain_formatTime stop

/-! ### The queries that are sent -/

/-- The condition on the dataset. -/
def datasetConditions (name : String) : List Condition :=
  if name ≠ "" then [.collection name] else []

theorem analyticsScope_eq (tenantId name : String) : analyticsScope tenantId name =
    (raw "tenant_id=" ++ string tenantId) ::
      (datasetConditions name).map fun condition => render condition.tokens := by
  unfold analyticsScope datasetConditions
  split_ifs
  · simp [Condition.tokens, Token.text]
  · simp

theorem texts_datasetConditions {condition : Condition}
    (h : condition ∈ datasetConditions name) : ∀ v ∈ condition.texts, v ∈ datasetTexts name := by
  unfold datasetConditions at h
  unfold datasetTexts
  split_ifs at h ⊢
  · rw [mem_singleton.mp h]
    exact fun v hv => hv
  · cases h

/-- A query without filters. -/
theorem exists_of_scope (name : String) (h : Written s) (hends : Ends s)
    (hwhere : s.where = analyticsScope tenantId name) (hbuild : s.build = .ok text) :
    ∃ query : TenantQuery, text = render (query.tokens tenantId) ∧
      ∀ condition ∈ query.conditions, ∀ v ∈ condition.texts, v ∈ datasetTexts name := by
  rw [analyticsScope_eq] at hwhere
  obtain ⟨query, hconditions, htext⟩ := written_build h hends hwhere hbuild
  refine ⟨query, htext, ?_⟩
  rw [hconditions]
  exact fun condition hcondition => texts_datasetConditions hcondition

/-- What a request orders by. -/
theorem ends_of_order
    {orderBy : List (Expr × Bool)} (h : server.order schema spec = .ok orderBy) :
    ∀ order ∈ orderBy, ∃ t : Term, order.1 = render t.tokens := by
  have hname : ∀ text ∈ termNames, ∃ t : Term, raw text = render t.tokens :=
    fun text htext => ⟨.name text htext, by simp [Term.tokens]⟩
  unfold AnalyticsServer.order at h
  split at h
  · rw [← Except.ok.inj h]
    split_ifs
    · intro order horder
      rw [mem_singleton.mp horder]
      exact hname "time_bucket" (by simp [termNames])
    · simp
  · rename_i name dir _
    dsimp only at h
    split_ifs at h with hplain
    · rw [← Except.ok.inj h]
      intro order horder
      rw [mem_singleton.mp horder]
      rcases hplain with rfl | rfl
      · exact hname "aggregate_value" (by simp [termNames])
      · exact hname "time_bucket" (by simp [termNames])
    · obtain ⟨e, he, h⟩ := map_eq_ok.mp h
      obtain ⟨f, rfl⟩ := exists_of_field he
      rw [← h]
      intro order horder
      rw [mem_singleton.mp horder]
      exact ⟨.field f, rfl⟩

theorem Written.withConditions (h : Written s) (tenantId : String) (spec : AnalyticsSpec)
    (range filters : List Expr) (orderBy : List (Expr × Bool)) :
    Written (AnalyticsServer.withConditions tenantId spec range filters orderBy s) :=
  ⟨h.table, h.columns, h.groupBy⟩

/-- **The query of a request is written from a tree.** -/
theorem exists_of_analyticsQuery (h : server.analyticsQuery tenantId schema spec = .ok text) :
    ∃ query : TenantQuery, text = render (query.tokens tenantId) ∧
      ∀ condition ∈ query.conditions, ∀ v ∈ condition.texts,
        v ∈ (AnalyticsCall.query schema spec).texts server tenantId ∨ backslash ∉ v.toList := by
  unfold AnalyticsServer.analyticsQuery at h
  by_cases hdataset : spec.dataset = ""
  · simp [if_pos hdataset] at h
  rw [if_neg hdataset] at h
  obtain ⟨s₁, h₁, h⟩ := bind_eq_ok.mp h
  obtain ⟨s₂, h₂, h⟩ := bind_eq_ok.mp h
  obtain ⟨s₃, h₃, h⟩ := bind_eq_ok.mp h
  obtain ⟨s₄, h₄, h⟩ := bind_eq_ok.mp h
  obtain ⟨range, hrange, h⟩ := bind_eq_ok.mp h
  obtain ⟨filters, hfilters, h⟩ := bind_eq_ok.mp h
  obtain ⟨orderBy, horder, h⟩ := bind_eq_ok.mp h
  have hwritten : Written (server.recordColumn spec s₄) := by
    unfold AnalyticsServer.recordColumn
    split_ifs
    · exact (Written.columns_of_request h₁ h₂ h₃ h₄).plainColumn (by simp [termNames]) ""
    · exact Written.columns_of_request h₁ h₂ h₃ h₄
  obtain ⟨ranges, rfl, hranges⟩ := exists_map_of_forall (exists_of_timeRange hrange)
  have hfiltered : ∀ e ∈ filters, ∃ condition : Condition, e = render condition.tokens ∧
      ∃ filter ∈ spec.filters, ∀ v ∈ condition.texts, v ∈ filter.values.flatMap fun value =>
        (server.value ((schema filter.field).getD "") value).texts := by
    intro e he
    obtain ⟨filter, hfilter, hcondition⟩ := exists_of_mapM hfilters e he
    obtain ⟨condition, heq, htexts⟩ := exists_of_filterCondition hcondition
    exact ⟨condition, heq, filter, hfilter, htexts⟩
  obtain ⟨conditions, rfl, hconditions⟩ := exists_map_of_forall hfiltered
  have hbuild := (mapError_eq_ok (f := AnalyticsError.internal)).mp h
  have hwhere : analyticsScope tenantId spec.dataset ++
      ranges.map (fun condition => render condition.tokens) ++
      conditions.map (fun condition => render condition.tokens) =
      (raw "tenant_id=" ++ string tenantId) :: (datasetConditions spec.dataset ++ ranges ++
        conditions).map fun condition => render condition.tokens := by
    simp [analyticsScope_eq]
  obtain ⟨query, hquery, htext⟩ := written_build
    (hwritten.withConditions tenantId spec _ _ orderBy) ⟨ends_of_order horder, .inr rfl⟩ hwhere hbuild
  refine ⟨query, htext, ?_⟩
  rw [hquery]
  intro condition hcondition v hv
  rcases mem_append.mp hcondition with hcondition | hfilter
  · rcases mem_append.mp hcondition with hscope | htime
    · left
      have hin := texts_datasetConditions hscope v hv
      exact mem_append_left _ (mem_cons_of_mem _ hin)
    · exact .inr (hranges condition htime v hv)
  · left
    obtain ⟨filter, hmem, htexts⟩ := hconditions condition hfilter
    exact mem_append_right _ (mem_flatMap.mpr ⟨filter, hmem, htexts v hv⟩)

/-- **Every query that is sent is written from the tree of a query of the tenant.** -/
theorem exists_of_build {call : AnalyticsCall} (h : call.build server tenantId = .ok text) :
    ∃ query : TenantQuery, text = render (query.tokens tenantId) ∧
      ∀ condition ∈ query.conditions, ∀ v ∈ condition.texts,
        v ∈ call.texts server tenantId ∨ backslash ∉ v.toList := by
  have hrecord :
      Written (AnalyticsServer.sinkRecords.column server.toRendering (raw "record") "") :=
    written_sinkRecords.plainColumn (by simp [termNames]) ""
  have hordered : ∀ text ∈ termNames, ∀ desc : Bool, ∀ order ∈ [(raw text, desc)],
      ∃ t : Term, order.1 = render t.tokens := by
    intro text htext desc order horder
    rw [mem_singleton.mp horder]
    exact ⟨.name text htext, by simp [Term.tokens]⟩
  -- the texts of a query without filters
  have hscope : ∀ name, datasetTexts name ⊆ tenantId :: datasetTexts name :=
    fun name => subset_cons_self _ _
  cases call with
  | datasets =>
    have hcolumns : Written ((AnalyticsServer.sinkRecords.column server.toRendering
        (raw "collection") "").column server.toRendering (raw "count()") "row_count") :=
      (written_sinkRecords.plainColumn (by simp [termNames]) "").plainColumn (by simp [termNames]) "row_count"
    have hgroup : ∀ e ∈ [raw "collection"], ∃ t : Term, e = render t.tokens := by
      intro e he
      rw [mem_singleton.mp he]
      exact ⟨.name "collection" (by simp [termNames]), by simp [Term.tokens]⟩
    obtain ⟨query, htext, htexts⟩ := exists_of_scope ""
      (s := server.datasetsQuery tenantId) ⟨hcolumns.table, hcolumns.columns, hgroup⟩
      ⟨hordered "collection" (by simp [termNames]) false, .inl rfl⟩ rfl ((mapError_eq_ok (f := AnalyticsError.internal)).mp h)
    exact ⟨query, htext, fun condition hcondition v hv =>
      absurd (htexts condition hcondition v hv) (by simp [datasetTexts])⟩
  | records name =>
    obtain ⟨query, htext, htexts⟩ := exists_of_scope name
      (s := server.recordsQuery tenantId name) ⟨hrecord.table, hrecord.columns, hrecord.groupBy⟩
      ⟨by simp [AnalyticsServer.recordsQuery, Select.column, AnalyticsServer.sinkRecords],
        .inl rfl⟩ rfl ((mapError_eq_ok (f := AnalyticsError.internal)).mp h)
    exact ⟨query, htext, fun condition hcondition v hv =>
      .inl (hscope name (htexts condition hcondition v hv))⟩
  | count name =>
    have hcount : Written (AnalyticsServer.sinkRecords.column server.toRendering
        (raw "count()") "total") := written_sinkRecords.plainColumn (by simp [termNames]) "total"
    obtain ⟨query, htext, htexts⟩ := exists_of_scope name
      (s := server.countQuery tenantId name) ⟨hcount.table, hcount.columns, hcount.groupBy⟩
      ⟨nofun, .inl rfl⟩ rfl ((mapError_eq_ok (f := AnalyticsError.internal)).mp h)
    exact ⟨query, htext, fun condition hcondition v hv =>
      .inl (hscope name (htexts condition hcondition v hv))⟩
  | rows name limit offset =>
    have hcolumns : Written ((AnalyticsServer.sinkRecords.column server.toRendering
        (raw "record") "").column server.toRendering (raw "created_at") "") :=
      hrecord.plainColumn (by simp [termNames]) ""
    obtain ⟨query, htext, htexts⟩ := exists_of_scope name
      (s := server.rowsQuery tenantId name limit offset)
      ⟨hcolumns.table, hcolumns.columns, hcolumns.groupBy⟩
      ⟨hordered "created_at" (by simp [termNames]) true, .inr rfl⟩ rfl ((mapError_eq_ok (f := AnalyticsError.internal)).mp h)
    exact ⟨query, htext, fun condition hcondition v hv =>
      .inl (hscope name (htexts condition hcondition v hv))⟩
  | query schema spec => exact exists_of_analyticsQuery h

end written

/-! ## Main result -/

/-- **A quoted text is inert iff it is without a backslash.** Of `string` it is read back as the
text, of `literal` as the value that is meant. A query whose quoted texts are all inert, which are
those without a backslash, is read as a query of the tenant. -/
theorem literals_inert_iff (unescape : Char → Char) (server : AnalyticsServer) :
    (∀ v, read unescape (string v) = some [.literal v] ↔ backslash ∉ v.toList) ∧
    (∀ kind value, read unescape (literal server.toRendering kind value) =
        some (server.value kind value).tokens ↔
      ∀ v ∈ (server.value kind value).texts, backslash ∉ v.toList) ∧
    ∀ tenantId (call : AnalyticsCall) text, call.build server tenantId = .ok text →
      (((∀ v ∈ call.texts server tenantId, read unescape (string v) = some [.literal v]) ∧
        ∃ tokens, read unescape text = some tokens ∧ KeepsTenant tenantId tokens) ↔
      ∀ v ∈ call.texts server tenantId, backslash ∉ v.toList) := by
  refine ⟨read_string_iff unescape, read_literal_iff unescape server.toRendering, ?_⟩
  intro tenantId call text hbuild
  constructor
  · rintro ⟨hinert, -⟩ v hv
    exact (read_string_iff unescape v).mp (hinert v hv)
  · intro hplain
    refine ⟨fun v hv => (read_string_iff unescape v).mpr (hplain v hv), ?_⟩
    obtain ⟨query, rfl, htexts⟩ := exists_of_build hbuild
    have htenant : tenantId ∈ call.texts server tenantId := by
      cases call <;> exact mem_cons_self
    have hpart := query.part (.inl htenant) htexts
    refine ⟨query.tokens tenantId, ?_, query, rfl⟩
    apply read_render unescape hpart.separated
    intro v hv
    exact (hpart.texts v hv).elim (hplain v) id

/-- A server that writes no numbers but zero. -/
def exampleAnalytics : AnalyticsServer where
  sprint _ := ""
  quote text := text
  Float64 := Unit
  decoded _ := ()
  parseFloat _ := none
  formatFloat _ := "0"
  bare _ := by decide +kernel
  parseTime _ := none
  formatTime _ := ""
  plain_formatTime _ := by decide +kernel

/-- A query of the orders of a customer. -/
def exampleSpec (values : List String) : AnalyticsSpec where
  dataset := "orders"
  filters := [{ field := "customer", op := "IN", value := .array (values.map .string) }]

/-- Its schema. -/
def exampleSchema (name : String) : Option String :=
  if name = "customer" then some "string" else none

/-- The theorem at a query with a filter. -/
theorem literals_inert_iff_quote : ∃ text,
    (AnalyticsCall.query exampleSchema (exampleSpec ["O'Reilly"])).build exampleAnalytics "acme" =
      .ok text ∧ ∃ tokens, read id text = some tokens ∧ KeepsTenant "acme" tokens := by
  cases hbuild : (AnalyticsCall.query exampleSchema (exampleSpec ["O'Reilly"])).build
      exampleAnalytics "acme" with
  | error err =>
    have hok : ((AnalyticsCall.query exampleSchema (exampleSpec ["O'Reilly"])).build
        exampleAnalytics "acme").toOption.isSome = true := by decide +kernel
    rw [hbuild] at hok
    cases hok
  | ok text =>
    refine ⟨text, rfl, (((literals_inert_iff id exampleAnalytics).2.2 "acme" _ text hbuild).mpr
      ?_).2⟩
    decide +kernel

/-- **A filter with a backslash breaks out of its literal**: the second value is read as code, and
what comes after it is a comment. -/
theorem not_keepsTenant_backslash : read id (string "\\") ≠ some [.literal "\\"] ∧ ∃ text,
      (AnalyticsCall.query exampleSchema (exampleSpec ["\\", ") OR 2*3=6 -- "])).build
        exampleAnalytics "acme" = .ok text ∧
      ∃ tokens, read id text = some tokens ∧ ¬ KeepsTenant "acme" tokens := by
  refine ⟨by decide +kernel, ?_⟩
  have hread : ((AnalyticsCall.query exampleSchema
      (exampleSpec ["\\", ") OR 2*3=6 -- "])).build exampleAnalytics "acme").toOption.any (fun text =>
        (read id text).any fun tokens => decide (Token.char '*' ∈ tokens)) = true := by
    decide +kernel
  cases hbuild : (AnalyticsCall.query exampleSchema
      (exampleSpec ["\\", ") OR 2*3=6 -- "])).build exampleAnalytics "acme" with
  | error err =>
    rw [hbuild] at hread
    cases hread
  | ok text =>
    rw [hbuild] at hread
    have hstar : ((read id text).any fun tokens => decide (Token.char '*' ∈ tokens)) = true :=
      hread
    cases htokens : read id text with
    | none =>
      rw [htokens] at hstar
      cases hstar
    | some tokens =>
      rw [htokens] at hstar
      exact ⟨text, rfl, tokens, htokens, fun hkeeps => hkeeps.star (of_decide_eq_true hstar)⟩

end Dataflow.Api
