import Dataflow.Connectors.MergeArrays
import Dataflow.Library.Replace

/-!
# Addresses with the values of the configuration

The placeholders of an address are replaced parameter by parameter, in the order in which Go visits
the configuration. A value that is put in is text for the parameters that come later.

* `interpolate`: the code, for an order of the parameters.
* `pieces`, `fill`: the template, with some of its placeholders replaced once and at the same time.
* `Undisturbed`: however many parameters are filled in, the placeholder of another one is only
  where the template has it.
* `interpolate_concat_iff`: one more parameter.
* **`interpolate_fills_iff`**: every stage of every order is right iff nothing is disturbed; then
  the outcome is the template with every placeholder replaced once.
* `value_is_template`: two orders with two outcomes.

Source: `http.go` `interpolate`
-/

namespace Dataflow.Connectors.Interpolation

open Activities Library.Replace Model List

/-! ## The code -/

/-- The placeholder of a parameter. -/
def placeholder (key : String) : List Char := '\x7b' :: (key.toList ++ ['\x7d'])

section code

variable (formatting : Formatting)

/-- The text of a parameter. -/
def valueText (entry : String × Json) : List Char := (stringValue formatting entry.2).toList

/-- The body of the loop. -/
def replaceParam (text : List Char) (entry : String × Json) : List Char :=
  replaceAll (placeholder entry.1) (valueText formatting entry) text

/-- Source: `http.go` `interpolate`, with the parameters in the order in which they are visited. -/
def interpolate (template : String) (visited : JsonMap) : String :=
  .ofList (visited.foldl (replaceParam formatting) template.toList)

/-! ## Simultaneous replacement -/

/-- A piece of a template: a character, or the placeholder of a parameter. -/
inductive Piece where
  | symbol (c : Char)
  | param (key : String)
  deriving DecidableEq

/-- The template from a character on; `skip` characters belong to the placeholder before. -/
def piecesFrom (config : JsonMap) : (skip : ℕ) → List Char → List Piece
  | _, [] => []
  | skip + 1, _ :: text => piecesFrom config skip text
  | 0, c :: text =>
    match config.find? fun entry => placeholder entry.1 <+: c :: text with
    | some entry => .param entry.1 :: piecesFrom config (entry.1.toList.length + 1) text
    | none => .symbol c :: piecesFrom config 0 text

/-- The pieces of a template. -/
def pieces (config : JsonMap) (template : String) : List Piece :=
  piecesFrom config 0 template.toList

/-- A piece where some parameters are filled in. -/
def pieceText (done : JsonMap) : Piece → List Char
  | .symbol c => [c]
  | .param key =>
    match done.lookup key with
    | some value => valueText formatting (key, value)
    | none => placeholder key

/-- **The template with some of its placeholders replaced**, each once. -/
def fill (config : JsonMap) (template : String) (done : JsonMap) : List Char :=
  (pieces config template).flatMap (pieceText formatting done)

/-- However many parameters are filled in, the placeholder of another one is only where the template
has it, or stands for itself. -/
def Undisturbed (config : JsonMap) (template : String) : Prop :=
  ∀ done entry rest, (done ++ entry :: rest).Perm config →
    valueText formatting entry = placeholder entry.1 ∨
      occurrences (placeholder entry.1) (fill formatting config template done) =
        (pieces config template).count (.param entry.1)

/-- Every stage of every order is the template with the parameters so far. -/
def StagesFill (config : JsonMap) (template : String) : Prop :=
  ∀ visited, visited.Perm config → ∀ done, done <+: visited →
    interpolate formatting template done = .ofList (fill formatting config template done)

end code

/-! ## One more parameter -/

section step

variable {formatting : Formatting} {config done : JsonMap} {template : String}
  {entry : String × Json}

/-- With nothing filled in, a template is itself. -/
theorem fill_nil : fill formatting config template [] = template.toList := by
  have hfrom : ∀ (text : List Char) (skip : ℕ),
      (piecesFrom config skip text).flatMap (pieceText formatting []) = text.drop skip := by
    intro text
    induction text with
    | nil =>
      intro skip
      simp [piecesFrom]
    | cons c text ih =>
      intro skip
      cases skip with
      | succ skip => exact ih skip
      | zero =>
        rw [piecesFrom]
        cases hfind : config.find? fun entry => placeholder entry.1 <+: c :: text with
        | none => simp [ih, pieceText]
        | some entry =>
          have hstarts : placeholder entry.1 <+: c :: text := by
            simpa using find?_some hfind
          obtain ⟨rest, heq⟩ := hstarts
          have hdrop : (c :: text).drop (placeholder entry.1).length = rest := by
            rw [← heq, drop_left]
          rw [flatMap_cons, ih, drop_zero, ← heq]
          simp only [placeholder, length_cons, length_append, length_nil, drop_succ_cons] at hdrop
          rw [hdrop]
          rfl
  exact hfrom template.toList 0

/-- A piece, with the placeholder of a parameter as a place. -/
def places (formatting : Formatting) (done : JsonMap) (key : String) : Piece → List (Option Char)
  | .param other =>
    if other = key then [none] else (pieceText formatting done (.param other)).map some
  | .symbol c => [some c]

theorem assemble_append (x : List Char) (l l' : List (Option Char)) :
    assemble x (l ++ l') = assemble x l ++ assemble x l' := flatMap_append

theorem assemble_map_some (x text : List Char) : assemble x (text.map some) = text := by
  induction text with
  | nil => rfl
  | cons c text ih => rw [map_cons, assemble_some, ih]

/-- **The pieces with a place for one more parameter.** -/
theorem assemble_places (hnew : entry.1 ∉ done.keys) (l : List Piece) :
    assemble (placeholder entry.1) (l.flatMap (places formatting done entry.1)) =
        l.flatMap (pieceText formatting done) ∧
      assemble (valueText formatting entry) (l.flatMap (places formatting done entry.1)) =
        l.flatMap (pieceText formatting (done ++ [entry])) ∧
      (l.flatMap (places formatting done entry.1)).count none = l.count (.param entry.1) := by
  obtain ⟨key, value⟩ := entry
  have hnone : done.lookup key = none := JsonMap.lookup_eq_none.mpr hnew
  induction l with
  | nil => exact ⟨rfl, rfl, rfl⟩
  | cons piece l ih =>
    obtain ⟨hold, hvalue, hcount⟩ := ih
    simp only [flatMap_cons, assemble_append, hold, hvalue, count_append, hcount]
    cases piece with
    | symbol c => exact ⟨rfl, rfl, by simp [places]⟩
    | param other =>
      by_cases heq : other = key
      · subst heq
        have hlookup : (done ++ [(other, value)]).lookup other = some value := by
          rw [lookup_append, hnone]
          simp
        refine ⟨?_, ?_, ?_⟩
        · simp [places, pieceText, hnone]
        · simp [places, pieceText, hlookup]
        · simp [places]
          omega
      · have hlookup : (done ++ [(key, value)]).lookup other = done.lookup other := by
          rw [lookup_append, lookup_cons, beq_eq_false_iff_ne.mpr heq]
          simp
        refine ⟨?_, ?_, ?_⟩
        · rw [places, if_neg heq, assemble_map_some]
        · rw [places, if_neg heq, assemble_map_some, pieceText, pieceText, hlookup]
        · rw [places, if_neg heq, count_cons_of_ne (by simpa using heq)]
          simp [count_eq_zero]

/-- **One more parameter is filled in right** iff it stands for itself, or its placeholder is only
where the template has it. -/
theorem replaceParam_fill_iff (hbrace : '\x7b' ∉ entry.1.toList) (hnew : entry.1 ∉ done.keys) :
    replaceParam formatting (fill formatting config template done) entry =
        fill formatting config template (done ++ [entry]) ↔
      valueText formatting entry = placeholder entry.1 ∨
        occurrences (placeholder entry.1) (fill formatting config template done) =
          (pieces config template).count (.param entry.1) := by
  have hplaces := @assemble_places formatting done entry hnew (pieces config template)
  obtain ⟨hold, hvalue, hcount⟩ := hplaces
  have hfresh : '\x7b' ∉ entry.1.toList ++ ['\x7d'] := by
    rw [mem_append, not_or]
    exact ⟨hbrace, by decide⟩
  rw [fill, fill, replaceParam, ← hold, ← hvalue, ← hcount]
  by_cases hself : valueText formatting entry = placeholder entry.1
  · refine iff_of_true ?_ (.inl hself)
    rw [hself]
    exact replaceAll_self _ _ _
  · rw [or_iff_right hself]
    exact replaceAll_assemble_iff hfresh hself

end step

/-! ## All parameters -/

section stages

variable {formatting : Formatting} {config done visited : JsonMap} {template : String}
  {entry : String × Json}

theorem interpolate_concat (done : JsonMap) (entry : String × Json) :
    interpolate formatting template (done ++ [entry]) =
      .ofList (replaceParam formatting (interpolate formatting template done).toList entry) := by
  rw [interpolate, interpolate, foldl_append, String.toList_ofList]
  rfl

/-- The key of a parameter is not among those before it. -/
theorem not_mem_keys_of_perm (hkeys : config.keys.Nodup) {rest : JsonMap}
    (h : (done ++ entry :: rest).Perm config) : entry.1 ∉ done.keys := by
  have hnodup : ((done ++ entry :: rest).map Prod.fst).Nodup := (h.map Prod.fst).nodup_iff.mpr hkeys
  rw [map_append, map_cons, nodup_append] at hnodup
  intro hmem
  exact hnodup.2.2 entry.1 hmem entry.1 mem_cons_self rfl

/-- **A stage after a right stage** is right iff the new parameter is not disturbed. -/
theorem interpolate_concat_iff (hbrace : '\x7b' ∉ entry.1.toList) (hnew : entry.1 ∉ done.keys)
    (hdone : interpolate formatting template done =
      .ofList (fill formatting config template done)) :
    interpolate formatting template (done ++ [entry]) =
        .ofList (fill formatting config template (done ++ [entry])) ↔
      valueText formatting entry = placeholder entry.1 ∨
        occurrences (placeholder entry.1) (fill formatting config template done) =
          (pieces config template).count (.param entry.1) := by
  rw [interpolate_concat, hdone, String.toList_ofList, ← replaceParam_fill_iff hbrace hnew]
  exact ⟨fun h => String.ofList_injective h, fun h => congrArg String.ofList h⟩

/-- What is filled in does not depend on the order. -/
theorem fill_perm (hkeys : config.keys.Nodup) (h : visited.Perm config) :
    fill formatting config template visited = fill formatting config template config := by
  have hlookup : ∀ key, visited.lookup key = config.lookup key := by
    intro key
    have hnodup : visited.keys.Nodup := (h.map Prod.fst).nodup_iff.mpr hkeys
    refine Option.ext fun value => ?_
    rw [JsonMap.lookup_eq_some_iff hnodup, JsonMap.lookup_eq_some_iff hkeys, h.mem_iff]
  have htext : pieceText formatting visited = pieceText formatting config := by
    funext piece
    cases piece with
    | symbol c => rfl
    | param key => rw [pieceText, pieceText, hlookup]
  rw [fill, fill, htext]

/-- **Every stage of every order is right iff nothing is disturbed.** -/
theorem stagesFill_iff (hkeys : config.keys.Nodup)
    (hbraces : ∀ key ∈ config.keys, '\x7b' ∉ key.toList) :
    StagesFill formatting config template ↔ Undisturbed formatting config template := by
  have hbrace : ∀ done entry rest, (done ++ entry :: rest).Perm config →
      '\x7b' ∉ entry.1.toList := by
    intro done entry rest h
    exact hbraces _ (mem_map_of_mem (h.mem_iff.mp (by simp)))
  constructor
  · intro h done entry rest hperm
    have hdone := h _ hperm done (prefix_append _ _)
    have hnext := h _ hperm (done ++ [entry]) ⟨rest, by simp⟩
    exact (interpolate_concat_iff (hbrace done entry rest hperm) (not_mem_keys_of_perm hkeys hperm)
      hdone).mp hnext
  · intro h visited hvisited done hdone
    induction done using reverseRecOn with
    | nil =>
      rw [fill_nil, String.ofList_toList]
      exact String.ofList_toList
    | append_singleton done entry ih =>
      obtain ⟨rest, hrest⟩ := hdone
      have hperm : (done ++ entry :: rest).Perm config := by
        rw [← hrest, append_assoc] at hvisited
        exact hvisited
      have hbefore : done <+: visited := ⟨entry :: rest, by rw [← hrest]; simp⟩
      exact (interpolate_concat_iff (hbrace done entry rest hperm) (not_mem_keys_of_perm hkeys hperm)
        (ih hbefore)).mpr (h done entry rest hperm)

/-- **A template comes out with every placeholder replaced once, in every order**, if no parameter
is disturbed by others; and if one is, some stage of some order has rewritten a value. -/
theorem interpolate_fills_iff (formatting : Formatting) (config : JsonMap) (template : String)
    (hkeys : config.keys.Nodup) (hbraces : ∀ key ∈ config.keys, '\x7b' ∉ key.toList) :
    (Undisturbed formatting config template → ∀ visited, visited.Perm config →
      interpolate formatting template visited = .ofList (fill formatting config template config)) ∧
    (StagesFill formatting config template ↔ Undisturbed formatting config template) := by
  refine ⟨fun h visited hvisited => ?_, stagesFill_iff hkeys hbraces⟩
  rw [(stagesFill_iff hkeys hbraces).mpr h visited hvisited visited (prefix_refl _),
    fill_perm hkeys hvisited]

/-- An address with two parameters. -/
def addressConfig : JsonMap := [("host", .string "api"), ("id", .string "7")]

theorem interpolate_fills_iff_address :
    (Undisturbed textRendering.toFormatting addressConfig "https://\x7bhost\x7d/\x7bid\x7d" →
      ∀ visited, visited.Perm addressConfig →
        interpolate textRendering.toFormatting "https://\x7bhost\x7d/\x7bid\x7d" visited =
          "https://api/7") ∧
      (StagesFill textRendering.toFormatting addressConfig "https://\x7bhost\x7d/\x7bid\x7d" ↔
        Undisturbed textRendering.toFormatting addressConfig "https://\x7bhost\x7d/\x7bid\x7d") :=
  interpolate_fills_iff textRendering.toFormatting addressConfig _ (by decide) (by decide)

/-- **A value that is a placeholder**: it is replaced in one order, and stays in the other one. -/
theorem value_is_template : let config : JsonMap := [("a", .string "\x7bb\x7d"), ("b", .string "x")]
    ¬ ∀ visited, visited.Perm config → interpolate textRendering.toFormatting "\x7ba\x7d" visited =
        .ofList (fill textRendering.toFormatting config "\x7ba\x7d" config) := by
  intro config h
  have horder := h config (List.Perm.refl _)
  revert horder
  decide

end stages

end Dataflow.Connectors.Interpolation
