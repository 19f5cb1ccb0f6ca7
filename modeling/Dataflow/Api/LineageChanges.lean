import Dataflow.Library.Chains
import Dataflow.Library.Transition
import Dataflow.Model.Sprint
import Dataflow.Model.Unmarshal
import Mathlib.Data.List.Fold
import Mathlib.Data.List.MinMax
import Mathlib.Data.List.Sort
import Mathlib.Data.Prod.Lex
import Mathlib.Data.Rat.Cast.Order

/-!
# The changes between the versions of a pipeline

Each version of a pipeline is stored with its definition, and the definition has the number of the
version in it. The list of changes compares the text of each definition with the text of the one
before it.

* `StoreEvent`, `storeStep`: what adds a version, and what changes the status of one.
* `changeStep`, `changeItems`, `lineageChanges`: the code.
* `sprint_versioned_ne`: definitions with different versions have different texts.
* `mem_changeItems`: what the loop reports; `versions_differ`: consecutive versions are different.
* **`lineageChanges_exact_iff`**: the list is exact iff no version has the definition of the one
  before it.
* `saved_again`: a definition that is saved twice.

Source: `routes_pipelines.go`
-/

namespace Dataflow.Api

open Library.Chains Library.Transition Model List Function

/-! ## The data -/

/-- The keys `json.Marshal` writes for a `PipelineDefinition`, but for its version. -/
def definitionKeys : List String :=
  ["id", "name", "tenantId", "trigger", "nodes", "edges", "concurrency", "metadata", "slo", "notifications",
    "execution"]

/-- The fields of a definition but for its version, as `json.Marshal` writes them. -/
structure DefinitionFields where
  fields : JsonMap
  known : ∀ key ∈ fields.keys, key ∈ definitionKeys

/-- `def.Version = version`, and the value that is stored. -/
def DefinitionFields.versioned (definition : DefinitionFields) (version : ℤ) : Json :=
  .object (("version", .number version) :: definition.fields)

/-- A row of `pipelines`, as far as the query reads it. -/
structure StoredVersion where
  id : String
  pipelineKey : String
  version : ℤ
  name : String
  status : String
  environment : String
  createdAt : String
  definition : DefinitionFields

/-- What adds a version: a definition that is saved, and a version that is promoted; and what
changes the status of versions. -/
inductive StoreEvent where
  | create (id pipelineKey name createdAt : String) (definition : DefinitionFields)
  | promote (rowId id createdAt : String)
  | restatus (status : StoredVersion → String)

/-- `coalesce(MAX(version),0)+1`. -/
def freshVersion (rows : List StoredVersion) (key : String) : ℤ :=
  ((rows.filter fun row => row.pipelineKey = key).map StoredVersion.version).foldl max 0 + 1

/-- The status of versions is changed. -/
def restatus (status : StoredVersion → String) (rows : List StoredVersion) : List StoredVersion :=
  rows.map fun row => { row with status := status row }

/-- The statements of `pipelineCreate`, `createProductionVersion`, and of the operations that change
the status. -/
def storeStep (rows : List StoredVersion) : StoreEvent → Option (List StoredVersion)
  | .create id pipelineKey name createdAt definition =>
    if id ∈ rows.map StoredVersion.id then none
    else some (rows ++
      [⟨id, pipelineKey, freshVersion rows pipelineKey, name, "draft", "test", createdAt, definition⟩])
  | .promote rowId id createdAt =>
    match rows.find? fun row => row.id = rowId with
    | none => none
    | some row =>
      if row.environment ≠ "test" ∨ id ∈ rows.map StoredVersion.id then none
      else
        let archived := restatus (fun other =>
          if other.pipelineKey = row.pipelineKey ∧ other.environment = "prod" ∧ other.status = "active" then
            "archived"
          else other.status) rows
        some (archived ++ [⟨id, row.pipelineKey, freshVersion rows row.pipelineKey, row.name, "active",
          "prod", createdAt, row.definition⟩])
  | .restatus status => some (restatus status rows)

/-- An item of the list. -/
structure ChangeItem where
  rowId : String
  pipelineKey : String
  name : String
  status : String
  environment : String
  fromVersion : ℤ
  toVersion : ℤ
  createdAt : String
  summary : List (String × ℕ) := [("breaking", 0), ("warning", 0), ("info", 1)]
  changes : List (List (String × String)) :=
    [[("severity", "info"), ("kind", "definition.changed"), ("message", "pipeline definition changed")]]
  deriving DecidableEq

/-! ## The code -/

/-- `ORDER BY pipeline_key,environment,version`. -/
def orderKey (row : StoredVersion) : Lex (String × Lex (String × ℤ)) :=
  toLex (row.pipelineKey, toLex (row.environment, row.version))

/-- The query. -/
def queryVersions (environment : String) (rows : List StoredVersion) : List StoredVersion :=
  (rows.filter fun row => environment = "" ∨ row.environment = environment).insertionSort
    fun row other => orderKey row ≤ orderKey other

/-- The key of a row. -/
def groupKey (row : StoredVersion) : String := row.pipelineKey ++ ":" ++ row.environment

/-- The item about two versions. -/
def changeItem (old row : StoredVersion) : ChangeItem where
  rowId := row.id
  pipelineKey := row.pipelineKey
  name := row.name
  status := row.status
  environment := row.environment
  fromVersion := old.version
  toVersion := row.version
  createdAt := row.createdAt

section code

variable (numbers : NumberTexts)

/-- `stringValue(row["definition"])`. -/
def definitionText (row : StoredVersion) : String :=
  sprint numbers (row.definition.versioned row.version)

/-- One round of the loop. -/
def changeStep (state : (String → Option StoredVersion) × List ChangeItem) (row : StoredVersion) :
    (String → Option StoredVersion) × List ChangeItem :=
  let items := match state.1 (groupKey row) with
    | none => state.2
    | some old =>
      if definitionText numbers old ≠ definitionText numbers row then state.2 ++ [changeItem old row]
      else state.2
  (update state.1 (groupKey row) (some row), items)

/-- The items of all rows. -/
def changeItems (rows : List StoredVersion) : List ChangeItem :=
  (rows.foldl (changeStep numbers) (fun _ => none, [])).2

/-- Source: `routes_pipelines.go` `lineageChanges`. `limit` is what `strconv.Atoi` returns. -/
def lineageChanges (environment : String) (limit : ℤ) (rows : List StoredVersion) :
    Except String (List ChangeItem) :=
  if environment ≠ "" ∧ environment ≠ "test" ∧ environment ≠ "prod" then
    .error "environment must be test or prod"
  else
    let limit := if limit < 1 then 30 else limit
    let limit := if limit > 100 then 100 else limit
    let items := changeItems numbers (queryVersions environment rows)
    .ok (items.drop (items.length - limit.toNat))

end code

/-! ## Texts of definitions -/

section texts

variable {numbers : NumberTexts} {m : JsonMap} {key : String} {value : Json}

theorem insertField_last (h : ∀ entry ∈ m, entry.1 < key) :
    insertField key value m = m ++ [(key, value)] := by
  induction m with
  | nil => rfl
  | cons entry m ih =>
    obtain ⟨hentry, hrest⟩ := forall_mem_cons.mp h
    rw [insertField, if_neg hentry.not_gt, if_neg hentry.ne', ih hrest, cons_append]

theorem mem_keys_of_mem_normalizeFields {entry : String × Json}
    (h : entry ∈ Json.normalizeFields m) :
    entry.1 ∈ m.keys := by
  induction m with
  | nil =>
    simp [Json.normalizeFields] at h
  | cons first m ih =>
    obtain ⟨k, v⟩ := first
    rw [Json.normalizeFields] at h
    rcases mem_insertField h with rfl | h
    · exact mem_cons_self
    · exact mem_cons_of_mem _ (ih h)

/-- The last field of a map is at the end of its text. -/
theorem exists_printedMoreFields_append (m : JsonMap) : ∃ before, ∀ value : Json,
    Json.printedMoreFields numbers (m ++ [(key, value)]) =
      before ++ ':' :: (value.printed numbers ++ [']']) := by
  induction m with
  | nil =>
    refine ⟨' ' :: key.toList, fun value => ?_⟩
    rw [nil_append, Json.printedMoreFields, Json.printedMoreFields]
    rfl
  | cons entry m ih =>
    obtain ⟨k, v⟩ := entry
    obtain ⟨before, hbefore⟩ := ih
    refine ⟨' ' :: (k.toList ++ ':' :: (v.printed numbers ++ before)), fun value => ?_⟩
    rw [cons_append, Json.printedMoreFields, hbefore]
    simp only [append_assoc, cons_append]

theorem exists_printedFields_append (m : JsonMap) : ∃ before, ∀ value : Json,
    Json.printedFields numbers (m ++ [(key, value)]) =
      before ++ ':' :: (value.printed numbers ++ [']']) := by
  cases m with
  | nil =>
    refine ⟨key.toList, fun value => ?_⟩
    rw [nil_append, Json.printedFields, Json.printedMoreFields]
  | cons entry m =>
    obtain ⟨k, v⟩ := entry
    obtain ⟨before, hbefore⟩ := @exists_printedMoreFields_append numbers key m
    refine ⟨k.toList ++ ':' :: (v.printed numbers ++ before), fun value => ?_⟩
    rw [cons_append, Json.printedFields, hbefore]
    simp only [append_assoc, cons_append]

theorem lt_version_of_mem_definitionKeys (h : key ∈ definitionKeys) : key < "version" := by
  have hall : ∀ key ∈ definitionKeys, key < "version" := by decide
  exact hall key h

/-- **The version is at the end of the text.** -/
theorem exists_text_versioned (definition : DefinitionFields) : ∃ before, ∀ version : ℤ,
    (sprint numbers (definition.versioned version)).toList =
      before ++ ':' :: ((numbers.text version).toList ++ [']']) := by
  obtain ⟨before, hbefore⟩ := @exists_printedFields_append numbers "version"
    (Json.normalizeFields definition.fields)
  refine ⟨"map[".toList ++ before, fun version => ?_⟩
  have hlast : ∀ entry ∈ Json.normalizeFields definition.fields, entry.1 < "version" :=
    fun entry hentry =>
    lt_version_of_mem_definitionKeys (definition.known _ (mem_keys_of_mem_normalizeFields hentry))
  rw [sprint, String.toList_ofList, DefinitionFields.versioned, Json.normalize,
    Json.normalizeFields, insertField_last hlast, Json.printed, hbefore, Json.normalize,
    Json.printed, append_assoc]

theorem colon_not_numberChar : isNumberChar ':' = false := by decide

/-- What is behind the last colon. -/
theorem eq_of_append_colon {before before' text text' : List Char}
    (h : ∀ c ∈ text, isNumberChar c = true) (h' : ∀ c ∈ text', isNumberChar c = true)
    (heq : before ++ ':' :: text = before' ++ ':' :: text') : text = text' := by
  have htake : ∀ before text : List Char, (∀ c ∈ text, isNumberChar c = true) →
      (before ++ ':' :: text).reverse.takeWhile isNumberChar = text.reverse := by
    intro before text hall
    rw [reverse_append, reverse_cons, append_assoc,
      takeWhile_append_of_pos fun c hc => hall c (mem_reverse.mp hc)]
    simp [colon_not_numberChar]
  have hreverse := congrArg (fun all : List Char => all.reverse.takeWhile isNumberChar) heq
  rw [htake before text h, htake before' text' h'] at hreverse
  exact reverse_injective hreverse

/-- **Different versions have different texts.** -/
theorem sprint_versioned_ne {definition definition' : DefinitionFields} {version version' : ℤ}
    (h : version ≠ version') :
    sprint numbers (definition.versioned version) ≠ sprint numbers (definition'.versioned version') := by
  intro heq
  obtain ⟨before, hbefore⟩ := @exists_text_versioned numbers definition
  obtain ⟨before', hbefore'⟩ := @exists_text_versioned numbers definition'
  have hlist := congrArg String.toList heq
  rw [hbefore, hbefore', ← cons_append, ← cons_append, ← append_assoc, ← append_assoc]
    at hlist
  have htext := eq_of_append_colon (numbers.chars version) (numbers.chars version')
    (append_cancel_right hlist)
  exact h (by exact_mod_cast numbers.injective (String.toList_injective htext))

end texts

/-! ## What is stored -/

section store

variable {rows rows' : List StoredVersion} {e : StoreEvent}

/-- A version of a pipeline. -/
def versionKey (row : StoredVersion) : String × ℤ := (row.pipelineKey, row.version)

/-- **What holds of the stored versions**: no two versions of a pipeline have one number, and a
version belongs to one of two environments. -/
structure Stored (rows : List StoredVersion) : Prop where
  versions : (rows.map versionKey).Nodup
  environments : ∀ row ∈ rows, row.environment = "test" ∨ row.environment = "prod"

theorem version_lt_freshVersion {row : StoredVersion} (h : row ∈ rows) :
    row.version < freshVersion rows row.pipelineKey := by
  have hmem : row.version ∈
      (rows.filter fun other => other.pipelineKey = row.pipelineKey).map StoredVersion.version :=
    mem_map.mpr ⟨row, mem_filter.mpr ⟨h, decide_eq_true rfl⟩, rfl⟩
  unfold freshVersion
  rw [foldl_eq_foldr]
  have hle : row.version ≤ List.foldr max 0 _ := le_max_of_le' 0 hmem (le_refl _)
  omega

theorem map_versionKey_restatus (status : StoredVersion → String) :
    (restatus status rows).map versionKey = rows.map versionKey := by
  rw [restatus, map_map]
  rfl

theorem Stored.restatus (h : Stored rows) (status : StoredVersion → String) :
    Stored (restatus status rows) where
  versions := by
    rw [map_versionKey_restatus]
    exact h.versions
  environments row hrow := by
    obtain ⟨other, hother, rfl⟩ := mem_map.mp hrow
    exact h.environments other hother

/-- **A new version.** -/
theorem Stored.add (h : Stored rows) (hkeys : rows'.map versionKey = rows.map versionKey)
    (henvironments : ∀ row ∈ rows', row.environment = "test" ∨ row.environment = "prod")
    {row : StoredVersion} (hversion : row.version = freshVersion rows row.pipelineKey)
    (henvironment : row.environment = "test" ∨ row.environment = "prod") :
    Stored (rows' ++ [row]) where
  versions := by
    rw [map_append, map_singleton, ← concat_eq_append, nodup_concat, hkeys]
    refine ⟨?_, h.versions⟩
    intro hmem
    obtain ⟨other, hother, heq⟩ := mem_map.mp hmem
    obtain ⟨hkey, hsame⟩ := Prod.mk.inj heq
    have hlt := version_lt_freshVersion hother
    rw [hkey, hsame, hversion] at hlt
    exact lt_irrefl _ hlt
  environments other hother := by
    rcases mem_append.mp hother with hother | hother
    · exact henvironments other hother
    · rw [mem_singleton.mp hother]
      exact henvironment

/-- **One step.** -/
theorem Stored.step (h : Stored rows) (hstep : storeStep rows e = some rows') : Stored rows' := by
  cases e with
  | create id pipelineKey name createdAt definition =>
    rw [storeStep] at hstep
    split_ifs at hstep
    cases hstep
    exact h.add rfl h.environments rfl (.inl rfl)
  | promote rowId id createdAt =>
    rw [storeStep] at hstep
    split at hstep
    · cases hstep
    · split_ifs at hstep
      cases hstep
      refine h.add (map_versionKey_restatus _) ?_ rfl (.inr rfl)
      exact (h.restatus _).environments
  | restatus status =>
    cases hstep
    exact h.restatus status

/-- **Every run.** -/
theorem stored_of_run {events : List StoreEvent} (h : Run storeStep Any [] events rows) :
    Stored rows := by
  refine @Run.invariant _ _ storeStep Any [] rows events (fun _ rows => Stored rows) ?_ ?_ h
  · exact ⟨nodup_nil, fun row hrow => absurd hrow not_mem_nil⟩
  · exact fun _ _ _ _ hstored _ hstep => hstored.step hstep

theorem perm_queryVersions (environment : String) (rows : List StoredVersion) :
    (queryVersions environment rows).Perm
      (rows.filter fun row => environment = "" ∨ row.environment = environment) :=
  perm_insertionSort _ _

/-- What the query returns. -/
theorem Stored.query (h : Stored rows) (environment : String) :
    Stored (queryVersions environment rows) where
  versions := by
    rw [((perm_queryVersions environment rows).map versionKey).nodup_iff]
    exact h.versions.sublist (filter_sublist.map versionKey)
  environments row hrow :=
    h.environments row (mem_of_mem_filter ((perm_queryVersions environment rows).mem_iff.mp hrow))

end store

/-! ## What is reported -/

section reports

variable {numbers : NumberTexts} {rows : List StoredVersion} {old new : StoredVersion}

/-- The one version is the next one of the same pipeline in the same environment. -/
def Consecutive (rows : List StoredVersion) (old new : StoredVersion) : Prop :=
  (old, new) ∈ pairs
    (rows.filter fun row => row.pipelineKey = old.pipelineKey ∧ row.environment = old.environment)

/-- The definitions are different JSON values, apart from their versions. -/
def DiffersElsewhere (old new : StoredVersion) : Prop :=
  (Json.object old.definition.fields).normalize ≠ (Json.object new.definition.fields).normalize

/-- **The list is exact**: there is an item about consecutive versions iff they differ in something
else than their version. -/
def ChangesExact (numbers : NumberTexts) (rows : List StoredVersion) : Prop :=
  ∀ old new, Consecutive rows old new →
    (changeItem old new ∈ changeItems numbers rows ↔ DiffersElsewhere old new)

theorem changeStep_previous (state : (String → Option StoredVersion) × List ChangeItem)
    (row : StoredVersion) :
    (changeStep numbers state row).1 = update state.1 (groupKey row) (some row) := rfl

/-- Items are only added. -/
theorem mem_foldl_changeStep {item : ChangeItem} (rows : List StoredVersion)
    {state : (String → Option StoredVersion) × List ChangeItem} (h : item ∈ state.2) :
    item ∈ (rows.foldl (changeStep numbers) state).2 := by
  induction rows generalizing state with
  | nil => exact h
  | cons row rows ih =>
    apply ih
    unfold changeStep
    split
    · exact h
    · split_ifs
      · exact mem_append_left _ h
      · exact h

/-- **The loop** compares each row with the row of the same key before it. -/
theorem mem_changeItems_of_pairs {key : String} (rows : List StoredVersion)
    {state : (String → Option StoredVersion) × List ChangeItem}
    (hpair : (old, new) ∈ pairs ((state.1 key).toList ++ rows.filter fun row => groupKey row = key))
    (htext : definitionText numbers old ≠ definitionText numbers new) :
    changeItem old new ∈ (rows.foldl (changeStep numbers) state).2 := by
  induction rows generalizing state with
  | nil =>
    rw [filter_nil, append_nil] at hpair
    cases hstate : state.1 key <;> simp [hstate, pairs] at hpair
  | cons row rows ih =>
    rw [foldl_cons]
    by_cases hkey : groupKey row = key
    · rw [filter_cons_of_pos (by simpa using hkey)] at hpair
      have hnext : (changeStep numbers state row).1 key = some row := by
        rw [changeStep_previous, hkey, update_self]
      cases hstate : state.1 key with
      | none =>
        rw [hstate] at hpair
        refine ih ?_
        rw [hnext]
        exact hpair
      | some before =>
        rw [hstate, Option.toList_some, singleton_append, pairs_cons_cons, mem_cons] at hpair
        rcases hpair with heq | hpair
        · obtain ⟨rfl, rfl⟩ := Prod.mk.inj heq
          apply mem_foldl_changeStep
          rw [changeStep, hkey, hstate]
          dsimp only
          rw [if_pos htext]
          exact mem_append_right _ mem_cons_self
        · refine ih ?_
          rw [hnext]
          exact hpair
    · rw [filter_cons_of_neg (by simpa using hkey)] at hpair
      refine ih ?_
      rw [changeStep_previous, update_of_ne (Ne.symm hkey)]
      exact hpair

/-- The key of a row tells its pipeline and its environment. -/
theorem groupKey_eq_iff {row other : StoredVersion}
    (h : row.environment = "test" ∨ row.environment = "prod")
    (h' : other.environment = "test" ∨ other.environment = "prod") : groupKey row = groupKey other ↔
      row.pipelineKey = other.pipelineKey ∧ row.environment = other.environment := by
  constructor
  · intro heq
    have hlist := congrArg (fun key : String => key.toList.reverse) heq
    rcases h with h | h <;> rcases h' with h' | h'
    · rw [groupKey, groupKey, h, h'] at heq
      exact ⟨by simpa using heq, h.trans h'.symm⟩
    · simp [groupKey, h, h'] at hlist
    · simp [groupKey, h, h'] at hlist
    · rw [groupKey, groupKey, h, h'] at heq
      exact ⟨by simpa using heq, h.trans h'.symm⟩
  · rintro ⟨hkey, henvironment⟩
    rw [groupKey, groupKey, hkey, henvironment]

/-- **Consecutive versions with different texts** are reported. -/
theorem mem_changeItems (h : Stored rows) (hnext : Consecutive rows old new)
    (htext : definitionText numbers old ≠ definitionText numbers new) :
    changeItem old new ∈ changeItems numbers rows := by
  have hold : old ∈ rows := mem_of_mem_filter (of_mem_zip hnext).1
  refine @mem_changeItems_of_pairs numbers old new (groupKey old) rows (fun _ => none, []) ?_ htext
  rw [Option.toList_none, nil_append]
  have hfilter : rows.filter (fun row => groupKey row = groupKey old) = rows.filter
      fun row => row.pipelineKey = old.pipelineKey ∧ row.environment = old.environment := by
    refine filter_congr fun row hrow => decide_eq_decide.mpr ?_
    exact groupKey_eq_iff (h.environments row hrow) (h.environments old hold)
  rw [hfilter]
  exact hnext

/-- Consecutive versions have different numbers. -/
theorem versions_differ (h : Stored rows) (hnext : Consecutive rows old new) :
    old.version ≠ new.version := by
  have hpairwise : rows.Pairwise fun row other => versionKey row ≠ versionKey other :=
    pairwise_map.mp h.versions
  have hkeys : versionKey old ≠ versionKey new := mem_of_isChain (hpairwise.filter _).isChain hnext
  have hnew := (of_mem_zip hnext).2
  have hsame := of_decide_eq_true (mem_filter.mp (mem_of_mem_tail hnew)).2
  intro heq
  exact hkeys (Prod.ext hsame.1.symm heq)

/-- **Every version is reported** as a change of the one before it. -/
theorem mem_changeItems_of_consecutive (h : Stored rows) (hnext : Consecutive rows old new) :
    changeItem old new ∈ changeItems numbers rows :=
  mem_changeItems h hnext (sprint_versioned_ne (versions_differ h hnext))

/-- **The list of changes is exact** iff no version has the definition of the one before it:
whatever was saved and promoted, each version is reported.
Source: `routes_pipelines.go` `lineageChanges` -/
theorem lineageChanges_exact_iff (numbers : NumberTexts) (events : List StoreEvent)
    (rows : List StoredVersion) (hrun : Run storeStep Any [] events rows) (environment : String) :
    ChangesExact numbers (queryVersions environment rows) ↔
      ∀ old new, Consecutive (queryVersions environment rows) old new → DiffersElsewhere old new := by
  have hstored := (stored_of_run hrun).query environment
  constructor
  · intro hexact old new hnext
    exact (hexact old new hnext).mp (mem_changeItems_of_consecutive hstored hnext)
  · intro hdiffers old new hnext
    exact iff_of_true (mem_changeItems_of_consecutive hstored hnext) (hdiffers old new hnext)

/-- A definition with a name. -/
def named (name : String) : DefinitionFields where
  fields := [("id", .string "1"), ("name", .string name), ("nodes", .array [])]
  known := by simp [JsonMap.keys, definitionKeys]

/-- A version that was saved. -/
def savedVersion (id name : String) (version : ℤ) : StoredVersion :=
  ⟨id, "1", version, name, "draft", "test", "", named name⟩

/-- Two versions that were saved one after the other. -/
def savedTwice (name : String) : List StoredVersion :=
  [savedVersion "a" "orders" 1, savedVersion "b" name 2]

theorem run_savedTwice (name : String) : Run storeStep Any []
    [.create "a" "1" "orders" "" (named "orders"), .create "b" "1" name "" (named name)]
    (savedTwice name) :=
  Run.of_foldlM (fun _ _ _ _ => trivial) rfl

theorem queryVersions_savedTwice (name : String) :
    queryVersions "test" (savedTwice name) = savedTwice name := by
  have hall : (savedTwice name).filter (fun row => "test" = "" ∨ row.environment = "test") =
    savedTwice name := rfl
  rw [queryVersions, hall]
  have hversion : (savedVersion "a" "orders" 1).version ≤ (savedVersion "b" name 2).version :=
    show (1 : ℤ) ≤ 2 by decide
  refine List.Pairwise.insertionSort_eq (pairwise_pair.mpr ?_)
  exact Prod.Lex.toLex_le_toLex.mpr (.inr ⟨rfl, Prod.Lex.toLex_le_toLex.mpr (.inr ⟨rfl, hversion⟩)⟩)

theorem consecutive_savedTwice {name : String} : Consecutive (savedTwice name) old new ↔
    old = savedVersion "a" "orders" 1 ∧ new = savedVersion "b" name 2 := by
  constructor
  · intro h
    have hgroup : old.pipelineKey = "1" ∧ old.environment = "test" := by
      have hmem : old ∈ savedTwice name := mem_of_mem_filter (of_mem_zip h).1
      rcases mem_cons.mp hmem with rfl | hmem
      · exact ⟨rfl, rfl⟩
      · rw [mem_singleton.mp hmem]
        exact ⟨rfl, rfl⟩
    rw [Consecutive, hgroup.1, hgroup.2] at h
    exact Prod.mk.inj (mem_singleton.mp h)
  · rintro ⟨rfl, rfl⟩
    exact mem_singleton_self _

/-- The theorem at a definition that was given another name. -/
theorem lineageChanges_exact_iff_renamed :
    ChangesExact countedTexts.toNumberTexts (queryVersions "test" (savedTwice "sales")) := by
  refine (lineageChanges_exact_iff _ _ _ (run_savedTwice "sales") "test").mpr ?_
  intro old new hnext
  rw [queryVersions_savedTwice, consecutive_savedTwice] at hnext
  obtain ⟨rfl, rfl⟩ := hnext
  unfold DiffersElsewhere
  decide

/-- **A definition that is saved twice** is reported as a change. -/
theorem saved_again :
    ¬ ∀ (numbers : NumberTexts) (events : List StoreEvent) (rows : List StoredVersion),
    Run storeStep Any [] events rows → ∀ environment,
      ChangesExact numbers (queryVersions environment rows) := by
  intro h
  have hrun := run_savedTwice "orders"
  have hexact := h countedTexts.toNumberTexts _ _ hrun "test"
  have hstored := (stored_of_run hrun).query "test"
  have hnext :
      Consecutive (queryVersions "test" (savedTwice "orders")) (savedVersion "a" "orders" 1)
      (savedVersion "b" "orders" 2) := by
    rw [queryVersions_savedTwice]
    exact consecutive_savedTwice.mpr ⟨rfl, rfl⟩
  exact (hexact _ _ hnext).mp (mem_changeItems_of_consecutive hstored hnext) rfl

end reports

end Dataflow.Api
