import Dataflow.Activities.Entitlements
import Dataflow.Api.Billing
import Dataflow.Library.Results
import Dataflow.Model.Sprint

/-!
# Missing fields

`stringValue` gives the text `<nil>` for a field that is absent or null. The checks that compare it
with the empty text find such a field only if something else does.

* `Missing`: a field is absent, null or the empty text.
* `storeOpenLineage`: the code; `LineageTable` is its table, with the constraints it has.
* `error_storeOpenLineage`: an event without a field is rejected, by the check or by the table.
* `error_validateBackfillSources_iff`: when sources are rejected.
* `takesId_iff`: when the webhook of the payment provider takes the id of the order.
* **`missing_fields_iff`**: all three.
* `missing_fields_accepted`: a source without a cursor field, and a payment without an order.

Source: `auth.go` `stringValue`, `routes_triggers.go`, `backfills.go`, `routes_billing.go`,
`db/015_openlineage.sql`
-/

namespace Dataflow.Api

open Activities (Formatting goFormatting)
open Api.BackfillPlanning Api.Billing Library Model

/-- A field is absent, null or the empty text. -/
def Missing (value : Json) : Prop := value = .null ∨ value = .string ""

instance (value : Json) : Decidable (Missing value) := inferInstanceAs (Decidable (_ ∨ _))

/-! ## Texts of values -/

section texts

variable {numbers : NumberTexts} {scanFloat : String → ℚ} {value : Json}

theorem stringValue_goFormatting :
    stringValue (goFormatting numbers scanFloat) value = sprint numbers value := by
  cases value with
  | string text => rw [sprint_string, stringValue]
  | null | bool b | number n | array items | object fields => rfl

/-- **The text of a value is `<nil>`** for nil, and for that text. -/
theorem sprint_eq_nil_iff : sprint numbers value = "<nil>" ↔
    value = .null ∨ value = .string "<nil>" := by
  cases value with
  | null => exact iff_of_true rfl (.inl rfl)
  | string text => simp
  | bool b =>
    refine iff_of_false ?_ (by simp)
    intro h
    have hlist := congrArg String.toList h
    rw [sprint, String.toList_ofList] at hlist
    cases b <;> cases hlist
  | number n =>
    refine iff_of_false ?_ (by simp)
    intro h
    have hmem : '<' ∈ (numbers.text n).toList := by
      have hlist := congrArg String.toList h
      rw [sprint, String.toList_ofList] at hlist
      rw [show (numbers.text n).toList = "<nil>".toList from hlist]
      decide
    exact absurd (numbers.chars n _ hmem) (by decide)
  | array items | object fields =>
    refine iff_of_false ?_ (by simp)
    intro h
    have hlist := congrArg String.toList h
    rw [sprint, String.toList_ofList] at hlist
    cases hlist

end texts

/-! ## Events of OpenLineage -/

/-- A row of `external_lineage_events`. -/
structure ExternalLineageEvent where
  tenantId : String
  environment : String
  eventType : Json
  eventTime : Json
  runId : Json
  jobNamespace : Json
  jobName : Json
  inputs : Json
  outputs : Json
  producer : String
  payload : JsonMap
  deriving DecidableEq

namespace ExternalLineageEvent

variable (row : ExternalLineageEvent)

/-- The columns that have no default and are `NOT NULL`, with what the row has for them. Those whose
values are Go texts or lists are never null. -/
def required : List (String × Json) :=
  [("run_id", row.runId), ("event_type", row.eventType), ("event_time", row.eventTime),
    ("job_namespace", row.jobNamespace), ("job_name", row.jobName)]

/-- The first of them that is null. -/
def nullColumn? : Option String :=
  (row.required.find? fun column => column.2 = .null).map Prod.fst

/-- The `CHECK` of the environment and of the kind of event. -/
def Checks : Prop :=
  row.environment ∈ ["test", "prod"] ∧
    row.eventType ∈ ["START", "RUNNING", "COMPLETE", "ABORT", "FAIL", "OTHER"].map Json.string

instance : Decidable row.Checks := inferInstanceAs (Decidable (_ ∧ _))

/-- The columns that are `UNIQUE` together. -/
def key : String × Json × Json × Json × Json :=
  (row.tenantId, row.jobNamespace, row.jobName, row.runId, row.eventType)

end ExternalLineageEvent

/-- The table, and how the driver writes the values of a row as the types of their columns. -/
structure LineageTable where
  rows : List ExternalLineageEvent
  encode : ExternalLineageEvent → Except String Unit

/-- The transaction that inserts a row. Source: `db/015_openlineage.sql` -/
def LineageTable.insert (table : LineageTable) (row : ExternalLineageEvent) :
    Except String LineageTable := do
  table.encode row
  match row.nullColumn? with
  | some column => throw ("null value in column " ++ column ++ " violates not-null constraint")
  | none =>
    if ¬ row.Checks then throw "new row violates check constraint"
    else if row.key ∈ table.rows.map (·.key) then
      throw "duplicate key value violates unique constraint"
    else return { table with rows := table.rows ++ [row] }

/-- A field that is nil is taken for an empty list. -/
def listOrEmpty : Json → Json
  | .null => .array []
  | value => value

/-- The type assertion to a map, without its second result. -/
def objectOrNil (value : Json) : JsonMap := value.asObject?.getD []

/-- Source: `routes_triggers.go` `storeOpenLineage`. -/
def storeOpenLineage (formatting : Formatting) (table : LineageTable)
    (tenantID environment : String) (event : JsonMap) : Except String LineageTable :=
  let job := objectOrNil (event.get "job")
  let run := objectOrNil (event.get "run")
  if stringValue formatting (job.get "namespace") = "" ∨ stringValue formatting (job.get "name") = "" ∨
      stringValue formatting (run.get "runId") = "" then
    .error "invalid OpenLineage event"
  else
    table.insert
      { tenantId := tenantID, environment, eventType := event.get "eventType"
        eventTime := event.get "eventTime", runId := run.get "runId"
        jobNamespace := job.get "namespace", jobName := job.get "name"
        inputs := listOrEmpty (event.get "inputs"), outputs := listOrEmpty (event.get "outputs")
        producer := stringValue formatting (event.get "producer"), payload := event }

/-- The event has no job namespace, no job name or no run id. -/
def LacksField (event : JsonMap) : Prop :=
  Missing ((objectOrNil (event.get "job")).get "namespace") ∨
    Missing ((objectOrNil (event.get "job")).get "name") ∨
    Missing ((objectOrNil (event.get "run")).get "runId")

section events

variable {numbers : NumberTexts} {scanFloat : String → ℚ}

/-- **A row without a job or a run is not inserted.** -/
theorem error_insert (table : LineageTable) {row : ExternalLineageEvent}
    (h : row.runId = .null ∨ row.jobNamespace = .null ∨ row.jobName = .null) :
    ∃ message, table.insert row = .error message := by
  have hnull : ∃ column, row.nullColumn? = some column := by
    rw [← Option.isSome_iff_exists, ExternalLineageEvent.nullColumn?, Option.isSome_map,
      List.find?_isSome]
    rcases h with h | h | h
    · exact ⟨("run_id", row.runId), by simp [ExternalLineageEvent.required], by simp [h]⟩
    · exact ⟨("job_namespace", row.jobNamespace), by simp [ExternalLineageEvent.required], by simp [h]⟩
    · exact ⟨("job_name", row.jobName), by simp [ExternalLineageEvent.required], by simp [h]⟩
  obtain ⟨column, hcolumn⟩ := hnull
  unfold LineageTable.insert
  cases table.encode row with
  | error message => exact ⟨message, rfl⟩
  | ok _ =>
    rw [hcolumn]
    exact ⟨_, rfl⟩

/-- **An event without a field is rejected**: one that is empty by the check, and one that is nil by
the table. -/
theorem error_storeOpenLineage (table : LineageTable) (tenantID environment : String)
    {event : JsonMap} (h : LacksField event) : ∃ message,
      storeOpenLineage (goFormatting numbers scanFloat) table tenantID environment event =
        .error message := by
  unfold storeOpenLineage
  dsimp only
  split_ifs with hempty
  · exact ⟨_, rfl⟩
  · simp only [stringValue_goFormatting, sprint_eq_empty_iff, not_or] at hempty
    apply error_insert
    rcases h with h | h | h
    · exact .inr (.inl (h.resolve_right hempty.1))
    · exact .inr (.inr (h.resolve_right hempty.2.1))
    · exact .inl (h.resolve_right hempty.2.2)

/-! ## Sources of a backfill -/

/-- The field of the config that a source is partitioned by. -/
def cursorField (node : Node) : Json :=
  if node.activityType = "mongodb.fetch" then JsonMap.get node.config "cursorField"
  else JsonMap.get node.config "cursorColumn"

/-- **A source that is refused**: for its connector, its mode, the type of its cursor, or an empty
text in place of the field. -/
def Refused (node : Node) : Prop :=
  node.activityType ∉ ["postgres.fetch", "mysql.fetch", "mongodb.fetch"] ∨
    JsonMap.get node.config "syncMode" ≠ .string "cursor" ∨
    JsonMap.get node.config "cursorType" ≠ .string "date" ∨ cursorField node = .string ""

theorem validateBackfillSource_eq_ok_iff {node : Node} :
    validateBackfillSource (goFormatting numbers scanFloat) node = .ok () ↔ ¬ Refused node := by
  unfold validateBackfillSource Refused cursorField
  simp only [stringValue_goFormatting, sprint_eq_empty_iff]
  split_ifs <;> simp_all

/-- **When sources are rejected.** -/
theorem error_validateBackfillSources_iff {definition : PipelineDefinition} : (∃ message,
      validateBackfillSources (goFormatting numbers scanFloat) definition = .error message) ↔
        (∀ node ∈ definition.nodes, node.type ≠ .source) ∨
          ∃ node ∈ definition.nodes, node.type = .source ∧ Refused node := by
  unfold validateBackfillSources
  dsimp only
  cases hsources : forM (definition.nodes.filter fun node => node.type = .source)
      (validateBackfillSource (goFormatting numbers scanFloat)) with
  | error err =>
    refine iff_of_true ⟨err, rfl⟩ (.inr ?_)
    have hnot : ¬ ∀ node ∈ definition.nodes.filter fun node => node.type = .source,
        validateBackfillSource (goFormatting numbers scanFloat) node = .ok () := by
      rw [← forM_eq_ok_iff]
      exact fun hok => by cases hsources.symm.trans hok
    push Not at hnot
    obtain ⟨node, hmem, hnode⟩ := hnot
    rw [Ne, validateBackfillSource_eq_ok_iff, not_not] at hnode
    rw [List.mem_filter, decide_eq_true_eq] at hmem
    exact ⟨node, hmem.1, hmem.2, hnode⟩
  | ok value =>
    have hall := forM_eq_ok_iff.mp hsources
    have haccepted : ∀ node ∈ definition.nodes, node.type = .source → ¬ Refused node := by
      intro node hnode htype
      rw [← validateBackfillSource_eq_ok_iff]
      exact hall node (List.mem_filter.mpr ⟨hnode, decide_eq_true htype⟩)
    have hnone : ((definition.nodes.filter fun node => node.type = .source).isEmpty = true) ↔
        ∀ node ∈ definition.nodes, node.type ≠ .source := by
      simp
    simp only [Except.bind]
    rw [← hnone]
    split_ifs with hempty
    · exact iff_of_true ⟨_, rfl⟩ (.inl hempty)
    · refine iff_of_false (fun ⟨_, h⟩ => by cases h) ?_
      rintro (h | ⟨node, hnode, htype, hrefused⟩)
      · exact hempty h
      · exact haccepted node hnode htype hrefused

end events

/-! ## Payments -/

/-- The environment of the webhook, with the texts of the package `fmt`. -/
def goEnv (numbers : NumberTexts) (scanFloat : String → ℚ) (env : WebhookEnv) : WebhookEnv :=
  { env with formatting := goFormatting numbers scanFloat }

section payments

variable (numbers : NumberTexts) (scanFloat : String → ℚ)

/-- The id that a report gives for its order: the one of the payment, or else the one of the
order. -/
def givenId (event : WebhookEvent) : Option String :=
  if ¬ Missing (event.payment.get "order_id") then some (sprint numbers (event.payment.get "order_id"))
  else if ¬ Missing (event.order.get "id") then some (sprint numbers (event.order.get "id"))
  else none

/-- **The webhook takes the id that is given**, and without one reports that it is missing. -/
def TakesId (env : WebhookEnv) (request : WebhookRequest) (event : WebhookEvent) : Prop :=
  match givenId numbers event with
  | some id => orderIdOf (goFormatting numbers scanFloat) event = id
  | none => billingWebhook (goEnv numbers scanFloat env) request =
      .done (.error (.other "no order_id"))

/-- **The fields that are asked for the id are there**: a nil one is never asked, or its text is the
id that is given; and where the payment has not succeeded an id is given at all. -/
structure IdThere (event : WebhookEvent) : Prop where
  asked : (event.payment.get "order_id" ≠ .null ∧
      (event.payment.get "order_id" = .string "" → event.order.get "id" ≠ .null)) ∨
    (event.payment.get "order_id" = .null ∧ event.order.get "id" = .string "<nil>")
  needed : ¬ event.Succeeded →
    ¬ (Missing (event.payment.get "order_id") ∧ Missing (event.order.get "id"))

variable {numbers scanFloat} {event : WebhookEvent}

theorem orderIdOf_eq : orderIdOf (goFormatting numbers scanFloat) event =
    if event.payment.get "order_id" = .string "" then sprint numbers (event.order.get "id")
    else sprint numbers (event.payment.get "order_id") := by
  unfold orderIdOf
  simp only [stringValue_goFormatting, sprint_eq_empty_iff]

/-- The id is reported as missing where the payment has succeeded and the id is the empty text. -/
theorem processEvent_eq_missing_iff :
    processEvent (goFormatting numbers scanFloat) event = .done (.error (.other "no order_id")) ↔
      event.Succeeded ∧ orderIdOf (goFormatting numbers scanFloat) event = "" := by
  unfold processEvent
  dsimp only
  by_cases hsucceeded : event.Succeeded
  · rw [if_pos hsucceeded, and_iff_right hsucceeded]
    by_cases hid : orderIdOf (goFormatting numbers scanFloat) event = ""
    · exact iff_of_true (if_pos hid) hid
    · refine iff_of_false ?_ hid
      rw [if_neg hid]
      exact fun heq => by cases heq
  · refine iff_of_false ?_ fun h => hsucceeded h.1
    rw [if_neg hsucceeded]
    split_ifs
    · exact fun heq => by cases heq
    · exact fun heq => by cases heq

/-- **When the id that is given is taken**: unless a field is nil whose text is taken for an id, or
a payment that has not succeeded is without one. -/
theorem takesId_iff {env : WebhookEnv} {request : WebhookRequest}
    (haccept : accept (goEnv numbers scanFloat env) request = .ok event) :
    TakesId numbers scanFloat env request event ↔ IdThere event := by
  have hwebhook : billingWebhook (goEnv numbers scanFloat env) request =
      processEvent (goFormatting numbers scanFloat) event := by
    unfold billingWebhook
    rw [haccept]
    rfl
  have hthere : IdThere event ↔ _ ∧ _ := ⟨fun h => ⟨h.asked, h.needed⟩, fun h => ⟨h.1, h.2⟩⟩
  unfold TakesId
  rw [hwebhook, processEvent_eq_missing_iff, orderIdOf_eq, hthere]
  unfold givenId Missing
  generalize event.payment.get "order_id" = payment
  generalize event.order.get "id" = order
  by_cases hnull : payment = .null
  · subst hnull
    have htext : sprint numbers .null = "<nil>" := rfl
    by_cases hmissing : order = .null ∨ order = .string ""
    · rcases hmissing with rfl | rfl
      · simp [htext]
      · simp [htext]
    · have hgiven : sprint numbers order = "<nil>" ↔ order = .string "<nil>" := by
        rw [sprint_eq_nil_iff]
        exact or_iff_right fun h => hmissing (.inl h)
      simp [hmissing, htext, ← hgiven, eq_comm]
  · by_cases hempty : payment = .string ""
    · subst hempty
      by_cases hmissing : order = .null ∨ order = .string ""
      · rcases hmissing with rfl | rfl
        · simp [sprint_eq_empty_iff]
        · simp
      · simp [not_or.mp hmissing]
    · simp [hnull, hempty]

end payments

/-! ## The result -/

/-- **Fields that are missing.** An event without its job or its run is rejected; sources without
a cursor field are rejected exactly if one of them is refused for another reason or has the empty
text there; and the id of an order is taken as it is given, or reported as missing, exactly if the fields
that are asked for it are there. -/
theorem missing_fields_iff (numbers : NumberTexts) (scanFloat : String → ℚ) :
    (∀ (table : LineageTable) (tenantID environment : String) (event : JsonMap), LacksField event →
      ∃ message, storeOpenLineage (goFormatting numbers scanFloat) table tenantID environment event =
        .error message) ∧
    (∀ definition : PipelineDefinition,
      ((∃ node ∈ definition.nodes, node.type = .source ∧ Missing (cursorField node)) → ∃ message,
        validateBackfillSources (goFormatting numbers scanFloat) definition = .error message) ↔
      ((∃ node ∈ definition.nodes, node.type = .source ∧ Missing (cursorField node)) →
        ∃ node ∈ definition.nodes, node.type = .source ∧ Refused node)) ∧
    ∀ (env : WebhookEnv) (request : WebhookRequest) (event : WebhookEvent),
      accept (goEnv numbers scanFloat env) request = .ok event →
      (TakesId numbers scanFloat env request event ↔ IdThere event) := by
  refine ⟨fun table tenantID environment event => error_storeOpenLineage table tenantID environment,
    fun definition => ?_, fun env request event => takesId_iff⟩
  rw [error_validateBackfillSources_iff]
  refine forall_congr' fun ⟨node, hnode, htype, _⟩ => or_iff_right ?_
  exact fun hnone => hnone node hnode htype

/-- An empty table. -/
def emptyLineage : LineageTable := ⟨[], fun _ => .ok ()⟩

/-- A webhook that gives each request the report. -/
def reportEnv (event : WebhookEvent) : WebhookEnv :=
  ⟨"key", fun _ _ _ => true, fun _ => some event, ⟨fun _ => "", fun _ => 0⟩⟩

/-- A payment that gives no id, while its order does. -/
def paidOrder : WebhookEvent :=
  ⟨"payment.captured", [("order_id", .string "")], [("id", .string "order_1")]⟩

/-- An event without a run, a source whose field is the empty text, and a payment whose order gives
the id. -/
theorem missing_fields_iff_found :
    (∃ message, storeOpenLineage (goFormatting quotientTexts fun _ => 0) emptyLineage "t" "prod"
      [("job", .object [("namespace", .string "ns"), ("name", .string "job")])] = .error message) ∧
    (∃ message, validateBackfillSources (goFormatting quotientTexts fun _ => 0)
      { nodes := [{ id := "n1", type := .source, activityType := "postgres.fetch", config :=
        [("syncMode", .string "cursor"), ("cursorType", .string "date"),
          ("cursorColumn", .string "")] }] } = .error message) ∧
    TakesId quotientTexts (fun _ => 0) (reportEnv paidOrder) ⟨"00", some "body"⟩ paidOrder := by
  obtain ⟨hevents, hsources, hpayments⟩ := missing_fields_iff quotientTexts fun _ => 0
  refine ⟨?_, ?_, ?_⟩
  · apply hevents
    exact .inr (.inr (.inl rfl))
  · refine (hsources _).mpr (fun _ => ?_) ⟨_, List.mem_singleton_self _, rfl, .inr rfl⟩
    exact ⟨_, List.mem_singleton_self _, rfl, .inr (.inr (.inr rfl))⟩
  · refine (hpayments _ _ _ rfl).mpr ⟨.inl ⟨by decide, fun _ => by decide⟩, ?_⟩
    intro hnot
    exact absurd (.inl rfl) hnot

/-- A source without a column for its cursor is accepted, and a payment without an order asks for
the order with the id `<nil>`. -/
theorem missing_fields_accepted : (∃ definition : PipelineDefinition,
      (∃ node ∈ definition.nodes, node.type = .source ∧ Missing (cursorField node)) ∧
        validateBackfillSources (goFormatting quotientTexts fun _ => 0) definition = .ok ()) ∧
    ∃ env request event, accept (goEnv quotientTexts (fun _ => 0) env) request = .ok event ∧
      ¬ TakesId quotientTexts (fun _ => 0) env request event := by
  constructor
  · refine ⟨{ nodes := [{ id := "n1", type := .source, activityType := "postgres.fetch", config :=
      [("syncMode", .string "cursor"), ("cursorType", .string "date")] }] }, ?_, ?_⟩
    · exact ⟨_, List.mem_singleton_self _, rfl, .inl rfl⟩
    · rfl
  · have haccept : accept (goEnv quotientTexts (fun _ => 0) (reportEnv ⟨"payment.captured", [], []⟩))
        ⟨"00", some "body"⟩ = .ok ⟨"payment.captured", [], []⟩ := rfl
    refine ⟨_, _, _, haccept, ?_⟩
    intro htakes
    cases htakes

end Dataflow.Api
