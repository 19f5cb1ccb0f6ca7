import Dataflow.Activities.SparkActions

/-!
# Which connector instances the worker uses

The worker loads the credentials of a connector instance by its id alone, and it may read the
instances of all tenants. So each activity has to check that the instance belongs to the tenant of
its run.

* `verifyConnectorOwnership`, `fetchSourcePage`, `dispatchNode`, `alertNotification`: the code, up
  to the use of the instance.
* `WorkerCall`, `MadeBy`: the activities that the run of a definition calls.
* `Checked`: every use of an instance comes after evidence in the same activity that it is the
  tenant's.
* `ownership`, `follows_runConnector`: evidence as phases of an activity.
* `ReachesIceberg`: the definition is for `spark-sql`, and its run asks the catalog of an Iceberg
  table.
* **`connectors_checked_iff`**: every use in every run of a definition is checked iff the
  definition does not reach an Iceberg table; alerts are always checked.
* `foreign_instance_used`: a definition that can be saved, whose run uses an instance of another
  tenant.

Source: `activities.go`, `ee/activities/spark.go`, `credentials.go`, `databases.go`,
`dispatchers.go`
-/

namespace Dataflow.Activities

open Api Library Model Workflows List

/-! ## The code -/

/-- The activity types whose connector uses an instance. -/
def instanceActivities : List String :=
  ["postgres.fetch", "sink.postgres", "mysql.fetch", "sink.mysql", "mongodb.fetch", "sink.mongodb",
    "snowflake.fetch", "sink.snowflake", "sink.clickhouse", "s3.fetch", "sink.s3", "sftp.fetch",
    "sink.sftp", "iceberg.fetch", "sink.iceberg", "sink.webhook", "gsheets.fetch", "gdrive.fetch",
    "excel.fetch", "zendesk.fetch", "sink.gsheets", "kafka.fetch", "sink.kafka"]

/-- Those whose connections are cached. -/
def cachedActivities : List String :=
  ["postgres.fetch", "sink.postgres", "mysql.fetch", "sink.mysql", "mongodb.fetch", "sink.mongodb",
    "snowflake.fetch", "sink.snowflake"]

section code

variable (formatting : Formatting)

/-- The credentials are loaded, and used. -/
def loadInstance (id : String) (config : JsonMap) : ActivityProgram (Except String Unit) :=
  (credential id).bind fun
    | .error err => .done (.error err)
    | .ok _ => ask (.connect id config) fun reply => .done (reply.map fun _ => ())

/-- A connection to an instance, cached or new. No connection is cached for the empty id, since one
is cached after its credentials have been loaded. Source: `databases.go` `postgresConnection` -/
def connectInstance (activityType : String) (config : JsonMap) :
    ActivityProgram (Except String Unit) :=
  let id := stringValue formatting (config.get "connectionId")
  if activityType ∈ cachedActivities ∧ id ≠ "" then
    ask (.cachedConnection id) fun
      | true => ask (.connect id config) fun reply => .done (reply.map fun _ => ())
      | false => loadInstance id config
  else loadInstance id config

/-- Source: `runtime.go` `Fetch`, `Handle`; every connector takes the instance from its own
configuration. -/
def runConnector (activityType : String) (config : JsonMap) :
    ActivityProgram (Except String Unit) :=
  ask (.prepare activityType config) fun
    | .error err => .done (.error err)
    | .ok needed =>
      if needed = true ∧ activityType ∈ instanceActivities then
        connectInstance formatting activityType config
      else .done (.ok ())

/-- Source: `activities.go` `verifyConnectorOwnership`. -/
def verifyConnectorOwnership (tenantId : String) (config : JsonMap) :
    ActivityProgram (Except String Unit) :=
  let id := stringValue formatting (config.get "connectionId")
  if id = "" then .done (.ok ())
  else
    ask (.ownsConnector tenantId id) fun
      | .error err => .done (.error err)
      | .ok owns => if owns = true then .done (.ok ()) else .done (.error "connector not found")

/-- The checks of an activity, and its connector. -/
def checkedConnector (tenantId activityType : String) (config : JsonMap) :
    ActivityProgram (Except String Unit) :=
  ask (.requireEntitlement tenantId activityType config) fun
    | .error err => .done (.error err)
    | .ok () =>
      (verifyConnectorOwnership formatting tenantId config).bind fun
        | .error err => .done (.error err)
        | .ok () => runConnector formatting activityType config

/-- Source: `activities.go` `FetchSourcePage`, up to the page. -/
def fetchSourcePage (tenantId activityType : String) (config : JsonMap) :
    ActivityProgram (Except String Unit) :=
  checkedConnector formatting tenantId activityType config

/-- Source: `activities.go` `DispatchNode`, up to the result of the handler. -/
def dispatchNode (tenantId activityType : String) (config : JsonMap) :
    ActivityProgram (Except String Unit) :=
  checkedConnector formatting tenantId activityType config

/-- Source: `credentials.go` `AlertDestination`, and the request of `dispatchAlerts`. -/
def alertNotification (tenantId id : String) : ActivityProgram (Except String Unit) :=
  (credential id).bind fun
    | .error err => .done (.error err)
    | .ok row =>
      if row.tenantId ≠ tenantId then .done (.error "notification connector not found")
      else if row.provider ≠ "http" then
        .done (.error "notification connector must be an HTTP credential")
      else if row.baseUrl = "" then .done (.error "notification connector must have baseUrl")
      else
        ask (.validateURL row.baseUrl) fun
          | .error err => .done (.error ("notification " ++ err))
          | .ok () => ask (.connect id []) fun reply => .done (reply.map fun _ => ())

/-- The activities that use connector instances. -/
inductive WorkerCall where
  | fetchSourcePage (tenantId activityType : String) (config : JsonMap)
  | dispatchNode (tenantId activityType : String) (config : JsonMap)
  | submitSparkJob (definition : PipelineDefinition) (tenantId executionId : String)
  | commitSparkJob (ref : SparkJobRef) (definition : PipelineDefinition) (tenantId : String)

variable (enterprise : Enterprise)

/-- The requests of a call, with their replies. -/
abbrev ActivityTrace := List (Σ request, ActivityReply request)

/-- What a call may ask for, with what replies. -/
def WorkerCall.Trace (call : WorkerCall) (trace : ActivityTrace) : Prop :=
  match call with
  | .fetchSourcePage tenantId activityType config =>
    ∃ reply, (Activities.fetchSourcePage formatting tenantId activityType config).Yields trace reply
  | .dispatchNode tenantId activityType config =>
    ∃ reply, (Activities.dispatchNode formatting tenantId activityType config).Yields trace reply
  | .submitSparkJob definition tenantId executionId =>
    ∃ reply, (Activities.submitSparkJob formatting enterprise definition tenantId
      executionId).Yields trace reply
  | .commitSparkJob ref definition tenantId =>
    ∃ reply, (Activities.commitSparkJob formatting ref definition tenantId).Yields trace reply

/-- The activities that a run of a definition calls, by its engine. A Flink job is deployed without
a connector instance. -/
def MadeBy (definition : PipelineDefinition) (tenantId : String) (call : WorkerCall) : Prop :=
  match definition.execution.map ExecutionConfig.engine with
  | some "spark-sql" =>
    (∃ executionId, call = .submitSparkJob definition tenantId executionId) ∨
      ∃ executionId trace ref, (Activities.submitSparkJob formatting enterprise definition tenantId
        executionId).Yields trace (.ok ref) ∧ call = .commitSparkJob ref definition tenantId
  | some "flink-sql" => False
  | _ => ∃ node ∈ definition.nodes, call = .fetchSourcePage tenantId node.activityType node.config ∨
        call = .dispatchNode tenantId node.activityType node.config

end code

/-! ## Evidence -/

/-- The reply shows that an instance is the tenant's: the query of `verifyConnectorOwnership`, or
the row with the tenant. -/
def shows (tenantId : String) : (request : ActivityRequest) → ActivityReply request → List String
  | .ownsConnector tenantId' id, .ok owns => if tenantId' = tenantId ∧ owns = true then [id] else []
  | .credential id, .ok row => if row.tenantId = tenantId then [id] else []
  | _, _ => []

/-- Every use of an instance comes after evidence that the instance is the tenant's. -/
def Checked (tenantId : String) (trace : ActivityTrace) : Prop :=
  ∀ before after id config reply, trace = before ++ ⟨.connect id config, reply⟩ :: after →
    ∃ entry ∈ before, id ∈ shows tenantId entry.1 entry.2

/-- The phases of an activity are the instances with evidence; only these may be used. -/
def ownership (tenantId : String) :
    Coroutine.Protocol ActivityRequest ActivityReply Unit (List String) where
  allows ids
    | .connect id _ => id ∈ ids
    | _ => True
  next ids request reply := ids ++ shows tenantId request reply
  sees _ := True

section evidence

variable {tenantId : String} {α : Type} {ids : List String} {program : ActivityProgram α}
  {trace : ActivityTrace}

/-- The phase after a trace. -/
theorem mem_phaseAfter {id : String} : id ∈ (ownership tenantId).phaseAfter ids trace ↔
      id ∈ ids ∨ ∃ entry ∈ trace, id ∈ shows tenantId entry.1 entry.2 := by
  induction trace generalizing ids with
  | nil => simp [Coroutine.Protocol.phaseAfter]
  | cons entry trace ih =>
    have hstep : (ownership tenantId).phaseAfter ids (entry :: trace) =
        (ownership tenantId).phaseAfter (ids ++ shows tenantId entry.1 entry.2) trace := rfl
    rw [hstep, ih, mem_append, or_assoc]
    simp only [mem_cons, exists_eq_or_imp]

/-- **An activity that keeps to the protocol is checked.** -/
theorem checked_of_follows {post : List String → α → Prop}
    (h : (ownership tenantId).Follows post [] program) {value : α}
    (hyields : program.Yields trace value) : Checked tenantId trace := by
  intro before after id config reply htrace
  have hallowed : id ∈ (ownership tenantId).phaseAfter [] before :=
    h.allows_of_yields (fun _ => trivial) hyields htrace
  rcases mem_phaseAfter.mp hallowed with hmem | hshown
  · exact absurd hmem not_mem_nil
  · exact hshown

/-- The request uses no instance. -/
def NoUse (request : ActivityRequest) : Prop := ∀ id config, request ≠ .connect id config

/-- **An activity without a use is checked.** -/
theorem checked_of_onlyCalls (h : program.OnlyCalls NoUse) {value : α}
    (hyields : program.Yields trace value) : Checked tenantId trace := by
  intro before after id config reply htrace
  have huse : NoUse (.connect id config) :=
    h.of_yields hyields ⟨.connect id config, reply⟩ (by rw [htrace]; simp)
  exact absurd rfl (huse id config)

end evidence

/-! ## The activities of the engine `workflow` -/

section verified

variable {formatting : Formatting} {tenantId activityType id : String} {config : JsonMap}
  {ids : List String}

/-- Anything may follow. -/
def Ends {α : Type} (_ : List String) (_ : α) : Prop := True

/-- The credentials of an instance with evidence are used. -/
theorem follows_loadInstance (h : id = "" ∨ id ∈ ids) :
    (ownership tenantId).Follows Ends ids (loadInstance id config) := by
  unfold loadInstance credential
  by_cases hid : id = ""
  · rw [if_pos hid]
    exact trivial
  · rw [if_neg hid]
    refine ⟨trivial, ?_⟩
    rintro (err | row) _ _
    · exact trivial
    · exact ⟨mem_append_left _ (h.resolve_left hid), fun _ _ _ => trivial⟩

/-- A connector uses its own instance only. -/
theorem follows_runConnector (h : stringValue formatting (config.get "connectionId") = "" ∨
      stringValue formatting (config.get "connectionId") ∈ ids) :
    (ownership tenantId).Follows Ends ids (runConnector formatting activityType config) := by
  refine ⟨trivial, ?_⟩
  rintro (err | needed) _ _
  · exact trivial
  have hids : (ownership tenantId).next ids (.prepare activityType config) (.ok needed) = ids :=
    append_nil ids
  rw [hids]
  dsimp only
  split_ifs with hneeded
  · unfold connectInstance
    dsimp only
    split_ifs with hcached
    · refine ⟨trivial, ?_⟩
      rintro (_ | _) _ _
      · exact follows_loadInstance (h.imp_right (mem_append_left _))
      · exact ⟨mem_append_left _ (h.resolve_left hcached.2), fun _ _ _ => trivial⟩
    · exact follows_loadInstance h
  · exact trivial

/-- **The check comes before the connector.** -/
theorem follows_checkedConnector : (ownership tenantId).Follows Ends []
      (checkedConnector formatting tenantId activityType config) := by
  refine ⟨trivial, ?_⟩
  rintro (err | _) _ _
  · exact trivial
  have hverify : (ownership tenantId).Follows
      (fun ids (reply : Except String Unit) => reply = .ok () →
        stringValue formatting (config.get "connectionId") = "" ∨
          stringValue formatting (config.get "connectionId") ∈ ids)
      [] (verifyConnectorOwnership formatting tenantId config) := by
    unfold verifyConnectorOwnership
    dsimp only
    split_ifs with hid
    · exact fun _ => .inl hid
    · refine ⟨trivial, ?_⟩
      rintro (err | owns) _ _
      · exact nofun
      · cases owns with
        | false => exact nofun
        | true =>
          refine fun _ => .inr ?_
          simp [ownership, shows]
  refine hverify.bind ?_
  rintro ids (err | _) hok
  · exact trivial
  · exact follows_runConnector (hok rfl)

/-- **An alert** is sent after the comparison of the tenants. -/
theorem follows_alertNotification :
    (ownership tenantId).Follows Ends [] (alertNotification tenantId id) := by
  unfold alertNotification credential
  by_cases hid : id = ""
  · rw [if_pos hid]
    exact trivial
  rw [if_neg hid]
  refine ⟨trivial, ?_⟩
  rintro (err | row) _ _
  · exact trivial
  dsimp only [Coroutine.bind]
  split_ifs with htenant hprovider hurl
  · exact trivial
  · exact trivial
  · exact trivial
  · refine ⟨trivial, ?_⟩
    rintro (err | _) _ _
    · exact trivial
    · refine ⟨?_, fun _ _ _ => trivial⟩
      rw [ne_eq, not_not] at htenant
      simp [ownership, shows, htenant]

end verified

/-! ## The activities of the engine `spark-sql` -/

/-- The catalog is asked with the credentials of the instance that the configuration names. -/
def Touches (formatting : Formatting) (config : JsonMap) : Prop :=
  stringValue formatting (config.get "connectionId") ≠ "" ∧ NamesTable formatting config

/-- The definition is for `spark-sql`. Its source is an Iceberg table whose catalog is asked; or it
is none, and the sink is such a table. -/
def ReachesIceberg (formatting : Formatting) (definition : PipelineDefinition) : Prop :=
  definition.execution.map ExecutionConfig.engine = some "spark-sql" ∧
    ((∃ source, lastOfType definition .source = some source ∧ source.activityType = "iceberg.fetch" ∧
        Touches formatting source.config) ∨
      (∀ source, lastOfType definition .source = some source → source.activityType ≠ "iceberg.fetch") ∧
        ∃ sink, lastOfType definition .sink = some sink ∧ sink.activityType = "sink.iceberg" ∧
          Touches formatting sink.config)

section spark

variable {formatting : Formatting} {enterprise : Enterprise} {definition : PipelineDefinition}
  {tenantId executionId : String} {config : JsonMap} {α : Type} {trace rest : ActivityTrace}

/-- Where the catalog is not asked there is no use, and no snapshot. -/
theorem onlyCalls_bind_snapshot (h : ¬ Touches formatting config)
    {f : Except String String → ActivityProgram α}
    (hf : ∀ err, (f (.error err)).OnlyCalls NoUse) :
    ((icebergCurrentSnapshot formatting config).bind f).OnlyCalls NoUse := by
  unfold icebergCurrentSnapshot credential
  dsimp only
  by_cases hid : stringValue formatting (config.get "connectionId") = ""
  · rw [if_pos hid]
    exact hf _
  · rw [if_neg hid]
    refine ⟨nofun, ?_⟩
    rintro (err | row) _
    · exact hf err
    · dsimp only [Coroutine.bind]
      rw [if_neg fun htable => h ⟨hid, htable⟩]
      exact hf _

/-- Where the catalog is not asked it goes on with an error. -/
theorem yields_bind_snapshot (h : ¬ Touches formatting config)
    {f : Except String String → ActivityProgram α} {value : α}
    (hyields : ((icebergCurrentSnapshot formatting config).bind f).Yields trace value) :
    ∃ err rest, (f (.error err)).Yields rest value := by
  unfold icebergCurrentSnapshot credential at hyields
  dsimp only at hyields
  by_cases hid : stringValue formatting (config.get "connectionId") = ""
  · rw [if_pos hid] at hyields
    exact ⟨_, _, hyields⟩
  · rw [if_neg hid] at hyields
    obtain ⟨(err | row), _, rest, -, hrest⟩ := Coroutine.yields_await.mp hyields
    · exact ⟨err, rest, hrest⟩
    · dsimp only [Coroutine.bind] at hrest
      rw [if_neg fun htable => h ⟨hid, htable⟩] at hrest
      exact ⟨_, rest, hrest⟩

/-- Another text than the tenant's. -/
def otherTenant (tenantId : String) : String := tenantId ++ "-"

theorem otherTenant_ne (tenantId : String) : otherTenant tenantId ≠ tenantId := by
  intro h
  have hlength := congrArg String.length h
  rw [otherTenant, String.length_append] at hlength
  exact absurd hlength (Nat.succ_ne_self _)

/-- The requests of the lookup for an instance of another tenant. -/
def foreignLookup (formatting : Formatting) (tenantId : String) (config : JsonMap) :
    ActivityTrace :=
  let id := stringValue formatting (config.get "connectionId")
  [⟨.credential id, .ok { tenantId := otherTenant tenantId }⟩, ⟨.connect id config, .error ""⟩]

/-- **The lookup does not compare tenants.** -/
theorem yields_foreignLookup (h : Touches formatting config) (tenantId : String) :
    (icebergCurrentSnapshot formatting config).Yields (foreignLookup formatting tenantId config)
      (.error "") := by
  unfold icebergCurrentSnapshot credential
  dsimp only
  rw [if_neg h.1]
  refine .await () ?_
  rw [if_pos h.2]
  exact .await () (.done _)

/-- The instance of another tenant is used without evidence, whatever else is asked that shows
none. -/
theorem not_checked_foreignLookup (first : ActivityTrace)
    (hfirst : ∀ entry ∈ first, shows tenantId entry.1 entry.2 = []) :
    ¬ Checked tenantId (first ++ (foreignLookup formatting tenantId config ++ rest)) := by
  intro hchecked
  obtain ⟨entry, hentry, hshown⟩ := hchecked
    (first ++ [⟨.credential (stringValue formatting (config.get "connectionId")),
      .ok { tenantId := otherTenant tenantId }⟩]) rest
    (stringValue formatting (config.get "connectionId")) config (.error "") (by simp [foreignLookup])
  rcases mem_append.mp hentry with hentry | hentry
  · rw [hfirst entry hentry] at hshown
    exact not_mem_nil hshown
  · rw [mem_singleton.mp hentry, shows, if_neg (otherTenant_ne tenantId)] at hshown
    exact not_mem_nil hshown

instance (request : ActivityRequest) : Nonempty (ActivityReply request) := by
  cases request <;> first | exact ⟨(.error "" : Except String _)⟩ | exact ⟨false⟩

/-- A submission that reaches an Iceberg table may use an instance of another tenant. -/
theorem exists_unchecked_submission (enterprise : Enterprise)
    (h : ReachesIceberg formatting definition) (tenantId executionId : String) :
    ∃ trace reply, (submitSparkJob formatting enterprise definition tenantId executionId).Yields trace
      reply ∧ ¬ Checked tenantId trace := by
  obtain ⟨-, ⟨source, hsource, hiceberg, htouches⟩ | ⟨hother, sink, hsink, hiceberg, htouches⟩⟩ := h
  · refine ⟨⟨.selectState tenantId (sparkStateKey definition.id source.id), .ok none⟩ ::
      (foreignLookup formatting tenantId source.config ++ []), .error "", ?_, ?_⟩
    · unfold submitSparkJob
      rw [hsource]
      dsimp only
      rw [if_pos hiceberg]
      refine .await () ?_
      exact Coroutine.yields_bind.mpr
        ⟨_, [], .error "", rfl, yields_foreignLookup htouches tenantId, .done _⟩
    · refine not_checked_foreignLookup [_] ?_
      intro entry hentry
      rw [mem_singleton.mp hentry]
      rfl
  · have hsubmit : submitSparkJob formatting enterprise definition tenantId executionId =
        submitOutput formatting enterprise definition executionId "" "" {} := by
      unfold submitSparkJob
      cases hsource : lastOfType definition .source with
      | none => rfl
      | some source => exact if_neg (hother source hsource)
    have houtput : submitOutput formatting enterprise definition executionId "" "" {} =
        (icebergCurrentSnapshot formatting sink.config).bind fun before =>
          createApplication enterprise definition executionId "" ""
            { outputBefore := before.toOption.getD "" } := by
      unfold submitOutput
      rw [hsink]
      exact if_pos hiceberg
    obtain ⟨rest, reply, hrest⟩ := Coroutine.exists_yields
      (createApplication enterprise definition executionId "" ""
        { outputBefore := (Except.error "" : Except String String).toOption.getD "" })
    refine ⟨foreignLookup formatting tenantId sink.config ++ rest, reply, ?_, ?_⟩
    · rw [hsubmit, houtput]
      exact Coroutine.yields_bind.mpr
        ⟨_, rest, .error "", rfl, yields_foreignLookup htouches tenantId, hrest⟩
    · exact not_checked_foreignLookup [] nofun

/-- The creation of an application uses no instance. -/
theorem onlyCalls_createApplication (previous current : String) (ref : SparkJobRef) :
    (createApplication enterprise definition executionId previous current ref).OnlyCalls NoUse := by
  unfold createApplication
  split
  · exact trivial
  · refine ⟨nofun, ?_⟩
    rintro (err | _) _
    · exact trivial
    · exact trivial

/-- A submission whose sink is not asked for. -/
theorem onlyCalls_submitOutput
    (h : ∀ sink, lastOfType definition .sink = some sink → sink.activityType = "sink.iceberg" →
      ¬ Touches formatting sink.config) (previous current : String) (ref : SparkJobRef) :
    (submitOutput formatting enterprise definition executionId previous current ref).OnlyCalls
      NoUse := by
  unfold submitOutput
  cases hsink : lastOfType definition .sink with
  | none => exact onlyCalls_createApplication _ _ _
  | some sink =>
    dsimp only
    split_ifs with hiceberg
    · exact onlyCalls_bind_snapshot (h sink hsink hiceberg) fun _ =>
        onlyCalls_createApplication _ _ _
    · exact onlyCalls_createApplication _ _ _

/-- **A submission that reaches no Iceberg table uses no instance**; where its source is one it also
fails. -/
theorem submission_of_not_reaches
    (hengine : definition.execution.map ExecutionConfig.engine = some "spark-sql")
    (h : ¬ ReachesIceberg formatting definition) :
    (submitSparkJob formatting enterprise definition tenantId executionId).OnlyCalls NoUse ∧
      ((∃ source, lastOfType definition .source = some source ∧
          source.activityType = "iceberg.fetch") →
        ∀ trace reply, (submitSparkJob formatting enterprise definition tenantId executionId).Yields
          trace reply → ∃ err, reply = .error err) := by
  unfold submitSparkJob
  have hsink : (∀ source, lastOfType definition .source = some source →
      source.activityType ≠ "iceberg.fetch") → ∀ sink, lastOfType definition .sink = some sink →
        sink.activityType = "sink.iceberg" → ¬ Touches formatting sink.config := by
    intro hother sink hsink hiceberg htouches
    exact h ⟨hengine, .inr ⟨hother, sink, hsink, hiceberg, htouches⟩⟩
  cases hsource : lastOfType definition .source with
  | none =>
    refine ⟨onlyCalls_submitOutput (hsink fun source heq => ?_) _ _ _, ?_⟩
    · simp [hsource] at heq
    · rintro ⟨source, heq, -⟩
      cases heq
  | some source =>
    dsimp only
    by_cases hiceberg : source.activityType = "iceberg.fetch"
    · have htouches : ¬ Touches formatting source.config := fun htouches =>
        h ⟨hengine, .inl ⟨source, hsource, hiceberg, htouches⟩⟩
      rw [if_pos hiceberg]
      refine ⟨⟨nofun, fun state _ => onlyCalls_bind_snapshot htouches fun _ => trivial⟩, ?_⟩
      rintro - trace reply hyields
      obtain ⟨state, _, rest, -, hrest⟩ := Coroutine.yields_await.mp hyields
      obtain ⟨err, rest', hdone⟩ := yields_bind_snapshot htouches hrest
      exact ⟨err, (Coroutine.yields_done.mp hdone).2⟩
    · rw [if_neg hiceberg]
      refine ⟨onlyCalls_submitOutput (hsink fun other heq => ?_) _ _ _, ?_⟩
      · rw [hsource] at heq
        exact Option.some.inj heq ▸ hiceberg
      · rintro ⟨other, heq, hother⟩
        exact absurd (Option.some.inj heq ▸ hother) hiceberg

/-- A commit that asks for no sink uses no instance. -/
theorem onlyCalls_checkOutputs (ref : SparkJobRef) {nodes : List Node}
    (h : ∀ node ∈ nodes, node.type = .sink → node.activityType = "sink.iceberg" →
      ¬ Touches formatting node.config) : (checkOutputs formatting ref nodes).OnlyCalls NoUse := by
  induction nodes with
  | nil => exact trivial
  | cons node nodes ih =>
    have hrest := ih fun other hother => h other (mem_cons_of_mem _ hother)
    unfold checkOutputs
    split_ifs with hsink
    · exact onlyCalls_bind_snapshot (h node mem_cons_self hsink.1 hsink.2) fun _ => trivial
    · exact hrest

theorem onlyCalls_commitSparkJob (ref : SparkJobRef)
    (h : ∀ node ∈ definition.nodes, node.type = .sink → node.activityType = "sink.iceberg" →
      ¬ Touches formatting node.config) :
    (commitSparkJob formatting ref definition tenantId).OnlyCalls NoUse := by
  refine (onlyCalls_checkOutputs ref h).bind ?_
  rintro (err | _)
  · exact trivial
  · split_ifs
    · exact ⟨nofun, fun _ _ => trivial⟩
    · exact trivial

/-- The one node of a type. -/
theorem lastOfType_of_mem {type : NodeType} (hcount : countType definition.nodes type = 1)
    {node : Node} (hnode : node ∈ definition.nodes) (htype : node.type = type) :
    lastOfType definition type = some node := by
  have hmem : node ∈ definition.nodes.filter fun node => node.type = type :=
    mem_filter.mpr ⟨hnode, decide_eq_true htype⟩
  rw [countType, countP_eq_length_filter, length_eq_one_iff] at hcount
  obtain ⟨only, honly⟩ := hcount
  rw [honly, mem_singleton] at hmem
  rw [lastOfType, honly, hmem]
  rfl

end spark

/-! ## Every engine -/

section engines

variable {formatting : Formatting} {enterprise : Enterprise} {ranging : RangeIds}
  {definition : PipelineDefinition} {tenantId : String}

/-- A definition for `spark-sql` has one sink. -/
theorem countType_sink_of_spark (h : Accepted enterprise ranging definition)
    (hengine : definition.execution.map ExecutionConfig.engine = some "spark-sql") :
    countType definition.nodes .sink = 1 := by
  have hvalid := validateEngine_of_accepted h
  unfold validateEngine at hvalid
  rw [hengine] at hvalid
  simp only [validateSparkSQL] at hvalid
  obtain ⟨-, -, hvalid⟩ := bind_eq_ok.mp hvalid
  obtain ⟨-, -, hvalid⟩ := bind_eq_ok.mp hvalid
  split_ifs at hvalid with hends
  rw [not_or, not_not, not_not] at hends
  exact hends.2

/-- The activities of the engines `workflow` and `stream-direct` are checked. -/
theorem checked_of_node {activityType : String} {config : JsonMap} {call : WorkerCall}
    (hcall : call = .fetchSourcePage tenantId activityType config ∨
      call = .dispatchNode tenantId activityType config) {trace : ActivityTrace}
    (htrace : call.Trace formatting enterprise trace) : Checked tenantId trace := by
  rcases hcall with rfl | rfl
  · obtain ⟨reply, hyields⟩ := htrace
    exact checked_of_follows follows_checkedConnector hyields
  · obtain ⟨reply, hyields⟩ := htrace
    exact checked_of_follows follows_checkedConnector hyields

/-- **The activities of `spark-sql`** use no instance when the definition reaches no Iceberg
table. -/
theorem checked_of_spark (haccepted : Accepted enterprise ranging definition)
    (hengine : definition.execution.map ExecutionConfig.engine = some "spark-sql")
    (h : ¬ ReachesIceberg formatting definition) {call : WorkerCall}
    (hcall : MadeBy formatting enterprise definition tenantId call) {trace : ActivityTrace}
    (htrace : call.Trace formatting enterprise trace) : Checked tenantId trace := by
  unfold MadeBy at hcall
  rw [hengine] at hcall
  rcases hcall with ⟨executionId, rfl⟩ | ⟨executionId, submission, ref, hsubmitted, rfl⟩
  · obtain ⟨reply, hyields⟩ := htrace
    exact checked_of_onlyCalls (submission_of_not_reaches hengine h).1 hyields
  · obtain ⟨reply, hyields⟩ := htrace
    refine checked_of_onlyCalls (onlyCalls_commitSparkJob ref ?_) hyields
    intro node hnode htype hiceberg htouches
    have hsink := lastOfType_of_mem (countType_sink_of_spark haccepted hengine) hnode htype
    by_cases hsource : ∃ source, lastOfType definition .source = some source ∧
        source.activityType = "iceberg.fetch"
    · obtain ⟨err, herr⟩ :=
        (submission_of_not_reaches hengine h).2 hsource submission (.ok ref) hsubmitted
      cases herr
    · exact h ⟨hengine, .inr ⟨fun source heq hfetch => hsource ⟨source, heq, hfetch⟩, node, hsink,
        hiceberg, htouches⟩⟩

/-- **Connector instances are checked on every engine but `spark-sql`.** In every run of a
definition that can be saved, every use of an instance is preceded in its activity by evidence that
the instance is the tenant's, iff the run does not reach an Iceberg table; and so is every use by an
alert. -/
theorem connectors_checked_iff (formatting : Formatting) (enterprise : Enterprise)
    (ranging : RangeIds) (definition : PipelineDefinition)
    (haccepted : Accepted enterprise ranging definition) (tenantId : String) :
    ((∀ call, MadeBy formatting enterprise definition tenantId call →
        ∀ trace, call.Trace formatting enterprise trace → Checked tenantId trace) ↔
      ¬ ReachesIceberg formatting definition) ∧
    ∀ id trace reply, (alertNotification tenantId id).Yields trace reply →
    Checked tenantId trace := by
  refine ⟨⟨?_, ?_⟩, ?_⟩
  · intro hchecked hreaches
    obtain ⟨trace, reply, hyields, hnot⟩ :=
      exists_unchecked_submission enterprise hreaches tenantId ""
    refine hnot (hchecked (.submitSparkJob definition tenantId "") ?_ trace ⟨reply, hyields⟩)
    unfold MadeBy
    rw [hreaches.1]
    exact .inl ⟨"", rfl⟩
  · intro h call hcall trace htrace
    by_cases hengine : definition.execution.map ExecutionConfig.engine = some "spark-sql"
    · exact checked_of_spark haccepted hengine h hcall htrace
    · unfold MadeBy at hcall
      split at hcall
      · exact absurd ‹_› hengine
      · exact hcall.elim
      · obtain ⟨node, -, hcall⟩ := hcall
        exact checked_of_node hcall htrace
  · intro id trace reply hyields
    exact checked_of_follows follows_alertNotification hyields

end engines

/-! ## Examples -/

/-- Values that are texts. -/
def instanceFormatting : Formatting := ⟨fun _ => "", fun _ => 0⟩

/-- Checks that accept. -/
def acceptingEnterprise : Enterprise := ⟨fun _ => .ok (), fun _ _ => .ok (), fun _ => .ok ()⟩

/-- Maps that are visited in the order of their keys. -/
def inOrder : RangeIds := ⟨id, .refl⟩

/-- A copy of a table into ClickHouse, on an engine. -/
def copyDefinition (engine source : String) : PipelineDefinition where
  id := "copy"
  name := "copy"
  triggerType := "manual"
  nodes :=
    [{ id := "a", type := .source, activityType := source
       config := [("connectionId", .string "11111111-1111-1111-1111-111111111111"),
         ("namespace", .string "sales"), ("table", .string "orders")] },
      { id := "b", type := .sink, activityType := "sink.clickhouse" }]
  edges := [{ id := "e", source := "a", target := "b" }]
  execution := some { engine, transformSql := "select * from source" }

/-- A copy by the engine `workflow`. -/
def workflowCopy : PipelineDefinition := copyDefinition "workflow" "postgres.fetch"

/-- A copy by the engine `spark-sql`, from an Iceberg table. -/
def sparkCopy : PipelineDefinition := copyDefinition "spark-sql" "iceberg.fetch"

/-- The theorem at a definition for the engine `workflow`. -/
theorem connectors_checked_iff_workflow : Accepted acceptingEnterprise inOrder workflowCopy ∧
      ∀ call, MadeBy instanceFormatting acceptingEnterprise workflowCopy "t" call →
        ∀ trace, call.Trace instanceFormatting acceptingEnterprise trace → Checked "t" trace := by
  have haccepted : Accepted acceptingEnterprise inOrder workflowCopy := by decide +kernel
  refine ⟨haccepted, ?_⟩
  refine (connectors_checked_iff instanceFormatting acceptingEnterprise inOrder _ haccepted
    "t").1.mpr ?_
  rintro ⟨hengine, -⟩
  exact absurd hengine (by decide)

/-- **An instance of another tenant is used**: a definition that can be saved, for `spark-sql`, with
an Iceberg table as its source. The instance that the source names is another tenant's. -/
theorem foreign_instance_used : Accepted acceptingEnterprise inOrder sparkCopy ∧
      ∃ call, MadeBy instanceFormatting acceptingEnterprise sparkCopy "t" call ∧
        ∃ trace, call.Trace instanceFormatting acceptingEnterprise trace ∧ ¬ Checked "t" trace := by
  have hreaches : ReachesIceberg instanceFormatting sparkCopy := by
    refine ⟨rfl, .inl ⟨_, rfl, rfl, ?_⟩⟩
    exact ⟨by decide +kernel, by decide +kernel⟩
  obtain ⟨trace, reply, hyields, hnot⟩ :=
    exists_unchecked_submission acceptingEnterprise hreaches "t" "exec-1"
  refine ⟨by decide +kernel, .submitSparkJob sparkCopy "t" "exec-1", .inl ⟨"exec-1", rfl⟩, trace,
    ⟨reply, hyields⟩, hnot⟩

end Dataflow.Activities
