import Dataflow.Connectors.Values
import Dataflow.Workflows.FlinkJob

/-!
# The requests of a Flink job

`DeployFlinkJob` and `FlinkJobAction` send their requests to the operator with an idempotency key.
The key of an action is made of the execution and the word of the action, so that it tells the
attempts at one action from other actions, but not from the same action later on.

* `cohestraRequest`, `deployFlinkJob`, `flinkJobStatus`, `flinkJobAction`, `recordFlinkError`: the
  code, as coroutines over the requests and statements.
* `KeyedBy`: whatever the attempt, a keyed request carries the key of its activity call.
* `FlinkExecution`, `flinkExecutionStep`: an execution over all its runs, with what has been sent.
* `KeysExact`, `SentOnce`, `keysExact_iff`: **main result**: the keys are exact iff no action has
  been requested in two activity calls.

Source: `ee/activities/flink.go`
-/

namespace Dataflow.Activities

open Connectors Library Model Workflows List Option

/-! ## The operator -/

/-- The methods of the requests. -/
inductive HttpMethod where
  | get
  | put
  | post
  deriving DecidableEq

/-- A request to the operator. -/
structure CohestraRequest where
  method : HttpMethod
  url : String
  body : Option Json
  headers : List (String × String)

/-- What the operator answers. `body` is what the text decodes to, and nothing if it is empty. -/
structure CohestraReply where
  statusCode : ℕ
  text : String
  body : Except String (Option Json)

/-- The requests and the statements of an activity, and the record of a finished execution. -/
inductive CohestraCall where
  | send (request : CohestraRequest)
  | setCohestraId (executionId cohestraId : String)
  | setDesiredState (executionId state : String)
  | setLastError (executionId error : String)
  | markExecution (executionId : String) (phase : Phase)

/-- The replies. -/
def CohestraAnswer : CohestraCall → Type
  | .send _ => Except String CohestraReply
  | _ => Except String Unit

/-- A part of an activity. -/
abbrev CohestraProgram (α : Type) := Coroutine CohestraCall CohestraAnswer Unit α

/-- Source: `ee/flink/spec.go` `Deployment` -/
structure FlinkDeployment where
  statements : List String
  checkpointMode : String
  checkpointInterval : String

/-- The surroundings of a worker: `os.Getenv`, the URLs that `http.NewRequestWithContext` accepts,
`flink.BuildDeployment`, `json.Marshal` of texts, and what the fields of `FlinkJobStatus` make of a
body. -/
structure FlinkWorker where
  getenv : String → String
  validUrl : String → Bool
  buildDeployment : PipelineDefinition → String → Except String FlinkDeployment
  marshal : List String → String
  readStatus : Option Json → Except String FlinkDeploymentStatus

/-! ## The code -/

/-- The word of an action. -/
def flinkActionWord : FlinkAction → String
  | .pause => "pause"
  | .resume => "resume"
  | .rollback => "rollback"
  | .cancel => "cancel"

/-- The operator's word for an action. -/
def flinkOperation : FlinkAction → String
  | .pause => "suspend"
  | .resume => "resume"
  | .rollback => "rollback"
  | .cancel => "suspend"

/-- Source: `flink.go` `cohestraPath` -/
def cohestraPath (id : String) : Except String String :=
  match splitText '/' id with
  | ["flink-deployment", environment, job, name] =>
    .ok ("/api/v1/deployments/" ++ environment ++ "/" ++ job ++ "/" ++ name)
  | _ => .error "invalid Cohestra workflow id"

/-- The decoding of a body into a struct with one text field, which keeps its value when the field
is absent. -/
def decodeText (name old : String) : Option Json → Except String String
  | none | some .null => .ok old
  | some (.object fields) =>
    match JsonMap.get fields name with
    | .null => .ok old
    | .string value => .ok value
    | _ => .error "json: cannot unmarshal into Go struct field of type string"
  | some _ => .error "json: cannot unmarshal into Go value"

/-- The decoding of a body into a map. -/
def decodeMap : Option Json → Except String Unit
  | none | some .null | some (.object _) => .ok ()
  | some _ => .error "json: cannot unmarshal into Go value"

/-- `actor.LastHealthy.VersionID`. -/
def decodeLastHealthy : Option Json → Except String (Option ℤ)
  | none | some .null => .ok none
  | some (.object fields) =>
    match JsonMap.get fields "lastHealthyVersion" with
    | .null => .ok none
    | .object version =>
      match JsonMap.get version "versionId" with
      | .null => .ok (some 0)
      | .number value =>
        if value.den = 1 ∧ -2 ^ 63 ≤ value.num ∧ value.num < 2 ^ 63 then .ok (some value.num)
        else .error "json: cannot unmarshal number into Go struct field of type int64"
      | _ => .error "json: cannot unmarshal into Go struct field of type int64"
    | _ => .error "json: cannot unmarshal into Go struct field"
  | some _ => .error "json: cannot unmarshal into Go value"

/-- The header of the idempotency key. -/
def idempotencyKey : String := "Idempotency-Key"

section code

variable (worker : FlinkWorker)

/-- Source: `flink.go` `env` -/
def FlinkWorker.env (name fallback : String) : String :=
  if trimSpace (worker.getenv name) ≠ "" then trimSpace (worker.getenv name) else fallback

/-- `strings.TrimRight(os.Getenv("COHESTRA_URL"), "/")`. -/
def FlinkWorker.base : String :=
  .ofList ((worker.getenv "COHESTRA_URL").toList.rdropWhile (· = '/'))

/-- The header that authorizes the worker. -/
def FlinkWorker.authorization : List (String × String) :=
  if worker.getenv "COHESTRA_API_KEY" ≠ "" then
    [("Authorization", "Bearer " ++ worker.getenv "COHESTRA_API_KEY")]
  else []

/-- The part of `cohestraRequest` after the reply. -/
def readReply : Except String CohestraReply → Except String (Option Json)
  | .error err => .error err
  | .ok reply =>
    if 300 ≤ reply.statusCode then
      .error ("Cohestra returned " ++ toString reply.statusCode ++ ": " ++ reply.text)
    else reply.body

/-- The request that is sent. -/
def FlinkWorker.request (method : HttpMethod) (path : String) (body : Option Json)
    (headers : List (String × String)) : CohestraRequest where
  method := method
  url := worker.base ++ path
  body := body
  headers := [("Content-Type", "application/json")] ++ headers ++ worker.authorization

/-- A URL that is not accepted leaves no request, and setting its headers panics.
Source: `flink.go` `cohestraRequest` -/
def cohestraRequest (method : HttpMethod) (path : String) (body : Option Json)
    (headers : List (String × String)) : CohestraProgram (Except String (Option Json)) :=
  if worker.base = "" then .done (.error "Cohestra API is not configured")
  else if worker.validUrl (worker.base ++ path) then
    .await (.send (worker.request method path body headers)) fun reply _ => .done (readReply reply)
  else .done (.error "invalid memory address or nil pointer dereference")

/-- The path of a deployment. -/
def FlinkWorker.deploymentPath (executionId : String) : String :=
  "/api/v1/deployments/" ++ worker.env "COHESTRA_ENVIRONMENT" "dev" ++ "/" ++
    worker.env "COHESTRA_NAMESPACE" "dataflow" ++ "/" ++ executionId

/-- The registration of a deployment. -/
def FlinkWorker.registration : Json :=
  .object [("owner", .string "dataflow"), ("serviceAccount", .string "flink"),
    ("nodePool", .string "default"),
    ("flinkDashboardUrl",
      .string (worker.env "FLINK_DASHBOARD_URL" "http://host.docker.internal:8084"))]

/-- The deployment that is asked for. -/
def FlinkWorker.deployRequest (spec : FlinkDeployment) (image : String) : Json :=
  .object [("requester", .string "dataflow"), ("approved", .bool true),
    ("reason", .string "Dataflow Flink SQL deployment"),
    ("spec", .object [("imageDigest", .string image),
      ("flinkVersion", .string (worker.env "COHESTRA_FLINK_VERSION" "1.20")),
      ("parallelism", .number 1), ("maxParallelism", .number 128),
      ("jobArgs", .object [("statements", .string (worker.marshal spec.statements))]),
      ("flinkConfig", .object [("execution.checkpointing.mode", .string spec.checkpointMode),
        ("execution.checkpointing.interval", .string spec.checkpointInterval)]),
      ("resources", .object [("taskManagerCpu", .number 1), ("taskManagerMemoryMiB", .number 1024),
        ("taskManagerCount", .number 1), ("slotsPerManager", .number 1)]),
      ("stateCompatibility", .object [("jobGraphCompatible", .bool true),
        ("operatorUidsStable", .bool true)])])]

/-- The end of `DeployFlinkJob`: the id may be that of the registration. -/
def finishDeploy (executionId registered : String) :
    Except String (Option Json) → CohestraProgram (Except String String)
  | .error err => .done (.error err)
  | .ok body =>
    match decodeText "workflowId" registered body with
    | .error err => .done (.error err)
    | .ok id =>
      if id = "" then .done (.error "Cohestra returned no workflow id")
      else .await (.setCohestraId executionId id) fun _ _ => .done (.ok id)

/-- The part of `DeployFlinkJob` after the registration. -/
def deployRegistered (spec : FlinkDeployment) (executionId : String) :
    Except String (Option Json) → CohestraProgram (Except String String)
  | .error err => .done (.error err)
  | .ok body =>
    match decodeText "workflowId" "" body with
    | .error err => .done (.error err)
    | .ok registered =>
      if trimSpace (worker.getenv "COHESTRA_FLINK_IMAGE") = "" then
        .done (.error "COHESTRA_FLINK_IMAGE is required")
      else
        (cohestraRequest worker .post (worker.deploymentPath executionId ++ "/deploy")
          (some (worker.deployRequest spec (trimSpace (worker.getenv "COHESTRA_FLINK_IMAGE"))))
          [(idempotencyKey, "dataflow-" ++ executionId)]).bind (finishDeploy executionId registered)

/-- Source: `flink.go` `DeployFlinkJob` -/
def deployFlinkJob (definition : PipelineDefinition) (executionId : String) :
    CohestraProgram (Except String String) :=
  match worker.buildDeployment definition executionId with
  | .error err => .done (.error err)
  | .ok spec =>
    (cohestraRequest worker .put (worker.deploymentPath executionId) (some worker.registration)
      []).bind (deployRegistered worker spec executionId)

/-- Source: `flink.go` `FlinkJobStatus` -/
def flinkJobStatus (id : String) : CohestraProgram (Except String FlinkDeploymentStatus) :=
  match cohestraPath id with
  | .error err => .done (.error err)
  | .ok path =>
    (cohestraRequest worker .get (path ++ "/actor") none []).bind fun reply =>
      .done (reply.bind worker.readStatus)

/-- The version that a rollback goes back to; other actions have no target. -/
def rollbackTarget (path : String) : FlinkAction → CohestraProgram (Except String (Option ℤ))
  | .rollback =>
    (cohestraRequest worker .get (path ++ "/actor") none []).bind fun reply =>
      .done (match reply.bind decodeLastHealthy with
        | .error err => .error err
        | .ok none => .error "Cohestra has no healthy version to roll back to"
        | .ok (some version) => .ok (some version))
  | _ => .done (.ok none)

/-- The body of an action. -/
def actionBody (action : FlinkAction) (target : Option ℤ) : Json :=
  .object ([("requester", .string "dataflow"), ("approved", .bool true),
    ("reason", .string ("Dataflow " ++ flinkActionWord action))] ++
    (target.map fun version => ("targetVersion", Json.number version)).toList)

/-- The end of `FlinkJobAction`. -/
def finishAction (action : FlinkAction) (executionId : String)
    (reply : Except String (Option Json)) : CohestraProgram (Except String Unit) :=
  match reply.bind decodeMap with
  | .error err => .done (.error err)
  | .ok () =>
    .await (.setDesiredState executionId (flinkActionWord action)) fun _ _ => .done (.ok ())

/-- The part of `FlinkJobAction` after the target is known. -/
def requestAction (path : String) (action : FlinkAction) (executionId : String) :
    Except String (Option ℤ) → CohestraProgram (Except String Unit)
  | .error err => .done (.error err)
  | .ok target =>
    (cohestraRequest worker .post (path ++ "/" ++ flinkOperation action)
      (some (actionBody action target))
      [(idempotencyKey, executionId ++ "-" ++ flinkActionWord action)]).bind
        (finishAction action executionId)

/-- The actions of the workflow are the supported ones. Source: `flink.go` `FlinkJobAction` -/
def flinkJobAction (id : String) (action : FlinkAction) (executionId : String) :
    CohestraProgram (Except String Unit) :=
  match cohestraPath id with
  | .error err => .done (.error err)
  | .ok path =>
    (rollbackTarget worker path action).bind (requestAction worker path action executionId)

/-- Source: `flink.go` `RecordFlinkError` -/
def recordFlinkError (executionId error : String) : CohestraProgram (Except String Unit) :=
  .await (.setLastError executionId error) fun reply _ => .done reply

/-- An activity call of the workflow, ending with the event that its reply is. -/
def flinkActivity : FlinkCall → CohestraProgram FlinkEvent
  | .deployFlinkJob definition _ executionId =>
    (deployFlinkJob worker definition executionId).bind fun reply => .done (.deployed reply)
  | .flinkJobStatus id => (flinkJobStatus worker id).bind fun reply => .done (.status reply)
  | .recordFlinkError executionId error =>
    (recordFlinkError executionId error).bind fun reply => .done (.recorded reply)
  | .flinkJobAction id action executionId =>
    (flinkJobAction worker id action executionId).bind fun reply => .done (.acted reply)
  | .markExecution executionId phase =>
    .await (.markExecution executionId phase) fun reply _ => .done (.marked reply)

end code

/-! ## An execution -/

/-- The idempotency key of a request. -/
def CohestraRequest.key? (request : CohestraRequest) : Option String :=
  request.headers.lookup idempotencyKey

/-- The request of a call. -/
def CohestraCall.request? : CohestraCall → Option CohestraRequest
  | .send request => some request
  | _ => none

/-- An execution: the input of its current run and that run, the activity calls of the earlier runs,
and the requests that have been sent, each with the number of its activity call. -/
structure FlinkExecution where
  input : WorkflowInput
  run : FlinkState
  earlier : List FlinkCall := []
  sent : List (ℕ × CohestraRequest) := []

/-- The activity calls of all runs. -/
def FlinkExecution.calls (x : FlinkExecution) : List FlinkCall := x.earlier ++ x.run.calls

/-- What happens to an execution: an attempt at an activity call, with the calls it makes and its
result; an event of the current run; the next run. -/
inductive FlinkExecutionEvent where
  | attempt (index : ℕ) (made : List CohestraCall) (result : Option FlinkEvent)
  | workflow (event : FlinkEvent)
  | continueAsNew

/-- The input of the next run. -/
def FlinkExecution.continued (x : FlinkExecution) : WorkflowInput := flinkContinued x.input x.run

/-- One event of an execution. -/
def flinkExecutionStep (x : FlinkExecution) : FlinkExecutionEvent → Option FlinkExecution
  | .attempt index made _ =>
    some { x with sent := x.sent ++ (made.filterMap CohestraCall.request?).map (index, ·) }
  | .workflow event => (flinkStep x.input x.run event).map fun run => { x with run }
  | .continueAsNew =>
    match x.run.point with
    | .continuedAsNew =>
      some { x with input := x.continued, run := flinkStart x.continued, earlier := x.calls }
    | _ => none

/-- The start of an execution. -/
def flinkExecutionStart (input : WorkflowInput) : FlinkExecution :=
  { input, run := flinkStart input }

/-- An event that is not the reply of an activity, or is one that says that the activity has failed,
for instance by its timeout. -/
def flinkUnanswered : FlinkEvent → Bool
  | .signal _ | .select | .timer | .deployed (.error _) | .status (.error _) | .recorded (.error _)
  | .acted (.error _) | .marked (.error _) => true
  | _ => false

/-- What can happen: attempts are attempts at the code of their activity call, any number of them
and at any time, and a reply is the result of an attempt at the last call. -/
def FlinkAllowed (worker : FlinkWorker) (es : List FlinkExecutionEvent) (x : FlinkExecution) :
    FlinkExecutionEvent → Prop
  | .attempt index made result => ∃ call, x.calls[index]? = some call ∧
      (flinkActivity worker call).Makes made result
  | .workflow event => flinkUnanswered event ∨
      ∃ made, .attempt (x.calls.length - 1) made (some event) ∈ es
  | .continueAsNew => True

/-- A request with a key. -/
def FlinkExecution.Keyed (x : FlinkExecution) (index : ℕ) (key : String) : Prop :=
  ∃ request, (index, request) ∈ x.sent ∧ request.key? = some key

/-- **Two keyed requests have the same key iff they are attempts at one activity call.** -/
def KeysExact (x : FlinkExecution) : Prop :=
  ∀ i j key key', x.Keyed i key → x.Keyed j key' → (key = key' ↔ i = j)

/-- The activity call with this number is this action. -/
def FlinkExecution.Acts (x : FlinkExecution) (index : ℕ) (action : FlinkAction) : Prop :=
  ∃ id executionId, x.calls[index]? = some (.flinkJobAction id action executionId)

/-- No action has been requested in two activity calls. -/
def SentOnce (x : FlinkExecution) : Prop :=
  ∀ i j key key' action, x.Keyed i key → x.Keyed j key' → x.Acts i action → x.Acts j action → i = j

/-! ## The keys of an activity call -/

/-- The key of an activity call. -/
def flinkCallKey : FlinkCall → Option String
  | .deployFlinkJob _ _ executionId => some ("dataflow-" ++ executionId)
  | .flinkJobAction _ action executionId => some (executionId ++ "-" ++ flinkActionWord action)
  | _ => none

/-- If the call has a key, it is this one. -/
def KeyedBy (key? : Option String) (call : CohestraCall) : Prop :=
  ∀ request key, call.request? = some request → request.key? = some key → key? = some key

variable {made : List CohestraCall}

section keys

variable {worker : FlinkWorker} {key? : Option String}

theorem lookup_authorization : worker.authorization.lookup idempotencyKey = none := by
  unfold FlinkWorker.authorization
  split_ifs
  · simp [idempotencyKey]
  · simp

theorem lookup_contentType :
    [("Content-Type", "application/json")].lookup idempotencyKey = none := by
  simp [idempotencyKey, lookup_cons]

/-- The key of a request is among the headers it is given. -/
theorem onlyCalls_cohestraRequest {headers : List (String × String)}
    (h : ∀ key, headers.lookup idempotencyKey = some key → key? = some key) (method : HttpMethod)
    (path : String) (body : Option Json) :
    (cohestraRequest worker method path body headers).OnlyCalls (KeyedBy key?) := by
  unfold cohestraRequest
  split
  · trivial
  · split
    · refine ⟨?_, fun _ _ => trivial⟩
      rintro request key ⟨⟩ hkey
      apply h
      simpa only [CohestraRequest.key?, FlinkWorker.request, lookup_append,
        lookup_authorization, lookup_contentType, none_or, or_none] using hkey
    · trivial

/- A proof about a program that starts with a request does not look into the request. -/
attribute [local irreducible] cohestraRequest

theorem onlyCalls_finishDeploy (executionId registered : String)
    (reply : Except String (Option Json)) :
    (finishDeploy executionId registered reply).OnlyCalls (KeyedBy key?) := by
  unfold finishDeploy
  split
  · trivial
  · split
    · trivial
    · split_ifs
      · trivial
      · exact ⟨nofun, fun _ _ => trivial⟩

theorem onlyCalls_deployRegistered (spec : FlinkDeployment) (executionId : String)
    (reply : Except String (Option Json)) :
    (deployRegistered worker spec executionId reply).OnlyCalls
      (KeyedBy (some ("dataflow-" ++ executionId))) := by
  unfold deployRegistered
  split
  · trivial
  · split
    · trivial
    · split
      · trivial
      · apply Coroutine.OnlyCalls.bind
        · apply onlyCalls_cohestraRequest
          simp
        · exact onlyCalls_finishDeploy _ _

theorem onlyCalls_deployFlinkJob (definition : PipelineDefinition) (executionId : String) :
    (deployFlinkJob worker definition executionId).OnlyCalls
      (KeyedBy (some ("dataflow-" ++ executionId))) := by
  unfold deployFlinkJob
  split
  · trivial
  · apply Coroutine.OnlyCalls.bind
    · apply onlyCalls_cohestraRequest
      simp
    · exact onlyCalls_deployRegistered _ _

theorem onlyCalls_rollbackTarget (path : String) (action : FlinkAction) :
    (rollbackTarget worker path action).OnlyCalls (KeyedBy key?) := by
  unfold rollbackTarget
  split
  · apply Coroutine.OnlyCalls.bind
    · apply onlyCalls_cohestraRequest
      simp
    · exact fun _ => trivial
  · trivial

theorem onlyCalls_finishAction (action : FlinkAction) (executionId : String)
    (reply : Except String (Option Json)) :
    (finishAction action executionId reply).OnlyCalls (KeyedBy key?) := by
  unfold finishAction
  split
  · trivial
  · exact ⟨nofun, fun _ _ => trivial⟩

theorem onlyCalls_flinkJobAction (id : String) (action : FlinkAction) (executionId : String) :
    (flinkJobAction worker id action executionId).OnlyCalls
      (KeyedBy (some (executionId ++ "-" ++ flinkActionWord action))) := by
  unfold flinkJobAction
  split
  · trivial
  · apply Coroutine.OnlyCalls.bind
    · exact onlyCalls_rollbackTarget _ _
    · intro target
      unfold requestAction
      split
      · trivial
      · apply Coroutine.OnlyCalls.bind
        · apply onlyCalls_cohestraRequest
          simp
        · exact onlyCalls_finishAction _ _

theorem onlyCalls_flinkJobStatus (id : String) :
    (flinkJobStatus worker id).OnlyCalls (KeyedBy key?) := by
  unfold flinkJobStatus
  split
  · trivial
  · apply Coroutine.OnlyCalls.bind
    · apply onlyCalls_cohestraRequest
      simp
    · exact fun _ => trivial

/-- **Whatever the attempt**, a keyed request carries the key of its activity call. -/
theorem onlyCalls_flinkActivity (call : FlinkCall) :
    (flinkActivity worker call).OnlyCalls (KeyedBy (flinkCallKey call)) := by
  cases call with
  | deployFlinkJob definition tenantId executionId =>
    apply Coroutine.OnlyCalls.bind
    · exact onlyCalls_deployFlinkJob _ _
    · exact fun _ => trivial
  | flinkJobStatus id =>
    apply Coroutine.OnlyCalls.bind
    · exact onlyCalls_flinkJobStatus _
    · exact fun _ => trivial
  | recordFlinkError executionId error => exact ⟨nofun, fun _ _ => trivial⟩
  | flinkJobAction id action executionId =>
    apply Coroutine.OnlyCalls.bind
    · exact onlyCalls_flinkJobAction _ _ _
    · exact fun _ => trivial
  | markExecution executionId phase => exact ⟨nofun, fun _ _ => trivial⟩

/-- `DeployFlinkJob` does not succeed without an id. -/
theorem guarantees_deployFlinkJob (definition : PipelineDefinition) (executionId : String) :
    (deployFlinkJob worker definition executionId).Guarantees (fun _ _ => True) (fun _ => True)
      (fun _ reply => reply ≠ .ok "") [] := by
  have htrue (c : CohestraProgram (Except String (Option Json))) (made : List CohestraCall) :
      c.Guarantees (fun _ _ => True) (fun _ => True) (fun _ _ => True) made := by
    apply Coroutine.guarantees_of_forall
    exact fun _ _ => trivial
  unfold deployFlinkJob
  split
  · exact nofun
  · apply (htrue _ _).bind
    intro made reply _
    unfold deployRegistered
    split
    · exact nofun
    · split
      · exact nofun
      · split
        · exact nofun
        · apply (htrue _ _).bind
          intro made reply _
          unfold finishDeploy
          split
          · exact nofun
          · split
            · exact nofun
            · split_ifs with hid
              · exact nofun
              · rintro _ _ _ _ ⟨⟩
                exact hid rfl

/-- What a successful attempt at a deployment gives is an id. -/
theorem ne_empty_of_makes {call : FlinkCall} {id : String}
    (h : (flinkActivity worker call).Makes made (some (.deployed (.ok id)))) : id ≠ "" := by
  have hpost : (flinkActivity worker call).Guarantees (fun _ _ => True) (fun _ => True)
      (fun _ event => ∀ id, event = .deployed (.ok id) → id ≠ "") [] := by
    cases call with
    | deployFlinkJob definition tenantId executionId =>
      apply (guarantees_deployFlinkJob definition executionId).bind
      rintro _ reply hreply id ⟨⟩ rfl
      exact hreply rfl
    | flinkJobStatus id =>
      apply (Coroutine.guarantees_of_forall (fun _ _ => trivial) _ _ :
        Coroutine.Guarantees _ _ (fun _ _ => True) _ _).bind
      rintro _ reply _ id ⟨⟩
    | recordFlinkError executionId error => exact nofun
    | flinkJobAction id action executionId =>
      apply (Coroutine.guarantees_of_forall (fun _ _ => trivial) _ _ :
        Coroutine.Guarantees _ _ (fun _ _ => True) _ _).bind
      rintro _ reply _ id ⟨⟩
    | markExecution executionId phase => exact nofun
  exact hpost.of_makes h id rfl

end keys

/-! ## The calls of an execution -/

/-- The call is not a deployment, and if it is an action it is one of this execution. -/
def FlinkLater (executionId : String) : FlinkCall → Prop
  | .deployFlinkJob _ _ _ => False
  | .flinkJobAction _ _ executionId' => executionId' = executionId
  | _ => True

/-- The calls of an execution: only the first one may be a deployment. -/
def FlinkCallsOf (executionId : String) (calls : List FlinkCall) : Prop :=
  ∀ i call, calls[i]? = some call → FlinkLater executionId call ∨
    (i = 0 ∧ ∃ definition tenantId, call = .deployFlinkJob definition tenantId executionId)

/-- The calls that a step adds are of this kind. -/
def FlinkAdds (executionId : String) (s s' : FlinkState) : Prop :=
  ∃ added, s'.calls = s.calls ++ added ∧ ∀ call ∈ added, FlinkLater executionId call

/-- A run that does not deploy has an id, unless it has returned. -/
def FlinkNamed (s : FlinkState) : Prop :=
  match s.point with
  | .deploying | .returned _ => True
  | _ => s.flink.cohestraId ≠ ""

section calls

variable {executionId : String} {calls added : List FlinkCall} {input : WorkflowInput}
  {s s' : FlinkState} {event : FlinkEvent}

theorem FlinkCallsOf.append (h : FlinkCallsOf executionId calls)
    (hadded : ∀ call ∈ added, FlinkLater executionId call) :
    FlinkCallsOf executionId (calls ++ added) := by
  intro i call hi
  rw [getElem?_append] at hi
  split_ifs at hi
  · exact h i call hi
  · exact .inl (hadded call (mem_of_getElem? hi))

theorem flinkAdds_call (call : FlinkCall) (point : FlinkPoint) (h : FlinkLater executionId call) :
    FlinkAdds executionId s (s.call call point) :=
  ⟨[call], rfl, by simpa using h⟩

theorem flinkAdds_poll (executionId : String) (s : FlinkState) :
    FlinkAdds executionId s s.poll := by
  unfold FlinkState.poll
  split_ifs
  · exact flinkAdds_call _ _ trivial
  · exact ⟨[], by simp⟩

theorem flinkNamed_poll (h : s.flink.cohestraId ≠ "") : FlinkNamed s.poll := by
  unfold FlinkState.poll
  split_ifs
  · exact h
  · exact h

/-- What a step adds to the calls. -/
theorem flinkAdds_of_step (h : FlinkStepped input s event s') :
    FlinkAdds input.executionId s s' := by
  cases h with
  | signal action hopen => exact ⟨[], by simp⟩
  | deployFailed err hp => exact ⟨[], by simp [FlinkState.finish]⟩
  | deployed id hp => exact flinkAdds_poll _ _
  | statusFailed err hp => exact flinkAdds_call _ _ trivial
  | status status hp =>
    unfold FlinkState.afterStatus
    split_ifs
    · exact flinkAdds_call (s := { s with flink := _ }) _ _ trivial
    · exact ⟨[], by simp⟩
  | recordedError err reply hp => exact ⟨[], by simp [FlinkState.finish]⟩
  | recordedFailure err reply hp => exact flinkAdds_call _ _ trivial
  | select hp =>
    unfold FlinkState.select
    split
    · exact flinkAdds_call (s := { s with waiting := _ }) _ _ rfl
    · exact ⟨[], by simp⟩
  | taken action hp => exact flinkAdds_call _ _ rfl
  | timer hp => exact flinkAdds_poll _ _
  | actionFailed action err hp => exact ⟨[], by simp [FlinkState.finish]⟩
  | acted action hp =>
    cases action with
    | cancel => exact flinkAdds_call _ _ trivial
    | pause | resume | rollback => exact flinkAdds_poll _ _
  | marked outcome reply hp => exact ⟨[], by simp [FlinkState.finish]⟩

/-- A step keeps the id, once there is one. -/
theorem FlinkNamed.step (hs : FlinkNamed s) (h : FlinkStepped input s event s')
    (hdeployed : event ≠ .deployed (.ok "")) : FlinkNamed s' := by
  unfold FlinkNamed at hs
  cases h with
  | signal action hopen => exact hs
  | deployFailed err hp => trivial
  | deployed id hp =>
    apply flinkNamed_poll
    rintro rfl
    exact hdeployed rfl
  | statusFailed err hp =>
    rw [hp] at hs
    exact hs
  | status status hp =>
    rw [hp] at hs
    unfold FlinkState.afterStatus
    split_ifs
    · exact hs
    · exact hs
  | recordedError err reply hp => trivial
  | recordedFailure err reply hp =>
    rw [hp] at hs
    exact hs
  | select hp =>
    rw [hp] at hs
    unfold FlinkState.select
    split
    · exact hs
    · exact hs
  | taken action hp =>
    rw [hp] at hs
    exact hs
  | timer hp =>
    rw [hp] at hs
    exact flinkNamed_poll hs
  | actionFailed action err hp => trivial
  | acted action hp =>
    rw [hp] at hs
    cases action with
    | cancel => exact hs
    | pause | resume | rollback => exact flinkNamed_poll hs
  | marked outcome reply hp => trivial

theorem flinkNamed_start (input : WorkflowInput) : FlinkNamed (flinkStart input) := by
  unfold flinkStart
  dsimp only
  split_ifs with hid
  · trivial
  · exact flinkNamed_poll hid

theorem flinkCallsOf_start (input : WorkflowInput) :
    FlinkCallsOf input.executionId (flinkStart input).calls := by
  unfold flinkStart
  dsimp only
  split_ifs
  · intro i call hi
    rw [getElem?_singleton] at hi
    split_ifs at hi with hzero
    cases hi
    exact .inr ⟨hzero, _, _, rfl⟩
  · obtain ⟨added, hadded, hlater⟩ := flinkAdds_poll input.executionId
      { flink := input.flink.getD { desiredState := "running" }, point := .deploying }
    rw [hadded]
    exact FlinkCallsOf.append (fun i call hi => by simp at hi) hlater

/-- A run that continues does not deploy again. -/
theorem flinkLater_start (h : (input.flink.getD { desiredState := "running" }).cohestraId ≠ "") :
    ∀ call ∈ (flinkStart input).calls, FlinkLater executionId call := by
  unfold flinkStart
  rw [if_neg h]
  obtain ⟨added, hadded, hlater⟩ := flinkAdds_poll executionId
    { flink := input.flink.getD { desiredState := "running" }, point := .deploying }
  rw [hadded]
  exact hlater

end calls

/-! ## The keys of an execution -/

/-- What holds all along an execution. -/
structure FlinkTracks (executionId : String) (es : List FlinkExecutionEvent) (x : FlinkExecution) :
    Prop where
  execution : x.input.executionId = executionId
  named : FlinkNamed x.run
  calls : FlinkCallsOf executionId x.calls
  deployed : ∀ index made, .attempt index made (some (.deployed (.ok ""))) ∉ es
  keyed : ∀ i key, x.Keyed i key → ∃ call, x.calls[i]? = some call ∧ flinkCallKey call = some key

section execution

variable {worker : FlinkWorker} {executionId : String} {es : List FlinkExecutionEvent}
  {x x' : FlinkExecution} {input : WorkflowInput}

theorem flinkTracks_start (input : WorkflowInput) :
    FlinkTracks input.executionId [] (flinkExecutionStart input) where
  execution := rfl
  named := flinkNamed_start input
  calls := by simpa [FlinkExecution.calls, flinkExecutionStart] using flinkCallsOf_start input
  deployed := by simp
  keyed := by simp [FlinkExecution.Keyed, flinkExecutionStart]

/-- An attempt sends requests with the key of its activity call. -/
theorem FlinkTracks.attempt (h : FlinkTracks executionId es x) {index : ℕ}
    {result : Option FlinkEvent} {call : FlinkCall}
    (hcall : x.calls[index]? = some call)
    (hmakes : (flinkActivity worker call).Makes made result) :
    FlinkTracks executionId (es ++ [.attempt index made result])
      { x with sent := x.sent ++ (made.filterMap CohestraCall.request?).map (index, ·) } where
  execution := h.execution
  named := h.named
  calls := h.calls
  deployed := by
    intro index' made' hmem
    rcases mem_append.mp hmem with hmem | hmem
    · exact h.deployed index' made' hmem
    · cases mem_singleton.mp hmem
      exact ne_empty_of_makes hmakes rfl
  keyed := by
    rintro i key ⟨request, hmem, hkey⟩
    rcases mem_append.mp hmem with hmem | hmem
    · exact h.keyed i key ⟨request, hmem, hkey⟩
    · obtain ⟨request', hrequest, heq⟩ := List.mem_map.mp hmem
      obtain ⟨call', hcall', hsome⟩ := mem_filterMap.mp hrequest
      cases heq
      have honly := (onlyCalls_flinkActivity call).of_makes hmakes call' hcall'
      exact ⟨call, hcall, honly _ key hsome hkey⟩

/-- Calls that are added leave the numbers of the calls before as they are. -/
theorem FlinkTracks.keyed_append (h : FlinkTracks executionId es x) (added : List FlinkCall) {i : ℕ}
    {key : String} (hkeyed : x.Keyed i key) :
    ∃ call, (x.calls ++ added)[i]? = some call ∧ flinkCallKey call = some key := by
  obtain ⟨call, hcall, hkey⟩ := h.keyed i key hkeyed
  refine ⟨call, ?_, hkey⟩
  rw [getElem?_append_left (List.getElem?_eq_some_iff.mp hcall).1]
  exact hcall

/-- **The step lemma of `FlinkTracks`.** -/
theorem FlinkTracks.step (h : FlinkTracks executionId es x) {event : FlinkExecutionEvent}
    (ok : FlinkAllowed worker es x event) (hstep : flinkExecutionStep x event = some x') :
    FlinkTracks executionId (es ++ [event]) x' := by
  cases event with
  | attempt index made result =>
    cases hstep
    obtain ⟨call, hcall, hmakes⟩ := ok
    exact h.attempt hcall hmakes
  | workflow event =>
    obtain ⟨run, hrun, rfl⟩ := map_eq_some_iff.mp hstep
    have hstepped := flinkStepped_of_step hrun
    obtain ⟨added, hadded, hlater⟩ := flinkAdds_of_step hstepped
    have hcalls : x.earlier ++ run.calls = x.calls ++ added := by
      rw [hadded, FlinkExecution.calls, append_assoc]
    refine ⟨h.execution, h.named.step hstepped ?_, ?_, ?_, ?_⟩
    · rintro rfl
      obtain hun | ⟨made, hmem⟩ := ok
      · cases hun
      · exact h.deployed _ _ hmem
    · unfold FlinkExecution.calls
      rw [hcalls]
      exact h.calls.append (h.execution ▸ hlater)
    · simpa using h.deployed
    · intro i key hkeyed
      unfold FlinkExecution.calls
      rw [hcalls]
      exact h.keyed_append added hkeyed
  | continueAsNew =>
    unfold flinkExecutionStep at hstep
    dsimp only at hstep
    split at hstep
    · rename_i hp
      cases hstep
      have hid : x.run.flink.cohestraId ≠ "" := by
        have hnamed := h.named
        unfold FlinkNamed at hnamed
        rw [hp] at hnamed
        exact hnamed
      refine ⟨h.execution, flinkNamed_start _, ?_, ?_, ?_⟩
      · exact h.calls.append (flinkLater_start hid)
      · simpa using h.deployed
      · intro i key hkeyed
        exact h.keyed_append _ hkeyed
    · cases hstep

theorem flinkTracks_of_run
    (h : Transition.Run flinkExecutionStep (FlinkAllowed worker) (flinkExecutionStart input) es x) :
    FlinkTracks input.executionId es x := by
  apply h.invariant (I := FlinkTracks input.executionId)
  · exact flinkTracks_start input
  · exact fun _ _ _ _ hs ok hstep => hs.step ok hstep

theorem flinkActionWord_injective : Function.Injective flinkActionWord := by
  intro action action' h
  cases action <;> cases action' <;> first | rfl | exact absurd h (by decide)

/-- The key of a deployment is never that of an action: its constant part has a letter more. -/
theorem deployKey_ne (executionId : String) (action : FlinkAction) :
    "dataflow-" ++ executionId ≠ executionId ++ "-" ++ flinkActionWord action := by
  intro h
  have hcount := congrArg (fun text : String => text.toList.count 'd') h
  simp only [String.toList_append, count_append] at hcount
  have hword : ("-" ++ flinkActionWord action).toList.count 'd' = 0 := by
    cases action <;> decide
  rw [String.toList_append, count_append] at hword
  have hdeploy : "dataflow-".toList.count 'd' = 1 := by decide
  omega

/-- A later call with a key is an action. -/
theorem exists_action_of_key {call : FlinkCall} {key : String} (h : FlinkLater executionId call)
    (hkey : flinkCallKey call = some key) :
    ∃ id action, call = .flinkJobAction id action executionId ∧
      key = executionId ++ "-" ++ flinkActionWord action := by
  cases call with
  | flinkJobAction id action executionId' =>
    obtain rfl : executionId' = executionId := h
    exact ⟨id, action, rfl, (some.inj hkey).symm⟩
  | deployFlinkJob definition tenantId executionId' => exact h.elim
  | _ => cases hkey

/-- Two calls of an execution with one key are deployments both, or the same action. -/
theorem FlinkTracks.of_key_eq (h : FlinkTracks executionId es x) {i j : ℕ} {call call' : FlinkCall}
    {key : String} (hi : x.calls[i]? = some call) (hj : x.calls[j]? = some call')
    (hkey : flinkCallKey call = some key) (hkey' : flinkCallKey call' = some key) :
    i = j ∨ ∃ action, x.Acts i action ∧ x.Acts j action := by
  rcases h.calls i call hi with hlater | ⟨hzero, definition, tenantId, rfl⟩
  · obtain ⟨id, action, rfl, rfl⟩ := exists_action_of_key hlater hkey
    rcases h.calls j call' hj with hlater' | ⟨hzero, definition, tenantId, rfl⟩
    · obtain ⟨id', action', rfl, hword⟩ := exists_action_of_key hlater' hkey'
      rw [String.append_right_inj] at hword
      cases flinkActionWord_injective hword
      exact .inr ⟨action, ⟨_, _, hi⟩, ⟨_, _, hj⟩⟩
    · exact absurd (some.inj hkey') (deployKey_ne _ _)
  · rcases h.calls j call' hj with hlater' | ⟨hzero', definition', tenantId', rfl⟩
    · obtain ⟨id, action, rfl, rfl⟩ := exists_action_of_key hlater' hkey'
      exact absurd (some.inj hkey) (deployKey_ne _ _)
    · exact .inl (hzero.trans hzero'.symm)

/-- Two calls for one action have one key. -/
theorem FlinkTracks.key_eq (h : FlinkTracks executionId es x) {i j : ℕ} {key key' : String}
    {action : FlinkAction} (hi : x.Keyed i key) (hj : x.Keyed j key') (hacts : x.Acts i action)
    (hacts' : x.Acts j action) : key = key' := by
  obtain ⟨call, hcall, hkey⟩ := h.keyed i key hi
  obtain ⟨call', hcall', hkey'⟩ := h.keyed j key' hj
  obtain ⟨id, executionId₁, hacts⟩ := hacts
  obtain ⟨id', executionId₂, hacts'⟩ := hacts'
  have hlater := h.calls i _ hacts
  have hlater' := h.calls j _ hacts'
  simp only [FlinkLater, reduceCtorEq, exists_false, and_false, or_false] at hlater hlater'
  rw [hacts] at hcall
  rw [hacts'] at hcall'
  cases hcall
  cases hcall'
  rw [flinkCallKey, hlater] at hkey
  rw [flinkCallKey, hlater'] at hkey'
  exact some.inj (hkey.symm.trans hkey')

/-- **The keys of an execution are exact iff no action has been requested twice.** -/
theorem keysExact_iff
    (h : Transition.Run flinkExecutionStep (FlinkAllowed worker) (flinkExecutionStart input) es x) :
    KeysExact x ↔ SentOnce x := by
  have htracks := flinkTracks_of_run h
  constructor
  · intro hexact i j key key' action hi hj hacts hacts'
    rw [← hexact i j key key' hi hj]
    exact htracks.key_eq hi hj hacts hacts'
  · intro honce i j key key' hi hj
    obtain ⟨call, hcall, hkey⟩ := htracks.keyed i key hi
    obtain ⟨call', hcall', hkey'⟩ := htracks.keyed j key' hj
    constructor
    · rintro rfl
      rcases htracks.of_key_eq hcall hcall' hkey hkey' with heq | ⟨action, hacts, hacts'⟩
      · exact heq
      · exact honce i j key key action hi hj hacts hacts'
    · rintro rfl
      rw [hcall] at hcall'
      cases hcall'
      exact some.inj (hkey.symm.trans hkey')

end execution

/-! ## A job that is paused twice -/

theorem flinkAllowed_unanswered (worker : FlinkWorker) {es : List FlinkExecutionEvent}
    {x : FlinkExecution} {event : FlinkEvent} (h : flinkUnanswered event = true) :
    FlinkAllowed worker es x (.workflow event) := .inl h

theorem flinkAllowed_reply (worker : FlinkWorker) {es : List FlinkExecutionEvent}
    {x : FlinkExecution} {event : FlinkEvent} {index : ℕ}
    (h : index = x.calls.length - 1) :
    FlinkAllowed worker (es ++ [.attempt index made (some event)]) x (.workflow event) := by
  subst h
  exact .inr ⟨made, mem_append_right _ (mem_singleton_self _)⟩

/-- A worker with the URL of its operator. -/
def exampleWorker : FlinkWorker where
  getenv name := if name = "COHESTRA_URL" then "http://operator" else ""
  validUrl _ := true
  buildDeployment _ _ := .error "invalid flink-sql transform"
  marshal _ := "[]"
  readStatus body := (decodeText "status" "" body).map fun state => { state }

/-- A job that has been deployed. -/
def exampleJob : WorkflowInput where
  executionId := "e1"
  flink := some { cohestraId := "flink-deployment/dev/dataflow/e1", desiredState := "running" }

/-- The operator answers with no content. -/
def noContent : Except String CohestraReply :=
  .ok { statusCode := 204, text := "", body := .ok none }

/-- The request for the state of the job. -/
def statusRequest : CohestraRequest :=
  exampleWorker.request .get "/api/v1/deployments/dev/dataflow/e1/actor" none []

/-- The request for a pause. -/
def pauseRequest : CohestraRequest :=
  exampleWorker.request .post "/api/v1/deployments/dev/dataflow/e1/suspend"
    (some (actionBody .pause none)) [(idempotencyKey, "e1-pause")]

/-- An attempt that reads the state. -/
def statusAttempt (index : ℕ) : FlinkExecutionEvent :=
  .attempt index [.send statusRequest] (some (.status (.ok { state := "" })))

/-- An attempt that pauses the job. -/
def pauseAttempt (index : ℕ) : FlinkExecutionEvent :=
  .attempt index [.send pauseRequest, .setDesiredState "e1" "pause"] (some (.acted (.ok ())))

theorem makes_exampleStatus :
    (flinkActivity exampleWorker (.flinkJobStatus "flink-deployment/dev/dataflow/e1")).Makes
      [.send statusRequest] (some (.status (.ok { state := "" }))) := by
  refine .await noContent () ?_
  exact .done _

theorem makes_examplePause : (flinkActivity exampleWorker
      (.flinkJobAction "flink-deployment/dev/dataflow/e1" .pause "e1")).Makes
        [.send pauseRequest, .setDesiredState "e1" "pause"] (some (.acted (.ok ()))) := by
  refine .await noContent () ?_
  refine .await (.ok () : Except String Unit) () ?_
  exact .done _

/-- Two pauses, each answered at the first attempt, have one key. -/
theorem exists_run_pausedTwice : ∃ es x, Transition.Run flinkExecutionStep
    (FlinkAllowed exampleWorker) (flinkExecutionStart exampleJob) es x ∧
      x.Keyed 1 "e1-pause" ∧ x.Keyed 3 "e1-pause" := by
  have hrun : Transition.Run flinkExecutionStep (FlinkAllowed exampleWorker)
      (flinkExecutionStart exampleJob) [] _ := .start
  have hrun := hrun.next (e := statusAttempt 0) ⟨_, rfl, makes_exampleStatus⟩ rfl
  have hrun := hrun.next (e := .workflow (.status (.ok { state := "" })))
    (flinkAllowed_reply exampleWorker rfl) rfl
  have hrun := hrun.next (e := .workflow (.signal .pause))
    (flinkAllowed_unanswered exampleWorker rfl) rfl
  have hrun := hrun.next (e := .workflow .select) (flinkAllowed_unanswered exampleWorker rfl) rfl
  have hrun := hrun.next (e := pauseAttempt 1) ⟨_, rfl, makes_examplePause⟩ rfl
  have hrun := hrun.next (e := .workflow (.acted (.ok ())))
    (flinkAllowed_reply exampleWorker rfl) rfl
  have hrun := hrun.next (e := statusAttempt 2) ⟨_, rfl, makes_exampleStatus⟩ rfl
  have hrun := hrun.next (e := .workflow (.status (.ok { state := "" })))
    (flinkAllowed_reply exampleWorker rfl) rfl
  have hrun := hrun.next (e := .workflow (.signal .pause))
    (flinkAllowed_unanswered exampleWorker rfl) rfl
  have hrun := hrun.next (e := .workflow .select) (flinkAllowed_unanswered exampleWorker rfl) rfl
  have hrun := hrun.next (e := pauseAttempt 3) ⟨_, rfl, makes_examplePause⟩ rfl
  refine ⟨_, _, hrun, ⟨pauseRequest, ?_, rfl⟩, pauseRequest, ?_, rfl⟩
  · exact mem_of_getElem? (i := 1) rfl
  · exact mem_of_getElem? (i := 3) rfl

theorem keysExact_iff_pausedTwice : ∃ es x, Transition.Run flinkExecutionStep
    (FlinkAllowed exampleWorker) (flinkExecutionStart exampleJob) es x ∧
      (KeysExact x ↔ SentOnce x) := by
  obtain ⟨es, x, hrun, -, -⟩ := exists_run_pausedTwice
  exact ⟨es, x, hrun, keysExact_iff hrun⟩

/-- The second pause has the key of the first. -/
theorem not_keysExact_pausedTwice : ∃ es x, Transition.Run flinkExecutionStep
    (FlinkAllowed exampleWorker) (flinkExecutionStart exampleJob) es x ∧ ¬ KeysExact x := by
  obtain ⟨es, x, hrun, hfirst, hsecond⟩ := exists_run_pausedTwice
  refine ⟨es, x, hrun, ?_⟩
  intro hexact
  exact absurd ((hexact 1 3 _ _ hfirst hsecond).mp rfl) (by decide)

end Dataflow.Activities
