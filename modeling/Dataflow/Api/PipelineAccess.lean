import Dataflow.Library.Lists
import Dataflow.Library.Transition

/-!
# `pipelineAccess`

Members of a tenant reach a pipeline that they created or that they have a grant on. The check asks
the database for the pipeline and the grant on any free connection of the pool. The policies of both
tables only show the rows of the tenant that the connection is set to.

* `Connection`, `poolStep`: the setting on the connections of the pool. `TenantTx` sets it inside a
  transaction, with `set_config(.., true)`.
* `accessQuery`, `pipelineAccess`: the code. The database casts texts to UUIDs where it compares.
* `Entitled`: the user created the pipeline, or has a grant on it that is high enough.
* `current_of_idle`: outside transactions the setting names no tenant.
* **`pipelineAccess_exact_iff`**: so the check is exact for the users who are not entitled, and
  only for them.
* `creator_refused`: a member who does not reach the own pipeline.

Source: `auth.go`, `database.go`, `003_rls.sql`, `017_pipeline_rbac.sql`
-/

namespace Dataflow.Api

open Library Library.Transition List Option

/-! ## The pool -/

/-- The setting `app.tenant_id` on a connection: its value outside transactions, and, while a
transaction is open, the value that this has set, if it has. -/
structure Connection where
  session : Option String := none
  transaction : Option (Option String) := none

/-- `current_setting('app.tenant_id', true)`. -/
def Connection.current (c : Connection) : Option String :=
  match c.transaction with
  | some (some value) => some value
  | _ => c.session

/-- A transaction ends, with its setting. A setting that the session never had is then the empty
text. -/
def Connection.finish (c : Connection) : Connection where
  session :=
    match c.transaction with
    | some (some _) => some (c.session.getD "")
    | _ => c.session

/-- What happens on the pool. -/
inductive PoolEvent where
  | connect
  | begin (i : ℕ)
  | setConfig (i : ℕ) (tenantId : String)
  | finish (i : ℕ)
  | close (i : ℕ)

/-- One event; only a connection without a transaction is handed out. Source: `database.go`
`TenantTx` -/
def poolStep (pool : List Connection) : PoolEvent → Option (List Connection)
  | .connect => some (pool ++ [{}])
  | .begin i =>
    match pool[i]? with
    | some { session, transaction := none } =>
      some (pool.set i { session, transaction := some none })
    | _ => none
  | .setConfig i tenantId =>
    match pool[i]? with
    | some { session, transaction := some _ } =>
      some (pool.set i { session, transaction := some (some tenantId) })
    | _ => none
  | .finish i =>
    match pool[i]? with
    | some { session, transaction := some value } =>
      some (pool.set i (Connection.finish { session, transaction := some value }))
    | _ => none
  | .close i => some (pool.eraseIdx i)

/-! ## The code -/

/-- Texts of UUIDs: how the database prints them, and what it reads. -/
structure Uuids (U : Type) where
  format : U → String
  parse : String → Option U
  parse_format : ∀ u, parse (format u) = some u
  parse_empty : parse "" = none

/-- The roles of a grant. -/
inductive AccessRole where
  | viewer
  | editor
  | admin
  deriving DecidableEq

/-- The text of a role. -/
def AccessRole.name : AccessRole → String
  | .viewer => "viewer"
  | .editor => "editor"
  | .admin => "admin"

/-- The map `rank`. -/
def AccessRole.rank : AccessRole → ℕ
  | .viewer => 0
  | .editor => 1
  | .admin => 2

/-- A row of `pipelines`. -/
structure OwnedPipeline (U : Type) where
  id : U
  tenantId : U
  createdBy : Option U

/-- A row of `pipeline_access`. -/
structure PipelineGrant (U : Type) where
  pipelineId : U
  userId : U
  role : AccessRole

/-- The two tables, with their primary keys. -/
structure AccessTables (U : Type) where
  pipelines : List (OwnedPipeline U)
  grants : List (PipelineGrant U)
  nodup_pipelines : (pipelines.map OwnedPipeline.id).Nodup
  nodup_grants : (grants.map fun grant => (grant.pipelineId, grant.userId)).Nodup

/-- Source: `types.go` `TenantContext`. -/
structure TenantContext where
  tenantId : String
  userId : String
  role : String

/-- The answers to a request. -/
inductive AccessReply where
  | next
  | notFound
  | forbidden (message : String)
  deriving DecidableEq

section code

variable {U : Type} [DecidableEq U] (uuids : Uuids U)

/-- The rows that the policy `tenant_isolation` shows; a setting that is no UUID is an error. -/
def visiblePipelines (setting : Option String) (pipelines : List (OwnedPipeline U)) :
    Option (List (OwnedPipeline U)) :=
  match setting with
  | none => some []
  | some text => (uuids.parse text).map fun tenant => pipelines.filter fun p => p.tenantId = tenant

/-- `p LEFT JOIN pipeline_access pa ON pa.pipeline_id=p.id AND pa.user_id=$2`, the columns that are
selected. -/
def joinGrants (grants : List (PipelineGrant U)) (user : U) (p : OwnedPipeline U) :
    List (Option U × Option AccessRole) :=
  match grants.filter fun grant => grant.pipelineId = p.id ∧ grant.userId = user with
  | [] => [(p.createdBy, none)]
  | grant :: grants => (grant :: grants).map fun grant => (p.createdBy, some grant.role)

/-- The row of the query; `none` is an error, or no row. -/
def accessQuery (setting : Option String) (tables : AccessTables U)
    (rowId userId tenantId : String) :
    Option (Option U × Option AccessRole) := do
  let id ← uuids.parse rowId
  let user ← uuids.parse userId
  let tenant ← uuids.parse tenantId
  let visible ← visiblePipelines uuids setting tables.pipelines
  ((visible.filter fun p => p.id = id ∧ p.tenantId = tenant).flatMap
    (joinGrants tables.grants user)).head?

/-- Source: `auth.go` `pipelineAccess`; `connection` is the one the pool hands out. -/
def pipelineAccess (connection : Connection) (tables : AccessTables U) (minimum : AccessRole)
    (tenant : TenantContext) (rowId : String) : AccessReply :=
  if tenant.role = "owner" then .next
  else
    match accessQuery uuids connection.current tables rowId tenant.userId tenant.tenantId with
    | none => .notFound
    | some (createdBy, role) =>
      if createdBy.map uuids.format = some tenant.userId then .next
      else
        match role with
        | none => .notFound
        | some role =>
          if minimum.rank ≤ role.rank then .next
          else .forbidden ("pipeline access requires " ++ minimum.name ++ " role")

end code

/-! ## Entitled users -/

section entitled

variable {U : Type} [DecidableEq U] {uuids : Uuids U} {tables : AccessTables U}
  {minimum : AccessRole} {tenant : TenantContext} {rowId : String} {setting : Option String}
  {connection : Connection}

/-- The pipeline belongs to the tenant, and the user created it or has a grant on it that is high
enough. -/
def Entitled (uuids : Uuids U) (tables : AccessTables U) (minimum : AccessRole)
    (tenant : TenantContext) (rowId : String) : Prop :=
  ∃ p ∈ tables.pipelines, ∃ user, uuids.parse rowId = some p.id ∧
    uuids.parse tenant.tenantId = some p.tenantId ∧ uuids.parse tenant.userId = some user ∧
    (p.createdBy = some user ∨
      ∃ grant ∈ tables.grants, grant.pipelineId = p.id ∧ grant.userId = user ∧
        minimum.rank ≤ grant.role.rank)

/-- What the policy shows. -/
theorem visiblePipelines_eq_some {pipelines visible : List (OwnedPipeline U)}
    (h : visiblePipelines uuids setting pipelines = some visible) :
    visible = pipelines.filter fun p => setting.bind uuids.parse = some p.tenantId := by
  cases setting with
  | none =>
    obtain rfl := some.inj h
    simp
  | some text =>
    obtain ⟨shown, hshown, rfl⟩ := map_eq_some_iff.mp h
    rw [bind_some, hshown]
    exact filter_congr fun p _ => by simp [eq_comm]

/-- The rows of the join. -/
theorem mem_joinGrants {grants : List (PipelineGrant U)} {user : U} {p : OwnedPipeline U}
    {createdBy : Option U} {role : Option AccessRole}
    (h : (createdBy, role) ∈ joinGrants grants user p) :
    createdBy = p.createdBy ∧ ∀ r, role = some r →
      ∃ grant ∈ grants, grant.pipelineId = p.id ∧ grant.userId = user ∧ grant.role = r := by
  unfold joinGrants at h
  split at h
  · cases mem_singleton.mp h
    exact ⟨rfl, nofun⟩
  · rename_i grant rest hfilter
    obtain ⟨grant', hmem, heq⟩ := List.mem_map.mp h
    cases heq
    rw [← hfilter, mem_filter, decide_eq_true_eq] at hmem
    obtain ⟨hmem, hpipeline, huser⟩ := hmem
    exact ⟨rfl, fun r hr => ⟨grant', hmem, hpipeline, huser, some.inj hr⟩⟩

/-- **The row of the query** is about the pipeline, which the setting shows. -/
theorem of_accessQuery {createdBy : Option U} {role : Option AccessRole}
    (h : accessQuery uuids setting tables rowId tenant.userId tenant.tenantId =
      some (createdBy, role)) :
    ∃ p ∈ tables.pipelines, ∃ user, uuids.parse rowId = some p.id ∧
      uuids.parse tenant.tenantId = some p.tenantId ∧ uuids.parse tenant.userId = some user ∧
      setting.bind uuids.parse = some p.tenantId ∧ createdBy = p.createdBy ∧
      ∀ r, role = some r → ∃ grant ∈ tables.grants, grant.pipelineId = p.id ∧
        grant.userId = user ∧ grant.role = r := by
  obtain ⟨id, hid, h⟩ := bind_eq_some_iff.mp h
  obtain ⟨user, huser, h⟩ := bind_eq_some_iff.mp h
  obtain ⟨tenantId, htenant, h⟩ := bind_eq_some_iff.mp h
  obtain ⟨visible, hvisible, h⟩ := bind_eq_some_iff.mp h
  obtain ⟨p, hp, hrow⟩ := mem_flatMap.mp (mem_of_head? h)
  rw [visiblePipelines_eq_some hvisible, mem_filter, mem_filter, decide_eq_true_eq,
    decide_eq_true_eq] at hp
  obtain ⟨⟨hmem, hshown⟩, rfl, rfl⟩ := hp
  obtain ⟨hcreated, hgrant⟩ := mem_joinGrants hrow
  exact ⟨p, hmem, user, hid, htenant, huser, hshown, hcreated, hgrant⟩

end entitled

/-! ## Free connections -/

section pool

variable {U : Type} [DecidableEq U] {pool pool' : List Connection} {c : Connection}
  {event : PoolEvent} {es : List PoolEvent}

/-- Outside transactions the setting is missing or empty. -/
def Connection.Unset (c : Connection) : Prop := c.session = none ∨ c.session = some ""

theorem Connection.Unset.finish (h : c.Unset) : c.finish.Unset := by
  obtain ⟨session, transaction⟩ := c
  unfold Connection.finish
  dsimp only at h ⊢
  split
  · rcases h with rfl | rfl
    · exact .inr rfl
    · exact .inr rfl
  · exact h

/-- A connection is put in the place of another one. -/
theorem forall_unset_set (h : ∀ c ∈ pool, c.Unset) (i : ℕ) (hc : c.Unset) :
    ∀ c' ∈ pool.set i c, c'.Unset := by
  intro c' hc'
  rcases mem_or_eq_of_mem_set hc' with hmem | rfl
  · exact h c' hmem
  · exact hc

/-- **No event sets the setting for longer than a transaction.** -/
theorem forall_unset_step (h : ∀ c ∈ pool, c.Unset) (hstep : poolStep pool event = some pool') :
    ∀ c ∈ pool', c.Unset := by
  have hat : ∀ {i : ℕ} {c : Connection}, pool[i]? = some c → c.Unset := fun hi =>
    h _ (mem_of_getElem? hi)
  cases event with
  | connect =>
    obtain rfl := some.inj hstep
    intro c hc
    rcases mem_append.mp hc with hc | hc
    · exact h c hc
    · rw [mem_singleton.mp hc]
      exact .inl rfl
  | close i =>
    obtain rfl := some.inj hstep
    exact fun c hc => h c (mem_of_mem_eraseIdx hc)
  | begin i =>
    rw [poolStep] at hstep
    split at hstep
    · rename_i session hi
      obtain rfl := some.inj hstep
      have hunset : Connection.Unset { session } := hat hi
      exact forall_unset_set h i hunset
    · cases hstep
  | setConfig i tenantId =>
    rw [poolStep] at hstep
    split at hstep
    · rename_i session value hi
      obtain rfl := some.inj hstep
      have hunset : Connection.Unset { session, transaction := some value } := hat hi
      exact forall_unset_set h i hunset
    · cases hstep
  | finish i =>
    rw [poolStep] at hstep
    split at hstep
    · rename_i session value hi
      obtain rfl := some.inj hstep
      exact forall_unset_set h i (Connection.Unset.finish (hat hi))
    · cases hstep

omit [DecidableEq U] in
/-- **Outside transactions the setting names no tenant.** -/
theorem current_of_idle (uuids : Uuids U)
    {allowed : List PoolEvent → List Connection → PoolEvent → Prop}
    (hrun : Run poolStep allowed [] es pool) (hc : c ∈ pool) (hidle : c.transaction = none) :
    c.current.bind uuids.parse = none := by
  have hunset : ∀ c ∈ pool, c.Unset :=
    hrun.invariant (I := fun _ pool => ∀ c ∈ pool, c.Unset) nofun
      fun _ _ _ _ h _ hstep => forall_unset_step h hstep
  rw [Connection.current, hidle]
  rcases hunset c hc with h | h
  · rw [h, bind_none]
  · rw [h, bind_some, uuids.parse_empty]

/-- Without a tenant the check lets no member through. -/
theorem pipelineAccess_ne_next {uuids : Uuids U} {tables : AccessTables U} {minimum : AccessRole}
    {tenant : TenantContext} {rowId : String} (hrole : tenant.role ≠ "owner")
    (h : c.current.bind uuids.parse = none) :
    pipelineAccess uuids c tables minimum tenant rowId = .notFound := by
  unfold pipelineAccess
  rw [if_neg hrole]
  cases hquery : accessQuery uuids c.current tables rowId tenant.userId tenant.tenantId with
  | none => rfl
  | some row =>
    obtain ⟨p, -, -, -, -, -, hshown, -⟩ := of_accessQuery hquery
    simp [h] at hshown

/-- **The check is exact for the users who are not entitled, and only for them.** Whatever has
happened on the pool, the tables and the request of a member: that the request goes through iff the
member is entitled is true iff the member is not entitled. -/
theorem pipelineAccess_exact_iff (uuids : Uuids U) (tables : AccessTables U) (es : List PoolEvent)
    (pool : List Connection) (hrun : Run poolStep Any [] es pool) (connection : Connection)
    (hmem : connection ∈ pool) (hidle : connection.transaction = none) (minimum : AccessRole)
    (tenant : TenantContext) (hrole : tenant.role ≠ "owner") (rowId : String) :
    (pipelineAccess uuids connection tables minimum tenant rowId = .next ↔
      Entitled uuids tables minimum tenant rowId) ↔ ¬ Entitled uuids tables minimum tenant rowId := by
  have hrefused : pipelineAccess uuids connection tables minimum tenant rowId ≠ .next := by
    rw [pipelineAccess_ne_next hrole (current_of_idle uuids hrun hmem hidle)]
    exact AccessReply.noConfusion
  constructor
  · intro hexact hentitled
    exact hrefused (hexact.mpr hentitled)
  · intro hnot
    exact ⟨fun h => absurd h hrefused, fun h => absurd h hnot⟩

end pool

/-! ## Examples -/

/-- Two ids with their texts. -/
def exampleUuids : Uuids Bool where
  format u :=
    if u then "11111111-1111-1111-1111-111111111111" else "22222222-2222-2222-2222-222222222222"
  parse text :=
    if text = "11111111-1111-1111-1111-111111111111" then some true
    else if text = "22222222-2222-2222-2222-222222222222" then some false
    else none
  parse_format u := by cases u <;> decide
  parse_empty := by decide

/-- A pipeline of a tenant that a member has created. -/
def exampleTables : AccessTables Bool where
  pipelines := [{ id := true, tenantId := true, createdBy := some true }]
  grants := []
  nodup_pipelines := by simp
  nodup_grants := by simp

/-- A member. -/
def exampleMember (u : Bool) : TenantContext where
  tenantId := exampleUuids.format true
  userId := exampleUuids.format u
  role := "member"

/-- A connection that has served another transaction. -/
theorem run_example : Run poolStep Any []
    [.connect, .begin 0, .setConfig 0 (exampleUuids.format true), .finish 0]
    [{ session := some "" }] :=
  .of_foldlM (fun _ _ _ _ => trivial) rfl

/-- The theorem at a member without a grant. -/
theorem pipelineAccess_exact_iff_no_grant :
    pipelineAccess exampleUuids { session := some "" } exampleTables .viewer (exampleMember false)
        (exampleUuids.format true) = .next ↔
      Entitled exampleUuids exampleTables .viewer (exampleMember false) (exampleUuids.format true) := by
  refine (pipelineAccess_exact_iff exampleUuids exampleTables _ _ run_example _ mem_cons_self rfl
    .viewer (exampleMember false) (by decide) (exampleUuids.format true)).mpr ?_
  rintro ⟨p, hp, user, -, -, huser, hcreated | ⟨grant, hgrant, -⟩⟩
  · rw [mem_singleton.mp hp] at hcreated
    obtain rfl : false = user := some.inj huser
    cases hcreated
  · cases hgrant

/-- **A member does not reach the own pipeline.** -/
theorem creator_refused :
    ∃ (es : List PoolEvent) (pool : List Connection), Run poolStep Any [] es pool ∧
      ∃ c ∈ pool, c.transaction = none ∧
        Entitled exampleUuids exampleTables .viewer (exampleMember true) (exampleUuids.format true) ∧
        pipelineAccess exampleUuids c exampleTables .viewer (exampleMember true)
          (exampleUuids.format true) = .notFound := by
  refine ⟨_, _, run_example, _, mem_cons_self, rfl, ?_, ?_⟩
  · exact ⟨_, mem_cons_self, true, rfl, rfl, rfl, .inl rfl⟩
  · exact pipelineAccess_ne_next (by decide) rfl

end Dataflow.Api
