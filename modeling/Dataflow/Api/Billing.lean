import Dataflow.Api.BackfillPlanning
import Dataflow.Api.Quota
import Mathlib.Data.Finset.Insert

/-!
# Payments

A tenant orders units of quota, and the payment provider reports what has become of the payment. Its
reports arrive any number of times and in any order, and are handled at the same time.

* `Order`, `OrderStatus`: the rows of `payment_orders`.
* `Call`, `CallReply`, `billingWebhook`: the code, as a coroutine.
* `Tables`, `exec`: the tables and what a statement does to them. What row-level security hides
  from the statement outside a transaction, and a payment id that another order has, are failures of
  the statement.
* `Payments`, `State`, `Payments.step`: the system: each delivery of a report runs
  `billingWebhook`, and a step is a call of one of them. A delivery is `processed` when its
  transaction commits.

Source: `routes_billing.go`, `db/005_billing.sql`
-/

namespace Dataflow.Api.Billing

open Activities (Formatting)
open Api.BackfillPlanning (stringValue)
open Model Library

/-! ## Rows -/

/-- The status of an order. -/
inductive OrderStatus where
  | created
  | paid
  | failed
  deriving DecidableEq

/-- A row of `payment_orders`; `orderId` and `paymentId` are the ids of the payment provider. -/
structure Order where
  id : String
  tenantId : String
  orderId : String
  paymentId : Option String := none
  quotaUnits : ℤ
  status : OrderStatus := .created
  deriving DecidableEq

/-! ## Calls -/

/-- A statement. -/
inductive Call where
  | findOrder (orderId : String)
  | begin (tenantId : String)
  | lockOrder (id : String)
  | markPaid (id : String) (paymentId : Option String)
  | addQuota (tenantId : String) (amount : ℤ)
  | commit
  | rollback
  | markFailed (orderId : String)
  deriving DecidableEq

/-- What a statement gives back: an order, a status, or nothing. -/
@[reducible] def CallReply : Call → Type
  | .findOrder _ => Except ApiError (Option Order)
  | .lockOrder _ => Except ApiError OrderStatus
  | _ => Except ApiError Unit

/-- A function that makes calls. -/
abbrev Program (α : Type) := Coroutine Call CallReply Unit α

/-! ## The code -/

/-- A report of the payment provider, with the entities of its payload; a missing one is empty. -/
structure WebhookEvent where
  event : String
  payment : JsonMap
  order : JsonMap

/-- A request, with the body if it can be read and is not too large. -/
structure WebhookRequest where
  signature : String
  body : Option String

/-- The secret, the check of a signature, and the decoding of a body. -/
structure WebhookEnv where
  secret : String
  validSignature : (secret body signature : String) → Bool
  unmarshal : String → Option WebhookEvent
  formatting : Formatting

/-- The reply to a report. -/
inductive WebhookReply where
  | ok
  | idempotent
  deriving DecidableEq

/-- The checks of `billingWebhook` on a request. -/
def accept (env : WebhookEnv) (request : WebhookRequest) : Except ApiError WebhookEvent :=
  if env.secret = "" then .error (.other "webhook not configured")
  else if request.signature = "" then .error (.other "missing signature")
  else match request.body with
    | none => .error (.other "bad json")
    | some body =>
      if env.validSignature env.secret body request.signature = false then
        .error (.other "bad signature")
      else match env.unmarshal body with
        | none => .error (.other "bad json")
        | some event => .ok event

section code

variable (formatting : Formatting)

/-- The order a report is about. A payment without the field has the text of `nil` there. -/
def orderIdOf (event : WebhookEvent) : String :=
  let orderId := stringValue formatting (event.payment.get "order_id")
  if orderId = "" then stringValue formatting (event.order.get "id") else orderId

/-- The report says that the payment has succeeded. -/
def WebhookEvent.Succeeded (event : WebhookEvent) : Prop :=
  event.event = "payment.captured" ∨ event.event = "order.paid"

instance : DecidablePred WebhookEvent.Succeeded := fun _ => inferInstanceAs (Decidable (_ ∨ _))

/-- The statements of the transaction. -/
def creditBody (record : Order) (paymentId : Option String) : Program (Except ApiError Unit) :=
  .await (.lockOrder record.id) fun reply _ =>
    match reply with
    | .error err => .done (.error err)
    | .ok status =>
      if status = .paid then .done (.ok ())
      else .await (.markPaid record.id paymentId) fun reply _ =>
        match reply with
        | .error err => .done (.error err)
        | .ok () => .await (.addQuota record.tenantId (record.quotaUnits * 5)) fun reply _ =>
          .done reply

/-- The transaction. Source: `database.go` `TenantTx`. -/
def creditOrder (record : Order) (paymentId : Option String) : Program (Except ApiError Unit) :=
  .await (.begin record.tenantId) fun reply _ =>
    match reply with
    | .error err => .done (.error err)
    | .ok () => (creditBody record paymentId).bind fun outcome =>
      match outcome with
      | .error err => .await .rollback fun _ _ => .done (.error err)
      | .ok () => .await .commit fun reply _ => .done reply

/-- What is done for a report. -/
def processEvent (event : WebhookEvent) : Program (Except ApiError WebhookReply) :=
  let orderId := orderIdOf formatting event
  if event.Succeeded then
    if orderId = "" then .done (.error (.other "no order_id"))
    else .await (.findOrder orderId) fun reply _ =>
      match reply with
      | .error err => .done (.error err)
      | .ok none => .done (.error (.other "unknown order"))
      | .ok (some record) =>
        if record.status = .paid then .done (.ok .idempotent)
        else
          let paymentId := nullString (stringValue formatting (event.payment.get "id"))
          (creditOrder record paymentId).bind fun outcome =>
            .done (outcome.map fun _ => .ok)
  else if event.event = "payment.failed" ∧ orderId ≠ "" then
    .await (.markFailed orderId) fun _ _ => .done (.ok .ok)
  else .done (.ok .ok)

end code

/-- Source: `routes_billing.go` `billingWebhook`. -/
def billingWebhook (env : WebhookEnv) (request : WebhookRequest) :
    Program (Except ApiError WebhookReply) :=
  match accept env request with
  | .error err => .done (.error err)
  | .ok event => processEvent env.formatting event

/-! ## The tables -/

/-- The tables the statements work on, and the ids of the orders. -/
structure Tables (ι : Type) where
  ids : List String
  orders : RowStore ι String Order
  plans : RowStore ι String BillingPlan

/-- An integer column holds the number. -/
def FitsInteger (n : ℤ) : Prop := -2147483648 ≤ n ∧ n ≤ 2147483647

instance : DecidablePred FitsInteger := fun _ => inferInstanceAs (Decidable (_ ∧ _))

/-- The plan with more quota; one that is not there is inserted. -/
def moreQuota (plan : Option BillingPlan) (amount : ℤ) : BillingPlan :=
  { plan.getD {} with extraQuota := (plan.getD {}).extraQuota + amount }

section tables

variable {ι : Type} [DecidableEq ι]

/-- `WHERE razorpay_order_id=$1`, which is unique, in what is committed. -/
def Tables.orderOf (tables : Tables ι) (orderId : String) : Option Order :=
  (tables.ids.filterMap tables.orders.committed).find? fun order => order.orderId = orderId

/-- The statement that fails an order, which is a transaction of its own. -/
def Tables.markFailed (tables : Tables ι) (i : ι) (orderId : String) : Option (Tables ι) :=
  match tables.orderOf orderId with
  | none => some tables
  | some order =>
    if order.status = .created then
      (tables.orders.update i order.id fun order => { order with status := .failed }).map
        fun orders => { tables with orders := orders.commit i }
    else some tables

/-- The transaction publishes what it has written. -/
def Tables.commit (tables : Tables ι) (i : ι) : Tables ι :=
  { tables with orders := tables.orders.commit i, plans := tables.plans.commit i }

/-- The transaction drops what it has written. -/
def Tables.rollback (tables : Tables ι) (i : ι) : Tables ι :=
  { tables with orders := tables.orders.rollback i, plans := tables.plans.rollback i }

/-- The reply that reports an error. -/
def CallReply.error (err : ApiError) : (call : Call) → CallReply call
  | .findOrder _ => Except.error err
  | .lockOrder _ => Except.error err
  | .begin _ | .markPaid _ _ | .addQuota _ _ | .commit | .rollback | .markFailed _ =>
    Except.error err

/-- A statement of transaction `i` that does not fail. -/
def perform (i : ι) : (call : Call) → Tables ι → Option (CallReply call × Tables ι)
  | .findOrder orderId, tables => some (Except.ok (tables.orderOf orderId), tables)
  | .begin _, tables => some (Except.ok (), tables)
  | .lockOrder id, tables =>
    (tables.orders.selectForUpdate i id).map fun (order, orders) =>
      match order with
      | some order => (Except.ok order.status, { tables with orders := orders })
      | none => (Except.error (.other "no rows in result set"), tables)
  | .markPaid id paymentId, tables =>
    (tables.orders.update i id fun order =>
      { order with status := .paid, paymentId := paymentId }).map fun orders =>
        (Except.ok (), { tables with orders := orders })
  | .addQuota tenantId amount, tables =>
    let plan := moreQuota (tables.plans.visible i tenantId) amount
    (tables.plans.upsert i tenantId plan).map fun plans =>
      if FitsInteger amount ∧ FitsInteger plan.extraQuota then
        (Except.ok (), { tables with plans := plans })
      else (Except.error (.other "integer out of range"), tables)
  | .commit, tables => some (Except.ok (), tables.commit i)
  | .rollback, tables => some (Except.ok (), tables.rollback i)
  | .markFailed orderId, tables =>
    (tables.markFailed i orderId).map fun tables => (Except.ok (), tables)

/-- The tables after a statement that fails: the end of a transaction that fails rolls it back. -/
def afterFailure (i : ι) : Call → Tables ι → Tables ι
  | .commit, tables | .rollback, tables => tables.rollback i
  | _, tables => tables

/-- **A statement of transaction `i`.** -/
def exec (i : ι) (fault : Fault) (call : Call) (tables : Tables ι) :
    Option (CallReply call × Tables ι) :=
  match fault with
  | .none => perform i call tables
  | .fails err => some (.error err call, afterFailure i call tables)
  | .replyLost err => (perform i call tables).map fun result => (.error err call, result.2)

end tables

/-! ## The system -/

/-- The statement ends a transaction. -/
def Call.commits : Call → Bool
  | .commit => true
  | _ => false

/-- The orders and the plans at the start, and the deliveries. The ids are unique by the schema, and
`billingOrder` inserts an order as `created`. -/
structure Payments (ι : Type) where
  env : WebhookEnv
  orders : List Order
  plans : String → Option BillingPlan
  delivery : ι → WebhookRequest
  ids : (orders.map Order.id).Nodup
  orderIds : (orders.map Order.orderId).Nodup
  unpaid : ∀ order ∈ orders, order.status ≠ .paid

/-- The tables, what the deliveries have still to do, and those whose transaction has committed. -/
structure State (ι : Type) where
  tables : Tables ι
  programs : ι → Program (Except ApiError WebhookReply)
  processed : Finset ι

section system

variable {ι : Type} [DecidableEq ι] (payments : Payments ι)

/-- The row of an order at the start. -/
def Payments.row (id : String) : Option Order := payments.orders.find? fun order => order.id = id

/-- Nothing has been delivered yet. -/
def Payments.start : State ι where
  tables := ⟨payments.orders.map Order.id, .ofRows payments.row, .ofRows payments.plans⟩
  programs i := billingWebhook payments.env (payments.delivery i)
  processed := ∅

/-- The state after a call of a delivery. -/
def afterCall (s : State ι) (i : ι) (fault : Fault) (call : Call) (tables : Tables ι)
    (program : Program (Except ApiError WebhookReply)) : State ι where
  tables := tables
  programs := Function.update s.programs i program
  processed := if call.commits && fault.takesEffect then insert i s.processed else s.processed

/-- One call of a delivery. A call that has to wait is no step. -/
def Payments.step (_ : Payments ι) (s : State ι) : ι × Fault → Option (State ι)
  | (i, fault) =>
    match s.programs i with
    | .done _ => none
    | .await call resume =>
      (exec i fault call s.tables).map fun result =>
        afterCall s i fault call result.2 (resume result.1 ())

/-- The extra quota of a tenant, as committed; without a row it is none. -/
def extraQuota (s : State ι) (tenantId : String) : ℤ :=
  ((s.tables.plans.committed tenantId).getD {}).extraQuota

/-- The order is paid, as committed. -/
def isPaid (s : State ι) (id : String) : Bool :=
  (s.tables.orders.committed id).any fun order => order.status = .paid

/-- The delivery reports that the order has been paid. -/
def Payments.Pays (i : ι) (order : Order) : Prop :=
  ∃ event, accept payments.env (payments.delivery i) = .ok event ∧ event.Succeeded ∧
    orderIdOf payments.env.formatting event = order.orderId

end system

/-- The quota of the paid orders of a tenant: 5 for each unit. -/
def paidQuota (isPaid : String → Bool) (tenantId : String) : List Order → ℤ
  | [] => 0
  | order :: orders =>
    (if isPaid order.id ∧ order.tenantId = tenantId then 5 * order.quotaUnits else 0) +
      paidQuota isPaid tenantId orders

end Dataflow.Api.Billing
