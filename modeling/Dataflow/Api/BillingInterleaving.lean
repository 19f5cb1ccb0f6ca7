import Dataflow.Api.Billing

/-!
# Payments under concurrency

Reports on the same order race for its row. The transaction that marks an order as paid locks the
row, looks at the status again, and credits the quota before it commits.

* `Phase`, `protocol`: what a delivery may do next, by how far it has come.
  `follows_billingWebhook` says that the code keeps to it.
* `Payments.Party`: what holds of the rows for a delivery in a phase, and `Payments.Accounts` —
  what holds of all that is committed.
* `orders_credited_once`: **the quota a tenant has gained is that of its paid orders**, an order is
  paid if and only if a report of its success has been processed, and it stays paid.

Source: `routes_billing.go`
-/

set_option linter.unusedSectionVars false

namespace Dataflow.Api.Billing

open Model Library Library.Transition List Function Option

/-! ## The protocol -/

/-- How far a delivery has come. -/
inductive Phase where
  /-- Before its first statement. -/
  | idle
  /-- It has read an order. -/
  | found (order : Order)
  /-- In the transaction. -/
  | begun (order : Order)
  /-- It has locked the order, which is not paid. -/
  | locked (order : Order)
  /-- It has locked the order, which is paid already. -/
  | settled (order : Order)
  /-- It has marked the order as paid. -/
  | marked (order : Order)
  /-- It has credited the quota. -/
  | credited (order : Order)
  /-- A statement of the transaction has failed. -/
  | failed
  /-- It does nothing more. -/
  | closed

namespace Phase

/-- The statements of a delivery in a phase; `target` is the order whose success it reports. -/
def allows (target : Option String) : Phase → Call → Prop
  | idle, .findOrder orderId => target = some orderId
  | idle, .markFailed _ => True
  | found _, .begin _ => True
  | begun order, .lockOrder id => id = order.id
  | locked order, .markPaid id _ => id = order.id
  | marked order, .addQuota tenantId amount =>
    tenantId = order.tenantId ∧ amount = order.quotaUnits * 5
  | settled _, .commit | credited _, .commit => True
  | failed, .rollback => True
  | _, _ => False

/-- The phase after a reply. -/
def next : Phase → (call : Call) → CallReply call → Phase
  | idle, .findOrder _, .ok (some order) => found order
  | found order, .begin _, .ok () => begun order
  | begun order, .lockOrder _, .ok status => if status = .paid then settled order else locked order
  | begun _, .lockOrder _, Except.error _ => failed
  | locked order, .markPaid _ _, .ok () => marked order
  | locked _, .markPaid _ _, Except.error _ => failed
  | marked order, .addQuota _ _, .ok () => credited order
  | marked _, .addQuota _ _, Except.error _ => failed
  | _, _, _ => closed

end Phase

/-- The protocol of a delivery. -/
def protocol (target : Option String) : Coroutine.Protocol Call CallReply Unit Phase where
  allows := Phase.allows target
  next := Phase.next
  sees _ := True

/-- The order whose success a request reports. -/
def target (env : WebhookEnv) (request : WebhookRequest) : Option String :=
  match accept env request with
  | .ok event => if event.Succeeded then some (orderIdOf env.formatting event) else none
  | .error _ => none

/-! ## The code keeps to the protocol -/

section follows

variable {goal : Option String}

/-- Where the statements of the transaction end. -/
def Opened (record : Order) (phase : Phase) : Except ApiError Unit → Prop
  | .ok () => phase = .settled record ∨ phase = .credited record
  | .error _ => phase = .failed

/-- The statements of the transaction. -/
theorem follows_creditBody (record : Order) (paymentId : Option String) :
    (protocol goal).Follows (Opened record) (.begun record) (creditBody record paymentId) := by
  refine ⟨rfl, ?_⟩
  rintro (err | status) _ _
  · exact rfl
  · dsimp only
    show (protocol goal).Follows (Opened record)
      (if status = .paid then .settled record else .locked record) _
    by_cases hpaid : status = .paid
    · rw [if_pos hpaid, if_pos hpaid]
      exact .inl rfl
    · rw [if_neg hpaid, if_neg hpaid]
      refine ⟨rfl, ?_⟩
      rintro (err | _) _ _
      · exact rfl
      · refine ⟨⟨rfl, rfl⟩, ?_⟩
        rintro (err | _) _ _
        · exact rfl
        · exact .inr rfl

/-- The transaction. -/
theorem follows_creditOrder (record : Order) (paymentId : Option String) :
    (protocol goal).Follows (fun _ _ => True) (.found record) (creditOrder record paymentId) := by
  refine ⟨trivial, ?_⟩
  rintro (err | _) _ _
  · exact trivial
  · apply Coroutine.Protocol.Follows.bind (follows_creditBody record paymentId)
    rintro phase (err | _) hopened
    · cases hopened
      exact ⟨trivial, fun _ _ _ => trivial⟩
    · rcases hopened with rfl | rfl
      · exact ⟨trivial, fun _ _ _ => trivial⟩
      · exact ⟨trivial, fun _ _ _ => trivial⟩

/-- **A delivery keeps to the protocol.** -/
theorem follows_billingWebhook (env : WebhookEnv) (request : WebhookRequest) :
    (protocol (target env request)).Follows (fun _ _ => True) .idle
      (billingWebhook env request) := by
  unfold target billingWebhook
  cases accept env request with
  | error err => exact trivial
  | ok event =>
    unfold processEvent
    dsimp only
    by_cases hsucceeded : event.Succeeded
    · rw [if_pos hsucceeded, if_pos hsucceeded]
      by_cases hempty : orderIdOf env.formatting event = ""
      · rw [if_pos hempty]
        exact trivial
      · rw [if_neg hempty]
        refine ⟨rfl, ?_⟩
        rintro (err | _ | record) _ _
        · exact trivial
        · exact trivial
        · dsimp only
          by_cases hpaid : record.status = .paid
          · rw [if_pos hpaid]
            exact trivial
          · rw [if_neg hpaid]
            apply Coroutine.Protocol.Follows.bind (follows_creditOrder record _)
            intro _ _ _
            exact trivial
    · rw [if_neg hsucceeded, if_neg hsucceeded]
      by_cases hfailed : event.event = "payment.failed" ∧ orderIdOf env.formatting event ≠ ""
      · rw [if_pos hfailed]
        exact ⟨trivial, fun _ _ _ => trivial⟩
      · rw [if_neg hfailed]
        exact trivial

end follows

variable {orderId : String}

variable {tenantId : String}

/-! ## What a statement does -/

section calls

variable {ι : Type} [DecidableEq ι] {i : ι} {fault : Fault} {call : Call}
  {tables tables' : Tables ι} {reply : CallReply call}

/-- A statement fails, or takes effect; then its reply may be lost. -/
theorem exec_cases (h : exec i fault call tables = some (reply, tables')) :
    (fault.takesEffect = false ∧ tables' = afterFailure i call tables ∧
        ∃ err, reply = .error err call) ∨
      (fault.takesEffect = true ∧ ∃ reply', perform i call tables = some (reply', tables') ∧
        (reply = reply' ∨ ∃ err, reply = .error err call)) := by
  cases fault with
  | none => exact .inr ⟨rfl, reply, h, .inl rfl⟩
  | fails err =>
    cases h
    exact .inl ⟨rfl, rfl, err, rfl⟩
  | replyLost err =>
    obtain ⟨⟨reply', tables''⟩, hperform, heq⟩ := map_eq_some_iff.mp h
    cases heq
    exact .inr ⟨rfl, reply', hperform, .inr ⟨err, rfl⟩⟩

/-- What the rows may become through transaction `i`. -/
structure Tables.Touched (i : ι) (tables tables' : Tables ι) : Prop where
  orders : RowStore.ByOwner i tables.orders tables'.orders
  plans : RowStore.ByOwner i tables.plans tables'.plans

theorem Tables.Touched.rfl : Tables.Touched i tables tables := ⟨.refl _ _, .refl _ _⟩

theorem Tables.Touched.commit : Tables.Touched i tables (tables.commit i) :=
  ⟨.commit _ _, .commit _ _⟩

theorem Tables.Touched.rollback : Tables.Touched i tables (tables.rollback i) :=
  ⟨.rollback _ _, .rollback _ _⟩

/-- What failing an order does. -/
theorem Tables.markFailed_cases (h : tables.markFailed i orderId = some tables') :
    tables' = tables ∨ ∃ order orders, tables.orderOf orderId = some order ∧
      order.status = .created ∧
      tables.orders.update i order.id (fun order => { order with status := .failed }) = some orders ∧
      tables' = { tables with orders := orders.commit i } := by
  unfold Tables.markFailed at h
  cases horder : tables.orderOf orderId with
  | none =>
    rw [horder] at h
    cases h
    exact .inl rfl
  | some order =>
    rw [horder] at h
    dsimp only at h
    split_ifs at h with hcreated
    · obtain ⟨orders, hupdate, rfl⟩ := map_eq_some_iff.mp h
      exact .inr ⟨order, orders, rfl, hcreated, hupdate, rfl⟩
    · cases h
      exact .inl rfl

/-- What locking an order does. -/
theorem perform_lockOrder {id : String} {reply : Except ApiError OrderStatus}
    (h : perform i (.lockOrder id) tables = some (reply, tables')) :
    (tables' = tables ∧ ∃ err, reply = .error err) ∨
      ∃ order orders, tables.orders.selectForUpdate i id = some (some order, orders) ∧
        reply = .ok order.status ∧ tables' = { tables with orders := orders } := by
  obtain ⟨⟨order, orders⟩, hselect, heq⟩ := map_eq_some_iff.mp h
  cases order with
  | none =>
    cases heq
    exact .inl ⟨rfl, _, rfl⟩
  | some order =>
    cases heq
    exact .inr ⟨order, orders, hselect, rfl, rfl⟩

/-- What crediting quota does. -/
theorem perform_addQuota {amount : ℤ} {reply : Except ApiError Unit}
    (h : perform i (.addQuota tenantId amount) tables = some (reply, tables')) :
    (tables' = tables ∧ ∃ err, reply = .error err) ∨ ∃ plans, tables.plans.upsert i tenantId
          (moreQuota (tables.plans.visible i tenantId) amount) = some plans ∧
        tables' = { tables with plans := plans } := by
  obtain ⟨plans, hupsert, heq⟩ := map_eq_some_iff.mp h
  split_ifs at heq
  · cases heq
    exact .inr ⟨plans, hupsert, rfl⟩
  · cases heq
    exact .inl ⟨rfl, _, rfl⟩

/-- **A statement leaves the rows of others alone.** -/
theorem perform_touched (h : perform i call tables = some (reply, tables')) :
    Tables.Touched i tables tables' := by
  cases call with
  | findOrder orderId | begin tenantId =>
    cases h
    exact .rfl
  | lockOrder id =>
    rcases perform_lockOrder h with ⟨rfl, -⟩ | ⟨order, orders, hselect, -, rfl⟩
    · exact .rfl
    · exact ⟨.selectForUpdate hselect, .refl _ _⟩
  | markPaid id paymentId =>
    obtain ⟨orders, hupdate, heq⟩ := map_eq_some_iff.mp h
    cases heq
    exact ⟨.update hupdate, .refl _ _⟩
  | addQuota tenantId amount =>
    rcases perform_addQuota h with ⟨rfl, -⟩ | ⟨plans, hupsert, rfl⟩
    · exact .rfl
    · exact ⟨.refl _ _, .upsert hupsert⟩
  | commit =>
    cases h
    exact .commit
  | rollback =>
    cases h
    exact .rollback
  | markFailed orderId =>
    obtain ⟨failed, hfailed, heq⟩ := map_eq_some_iff.mp h
    cases heq
    rcases Tables.markFailed_cases hfailed with rfl | ⟨order, orders, -, -, hupdate, rfl⟩
    · exact .rfl
    · exact ⟨(RowStore.ByOwner.update hupdate).trans (.commit _ _), .refl _ _⟩

/-- A statement, whether it fails or not. -/
theorem exec_touched (h : exec i fault call tables = some (reply, tables')) :
    Tables.Touched i tables tables' := by
  rcases exec_cases h with ⟨-, rfl, -⟩ | ⟨-, reply', hperform, -⟩
  · cases call with
    | commit | rollback => exact .rollback
    | _ => exact .rfl
  · exact perform_touched hperform

end calls

/-! ## The invariant -/

/-- A version of an order: the status and the payment id may differ. -/
structure IsVersion (order version : Order) : Prop where
  id : version.id = order.id
  tenantId : version.tenantId = order.tenantId
  orderId : version.orderId = order.orderId
  quotaUnits : version.quotaUnits = order.quotaUnits

namespace Payments

variable {ι : Type} [DecidableEq ι] (payments : Payments ι)

/-- A row is a version of an order from the start. -/
def Known (id : String) (version : Order) : Prop :=
  ∃ order ∈ payments.orders, order.id = id ∧ IsVersion order version

/-- The delivery reports the success of the order with this version. -/
def Reports (i : ι) (version : Order) : Prop :=
  ∃ order ∈ payments.orders, IsVersion order version ∧ payments.Pays i order

/-- The delivery owns no rows. -/
structure OwnsNothing (s : State ι) (i : ι) : Prop where
  orders : ∀ id, s.tables.orders.owner id ≠ some i
  plans : ∀ tenantId, s.tables.plans.owner tenantId ≠ some i

/-- The delivery has locked an order, and no other one. -/
structure Holds (s : State ι) (i : ι) (id : String) : Prop where
  own : s.tables.orders.owner id = some i
  only : ∀ other ≠ id, s.tables.orders.owner other ≠ some i

/-- The delivery owns no plan. -/
def NoPlan (s : State ι) (i : ι) : Prop := ∀ tenantId, s.tables.plans.owner tenantId ≠ some i

/-- The delivery sees the order as paid. -/
def SeesPaid (s : State ι) (i : ι) (id : String) : Prop :=
  ∃ order, s.tables.orders.visible i id = some order ∧ order.status = .paid

/-- The delivery has credited the quota of an order, and owns no other plan. -/
structure HasCredited (s : State ι) (i : ι) (order : Order) : Prop where
  own : s.tables.plans.owner order.tenantId = some i
  only : ∀ tenantId ≠ order.tenantId, s.tables.plans.owner tenantId ≠ some i
  credited : ((s.tables.plans.visible i order.tenantId).getD {}).extraQuota =
    extraQuota s order.tenantId + 5 * order.quotaUnits

/-- **What holds of a delivery in a phase.** -/
def Party (s : State ι) (i : ι) : Phase → Prop
  | .idle => OwnsNothing s i
  | .found order | .begun order => OwnsNothing s i ∧ payments.Reports i order
  | .locked order => payments.Reports i order ∧ Holds s i order.id ∧ NoPlan s i ∧
      (∃ version, s.tables.orders.visible i order.id = some version) ∧ isPaid s order.id = false
  | .settled order => payments.Reports i order ∧ Holds s i order.id ∧ NoPlan s i ∧
      s.tables.orders.visible i order.id = s.tables.orders.committed order.id ∧
      isPaid s order.id = true
  | .marked order => payments.Reports i order ∧ Holds s i order.id ∧ NoPlan s i ∧
      SeesPaid s i order.id ∧ isPaid s order.id = false
  | .credited order => payments.Reports i order ∧ Holds s i order.id ∧ HasCredited s i order ∧
      SeesPaid s i order.id ∧ isPaid s order.id = false
  | .failed | .closed => True

/-- **What holds of what is committed**: the rows are versions of the orders, the quota that has
been gained is that of the paid orders, and these are the ones whose success has been processed. -/
structure Accounts (s : State ι) : Prop where
  known : s.tables.orders.Every payments.Known
  quota : ∀ tenantId, extraQuota s tenantId = extraQuota payments.start tenantId +
    paidQuota (isPaid s) tenantId payments.orders
  processed : ∀ order ∈ payments.orders,
    isPaid s order.id = true ↔ ∃ i ∈ s.processed, payments.Pays i order

/-- **What holds in every state reached.** -/
structure Invariant (s : State ι) : Prop where
  accounts : payments.Accounts s
  party : ∀ i, ∃ phase,
    (protocol (target payments.env (payments.delivery i))).Follows (fun _ _ => True) phase
      (s.programs i) ∧ payments.Party s i phase

section steps

variable {payments} {s s' : State ι} {i j : ι} {phase : Phase} {order version : Order}

/-! ## Orders -/

/-- What a delivery reports, by its target. -/
theorem pays_iff : payments.Pays i order ↔
    target payments.env (payments.delivery i) = some order.orderId := by
  unfold Pays target
  cases accept payments.env (payments.delivery i) with
  | error err =>
    constructor
    · rintro ⟨event, h, -⟩
      cases h
    · intro h
      cases h
  | ok event =>
    dsimp only
    constructor
    · rintro ⟨other, h, hsucceeded, horder⟩
      cases h
      rw [if_pos hsucceeded, horder]
    · intro h
      split_ifs at h with hsucceeded
      exact ⟨event, rfl, hsucceeded, some.inj h⟩

/-- A delivery reports one order at most. -/
theorem eq_of_pays {other : Order} (horder : order ∈ payments.orders)
    (hother : other ∈ payments.orders) (h : payments.Pays i order) (h' : payments.Pays i other) :
    order = other := by
  have htarget := (pays_iff.mp h).symm.trans (pays_iff.mp h')
  exact inj_on_of_nodup_map payments.orderIds horder hother (some.inj htarget)

/-- What is found under an order id is committed. -/
theorem mem_of_orderOf {tables : Tables ι}
    (hknown : tables.orders.Every payments.Known) (h : tables.orderOf orderId = some order) :
    tables.orders.committed order.id = some order ∧ order.orderId = orderId ∧
      ∃ original ∈ payments.orders, IsVersion original order := by
  have hfound := find?_some h
  have horderId : order.orderId = orderId := of_decide_eq_true hfound
  obtain ⟨id, -, hcommitted⟩ := mem_filterMap.mp (mem_of_find?_eq_some h)
  obtain ⟨original, horiginal, rfl, hversion⟩ := hknown.committed id order hcommitted
  rw [hversion.id]
  exact ⟨hcommitted, horderId, original, horiginal, hversion⟩

theorem isPaid_of_committed (h : s.tables.orders.committed order.id = some version) :
    isPaid s order.id = decide (version.status = .paid) := by
  rw [isPaid, h]
  rfl

theorem isPaid_congr (h : s'.tables.orders.committed = s.tables.orders.committed) :
    isPaid s' = isPaid s := by
  funext id
  rw [isPaid, isPaid, h]

theorem extraQuota_congr
    (h : s'.tables.plans.committed tenantId = s.tables.plans.committed tenantId) :
    extraQuota s' tenantId = extraQuota s tenantId := by
  rw [extraQuota, extraQuota, h]

/-- One more order is paid. -/
theorem paidQuota_update {paid : String → Bool} {orders : List Order}
    (hids : (orders.map Order.id).Nodup) (horder : order ∈ orders)
    (hunpaid : paid order.id = false) :
    paidQuota (update paid order.id true) tenantId orders = paidQuota paid tenantId orders +
        if order.tenantId = tenantId then 5 * order.quotaUnits else 0 := by
  have hother : ∀ {rest : List Order}, order.id ∉ rest.map Order.id →
      paidQuota (update paid order.id true) tenantId rest = paidQuota paid tenantId rest := by
    intro rest
    induction rest with
    | nil => exact fun _ => rfl
    | cons first rest ih =>
      intro hnot
      rw [map_cons, mem_cons, not_or] at hnot
      rw [paidQuota, paidQuota, ih hnot.2, update_of_ne (Ne.symm hnot.1)]
  induction orders with
  | nil => exact absurd horder not_mem_nil
  | cons first orders ih =>
    rw [map_cons, nodup_cons] at hids
    rw [paidQuota, paidQuota]
    rcases mem_cons.mp horder with rfl | hmem
    · rw [hother hids.1, update_self, hunpaid]
      simp only [true_and, Bool.false_eq_true, false_and, if_false]
      omega
    · have hne : first.id ≠ order.id := by
        intro heq
        exact hids.1 (heq ▸ List.mem_map.mpr ⟨order, hmem, rfl⟩)
      rw [update_of_ne hne, ih hids.2 hmem]
      omega

/-! ## Others are left alone -/

/-- **A delivery keeps its phase** when another one touches only what is its own. -/
theorem Party.frame (h : payments.Party s j phase) (hj : j ≠ i)
    (htouched : Tables.Touched i s.tables s'.tables) : payments.Party s' j phase := by
  have hnothing (h : OwnsNothing s j) : OwnsNothing s' j :=
    ⟨fun id hown => h.orders id ((htouched.orders j hj id).2 hown),
      fun tenantId hown => h.plans tenantId ((htouched.plans j hj tenantId).2 hown)⟩
  have hplan (h : NoPlan s j) : NoPlan s' j := fun tenantId hown =>
    h tenantId ((htouched.plans j hj tenantId).2 hown)
  have hholds {id : String} (h : Holds s j id) : Holds s' j id ∧
      s'.tables.orders.committed id = s.tables.orders.committed id ∧
      s'.tables.orders.visible j id = s.tables.orders.visible j id := by
    have hkept := (htouched.orders j hj id).1 h.own
    refine ⟨⟨hkept.2.1, ?_⟩, hkept.1, htouched.orders.visible hj h.own⟩
    intro other hne hown
    exact h.only other hne ((htouched.orders j hj other).2 hown)
  have hunpaid {id : String} {value : Bool} (h : Holds s j id) (hpaid : isPaid s id = value) :
      isPaid s' id = value := by
    rw [isPaid, (hholds h).2.1]
    exact hpaid
  have hsees {id : String} (h : Holds s j id) (hpaid : SeesPaid s j id) : SeesPaid s' j id := by
    obtain ⟨order, hvisible, hstatus⟩ := hpaid
    exact ⟨order, by rw [(hholds h).2.2, hvisible], hstatus⟩
  cases phase with
  | idle => exact hnothing h
  | found order | begun order => exact ⟨hnothing h.1, h.2⟩
  | locked order =>
    obtain ⟨hreports, hown, hnoPlan, ⟨version, hvisible⟩, hpaid⟩ := h
    refine ⟨hreports, (hholds hown).1, hplan hnoPlan, ⟨version, ?_⟩, hunpaid hown hpaid⟩
    rw [(hholds hown).2.2, hvisible]
  | settled order =>
    obtain ⟨hreports, hown, hnoPlan, hvisible, hpaid⟩ := h
    refine ⟨hreports, (hholds hown).1, hplan hnoPlan, ?_, hunpaid hown hpaid⟩
    rw [(hholds hown).2.2, (hholds hown).2.1, hvisible]
  | marked order =>
    obtain ⟨hreports, hown, hnoPlan, hvisible, hpaid⟩ := h
    exact ⟨hreports, (hholds hown).1, hplan hnoPlan, hsees hown hvisible, hunpaid hown hpaid⟩
  | credited order =>
    obtain ⟨hreports, hown, hcredited, hvisible, hpaid⟩ := h
    obtain ⟨hcommitted, howner, -⟩ := (htouched.plans j hj order.tenantId).1 hcredited.own
    refine ⟨hreports, (hholds hown).1, ⟨howner, ?_, ?_⟩, hsees hown hvisible, hunpaid hown hpaid⟩
    · intro tenantId hne hown'
      exact hcredited.only tenantId hne ((htouched.plans j hj tenantId).2 hown')
    · rw [htouched.plans.visible hj hcredited.own, hcredited.credited, extraQuota_congr hcommitted]
  | failed | closed => trivial

/-! ## A statement of the delivery itself -/

/-- A statement changes nothing that is committed. -/
structure Kept (s s' : State ι) : Prop where
  orders : s'.tables.orders.committed = s.tables.orders.committed
  plans : s'.tables.plans.committed = s.tables.plans.committed
  processed : s'.processed = s.processed

theorem Accounts.keep (h : payments.Accounts s) (hkept : Kept s s')
    (hknown : s'.tables.orders.Every payments.Known) : payments.Accounts s' where
  known := hknown
  quota tenantId := by
    rw [extraQuota_congr (congrFun hkept.plans tenantId), isPaid_congr hkept.orders, h.quota]
  processed order horder := by
    rw [isPaid_congr hkept.orders, hkept.processed]
    exact h.processed order horder

/-- A change of the status and the payment id. -/
theorem Known.set {id : String} (h : payments.Known id version) (status : OrderStatus)
    (paymentId : Option String) :
    payments.Known id { version with status := status, paymentId := paymentId } := by
  obtain ⟨original, horiginal, hid, hversion⟩ := h
  exact ⟨original, horiginal, hid, hversion.id, hversion.tenantId, hversion.orderId,
    hversion.quotaUnits⟩

/-- A row that a delivery does not own looks as it is committed. -/
theorem OwnsNothing.visible (h : OwnsNothing s i) (id : String) :
    s.tables.orders.visible i id = s.tables.orders.committed id :=
  RowStore.visible_of_ne (h.orders id)

/-- The order that is found is the one the delivery reports. -/
theorem reports_of_orderOf (haccounts : payments.Accounts s)
    (htarget : target payments.env (payments.delivery i) = some orderId)
    (h : s.tables.orderOf orderId = some order) : payments.Reports i order := by
  obtain ⟨-, rfl, original, horiginal, hversion⟩ := mem_of_orderOf haccounts.known h
  refine ⟨original, horiginal, hversion, ?_⟩
  rw [pays_iff, htarget, hversion.orderId]

/-- **The order is locked**, and its status is known. -/
theorem Party.lockOrder (h : payments.Party s i (.begun order)) {orders : RowStore ι String Order}
    (hselect : s.tables.orders.selectForUpdate i order.id = some (some version, orders))
    (horders : s'.tables.orders = orders) (hplans : s'.tables.plans = s.tables.plans) :
    payments.Party s' i (if version.status = .paid then .settled order else .locked order) := by
  obtain ⟨hnothing, hreports⟩ := h
  obtain ⟨hown, hvisible, hvisible', hcommitted⟩ := RowStore.selectForUpdate_some hselect
  rw [hnothing.visible] at hvisible'
  have hholds : Holds s' i order.id := by
    rw [← horders] at hown hselect
    refine ⟨hown, ?_⟩
    intro other hne hother
    rw [(RowStore.Elsewhere.selectForUpdate hselect other hne).2.1] at hother
    exact hnothing.orders other hother
  have hnoPlan : NoPlan s' i := by
    intro tenantId hown
    rw [hplans] at hown
    exact hnothing.plans tenantId hown
  have hrow : s'.tables.orders.committed order.id = some version := by
    rw [horders, hcommitted, hvisible']
  by_cases hpaid : version.status = .paid
  · rw [if_pos hpaid]
    refine ⟨hreports, hholds, hnoPlan, ?_, ?_⟩
    · rw [hrow, horders, hvisible]
    · rw [isPaid_of_committed hrow, decide_eq_true hpaid]
  · rw [if_neg hpaid]
    refine ⟨hreports, hholds, hnoPlan, ⟨version, ?_⟩, ?_⟩
    · rw [horders, hvisible]
    · rw [isPaid_of_committed hrow, decide_eq_false hpaid]

/-- **The order is marked.** -/
theorem Party.markPaid (h : payments.Party s i (.locked order)) {paymentId : Option String}
    {orders : RowStore ι String Order}
    (hupdate : s.tables.orders.update i order.id
      (fun order => { order with status := .paid, paymentId := paymentId }) = some orders)
    (horders : s'.tables.orders = orders) (hplans : s'.tables.plans = s.tables.plans) :
    payments.Party s' i (.marked order) := by
  obtain ⟨hreports, hholds, hnoPlan, ⟨version, hvisible⟩, hunpaid⟩ := h
  obtain ⟨hown, hvisible', hcommitted⟩ := RowStore.update_some hvisible hupdate
  rw [← horders] at hown hvisible' hcommitted hupdate
  refine ⟨hreports, ⟨hown, ?_⟩, ?_, ⟨_, hvisible', rfl⟩, ?_⟩
  · intro other hne hother
    rw [(RowStore.Elsewhere.update hupdate other hne).2.1] at hother
    exact hholds.only other hne hother
  · intro tenantId hown
    rw [hplans] at hown
    exact hnoPlan tenantId hown
  · rw [isPaid_congr hcommitted, hunpaid]

/-- **The quota is credited.** -/
theorem Party.addQuota (h : payments.Party s i (.marked order))
    {plans : RowStore ι String BillingPlan} (hupsert : s.tables.plans.upsert i order.tenantId
      (moreQuota (s.tables.plans.visible i order.tenantId) (order.quotaUnits * 5)) = some plans)
    (horders : s'.tables.orders = s.tables.orders) (hplans : s'.tables.plans = plans) :
    payments.Party s' i (.credited order) := by
  obtain ⟨hreports, hholds, hnoPlan, ⟨version, hvisible, hpaid⟩, hunpaid⟩ := h
  obtain ⟨hown, hvisible', hcommitted⟩ := RowStore.upsert_some hupsert
  rw [← hplans] at hown hvisible' hcommitted hupsert
  refine ⟨hreports, ⟨?_, ?_⟩, ⟨hown, ?_, ?_⟩, ⟨version, ?_, hpaid⟩, ?_⟩
  · rw [horders]
    exact hholds.own
  · rw [horders]
    exact hholds.only
  · intro tenantId hne hother
    rw [(RowStore.Elsewhere.upsert hupsert tenantId hne).2.1] at hother
    exact hnoPlan tenantId hother
  · rw [hvisible', RowStore.visible_of_ne (hnoPlan _), extraQuota_congr (congrFun hcommitted _)]
    show ((s.tables.plans.committed order.tenantId).getD {}).extraQuota + order.quotaUnits * 5 = _
    rw [extraQuota, mul_comm]
  · rw [horders, hvisible]
  · rw [isPaid, horders]
    exact hunpaid

/-! ## What a delivery publishes -/

/-- What is committed of an order that another transaction owns, or nobody. -/
theorem Holds.committed (h : Holds s i order.id) {other : String} (hne : other ≠ order.id) :
    s.tables.orders.visible i other = s.tables.orders.committed other :=
  RowStore.visible_of_ne (h.only other hne)

/-- **A transaction that has found the order paid** publishes nothing. -/
theorem Accounts.commit_settled (h : payments.Accounts s)
    (hparty : payments.Party s i (.settled order)) (htables : s'.tables = s.tables.commit i)
    (hprocessed : s'.processed = insert i s.processed) : payments.Accounts s' := by
  obtain ⟨⟨original, horiginal, hversion, hpays⟩, hholds, hnoPlan, hvisible, hpaid⟩ := hparty
  have horders : s'.tables.orders.committed = s.tables.orders.committed := by
    funext id
    rw [htables]
    by_cases hid : id = order.id
    · rw [hid]
      exact hvisible
    · exact hholds.committed hid
  have hplans : s'.tables.plans.committed = s.tables.plans.committed := by
    funext tenantId
    rw [htables]
    exact RowStore.visible_of_ne (hnoPlan tenantId)
  constructor
  · rw [htables]
    exact h.known.commit
  · intro tenantId
    rw [extraQuota_congr (congrFun hplans tenantId), isPaid_congr horders, h.quota]
  · intro other hother
    rw [isPaid_congr horders, hprocessed]
    constructor
    · intro hpaid'
      obtain ⟨j, hj, hpays'⟩ := (h.processed other hother).mp hpaid'
      exact ⟨j, Finset.mem_insert_of_mem hj, hpays'⟩
    · rintro ⟨j, hj, hpays'⟩
      rcases Finset.mem_insert.mp hj with rfl | hj
      · rw [← eq_of_pays horiginal hother hpays hpays', ← hversion.id]
        exact hpaid
      · exact (h.processed other hother).mpr ⟨j, hj, hpays'⟩

/-- **A transaction that has credited the quota** publishes the order as paid, and the quota. -/
theorem Accounts.commit_credited (h : payments.Accounts s)
    (hparty : payments.Party s i (.credited order)) (htables : s'.tables = s.tables.commit i)
    (hprocessed : s'.processed = insert i s.processed) : payments.Accounts s' := by
  obtain ⟨⟨original, horiginal, hversion, hpays⟩, hholds, hcredited,
    ⟨version, hvisible, hpaid⟩, hunpaid⟩ := hparty
  have hisPaid : isPaid s' = update (isPaid s) original.id true := by
    funext id
    rw [isPaid, htables, ← hversion.id]
    by_cases hid : id = order.id
    · rw [hid, update_self]
      show (s.tables.orders.visible i order.id).any _ = true
      rw [hvisible]
      exact decide_eq_true hpaid
    · rw [update_of_ne hid]
      show (s.tables.orders.visible i id).any _ = _
      rw [hholds.committed hid]
      rfl
  rw [hversion.id] at hunpaid
  constructor
  · rw [htables]
    exact h.known.commit
  · intro tenantId
    rw [hisPaid, paidQuota_update payments.ids horiginal hunpaid, ← add_assoc, ← h.quota,
      ← hversion.tenantId, ← hversion.quotaUnits, extraQuota, htables]
    show ((s.tables.plans.visible i tenantId).getD {}).extraQuota = _
    by_cases htenant : order.tenantId = tenantId
    · rw [if_pos htenant, ← htenant]
      exact hcredited.credited
    · rw [if_neg htenant, RowStore.visible_of_ne (hcredited.only tenantId (Ne.symm htenant)),
        add_zero]
      rfl
  · intro other hother
    rw [hisPaid, hprocessed]
    by_cases hother' : other = original
    · rw [hother', update_self]
      exact ⟨fun _ => ⟨i, Finset.mem_insert_self .., hpays⟩, fun _ => rfl⟩
    · have hne : other.id ≠ original.id := by
        intro heq
        exact hother' (inj_on_of_nodup_map payments.ids hother horiginal heq)
      rw [update_of_ne hne, h.processed other hother]
      constructor
      · rintro ⟨j, hj, hpays'⟩
        exact ⟨j, Finset.mem_insert_of_mem hj, hpays'⟩
      · rintro ⟨j, hj, hpays'⟩
        rcases Finset.mem_insert.mp hj with rfl | hj
        · exact absurd (eq_of_pays hother horiginal hpays' hpays) hother'
        · exact ⟨j, hj, hpays'⟩

/-- **A failed payment** changes the status of an order that is not paid. -/
theorem Accounts.markFailed (h : payments.Accounts s) (hnothing : OwnsNothing s i)
    (hfailed : s.tables.markFailed i orderId = some s'.tables)
    (hprocessed : s'.processed = s.processed) : payments.Accounts s' := by
  rcases Tables.markFailed_cases hfailed with
    htables | ⟨order, orders, horder, hcreated, hupdate, htables⟩
  · refine h.keep ⟨by rw [htables], by rw [htables], hprocessed⟩ ?_
    rw [htables]
    exact h.known
  · obtain ⟨hcommitted, -⟩ := mem_of_orderOf h.known horder
    have hvisible := (hnothing.visible order.id).trans hcommitted
    obtain ⟨-, hvisible', -⟩ := RowStore.update_some hvisible hupdate
    have hisPaid : isPaid s' = isPaid s := by
      funext id
      rw [isPaid, htables]
      by_cases hid : id = order.id
      · rw [hid, isPaid_of_committed hcommitted]
        show (orders.visible i order.id).any _ = _
        rw [hvisible', hcreated]
        rfl
      · show (orders.visible i id).any _ = _
        rw [(RowStore.Elsewhere.update hupdate).visible hid, hnothing.visible]
        rfl
    constructor
    · rw [htables]
      apply RowStore.Every.commit
      exact h.known.update (fun version hknown => hknown.set _ _) hupdate
    · intro tenantId
      have hplans : s'.tables.plans.committed tenantId = s.tables.plans.committed tenantId := by
        rw [htables]
      rw [hisPaid, extraQuota_congr hplans, h.quota]
    · intro other hother
      rw [hisPaid, hprocessed]
      exact h.processed other hother

/-! ## Steps and runs -/

section call

variable {fault : Fault} {call : Call} {reply : CallReply call} {tables' : Tables ι}
  {program : Program (Except ApiError WebhookReply)}

/-- A statement that fails, or one that leaves the tables. -/
theorem Accounts.same (h : payments.Accounts s) (htables : s'.tables = s.tables)
    (hprocessed : s'.processed = s.processed) : payments.Accounts s' := by
  refine h.keep ⟨by rw [htables], by rw [htables], hprocessed⟩ ?_
  rw [htables]
  exact h.known

/-- A transaction that is rolled back. -/
theorem Accounts.rollback (h : payments.Accounts s) (htables : s'.tables = s.tables.rollback i)
    (hprocessed : s'.processed = s.processed) : payments.Accounts s' := by
  refine h.keep ⟨by rw [htables]; rfl, by rw [htables]; rfl, hprocessed⟩ ?_
  rw [htables]
  exact h.known.rollback

/-- A commit that fails processes nothing, and rolls the transaction back. -/
theorem Accounts.commit_dropped (h : payments.Accounts s) (heffect : fault.takesEffect = false) :
    payments.Accounts (afterCall s i fault .commit (s.tables.rollback i) program) := by
  apply h.rollback rfl
  unfold afterCall
  rw [heffect]
  rfl

/-- A commit that takes effect. -/
theorem processed_of_commits (heffect : fault.takesEffect = true) :
    (afterCall s i fault .commit tables' program).processed = insert i s.processed := by
  unfold afterCall
  rw [heffect]
  rfl

/-- **A call of a delivery.** -/
theorem advance (haccounts : payments.Accounts s) (hparty : payments.Party s i phase)
    (hallow : phase.allows (target payments.env (payments.delivery i)) call)
    (hexec : exec i fault call s.tables = some (reply, tables')) :
    payments.Accounts (afterCall s i fault call tables' program) ∧
      payments.Party (afterCall s i fault call tables' program) i (phase.next call reply) := by
  have hcases := exec_cases hexec
  cases phase with
  | idle =>
    cases call with
    | findOrder orderId =>
      rcases hcases with ⟨-, rfl, err, rfl⟩ | ⟨-, reply', hperform, hreply⟩
      · exact ⟨haccounts.same rfl rfl, trivial⟩
      · cases hperform
        refine ⟨haccounts.same rfl rfl, ?_⟩
        rcases hreply with rfl | ⟨err, rfl⟩
        · cases horder : s.tables.orderOf orderId with
          | none => exact trivial
          | some order =>
            exact ⟨⟨hparty.orders, hparty.plans⟩, reports_of_orderOf haccounts hallow horder⟩
        · exact trivial
    | markFailed orderId =>
      rcases hcases with ⟨-, rfl, err, rfl⟩ | ⟨-, reply', hperform, -⟩
      · exact ⟨haccounts.same rfl rfl, trivial⟩
      · obtain ⟨tables, hfailed, heq⟩ := map_eq_some_iff.mp hperform
        cases heq
        exact ⟨haccounts.markFailed hparty hfailed rfl, trivial⟩
    | _ => exact absurd hallow id
  | found order =>
    cases call with
    | begin tenantId =>
      rcases hcases with ⟨-, rfl, err, rfl⟩ | ⟨-, reply', hperform, hreply⟩
      · exact ⟨haccounts.same rfl rfl, trivial⟩
      · cases hperform
        refine ⟨haccounts.same rfl rfl, ?_⟩
        rcases hreply with rfl | ⟨err, rfl⟩
        · exact ⟨⟨hparty.1.orders, hparty.1.plans⟩, hparty.2⟩
        · exact trivial
    | _ => exact absurd hallow id
  | begun order =>
    cases call with
    | lockOrder id =>
      cases hallow
      rcases hcases with ⟨-, rfl, err, rfl⟩ | ⟨-, reply', hperform, hreply⟩
      · exact ⟨haccounts.same rfl rfl, trivial⟩
      · rcases perform_lockOrder hperform with
          ⟨rfl, err, rfl⟩ | ⟨version, orders, hselect, rfl, rfl⟩
        · refine ⟨haccounts.same rfl rfl, ?_⟩
          rcases hreply with rfl | ⟨err, rfl⟩ <;> exact trivial
        · constructor
          · apply haccounts.keep _ (haccounts.known.selectForUpdate hselect)
            exact ⟨RowStore.selectForUpdate_committed hselect, rfl, rfl⟩
          · rcases hreply with rfl | ⟨err, rfl⟩
            · exact hparty.lockOrder hselect rfl rfl
            · exact trivial
    | _ => exact absurd hallow id
  | locked order =>
    cases call with
    | markPaid id paymentId =>
      cases hallow
      rcases hcases with ⟨-, rfl, err, rfl⟩ | ⟨-, reply', hperform, hreply⟩
      · exact ⟨haccounts.same rfl rfl, trivial⟩
      · obtain ⟨orders, hupdate, heq⟩ := map_eq_some_iff.mp hperform
        cases heq
        constructor
        · refine haccounts.keep ⟨RowStore.update_committed hupdate, rfl, rfl⟩ ?_
          exact haccounts.known.update (fun version hknown => hknown.set _ _) hupdate
        · rcases hreply with rfl | ⟨err, rfl⟩
          · exact hparty.markPaid hupdate rfl rfl
          · exact trivial
    | _ => exact absurd hallow id
  | marked order =>
    cases call with
    | addQuota tenantId amount =>
      obtain ⟨rfl, rfl⟩ := hallow
      rcases hcases with ⟨-, rfl, err, rfl⟩ | ⟨-, reply', hperform, hreply⟩
      · exact ⟨haccounts.same rfl rfl, trivial⟩
      · rcases perform_addQuota hperform with ⟨rfl, err, rfl⟩ | ⟨plans, hupsert, rfl⟩
        · refine ⟨haccounts.same rfl rfl, ?_⟩
          rcases hreply with rfl | ⟨err, rfl⟩ <;> exact trivial
        · constructor
          · exact haccounts.keep ⟨rfl, (RowStore.upsert_some hupsert).2.2, rfl⟩ haccounts.known
          · rcases reply with err | _
            · exact trivial
            · exact hparty.addQuota hupsert rfl rfl
    | _ => exact absurd hallow id
  | settled order =>
    cases call with
    | commit =>
      refine ⟨?_, trivial⟩
      rcases hcases with ⟨heffect, rfl, -⟩ | ⟨heffect, reply', hperform, -⟩
      · exact haccounts.commit_dropped heffect
      · cases hperform
        exact haccounts.commit_settled hparty rfl (processed_of_commits heffect)
    | _ => exact absurd hallow id
  | credited order =>
    cases call with
    | commit =>
      refine ⟨?_, trivial⟩
      rcases hcases with ⟨heffect, rfl, -⟩ | ⟨heffect, reply', hperform, -⟩
      · exact haccounts.commit_dropped heffect
      · cases hperform
        exact haccounts.commit_credited hparty rfl (processed_of_commits heffect)
    | _ => exact absurd hallow id
  | failed =>
    cases call with
    | rollback =>
      refine ⟨?_, trivial⟩
      rcases hcases with ⟨-, rfl, -⟩ | ⟨-, reply', hperform, -⟩
      · exact haccounts.rollback rfl rfl
      · cases hperform
        exact haccounts.rollback rfl rfl
    | _ => exact absurd hallow id
  | closed => exact absurd hallow id

end call

/-- **A step keeps the invariant.** -/
theorem Invariant.step {e : ι × Fault} (h : payments.Invariant s)
    (hstep : payments.step s e = some s') : payments.Invariant s' := by
  obtain ⟨i, fault⟩ := e
  obtain ⟨phase, hfollows, hparty⟩ := h.party i
  unfold Payments.step at hstep
  dsimp only at hstep
  cases hprogram : s.programs i with
  | done result =>
    simp [hprogram] at hstep
  | await call resume =>
    rw [hprogram] at hstep hfollows
    obtain ⟨⟨reply, tables'⟩, hexec, rfl⟩ := map_eq_some_iff.mp hstep
    obtain ⟨haccounts, hparty'⟩ : payments.Accounts _ ∧ payments.Party _ i _ :=
      advance h.accounts hparty hfollows.1 hexec
    refine ⟨haccounts, ?_⟩
    intro j
    by_cases hj : j = i
    · subst hj
      refine ⟨_, ?_, hparty'⟩
      show Coroutine.Protocol.Follows _ _ _ (update s.programs j _ j)
      rw [update_self]
      exact hfollows.2 reply () trivial
    · obtain ⟨phaseJ, hfollowsJ, hpartyJ⟩ := h.party j
      refine ⟨phaseJ, ?_, hpartyJ.frame hj (exec_touched hexec)⟩
      show Coroutine.Protocol.Follows _ _ _ (update s.programs i _ j)
      rw [update_of_ne hj]
      exact hfollowsJ

/-- An order is not paid at the start. -/
theorem isPaid_start (id : String) : isPaid payments.start id = false := by
  show (payments.row id).any _ = false
  unfold row
  cases hfind : payments.orders.find? fun order => order.id = id with
  | none => rfl
  | some order => exact decide_eq_false (payments.unpaid order (mem_of_find?_eq_some hfind))

/-- No order is paid, and no quota is. -/
theorem paidQuota_of_unpaid {paid : String → Bool} (h : ∀ id, paid id = false) (tenantId : String)
    (orders : List Order) : paidQuota paid tenantId orders = 0 := by
  induction orders with
  | nil => rfl
  | cons order orders ih =>
    rw [paidQuota, ih, if_neg (by rw [h]; exact fun hpaid => by cases hpaid.1), add_zero]

/-- The invariant holds at the start. -/
theorem invariant_start : payments.Invariant payments.start where
  accounts :=
    { known := by
        apply RowStore.every_ofRows
        intro id order horder
        have hfound := find?_some horder
        have hid : order.id = id := of_decide_eq_true hfound
        exact ⟨order, mem_of_find?_eq_some horder, hid, rfl, rfl, rfl, rfl⟩
      quota := by
        intro tenantId
        rw [paidQuota_of_unpaid isPaid_start, add_zero]
      processed := by
        intro order _
        rw [isPaid_start]
        constructor
        · intro h
          cases h
        · rintro ⟨i, hi, -⟩
          exact absurd hi (Finset.notMem_empty i) }
  party i := by
    refine ⟨.idle, follows_billingWebhook _ _, ?_, ?_⟩
    · intro id hown
      cases hown
    · intro tenantId hown
      cases hown

/-- **The invariant holds in every state reached.** -/
theorem invariant_of_run {es : List (ι × Fault)}
    (hrun : Run payments.step Any payments.start es s) : payments.Invariant s := by
  apply hrun.invariant (I := fun _ s => payments.Invariant s)
  · exact invariant_start
  · intro _ _ _ _ hinvariant _ hstep
    exact hinvariant.step hstep

/-- What has been processed stays processed. -/
theorem processed_step {e : ι × Fault} (hstep : payments.step s e = some s') :
    s.processed ⊆ s'.processed := by
  unfold Payments.step at hstep
  dsimp only at hstep
  cases hprogram : s.programs e.1 with
  | done result =>
    simp [hprogram] at hstep
  | await call resume =>
    rw [hprogram] at hstep
    obtain ⟨result, -, rfl⟩ := map_eq_some_iff.mp hstep
    unfold afterCall
    split_ifs
    · exact Finset.subset_insert _ _
    · exact Finset.Subset.refl _

/-- **Each paid order is credited once.** In every state reached, the quota that a tenant has gained
is that of its paid orders; an order is paid if and only if a report of its success has been
processed; and it stays paid, whatever comes after. -/
theorem orders_credited_once {es : List (ι × Fault)}
    (hrun : Run payments.step Any payments.start es s) :
    (∀ tenantId, extraQuota s tenantId = extraQuota payments.start tenantId +
        paidQuota (isPaid s) tenantId payments.orders) ∧
      (∀ order ∈ payments.orders,
        isPaid s order.id = true ↔ ∃ i ∈ s.processed, payments.Pays i order) ∧
      ∀ es' s', Run payments.step Any s es' s' → ∀ order ∈ payments.orders,
        isPaid s order.id = true → isPaid s' order.id = true := by
  have h := invariant_of_run hrun
  refine ⟨h.accounts.quota, h.accounts.processed, ?_⟩
  intro es' s' hrun' order horder hpaid
  have hlater : payments.Invariant s' ∧ s.processed ⊆ s'.processed := by
    apply hrun'.invariant (I := fun _ s' => payments.Invariant s' ∧ s.processed ⊆ s'.processed)
    · exact ⟨h, Finset.Subset.refl _⟩
    · rintro _ _ _ _ ⟨hinvariant, hsub⟩ _ hstep
      exact ⟨hinvariant.step hstep, Finset.Subset.trans hsub (processed_step hstep)⟩
  obtain ⟨i, hi, hpays⟩ := (h.accounts.processed order horder).mp hpaid
  exact (hlater.1.accounts.processed order horder).mpr ⟨i, hlater.2 hi, hpays⟩

end steps

end Payments

/-! ## Three reports of one order -/

/-- Three reports of one payment. -/
inductive Report where
  | captured
  | orderPaid
  | failed
  deriving DecidableEq

namespace Report

/-- The body of a report. -/
def body : Report → String
  | captured =>
    "\x7b\"event\":\"payment.captured\",\"payload\":\x7b\"payment\":\x7b\"entity\":\x7b" ++
    "\"id\":\"pay_1\",\"order_id\":\"order_1\"\x7d\x7d\x7d\x7d"
  | orderPaid => "\x7b\"event\":\"order.paid\",\"payload\":\x7b\"payment\":\x7b\"entity\":\x7b" ++
      "\"id\":\"pay_1\",\"order_id\":\"order_1\"\x7d\x7d,\"order\":\x7b\"entity\":\x7b" ++
      "\"id\":\"order_1\"\x7d\x7d\x7d\x7d"
  | failed => "\x7b\"event\":\"payment.failed\",\"payload\":\x7b\"payment\":\x7b\"entity\":\x7b" ++
      "\"id\":\"pay_0\",\"order_id\":\"order_1\"\x7d\x7d\x7d\x7d"

/-- Its signature with the secret of the example. -/
def signature : Report → String
  | captured => "1a8f869170d17777d37aefd3c8b57cd5c29357f5c9eda0da76de85d89a77ccfc"
  | orderPaid => "cbe58ff1415c8231ea640d8a5797b550d915f4cdc005224941b41ec48c61b640"
  | failed => "a8eea183f1af2aa48002fd0601a339d18e2797e279485d966338815f448b7eec"

/-- What the body decodes to. -/
def event : Report → WebhookEvent
  | captured =>
    { event := "payment.captured", order := []
      payment := [("id", .string "pay_1"), ("order_id", .string "order_1")] }
  | orderPaid =>
    { event := "order.paid", order := [("id", .string "order_1")]
      payment := [("id", .string "pay_1"), ("order_id", .string "order_1")] }
  | failed =>
    { event := "payment.failed", order := []
      payment := [("id", .string "pay_0"), ("order_id", .string "order_1")] }

/-- The three reports. -/
def all : List Report := [captured, orderPaid, failed]

end Report

/-- An order of two units, and the three reports of it. -/
def oneOrder : Payments Report where
  env :=
    { secret := "whsec"
      validSignature := fun secret body signature => decide (secret = "whsec") &&
        Report.all.any fun report => body = report.body ∧ signature = report.signature
      unmarshal := fun body =>
        (Report.all.find? fun report => body = report.body).map Report.event
      formatting := ⟨fun _ => "", fun _ => 0⟩ }
  orders := [{ id := "row", tenantId := "tenant", orderId := "order_1", quotaUnits := 2 }]
  plans _ := none
  delivery report := { signature := report.signature, body := some report.body }
  ids := by decide
  orderIds := by decide
  unpaid := by decide

/-- Both reports of the success find the order unpaid; the second one waits for the first, whose
commit loses its reply, and the failure comes last. -/
def racing : List (Report × Fault) :=
  [(.captured, .none), (.orderPaid, .none), (.orderPaid, .none)] ++
    replicate 4 (.captured, .none) ++
    [(.captured, .replyLost (.other "connection reset")), (.orderPaid, .none), (.orderPaid, .none),
      (.failed, .none)]

/-- The order is credited once. -/
theorem orders_credited_once_racing :
    ∃ s, Run oneOrder.step Any oneOrder.start racing s ∧ s.processed = {.captured, .orderPaid} ∧
      extraQuota s "tenant" = 10 := by
  obtain ⟨s, hrun, hprocessed, hquota⟩ : ∃ s, Run oneOrder.step Any oneOrder.start racing s ∧
      s.processed = {.captured, .orderPaid} ∧ paidQuota (isPaid s) "tenant" oneOrder.orders = 10 :=
    exists_run_of_check (fun _ _ _ _ => trivial) (by decide +kernel)
  have hextra := (Payments.orders_credited_once hrun).1 "tenant"
  rw [hquota] at hextra
  exact ⟨s, hrun, hprocessed, hextra⟩

end Dataflow.Api.Billing
