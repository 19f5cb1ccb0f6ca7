import Dataflow.Api.Quota
import Dataflow.Library.Lists

/-!
# `deliverEvent`: an event and the pipelines that wait for it

An event is read from a stream, and an execution of every active pipeline that its topic triggers is
fired. For an event with an id two keys of Redis keep a pipeline from being fired twice: a marker
that the event is done for the pipeline, and a lock. The entry of the stream is acknowledged when
`deliverEvent` says so, and is read again otherwise.

* `EventCall`, `EventReply`: the commands to Redis, the lookup, and `fireExecution` as one call.
* `deliverEvent`, `consumeEntries`: the code.
* `Handled`: what has become of a pipeline: it was fired, or found done, or rejected for quota.
* **`acknowledged_only_if_handled`**: `true` is returned, and an entry is acknowledged, only after
  every pipeline with a definition that can be decoded has been handled.

Source: `routes_triggers.go`
-/

namespace Dataflow.Api.Events

open Model Library List

/-! ## Calls -/

/-- A row of the lookup. -/
structure PipelineRow where
  id : String
  definition : Json
  deriving DecidableEq

/-- A key in Redis expires after a minute, or after thirty days. -/
inductive Expiry where
  | minute
  | days30
  deriving DecidableEq

/-- The calls of `deliverEvent` and of the loop over the stream. -/
inductive EventCall where
  | lookup (tenantId environment topic assetUrn : String)
  | existsKey (key : String)
  | setNX (key value : String) (expiry : Expiry)
  | fire (request : FireRequest)
  | set (key value : String) (expiry : Expiry)
  | del (key : String)
  | xAck (entryId : String)
  | xDel (entryId : String)
  deriving DecidableEq

/-- What a call gives back. -/
@[reducible] def EventReply : EventCall → Type
  | .lookup _ _ _ _ => Except String (List PipelineRow)
  | .existsKey _ => Except String ℕ
  | .setNX _ _ _ => Except String Bool
  | .fire _ => Except ApiError String
  | .set _ _ _ | .del _ | .xAck _ | .xDel _ => Except String Unit

/-- A function that makes these calls. It reads nothing else. -/
abbrev EventProgram (α : Type) := Coroutine EventCall EventReply Unit α

/-! ## The code -/

/-- `encoding/json` for a definition, and `encoding/base64`. -/
structure EventCodec where
  decodeDefinition : Json → Option PipelineDefinition
  base64 : String → String

/-- The arguments of `deliverEvent`. -/
structure Event where
  tenantId : String
  environment : String
  topic : String
  message : String
  eventId : String
  allowAsset : Bool

/-- The marker that an event is done for a pipeline. -/
def doneKey (eventId rowId : String) : String := "dataflow:event-done:" ++ eventId ++ ":" ++ rowId

/-- The lock of a pipeline for an event. -/
def lockKey (eventId rowId : String) : String := "dataflow:event-lock:" ++ eventId ++ ":" ++ rowId

namespace Event

variable (event : Event)

/-- The asset that the topic says is materialized. -/
def assetUrn : String :=
  if event.allowAsset ∧ "asset.materialized.".toList <+: event.topic.toList then
    .ofList (event.topic.toList.drop "asset.materialized.".toList.length)
  else ""

end Event

section code

variable (codec : EventCodec) (event : Event)

/-- What `fireExecution` is called with. -/
def fireRequest (row : PipelineRow) (definition : PipelineDefinition) : FireRequest where
  definition := definition
  pipelineRowId := row.id
  triggerType := if definition.triggerType = "asset" then "asset" else "event"
  environment := event.environment
  payloadRef := some
    { type := "inline", key := codec.base64 event.message, tenantId := event.tenantId
      sizeBytes := event.message.utf8ByteSize }

/-- `if lockKey != "" { Del }`, and the loop goes on. -/
def unlock (row : PipelineRow) (delivered : Bool) : EventProgram Bool :=
  if event.eventId ≠ "" then .await (.del (lockKey event.eventId row.id)) fun _ _ => .done delivered
  else .done delivered

/-- The marker is set, if there is one. -/
def markDone (row : PipelineRow) (value : String) (delivered : Bool) : EventProgram Bool :=
  if event.eventId ≠ "" then
    .await (.set (doneKey event.eventId row.id) value .days30) fun _ _ => unlock event row delivered
  else unlock event row delivered

/-- What follows the reply of `fireExecution`. -/
def afterFire (row : PipelineRow) (delivered : Bool) : Except ApiError String → EventProgram Bool
  | .ok _ => markDone event row "1" delivered
  | .error (.quotaExceeded _ _) => markDone event row "quota-exceeded" delivered
  | .error (.other _) => unlock event row false

/-- The definition is decoded and an execution is fired. -/
def fireRow (row : PipelineRow) (delivered : Bool) : EventProgram Bool :=
  match codec.decodeDefinition row.definition with
  | none => unlock event row delivered
  | some definition =>
    .await (.fire (fireRequest codec event row definition)) fun reply _ =>
      afterFire event row delivered reply

/-- What follows the reply of `SETNX`. -/
def afterLock (row : PipelineRow) (delivered : Bool) : Except String Bool → EventProgram Bool
  | .ok true => fireRow codec event row delivered
  | .ok false | .error _ => .done false

/-- What follows the reply of `EXISTS`; an error counts as zero. -/
def afterCheck (row : PipelineRow) (delivered : Bool) : Except String ℕ → EventProgram Bool
  | .ok (_ + 1) => .done delivered
  | .ok 0 | .error _ => .await (.setNX (lockKey event.eventId row.id) "1" .minute) fun reply _ =>
    afterLock codec event row delivered reply

/-- One round of the loop over the rows. -/
def deliverRow (row : PipelineRow) (delivered : Bool) : EventProgram Bool :=
  if event.eventId = "" then fireRow codec event row delivered
  else .await (.existsKey (doneKey event.eventId row.id)) fun reply _ =>
    afterCheck codec event row delivered reply

/-- The loop over the rows. -/
def deliverRows : List PipelineRow → Bool → EventProgram Bool
  | [], delivered => .done delivered
  | row :: rows, delivered => (deliverRow codec event row delivered).bind (deliverRows rows)

/-- Source: `routes_triggers.go` `deliverEvent`. -/
def deliverEvent : EventProgram Bool :=
  .await (.lookup event.tenantId event.environment event.topic event.assetUrn) fun reply _ =>
    match reply with
    | .error _ => .done false
    | .ok rows => deliverRows codec event rows true

end code

/-- An entry of the stream. -/
structure StreamEntry where
  id : String
  tenantId : String
  environment : String
  topic : String
  payload : String
  eventId : String

/-- The event of an entry. -/
def StreamEntry.event (entry : StreamEntry) : Event where
  tenantId := entry.tenantId
  environment := entry.environment
  topic := entry.topic
  message := entry.payload
  eventId := entry.eventId
  allowAsset := true

/-- What follows the reply of `XACK`. -/
def afterAck (entry : StreamEntry) (retry : Bool) : Except String Unit → EventProgram Bool
  | .ok () => .await (.xDel entry.id) fun _ _ => .done retry
  | .error _ => .done retry

/-- What is done with an entry after its delivery. -/
def acknowledge (entry : StreamEntry) (retry delivered : Bool) : EventProgram Bool :=
  if delivered then .await (.xAck entry.id) fun reply _ => afterAck entry retry reply
  else .done true

/-- The loop over the entries of a read; the result says that there is something to read again.
Source: `routes_triggers.go` `consumePipelineEventStream` -/
def consumeEntries (codec : EventCodec) : List StreamEntry → Bool → EventProgram Bool
  | [], retry => .done retry
  | entry :: entries, retry => (deliverEvent codec entry.event).bind fun delivered =>
    (acknowledge entry retry delivered).bind (consumeEntries codec entries)

/-! ## What is handled -/

/-- Calls with their replies. -/
abbrev EventTrace := List (Σ call, EventReply call)

section handled

variable (codec : EventCodec) (event : Event)

/-- The pipeline was fired, or found done, or rejected for quota. -/
def RowHandled (row : PipelineRow) (trace : EventTrace) : Prop :=
  ∀ definition, codec.decodeDefinition row.definition = some definition →
    (∃ executionId, ⟨.fire (fireRequest codec event row definition), .ok executionId⟩ ∈ trace) ∨
    (event.eventId ≠ "" ∧ ∃ n, ⟨.existsKey (doneKey event.eventId row.id), .ok (n + 1)⟩ ∈ trace) ∨
    ∃ used limit, ⟨.fire (fireRequest codec event row definition),
      .error (.quotaExceeded used limit)⟩ ∈ trace

/-- The pipelines were looked up, and each of them was handled. -/
def Handled (trace : EventTrace) : Prop :=
  ∃ rows, ⟨.lookup event.tenantId event.environment event.topic event.assetUrn, .ok rows⟩ ∈ trace ∧
    ∀ row ∈ rows, RowHandled codec event row trace

variable {codec event} {row : PipelineRow} {trace trace' : EventTrace}

/-- What is handled stays so. -/
theorem RowHandled.mono (h : RowHandled codec event row trace) (hsub : trace ⊆ trace') :
    RowHandled codec event row trace' := by
  intro definition hdefinition
  rcases h definition hdefinition with ⟨executionId, hmem⟩ | ⟨hid, n, hmem⟩ | ⟨used, limit, hmem⟩
  · exact .inl ⟨executionId, hsub hmem⟩
  · exact .inr (.inl ⟨hid, n, hsub hmem⟩)
  · exact .inr (.inr ⟨used, limit, hsub hmem⟩)

theorem Handled.mono (h : Handled codec event trace) (hsub : trace ⊆ trace') :
    Handled codec event trace' := by
  obtain ⟨rows, hlookup, hrows⟩ := h
  exact ⟨rows, hsub hlookup, fun row hrow => (hrows row hrow).mono hsub⟩

/-- Unlocking changes nothing about the result. -/
theorem yields_unlock {delivered value : Bool}
    (h : (unlock event row delivered).Yields trace value) : value = delivered := by
  unfold unlock at h
  split_ifs at h
  · obtain ⟨reply, s, rest, rfl, hrest⟩ := Coroutine.yields_await.mp h
    exact (Coroutine.yields_done.mp hrest).2
  · exact (Coroutine.yields_done.mp h).2

theorem yields_markDone {text : String} {delivered value : Bool}
    (h : (markDone event row text delivered).Yields trace value) : value = delivered := by
  unfold markDone at h
  split_ifs at h
  · obtain ⟨reply, s, rest, rfl, hrest⟩ := Coroutine.yields_await.mp h
    exact yields_unlock hrest
  · exact yields_unlock h

variable {delivered : Bool}

/-- **A pipeline after `fireRow`.** -/
theorem handled_of_fireRow (h : (fireRow codec event row delivered).Yields trace true) :
    delivered = true ∧ RowHandled codec event row trace := by
  unfold fireRow at h
  cases hdecode : codec.decodeDefinition row.definition with
  | none =>
    rw [hdecode] at h
    refine ⟨(yields_unlock h).symm, fun definition hdefinition => ?_⟩
    simp [hdecode] at hdefinition
  | some definition =>
    rw [hdecode] at h
    obtain ⟨reply, s, rest, rfl, hafter⟩ := Coroutine.yields_await.mp h
    cases reply with
    | ok executionId =>
      refine ⟨(yields_markDone hafter).symm, fun definition' hdefinition => .inl ⟨executionId, ?_⟩⟩
      obtain rfl := Option.some.inj (hdecode.symm.trans hdefinition)
      exact mem_cons_self
    | error err =>
      cases err with
      | quotaExceeded used limit =>
        refine ⟨(yields_markDone hafter).symm, fun definition' hdefinition => ?_⟩
        obtain rfl := Option.some.inj (hdecode.symm.trans hdefinition)
        exact .inr (.inr ⟨used, limit, mem_cons_self⟩)
      | other message => cases yields_unlock hafter

theorem handled_of_afterLock {reply : Except String Bool}
    (h : (afterLock codec event row delivered reply).Yields trace true) :
    delivered = true ∧ RowHandled codec event row trace := by
  cases reply with
  | error message => cases (Coroutine.yields_done.mp h).2
  | ok locked =>
    cases locked with
    | false => cases (Coroutine.yields_done.mp h).2
    | true => exact handled_of_fireRow h

/-- **A pipeline after its round of the loop.** -/
theorem handled_of_deliverRow (h : (deliverRow codec event row delivered).Yields trace true) :
    delivered = true ∧ RowHandled codec event row trace := by
  have hlock : ∀ {rest : EventTrace},
      (Coroutine.await (.setNX (lockKey event.eventId row.id) "1" .minute) fun reply _ =>
        afterLock codec event row delivered reply : EventProgram Bool).Yields rest true →
        delivered = true ∧ RowHandled codec event row rest := by
    intro rest hlock
    obtain ⟨reply, s, rest, rfl, hafter⟩ := Coroutine.yields_await.mp hlock
    obtain ⟨hdelivered, hhandled⟩ := handled_of_afterLock hafter
    exact ⟨hdelivered, hhandled.mono (subset_cons_self _ _)⟩
  unfold deliverRow at h
  split_ifs at h with hid
  · exact handled_of_fireRow h
  · obtain ⟨reply, s, rest, rfl, hcheck⟩ := Coroutine.yields_await.mp h
    cases reply with
    | error message =>
      obtain ⟨hdelivered, hhandled⟩ := hlock hcheck
      exact ⟨hdelivered, hhandled.mono (subset_cons_self _ _)⟩
    | ok n =>
      cases n with
      | zero =>
        obtain ⟨hdelivered, hhandled⟩ := hlock hcheck
        exact ⟨hdelivered, hhandled.mono (subset_cons_self _ _)⟩
      | succ n =>
        refine ⟨(Coroutine.yields_done.mp hcheck).2.symm, fun definition _ => ?_⟩
        exact .inr (.inl ⟨hid, n, mem_cons_self⟩)

/-- **The pipelines after the loop**: `true` says that all rounds have kept it. -/
theorem handled_of_deliverRows {rows : List PipelineRow}
    (h : (deliverRows codec event rows delivered).Yields trace true) :
    delivered = true ∧ ∀ row ∈ rows, RowHandled codec event row trace := by
  induction rows generalizing delivered trace with
  | nil => exact ⟨(Coroutine.yields_done.mp h).2.symm, fun row hrow => absurd hrow not_mem_nil⟩
  | cons row rows ih =>
    obtain ⟨first, second, middle, rfl, hrow, hrest⟩ := Coroutine.yields_bind.mp h
    obtain ⟨rfl, hrows⟩ := ih hrest
    obtain ⟨hdelivered, hhandled⟩ := handled_of_deliverRow hrow
    refine ⟨hdelivered, fun other hother => ?_⟩
    rcases mem_cons.mp hother with rfl | hother
    · exact hhandled.mono (subset_append_left _ _)
    · exact (hrows other hother).mono (subset_append_right _ _)

/-- **`true` is returned only after every pipeline has been handled.** -/
theorem handled_of_deliverEvent (h : (deliverEvent codec event).Yields trace true) :
    Handled codec event trace := by
  obtain ⟨reply, s, rest, rfl, hrows⟩ := Coroutine.yields_await.mp h
  cases reply with
  | error message => cases (Coroutine.yields_done.mp hrows).2
  | ok rows =>
    refine ⟨rows, mem_cons_self, fun row hrow => ?_⟩
    exact ((handled_of_deliverRows hrows).2 row hrow).mono (subset_cons_self _ _)

end handled

/-! ## What is acknowledged -/

section acknowledged

variable {codec : EventCodec} {event : Event} {row : PipelineRow} {trace : EventTrace}

/-- The call acknowledges no entry. -/
def EventCall.Silent : EventCall → Prop
  | .xAck _ => False
  | _ => True

variable (row : PipelineRow)

theorem silent_unlock (delivered : Bool) :
    (unlock event row delivered).OnlyCalls EventCall.Silent := by
  unfold unlock
  split_ifs
  · exact ⟨trivial, fun _ _ => trivial⟩
  · exact trivial

theorem silent_markDone (text : String) (delivered : Bool) :
    (markDone event row text delivered).OnlyCalls EventCall.Silent := by
  unfold markDone
  split_ifs
  · exact ⟨trivial, fun _ _ => silent_unlock row delivered⟩
  · exact silent_unlock row delivered

theorem silent_fireRow (delivered : Bool) :
    (fireRow codec event row delivered).OnlyCalls EventCall.Silent := by
  unfold fireRow
  cases codec.decodeDefinition row.definition with
  | none => exact silent_unlock row delivered
  | some definition =>
    refine ⟨trivial, ?_⟩
    rintro (err | executionId) _
    · cases err with
      | quotaExceeded used limit => exact silent_markDone row _ delivered
      | other message => exact silent_unlock row false
    · exact silent_markDone row _ delivered

theorem silent_afterLock (delivered : Bool) (reply : Except String Bool) :
    (afterLock codec event row delivered reply).OnlyCalls EventCall.Silent := by
  cases reply with
  | error message => exact trivial
  | ok locked =>
    cases locked with
    | false => exact trivial
    | true => exact silent_fireRow row delivered

theorem silent_deliverRow (delivered : Bool) :
    (deliverRow codec event row delivered).OnlyCalls EventCall.Silent := by
  unfold deliverRow
  split_ifs
  · exact silent_fireRow row delivered
  · refine ⟨trivial, ?_⟩
    rintro (message | n) _
    · exact ⟨trivial, fun reply _ => silent_afterLock row delivered reply⟩
    · cases n with
      | zero => exact ⟨trivial, fun reply _ => silent_afterLock row delivered reply⟩
      | succ n => exact trivial

theorem silent_deliverRows (rows : List PipelineRow) (delivered : Bool) :
    (deliverRows codec event rows delivered).OnlyCalls EventCall.Silent := by
  induction rows generalizing delivered with
  | nil => exact trivial
  | cons row rows ih => exact (silent_deliverRow row delivered).bind ih

/-- A delivery acknowledges nothing. -/
theorem silent_deliverEvent : (deliverEvent codec event).OnlyCalls EventCall.Silent := by
  refine ⟨trivial, ?_⟩
  rintro (message | rows) _
  · exact trivial
  · exact silent_deliverRows rows true

/-- After a delivery its own entry is acknowledged, if it was a success. -/
theorem of_acknowledge {entry : StreamEntry} {retry delivered value : Bool}
    (h : (acknowledge entry retry delivered).Yields trace value) {entryId : String}
    {reply : Except String Unit} (hmem : ⟨.xAck entryId, reply⟩ ∈ trace) :
    delivered = true ∧ entryId = entry.id := by
  unfold acknowledge at h
  split_ifs at h with hdelivered
  · refine ⟨hdelivered, ?_⟩
    obtain ⟨reply', s, rest, rfl, hafter⟩ := Coroutine.yields_await.mp h
    rcases mem_cons.mp hmem with heq | hlater
    · exact EventCall.xAck.inj (congrArg Sigma.fst heq)
    · cases reply' with
      | error message =>
        obtain ⟨rfl, -⟩ := Coroutine.yields_done.mp hafter
        cases hlater
      | ok _ =>
        obtain ⟨reply'', s', rest', rfl, hdone⟩ := Coroutine.yields_await.mp hafter
        obtain ⟨rfl, -⟩ := Coroutine.yields_done.mp hdone
        cases congrArg Sigma.fst (mem_singleton.mp hlater)
  · obtain ⟨rfl, -⟩ := Coroutine.yields_done.mp h
    cases hmem

/-- **An entry is acknowledged only after its event has been handled.** -/
theorem handled_of_consumeEntries {entries : List StreamEntry} {retry value : Bool}
    (h : (consumeEntries codec entries retry).Yields trace value) {before after : EventTrace}
    {entryId : String} {reply : Except String Unit}
    (htrace : trace = before ++ ⟨.xAck entryId, reply⟩ :: after) :
    ∃ entry ∈ entries, entry.id = entryId ∧ Handled codec entry.event before := by
  induction entries generalizing retry trace before with
  | nil =>
    obtain ⟨rfl, -⟩ := Coroutine.yields_done.mp h
    exact absurd htrace.symm (append_ne_nil_of_right_ne_nil _ (cons_ne_nil _ _))
  | cons entry entries ih =>
    obtain ⟨delivery, rest, delivered, rfl, hdelivery, hrest⟩ := Coroutine.yields_bind.mp h
    obtain ⟨closing, others, retry', rfl, hclosing, hothers⟩ := Coroutine.yields_bind.mp hrest
    rcases Lists.split_of_append_eq htrace with ⟨tail, rfl⟩ | ⟨middle, rfl, hmiddle⟩
    · -- not while an event is delivered
      exact absurd (silent_deliverEvent.of_yields hdelivery _ (mem_append_right _ mem_cons_self)) id
    · rcases Lists.split_of_append_eq hmiddle with ⟨tail, rfl⟩ | ⟨middle', rfl, hothers'⟩
      · obtain ⟨rfl, rfl⟩ := of_acknowledge hclosing
          (mem_append_right _ mem_cons_self)
        refine ⟨entry, mem_cons_self, rfl, ?_⟩
        exact (handled_of_deliverEvent hdelivery).mono (subset_append_left _ _)
      · obtain ⟨other, hother, hid, hhandled⟩ := ih hothers hothers'
        refine ⟨other, mem_cons_of_mem _ hother, hid, hhandled.mono ?_⟩
        exact List.Subset.trans (subset_append_right _ _) (subset_append_right _ _)

end acknowledged

/-- **No event is acknowledged early.** `deliverEvent` returns `true`, and an entry of the stream is
acknowledged, only after every matching pipeline has been handled, whatever the lookup, the locks and
the starts reply.

Source: `routes_triggers.go` `deliverEvent`, `consumePipelineEventStream` -/
theorem acknowledged_only_if_handled (codec : EventCodec) :
    (∀ event trace, (deliverEvent codec event).Yields trace true → Handled codec event trace) ∧
    ∀ entries retry trace value, (consumeEntries codec entries retry).Yields trace value →
      ∀ before after entryId reply, trace = before ++ ⟨.xAck entryId, reply⟩ :: after →
        ∃ entry ∈ entries, entry.id = entryId ∧ Handled codec entry.event before := by
  constructor
  · intro event trace h
    exact handled_of_deliverEvent h
  · intro entries retry trace value h before after entryId reply htrace
    exact handled_of_consumeEntries h htrace

/-- Definitions that are decoded to one without nodes. -/
def exampleCodec : EventCodec where
  decodeDefinition _ := some { triggerType := "event" }
  base64 text := text

/-- An entry with an event that one pipeline waits for. -/
def exampleEntry : StreamEntry where
  id := "1-0"
  tenantId := "tenant"
  environment := "prod"
  topic := "orders"
  payload := "x"
  eventId := "event"

/-- The pipeline. -/
def exampleRow : PipelineRow := ⟨"row", .null⟩

/-- The delivery of the entry: it is fired. -/
def exampleTrace : EventTrace :=
  [⟨.lookup "tenant" "prod" "orders" "", .ok [exampleRow]⟩,
    ⟨.existsKey "dataflow:event-done:event:row", .ok 0⟩,
    ⟨.setNX "dataflow:event-lock:event:row" "1" .minute, .ok true⟩,
    ⟨.fire (fireRequest exampleCodec exampleEntry.event exampleRow { triggerType := "event" }),
      .ok "exec-1"⟩,
    ⟨.set "dataflow:event-done:event:row" "1" .days30, .ok ()⟩,
    ⟨.del "dataflow:event-lock:event:row", .ok ()⟩]

theorem yields_exampleTrace :
    (deliverEvent exampleCodec exampleEntry.event).Yields exampleTrace true :=
  .await () (.await () (.await () (.await () (.await () (.await () (.done true))))))

/-- The entry is delivered, acknowledged and removed, and its event has been handled before. -/
theorem acknowledged_only_if_handled_one_pipeline :
    Handled exampleCodec exampleEntry.event exampleTrace ∧
    ∃ entry ∈ [exampleEntry], entry.id = "1-0" ∧ Handled exampleCodec entry.event exampleTrace := by
  constructor
  · exact (acknowledged_only_if_handled exampleCodec).1 _ _ yields_exampleTrace
  · have hconsume : (consumeEntries exampleCodec [exampleEntry] false).Yields
        (exampleTrace ++ ([⟨.xAck "1-0", .ok ()⟩, ⟨.xDel "1-0", .ok ()⟩] ++ [])) false := by
      refine Coroutine.yields_bind.mpr ⟨_, _, true, rfl, yields_exampleTrace, ?_⟩
      exact Coroutine.yields_bind.mpr ⟨_, _, false, rfl, .await () (.await () (.done false)), .done _⟩
    exact (acknowledged_only_if_handled exampleCodec).2 _ _ _ _ hconsume _ _ _ _ rfl

end Dataflow.Api.Events
