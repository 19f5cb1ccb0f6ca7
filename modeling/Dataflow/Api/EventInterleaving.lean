import Dataflow.Api.EventDelivery
import Dataflow.Library.Transition

/-!
# Several deliveries of one event

The processes of the API read the stream under one consumer name, so that an entry that is pending
may be delivered by several of them at the same time. Their commands to Redis interleave in any
order. No process crashes, no lock expires, and every command to Redis succeeds.

* `Workers`, `State`, `Move`, `State.step`: the system. A move is one call of one delivery.
* `State.FiresOnce`: at most one execution of each pipeline has been fired.
* `Workers.LocksFresh`: a condition on the moves: when a delivery takes the lock of a pipeline, the
  event is not marked as done for it, as it was not when the delivery has checked.
* `WorkerPhase`, `workerProtocol`: what a delivery may do next; `follows_deliverEvent` says that
  the code keeps to it.
* **`fires_once_of_run`**: under the condition each pipeline is fired at most once.
* `fired_twice`: a delivery that checks before another one has finished, and takes the lock after
  it.

Source: `routes_triggers.go`
-/

namespace Dataflow.Api.Events

open Model Library Library.Transition List Function Option

/-! ## Keys -/

variable {eventId rowId rowId' : String}

/-- Different pipelines have different locks. -/
theorem lockKey_inj : lockKey eventId rowId = lockKey eventId rowId' ↔ rowId = rowId' := by
  exact String.append_right_inj _

/-- No lock is a marker. -/
theorem lockKey_ne_doneKey : lockKey eventId rowId ≠ doneKey eventId rowId' := by
  unfold lockKey doneKey
  -- the texts differ within the first 16 characters
  have htake : ∀ {text rest : String}, 16 ≤ text.toList.length →
      (text ++ rest).toList.take 16 = text.toList.take 16 := by
    intro text rest hlen
    rw [String.toList_append, take_append_of_le_length hlen]
  rw [String.append_assoc, String.append_assoc, String.append_assoc, String.append_assoc]
  intro h
  have heq := congrArg (fun text : String => text.toList.take 16) h
  rw [htake (by decide), htake (by decide)] at heq
  exact absurd heq (by decide)

/-! ## The system -/

/-- The deliveries of one event. -/
structure Workers (ι : Type) where
  codec : EventCodec
  eventId : String
  event : ι → Event
  same : ∀ i, (event i).eventId = eventId
  named : eventId ≠ ""

/-- The keys in Redis, what the deliveries have still to do, and the pipelines that have been
fired. -/
structure State (ι : Type) where
  keys : String → Option String
  programs : ι → EventProgram Bool
  fired : List String

/-- One call: a command to Redis, the lookup, or `fireExecution` with what it replies. -/
inductive Move (ι : Type) where
  | redis (i : ι)
  | lookup (i : ι) (reply : Except String (List PipelineRow))
  | fire (i : ι) (reply : Except ApiError String)

/-- A command to Redis, which succeeds. -/
def redis (keys : String → Option String) :
    (call : EventCall) → Option (EventReply call × (String → Option String))
  | .existsKey key => some (Except.ok (if (keys key).isSome then 1 else 0), keys)
  | .setNX key value _ =>
    if (keys key).isSome then some (Except.ok false, keys)
    else some (Except.ok true, update keys key (some value))
  | .set key value _ => some (Except.ok (), update keys key (some value))
  | .del key => some (Except.ok (), update keys key none)
  | .xAck _ | .xDel _ => some (Except.ok (), keys)
  | .lookup _ _ _ _ | .fire _ => none

/-- **At most one execution of each pipeline has been fired.** -/
def State.FiresOnce {ι : Type} (s : State ι) : Prop := ∀ rowId, s.fired.count rowId ≤ 1

/-- One step. -/
def State.step {ι : Type} [DecidableEq ι] (s : State ι) : Move ι → Option (State ι)
  | .redis i =>
    match s.programs i with
    | .await call resume => (redis s.keys call).map fun result =>
      { s with keys := result.2, programs := update s.programs i (resume result.1 ()) }
    | .done _ => none
  | .lookup i reply =>
    match s.programs i with
    | .await (.lookup _ _ _ _) resume =>
      some { s with programs := update s.programs i (resume reply ()) }
    | _ => none
  | .fire i reply =>
    match s.programs i with
    | .await (.fire request) resume =>
      some { s with
        programs := update s.programs i (resume reply ())
        fired := match reply with
          | .ok _ => s.fired ++ [request.pipelineRowId]
          | .error _ => s.fired }
    | _ => none

namespace Workers

variable {ι : Type} [DecidableEq ι] (workers : Workers ι)

/-- Nothing is known of the event. -/
def start : State ι where
  keys _ := none
  programs i := deliverEvent workers.codec (workers.event i)
  fired := []

/-- **A condition on the moves**: a lock that is free is taken only while the event is not marked as
done for its pipeline. -/
def LocksFresh (s : State ι) : Move ι → Prop
  | .redis i => ∀ rowId,
      (s.programs i).pending? = some (.setNX (lockKey workers.eventId rowId) "1" .minute) →
      s.keys (lockKey workers.eventId rowId) = none → s.keys (doneKey workers.eventId rowId) = none
  | .lookup _ _ | .fire _ _ => True

end Workers

/-! ## The protocol -/

/-- How far a delivery has come with a pipeline, by the lock it holds. -/
inductive WorkerPhase where
  | idle
  /-- It has taken the lock. -/
  | locked (lock : String)
  /-- It has fired the pipeline. -/
  | fired (lock : String)
  /-- It fires the pipeline no more. -/
  | closing (lock : String)

namespace WorkerPhase

/-- The lock that is held. -/
def lock? : WorkerPhase → Option String
  | idle => none
  | locked lock | fired lock | closing lock => some lock

/-- The marker that belongs to a lock. -/
def Marks (eventId lock key : String) : Prop :=
  ∃ rowId, lock = lockKey eventId rowId ∧ key = doneKey eventId rowId

/-- The calls that are allowed. -/
def allows (eventId : String) : WorkerPhase → EventCall → Prop
  | idle, .lookup _ _ _ _ | idle, .existsKey _ => True
  | idle, .setNX key value expiry =>
    value = "1" ∧ expiry = .minute ∧ ∃ rowId, key = lockKey eventId rowId
  | locked lock, .fire request => lock = lockKey eventId request.pipelineRowId
  | locked lock, .del key | closing lock, .del key => key = lock
  | fired lock, .set key _ _ | closing lock, .set key _ _ => Marks eventId lock key
  | _, _ => False

/-- The phase after a reply. -/
def next : WorkerPhase → (call : EventCall) → EventReply call → WorkerPhase
  | idle, .setNX key _ _, .ok true => locked key
  | locked lock, .fire _, .ok _ => fired lock
  | locked lock, .fire _, Except.error _ => closing lock
  | fired lock, _, _ => closing lock
  | closing lock, .set _ _ _, _ => closing lock
  | _, _, _ => idle

end WorkerPhase

/-- The protocol of a delivery. -/
def workerProtocol (eventId : String) :
    Coroutine.Protocol EventCall EventReply Unit WorkerPhase where
  allows := WorkerPhase.allows eventId
  next := WorkerPhase.next
  sees _ := True

section follows

variable {codec : EventCodec} {event : Event} {row : PipelineRow}

/-- A delivery ends without a lock. -/
def Idle (phase : WorkerPhase) (_ : Bool) : Prop := phase = .idle

variable (hid : event.eventId ≠ "")

include hid

theorem follows_unlock {phase : WorkerPhase}
    (hphase : phase = .locked (lockKey event.eventId row.id) ∨
      phase = .closing (lockKey event.eventId row.id)) (delivered : Bool) :
    (workerProtocol event.eventId).Follows Idle phase (unlock event row delivered) := by
  unfold unlock
  rw [if_pos hid]
  rcases hphase with rfl | rfl
  · exact ⟨rfl, fun _ _ _ => rfl⟩
  · exact ⟨rfl, fun _ _ _ => rfl⟩

theorem follows_markDone {phase : WorkerPhase}
    (hphase : phase = .fired (lockKey event.eventId row.id) ∨
      phase = .closing (lockKey event.eventId row.id)) (text : String) (delivered : Bool) :
    (workerProtocol event.eventId).Follows Idle phase (markDone event row text delivered) := by
  unfold markDone
  rw [if_pos hid]
  rcases hphase with rfl | rfl
  · exact ⟨⟨row.id, rfl, rfl⟩, fun _ _ _ => follows_unlock hid (.inr rfl) delivered⟩
  · exact ⟨⟨row.id, rfl, rfl⟩, fun _ _ _ => follows_unlock hid (.inr rfl) delivered⟩

theorem follows_fireRow (delivered : Bool) :
    (workerProtocol event.eventId).Follows Idle (.locked (lockKey event.eventId row.id))
      (fireRow codec event row delivered) := by
  unfold fireRow
  cases codec.decodeDefinition row.definition with
  | none => exact follows_unlock hid (.inl rfl) delivered
  | some definition =>
    refine ⟨rfl, ?_⟩
    rintro (err | executionId) _ _
    · cases err with
      | quotaExceeded used limit => exact follows_markDone hid (.inr rfl) _ delivered
      | other message => exact follows_unlock hid (.inr rfl) false
    · exact follows_markDone hid (.inl rfl) _ delivered

theorem follows_deliverRow (row : PipelineRow) (delivered : Bool) :
    (workerProtocol event.eventId).Follows Idle .idle (deliverRow codec event row delivered) := by
  have hlock : (workerProtocol event.eventId).Follows Idle .idle
      (Coroutine.await (.setNX (lockKey event.eventId row.id) "1" .minute) fun reply _ =>
        afterLock codec event row delivered reply : EventProgram Bool) := by
    refine ⟨⟨rfl, rfl, row.id, rfl⟩, ?_⟩
    rintro (message | locked) _ _
    · rfl
    · cases locked with
      | false => rfl
      | true => exact follows_fireRow hid delivered
  unfold deliverRow
  rw [if_neg hid]
  refine ⟨trivial, ?_⟩
  rintro (message | n) _ _
  · exact hlock
  · cases n with
    | zero => exact hlock
    | succ n => rfl

/-- **A delivery keeps to the protocol.** -/
theorem follows_deliverEvent :
    (workerProtocol event.eventId).Follows Idle .idle (deliverEvent codec event) := by
  have hrows : ∀ (rows : List PipelineRow) (delivered : Bool),
      (workerProtocol event.eventId).Follows Idle .idle (deliverRows codec event rows delivered) := by
    intro rows
    induction rows with
    | nil => exact fun _ => rfl
    | cons row rows ih =>
      intro delivered
      apply Coroutine.Protocol.Follows.bind (follows_deliverRow hid row delivered)
      rintro _ delivered' rfl
      exact ih delivered'
  refine ⟨trivial, ?_⟩
  rintro (message | rows) _ _
  · rfl
  · exact hrows rows true

end follows

/-! ## The invariant -/

section invariant

variable {ι : Type} [DecidableEq ι] {workers : Workers ι} {s s' : State ι}

/-- What holds of the keys and of what has been fired, by the phases of the deliveries. -/
structure Guarded (workers : Workers ι) (keys : String → Option String) (fired : List String)
    (phase : ι → WorkerPhase) : Prop where
  keyed : ∀ i lock, (phase i).lock? = some lock → ∃ rowId, lock = lockKey workers.eventId rowId
  held : ∀ i lock, (phase i).lock? = some lock → (keys lock).isSome
  exclusive : ∀ i j lock, (phase i).lock? = some lock → (phase j).lock? = some lock → i = j
  once : ∀ rowId, fired.count rowId ≤ 1
  marked : ∀ rowId ∈ fired, (keys (doneKey workers.eventId rowId)).isSome ∨
    ∃ i, phase i = .fired (lockKey workers.eventId rowId)
  unfired : ∀ i rowId, phase i = .locked (lockKey workers.eventId rowId) → rowId ∉ fired

variable {keys : String → Option String} {fired : List String} {phase : ι → WorkerPhase} {i : ι}

/-- Where a delivery is in a phase, and where another one is. -/
theorem update_phase_cases (phase : ι → WorkerPhase) (i : ι) (p : WorkerPhase) (j : ι) :
    (j = i ∧ update phase i p j = p) ∨ (j ≠ i ∧ update phase i p j = phase j) := by
  by_cases h : j = i
  · exact .inl ⟨h, by rw [h, update_self]⟩
  · exact .inr ⟨h, update_of_ne h _ _⟩

variable {lock : String} {p : WorkerPhase}

/-- A delivery that has fired has still fired after another one has moved. -/
theorem exists_fired_update {j : ι} (hj : phase j = .fired lock)
    (hi : phase i ≠ .fired lock) : ∃ k, update phase i p k = .fired lock := by
  refine ⟨j, ?_⟩
  rw [update_of_ne]
  · exact hj
  · rintro rfl
    exact hi hj

/-- A delivery that is in another phase than this one after a move has not moved. -/
theorem locked_of_update {j : ι} (hp : p ≠ .locked lock)
    (hj : update phase i p j = .locked lock) : phase j = .locked lock := by
  rcases update_phase_cases phase i p j with ⟨-, heq⟩ | ⟨-, heq⟩
  · exact absurd (heq ▸ hj) hp
  · rwa [heq] at hj

section

variable (h : Guarded workers keys fired phase)

include h

/-- A delivery stays without a lock. -/
theorem Guarded.same (hphase : phase i = p) : Guarded workers keys fired (update phase i p) := by
  rw [← hphase, update_eq_self]
  exact h

/-- **A free lock is taken**, while the event is not marked as done. -/
theorem Guarded.take {rowId value : String}
    (hphase : phase i = .idle) (hfree : keys (lockKey workers.eventId rowId) = none)
    (hfresh : keys (doneKey workers.eventId rowId) = none) :
    Guarded workers (update keys (lockKey workers.eventId rowId) (some value)) fired
      (update phase i (.locked (lockKey workers.eventId rowId))) := by
  have hkeys : ∀ key, (keys key).isSome → (update keys (lockKey workers.eventId rowId)
      (some value) key).isSome := by
    intro key hkey
    rw [update_apply]
    split_ifs
    · rfl
    · exact hkey
  -- nobody holds a lock that is free
  have hnobody : ∀ j, (phase j).lock? ≠ some (lockKey workers.eventId rowId) := by
    intro j hj
    have hheld := h.held j _ hj
    simp [hfree] at hheld
  have hunfired : rowId ∉ fired := by
    intro hmem
    rcases h.marked rowId hmem with hdone | ⟨j, hj⟩
    · simp [hfresh] at hdone
    · apply hnobody j
      rw [hj]
      rfl
  constructor
  · intro j lock hlock
    rcases update_phase_cases phase i (.locked (lockKey workers.eventId rowId)) j
      with ⟨-, hj⟩ | ⟨-, hj⟩
    · rw [hj] at hlock
      cases hlock
      exact ⟨rowId, rfl⟩
    · rw [hj] at hlock
      exact h.keyed j lock hlock
  · intro j lock hlock
    rcases update_phase_cases phase i (.locked (lockKey workers.eventId rowId)) j
      with ⟨-, hj⟩ | ⟨-, hj⟩
    · rw [hj] at hlock
      cases hlock
      rw [update_self]
      rfl
    · rw [hj] at hlock
      exact hkeys lock (h.held j lock hlock)
  · intro j k lock hlockJ hlockK
    rcases update_phase_cases phase i (.locked (lockKey workers.eventId rowId)) j
      with ⟨rfl, hj⟩ | ⟨-, hj⟩
    · rcases update_phase_cases phase j (.locked (lockKey workers.eventId rowId)) k
        with ⟨rfl, -⟩ | ⟨-, hk⟩
      · rfl
      · rw [hj] at hlockJ
        cases hlockJ
        rw [hk] at hlockK
        exact absurd hlockK (hnobody k)
    · rw [hj] at hlockJ
      rcases update_phase_cases phase i (.locked (lockKey workers.eventId rowId)) k
        with ⟨rfl, hk⟩ | ⟨-, hk⟩
      · rw [hk] at hlockK
        cases hlockK
        exact absurd hlockJ (hnobody j)
      · rw [hk] at hlockK
        exact h.exclusive j k lock hlockJ hlockK
  · exact h.once
  · intro rowId' hmem
    rcases h.marked rowId' hmem with hdone | ⟨j, hj⟩
    · exact .inl (hkeys _ hdone)
    · exact .inr (exists_fired_update hj (by rw [hphase]; exact WorkerPhase.noConfusion))
  · intro j rowId' hj
    rcases update_phase_cases phase i (.locked (lockKey workers.eventId rowId)) j
      with ⟨-, hj'⟩ | ⟨-, hj'⟩
    · rw [hj', WorkerPhase.locked.injEq, lockKey_inj] at hj
      exact hj ▸ hunfired
    · exact h.unfired j rowId' (hj' ▸ hj)

/-- The phases after a delivery that holds a lock goes on with it, or gives it up. -/
theorem Guarded.locks
    (hphase : (phase i).lock? = some lock) (hp : p.lock? = some lock ∨ p.lock? = none) :
    (∀ j key, (update phase i p j).lock? = some key → (phase j).lock? = some key) ∧
      ∀ j k key, (update phase i p j).lock? = some key →
        (update phase i p k).lock? = some key → j = k := by
  have hsame : ∀ j key, (update phase i p j).lock? = some key → (phase j).lock? = some key := by
    intro j key hkey
    rcases update_phase_cases phase i p j with ⟨rfl, hj⟩ | ⟨-, hj⟩
    · rw [hj] at hkey
      rcases hp with hp | hp
      · rw [hphase, ← hp, hkey]
      · simp [hp] at hkey
    · rwa [hj] at hkey
  exact ⟨hsame, fun j k key hj hk => h.exclusive j k key (hsame j key hj) (hsame k key hk)⟩

/-- **The pipeline is fired.** -/
theorem Guarded.fire {rowId : String} (hphase : phase i = .locked (lockKey workers.eventId rowId)) :
    Guarded workers keys (fired ++ [rowId])
      (update phase i (.fired (lockKey workers.eventId rowId))) := by
  have hlock : (phase i).lock? = some (lockKey workers.eventId rowId) := by rw [hphase]; rfl
  obtain ⟨hsame, hexclusive⟩ := h.locks hlock
    (p := .fired (lockKey workers.eventId rowId)) (.inl rfl)
  have hunfired := h.unfired i rowId hphase
  constructor
  · exact fun j lock hj => h.keyed j lock (hsame j lock hj)
  · exact fun j lock hj => h.held j lock (hsame j lock hj)
  · exact hexclusive
  · intro rowId'
    have honce := h.once rowId'
    rw [count_append, count_singleton]
    split_ifs with heq
    · rw [← eq_of_beq heq, count_eq_zero.mpr hunfired]
    · exact honce
  · intro rowId' hmem
    rcases mem_append.mp hmem with hmem | hmem
    · rcases h.marked rowId' hmem with hdone | ⟨j, hj⟩
      · exact .inl hdone
      · exact .inr (exists_fired_update hj (by rw [hphase]; exact WorkerPhase.noConfusion))
    · rw [mem_singleton.mp hmem]
      exact .inr ⟨i, update_self _ _ _⟩
  · intro j rowId' hj
    rcases update_phase_cases phase i (.fired (lockKey workers.eventId rowId)) j
      with ⟨-, hj'⟩ | ⟨hne, hj'⟩
    · simp [hj'] at hj
    · rw [hj'] at hj
      intro hmem
      rcases mem_append.mp hmem with hmem | hmem
      · exact h.unfired j rowId' hj hmem
      · -- the lock of the pipeline is held by the delivery that has fired it
        rw [mem_singleton.mp hmem] at hj
        exact hne (h.exclusive j i _ (by rw [hj]; rfl) hlock)

/-- The pipeline could not be fired. -/
theorem Guarded.refuse (hphase : phase i = .locked lock) :
    Guarded workers keys fired (update phase i (.closing lock)) := by
  have hlock : (phase i).lock? = some lock := by rw [hphase]; rfl
  obtain ⟨hsame, hexclusive⟩ := h.locks hlock (p := .closing lock) (.inl rfl)
  constructor
  · exact fun j key hj => h.keyed j key (hsame j key hj)
  · exact fun j key hj => h.held j key (hsame j key hj)
  · exact hexclusive
  · exact h.once
  · intro rowId hmem
    rcases h.marked rowId hmem with hdone | ⟨j, hj⟩
    · exact .inl hdone
    · exact .inr (exists_fired_update hj (by rw [hphase]; exact WorkerPhase.noConfusion))
  · intro j rowId hj
    exact h.unfired j rowId (locked_of_update WorkerPhase.noConfusion hj)

/-- **The event is marked as done** for the pipeline. -/
theorem Guarded.mark {lock key value : String}
    (hphase : phase i = .fired lock ∨ phase i = .closing lock)
    (hmarks : WorkerPhase.Marks workers.eventId lock key) :
    Guarded workers (update keys key (some value)) fired (update phase i (.closing lock)) := by
  have hkeys : ∀ other, (keys other).isSome → (update keys key (some value) other).isSome := by
    intro other hother
    rw [update_apply]
    split_ifs
    · rfl
    · exact hother
  have hlock : (phase i).lock? = some lock := by
    rcases hphase with hphase | hphase <;> rw [hphase] <;> rfl
  obtain ⟨hsame, hexclusive⟩ := h.locks hlock (p := .closing lock) (.inl rfl)
  constructor
  · exact fun j other hj => h.keyed j other (hsame j other hj)
  · exact fun j other hj => hkeys other (h.held j other (hsame j other hj))
  · exact hexclusive
  · exact h.once
  · intro rowId hmem
    rcases h.marked rowId hmem with hdone | ⟨j, hj⟩
    · exact .inl (hkeys _ hdone)
    · by_cases hji : j = i
      · -- the delivery that has fired it marks it now
        obtain ⟨rowId', rfl, rfl⟩ := hmarks
        rw [hji] at hj
        rw [hj] at hlock
        obtain rfl := lockKey_inj.mp (some.inj hlock)
        rw [update_self]
        exact .inl rfl
      · refine .inr ⟨j, ?_⟩
        rw [update_of_ne hji, hj]
  · intro j rowId hj
    exact h.unfired j rowId (locked_of_update WorkerPhase.noConfusion hj)

/-- **The lock is given up.** -/
theorem Guarded.unlock (hphase : phase i = .locked lock ∨ phase i = .closing lock) :
    Guarded workers (update keys lock none) fired (update phase i .idle) := by
  have hlock : (phase i).lock? = some lock := by
    rcases hphase with hphase | hphase <;> rw [hphase] <;> rfl
  obtain ⟨hsame, hexclusive⟩ := h.locks hlock (p := .idle) (.inr rfl)
  obtain ⟨rowId, hrow⟩ := h.keyed i lock hlock
  constructor
  · exact fun j key hj => h.keyed j key (hsame j key hj)
  · intro j key hj
    rw [update_of_ne]
    · exact h.held j key (hsame j key hj)
    · rintro rfl
      obtain rfl := h.exclusive j i _ (hsame j _ hj) hlock
      rw [update_self] at hj
      cases hj
  · exact hexclusive
  · exact h.once
  · intro rowId' hmem
    rcases h.marked rowId' hmem with hdone | ⟨j, hj⟩
    · left
      rw [update_of_ne]
      · exact hdone
      · rw [hrow]
        exact Ne.symm lockKey_ne_doneKey
    · refine .inr ⟨j, ?_⟩
      rw [update_of_ne, hj]
      rintro rfl
      rcases hphase with hphase | hphase <;> rw [hphase] at hj <;> cases hj
  · intro j rowId' hj
    exact h.unfired j rowId' (locked_of_update WorkerPhase.noConfusion hj)

end

/-- **The invariant of the system.** -/
def Workers.Invariant (workers : Workers ι) (s : State ι) : Prop :=
  ∃ phase : ι → WorkerPhase,
    (∀ i, (workerProtocol workers.eventId).Follows Idle (phase i) (s.programs i)) ∧
      Guarded workers s.keys s.fired phase

omit [DecidableEq ι] in
theorem invariant_start (workers : Workers ι) : workers.Invariant workers.start := by
  refine ⟨fun _ => .idle, ?_, ?_⟩
  · intro i
    rw [← workers.same i]
    apply follows_deliverEvent
    rw [workers.same i]
    exact workers.named
  · constructor
    · intro i lock hlock
      cases hlock
    · intro i lock hlock
      cases hlock
    · intro i j lock hlock
      cases hlock
    · exact fun rowId => Nat.zero_le 1
    · intro rowId hmem
      cases hmem
    · intro i rowId h
      cases h

/-- The programs after a call keep to the protocol. -/
theorem follows_update {programs : ι → EventProgram Bool}
    (hfollows : ∀ j, (workerProtocol workers.eventId).Follows Idle (phase j) (programs j))
    {program : EventProgram Bool}
    (hprogram : (workerProtocol workers.eventId).Follows Idle p program) (j : ι) :
    (workerProtocol workers.eventId).Follows Idle (update phase i p j)
      (update programs i program j) := by
  by_cases hj : j = i
  · subst hj
    rw [update_self, update_self]
    exact hprogram
  · rw [update_of_ne hj, update_of_ne hj]
    exact hfollows j

/-- **A command to Redis.** -/
theorem Guarded.redis (h : Guarded workers keys fired phase) {call : EventCall}
    (hallows : (phase i).allows workers.eventId call)
    (hfresh : ∀ rowId, call = .setNX (lockKey workers.eventId rowId) "1" .minute →
      keys (lockKey workers.eventId rowId) = none → keys (doneKey workers.eventId rowId) = none)
    {reply : EventReply call} {keys' : String → Option String}
    (hredis : Events.redis keys call = some (reply, keys')) :
    Guarded workers keys' fired (update phase i ((phase i).next call reply)) := by
  cases hphase : phase i with
  | idle =>
    rw [hphase] at hallows
    cases call with
    | existsKey key =>
      cases hredis
      exact h.same hphase
    | setNX key value expiry =>
      obtain ⟨rfl, rfl, rowId, rfl⟩ := hallows
      unfold Events.redis at hredis
      dsimp only at hredis
      split_ifs at hredis with hset
      · cases hredis
        exact h.same hphase
      · cases hredis
        have hfree := not_isSome_iff_eq_none.mp hset
        exact h.take hphase hfree (hfresh rowId rfl hfree)
    | lookup | fire => cases hredis
    | set | del | xAck | xDel => exact absurd hallows id
  | locked lock =>
    rw [hphase] at hallows
    cases call with
    | del key =>
      cases hredis
      obtain rfl : key = lock := hallows
      exact h.unlock (.inl hphase)
    | lookup | fire => cases hredis
    | existsKey | setNX | set | xAck | xDel => exact absurd hallows id
  | fired lock =>
    rw [hphase] at hallows
    cases call with
    | set key value expiry =>
      cases hredis
      exact h.mark (.inl hphase) hallows
    | lookup | fire => cases hredis
    | existsKey | setNX | del | xAck | xDel => exact absurd hallows id
  | closing lock =>
    rw [hphase] at hallows
    cases call with
    | set key value expiry =>
      cases hredis
      exact h.mark (.inr hphase) hallows
    | del key =>
      cases hredis
      obtain rfl : key = lock := hallows
      exact h.unlock (.inr hphase)
    | lookup | fire => cases hredis
    | existsKey | setNX | xAck | xDel => exact absurd hallows id

/-- **A move keeps the invariant**, under the condition. -/
theorem Workers.Invariant.step {move : Move ι} (h : workers.Invariant s)
    (hfresh : workers.LocksFresh s move) (hstep : s.step move = some s') :
    workers.Invariant s' := by
  obtain ⟨phase, hfollows, hguarded⟩ := h
  cases move with
  | redis i =>
    unfold State.step at hstep
    dsimp only at hstep
    cases hprogram : s.programs i with
    | done value =>
      simp [hprogram] at hstep
    | await call resume =>
      rw [hprogram] at hstep
      obtain ⟨⟨reply, keys'⟩, hredis, rfl⟩ := map_eq_some_iff.mp hstep
      have hcall := hfollows i
      rw [hprogram] at hcall
      refine ⟨update phase i ((phase i).next call reply), ?_, ?_⟩
      · exact follows_update hfollows (hcall.2 reply () trivial)
      · refine hguarded.redis hcall.1 ?_ hredis
        intro rowId hsetNX
        apply hfresh rowId
        rw [hprogram]
        exact congrArg some hsetNX
  | lookup i reply =>
    unfold State.step at hstep
    dsimp only at hstep
    split at hstep
    · rename_i resume hprogram
      obtain rfl := some.inj hstep
      have hcall := hfollows i
      rw [hprogram] at hcall
      have hidle : phase i = .idle := by
        cases hphase : phase i with
        | idle => rfl
        | locked | fired | closing =>
          rw [hphase] at hcall
          exact absurd hcall.1 id
      refine ⟨update phase i .idle, ?_, hguarded.same hidle⟩
      have hnext := hcall.2 reply () trivial
      rw [hidle] at hnext
      exact follows_update hfollows hnext
    · cases hstep
  | fire i reply =>
    unfold State.step at hstep
    dsimp only at hstep
    split at hstep
    · rename_i request resume hprogram
      obtain rfl := some.inj hstep
      have hcall := hfollows i
      rw [hprogram] at hcall
      cases hphase : phase i with
      | idle | fired | closing =>
        rw [hphase] at hcall
        exact absurd hcall.1 id
      | locked lock =>
        rw [hphase] at hcall
        obtain rfl : lock = lockKey workers.eventId request.pipelineRowId := hcall.1
        refine ⟨_, follows_update hfollows (hcall.2 reply () trivial), ?_⟩
        cases reply with
        | ok executionId => exact hguarded.fire hphase
        | error err => exact hguarded.refuse hphase
    · cases hstep

/-- **The invariant holds in every state reached.** -/
theorem invariant_of_run {moves : List (Move ι)}
    (hrun : Run State.step (fun _ => workers.LocksFresh) workers.start moves s) :
    workers.Invariant s := by
  induction hrun with
  | start => exact invariant_start workers
  | next _ hfresh hstep ih => exact ih.step hfresh hstep

end invariant

/-! ## Each pipeline is fired at most once -/

/-- **In every run in which a free lock is taken only while the event is not marked as done for its
pipeline, every pipeline is fired at most once.**

Source: `routes_triggers.go` `deliverEvent` -/
theorem fires_once_of_run {ι : Type} [DecidableEq ι] (workers : Workers ι) {moves : List (Move ι)}
    {s : State ι} (hrun : Run State.step (fun _ => workers.LocksFresh) workers.start moves s) :
    s.FiresOnce := by
  obtain ⟨phase, -, hguarded⟩ := invariant_of_run hrun
  exact hguarded.once

/-- Two deliveries of the event. -/
def twoWorkers : Workers Bool where
  codec := exampleCodec
  eventId := "event"
  event _ := exampleEntry.event
  same _ := rfl
  named := by decide

/-- A delivery up to its check of the marker. -/
def checkMoves (i : Bool) : List (Move Bool) := [.lookup i (.ok [exampleRow]), .redis i]

/-- A delivery from its lock on. -/
def fireMoves (i : Bool) : List (Move Bool) :=
  [.redis i, .fire i (.ok "exec-1"), .redis i, .redis i]

/-- The condition on a call, for the one pipeline there is. -/
def CallFresh (keys : String → Option String) : EventCall → Prop
  | .setNX key _ _ => key = lockKey "event" "row" ∧
      (keys key = none → keys (doneKey "event" "row") = none)
  | .lookup _ _ _ _ | .existsKey _ | .fire _ | .set _ _ _ | .del _ | .xAck _ | .xDel _ => True

instance (keys : String → Option String) (call : EventCall) : Decidable (CallFresh keys call) :=
  match call with
  | .setNX _ _ _ => inferInstanceAs (Decidable (_ ∧ _))
  | .lookup _ _ _ _ | .existsKey _ | .fire _ | .set _ _ _ | .del _ | .xAck _ | .xDel _ =>
    inferInstanceAs (Decidable True)

/-- The condition on a move. -/
def TakesFresh (s : State Bool) : Move Bool → Prop
  | .redis i => ∀ call ∈ (s.programs i).pending?, CallFresh s.keys call
  | .lookup _ _ | .fire _ _ => True

instance (s : State Bool) (move : Move Bool) : Decidable (TakesFresh s move) :=
  match move with
  | .redis i => inferInstanceAs (Decidable (∀ call ∈ (s.programs i).pending?, _))
  | .lookup _ _ | .fire _ _ => inferInstanceAs (Decidable True)

theorem locksFresh_of_takesFresh {s : State Bool} {move : Move Bool} (h : TakesFresh s move) :
    twoWorkers.LocksFresh s move := by
  cases move with
  | redis i =>
    intro rowId hpending hfree
    obtain ⟨hkey, hfresh⟩ := h _ hpending
    obtain rfl := lockKey_inj.mp hkey
    exact hfresh hfree
  | lookup | fire => trivial

/-- One delivery after the other: the second one finds the marker. -/
theorem fires_once_of_run_in_turn :
    ∃ s, Run State.step (fun _ => twoWorkers.LocksFresh) twoWorkers.start
        (checkMoves true ++ fireMoves true ++ checkMoves false) s ∧ s.fired = ["row"] ∧
      s.FiresOnce := by
  -- the only lock that is taken is that of the row
  have hweak : ∃ s, Run State.step (fun _ => TakesFresh) twoWorkers.start
      (checkMoves true ++ fireMoves true ++ checkMoves false) s ∧ s.fired = ["row"] :=
    exists_run_of_guarded (by decide +kernel)
  obtain ⟨s, hrun, hfired⟩ := hweak
  have hrun' : Run State.step (fun _ => twoWorkers.LocksFresh) twoWorkers.start
      (checkMoves true ++ fireMoves true ++ checkMoves false) s :=
    hrun.mono fun _ s move => locksFresh_of_takesFresh
  exact ⟨s, hrun', hfired, fires_once_of_run twoWorkers hrun'⟩

/-- The second delivery checks before the first one has finished, and takes the lock afterwards. -/
theorem fired_twice : ∃ s, Run State.step Any twoWorkers.start
        (checkMoves true ++ checkMoves false ++ fireMoves true ++ fireMoves false) s ∧
      s.fired = ["row", "row"] ∧ ¬ s.FiresOnce := by
  have hrun : ∃ s, Run State.step Any twoWorkers.start
      (checkMoves true ++ checkMoves false ++ fireMoves true ++ fireMoves false) s ∧
      s.fired = ["row", "row"] := exists_run_of_check (fun _ _ _ _ => trivial) (by decide +kernel)
  obtain ⟨s, hrun, hfired⟩ := hrun
  refine ⟨s, hrun, hfired, fun honce => ?_⟩
  have hcount := honce "row"
  rw [hfired] at hcount
  exact absurd hcount (by decide)

end Dataflow.Api.Events
