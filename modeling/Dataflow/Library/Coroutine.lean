import Mathlib.Data.Nat.Notation
import Mathlib.Logic.Relation

/-!
# Coroutines over a shared state

A coroutine either has finished with a value or waits for the answer to a call. When the answer
arrives it also sees the shared state as it is at that moment, runs to its next call and waits
again. Several coroutines may be advanced in any order while others change the shared state.

* `resume answer s c`: one step: the pending call is answered by `answer`, in shared state `s`.
* `eval answer s c`: the value reached when nothing changes the shared state in between.
* `StableUnder r c`: the coroutine does not tell `r`-related shared states apart.
* `eval_resume`: under interference that stays within `r`, every step keeps the value that `eval`
  predicts at the start; so when the coroutine has finished, that is its value (`eval_done`).
* `AtMost n c`: it makes at most `n` more calls.
* `run handle c w`: the value and the world reached when a world answers the calls (`run_bind`).
* `Protocol`, `Protocol.Follows`: calls and replies that lead from phase to phase
  (`Protocol.Follows.allows_of_yields`).
* `mapCalls f g c`: the same computation with other calls (`Protocol.Follows.mapCalls`).
* `Yields c trace value`: it ends with the value after the calls and replies of the trace
  (`yields_bind`).
* `RunsIn world c w value w'`: it ends with the value in a world that answers and moves
  (`runsIn_bind`).
* `Makes c calls result`: an attempt, which may be cut off anywhere, makes these calls.
* `OnlyCalls P c`: all its calls satisfy `P`, whatever the replies.
* `MayCall ok c call`: it makes the call after some replies, with shared states within `ok`.
* `Guarantees answers ok post made c`: with the calls `made` behind it, the calls it makes and the
  value it ends with satisfy `post`, for all replies within `answers` and shared states within `ok`.
-/

namespace Dataflow.Library

open List

/-- A computation that asks calls `q : Q` with replies in `R q`, reads a shared state in `σ` at its
resumptions and ends with a value in `α`. -/
inductive Coroutine (Q : Type) (R : Q → Type) (σ α : Type) where
  | done (value : α)
  | await (call : Q) (resume : R call → σ → Coroutine Q R σ α)

namespace Coroutine

variable {Q : Type} {R : Q → Type} {σ α : Type}

/-- Answer the pending call, if there is one. -/
def resume (answer : ∀ q, R q) (s : σ) : Coroutine Q R σ α → Coroutine Q R σ α
  | done value => done value
  | await call k => k (answer call) s

/-- The pending call. -/
def pending? : Coroutine Q R σ α → Option Q
  | done _ => none
  | await call _ => some call

/-- The value, once the coroutine has finished. -/
def value? : Coroutine Q R σ α → Option α
  | done value => some value
  | await _ _ => none

/-- Run to the end with fixed answers and a fixed shared state. -/
def eval (answer : ∀ q, R q) (s : σ) : Coroutine Q R σ α → α
  | done value => value
  | await call k => eval answer s (k (answer call) s)

/-- Run to the end in a world that answers each call, shows a shared state, and changes with it. -/
def run {W : Type} (handle : (q : Q) → W → (R q × σ) × W) : Coroutine Q R σ α → W → α × W
  | done value, w => (value, w)
  | await call k, w => run handle (k (handle call w).1.1 (handle call w).1.2) (handle call w).2

/-- One coroutine after the other. -/
def bind {β : Type} : Coroutine Q R σ α → (α → Coroutine Q R σ β) → Coroutine Q R σ β
  | done value, f => f value
  | await call k, f => await call fun reply s => bind (k reply s) f

/-- The same computation with other calls: `f` names the call that is made instead, and `g` reads
its reply. -/
def mapCalls {Q' : Type} {R' : Q' → Type} (f : Q → Q') (g : ∀ q, R' (f q) → R q) :
    Coroutine Q R σ α → Coroutine Q' R' σ α
  | done value => done value
  | await call k => await (f call) fun reply s => mapCalls f g (k (g call reply) s)

/-- `r`-related shared states lead to the same continuation, now and later. -/
def StableUnder (r : σ → σ → Prop) : Coroutine Q R σ α → Prop
  | done _ => True
  | await call k => ∀ reply : R call, (∀ s s', r s s' → k reply s = k reply s') ∧
      ∀ s, StableUnder r (k reply s)

/-- The coroutine ends with a value, after calls with replies. -/
inductive Yields : Coroutine Q R σ α → List (Σ q, R q) → α → Prop
  | done (value : α) : Yields (done value) [] value
  | await {call : Q} {k : R call → σ → Coroutine Q R σ α} {reply : R call} (s : σ)
      {trace : List (Σ q, R q)} {value : α} (rest : Yields (k reply s) trace value) :
      Yields (await call k) (⟨call, reply⟩ :: trace) value

/-- The coroutine ends with a value in a world that answers each call, and moves on as it does. -/
inductive RunsIn {W : Type} (world : W → (q : Q) → R q → W → Prop) :
    Coroutine Q R σ α → W → α → W → Prop
  | done (value : α) (w : W) : RunsIn world (done value) w value w
  | await {call : Q} {k : R call → σ → Coroutine Q R σ α} {reply : R call} (s : σ) {w w' w'' : W}
      {value : α} (step : world w call reply w') (rest : RunsIn world (k reply s) w' value w'') :
      RunsIn world (await call k) w value w''

/-- An attempt at the coroutine makes these calls. It has a result when it has come to its end, and
none when it was cut off, with or without a reply to its last call. -/
inductive Makes : Coroutine Q R σ α → List Q → Option α → Prop
  | done (value : α) : Makes (done value) [] (some value)
  | cut (c : Coroutine Q R σ α) : Makes c [] none
  | lost (call : Q) (k : R call → σ → Coroutine Q R σ α) : Makes (await call k) [call] none
  | await {call : Q} {k : R call → σ → Coroutine Q R σ α} (reply : R call) (s : σ) {calls : List Q}
      {result : Option α} (rest : Makes (k reply s) calls result) :
      Makes (await call k) (call :: calls) result

/-- All calls satisfy `P`, whatever the replies. -/
def OnlyCalls (P : Q → Prop) : Coroutine Q R σ α → Prop
  | done _ => True
  | await call k => P call ∧ ∀ (reply : R call) (s : σ), OnlyCalls P (k reply s)

/-- The call is made after some replies, if the shared states that are seen until then are `ok`. -/
inductive MayCall (ok : σ → Prop) : Coroutine Q R σ α → Q → Prop
  | here (call : Q) (k : R call → σ → Coroutine Q R σ α) : MayCall ok (await call k) call
  | later {call call' : Q} {k : R call → σ → Coroutine Q R σ α} (reply : R call) {s : σ} (hs : ok s)
      (rest : MayCall ok (k reply s) call') : MayCall ok (await call k) call'

/-- At most `n` more calls are made, whatever the answers. -/
def AtMost : ℕ → Coroutine Q R σ α → Prop
  | _, done _ => True
  | 0, await _ _ => False
  | n + 1, await call k => ∀ (reply : R call) (s : σ), AtMost n (k reply s)

/-- The calls made so far, those still to come and the value at the end satisfy `post`. -/
def Guarantees (answers : ∀ q, R q → Prop) (ok : σ → Prop) (post : List Q → α → Prop) :
    List Q → Coroutine Q R σ α → Prop
  | made, done value => post made value
  | made, await call k => ∀ (reply : R call) (s : σ), answers call reply → ok s →
      Guarantees answers ok post (made ++ [call]) (k reply s)

@[simp] theorem resume_await (answer : ∀ q, R q) (s : σ) (call : Q)
    (k : R call → σ → Coroutine Q R σ α) :
    resume answer s (await call k) = k (answer call) s := rfl

@[simp] theorem eval_done (answer : ∀ q, R q) (s : σ) (value : α) :
    eval answer s (done value : Coroutine Q R σ α) = value := rfl

@[simp] theorem eval_await (answer : ∀ q, R q) (s : σ) (call : Q)
    (k : R call → σ → Coroutine Q R σ α) :
    eval answer s (await call k) = eval answer s (k (answer call) s) := rfl

@[simp] theorem atMost_done (n : ℕ) (value : α) : AtMost n (done value : Coroutine Q R σ α) := by
  cases n <;> trivial

@[simp] theorem run_await {W : Type} (handle : (q : Q) → W → (R q × σ) × W) (call : Q)
    (k : R call → σ → Coroutine Q R σ α) (w : W) :
    run handle (await call k) w =
      run handle (k (handle call w).1.1 (handle call w).1.2) (handle call w).2 := rfl

@[simp] theorem bind_done {β : Type} (value : α) (f : α → Coroutine Q R σ β) :
    bind (done value) f = f value := rfl

@[simp] theorem bind_await {β : Type} (call : Q) (k : R call → σ → Coroutine Q R σ α)
    (f : α → Coroutine Q R σ β) :
    bind (await call k) f = await call fun reply s => bind (k reply s) f := rfl

/-- **One after the other**: the second one runs in the world that the first one has left. -/
theorem run_bind {W β : Type} (handle : (q : Q) → W → (R q × σ) × W) (c : Coroutine Q R σ α)
    (f : α → Coroutine Q R σ β) (w : W) :
    run handle (c.bind f) w = run handle (f (run handle c w).1) (run handle c w).2 := by
  induction c generalizing w with
  | done value => rfl
  | await call k ih => exact ih _ _ _

variable {trace : List (Σ q, R q)}

/-- Where nothing more is called. -/
theorem yields_done {value value' : α} :
    Yields (done value : Coroutine Q R σ α) trace value' ↔ trace = [] ∧ value' = value := by
  constructor
  · intro h
    cases h
    exact ⟨rfl, rfl⟩
  · rintro ⟨rfl, rfl⟩
    exact .done _

variable {value : α}

/-- The first call, and what follows its reply. -/
theorem yields_await {call : Q} {k : R call → σ → Coroutine Q R σ α} : Yields (await call k) trace value ↔
      ∃ reply s rest, trace = ⟨call, reply⟩ :: rest ∧ Yields (k reply s) rest value := by
  constructor
  · intro h
    cases h with
    | await s rest => exact ⟨_, s, _, rfl, rest⟩
  · rintro ⟨reply, s, rest, rfl, h⟩
    exact .await s h

variable {c : Coroutine Q R σ α}

/-- **One after the other**: the traces are put together. -/
theorem yields_bind {β : Type} {f : α → Coroutine Q R σ β}
    {value : β} : Yields (c.bind f) trace value ↔
      ∃ first second middle, trace = first ++ second ∧ Yields c first middle ∧
        Yields (f middle) second value := by
  induction c generalizing trace with
  | done middle =>
    constructor
    · intro h
      exact ⟨[], trace, middle, rfl, .done _, h⟩
    · rintro ⟨first, second, middle, rfl, h, h'⟩
      obtain ⟨rfl, rfl⟩ := yields_done.mp h
      exact h'
  | await call k ih =>
    rw [bind_await, yields_await]
    constructor
    · rintro ⟨reply, s, rest, rfl, h⟩
      obtain ⟨first, second, middle, rfl, h, h'⟩ := (ih reply s).mp h
      exact ⟨_, second, middle, rfl, .await s h, h'⟩
    · rintro ⟨first, second, middle, rfl, h, h'⟩
      obtain ⟨reply, s, rest, rfl, hrest⟩ := yields_await.mp h
      refine ⟨reply, s, rest ++ second, rfl, ?_⟩
      exact (ih reply s).mpr ⟨rest, second, middle, rfl, hrest, h'⟩

/-- Where nothing more is called the world stays. -/
theorem runsIn_done {W : Type} {world : W → (q : Q) → R q → W → Prop} {value value' : α}
    {w w' : W} :
    RunsIn world (done value : Coroutine Q R σ α) w value' w' ↔ value' = value ∧ w' = w := by
  constructor
  · intro h
    cases h
    exact ⟨rfl, rfl⟩
  · rintro ⟨rfl, rfl⟩
    exact .done _ _

/-- The first call moves the world, and what follows its reply starts from there. -/
theorem runsIn_await {W : Type} {world : W → (q : Q) → R q → W → Prop} {call : Q}
    {k : R call → σ → Coroutine Q R σ α} {w w'' : W} :
    RunsIn world (await call k) w value w'' ↔
      ∃ reply s w', world w call reply w' ∧ RunsIn world (k reply s) w' value w'' := by
  constructor
  · intro h
    cases h with
    | await s step rest => exact ⟨_, s, _, step, rest⟩
  · rintro ⟨reply, s, w', step, h⟩
    exact .await s step h

/-- **One after the other**: the second one starts in the world that the first one has left. -/
theorem runsIn_bind {W β : Type} {world : W → (q : Q) → R q → W → Prop}
    {f : α → Coroutine Q R σ β} {value : β} {w w'' : W} : RunsIn world (c.bind f) w value w'' ↔
      ∃ middle w', RunsIn world c w middle w' ∧ RunsIn world (f middle) w' value w'' := by
  induction c generalizing w with
  | done middle =>
    rw [bind_done]
    constructor
    · intro h
      exact ⟨middle, w, .done _ _, h⟩
    · rintro ⟨middle', w', h, h'⟩
      obtain ⟨rfl, rfl⟩ := runsIn_done.mp h
      exact h'
  | await call k ih =>
    rw [bind_await, runsIn_await]
    constructor
    · rintro ⟨reply, s, w', step, h⟩
      obtain ⟨middle, w₁, hfirst, hsecond⟩ := (ih reply s).mp h
      exact ⟨middle, w₁, .await s step hfirst, hsecond⟩
    · rintro ⟨middle, w₁, h, h'⟩
      obtain ⟨reply, s, w', step, hfirst⟩ := runsIn_await.mp h
      exact ⟨reply, s, w', step, (ih reply s).mpr ⟨middle, w₁, hfirst, h'⟩⟩

/-- A coroutine can be run to its end, when every call can be answered. -/
theorem exists_yields [Nonempty σ] [∀ q, Nonempty (R q)] (c : Coroutine Q R σ α) :
    ∃ trace value, Yields c trace value := by
  induction c with
  | done value => exact ⟨[], value, .done value⟩
  | await call k ih =>
    obtain ⟨reply⟩ : Nonempty (R call) := inferInstance
    obtain ⟨s⟩ : Nonempty σ := inferInstance
    obtain ⟨trace, value, h⟩ := ih reply s
    exact ⟨_, value, .await s h⟩

/-- One after the other. -/
theorem OnlyCalls.bind {β : Type} {P : Q → Prop}
    {f : α → Coroutine Q R σ β} (h : OnlyCalls P c) (hf : ∀ value, OnlyCalls P (f value)) :
    OnlyCalls P (c.bind f) := by
  induction c with
  | done value => exact hf value
  | await call k ih => exact ⟨h.1, fun reply s => ih reply s (h.2 reply s)⟩

/-- The calls of a trace. -/
theorem OnlyCalls.of_yields {P : Q → Prop} (h : OnlyCalls P c) (hyields : Yields c trace value) :
    ∀ entry ∈ trace, P entry.1 := by
  induction hyields with
  | done value => exact fun entry hentry => absurd hentry not_mem_nil
  | await s rest ih =>
    intro entry hentry
    rcases mem_cons.mp hentry with rfl | hentry
    · exact h.1
    · exact ih (h.2 _ s) entry hentry

/-- The calls of an attempt. -/
theorem OnlyCalls.of_makes {P : Q → Prop} (h : OnlyCalls P c)
    {calls : List Q} {result : Option α} (hmakes : Makes c calls result) :
    ∀ call ∈ calls, P call := by
  induction hmakes with
  | done value | cut c => simp
  | lost call k => simpa using h.1
  | await reply s rest ih => simpa using ⟨h.1, ih (h.2 reply s)⟩

/-- **Worlds that answer alike**: related worlds give the same value and stay related. -/
theorem run_related {W W' : Type} {handle : (q : Q) → W → (R q × σ) × W}
    {handle' : (q : Q) → W' → (R q × σ) × W'} {r : W → W' → Prop}
    (h : ∀ q w w', r w w' → (handle q w).1 = (handle' q w').1 ∧ r (handle q w).2 (handle' q w').2)
    (c : Coroutine Q R σ α) {w : W} {w' : W'} (hr : r w w') :
    (run handle c w).1 = (run handle' c w').1 ∧ r (run handle c w).2 (run handle' c w').2 := by
  induction c generalizing w w' with
  | done value => exact ⟨rfl, hr⟩
  | await call k ih =>
    obtain ⟨hreply, hnext⟩ := h call w w' hr
    rw [run_await, run_await, hreply]
    exact ih _ _ hnext

/-- A step keeps stability. -/
theorem StableUnder.resume {r : σ → σ → Prop} (h : StableUnder r c)
    (answer : ∀ q, R q) (s : σ) : StableUnder r (c.resume answer s) := by
  cases c with
  | done value => trivial
  | await call k => exact (h (answer call)).2 s

/-- **A step in a related shared state keeps the predicted value.** -/
theorem eval_resume {r : σ → σ → Prop} (h : StableUnder r c)
    (answer : ∀ q, R q) {s s' : σ} (hr : r s s') :
    eval answer s (c.resume answer s') = eval answer s c := by
  cases c with
  | done value => rfl
  | await call k =>
    rw [resume_await, eval_await, (h (answer call)).1 s s' hr]

theorem AtMost.mono {m n : ℕ} (hmn : m ≤ n) (h : AtMost m c) : AtMost n c := by
  induction m generalizing n c with
  | zero =>
    cases c with
    | done value => exact atMost_done n value
    | await call k => exact absurd h id
  | succ m ih =>
    cases c with
    | done value => exact atMost_done n value
    | await call k =>
      obtain ⟨n, rfl⟩ : ∃ n', n = n' + 1 := ⟨n - 1, by omega⟩
      exact fun reply s => ih (by omega) (h reply s)

/-- A waiting coroutine has a call left. -/
theorem AtMost.pos {n : ℕ} {call : Q} {k : R call → σ → Coroutine Q R σ α}
    (h : AtMost n (await call k)) : ∃ m, n = m + 1 := by
  cases n with
  | zero => exact absurd h id
  | succ m => exact ⟨m, rfl⟩

section guarantees

variable {answers answers' : ∀ q, R q → Prop} {ok ok' : σ → Prop} {post post' : List Q → α → Prop}

/-- A postcondition that always holds is guaranteed. -/
theorem guarantees_of_forall (h : ∀ calls value, post calls value) (c : Coroutine Q R σ α)
    (made : List Q) : c.Guarantees answers ok post made := by
  induction c generalizing made with
  | done value => exact h made value
  | await call k ih =>
    intro reply s _ _
    exact ih reply s (made ++ [call])

/-- **The rule of consequence**: fewer replies, fewer shared states, a weaker postcondition. -/
theorem Guarantees.consequence (hanswers : ∀ q reply, answers' q reply → answers q reply)
    (hok : ∀ s, ok' s → ok s) (hpost : ∀ calls value, post calls value → post' calls value)
    {made : List Q} (h : c.Guarantees answers ok post made) :
    c.Guarantees answers' ok' post' made := by
  induction c generalizing made with
  | done value => exact hpost made value h
  | await call k ih =>
    intro reply s hreply hs
    exact ih reply s (h reply s (hanswers call reply hreply) (hok s hs))

/-- One after the other: the second one starts with the calls of the first one behind it. -/
theorem Guarantees.bind {β : Type} {post' : List Q → β → Prop}
    {f : α → Coroutine Q R σ β} {made : List Q} (h : c.Guarantees answers ok post made)
    (hf : ∀ made value, post made value → (f value).Guarantees answers ok post' made) :
    (c.bind f).Guarantees answers ok post' made := by
  induction c generalizing made with
  | done value => exact hf made value h
  | await call k ih =>
    intro reply s hreply hs
    exact ih reply s (h reply s hreply hs)

/-- The result of an attempt. -/
theorem Guarantees.of_makes {made : List Q}
    (h : c.Guarantees (fun _ _ => True) (fun _ => True) post made) {calls : List Q}
    (hmakes : Makes c calls (some value)) : post (made ++ calls) value := by
  obtain ⟨result, hresult⟩ : ∃ result, result = some value := ⟨_, rfl⟩
  rw [← hresult] at hmakes
  induction hmakes generalizing made with
  | done value' =>
    cases hresult
    rw [append_nil]
    exact h
  | cut c | lost call k => cases hresult
  | await reply s rest ih =>
    have hrest := ih (h reply s trivial trivial) hresult
    simpa using hrest

end guarantees

/-! ## Protocols -/

/-- A protocol: which calls are allowed in a phase, and the phase after a reply. The shared states
are those for which `sees` holds. -/
structure Protocol (Q : Type) (R : Q → Type) (σ P : Type) where
  allows : P → Q → Prop
  next : P → (q : Q) → R q → P
  sees : σ → Prop

namespace Protocol

variable {P β : Type} (protocol : Protocol Q R σ P)

/-- The coroutine keeps to the protocol from a phase on, and ends in a phase and with a value that
satisfy `post`. -/
def Follows (post : P → α → Prop) : P → Coroutine Q R σ α → Prop
  | phase, done value => post phase value
  | phase, await call k => protocol.allows phase call ∧
      ∀ reply s, protocol.sees s → Follows post (protocol.next phase call reply) (k reply s)

variable {protocol}

/-- **One after the other**: the second one goes on in the phase in which the first one has
ended. -/
theorem Follows.bind {post : P → α → Prop} {post' : P → β → Prop} {phase : P}
    {f : α → Coroutine Q R σ β} (h : protocol.Follows post phase c)
    (hf : ∀ phase' value, post phase' value → protocol.Follows post' phase' (f value)) :
    protocol.Follows post' phase (c.bind f) := by
  induction c generalizing phase with
  | done value => exact hf phase value h
  | await call k ih =>
    refine ⟨h.1, ?_⟩
    intro reply s hs
    exact ih reply s (h.2 reply s hs)

/-- A weaker end. -/
theorem Follows.mono {post post' : P → α → Prop} {phase : P} (h : protocol.Follows post phase c)
    (hpost : ∀ phase value, post phase value → post' phase value) :
    protocol.Follows post' phase c := by
  induction c generalizing phase with
  | done value => exact hpost phase value h
  | await call k ih =>
    refine ⟨h.1, ?_⟩
    intro reply s hs
    exact ih reply s (h.2 reply s hs)

/-- **A part of the protocol that keeps its phase**: all calls are of a kind that is allowed in the
phase and leads back to it. -/
theorem Follows.of_onlyCalls {calls : Q → Prop} {phase : P}
    (hallows : ∀ call, calls call → protocol.allows phase call)
    (hnext : ∀ call, calls call → ∀ reply, protocol.next phase call reply = phase)
    (h : OnlyCalls calls c) : protocol.Follows (fun phase' _ => phase' = phase) phase c := by
  induction c with
  | done value => rfl
  | await call k ih =>
    refine ⟨hallows call h.1, ?_⟩
    intro reply s _
    rw [hnext call h.1]
    exact ih reply s (h.2 reply s)

/-- **The same computation with other calls** keeps to a protocol that knows the phases of the
first. -/
theorem Follows.mapCalls {Q' P' : Type} {R' : Q' → Type} {protocol' : Protocol Q' R' σ P'}
    {f : Q → Q'} {g : ∀ q, R' (f q) → R q} {into : P → P'}
    (hallows : ∀ phase q, protocol.allows phase q → protocol'.allows (into phase) (f q))
    (hnext : ∀ phase q reply,
      protocol'.next (into phase) (f q) reply = into (protocol.next phase q (g q reply)))
    (hsees : ∀ s, protocol'.sees s → protocol.sees s) {post : P → α → Prop} {phase : P}
    (h : protocol.Follows post phase c) :
    protocol'.Follows (fun phase' value => ∃ phase, phase' = into phase ∧ post phase value)
      (into phase) (c.mapCalls f g) := by
  induction c generalizing phase with
  | done value => exact ⟨phase, rfl, h⟩
  | await call k ih =>
    refine ⟨hallows phase call h.1, ?_⟩
    intro reply s hs
    rw [hnext]
    exact ih _ _ (h.2 _ s (hsees s hs))

/-- The phase after a trace. -/
def phaseAfter (protocol : Protocol Q R σ P) (phase : P) (trace : List (Σ q, R q)) : P :=
  trace.foldl (fun phase entry => protocol.next phase entry.1 entry.2) phase

/-- **Every call of a trace is allowed** in the phase that the calls before it have led to. -/
theorem Follows.allows_of_yields {post : P → α → Prop} {phase : P}
    (h : protocol.Follows post phase c) (hsees : ∀ s, protocol.sees s)
    (hyields : Yields c trace value) {before after : List (Σ q, R q)} {entry : Σ q, R q}
    (htrace : trace = before ++ entry :: after) :
    protocol.allows (protocol.phaseAfter phase before) entry.1 := by
  induction hyields generalizing phase before with
  | done value =>
    rw [eq_comm, append_eq_nil_iff] at htrace
    cases htrace.2
  | await s rest ih =>
    cases before with
    | nil =>
      cases htrace
      exact h.1
    | cons first before =>
      rw [cons_append, cons.injEq] at htrace
      obtain ⟨rfl, htail⟩ := htrace
      exact ih (h.2 _ s (hsees s)) htail

end Protocol

end Coroutine

end Dataflow.Library
