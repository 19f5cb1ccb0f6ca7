import Mathlib.Data.Nat.Notation
import Mathlib.Data.List.Induction

/-!
# Runs of a partial step function

A system is a partial function `step : S → E → Option S`: an event is enabled in a state where
`step` gives a state. A run is a list of events, taken one after the other. What a run may do is
restricted by a condition on the events so far, the state and the next event.

* `Run step allowed s es s'`: the events `es` lead from `s` to `s'`, each of them allowed.
* `Run.invariant`: **the run rule**: what holds at the start and is kept by each allowed step holds
  in every state reached.
* `Run.allowed_or`: a run keeps to a condition, unless it has left for good.
* `Run.budget`: when each counted event uses up a budget that no other event raises, the number of
  counted events is at most the budget at the start.
* `exists_run_to_final`: with such a budget, a system that is never stuck before a final state has
  a run to one.
* `Run.of_foldlM`, `exists_run_of_check`, `exists_run_of_guarded`: concrete runs, by evaluation.
* `trace`, `forall_trace_of_repeats`: the states along infinitely many events, and what holds of
  them when they repeat themselves.
-/

namespace Dataflow.Library.Transition

open List

variable {S E : Type*}

/-- The events `es`, each allowed by the history and the state it meets, lead from `s₀` to a
state. -/
inductive Run (step : S → E → Option S) (allowed : List E → S → E → Prop) (s₀ : S) :
    List E → S → Prop
  | start : Run step allowed s₀ [] s₀
  | next {es : List E} {s s' : S} {e : E} (run : Run step allowed s₀ es s)
      (ok : allowed es s e) (h : step s e = some s') : Run step allowed s₀ (es ++ [e]) s'

/-- No restriction on the events. -/
def Any (_ : List E) (_ : S) (_ : E) : Prop := True

variable {step : S → E → Option S} {allowed : List E → S → E → Prop} {s₀ s : S} {es : List E}

/-- **The run rule.** -/
theorem Run.invariant {I : List E → S → Prop} (init : I [] s₀)
    (keep : ∀ es s e s', I es s → allowed es s e → step s e = some s' → I (es ++ [e]) s')
    (h : Run step allowed s₀ es s) : I es s := by
  induction h with
  | start => exact init
  | next _ ok hstep ih => exact keep _ _ _ _ ih ok hstep

/-- A run under a condition is a run under a weaker one. -/
theorem Run.mono {allowed' : List E → S → E → Prop}
    (himp : ∀ es s e, allowed es s e → allowed' es s e) (h : Run step allowed s₀ es s) :
    Run step allowed' s₀ es s := by
  induction h with
  | start => exact .start
  | next _ ok hstep ih => exact .next ih (himp _ _ _ ok) hstep

/-- **A run keeps to a condition, unless it has left for good**: what breaks the condition leads to
states that no step leads out of. -/
theorem Run.allowed_or {Out : S → Prop} (h : Run step Any s₀ es s)
    (leave : ∀ es s e s', Run step Any s₀ es s → step s e = some s' → ¬ allowed es s e → Out s')
    (stay : ∀ es s e s', Run step Any s₀ es s → step s e = some s' → Out s → Out s') :
    Run step allowed s₀ es s ∨ Out s := by
  induction h with
  | start => exact .inl .start
  | @next es s s' e run _ hstep ih =>
    rcases ih with hrun | hout
    · by_cases hallowed : allowed es s e
      · exact .inl (.next hrun hallowed hstep)
      · exact .inr (leave _ _ _ _ run hstep hallowed)
    · exact .inr (stay _ _ _ _ run hstep hout)

/-- A concrete run, by evaluation; its events are allowed wherever they occur. -/
theorem Run.of_foldlM (ok : ∀ e ∈ es, ∀ es' s', allowed es' s' e) (h : es.foldlM step s₀ = some s) :
    Run step allowed s₀ es s := by
  induction es using reverseRecOn generalizing s with
  | nil =>
    cases h
    exact .start
  | append_singleton es e ih =>
    rw [foldlM_append] at h
    cases hs : es.foldlM step s₀ with
    | none => simp [hs] at h
    | some s' =>
      exact .next (ih (fun e' he => ok e' (mem_append_left _ he)) hs)
        (ok e (by simp) es s') (by simpa [hs] using h)

/-- A concrete run to a state that passes a check, by evaluation. -/
theorem exists_run_of_check {check : S → Prop} [DecidablePred check]
    (ok : ∀ e ∈ es, ∀ es' s', allowed es' s' e)
    (h : (es.foldlM step s₀).any (fun s => decide (check s)) = true) :
    ∃ s, Run step allowed s₀ es s ∧ check s := by
  cases hs : es.foldlM step s₀ with
  | none =>
    simp [hs] at h
  | some s =>
    rw [hs] at h
    exact ⟨s, .of_foldlM ok hs, of_decide_eq_true h⟩

/-- The step function with a condition on the state as a guard. -/
def guarded (ok : S → E → Prop) [∀ s e, Decidable (ok s e)] (step : S → E → Option S) (s : S)
    (e : E) : Option S :=
  if ok s e then step s e else none

/-- A concrete run under a condition on the states, to a state that passes a check. -/
theorem exists_run_of_guarded {ok : S → E → Prop} [∀ s e, Decidable (ok s e)] {check : S → Prop}
    [DecidablePred check]
    (h : (es.foldlM (guarded ok step) s₀).any (fun s => decide (check s)) = true) :
    ∃ s, Run step (fun _ => ok) s₀ es s ∧ check s := by
  obtain ⟨s, hrun, hcheck⟩ : ∃ s, Run (guarded ok step) (fun _ _ _ => True) s₀ es s ∧ check s :=
    exists_run_of_check (fun _ _ _ _ => trivial) h
  refine ⟨s, ?_, hcheck⟩
  clear h hcheck
  induction hrun with
  | start => exact .start
  | next _ _ hstep ih =>
    unfold guarded at hstep
    split at hstep
    · exact .next ih ‹_› hstep
    · cases hstep

section trace

/-- The states along a sequence of events; one that is not enabled changes nothing. -/
def trace (step : S → E → Option S) (s₀ : S) (event : ℕ → E) : ℕ → S
  | 0 => s₀
  | n + 1 => (step (trace step s₀ event n) (event n)).getD (trace step s₀ event n)

variable {event : ℕ → E} {i k : ℕ}

/-- States repeat themselves when the events do and a state comes again. -/
theorem trace_add (hevent : ∀ n ≥ i, event (n + k) = event n)
    (hstate : trace step s₀ event (i + k) = trace step s₀ event i) {n : ℕ} (hn : i ≤ n) :
    trace step s₀ event (n + k) = trace step s₀ event n := by
  induction hn with
  | refl => exact hstate
  | @step n hn ih => rw [Nat.succ_add, trace, trace, ih, hevent n hn]

/-- **What holds of a state and its event up to the second time** holds forever. -/
theorem forall_trace_of_repeats {P : S → E → Prop} (hk : 0 < k)
    (hevent : ∀ n ≥ i, event (n + k) = event n)
    (hstate : trace step s₀ event (i + k) = trace step s₀ event i)
    (h : ∀ n < i + k, P (trace step s₀ event n) (event n)) (n : ℕ) :
    P (trace step s₀ event n) (event n) := by
  induction n using Nat.strongRecOn with
  | ind n ih =>
    rcases Nat.lt_or_ge n (i + k) with hlt | hge
    · exact h n hlt
    · obtain ⟨m, rfl⟩ := Nat.exists_eq_add_of_le' (Nat.le_of_add_left_le hge)
      have hm : i ≤ m := Nat.le_of_add_le_add_right hge
      rw [trace_add hevent hstate hm, hevent m hm]
      exact ih m (Nat.lt_add_of_pos_right hk)

end trace

section budget

/-- **The budget rule.** -/
theorem Run.budget (counted : E → Bool) (left : S → ℕ → Prop) {n : ℕ} (init : left s₀ n)
    (use : ∀ es s e s' n, left s n → allowed es s e → step s e = some s' →
      counted e → ∃ m < n, left s' m)
    (keep : ∀ es s e s' n, left s n → allowed es s e → step s e = some s' → ¬ counted e → left s' n)
    (h : Run step allowed s₀ es s) : ∃ m, left s m ∧ es.countP counted + m ≤ n := by
  refine h.invariant (I := fun es s => ∃ m, left s m ∧ es.countP counted + m ≤ n)
    ⟨n, init, by simp⟩ ?_
  rintro es s e s' ⟨m, hleft, hm⟩ ok hstep
  by_cases he : counted e
  · obtain ⟨m', hlt, hleft'⟩ := use es s e s' m hleft ok hstep he
    exact ⟨m', hleft', by simp [countP_append, he]; omega⟩
  · exact ⟨m, keep es s e s' m hleft ok hstep he, by simpa [countP_append, he] using hm⟩

/-- **A system that is never stuck before a final state has a run to one.** The condition may not
look at the history here, so that runs can be put together. -/
theorem exists_run_to_final {left : S → ℕ → Prop} {ok : S → E → Prop} {final : S → Prop} {n : ℕ}
    (progress : ∀ s n, left s n → final s ∨ ∃ e s' m, ok s e ∧ step s e = some s' ∧ m < n ∧
      left s' m)
    (run : Run step (fun _ => ok) s₀ es s) (init : left s n) :
    ∃ es' s', Run step (fun _ => ok) s₀ (es ++ es') s' ∧ final s' := by
  induction n using Nat.strongRecOn generalizing es s with
  | ind n ih =>
    rcases progress s n init with hfinal | ⟨e, s', m, hok, hstep, hlt, hleft⟩
    · exact ⟨[], s, by simpa using run, hfinal⟩
    · obtain ⟨es', s'', hrun, hfinal⟩ := ih m hlt (run.next hok hstep) hleft
      exact ⟨e :: es', s'', by simpa using hrun, hfinal⟩

end budget

end Dataflow.Library.Transition
