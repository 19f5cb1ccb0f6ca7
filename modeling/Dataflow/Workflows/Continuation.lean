import Dataflow.Workflows.FlinkJob
import Dataflow.Workflows.StreamDirect

/-!
# Signals and continue-as-new

`StreamDirectWorkflow` and `FlinkJobWorkflow` continue as new with an input that has no signals in
it, so a signal that waits in its channel at that moment is lost. A stream reads its channels at the
head of an iteration and while it is paused, each of them in whole, so the order of a pause and a
resume is lost; a Flink job takes one signal after each poll.

* `StreamFits`, `FlinkFits`: all signals that wait will be read before the run continues.
* `StreamInOrder`: with the signal, the reads that come next leave the run as the signal says.
* `StreamInTime`, `FlinkInTime`: the condition on the delivery of a signal.
* `StreamObeys`, `StreamSurvives`: a run that has read its signals is as the last of them says; at a
  continuation every signal is acted on or carried over.
* **`signals_survive_of_run`**: in every run of either workflow in which the signals come in time.
* `not_streamSurvives_lateCancel`: a cancel in the last iteration.
-/

namespace Dataflow.Workflows

open Model Library List Function

/-! ## Streams -/

/-- The signals of a kind that wait. -/
def Inbox.count (inbox : Inbox) : Signal → ℕ
  | .pause => inbox.pause
  | .resume => inbox.resume
  | .cancel => inbox.cancel

/-- The inbox without a signal of this kind. -/
def Inbox.without (inbox : Inbox) : Signal → Inbox
  | .pause => { inbox with pause := inbox.pause - 1 }
  | .resume => { inbox with resume := inbox.resume - 1 }
  | .cancel => { inbox with cancel := inbox.cancel - 1 }

/-- All signals that wait. -/
def Inbox.total (inbox : Inbox) : ℕ := inbox.pause + inbox.resume + inbox.cancel

/-- What the last pause or resume says. -/
def pausedBy (es : List StreamEvent) : Bool :=
  es.foldl (fun paused event => match event with
    | .signal .pause => true
    | .signal .resume => false
    | _ => paused) false

/-- The signals of a kind have been acted on: a run does not continue with a cancel, and it is paused
iff the last pause or resume says so. -/
def StreamActed (es : List StreamEvent) (s : StreamState) : Signal → Prop
  | .cancel => .signal .cancel ∉ es
  | signal => s.inbox.count signal = 0 ∧ s.paused = pausedBy es

/-- Every signal has been acted on, or the input of the next run would be another one without it. -/
def StreamSurvives (stream : StreamDirect) (es : List StreamEvent) (s : StreamState) : Prop :=
  ∀ signal, StreamActed es s signal ∨
    stream.continued { s with inbox := s.inbox.without signal } ≠ stream.continued s

/-- The signals that wait will all be read before the run continues as new. The last iteration reads
its channels at its head, and once more if it waits on a pause. -/
def StreamFits (s : StreamState) : Prop :=
  match s.point with
  | .waiting 0 => s.inbox.pause = 0 ∧ s.inbox.resume + s.inbox.cancel ≤ 1
  | .batch 0 _ | .committing 0 _ _ | .sleeping 0 | .continuedAsNew => s.inbox.total = 0
  | _ => True

/-- The run has been cancelled, and does not continue as new. -/
def StreamGone (s : StreamState) : Prop :=
  match s.point with
  | .marking | .returned _ => True
  | _ => False

/-- The run waits on a pause. -/
def StreamWaits (s : StreamState) : Prop :=
  match s.point with
  | .waiting _ => True
  | _ => False

/-- **A run that has read all its signals** is gone, or is paused iff the last of them says so. -/
def StreamObeys (es : List StreamEvent) (s : StreamState) : Prop :=
  s.inbox.total = 0 → StreamGone s ∨ s.paused = pausedBy es

/-- A pause is read after the resumes before it: none waits, or it is the one that a paused run takes
by itself. And a resume is read after the pauses before it, in a paused run as one of several. -/
def StreamInOrder (s : StreamState) : Signal → Prop
  | .pause => s.inbox.resume = 0 ∨ s.inbox.resume = 1 ∧ StreamWaits s
  | .resume => StreamWaits s → s.inbox.pause = 0 ∨ 0 < s.inbox.resume
  | .cancel => True

/-- A signal is delivered while it will still be read, and in order. -/
def StreamInTime (s : StreamState) : StreamEvent → Prop
  | .signal signal =>
    StreamFits { s with inbox := s.inbox.deliver signal } ∧ StreamInOrder s signal
  | _ => True

namespace StreamDirect

variable {stream : StreamDirect} {s s' : StreamState} {event : StreamEvent} {es : List StreamEvent}

/-- What becomes of the signals that wait when this number of iterations is left. -/
def FitsFrom (left : ℕ) (s : StreamState) : Prop := left = 0 → s.inbox.total = 0

theorem streamFits_batch (left : ℕ) (program : StreamProgram StreamBatch) :
    StreamFits { s with point := .batch left program } ↔ FitsFrom left s := by
  cases left <;> simp [StreamFits, FitsFrom]

theorem streamFits_committing (left : ℕ) (cursor : SourceCursor) (count : ℤ) :
    StreamFits { s with point := .committing left cursor count } ↔ FitsFrom left s := by
  cases left <;> simp [StreamFits, FitsFrom]

theorem streamFits_sleeping (left : ℕ) :
    StreamFits { s with point := .sleeping left } ↔ FitsFrom left s := by
  cases left <;> simp [StreamFits, FitsFrom]

/-- Whether the run is paused when all its channels have been read in whole. -/
def Reads (s : StreamState) : Bool :=
  if 0 < s.inbox.resume then false else if 0 < s.inbox.pause then true else s.paused

/-- Whether the run is paused after the reads that come next; while it waits on a pause it takes one
resume by itself. -/
def WillPause (s : StreamState) : Bool :=
  match s.point with
  | .waiting _ => decide (s.inbox.resume = 0 ∨ s.inbox.resume = 1 ∧ 0 < s.inbox.pause)
  | _ => Reads s

/-- **Where the code leads**, with this number of iterations left: the run is gone, or the signals fit
and will have their effect, no cancel is lost, and it waits only if it is paused. -/
def Leads (left : ℕ) (s s' : StreamState) : Prop :=
  StreamGone s' ∨ (FitsFrom left s → StreamFits s') ∧ WillPause s' = Reads s ∧
    (0 < s.inbox.cancel → 0 < s'.inbox.cancel) ∧ (StreamWaits s' → s'.paused = true)

/-- A run that does not wait on a pause reads its channels in whole. -/
theorem willPause_of_not_waits (h : ¬ StreamWaits s) : WillPause s = Reads s := by
  unfold WillPause
  split
  · rename_i left hp
    simp [StreamWaits, hp] at h
  · rfl

theorem willPause_of_waits (h : StreamWaits s) : WillPause s =
    decide (s.inbox.resume = 0 ∨ s.inbox.resume = 1 ∧ 0 < s.inbox.pause) := by
  unfold StreamWaits at h
  unfold WillPause
  split at h
  · rfl
  · exact h.elim

section parts

variable {next : StreamState → StreamState} {left : ℕ}

variable (hnext : ∀ s, Leads left s (next s))

include hnext

theorem leads_countBatch (count : ℤ) : Leads left s (countBatch next left count s) := by
  unfold countBatch
  split_ifs
  · exact .inr ⟨(streamFits_sleeping left).mpr, rfl, id, False.elim⟩
  · exact hnext _

theorem leads_afterBatch (batch : StreamBatch) : Leads left s (afterBatch next left batch s) := by
  unfold afterBatch
  split
  · exact .inr ⟨(streamFits_sleeping left).mpr, rfl, id, False.elim⟩
  · split
    · exact .inr ⟨(streamFits_committing left _ _).mpr, rfl, id, False.elim⟩
    · exact leads_countBatch (s := { s with results := batch.results, metrics := _ }) hnext _

theorem leads_advance (program : StreamProgram StreamBatch) :
    Leads left s (advance next left program s) := by
  unfold advance
  split
  · exact leads_afterBatch hnext _
  · exact .inr ⟨(streamFits_batch left _).mpr, rfl, id, False.elim⟩

/-- An iteration that is not paused. -/
theorem leads_enter (h : s.paused = false ∨ s.cancelled = true) :
    Leads left s (stream.enter next left s) := by
  unfold enter
  split_ifs with hpaused hcancelled
  · simp_all
  · exact .inl trivial
  · exact leads_advance hnext _

/-- An iteration whose head has read the channels. -/
theorem leads_enter_drain : Leads (left + 1) s (stream.enter next left s.drain) := by
  have hpaused : s.drain.paused = Reads s := rfl
  have hcancelled : 0 < s.inbox.cancel → s.drain.cancelled = true := by
    intro h
    simp [StreamState.drain, drainSignals, h]
  have hempty : s.drain.inbox.total = 0 := rfl
  unfold enter
  split_ifs with hpause hcancel
  · refine .inr ⟨fun _ => ?_, hpause.1.symm.trans hpaused, fun h => absurd (hcancelled h) hpause.2,
      fun _ => hpause.1⟩
    cases left with
    | zero => exact ⟨rfl, Nat.zero_le 1⟩
    | succ left => trivial
  · exact .inl trivial
  · rcases leads_advance hnext (s := s.drain) (streamBatch stream.input stream.plan) with
      hgone | ⟨hfits, hwill, -, hwaits⟩
    · exact .inl hgone
    · exact .inr ⟨fun _ => hfits fun _ => hempty, hwill.trans hpaused,
        fun h => absurd (hcancelled h) hcancel, hwaits⟩

end parts

/-- **The head of the loop.** -/
theorem leads_iterate (left : ℕ) (s : StreamState) : Leads left s (stream.iterate left s) := by
  induction left generalizing s with
  | zero => exact .inr ⟨fun h => h rfl, rfl, id, False.elim⟩
  | succ left ih => exact leads_enter_drain ih

/-- What holds all along a run in time: it is gone, or its signals fit, the reads that come next leave
it as the last signal says, no cancel is lost, and it waits only if it is paused. -/
def Heeds (es : List StreamEvent) (s : StreamState) : Prop :=
  StreamGone s ∨ StreamFits s ∧ WillPause s = pausedBy es ∧
    (.signal .cancel ∈ es → 0 < s.inbox.cancel) ∧ (StreamWaits s → s.paused = true)

/-- Where the run has been led, what holds of it still holds. -/
theorem Leads.heeds {left : ℕ} (h : Leads left s s') (hfits : FitsFrom left s)
    (hpaused : Reads s = pausedBy es) (hcancel : .signal .cancel ∈ es → 0 < s.inbox.cancel) :
    Heeds es s' := by
  rcases h with hgone | ⟨hfits', hwill, hkept, hwaits⟩
  · exact .inl hgone
  · exact .inr ⟨hfits' hfits, hwill.trans hpaused, fun hmem => hkept (hcancel hmem), hwaits⟩

theorem pausedBy_snoc (es : List StreamEvent) (event : StreamEvent) :
    pausedBy (es ++ [event]) = match event with
      | .signal .pause => true
      | .signal .resume => false
      | _ => pausedBy es := by
  rw [pausedBy, foldl_append]
  rfl

/-- A signal in time. -/
theorem Heeds.signal (h : Heeds es s) (signal : Signal)
    (ok : StreamInTime s (.signal signal)) :
    Heeds (es ++ [.signal signal]) { s with inbox := s.inbox.deliver signal } := by
  rcases h with hgone | ⟨-, hwill, hcancel, hpaused⟩
  · exact .inl hgone
  obtain ⟨hfits, horder⟩ := ok
  refine .inr ⟨hfits, ?_, ?_, hpaused⟩
  · rw [pausedBy_snoc]
    set delivered : StreamState := { s with inbox := s.inbox.deliver signal }
    by_cases hwaits : StreamWaits s
    · have hwaits' : StreamWaits delivered := hwaits
      rw [willPause_of_waits hwaits] at hwill
      rw [willPause_of_waits hwaits']
      cases signal with
      | pause =>
        rw [decide_eq_true_eq]
        exact horder.imp_right fun h => ⟨h.1, Nat.succ_pos _⟩
      | resume =>
        have hread := horder hwaits
        show decide (s.inbox.resume + 1 = 0 ∨ s.inbox.resume + 1 = 1 ∧ 0 < s.inbox.pause) = false
        rw [decide_eq_false_iff_not]
        omega
      | cancel => exact hwill
    · have hwaits' : ¬ StreamWaits delivered := hwaits
      rw [willPause_of_not_waits hwaits] at hwill
      rw [willPause_of_not_waits hwaits']
      cases signal with
      | pause =>
        have hnone : s.inbox.resume = 0 := horder.resolve_right fun h => hwaits h.2
        simp [delivered, Reads, Inbox.deliver, hnone]
      | resume => simp [delivered, Reads, Inbox.deliver]
      | cancel => exact hwill
  · intro hmem
    cases signal with
    | cancel => simp [Inbox.deliver]
    | pause | resume =>
      have hbefore : .signal .cancel ∈ es := by simpa using hmem
      exact hcancel hbefore

/-- **The step lemma**: a step other than a signal. -/
theorem Heeds.stepped (h : Heeds es s) (hstep : stream.Stepped s event s')
    (hevent : ∀ signal, event ≠ .signal signal) : Heeds (es ++ [event]) s' := by
  have hes : pausedBy (es ++ [event]) = pausedBy es := by
    rw [pausedBy_snoc]
    split
    · exact absurd rfl (hevent _)
    · exact absurd rfl (hevent _)
    · rfl
  have hmem : .signal .cancel ∈ es ++ [event] → .signal .cancel ∈ es := fun h =>
    (mem_append.mp h).resolve_right fun h => hevent _ (mem_singleton.mp h).symm
  rcases h with hgone | ⟨hfits, hwill, hcancel, -⟩
  · left
    unfold StreamGone at hgone
    cases hstep with
    | signal signal hreturned => exact absurd rfl (hevent signal)
    | marked hp reply => trivial
    | _ => simp_all
  have hleft := fun h => hcancel (hmem h)
  rw [← hes] at hwill
  cases hstep with
  | signal signal hreturned => exact absurd rfl (hevent signal)
  | @selectResume left hp hr =>
    rw [WillPause, hp] at hwill
    rw [StreamFits, hp] at hfits
    refine (leads_enter (leads_iterate left) (.inl rfl)).heeds ?_ ?_ hleft
    · rintro rfl
      obtain ⟨hpause, hle⟩ : s.inbox.pause = 0 ∧ s.inbox.resume + s.inbox.cancel ≤ 1 := hfits
      simp only [Inbox.total]
      omega
    · rw [← hwill]
      simp only [Reads]
      split_ifs
      · symm
        simp only [decide_eq_false_iff_not]
        omega
      · symm
        simp only [decide_eq_true_eq]
        omega
      · symm
        simp only [decide_eq_false_iff_not]
        omega
  | selectCancel hp hr hc =>
    left
    simp [enter, StreamGone]
  | @reply left call k hp answer =>
    rw [WillPause, hp] at hwill
    rw [StreamFits, hp] at hfits
    refine (leads_advance (leads_iterate left) _).heeds ?_ hwill hleft
    rintro rfl
    exact hfits
  | @committed left cursor count hp reply =>
    rw [WillPause, hp] at hwill
    have hfrom : FitsFrom left s := by
      rintro rfl
      rw [StreamFits, hp] at hfits
      exact hfits
    cases reply with
    | error err => exact (leads_iterate left _).heeds hfrom hwill hleft
    | ok value => exact (leads_countBatch (leads_iterate left) count).heeds hfrom hwill hleft
  | @timer left hp =>
    rw [WillPause, hp] at hwill
    rw [StreamFits, hp] at hfits
    refine (leads_iterate left s).heeds ?_ hwill hleft
    rintro rfl
    exact hfits
  | marked hp reply => exact .inl trivial

/-- **The run lemma.** -/
theorem heeds_of_run (h : stream.Run (fun _ => StreamInTime) es s) : Heeds es s := by
  apply h.invariant (I := Heeds)
  · exact (leads_iterate streamContinueAfter _).heeds nofun rfl nofun
  · intro es s event s' hs ok hstep
    have hstepped := stepped_of_step hstep
    by_cases hsignal : ∃ signal, event = .signal signal
    · obtain ⟨signal, rfl⟩ := hsignal
      cases hstepped with
      | signal _ hreturned => exact hs.signal signal ok
    · rw [not_exists] at hsignal
      exact hs.stepped hstepped hsignal

/-- **A run that has read its signals is as the last of them says.** -/
theorem streamObeys_of_run (h : stream.Run (fun _ => StreamInTime) es s) : StreamObeys es s := by
  intro hempty
  refine (heeds_of_run h).imp_right ?_
  rintro ⟨-, hwill, -, hpaused⟩
  rw [← hwill]
  unfold Inbox.total at hempty
  by_cases hwaits : StreamWaits s
  · rw [hpaused hwaits, willPause_of_waits hwaits]
    symm
    rw [decide_eq_true_eq]
    left
    omega
  · rw [willPause_of_not_waits hwaits, Reads, if_neg (by omega), if_neg (by omega)]

/-- **In a run that continues as new, every signal is acted on.** -/
theorem streamSurvives_of_run (h : stream.Run (fun _ => StreamInTime) es s) (hp : s.point = .continuedAsNew) :
    StreamSurvives stream es s := by
  rcases heeds_of_run h with hgone | ⟨hfits, hwill, hcancel, -⟩
  · simp [StreamGone, hp] at hgone
  rw [StreamFits, hp] at hfits
  simp only [Inbox.total] at hfits
  have hpaused : s.paused = pausedBy es := by
    rw [← hwill, WillPause, hp]
    simp only [Reads]
    rw [if_neg (by omega), if_neg (by omega)]
  intro signal
  left
  cases signal with
  | cancel =>
    intro hmem
    have := hcancel hmem
    omega
  | pause | resume =>
    refine ⟨?_, hpaused⟩
    simp only [Inbox.count]
    omega

end StreamDirect

/-! ## Flink jobs -/

/-- All signals that wait. -/
def FlinkState.total (s : FlinkState) : ℕ :=
  s.waiting .pause + s.waiting .resume + s.waiting .rollback + s.waiting .cancel

/-- The signals of a kind that have been delivered. -/
def flinkDelivered (action : FlinkAction) (es : List FlinkEvent) : ℕ :=
  es.countP fun event => match event with
    | .signal action' => action' = action
    | _ => false

/-- The signals of a kind that have been acted on. -/
def flinkActed (action : FlinkAction) (s : FlinkState) : ℕ :=
  s.calls.countP fun call => match call with
    | .flinkJobAction _ action' _ => action' = action
    | _ => false

/-- Every signal has been acted on, or the input of the next run would be another one without it. -/
def FlinkSurvives (input : WorkflowInput) (es : List FlinkEvent) (s : FlinkState) : Prop :=
  ∀ action, flinkDelivered action es = flinkActed action s ∨ flinkContinued input
      { s with waiting := update s.waiting action (s.waiting action - 1) } ≠ flinkContinued input s

/-- The signals that wait will all be taken before the run continues as new, one after each poll. -/
def FlinkFits (s : FlinkState) : Prop :=
  match s.point with
  | .deploying | .polling | .selecting => s.total + s.polls ≤ flinkContinueAfter
  | .acting .cancel => True
  | .blocked | .acting _ => s.total + s.polls + 1 ≤ flinkContinueAfter
  | .continuedAsNew => s.total = 0
  | _ => True

/-- The run has failed or is being cancelled, and does not continue as new. -/
def FlinkGone (s : FlinkState) : Prop :=
  match s.point with
  | .recordingError _ | .recordingFailure _ | .acting .cancel | .marking _ | .returned _ => True
  | _ => False

/-- How far the polling loop is. -/
def FlinkPolls (s : FlinkState) : Prop :=
  match s.point with
  | .deploying => s.polls ≤ flinkContinueAfter
  | .polling | .selecting | .blocked | .acting _ => s.polls < flinkContinueAfter
  | .continuedAsNew => flinkContinueAfter ≤ s.polls
  | _ => True

/-- A signal is delivered while it will still be taken: a blocked selector takes it at once. -/
def FlinkInTime (s : FlinkState) : FlinkEvent → Prop
  | .signal action =>
    match s.point with
    | .blocked => True
    | _ => FlinkFits { s with waiting := update s.waiting action (s.waiting action + 1) }
  | _ => True

section flink

variable {input : WorkflowInput} {s s' : FlinkState} {event : FlinkEvent} {es : List FlinkEvent}

theorem flinkPolls_poll : FlinkPolls s.poll := by
  unfold FlinkState.poll
  split_ifs with h
  · exact h
  · exact Nat.le_of_not_lt h

theorem flinkFits_poll (h : s.polls ≤ flinkContinueAfter) :
    FlinkFits s.poll ↔ s.total + s.polls ≤ flinkContinueAfter := by
  unfold FlinkState.poll
  split_ifs with hpolls
  · rfl
  · simp only [FlinkFits]
    change s.total = 0 ↔ _
    omega

/-- A signal that is taken is one less. -/
theorem total_take {action : FlinkAction} (h : 0 < s.waiting action) : FlinkState.total
      { s with waiting := update s.waiting action (s.waiting action - 1) } + 1 = s.total := by
  cases action <;> simp [FlinkState.total, update] <;> omega

/-- When no channel has a signal, none waits. -/
theorem total_eq_zero (h : (flinkActions.find? fun action => 0 < s.waiting action) = none) :
    s.total = 0 := by
  simp only [flinkActions, find?_eq_none, decide_eq_true_eq, not_lt, Nat.le_zero] at h
  simp [FlinkState.total, h]

theorem flinkPolls_step (hs : FlinkPolls s) (h : FlinkStepped input s event s') :
    FlinkPolls s' := by
  unfold FlinkPolls at hs
  cases h with
  | signal action hopen => exact hs
  | deployed id hp => exact flinkPolls_poll
  | status status hp =>
    rw [hp] at hs
    unfold FlinkState.afterStatus
    split_ifs
    · trivial
    · exact hs
  | select hp =>
    rw [hp] at hs
    unfold FlinkState.select
    split
    · exact hs
    · exact hs
  | taken action hp =>
    rw [hp] at hs
    exact hs
  | timer hp => exact flinkPolls_poll
  | acted action hp =>
    cases action with
    | cancel => trivial
    | pause | resume | rollback => exact flinkPolls_poll
  | _ => trivial

/-- **The step lemma**: the signals still fit, unless the run is gone. -/
theorem flinkFits_step (hs : FlinkPolls s) (hfits : FlinkFits s) (ok : FlinkInTime s event)
    (h : FlinkStepped input s event s') : FlinkGone s' ∨ FlinkFits s' := by
  unfold FlinkPolls at hs
  cases h with
  | signal action hopen =>
    right
    unfold FlinkInTime at ok
    dsimp only at ok
    split at ok
    · rename_i hp
      rw [hp] at hopen
      exact hopen.elim
    · exact ok
  | deployed id hp =>
    right
    rw [hp] at hs
    rw [FlinkFits, hp] at hfits
    refine (flinkFits_poll ?_).mpr ?_
    · exact hs
    · exact hfits
  | status status hp =>
    unfold FlinkState.afterStatus
    split_ifs
    · exact .inl trivial
    · right
      rw [FlinkFits, hp] at hfits
      exact hfits
  | select hp =>
    rw [hp] at hs
    rw [FlinkFits, hp] at hfits
    unfold FlinkState.select
    split
    · rename_i action hfind
      have hpos : 0 < s.waiting action := by simpa using find?_some hfind
      have htake := total_take hpos
      by_cases hcancel : action = .cancel
      · subst hcancel
        exact .inl trivial
      · right
        have hacting : FlinkState.total { s with
            waiting := update s.waiting action (s.waiting action - 1) } + s.polls + 1 ≤
              flinkContinueAfter := by
          dsimp only at hfits
          omega
        cases action with
        | cancel => exact absurd rfl hcancel
        | _ => exact hacting
    · rename_i hnone
      right
      have htotal := total_eq_zero hnone
      show s.total + s.polls + 1 ≤ flinkContinueAfter
      dsimp only at hs
      omega
  | taken action hp =>
    rw [FlinkFits, hp] at hfits
    cases action with
    | cancel => exact .inl trivial
    | _ => exact .inr hfits
  | timer hp =>
    right
    rw [hp] at hs
    rw [FlinkFits, hp] at hfits
    refine (flinkFits_poll (s := { s with polls := s.polls + 1 }) hs).mpr ?_
    show s.total + (s.polls + 1) ≤ _
    dsimp only at hfits
    omega
  | acted action hp =>
    rw [hp] at hs
    rw [FlinkFits, hp] at hfits
    cases action with
    | cancel => exact .inl trivial
    | _ =>
      right
      refine (flinkFits_poll (s := { s with flink := _, polls := s.polls + 1 }) hs).mpr ?_
      show s.total + (s.polls + 1) ≤ _
      dsimp only at hfits
      omega
  | _ => exact .inl trivial

/-- A run that is gone stays gone. -/
theorem flinkGone_step (h : FlinkStepped input s event s') (hgone : FlinkGone s) :
    FlinkGone s' := by
  unfold FlinkGone at hgone
  cases h with
  | signal action hopen => exact hgone
  | acted action hp =>
    rw [hp] at hgone
    cases action with
    | cancel => trivial
    | _ => exact hgone.elim
  | _ => simp_all [FlinkGone, FlinkState.finish, FlinkState.mark, FlinkState.call]

/-! ### Signals are neither lost nor made up in a run -/

/-- The signals of a kind that the run has acted on or that wait. -/
def flinkKnown (action : FlinkAction) (s : FlinkState) : ℕ := flinkActed action s + s.waiting action

theorem flinkKnown_poll (action : FlinkAction) (s : FlinkState) :
    flinkKnown action s.poll = flinkKnown action s := by
  unfold FlinkState.poll
  split_ifs
  · simp [flinkKnown, flinkActed, FlinkState.call]
  · rfl

/-- A step takes a signal off its channel only to act on it. -/
theorem flinkKnown_step (h : FlinkStepped input s event s') (action : FlinkAction) :
    flinkKnown action s' = flinkKnown action s + flinkDelivered action [event] := by
  cases h with
  | signal action' hopen =>
    by_cases heq : action' = action
    · subst heq
      simp [flinkKnown, flinkActed, flinkDelivered, add_assoc]
    · simp [flinkKnown, flinkActed, flinkDelivered, heq, update_of_ne (Ne.symm heq)]
  | deployed id hp => exact flinkKnown_poll action _
  | status status hp =>
    unfold FlinkState.afterStatus
    split_ifs
    · simp [flinkKnown, flinkActed, flinkDelivered, FlinkState.call]
    · rfl
  | select hp =>
    unfold FlinkState.select
    split
    · rename_i action' hfind
      have hpos : 0 < s.waiting action' := by simpa using find?_some hfind
      by_cases heq : action' = action
      · subst heq
        simp [flinkKnown, flinkActed, flinkDelivered, FlinkState.act, FlinkState.call]
        omega
      · simp [flinkKnown, flinkActed, flinkDelivered, FlinkState.act, FlinkState.call, heq,
          update_of_ne (Ne.symm heq)]
    · rfl
  | taken action' hp =>
    by_cases heq : action' = action
    · subst heq
      simp [flinkKnown, flinkActed, flinkDelivered, FlinkState.act, FlinkState.call]
      omega
    · simp [flinkKnown, flinkActed, flinkDelivered, FlinkState.act, FlinkState.call, heq]
  | timer hp => exact flinkKnown_poll action _
  | acted action' hp =>
    cases action' with
    | cancel =>
      simp [flinkKnown, flinkActed, flinkDelivered, FlinkState.afterAction, FlinkState.mark,
        FlinkState.call]
    | pause | resume | rollback => exact flinkKnown_poll action _
  | _ =>
    simp [flinkKnown, flinkActed, flinkDelivered, FlinkState.finish, FlinkState.mark,
      FlinkState.call]

theorem flinkKnown_start (action : FlinkAction) : flinkKnown action (flinkStart input) = 0 := by
  unfold flinkStart
  dsimp only
  split_ifs
  · simp [flinkKnown, flinkActed]
  · rw [flinkKnown_poll]
    simp [flinkKnown, flinkActed]

/-- **The signals delivered are those acted on and those that wait.** -/
theorem flinkDelivered_eq {allowed : List FlinkEvent → FlinkState → FlinkEvent → Prop}
    (h : Transition.Run (flinkStep input) allowed (flinkStart input) es s)
    (action : FlinkAction) : flinkDelivered action es = flinkActed action s + s.waiting action := by
  apply h.invariant (I := fun es s => flinkDelivered action es = flinkKnown action s)
  · exact (flinkKnown_start action).symm
  · intro es s event s' hs _ hstep
    rw [flinkKnown_step (flinkStepped_of_step hstep), ← hs, flinkDelivered, countP_append]
    rfl

/-- The input of the next run carries no signals. -/
theorem flinkSurvives_iff_total
    {allowed : List FlinkEvent → FlinkState → FlinkEvent → Prop}
    (h : Transition.Run (flinkStep input) allowed (flinkStart input) es s) :
    FlinkSurvives input es s ↔ s.total = 0 := by
  have hcontinued (action : FlinkAction) : flinkContinued input
      { s with waiting := update s.waiting action (s.waiting action - 1) } =
        flinkContinued input s := rfl
  constructor
  · intro hs
    have hwaiting (action : FlinkAction) : s.waiting action = 0 := by
      have hacted := (hs action).resolve_right fun hne => hne (hcontinued action)
      rw [flinkDelivered_eq h] at hacted
      omega
    simp [FlinkState.total, hwaiting]
  · intro htotal action
    left
    rw [flinkDelivered_eq h]
    unfold FlinkState.total at htotal
    cases action <;> omega

theorem flinkFits_start : FlinkFits (flinkStart input) := by
  unfold flinkStart
  dsimp only
  split_ifs
  · exact Nat.zero_le _
  · rw [flinkFits_poll (Nat.zero_le _)]
    exact Nat.zero_le _

theorem flinkPolls_start : FlinkPolls (flinkStart input) := by
  unfold flinkStart
  dsimp only
  split_ifs
  · exact Nat.zero_le _
  · exact flinkPolls_poll

/-- A run in which all signals come in time has room for them, until it is gone. -/
theorem flinkFits_of_run
    (h : Transition.Run (flinkStep input) (fun _ => FlinkInTime) (flinkStart input) es s) :
    FlinkGone s ∨ FlinkFits s := by
  apply And.right (a := FlinkPolls s)
  apply h.invariant (I := fun _ s => FlinkPolls s ∧ (FlinkGone s ∨ FlinkFits s))
  · exact ⟨flinkPolls_start, .inr flinkFits_start⟩
  · rintro es s event s' ⟨hpolls, hs⟩ ok hstep
    have hstepped := flinkStepped_of_step hstep
    refine ⟨flinkPolls_step hpolls hstepped, ?_⟩
    rcases hs with hgone | hfits
    · exact .inl (flinkGone_step hstepped hgone)
    · exact flinkFits_step hpolls hfits ok hstepped

/-- **In a run that continues as new, every signal is acted on.** -/
theorem flinkSurvives_of_run
    (h : Transition.Run (flinkStep input) (fun _ => FlinkInTime) (flinkStart input) es s)
    (hp : s.point = .continuedAsNew) : FlinkSurvives input es s := by
  rcases flinkFits_of_run h with hgone | hfits
  · simp [FlinkGone, hp] at hgone
  · rw [FlinkFits, hp] at hfits
    exact (flinkSurvives_iff_total h).mpr hfits

end flink

/-! ## Both workflows -/

/-- **In every run whose signals come in time**, a stream that has read its signals is as the last of
them says, and each signal is acted on or carried over when either workflow continues as new. -/
theorem signals_survive_of_run (stream : StreamDirect) (input : WorkflowInput) :
    (∀ (es : List StreamEvent) (s : StreamState), stream.Run (fun _ => StreamInTime) es s →
      StreamObeys es s ∧ (s.point = .continuedAsNew → StreamSurvives stream es s)) ∧
    (∀ (es : List FlinkEvent) (s : FlinkState),
      Transition.Run (flinkStep input) (fun _ => FlinkInTime) (flinkStart input) es s →
        s.point = .continuedAsNew → FlinkSurvives input es s) := by
  constructor
  · intro es s h
    exact ⟨StreamDirect.streamObeys_of_run h, StreamDirect.streamSurvives_of_run h⟩
  · intro es s h hp
    exact flinkSurvives_of_run h hp

/-! ### A cancel that comes too late -/

/-- A stream with a source. -/
def unreadStream : StreamDirect where
  info := {}
  request :=
    { definition := { nodes := [{ id := "s", type := .source, activityType := "kafka.fetch" }] } }
  plan :=
    { levels := [[{ id := "s", type := .source, activityType := "kafka.fetch" }]]
      incoming := fun _ => [] }
  planned := rfl

/-- No activity succeeds. -/
def failedReply : ∀ call, StreamReply call
  | .fetchSourcePage _ => .error "broker not available"
  | .node _ (.fetchSourcePage _) => .error "broker not available"
  | .node _ (.evalEdgeCondition _) => .error ""
  | .node _ (.mergeRefs _) => .error ""
  | .node _ (.dispatchNode _) => .error ""

/-- The page cannot be fetched in any iteration; in the last one a cancel is delivered. -/
def lateCancel : List StreamEvent :=
  (replicate 99 [.reply failedReply, .timer]).flatten ++
    [.signal .cancel, .reply failedReply, .timer]

/-- The run continues as new. -/
def StreamPoint.continues : StreamPoint → Bool
  | .continuedAsNew => true
  | _ => false

theorem StreamPoint.eq_of_continues {point : StreamPoint} (h : point.continues = true) :
    point = .continuedAsNew := by
  cases point <;> first | rfl | cases h

instance : DecidablePred StreamFits := fun s => by
  unfold StreamFits
  split <;> infer_instance

instance : DecidablePred StreamWaits := fun s => by
  unfold StreamWaits
  split <;> infer_instance

instance (s : StreamState) (signal : Signal) : Decidable (StreamInOrder s signal) := by
  unfold StreamInOrder
  split <;> infer_instance

instance (s : StreamState) (event : StreamEvent) : Decidable (StreamInTime s event) := by
  unfold StreamInTime
  split <;> infer_instance

/-- A run is paused in its first iteration, and resumed in the second. -/
def pausedOnce : List StreamEvent :=
  [.signal .pause, .reply failedReply, .timer, .signal .resume, .select] ++
    .reply failedReply :: (replicate 98 [.timer, .reply failedReply]).flatten ++ [.timer]

/-- A job that has been deployed. -/
def deployedJob : WorkflowInput where
  executionId := "e1"
  flink := some { cohestraId := "flink-deployment/dev/dataflow/e1", desiredState := "running" }

/-- A pause is taken by a blocked selector, and a resume waits for the next one. -/
def pausedJob : List FlinkEvent :=
  [.status (.ok { state := "RUNNING" }), .select, .signal .pause, .signal .resume, .acted (.ok ()),
    .status (.ok { state := "RUNNING" }), .select, .acted (.ok ())] ++
    (replicate 98 [.status (.ok { state := "RUNNING" }), .select, .timer]).flatten

/-- The job continues as new. -/
def FlinkPoint.continues : FlinkPoint → Bool
  | .continuedAsNew => true
  | _ => false

theorem FlinkPoint.eq_of_continues {point : FlinkPoint} (h : point.continues = true) :
    point = .continuedAsNew := by
  cases point <;> first | rfl | cases h

instance : DecidablePred FlinkFits := fun s => by
  unfold FlinkFits
  split <;> infer_instance

instance (s : FlinkState) (event : FlinkEvent) : Decidable (FlinkInTime s event) := by
  unfold FlinkInTime
  split
  · split <;> infer_instance
  · infer_instance

theorem signals_survive_of_run_paused :
    (∃ s, s.point = .continuedAsNew ∧ StreamSurvives unreadStream pausedOnce s) ∧
      ∃ s, s.point = .continuedAsNew ∧ FlinkSurvives deployedJob pausedJob s := by
  obtain ⟨s, hrun, hpoint⟩ : ∃ s, unreadStream.Run (fun _ => StreamInTime) pausedOnce s ∧
      s.point.continues = true :=
    Transition.exists_run_of_guarded (by decide +kernel)
  obtain ⟨s', hrun', hpoint'⟩ : ∃ s, Transition.Run (flinkStep deployedJob) (fun _ => FlinkInTime)
      (flinkStart deployedJob) pausedJob s ∧ s.point.continues = true :=
    Transition.exists_run_of_guarded (by decide +kernel)
  have hcontinued := StreamPoint.eq_of_continues hpoint
  have hcontinued' := FlinkPoint.eq_of_continues hpoint'
  exact ⟨⟨s, hcontinued, ((signals_survive_of_run unreadStream {}).1 pausedOnce s hrun).2 hcontinued⟩,
    s', hcontinued', (signals_survive_of_run unreadStream deployedJob).2 pausedJob s' hrun' hcontinued'⟩

/-- The next run does not know of the cancel. -/
theorem not_streamSurvives_lateCancel : ∃ s, unreadStream.Run Transition.Any lateCancel s ∧
    s.point = .continuedAsNew ∧ ¬ StreamSurvives unreadStream lateCancel s := by
  obtain ⟨s, hrun, hpoint⟩ : ∃ s, unreadStream.Run Transition.Any lateCancel s ∧
      s.point.continues = true :=
    Transition.exists_run_of_check (fun _ _ _ _ => trivial) (by decide +kernel)
  refine ⟨s, hrun, StreamPoint.eq_of_continues hpoint, ?_⟩
  intro hsurvives
  rcases hsurvives .cancel with hnone | hcarried
  · exact hnone (mem_append_right _ mem_cons_self)
  · exact hcarried rfl

end Dataflow.Workflows
