import Dataflow.Workflows.Scheduling

/-!
# Signals: cancellation, pause and resume

The signals of a run wait in three channels. The workflow reads them at the head of each level, all
pauses first, then all resumes, then all cancels, and while it waits on a pause, where it takes a
resume before a cancel.

* `Reads`: the run will read its channels once more.
* `cancel_honoured`: a cancel that is delivered while the run still reads ends the run as
  cancelled, unless the wait of the last level takes a resume in its place; in the last level it is
  never read.
* `InOrder`: the condition under which the decision at a loop head follows the order of delivery.
* `holdsBack_iff_inOrder`: the first wrong decision of a run is the first step out of order.
-/

namespace Dataflow.Workflows

open Model Library List

/-- The pauses and resumes among the events. -/
def Event.pauseOrResume? : Event → Option Signal
  | .signal .pause => some .pause
  | .signal .resume => some .resume
  | _ => none

/-- The last pause or resume delivered. -/
def lastSignal (es : List Event) : Option Signal := (es.filterMap Event.pauseOrResume?).getLast?

namespace DynamicDag

variable {dag : DynamicDag} {s s' : RunState}

/-! ## Cancellation -/

/-- Some level has still to begin, so the run will read its channels. -/
def Reads (dag : DynamicDag) (s : RunState) : Prop :=
  s.point.later ≠ [] ∨ s.point = .preparing ∧
    ∃ plan, buildPlan dag.input.definition.nodes dag.input.definition.edges = .ok plan ∧
      plan.levels ≠ []

/-- The run is marked as cancelled, or a cancel is waiting and will be read. -/
def Doomed (dag : DynamicDag) (s : RunState) : Prop :=
  s.point = .marking .cancelled ∨ s.point = .returned (.ok .cancelled) ∨
    0 < s.inbox.cancel ∧ Reads dag s

/-- The step does not lose a cancel: the wait of the last level does not take a resume while a
cancel is waiting, and the activities that prepare and mark succeed. -/
def KeepsCancel (s : RunState) : Event → Prop
  | .select => ∀ level, s.point = .waiting level [] → 0 < s.inbox.cancel → s.inbox.resume = 0
  | .prepared (.error _) | .marked (.error _) => False
  | _ => True

/-- The run ends as cancelled and commits nothing. -/
structure EndsCancelled (s : RunState) : Prop where
  outcome : ∀ outcome, s.point = .returned outcome → outcome = .ok .cancelled
  commits : ∀ call ∈ s.scheduled, call.isCommit = false

theorem cancelled_drainSignals (h : 0 < s.inbox.cancel) : (drainSignals s).cancelled = true := by
  unfold drainSignals
  rw [if_pos h]

variable {rest : List (List Node)}

theorem reads_nextLevel (h : rest ≠ []) : (dag.nextLevel rest s).point.later ≠ [] := by
  cases rest with
  | nil => exact absurd rfl h
  | cons level rest => simp [nextLevel, Point.later]

theorem reads_nextBatch (queued : List Node) (h : rest ≠ []) :
    (dag.nextBatch queued rest s).point.later ≠ [] := by
  unfold nextBatch
  split_ifs
  · exact reads_nextLevel h
  · exact h

theorem reads_store (node : Node) (result : NodeResult) (running : List (Node × NodeCoroutine))
    (queued : List Node) (h : rest ≠ []) :
    (dag.store node result running queued rest s).point.later ≠ [] := by
  cases running with
  | nil => exact reads_nextBatch queued h
  | cons entry running => exact h

variable (level : List Node)

/-- A cancelled run does not begin the level. -/
theorem doomed_of_cancelled (rest : List (List Node))
    (h : s.cancelled = true) : Doomed dag (dag.enterLevel level rest s) := by
  left
  unfold enterLevel conclude
  rw [if_neg (by simp [h]), if_pos h, if_pos h]
  rfl

/-- A level that begins without waiting keeps the levels after it. -/
theorem doomed_enterLevel (hc : 0 < s.inbox.cancel) (hgo : s.paused = false) (hrest : rest ≠ []) :
    Doomed dag (dag.enterLevel level rest s) := by
  by_cases hcancelled : s.cancelled = true
  · exact doomed_of_cancelled level rest hcancelled
  · refine .inr (.inr ⟨(dag.frame_enterLevel level rest s).inbox ▸ hc, .inl ?_⟩)
    unfold enterLevel
    rw [if_neg (by simp [hgo]), if_neg hcancelled]
    exact reads_nextBatch level hrest

variable {event : Event}

/-- A cancel that waits and will be read stays so until it is read. -/
theorem doomed_step_waiting (hc : 0 < s.inbox.cancel) (hreads : Reads dag s)
    (hok : KeepsCancel s event) (hstep : dag.step s event = some s') : Doomed dag s' := by
  -- the run has begun when it is not preparing, and then some level is left
  have hlater : s.point ≠ .preparing → s.point.later ≠ [] := fun hp => by
    rcases hreads with hlater | ⟨hpreparing, -⟩
    · exact hlater
    · exact absurd hpreparing hp
  cases (dag.step_iff).mp hstep with
  | signal signal =>
    refine .inr (.inr ⟨?_, hreads⟩)
    cases signal with
    | pause | resume => exact hc
    | cancel => exact Nat.succ_pos _
  | prepareFailed hp err => exact absurd hok id
  | prepared hp =>
    rcases hreads with hlater | ⟨-, plan, hplan, hlevels⟩
    · exact absurd (by rw [hp]; rfl) hlater
    · rw [dag.plan_of_ok s hplan]
      refine .inr (.inr ⟨?_, .inl (reads_nextLevel hlevels)⟩)
      rw [(dag.frame_nextLevel _ _).inbox]
      exact hc
  | beginLevel hp => exact doomed_of_cancelled _ _ (cancelled_drainSignals hc)
  | @selectResume level rest hp hr =>
    refine doomed_enterLevel level hc rfl fun hrest => ?_
    have := hok level (hrest ▸ hp) hc
    omega
  | selectCancel hp hr hc => exact doomed_of_cancelled _ _ rfl
  | nodeReply hp hi answer =>
    have := hlater (by rw [hp]; nofun)
    rw [hp] at this
    exact .inr (.inr ⟨hc, .inl this⟩)
  | @collect node result running queued rest hp =>
    have := hlater (by rw [hp]; nofun)
    rw [hp] at this
    exact .inr (.inr ⟨(dag.frame_store node result running queued rest s).inbox ▸ hc,
      .inl (reads_store node result running queued this)⟩)
  | cursorsFailed hp err => exact absurd (by rw [hp]; rfl) (hlater (by rw [hp]; nofun))
  | cursorsCommitted hp => exact absurd (by rw [hp]; rfl) (hlater (by rw [hp]; nofun))
  | dedupeFailed hp err => exact absurd (by rw [hp]; rfl) (hlater (by rw [hp]; nofun))
  | dedupeCommitted hp => exact absurd (by rw [hp]; rfl) (hlater (by rw [hp]; nofun))
  | markFailed hp err => exact absurd hok id
  | marked hp => exact absurd (by rw [hp]; rfl) (hlater (by rw [hp]; nofun))

/-- **The step lemma of `Doomed`.** -/
theorem doomed_step (h : Doomed dag s) (hok : KeepsCancel s event)
    (hstep : dag.step s event = some s') : Doomed dag s' := by
  rcases h with hmarking | hreturned | ⟨hc, hreads⟩
  · cases (dag.step_iff).mp hstep with
    | signal => exact .inl hmarking
    | markFailed hp err => exact absurd hok id
    | marked hp =>
      rw [hmarking] at hp
      cases hp
      exact .inr (.inl rfl)
    | _ hp =>
      simp [hmarking] at hp
  · cases (dag.step_iff).mp hstep with
    | signal signal hp => exact absurd hreturned (hp _)
    | _ hp =>
      simp [hreturned] at hp
  · exact doomed_step_waiting hc hreads hok hstep

/-- A run that is marked as cancelled has committed nothing. -/
theorem endsCancelled_of_log (houtcome : ∀ outcome, s.point = .returned outcome →
    outcome = .ok .cancelled) (hlog : ∀ call ∈ s.closingLog, call.isCommit = false) :
    EndsCancelled s where
  outcome := houtcome
  commits call hcall := by
    by_contra hcommit
    rw [Bool.not_eq_false] at hcommit
    have := hlog call (mem_filter.mpr ⟨hcall, isClosing_of_isCommit hcommit⟩)
    simp [hcommit] at this

/-- The closing calls of a cancelled run are its mark. -/
theorem not_isCommit_closingCalls (h : s.finalPhase = .cancelled) :
    ∀ call ∈ dag.closingCalls s, call.isCommit = false := by
  intro call hcall
  rw [closingCalls, commitCalls, h, if_neg (by decide), nil_append, mem_singleton] at hcall
  rw [hcall]
  rfl

/-- A doomed run ends as cancelled. -/
theorem Doomed.endsCancelled (h : Doomed dag s) (hc : dag.Closed s) : EndsCancelled s := by
  rcases h with hp | hp | ⟨-, hreads⟩
  · rw [Closed, hp] at hc
    refine endsCancelled_of_log (fun outcome ho => ?_) ?_
    · simp [hp] at ho
    · rw [hc.2]
      exact not_isCommit_closingCalls hc.1.symm
  · rw [Closed, hp] at hc
    refine endsCancelled_of_log (fun outcome ho => ?_) ?_
    · rw [hp] at ho
      cases ho
      rfl
    · rw [hc.2]
      exact not_isCommit_closingCalls hc.1.symm
  · have hlog : s.closingLog = [] := by
      unfold Closed at hc
      rcases hreads with hlater | ⟨hp, -⟩
      · cases hp : s.point <;> simp_all [Point.later]
      · rw [hp] at hc
        exact hc
    refine endsCancelled_of_log (fun outcome ho => ?_) (by simp [hlog])
    rcases hreads with hlater | ⟨hp, -⟩
    · rw [ho] at hlater
      exact absurd rfl hlater
    · simp [ho] at hp

/-- A doomed run waits for nobody. -/
theorem Doomed.not_blocked (h : Doomed dag s) : ¬ Blocked s := by
  rintro ⟨level, rest, hp, -, hcancel⟩
  rcases h with h | h | ⟨hc, -⟩
  · simp [h] at hp
  · simp [h] at hp
  · omega

/-! ### A cancel that comes too late -/

/-- The last level has begun, and the run is not cancelled. -/
def TooLate (s : RunState) : Prop :=
  s.cancelled = false ∧ s.point.later = [] ∧ s.point ≠ .preparing

theorem tooLate_conclude (h : s.cancelled = false) : TooLate (dag.conclude s) :=
  ⟨(dag.frame_conclude s).cancelled.trans h, (dag.idle_conclude s).later,
    (dag.idle_conclude s).planned⟩

theorem tooLate_nextBatch (queued : List Node) (h : s.cancelled = false) :
    TooLate (dag.nextBatch queued [] s) := by
  unfold nextBatch
  split_ifs
  · exact tooLate_conclude h
  · exact ⟨h, rfl, nofun⟩

/-- **In the last level nothing is read any more.** -/
theorem tooLate_step (h : TooLate s) (hstep : dag.step s event = some s') : TooLate s' := by
  obtain ⟨hcancelled, hlater, hplanned⟩ := h
  cases (dag.step_iff).mp hstep with
  | signal => exact ⟨hcancelled, hlater, hplanned⟩
  | prepareFailed hp err | prepared hp => exact absurd hp hplanned
  | beginLevel hp | selectResume hp hr | selectCancel hp hr hc =>
    rw [hp] at hlater
    cases hlater
  | nodeReply hp hi answer =>
    rw [hp] at hlater
    exact ⟨hcancelled, hlater, nofun⟩
  | @collect node result running queued rest hp =>
    rw [hp] at hlater
    cases running with
    | nil =>
      rw [show rest = [] from hlater]
      exact tooLate_nextBatch queued hcancelled
    | cons entry running => exact ⟨hcancelled, hlater, nofun⟩
  | cursorsFailed hp err => exact ⟨hcancelled, rfl, nofun⟩
  | @cursorsCommitted checkpoints hp =>
    have hidle := dag.idle_commitDedupe checkpoints s
    exact ⟨(dag.frame_commitDedupe checkpoints s).cancelled.trans hcancelled, hidle.later,
      hidle.planned⟩
  | dedupeFailed hp err | dedupeCommitted hp | markFailed hp err => exact ⟨hcancelled, rfl, nofun⟩
  | marked hp => exact ⟨hcancelled, rfl, nofun⟩

/-- **When a cancel is honoured.** Let a cancel be delivered in any state a run can reach.

* If some level has still to begin, and from then on the wait of the last level takes no resume
  while a cancel is waiting and the activities that prepare and mark succeed, the run goes on for a
  bounded number of its own events, waits for nobody, ends in phase cancelled and commits nothing.
* If the last level has begun, the cancel is never read: the run does not end as cancelled.

Source: `dynamic_dag.go` `DynamicDAGWorkflow`, `drainSignals` -/
theorem cancel_honoured (dag : DynamicDag) (outcomes : Outcomes) {es₁ : List Event}
    {s₁ s₂ : RunState} (hrun : dag.Run Transition.Any es₁ s₁)
    (hcancel : dag.step s₁ (.signal .cancel) = some s₂) :
    (Reads dag s₁ → ∃ bound, ∀ es s, Transition.Run dag.step (fun _ => KeepsCancel) s₂ es s →
      es.countP Event.isOwn ≤ bound ∧ (Returned s ∨ CanStep dag outcomes s) ∧ EndsCancelled s) ∧
    (TooLate s₁ → ∀ es s, Transition.Run dag.step Transition.Any s₂ es s →
      s.point ≠ .returned (.ok .cancelled)) := by
  have hleft := hrun.budget Event.isOwn (Left dag) (left_start dag)
    (fun _ _ _ _ _ hleft _ hstep hown => left_step hleft hstep hown)
    (fun _ _ _ _ _ hleft _ hstep hown => left_signal hleft hstep hown)
  obtain ⟨n, hleft₁, -⟩ := hleft
  have hclosed₂ := closed_step (closed_of_run hrun) hcancel
  have hleft₂ := left_signal hleft₁ hcancel (by decide)
  constructor
  · intro hreads
    have hdoomed₂ : Doomed dag s₂ := by
      cases (dag.step_iff).mp hcancel with
      | signal => exact .inr (.inr ⟨Nat.succ_pos _, hreads⟩)
    refine ⟨n, fun es s h => ?_⟩
    obtain ⟨m, hleft, hcount⟩ := h.budget Event.isOwn (Left dag) hleft₂
      (fun _ _ _ _ _ hleft _ hstep hown => left_step hleft hstep hown)
      (fun _ _ _ _ _ hleft _ hstep hown => left_signal hleft hstep hown)
    have hboth : Doomed dag s ∧ dag.Closed s := by
      refine h.invariant (I := fun _ s => Doomed dag s ∧ dag.Closed s) ⟨hdoomed₂, hclosed₂⟩ ?_
      rintro es s event s' ⟨hd, hc⟩ hok hstep
      exact ⟨doomed_step hd hok hstep, closed_step hc hstep⟩
    refine ⟨by omega, ?_, hboth.1.endsCancelled hboth.2⟩
    rcases canStep_of_left outcomes hleft with hreturned | hblocked | hcan
    · exact .inl hreturned
    · exact absurd hblocked hboth.1.not_blocked
    · exact .inr hcan
  · intro hlate es s h hp
    have hboth : TooLate s ∧ dag.Closed s := by
      refine h.invariant (I := fun _ s => TooLate s ∧ dag.Closed s)
        ⟨tooLate_step hlate hcancel, hclosed₂⟩ ?_
      rintro es s event s' ⟨hl, hc⟩ _ hstep
      exact ⟨tooLate_step hl hstep, closed_step hc hstep⟩
    obtain ⟨hlate, hc⟩ := hboth
    rw [Closed, hp] at hc
    have hphase := hc.1
    rw [RunState.finalPhase, hlate.1] at hphase
    simp only [Bool.false_eq_true, if_false] at hphase
    split_ifs at hphase

/-- The theorem at a cancel that arrives before the only level has begun. -/
theorem cancel_honoured_before_level : let dag : DynamicDag :=
      { info := {}
        request := { definition := { nodes := [{ id := "orders", type := .source }] } }
        ranging := .entries }
    ∃ s₂ s, dag.step dag.start (.signal .cancel) = some s₂ ∧
      Transition.Run dag.step (fun _ => KeepsCancel) s₂ [.beginLevel, .marked (.ok ())] s ∧
      EndsCancelled s := by
  intro dag
  obtain ⟨bound, hbound⟩ := (cancel_honoured dag (.successful {}) .start rfl).1 (.inl nofun)
  have hrun : ∃ s, Transition.Run dag.step (fun _ => KeepsCancel)
      { dag.start with inbox := dag.start.inbox.deliver .cancel }
      [.beginLevel, .marked (.ok ())] s :=
    ⟨_, .of_foldlM (by simp [KeepsCancel]) rfl⟩
  obtain ⟨s, hrun⟩ := hrun
  exact ⟨_, s, rfl, hrun, (hbound _ _ hrun).2.2⟩

/-- A cancel that arrives while the only node is running: the run completes and commits. -/
theorem cancel_lost_in_last_level : let dag : DynamicDag :=
      { info := {}
        request := { definition := { nodes := [{ id := "orders", type := .source }] } }
        ranging := .entries }
    let answer := (Outcomes.successful { checkpoint := some [("cursor", .number 7)] }).answer
      { id := "orders", type := .source }
    ∃ s₁ s₂ s, dag.Run Transition.Any [.beginLevel] s₁ ∧ s₁.point.running ≠ [] ∧
      dag.step s₁ (.signal .cancel) = some s₂ ∧
      Transition.Run dag.step Transition.Any s₂ [.nodeReply 0 answer, .collect,
        .cursorsCommitted (.ok ()), .marked (.ok ())] s ∧
      s.point = .returned (.ok .completed) ∧ s.scheduled.any (·.isCommit) := by
  intro dag answer
  exact ⟨_, _, _, .of_foldlM (fun _ _ _ _ => trivial) rfl, nofun, rfl,
    .of_foldlM (fun _ _ _ _ => trivial) rfl, rfl, rfl⟩

/-! ## Pause and resume -/

/-- The level is held back. -/
def Held (s : RunState) : Prop := ∃ level rest, s.point = .waiting level rest

/-- The loop head in state `s`, after the events `es`, sees what was delivered last: a pause that is
still unread was delivered last unless a resume is unread too, and then the resume was; and a wait
that takes a resume does so when the resume was delivered last. -/
def InOrder (es : List Event) (s : RunState) : Event → Prop
  | .beginLevel => 0 < s.inbox.pause →
      lastSignal es = some (if 0 < s.inbox.resume then .resume else .pause)
  | .select => 0 < s.inbox.resume → lastSignal es = some .resume
  | _ => True

/-- What the channels, the flag and the last signal have to do with each other. -/
structure Ordered (es : List Event) (s : RunState) : Prop where
  known : 0 < s.inbox.pause ∨ 0 < s.inbox.resume → lastSignal es ≠ none
  quiet : s.inbox.pause = 0 → s.inbox.resume = 0 → (s.paused = true ↔ lastSignal es = some .pause)
  resumed : s.inbox.pause = 0 → 0 < s.inbox.resume → lastSignal es = some .resume
  held : Held s → s.inbox.resume = 0 → lastSignal es = some .pause

theorem lastSignal_snoc (es : List Event) (event : Event) :
    lastSignal (es ++ [event]) = event.pauseOrResume?.or (lastSignal es) := by
  unfold lastSignal
  rw [filterMap_append, getLast?_append]
  cases h : event.pauseOrResume? <;> simp [h]

theorem lastSignal_snoc_of_none (es : List Event)
    (h : event.pauseOrResume? = none) : lastSignal (es ++ [event]) = lastSignal es := by
  rw [lastSignal_snoc, h, Option.none_or]

theorem lastSignal_cases (es : List Event) :
    lastSignal es = none ∨ lastSignal es = some .pause ∨ lastSignal es = some .resume := by
  induction es using reverseRecOn with
  | nil => exact .inl rfl
  | append_singleton es event ih =>
    rw [lastSignal_snoc]
    rcases event with (_ | _ | _) | _ | _ | _ | _ | _ | _ | _ | _ <;>
      first | exact ih | simp [Event.pauseOrResume?]

/-! ### Which steps hold a level back -/

theorem not_held_conclude : ¬ Held (dag.conclude s) := by
  rintro ⟨level, rest, hp⟩
  have := (dag.idle_conclude s).later
  rw [hp] at this
  cases this

theorem not_held_nextLevel (rest : List (List Node)) : ¬ Held (dag.nextLevel rest s) := by
  cases rest with
  | nil => exact not_held_conclude
  | cons level rest => rintro ⟨_, _, ⟨⟩⟩

theorem not_held_nextBatch (queued : List Node) (rest : List (List Node)) :
    ¬ Held (dag.nextBatch queued rest s) := by
  unfold nextBatch
  split_ifs
  · exact not_held_nextLevel rest
  · rintro ⟨_, _, ⟨⟩⟩

theorem not_held_plan : ¬ Held (dag.plan s) := by
  unfold plan
  split
  · rintro ⟨_, _, ⟨⟩⟩
  · exact not_held_nextLevel _

theorem not_held_start : ¬ Held dag.start := by
  unfold start
  dsimp only
  split_ifs
  · rintro ⟨_, _, ⟨⟩⟩
  · rintro ⟨_, _, ⟨⟩⟩
  · exact not_held_plan

theorem held_enterLevel (rest : List (List Node)) :
    Held (dag.enterLevel level rest s) ↔ s.paused = true ∧ s.cancelled = false := by
  unfold enterLevel
  split_ifs with hwait hcancelled
  · exact ⟨fun _ => by simpa using hwait, fun _ => ⟨level, rest, rfl⟩⟩
  · exact ⟨fun h => absurd h not_held_conclude, fun h => by simp [h.2] at hcancelled⟩
  · refine ⟨fun h => absurd h (not_held_nextBatch level rest), fun h => ?_⟩
    exact absurd ⟨h.1, by simp [h.2]⟩ hwait

/-- What the drain leaves of a pause. -/
theorem paused_drainSignals (s : RunState) : (drainSignals s).paused = true ↔
    s.inbox.resume = 0 ∧ (0 < s.inbox.pause ∨ s.paused = true) := by
  unfold drainSignals
  dsimp only
  split_ifs with hr hp
  · simp only [false_iff, not_and]
    omega
  · simp only [true_iff]
    exact ⟨by omega, .inl hp⟩
  · constructor
    · exact fun h => ⟨by omega, .inr h⟩
    · rintro ⟨-, h | h⟩
      · exact absurd h hp
      · exact h

variable {es : List Event}

/-- **A drain is right iff it is in order.** -/
theorem drain_iff_inOrder (h : Ordered es s) :
    ((drainSignals s).paused = true ↔ lastSignal es = some .pause) ↔ InOrder es s .beginLevel := by
  rw [paused_drainSignals]
  unfold InOrder
  rcases Nat.eq_zero_or_pos s.inbox.pause with hp | hp
  · rcases Nat.eq_zero_or_pos s.inbox.resume with hr | hr
    · simp [hp, hr, h.quiet hp hr]
    · simp [hp, hr.ne', h.resumed hp hr]
  · rcases Nat.eq_zero_or_pos s.inbox.resume with hr | hr
    · simp [hp, hr]
    · have hknown := h.known (.inl hp)
      rcases lastSignal_cases es with hnone | hpause | hresume
      · exact absurd hnone hknown
      · simp [hp, hr, hr.ne', hpause]
      · simp [hp, hr, hr.ne', hresume]

/-- Steps that neither read the channels nor hold a level back. -/
theorem Ordered.keep (h : Ordered es s)
    (hevent : event.pauseOrResume? = none) (hpause : s'.inbox.pause = s.inbox.pause)
    (hresume : s'.inbox.resume = s.inbox.resume) (hpaused : s'.paused = s.paused)
    (hheld : ¬ Held s') : Ordered (es ++ [event]) s' := by
  have hlast := lastSignal_snoc_of_none es hevent
  constructor
  · rw [hpause, hresume, hlast]
    exact h.known
  · rw [hpause, hresume, hpaused, hlast]
    exact h.quiet
  · rw [hpause, hresume, hlast]
    exact h.resumed
  · exact fun hs => absurd hs hheld

theorem Ordered.of_frame (h : Ordered es s)
    (hevent : event.pauseOrResume? = none) (hf : Frame s s') (hheld : ¬ Held s') :
    Ordered (es ++ [event]) s' :=
  h.keep hevent (by rw [hf.inbox]) (by rw [hf.inbox]) hf.paused hheld

theorem not_held_of_point {point : Point} (hp : s.point = point)
    (h : ∀ level rest, point ≠ .waiting level rest) : ¬ Held s := by
  rintro ⟨level, rest, hwait⟩
  exact h level rest (hp.symm.trans hwait)

/-- After a drain in order the flag says what was delivered last. -/
theorem ordered_enterLevel
    (rest : List (List Node)) (hevent : event.pauseOrResume? = none) (hinbox : s.inbox = {})
    (hpaused : s.paused = true ↔ lastSignal es = some .pause) :
    Ordered (es ++ [event]) (dag.enterLevel level rest s) := by
  have hf := dag.frame_enterLevel level rest s
  have hlast := lastSignal_snoc_of_none es hevent
  constructor
  · rw [hf.inbox, hinbox]
    rintro (h | h) <;> cases h
  · rw [hf.paused, hlast]
    exact fun _ _ => hpaused
  · rw [hf.inbox, hinbox]
    intro _ h
    cases h
  · rw [hlast, held_enterLevel]
    exact fun h _ => hpaused.mp h.1

/-- **The step lemma of `Ordered`.** -/
theorem ordered_step (h : Ordered es s)
    (hok : InOrder es s event) (hstep : dag.step s event = some s') :
    Ordered (es ++ [event]) s' := by
  cases (dag.step_iff).mp hstep with
  | signal signal hopen =>
    cases signal with
    | pause =>
      have hlast : lastSignal (es ++ [.signal .pause]) = some .pause := lastSignal_snoc ..
      constructor
      · simp [hlast]
      · intro hp
        cases hp
      · intro hp
        cases hp
      · exact fun _ _ => hlast
    | resume =>
      have hlast : lastSignal (es ++ [.signal .resume]) = some .resume := lastSignal_snoc ..
      constructor
      · simp [hlast]
      · intro _ hr
        cases hr
      · exact fun _ _ => hlast
      · intro _ hr
        cases hr
    | cancel =>
      have hlast : lastSignal (es ++ [.signal .cancel]) = lastSignal es :=
        lastSignal_snoc_of_none es rfl
      exact ⟨hlast ▸ h.known, hlast ▸ h.quiet, hlast ▸ h.resumed, hlast ▸ h.held⟩
  | prepareFailed hp err => exact h.of_frame rfl (frame_fail err s) (not_held_of_point rfl nofun)
  | prepared hp =>
    obtain ⟨hinbox, hpaused, -⟩ := dag.frame_plan s
    exact h.keep rfl (by rw [hinbox]) (by rw [hinbox]) hpaused not_held_plan
  | beginLevel hp => exact ordered_enterLevel _ _ rfl rfl ((drain_iff_inOrder h).mpr hok)
  | @selectResume level rest hp hr =>
    have hlast := hok hr
    have hf := dag.frame_enterLevel level rest
      { s with paused := false, inbox := { s.inbox with resume := s.inbox.resume - 1 } }
    have hsnoc : lastSignal (es ++ [.select]) = lastSignal es := lastSignal_snoc_of_none es rfl
    constructor
    · simp [hsnoc, hlast]
    · simp [hf.paused, hsnoc, hlast]
    · simp [hsnoc, hlast]
    · rw [held_enterLevel]
      rintro ⟨hpaused, -⟩
      cases hpaused
  | @selectCancel level rest hp hr hc =>
    have hf := dag.frame_enterLevel level rest
      { s with cancelled := true, inbox := { s.inbox with cancel := s.inbox.cancel - 1 } }
    refine h.keep rfl (by rw [hf.inbox]) (by rw [hf.inbox]) hf.paused fun hs => ?_
    rw [held_enterLevel] at hs
    cases hs.2
  | nodeReply hp hi answer =>
    exact h.of_frame rfl (frame_advance _ _ _ _ _ _ s) (not_held_of_point rfl nofun)
  | @collect node result running queued rest hp =>
    have hf := dag.frame_store node result running queued rest s
    refine h.keep rfl (by rw [hf.inbox]) (by rw [hf.inbox]) hf.paused ?_
    cases running with
    | nil => exact not_held_nextBatch queued rest
    | cons entry running => exact not_held_of_point rfl nofun
  | cursorsFailed hp err => exact h.of_frame rfl (frame_fail err s) (not_held_of_point rfl nofun)
  | @cursorsCommitted checkpoints hp =>
    refine h.of_frame rfl (dag.frame_commitDedupe checkpoints s) ?_
    rintro ⟨level, rest, hwait⟩
    have := (dag.idle_commitDedupe checkpoints s).later
    rw [hwait] at this
    cases this
  | dedupeFailed hp err => exact h.of_frame rfl (frame_fail err s) (not_held_of_point rfl nofun)
  | dedupeCommitted hp => exact h.of_frame rfl (dag.frame_mark _ s) (not_held_of_point rfl nofun)
  | markFailed hp err => exact h.of_frame rfl (frame_fail err s) (not_held_of_point rfl nofun)
  | marked hp => exact h.of_frame rfl (frame_point s _) (not_held_of_point rfl nofun)

theorem ordered_of_run (h : dag.Run InOrder es s) : Ordered es s := by
  refine h.invariant ?_ fun _ _ _ _ hs hok hstep => ordered_step hs hok hstep
  obtain ⟨hinbox, hpaused, -⟩ := dag.frame_start
  constructor
  · rw [hinbox]
    rintro (h | h) <;> cases h
  · simp [hpaused, lastSignal]
  · rw [hinbox]
    intro _ h
    cases h
  · exact fun hheld => absurd hheld not_held_start

/-- **Pause and resume.** In a run whose loop heads so far were in order, the next loop head holds
the level back iff the last signal delivered is a pause, if and only if it is in order too; and a
level that stays held back is held back by a pause that was delivered last. So the runs in which
every loop head follows the order of delivery are those whose loop heads are in order.

Source: `dynamic_dag.go` `DynamicDAGWorkflow`, `drainSignals` -/
theorem holdsBack_iff_inOrder (dag : DynamicDag) {es : List Event} {s : RunState}
    (h : dag.Run InOrder es s) :
    (∀ event s', event = .beginLevel ∨ event = .select → dag.step s event = some s' →
      s'.cancelled = false →
      ((Held s' ↔ lastSignal es = some .pause) ↔ InOrder es s event)) ∧
    (Held s → dag.step s .select = none → lastSignal es = some .pause) := by
  have hordered := ordered_of_run h
  refine ⟨?_, fun hheld hstuck => ?_⟩
  · rintro event s' hevent hstep hcancelled
    cases (dag.step_iff).mp hstep with
    | @beginLevel level rest hp =>
      rw [(dag.frame_enterLevel level rest _).cancelled] at hcancelled
      rw [held_enterLevel, hcancelled, ← drain_iff_inOrder hordered]
      simp
    | @selectResume level rest hp hr =>
      rw [held_enterLevel]
      have hknown := hordered.known (.inr hr)
      unfold InOrder
      rcases lastSignal_cases es with hnone | hpause | hresume
      · exact absurd hnone hknown
      · simp [hr, hpause]
      · simp [hr, hresume]
    | @selectCancel level rest hp hr hc =>
      rw [(dag.frame_enterLevel level rest _).cancelled] at hcancelled
      cases hcancelled
    | _ => simp at hevent
  · refine hordered.held hheld ?_
    obtain ⟨level, rest, hp⟩ := hheld
    by_contra hr
    have := dag.step_iff.mpr (.selectResume hp (by omega))
    rw [hstuck] at this
    cases this

/-- The theorem at a pause that arrives before the only level has begun. -/
theorem holdsBack_iff_inOrder_paused : let dag : DynamicDag :=
      { info := {}
        request := { definition := { nodes := [{ id := "orders", type := .source }] } }
        ranging := .entries }
    ∃ s s', dag.Run InOrder [.signal .pause] s ∧ dag.step s .beginLevel = some s' ∧
      ((Held s' ↔ lastSignal [.signal .pause] = some .pause) ↔
        InOrder [.signal .pause] s .beginLevel) := by
  intro dag
  have hrun : dag.Run InOrder [.signal .pause]
      { dag.start with inbox := dag.start.inbox.deliver .pause } :=
    .of_foldlM (by simp [InOrder]) rfl
  exact ⟨_, _, hrun, rfl, (holdsBack_iff_inOrder dag hrun).1 _ _ (.inl rfl) rfl rfl⟩

/-- Pause, resume and pause again while the first level is running: the second level starts. -/
theorem second_pause_is_lost : let node : Node := { id := "orders", type := .source }
    let dag : DynamicDag :=
      { info := {}
        request :=
          { definition :=
              { nodes := [node, { id := "report", type := .sink }]
                edges := [{ source := "orders", target := "report" }] } }
        ranging := .entries }
    let es : List Event := [.beginLevel, .signal .pause, .signal .resume, .signal .pause,
      .nodeReply 0 ((Outcomes.successful {}).answer node), .collect]
    ∃ s s', dag.Run Transition.Any es s ∧ lastSignal es = some .pause ∧
      dag.step s .beginLevel = some s' ∧ s'.cancelled = false ∧ ¬ Held s' := by
  intro node dag es
  refine ⟨_, _, .of_foldlM (fun _ _ _ _ => trivial) rfl, rfl, rfl, rfl, ?_⟩
  exact not_held_of_point rfl nofun

end DynamicDag

end Dataflow.Workflows
