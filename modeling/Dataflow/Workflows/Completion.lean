import Dataflow.Workflows.Signals

/-!
# Completion: a run that nobody disturbs ends

Without signals, and with activities that prepare, commit and mark successfully, a run of an acyclic
definition returns a phase after finitely many events.

* `Undisturbed`: the run is not paused and no signal is unread; `undisturbed_step` says that its
  own events keep this.
* `exists_smooth_run`: **main result**: there is such a run, for any replies of the nodes'
  activities.
-/

namespace Dataflow.Workflows

open Model Library

namespace DynamicDag

variable {dag : DynamicDag} {s s' : RunState} {outcomes : Outcomes}

/-- The run is not paused, and no signal is unread. -/
structure Undisturbed (s : RunState) : Prop where
  inbox : s.inbox = {}
  paused : s.paused = false
  notHeld : ¬ Held s

theorem Undisturbed.of_frame (h : Undisturbed s) (hf : Frame s s') (hheld : ¬ Held s') :
    Undisturbed s' :=
  ⟨hf.inbox.trans h.inbox, hf.paused.trans h.paused, hheld⟩

/-- A run that is not paused holds no level back. -/
theorem Undisturbed.enterLevel (hinbox : s.inbox = {}) (hpaused : s.paused = false)
    (level : List Node) (rest : List (List Node)) :
    Undisturbed (dag.enterLevel level rest s) := by
  have hf := dag.frame_enterLevel level rest s
  refine ⟨hf.inbox.trans hinbox, hf.paused.trans hpaused, ?_⟩
  rw [held_enterLevel, hpaused]
  rintro ⟨⟨⟩, -⟩

/-- **The step lemma of `Undisturbed`.** -/
theorem undisturbed_step {event : Event} (h : Undisturbed s) (hown : event.isOwn = true)
    (hstep : dag.step s event = some s') : Undisturbed s' := by
  have hpoint : ∀ {point : Point}, s'.point = point →
      (∀ level rest, point ≠ .waiting level rest) → ¬ Held s' := not_held_of_point
  cases (dag.step_iff).mp hstep with
  | signal => cases hown
  | prepareFailed hp err => exact h.of_frame (frame_fail err s) (hpoint rfl nofun)
  | prepared hp =>
    obtain ⟨hinbox, hpaused, -⟩ := dag.frame_plan s
    exact ⟨hinbox.trans h.inbox, hpaused.trans h.paused, not_held_plan⟩
  | beginLevel hp =>
    apply Undisturbed.enterLevel rfl
    show (if 0 < s.inbox.resume then false else if 0 < s.inbox.pause then true else s.paused) = false
    rw [h.inbox, h.paused]
    rfl
  | selectResume hp hr | selectCancel hp hr hc => exact absurd ⟨_, _, hp⟩ h.notHeld
  | nodeReply hp hi answer => exact h.of_frame (frame_advance _ _ _ _ _ _ s) (hpoint rfl nofun)
  | @collect node result running queued rest hp =>
    have hf := dag.frame_store node result running queued rest s
    refine ⟨hf.inbox.trans h.inbox, hf.paused.trans h.paused, ?_⟩
    cases running with
    | nil => exact not_held_nextBatch queued rest
    | cons entry running => exact hpoint rfl nofun
  | cursorsFailed hp err => exact h.of_frame (frame_fail err s) (hpoint rfl nofun)
  | @cursorsCommitted checkpoints hp =>
    refine h.of_frame (dag.frame_commitDedupe checkpoints s) ?_
    have hidle := (dag.idle_commitDedupe checkpoints s).later
    rintro ⟨level, rest, hwaiting⟩
    rw [hwaiting] at hidle
    cases hidle
  | dedupeFailed hp err => exact h.of_frame (frame_fail err s) (hpoint rfl nofun)
  | dedupeCommitted hp => exact h.of_frame (dag.frame_mark _ s) (hpoint rfl nofun)
  | markFailed hp err => exact h.of_frame (frame_fail err s) (hpoint rfl nofun)
  | marked hp => exact h.of_frame (frame_point s _) (hpoint rfl nofun)

theorem undisturbed_start : Undisturbed dag.start := by
  obtain ⟨hinbox, hpaused, -⟩ := dag.frame_start
  exact ⟨hinbox, hpaused, not_held_start⟩

/-- What succeeds does not abort. -/
theorem aborts_of_succeeds {event : Event} (h : event.succeeds = true) : event.aborts = false := by
  cases event with
  | prepared reply | cursorsCommitted reply | dedupeCommitted reply => cases reply <;> trivial
  | _ => rfl

theorem succeeds_of_smooth {es : List Event}
    (h : dag.Run (fun _ s event => Smooth outcomes s event) es s) :
    ∀ event ∈ es, event.succeeds = true := by
  refine h.invariant (I := fun es _ => ∀ event ∈ es, event.succeeds = true) ?_ ?_
  · intro event hevent
    cases hevent
  · intro es s event s' hes hok _ other hother
    rcases List.mem_append.mp hother with hother | hother
    · exact hes other hother
    · rw [List.mem_singleton.mp hother]
      exact hok.2.1

/-- **A run that nobody disturbs returns a phase.** -/
theorem exists_smooth_run (dag : DynamicDag) (outcomes : Outcomes)
    (hdag : IsDag dag.input.definition) (hrow : ¬ dag.RowMissing) :
    ∃ es s phase, dag.Run (fun _ s event => Smooth outcomes s event) es s ∧
      s.point = .returned (.ok phase) := by
  have hprogress : ∀ s n, Left dag s n ∧ Undisturbed s → Returned s ∨ ∃ event s' m,
      Smooth outcomes s event ∧ dag.step s event = some s' ∧ m < n ∧ (Left dag s' m ∧ Undisturbed s') := by
    rintro s n ⟨hleft, hundisturbed⟩
    rcases smooth_of_left outcomes hleft with hreturned | ⟨level, rest, hp, -⟩ |
      ⟨event, s', hsmooth, hstep⟩
    · exact .inl hreturned
    · exact absurd ⟨level, rest, hp⟩ hundisturbed.notHeld
    · obtain ⟨m, hlt, hleft'⟩ := left_step hleft hstep hsmooth.1
      exact .inr ⟨event, s', m, hsmooth, hstep, hlt, hleft',
        undisturbed_step hundisturbed hsmooth.1 hstep⟩
  obtain ⟨es, s, hrun, outcome, hreturned⟩ :=
    Transition.exists_run_to_final hprogress .start ⟨left_start dag, undisturbed_start⟩
  have hsucceeds := succeeds_of_smooth hrun
  cases outcome with
  | ok phase => exact ⟨_, s, phase, hrun, hreturned⟩
  | error err =>
    exfalso
    rcases (ends_of_run hrun).returned _ hreturned with ⟨haborted, -⟩ | ⟨-, -, hmarked⟩
    · rcases haborted with hmissing | ⟨err', hplan⟩ | ⟨event, hevent, haborts⟩
      · exact hrow hmissing
      · obtain ⟨plan, hok, -⟩ := buildPlan_ok hdag.ids hdag.known hdag.acyclic
        simp [hok] at hplan
      · simp [aborts_of_succeeds (hsucceeds event hevent)] at haborts
    · have hfailed := hsucceeds _ (hmarked err rfl)
      cases hfailed

end DynamicDag

end Dataflow.Workflows
