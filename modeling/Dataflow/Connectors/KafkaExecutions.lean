import Dataflow.Connectors.KafkaIngestion

/-!
# Executions of a topic's ingestion

What goes on without an end: records are appended, and runs are begun again and again.

* `WithinPages`: a run is done before the page that is its last one is full.
* `Execution`, `Fair`: an infinite execution, and what is expected of the client and the workflows.
* `Fair.returns`: a partition that always has records at hand is returned by a run that succeeds.
* `Fair.advances`: the stored offset of a partition advances as long as a record after it is at
  hand.
* **`fetches_all_of_run`**: under the condition `Keeps` nothing is lost in any state reached, and
  in a fair execution every record is fetched.
* `partition_left_out`: a first run that returns records of one of two partitions.

Source: `streams.go`, `dynamic_dag.go`, `activities.go`
-/

namespace Dataflow.Connectors.Kafka

open Activities Library.Transition Model Workflows List Option

namespace Feed

variable {feed : Feed}

/-! ## Executions -/

/-- The runs begin with records of a partition at hand. -/
def Consumable (feed : Feed) (s : State) (p : ℤ) : Prop :=
  ∃ position, (p, position) ∈ feed.positions s.log
      (kafkaAssignment feed.conversions feed.config (feed.row s)) ∧
    ∃ o ∈ s.log p, position ≤ o

/-- **The run has pages enough**: its last page is not full. A run that has more after 50 pages can
only fail. -/
def WithinPages (feed : Feed) (s : State) : Event → Prop
  | .poll fetches => (feed.advance s.run fetches).hasMore = true →
      (feed.advance s.run fetches).pages < maxSourcePages
  | _ => True

/-- The run has more, and no pages left. -/
def Exhausted (s : State) : Prop :=
  ∃ run, s.run = some run ∧ run.hasMore = true ∧ maxSourcePages ≤ run.pages

/-- An execution without an end, whose steps keep the condition, and whose runs have pages
enough. -/
structure Execution (feed : Feed) where
  state : ℕ → State
  event : ℕ → Event
  start : state 0 = feed.start
  step : ∀ t, feed.step (state t) (event t) = some (state (t + 1))
  keeps : ∀ t, feed.Keeps (state t) (event t)
  pages : ∀ t, feed.WithinPages (state t) (event t)

/-- **Fairness**: runs are begun again and again, a run that is under way ends, and from some time on
runs fail only where they have no pages left; and of a partition with records at hand whenever a run
begins, some page returns records. -/
structure Execution.Fair (x : feed.Execution) : Prop where
  continues : ∀ t, ∃ u ≥ t, x.event u = .begin ∧ (x.state u).run = none
  ends : ∀ t, (x.state t).run ≠ none → ∃ u ≥ t, x.event u = .commit ∨ x.event u = .fail
  succeeds : ∃ t, ∀ u ≥ t, x.event u = .fail → Exhausted (x.state u)
  serves : ∀ p ∈ feed.partitions, ∀ t, (∀ u ≥ t, feed.Consumable (x.state u) p) →
    ∃ u ≥ t, ∃ fetches, x.event u = .poll fetches ∧
      p ∈ (allRecords fetches).map KafkaRecord.partition

/-- The run after a step. -/
def nextRun (feed : Feed) (run : Option Progress) : Event → Option Progress
  | .poll fetches => some (feed.advance run fetches)
  | .commit | .fail => none
  | .append _ _ | .begin | .drop => run

/-- What a step does to the run. -/
theorem run_of_step {s s' : State} {e : Event} (hstep : feed.step s e = some s') :
    s'.run = feed.nextRun s.run e := by
  cases e with
  | append p o | begin =>
    unfold Feed.step at hstep
    dsimp only at hstep
    split_ifs at hstep
    cases hstep
    rfl
  | poll fetches =>
    unfold Feed.step at hstep
    dsimp only at hstep
    split at hstep
    · split_ifs at hstep
      cases hstep
      rfl
    · cases hstep
  | commit =>
    obtain ⟨run, -, -, -, rfl⟩ := step_commit hstep
    rfl
  | drop | fail =>
    cases hstep
    rfl

/-- What a step does not take away. -/
theorem step_grows {s s' : State} {e : Event} (h : feed.Invariant s)
    (hstep : feed.step s e = some s') :
    (∀ p, ∀ o ∈ s.log p, o ∈ s'.log p) ∧
    (∀ origin, s.origin = some origin → s'.origin = some origin) ∧
      ∀ p ∈ feed.partitions, feed.offset (feed.row s) p ≤ feed.offset (feed.row s') p := by
  have hsame : ∀ {s' : State}, s'.log = s.log → s'.origin = s.origin → feed.row s' = feed.row s →
      (∀ p, ∀ o ∈ s.log p, o ∈ s'.log p) ∧
      (∀ origin, s.origin = some origin → s'.origin = some origin) ∧
      ∀ p ∈ feed.partitions, feed.offset (feed.row s) p ≤ feed.offset (feed.row s') p := by
    intro s' hlog horigin hrow
    rw [hlog, horigin, hrow]
    exact ⟨fun _ _ ho => ho, fun _ h => h, fun _ _ => le_refl _⟩
  cases e with
  | append p o =>
    unfold Feed.step at hstep
    dsimp only at hstep
    split_ifs at hstep with hok
    obtain rfl := some.inj hstep
    exact ⟨fun q o' ho' => mem_appended.mpr (.inl ho'), fun _ h => h, fun _ _ => le_refl _⟩
  | begin =>
    unfold Feed.step at hstep
    dsimp only at hstep
    split_ifs at hstep with hok
    obtain rfl := some.inj hstep
    refine ⟨fun _ _ ho => ho, fun origin horigin => ?_, fun _ _ => le_refl _⟩
    rw [horigin]
    rfl
  | poll fetches =>
    unfold Feed.step at hstep
    dsimp only at hstep
    split at hstep
    · split_ifs at hstep with hok
      obtain rfl := some.inj hstep
      exact hsame rfl rfl rfl
    · cases hstep
  | drop =>
    obtain rfl := some.inj hstep
    exact hsame rfl rfl rfl
  | commit =>
    obtain ⟨run, hrun, -, -, rfl⟩ := step_commit hstep
    refine ⟨fun _ _ ho => ho, fun _ h => h, fun p hp => ?_⟩
    rw [(h.offset_committed hrun).2 p hp]
    exact le_sup_left
  | fail =>
    obtain rfl := some.inj hstep
    exact hsame rfl rfl rfl

namespace Execution

variable (x : feed.Execution)

theorem invariant (t : ℕ) : feed.Invariant (x.state t) := by
  induction t with
  | zero =>
    rw [x.start]
    exact invariant_start feed
  | succ t ih => exact ih.step (x.keeps t) (x.step t)

/-- What an execution does not take away. -/
theorem grows {t u : ℕ} (h : t ≤ u) : (∀ p, ∀ o ∈ (x.state t).log p, o ∈ (x.state u).log p) ∧
    (∀ origin, (x.state t).origin = some origin → (x.state u).origin = some origin) ∧
    ∀ p ∈ feed.partitions,
      feed.offset (feed.row (x.state t)) p ≤ feed.offset (feed.row (x.state u)) p := by
  induction h with
  | refl => exact ⟨fun _ _ ho => ho, fun _ h => h, fun _ _ => le_refl _⟩
  | @step u _ ih =>
    obtain ⟨hlog, horigin, hoffset⟩ := step_grows (x.invariant u) (x.step u)
    exact ⟨fun p o ho => hlog p o (ih.1 p o ho), fun f hf => horigin f (ih.2.1 f hf),
      fun p hp => (ih.2.2 p hp).trans (hoffset p hp)⟩

/-- **No run is without pages** while it has more. -/
theorem not_exhausted (t : ℕ) : ¬ Exhausted (x.state t) := by
  induction t with
  | zero =>
    rw [x.start]
    rintro ⟨run, hrun, -⟩
    cases hrun
  | succ t ih =>
    have hrun := run_of_step (x.step t)
    have hpages := x.pages t
    rintro ⟨run, hnext, hmore, hnone⟩
    rw [hnext] at hrun
    cases hevent : x.event t with
    | append | begin | drop =>
      rw [hevent] at hrun
      exact ih ⟨run, hrun.symm, hmore, hnone⟩
    | poll fetches =>
      rw [hevent] at hrun hpages
      cases hrun
      exact absurd (hpages hmore) (not_lt.mpr hnone)
    | commit | fail =>
      rw [hevent] at hrun
      cases hrun

/-- A run that is under way has returned records of the partition. -/
def HasReturned (p : ℤ) (t : ℕ) : Prop := ∃ run, (x.state t).run = some run ∧ p ∈ run.returned

/-- **What a run has returned** it has returned until it succeeds, as long as no run fails. -/
theorem hasReturned_add {p : ℤ} {t : ℕ} (hfail : ∀ u ≥ t, x.event u ≠ .fail)
    (h : x.HasReturned p t) (n : ℕ) :
    (∃ u ≥ t, x.event u = .commit ∧ x.HasReturned p u) ∨ x.HasReturned p (t + n) := by
  induction n with
  | zero => exact .inr h
  | succ n ih =>
    rcases ih with hdone | ⟨run, hrun, hmem⟩
    · exact .inl hdone
    · have hnext := run_of_step (x.step (t + n))
      cases hevent : x.event (t + n) with
      | append | begin | drop =>
        rw [hevent] at hnext
        exact .inr ⟨run, hnext.trans hrun, hmem⟩
      | poll fetches =>
        rw [hevent, hrun] at hnext
        exact .inr ⟨_, hnext, mem_append_left _ hmem⟩
      | commit => exact .inl ⟨t + n, Nat.le_add_right t n, hevent, run, hrun, hmem⟩
      | fail => exact absurd hevent (hfail (t + n) (Nat.le_add_right t n))

/-- **A partition that always has records at hand** is returned by a run that succeeds. -/
theorem Fair.returns {x : feed.Execution} (hfair : x.Fair) {p : ℤ} (hp : p ∈ feed.partitions) (t : ℕ)
    (hconsumable : ∀ u ≥ t, feed.Consumable (x.state u) p) :
    ∃ u ≥ t, x.event u = .commit ∧ x.HasReturned p u := by
  obtain ⟨last, hlast⟩ := hfair.succeeds
  obtain ⟨u, hu, fetches, hevent, hmem⟩ := hfair.serves p hp (max t last) fun v hv =>
    hconsumable v (le_of_max_le_left hv)
  have hnofail : ∀ v ≥ u + 1, x.event v ≠ .fail := by
    intro v hv hfail
    have hafter : last ≤ v := (le_of_max_le_right hu).trans (Nat.le_of_succ_le hv)
    exact x.not_exhausted v (hlast v hafter hfail)
  have hreturned : x.HasReturned p (u + 1) := by
    have hnext := run_of_step (x.step u)
    rw [hevent] at hnext
    exact ⟨_, hnext, mem_append_right _ hmem⟩
  have hunderway : (x.state (u + 1)).run ≠ none := by
    obtain ⟨run, hrun, -⟩ := hreturned
    rw [hrun]
    exact some_ne_none run
  obtain ⟨v, hv, hends⟩ := hfair.ends (u + 1) hunderway
  obtain ⟨n, rfl⟩ := Nat.exists_eq_add_of_le hv
  have hle : t ≤ u + 1 := (le_of_max_le_left hu).trans (Nat.le_succ u)
  rcases x.hasReturned_add hnofail hreturned n with ⟨w, hw, hcommit, hw'⟩ | hstill
  · exact ⟨w, hle.trans hw, hcommit, hw'⟩
  · have hcommit := hends.resolve_right (hnofail (u + 1 + n) hv)
    exact ⟨u + 1 + n, hle.trans hv, hcommit, hstill⟩

variable {x} {p o : ℤ}

/-- Where an offset is stored, or the topic is consumed from its start, a record after it is at
hand. -/
theorem consumable {u : ℕ} (hp : p ∈ feed.partitions) (ho : o ∈ (x.state u).log p)
    (hbelow : ∀ n : ℤ, feed.offset (feed.row (x.state u)) p = (n : WithBot ℤ) → n < o)
    (hstart : kafkaOffsets feed.conversions (feed.row (x.state u)) ≠ [] ∨ feed.latest = false) :
    feed.Consumable (x.state u) p := by
  have hinv := x.invariant u
  unfold Consumable kafkaAssignment
  dsimp only
  split_ifs with hoffsets
  · obtain ⟨n, hn⟩ := WithBot.ne_bot_iff_exists.mp
      ((hinv.wf.names_iff hp).mp (hinv.named hoffsets p hp))
    have hmem := hinv.wf.mem_kafkaOffsets.mpr ⟨hp, hn.symm⟩
    refine ⟨n + 1, List.mem_map.mpr ⟨(p, n), hmem, rfl⟩, o, ho, ?_⟩
    exact Int.add_one_le_of_lt (hbelow n hn.symm)
  · have hearliest := hstart.resolve_left hoffsets
    refine ⟨feed.startOf (x.state u).log p, List.mem_map.mpr ⟨p, hp, rfl⟩, o, ho, ?_⟩
    unfold startOf
    rw [hearliest, if_neg Bool.false_ne_true]
    exact (hinv.inRange p o ho).1

/-- **The stored offset advances** as long as a record after it is at hand. -/
theorem Fair.advances (hfair : x.Fair) (hp : p ∈ feed.partitions) {u : ℕ}
    (hconsumable : ∀ v ≥ u, feed.Consumable (x.state v) p) :
    ∃ v ≥ u, ∃ n : ℤ, feed.offset (feed.row (x.state v)) p = (n : WithBot ℤ) ∧
      feed.offset (feed.row (x.state u)) p < (n : WithBot ℤ) := by
  obtain ⟨v, hv, hevent, run, hrun, hreturned⟩ := hfair.returns hp u hconsumable
  have hinv := x.invariant v
  have hstep := x.step v
  have hkeeps := x.keeps v
  rw [hevent] at hstep hkeeps
  obtain ⟨run', hrun', -, hmore, hnext⟩ := step_commit hstep
  obtain rfl := some.inj (hrun.symm.trans hrun')
  have hgood := hinv.run run hrun
  obtain ⟨n, hn⟩ := WithBot.ne_bot_iff_exists.mp
    ((hgood.wf.names_iff hp).mp ((hkeeps run hrun).2 p hreturned))
  have hahead := hgood.ahead (hgood.page_pos hmore) p hp n hn.symm
  refine ⟨v + 1, Nat.le_succ_of_le hv, n, ?_, ?_⟩
  · rw [hnext, (hinv.offset_committed hrun).2 p hp, ← hn, sup_eq_right.mpr (hn ▸ hahead.le)]
  · exact ((x.grows hv).2.2 p hp).trans_lt hahead

/-- **Every record is fetched.** -/
theorem Fair.fetched (hfair : x.Fair) (hp : p ∈ feed.partitions) {t : ℕ}
    (ho : o ∈ (x.state t).log p) (horigin : (x.state t).origin ≠ none)
    (hinitial : (x.state t).initial p ≤ o) : ∃ u ≥ t, (p, o) ∈ (x.state u).fetched := by
  by_contra hnot
  have hnever : ∀ u ≥ t, (p, o) ∉ (x.state u).fetched := fun u hu hmem => hnot ⟨u, hu, hmem⟩
  obtain ⟨origin, horigin⟩ := ne_none_iff_exists'.mp horigin
  have hlog : ∀ u ≥ t, o ∈ (x.state u).log p := fun u hu => (x.grows hu).1 p o ho
  have hinitial' : ∀ u ≥ t, (x.state u).initial p ≤ o := by
    intro u hu
    unfold State.initial at hinitial ⊢
    rw [(x.grows hu).2.1 origin horigin]
    rwa [horigin] at hinitial
  -- nothing at or beyond the record is stored
  have hbelow : ∀ u ≥ t, ∀ n : ℤ, feed.offset (feed.row (x.state u)) p = (n : WithBot ℤ) →
      n < o := by
    intro u hu n hn
    by_contra hle
    exact hnever u hu (((x.invariant u).good p hp n hn).2 o (hlog u hu) (hinitial' u hu)
      (not_lt.mp hle))
  obtain ⟨u₀, hu₀, hevent, hidle⟩ := hfair.continues t
  have hstart : kafkaOffsets feed.conversions (feed.row (x.state u₀)) ≠ [] ∨
      feed.latest = false := by
    by_contra hneither
    rw [not_or, not_not, Bool.not_eq_false] at hneither
    have hkeeps := x.keeps u₀
    rw [hevent] at hkeeps
    have hsome : (x.state u₀).origin.isSome = true := by rw [(x.grows hu₀).2.1 origin horigin]; rfl
    refine hnever u₀ hu₀ (hkeeps hneither.2 hsome ?_ p hp o (hlog u₀ hu₀) (hinitial' u₀ hu₀))
    unfold Feed.cursor
    rw [hidle]
    exact hneither.1
  have hconsumable : ∀ u ≥ u₀, feed.Consumable (x.state u) p := by
    intro u hu
    refine consumable hp (hlog u (hu₀.trans hu)) (hbelow u (hu₀.trans hu)) ?_
    refine hstart.imp_left fun hne hnil => hne ?_
    rw [(x.invariant u).wf.kafkaOffsets_eq_nil] at hnil
    rw [(x.invariant u₀).wf.kafkaOffsets_eq_nil]
    intro q hq
    exact le_bot_iff.mp (((x.grows hu).2.2 q hq).trans_eq (hnil q hq))
  have hreach : ∀ k : ℕ, ∃ u ≥ u₀, ∃ n : ℤ,
      feed.offset (feed.row (x.state u)) p = (n : WithBot ℤ) ∧ (k : ℤ) ≤ n := by
    intro k
    induction k with
    | zero =>
      obtain ⟨v, hv, n, hn, -⟩ := hfair.advances hp hconsumable
      exact ⟨v, hv, n, hn, ((x.invariant v).wf.inRange hn).1⟩
    | succ k ih =>
      obtain ⟨u, hu, m, hm, hk⟩ := ih
      obtain ⟨v, hv, n, hn, hlt⟩ := hfair.advances hp fun v hv => hconsumable v (hu.trans hv)
      rw [hm] at hlt
      refine ⟨v, hu.trans hv, n, hn, ?_⟩
      have hmn := WithBot.coe_lt_coe.mp hlt
      omega
  obtain ⟨u, hu, n, hn, hle⟩ := hreach o.toNat
  have hlt := hbelow u (hu₀.trans hu) n hn
  omega

end Execution

/-! ## Nothing is lost -/

/-- **Under the condition nothing is lost** in any state reached, and in a fair execution whose runs
have pages enough every record from the offset at which its partition was begun is fetched.

Source: `streams.go` `kafkaFetch`, `dynamic_dag.go` `runSource`, `activities.go`
`CommitSourceCursors` -/
theorem fetches_all_of_run (feed : Feed) :
    (∀ es s, Run feed.step (fun _ => feed.Keeps) feed.start es s → feed.NothingLost s) ∧
    ∀ x : feed.Execution, x.Fair → ∀ t, ∀ p ∈ feed.partitions, ∀ o ∈ (x.state t).log p,
      (x.state t).origin ≠ none → (x.state t).initial p ≤ o →
        ∃ u ≥ t, (p, o) ∈ (x.state u).fetched := by
  constructor
  · intro es s hrun
    exact (invariant_of_run hrun).nothingLost
  · intro x hfair t p hp o ho horigin hinitial
    exact hfair.fetched hp ho horigin hinitial

end Feed

/-! ## Topics with one partition and with two -/

/-- The digits of a text, as a number. -/
def readNumber (text : String) : ℤ := Nat.ofDigitChars 10 text.toList 0

/-- Numbers that are not negative are written with their digits. -/
def exampleKafka : KafkaConversions where
  sprint _ := ""
  scanFloat text := readNumber text
  parseFloat text := readNumber text
  quote text := text
  parseInt _ := readNumber
  formatInt n := n.toNat.repr

theorem readNumber_formatInt {n : ℤ} (h : 0 ≤ n) : readNumber (exampleKafka.formatInt n) = n := by
  show ((Nat.ofDigitChars 10 n.toNat.repr.toList 0 : ℕ) : ℤ) = n
  rw [Nat.toList_repr, Nat.ofDigitChars_ten_toDigits, Int.toNat_of_nonneg h]

theorem exact_exampleKafka : exampleKafka.Exact where
  partition _ h _ := readNumber_formatInt h
  offset _ h _ := readNumber_formatInt h
  float _ h _ := congrArg Int.cast (readNumber_formatInt h)

/-- A source that reads orders from the start, in pages of 1000. -/
def exampleFeed (partitions : List ℤ) (ids : ∀ p ∈ partitions, 0 ≤ p ∧ p < 2 ^ 31) : Feed where
  conversions := exampleKafka
  partitions := partitions
  exact := exact_exampleKafka
  ids := ids
  config := [("topic", .string "orders"), ("startPosition", .string "earliest")]
  ingestion := none
  tenantId := "acme"
  connectionId := "kafka"
  stored _ _ := none
  fresh := rfl

/-- A topic with one partition. -/
def oneFeed : Feed := exampleFeed [0] (by decide)

/-- A topic with two partitions. -/
def twoFeed : Feed := exampleFeed [0, 1] (by decide)

/-- A page with the first record of the first partition. -/
def firstPage : List FetchPartition := [⟨0, 1, [{ partition := 0, offset := 0 }]⟩]

namespace Feed

instance (feed : Feed) (s : State) (e : Event) : Decidable (feed.Keeps s e) :=
  match e with
  | .append _ o => inferInstanceAs (Decidable (InRange o))
  | .begin => inferInstanceAs (Decidable (_ → _ → _ → _))
  | .commit => inferInstanceAs (Decidable (∀ run ∈ s.run, _ ∧ _))
  | .poll _ | .drop | .fail => inferInstanceAs (Decidable True)

instance (feed : Feed) (s : State) (e : Event) : Decidable (feed.WithinPages s e) :=
  match e with
  | .poll _ => inferInstanceAs (Decidable (_ → _ < _))
  | .append _ _ | .begin | .drop | .commit | .fail => inferInstanceAs (Decidable True)

/-- A record is appended, and the source is read again and again. -/
def exampleEvent : ℕ → Event
  | 0 => .append 0 0
  | 1 => .begin
  | 2 => .poll firstPage
  | 3 => .commit
  | n + 4 => match n % 3 with
    | 0 => .begin
    | 1 => .poll []
    | _ => .commit

/-- The states it leads to. -/
def exampleTrace : ℕ → State := trace oneFeed.step oneFeed.start exampleEvent

theorem exampleEvent_add {n : ℕ} (hn : 4 ≤ n) : exampleEvent (n + 3) = exampleEvent n := by
  obtain ⟨m, rfl⟩ := Nat.exists_eq_add_of_le' hn
  show (match (m + 3) % 3 with | 0 => Event.begin | 1 => .poll [] | _ => .commit) = _
  rw [Nat.add_mod_right]
  rfl

theorem exampleEvent_ne_fail (n : ℕ) : exampleEvent n ≠ .fail := by
  unfold exampleEvent
  split
  case h_5 =>
    split
    all_goals simp
  all_goals simp

/-- A run that finds nothing leaves everything as it is. -/
theorem exampleTrace_seven : exampleTrace 7 = exampleTrace 4 := by
  have hfour : (exampleTrace 4).stored =
      oneFeed.start.stored.write "acme" "kafka" (oneFeed.row (exampleTrace 4)) := rfl
  have hrow : oneFeed.row (exampleTrace 7) = oneFeed.row (exampleTrace 4) := by decide +kernel
  have hstored : (exampleTrace 7).stored = (exampleTrace 4).stored := by
    calc (exampleTrace 7).stored
        = (exampleTrace 4).stored.write "acme" "kafka" (oneFeed.row (exampleTrace 7)) := rfl
      _ = (exampleTrace 4).stored := by rw [hrow, hfour, ConnectorState.write_write, ← hfour]
  have hfetched : (exampleTrace 7).fetched = (exampleTrace 4).fetched := by decide +kernel
  calc exampleTrace 7
      = { exampleTrace 4 with
          stored := (exampleTrace 7).stored, fetched := (exampleTrace 7).fetched } := rfl
    _ = exampleTrace 4 := by rw [hstored, hfetched]

theorem exampleTrace_enabled (n : ℕ) :
    (oneFeed.step (exampleTrace n) (exampleEvent n)).isSome = true ∧
      oneFeed.Keeps (exampleTrace n) (exampleEvent n) ∧
      oneFeed.WithinPages (exampleTrace n) (exampleEvent n) := by
  refine forall_trace_of_repeats (i := 4) (k := 3) (P := fun s e =>
    (oneFeed.step s e).isSome = true ∧ oneFeed.Keeps s e ∧ oneFeed.WithinPages s e) (by decide)
    (fun n hn => exampleEvent_add hn) exampleTrace_seven ?_ n
  decide +kernel

/-- An execution in which the only record is fetched by the first run. -/
def exampleExecution : oneFeed.Execution where
  state := exampleTrace
  event := exampleEvent
  start := rfl
  step t := by
    obtain ⟨s, hs⟩ := isSome_iff_exists.mp (exampleTrace_enabled t).1
    have hnext : exampleTrace (t + 1) = (oneFeed.step (exampleTrace t) (exampleEvent t)).getD
      (exampleTrace t) := rfl
    rw [hnext, hs]
    rfl
  keeps t := (exampleTrace_enabled t).2.1
  pages t := (exampleTrace_enabled t).2.2

/-- The run after the first one begins again and again. -/
theorem exampleTrace_begin (k : ℕ) :
    exampleTrace (4 + 3 * k) = exampleTrace 4 ∧ exampleEvent (4 + 3 * k) = .begin ∧
      exampleEvent (4 + 3 * k + 2) = .commit := by
  induction k with
  | zero => exact ⟨rfl, rfl, rfl⟩
  | succ k ih =>
    have hn : 4 ≤ 4 + 3 * k := Nat.le_add_right 4 _
    have hcommit : exampleEvent (4 + 3 * (k + 1) + 2) = exampleEvent (4 + 3 * k + 2) :=
      @exampleEvent_add (4 + 3 * k + 2) (by omega)
    rw [hcommit, Nat.mul_succ, ← add_assoc, exampleEvent_add hn]
    refine ⟨?_, ih.2⟩
    rw [← ih.1]
    exact trace_add (fun n hn => exampleEvent_add hn) exampleTrace_seven hn

theorem fair_exampleExecution : exampleExecution.Fair where
  continues t := by
    obtain ⟨hstate, hevent, -⟩ := exampleTrace_begin t
    refine ⟨4 + 3 * t, by omega, hevent, ?_⟩
    show (exampleTrace (4 + 3 * t)).run = none
    rw [hstate]
    rfl
  ends t _ := ⟨4 + 3 * t + 2, by omega, .inl (exampleTrace_begin t).2.2⟩
  succeeds := ⟨0, fun u _ hfail => absurd hfail (exampleEvent_ne_fail u)⟩
  serves p hp t hconsumable := by
    -- no record is at hand after the first run
    obtain ⟨position, hposition, o, ho, hle⟩ := hconsumable (4 + 3 * t) (by omega)
    have hstate : exampleExecution.state (4 + 3 * t) = exampleTrace 4 := (exampleTrace_begin t).1
    rw [hstate] at hposition ho
    have hpositions : oneFeed.positions (exampleTrace 4).log
        (kafkaAssignment oneFeed.conversions oneFeed.config (oneFeed.row (exampleTrace 4))) =
          [(0, 1)] := by decide +kernel
    rw [hpositions, mem_singleton, Prod.mk.injEq] at hposition
    obtain ⟨rfl, rfl⟩ := hposition
    have hlog : (exampleTrace 4).log 0 = [0] := rfl
    rw [hlog, mem_singleton] at ho
    omega

/-- One partition: nothing is lost, and its record is fetched. -/
theorem fetches_all_of_run_one_partition :
    (∃ es s, Run oneFeed.step (fun _ => oneFeed.Keeps) oneFeed.start es s ∧
      kafkaOffsets oneFeed.conversions (oneFeed.row s) = [(0, 0)] ∧ oneFeed.NothingLost s) ∧
    ∃ u ≥ 2, (0, 0) ∈ (exampleExecution.state u).fetched := by
  constructor
  · have hrun : ∃ s, Run oneFeed.step (fun _ => oneFeed.Keeps) oneFeed.start
        [.append 0 0, .begin, .poll firstPage, .commit] s ∧
        kafkaOffsets oneFeed.conversions (oneFeed.row s) = [(0, 0)] :=
      exists_run_of_guarded (by decide +kernel)
    obtain ⟨s, hrun, hoffsets⟩ := hrun
    exact ⟨_, s, hrun, hoffsets, (fetches_all_of_run oneFeed).1 _ s hrun⟩
  · refine (fetches_all_of_run oneFeed).2 exampleExecution fair_exampleExecution 2 0 ?_ 0 ?_ ?_ ?_
    · exact mem_singleton_self 0
    · exact mem_singleton_self 0
    · exact some_ne_none _
    · exact le_refl (0 : ℤ)

/-- What is known after the first run of the topic with two partitions. -/
def FirstRunDone (s : State) : Prop :=
  s.log 1 = [0] ∧ s.initial 1 = 0 ∧ s.run.isNone ∧ s.polling.isNone ∧ s.fetched = [(0, 0)] ∧
    twoFeed.row s = [("topic", .string "orders"), ("offsets", .object [("0", .string "0")])]

instance : DecidablePred FirstRunDone := fun _ => inferInstanceAs (Decidable (_ ∧ _))

/-- Both partitions have a record when the first run begins. It returns the one of the first
partition, and the other one is never fetched. -/
theorem partition_left_out : ∃ es s, Run twoFeed.step Any twoFeed.start es s ∧
      0 ∈ s.log 1 ∧ s.initial 1 ≤ 0 ∧ ¬ twoFeed.NothingLost s ∧
      ∀ es' s', Run twoFeed.step Any s es' s' → (1, 0) ∉ s'.fetched := by
  have hrun : ∃ s, Run twoFeed.step Any twoFeed.start
      [.append 0 0, .append 1 0, .begin, .poll firstPage, .commit] s ∧ FirstRunDone s :=
    exists_run_of_check (fun _ _ _ _ => trivial) (by decide +kernel)
  obtain ⟨s, hrun, hlog, hinitial, hidle, hpolling, hfetched, hrow⟩ := hrun
  have hoffsets : kafkaOffsets twoFeed.conversions (twoFeed.row s) = [(0, 0)] := by
    rw [hrow]
    decide +kernel
  have hleft : twoFeed.LeftOut s 1 := by
    refine ⟨?_, ?_, ?_, ?_⟩
    · rw [hrow]
      refine ⟨rfl, [("0", .string "0")], rfl, ?_⟩
      decide +kernel
    · rw [hoffsets]
      exact cons_ne_nil _ _
    · intro run hrun
      rw [isNone_iff_eq_none.mp hidle] at hrun
      cases hrun
    · intro positions hpositions
      rw [isNone_iff_eq_none.mp hpolling] at hpositions
      cases hpositions
  refine ⟨_, s, hrun, ?_, hinitial.le, ?_, ?_⟩
  · rw [hlog]
    exact mem_singleton_self 0
  · intro hnothing
    obtain ⟨n, hn⟩ := hnothing.allNamed (by rw [hoffsets]; exact cons_ne_nil _ _) 1
      (mem_cons_of_mem _ mem_cons_self)
    rw [hoffsets, mem_singleton, Prod.mk.injEq] at hn
    omega
  · intro es' s' hrun' hmem
    have hthere := (hleft.of_run (by decide +kernel) hrun').2 0 hmem
    rw [hfetched, mem_singleton, Prod.mk.injEq] at hthere
    omega

end Feed

end Dataflow.Connectors.Kafka
