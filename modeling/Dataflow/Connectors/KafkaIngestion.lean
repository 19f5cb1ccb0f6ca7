import Dataflow.Connectors.Kafka

/-!
# Ingesting a topic

A source that reads a topic in runs of several pages. Records are appended to the partitions all the
time. The first page of a run starts from the stored offsets, every other page from the cursor of
the page before it, and the cursor of the last page is stored when the run succeeds.

* `Feed`, `State`, `Event`, `step`: the source, the topic, the stored offsets and the run under
  way. `Polled` is what a client gives.
* `NothingLost`: no partition is left out once offsets are stored, and no stored offset is beyond a
  record that has not been fetched.
* `Keeps`: a condition on the steps: a cursor that replaces the absence of offsets names all
  partitions, one that is stored names every partition the run has returned, and nothing is
  unfetched when consumption starts from the end again.
* **`invariant_of_run`**, `Invariant.nothingLost`: under this condition nothing is lost in any
  state reached.
* **`LeftOut.of_run`**: a partition that the stored offsets do not name is never consumed again.

Source: `streams.go`, `dynamic_dag.go`, `activities.go`
-/

namespace Dataflow.Connectors.Kafka

open Activities Library.Transition Model Workflows List Function Option

/-! ## The system -/

/-- A Kafka source, and the table of cursors, which has none for it yet. -/
structure Feed extends Topic where
  config : JsonMap
  ingestion : Option IngestionConfig
  tenantId : String
  connectionId : String
  stored : ConnectorState
  fresh : stored tenantId connectionId = none

/-- A run under way: the cursor of its last page, whether there is more, the number of pages, and
the partitions it has returned records of. -/
structure Progress where
  checkpoint : JsonMap
  hasMore : Bool
  pages : ℕ
  returned : List ℤ

/-- The offsets of the records of each partition, the table of cursors, the run, what is being
consumed, where consumption began at first, and the records that have been fetched. -/
structure State where
  log : ℤ → List ℤ
  stored : ConnectorState
  run : Option Progress
  polling : Option (List (ℤ × ℤ))
  origin : Option (ℤ → ℤ)
  fetched : List (ℤ × ℤ)

/-- What may happen. -/
inductive Event where
  /-- A record is appended to a partition. -/
  | append (partition offset : ℤ)
  /-- A page is begun, possibly the first one of a run. -/
  | begin
  /-- The page is fetched. -/
  | poll (fetches : List FetchPartition)
  /-- The page is given up, to be begun again. -/
  | drop
  /-- The run succeeds, and its cursor is stored. -/
  | commit
  /-- The run fails. -/
  | fail

/-- The offset after the last one. -/
def endOf (offsets : List ℤ) : ℤ :=
  match offsets.getLast? with
  | some last => last + 1
  | none => 0

variable {offsets : List ℤ}

theorem endOf_nonneg (hpos : ∀ o ∈ offsets, 0 ≤ o) : 0 ≤ endOf offsets := by
  unfold endOf
  cases hlast : offsets.getLast? with
  | none => exact le_refl _
  | some last => exact (hpos last (mem_of_getLast? hlast)).trans (Int.lt_succ last).le

/-- The offset at which a partition was begun. -/
def State.initial (s : State) (p : ℤ) : ℤ := s.origin.elim 0 (· p)

/-- The records of a partition up to an offset have been fetched, from where it was begun. -/
def State.FetchedUpTo (s : State) (p n : ℤ) : Prop :=
  ∀ o ∈ s.log p, s.initial p ≤ o → o ≤ n → (p, o) ∈ s.fetched

namespace Feed

variable (feed : Feed)

/-- The topic is consumed from its end at first. -/
def latest : Bool := decide (feed.config.get "startPosition" = .string "latest")

/-- The number of records of a page. -/
def page : ℤ := kafkaPage feed.conversions feed.config feed.ingestion

/-- The row of the source. -/
def row (s : State) : JsonMap := (s.stored feed.tenantId feed.connectionId).getD []

/-- The cursor of the next page. Source: `activities.go` `FetchSourcePage` -/
def cursor (s : State) : JsonMap :=
  match s.run with
  | some run => run.checkpoint
  | none => feed.row s

/-- Where a partition is consumed from when no offset is named. -/
def startOf (log : ℤ → List ℤ) (p : ℤ) : ℤ := if feed.latest then endOf (log p) else 0

/-- The partitions that are consumed, each with its position. -/
def positions (log : ℤ → List ℤ) : Assignment → List (ℤ × ℤ)
  | .partitions positions => positions
  | .topic _ => feed.partitions.map fun p => (p, feed.startOf log p)

/-- The offset of a partition is one that is consumed. -/
def consumed (positions : List (ℤ × ℤ)) (p o : ℤ) : Bool :=
  positions.any fun position => position.1 = p && position.2 ≤ o

/-- **What a client gives**: of each partition that is consumed the next records, and not more
records than it is asked for. -/
def Polled (log : ℤ → List ℤ) (positions : List (ℤ × ℤ)) (records : List KafkaRecord) : Prop :=
  (∀ record ∈ records, record.partition ∈ feed.partitions) ∧
  (∀ p ∈ feed.partitions,
    ((records.filter fun record => record.partition = p).map KafkaRecord.offset) <+:
      (log p).filter (consumed positions p)) ∧
  (0 < feed.page → (records.length : ℤ) ≤ feed.page)

instance (log : ℤ → List ℤ) (positions : List (ℤ × ℤ)) (records : List KafkaRecord) :
    Decidable (feed.Polled log positions records) := inferInstanceAs (Decidable (_ ∧ _ ∧ _))

/-- The run after a page. -/
def advance (run : Option Progress) (fetches : List FetchPartition) : Progress :=
  let result := kafkaResult feed.conversions feed.config feed.ingestion fetches
  { checkpoint := result.nextCursor
    hasMore := result.hasMore
    pages := (run.elim 0 Progress.pages) + 1
    returned := run.elim [] Progress.returned ++ (allRecords fetches).map KafkaRecord.partition }

/-- Before the first record and the first page. -/
def start : State where
  log _ := []
  stored := feed.stored
  run := none
  polling := none
  origin := none
  fetched := []

/-- One step.
Source: `streams.go` `kafkaFetch`, `dynamic_dag.go` `runSource`, `activities.go`
`CommitSourceCursors` -/
def step (s : State) : Event → Option State
  | .append p o =>
    if p ∈ feed.partitions ∧ ∀ o' ∈ s.log p, o' < o then
      some { s with log := update s.log p (s.log p ++ [o]) }
    else none
  | .begin =>
    if s.polling = none ∧ ∀ run ∈ s.run, run.hasMore ∧ run.pages < maxSourcePages then
      some { s with
        polling := some (feed.positions s.log
          (kafkaAssignment feed.conversions feed.config (feed.cursor s)))
        origin := some (s.origin.getD (feed.startOf s.log)) }
    else none
  | .poll fetches =>
    match s.polling with
    | some positions =>
      if feed.Polled s.log positions (allRecords fetches) then
        some { s with
          run := some (feed.advance s.run fetches)
          polling := none
          fetched := s.fetched ++
            (allRecords fetches).map fun record => (record.partition, record.offset) }
      else none
    | none => none
  | .drop => some { s with polling := none }
  | .commit =>
    match s.run, s.polling with
    | some run, none =>
      if run.hasMore then none
      else some { s with
        stored := commitSourceCursors feed.conversions.toFormatting feed.tenantId
          [⟨feed.connectionId, run.checkpoint⟩] s.stored
        run := none }
    | _, _ => none
  | .fail => some { s with run := none, polling := none }

/-! ## Nothing is lost -/

/-- The offset that a cursor names for a partition. -/
def offset (cursor : JsonMap) (p : ℤ) : WithBot ℤ :=
  feed.offsetAt ((cursor.get "offsets").asObject?.getD []) p

/-- **Nothing is lost**: once offsets are stored every partition has one, and the records of a
partition are fetched up to the offset that is stored. -/
structure NothingLost (s : State) : Prop where
  allNamed : kafkaOffsets feed.conversions (feed.row s) ≠ [] →
    ∀ p ∈ feed.partitions, ∃ n, (p, n) ∈ kafkaOffsets feed.conversions (feed.row s)
  noneBeyond : ∀ p n, (p, n) ∈ kafkaOffsets feed.conversions (feed.row s) → s.FetchedUpTo p n

/-- The cursor names a partition. -/
def Names (cursor : JsonMap) (p : ℤ) : Prop :=
  p ∈ (kafkaOffsets feed.conversions cursor).map Prod.fst

instance (cursor : JsonMap) (p : ℤ) : Decidable (feed.Names cursor p) :=
  inferInstanceAs (Decidable (_ ∈ _))

/-- Everything that has been appended since the beginning has been fetched. -/
def AllFetched (s : State) : Prop :=
  ∀ p ∈ feed.partitions, ∀ o ∈ s.log p, s.initial p ≤ o → (p, o) ∈ s.fetched

instance (s : State) : Decidable (feed.AllFetched s) :=
  inferInstanceAs (Decidable (∀ p ∈ feed.partitions, ∀ o ∈ s.log p, _ → _))

/-- **A condition on the steps.** Offsets fit into a `float64`. A page that starts from the end of
the topic, after the first one, finds nothing unfetched. When no offsets are stored, a cursor that
is stored names every partition, or none; and a cursor that is stored names every partition that the
run has returned records of. -/
def Keeps (s : State) : Event → Prop
  | .append _ o => InRange o
  | .begin => feed.latest = true → s.origin.isSome = true →
      kafkaOffsets feed.conversions (feed.cursor s) = [] → feed.AllFetched s
  | .commit => ∀ run ∈ s.run, (kafkaOffsets feed.conversions (feed.row s) = [] →
        kafkaOffsets feed.conversions run.checkpoint ≠ [] →
          ∀ p ∈ feed.partitions, feed.Names run.checkpoint p) ∧
      ∀ p ∈ run.returned, feed.Names run.checkpoint p
  | .poll _ | .drop | .fail => True

variable {feed}

/-! ## Cursors -/

/-- A cursor of the source: it is empty, or has offsets for the topic. -/
structure Wf (feed : Feed) (cursor : JsonMap) : Prop where
  encoded : feed.Encoded ((cursor.get "offsets").asObject?.getD [])
  topic : cursor = [] ∨ stringValue feed.conversions.toFormatting (cursor.get "topic") =
    stringValue feed.conversions.toFormatting (feed.config.get "topic")

theorem wf_nil : feed.Wf [] := ⟨Topic.encoded_nil, .inl rfl⟩

/-- The offsets as they are read. -/
theorem Wf.mem_kafkaOffsets {cursor : JsonMap} (h : feed.Wf cursor) {p n : ℤ} :
    (p, n) ∈ kafkaOffsets feed.conversions cursor ↔
      p ∈ feed.partitions ∧ feed.offset cursor p = (n : WithBot ℤ) := by
  cases hoffsets : (cursor.get "offsets").asObject? with
  | none =>
    unfold kafkaOffsets offset
    rw [hoffsets]
    constructor
    · intro hmem
      cases hmem
    · rintro ⟨-, hbot⟩
      cases hbot
  | some offsets =>
    have hencoded := h.encoded
    rw [hoffsets, getD_some] at hencoded
    rw [hencoded.mem_kafkaOffsets hoffsets]
    unfold offset
    rw [hoffsets]
    rfl

/-- A partition is named iff it has an offset. -/
theorem Wf.names_iff {cursor : JsonMap} (h : feed.Wf cursor) {p : ℤ} (hp : p ∈ feed.partitions) :
    feed.Names cursor p ↔ feed.offset cursor p ≠ ⊥ := by
  unfold Names
  rw [List.mem_map, WithBot.ne_bot_iff_exists]
  constructor
  · rintro ⟨⟨q, n⟩, hmem, rfl⟩
    exact ⟨n, (h.mem_kafkaOffsets.mp hmem).2.symm⟩
  · rintro ⟨n, hn⟩
    exact ⟨(p, n), h.mem_kafkaOffsets.mpr ⟨hp, hn.symm⟩, rfl⟩

/-- Offsets are in range. -/
theorem Wf.inRange {cursor : JsonMap} (h : feed.Wf cursor) {p n : ℤ}
    (hn : feed.offset cursor p = (n : WithBot ℤ)) : InRange n := (h.encoded.mem_iff.mp hn).2

/-- A cursor without offsets. -/
theorem Wf.kafkaOffsets_eq_nil {cursor : JsonMap} (h : feed.Wf cursor) :
    kafkaOffsets feed.conversions cursor =
      [] ↔ ∀ p ∈ feed.partitions, feed.offset cursor p = ⊥ := by
  constructor
  · intro hnil p hp
    by_contra hne
    obtain ⟨n, hn⟩ := WithBot.ne_bot_iff_exists.mp hne
    have hmem := h.mem_kafkaOffsets.mpr ⟨hp, hn.symm⟩
    simp [hnil] at hmem
  · intro hbot
    apply eq_nil_iff_forall_not_mem.mpr
    rintro ⟨p, n⟩ hmem
    obtain ⟨hp, hn⟩ := h.mem_kafkaOffsets.mp hmem
    simp [hbot p hp] at hn

variable {formatting : Formatting}

/-- What a commit makes of a checkpoint with offsets. -/
theorem get_nextCursor {existing : Option JsonMap}
    {checkpoint offsets : JsonMap}
    (hoffsets : (checkpoint.get "offsets").asObject? = some offsets) :
    ((nextCursor formatting existing checkpoint).get "offsets").asObject? =
        some (offsets.foldl (mergeOffset formatting)
          (existingOffsets formatting (existing.getD []) checkpoint)) ∧
      (nextCursor formatting existing checkpoint).get "topic" = checkpoint.get "topic" := by
  unfold Activities.nextCursor
  rw [hoffsets]
  constructor
  · rw [JsonMap.get, JsonMap.lookup_set, if_pos rfl]
    rfl
  · rw [JsonMap.get, JsonMap.lookup_set, if_neg (by decide), JsonMap.get]

/-- **The cursor that a commit stores.** -/
theorem Wf.nextCursor {row checkpoint offsets : JsonMap} {existing : Option JsonMap}
    (hexisting : existing.getD [] = row) (hrow : feed.Wf row) (hcheckpoint : feed.Wf checkpoint)
    (hoffsets : (checkpoint.get "offsets").asObject? = some offsets) :
    feed.Wf (nextCursor feed.conversions.toFormatting existing checkpoint) ∧ ∀ p ∈ feed.partitions,
        feed.offset (Activities.nextCursor feed.conversions.toFormatting existing checkpoint) p =
          feed.offset row p ⊔ feed.offset checkpoint p := by
  have htopic := hcheckpoint.topic.resolve_left fun hnil => by
    rw [hnil] at hoffsets
    cases hoffsets
  have hfound : existingOffsets feed.conversions.toFormatting row checkpoint =
      (row.get "offsets").asObject?.getD [] := by
    unfold existingOffsets
    rcases hrow.topic with hnil | hsame
    · rw [hnil]
      exact ite_self []
    · rw [if_pos (hsame.trans htopic.symm)]
  have hincoming := hcheckpoint.encoded
  rw [hoffsets, getD_some] at hincoming
  obtain ⟨hmerged, hmergedAt⟩ := hrow.encoded.merge hincoming
  rw [← hfound] at hmerged hmergedAt
  have hget := fun existing => @get_nextCursor feed.conversions.toFormatting existing _ _ hoffsets
  obtain ⟨hread, hsame⟩ := hget existing
  rw [hexisting] at hread
  refine ⟨⟨?_, .inr (hsame ▸ htopic)⟩, fun p hp => ?_⟩
  · rw [hread]
    exact hmerged
  · unfold offset
    rw [hread, hoffsets, getD_some, getD_some, hmergedAt p hp, hfound]

/-- The cursor of a page. -/
theorem wf_kafkaNext {records : List KafkaRecord} (h : feed.Contains records) :
    feed.Wf (kafkaNext feed.conversions
        (stringValue feed.conversions.toFormatting (feed.config.get "topic")) records) ∧
      ∀ p ∈ feed.partitions, feed.offset (kafkaNext feed.conversions
        (stringValue feed.conversions.toFormatting (feed.config.get "topic")) records) p =
          Topic.lastOffset p records := by
  obtain ⟨hencoded, hoffsets⟩ := h.offsets
  exact ⟨⟨hencoded, .inr rfl⟩, hoffsets⟩

/-! ## The invariant -/

/-- The records of every partition are fetched up to the offset that is named, which is one of the
partition's. -/
def Good (feed : Feed) (s : State) (cursor : JsonMap) : Prop :=
  ∀ p ∈ feed.partitions, ∀ n : ℤ, feed.offset cursor p = (n : WithBot ℤ) →
    n ∈ s.log p ∧ s.FetchedUpTo p n

/-- A run: its cursor is ahead of the stored one wherever it names a partition. A page of a positive
size that has more has records. -/
structure RunGood (feed : Feed) (s : State) (run : Progress) : Prop where
  wf : feed.Wf run.checkpoint
  offsets : ∃ offsets, (run.checkpoint.get "offsets").asObject? = some offsets
  good : feed.Good s run.checkpoint
  ahead : 0 < feed.page → ∀ p ∈ feed.partitions, ∀ n : ℤ,
    feed.offset run.checkpoint p = (n : WithBot ℤ) → feed.offset (feed.row s) p < (n : WithBot ℤ)
  named : 0 < feed.page → run.hasMore = true → kafkaOffsets feed.conversions run.checkpoint ≠ []
  page_pos : run.hasMore = false → 0 < feed.page
  returned : ∀ p ∈ run.returned, p ∈ feed.partitions

/-- A page under way: the records before a position are fetched, and those that are appended are
after it. -/
structure PositionGood (feed : Feed) (s : State) (p position : ℤ) : Prop where
  mem : p ∈ feed.partitions
  le_end : position ≤ endOf (s.log p)
  fetched : ∀ o ∈ s.log p, s.initial p ≤ o → o < position → (p, o) ∈ s.fetched
  ahead : 0 < feed.page → feed.offset (feed.row s) p < (position : WithBot ℤ)

/-- **The invariant of the system.** -/
structure Invariant (feed : Feed) (s : State) : Prop where
  sorted : ∀ p, (s.log p).Pairwise (· < ·)
  inRange : ∀ p, ∀ o ∈ s.log p, InRange o
  wf : feed.Wf (feed.row s)
  good : feed.Good s (feed.row s)
  run : ∀ run ∈ s.run, feed.RunGood s run
  polling : ∀ positions ∈ s.polling, ∀ p position, (p, position) ∈ positions →
    feed.PositionGood s p position
  origin : s.origin = none → kafkaOffsets feed.conversions (feed.row s) = [] ∧ s.run = none ∧
    s.polling = none
  named : kafkaOffsets feed.conversions (feed.row s) ≠ [] →
    ∀ p ∈ feed.partitions, feed.Names (feed.row s) p

theorem invariant_start (feed : Feed) : feed.Invariant feed.start := by
  have hrow : feed.row feed.start = [] := by
    show (feed.stored feed.tenantId feed.connectionId).getD [] = []
    rw [feed.fresh]
    rfl
  constructor
  · exact fun p => List.Pairwise.nil
  · exact fun p o ho => absurd ho not_mem_nil
  · rw [hrow]
    exact wf_nil
  · intro p _ n hn
    rw [hrow] at hn
    cases hn
  · intro run hrun
    cases hrun
  · intro positions hpositions
    cases hpositions
  · rw [hrow]
    exact fun _ => ⟨rfl, rfl, rfl⟩
  · rw [hrow]
    exact fun hne => absurd rfl hne

/-- What the invariant says. -/
theorem Invariant.nothingLost {s : State} (h : feed.Invariant s) : feed.NothingLost s where
  allNamed hne p hp := by
    obtain ⟨n, hn⟩ := WithBot.ne_bot_iff_exists.mp ((h.wf.names_iff hp).mp (h.named hne p hp))
    exact ⟨n, h.wf.mem_kafkaOffsets.mpr ⟨hp, hn.symm⟩⟩
  noneBeyond p n hmem := by
    obtain ⟨hp, hn⟩ := h.wf.mem_kafkaOffsets.mp hmem
    exact (h.good p hp n hn).2

/-! ## Steps -/

/-- A record that comes after all others comes at the end. -/
theorem endOf_le {o : ℤ} (h : ∀ o' ∈ offsets, o' < o) (hpos : 0 ≤ o) : endOf offsets ≤ o := by
  unfold endOf
  cases hlast : offsets.getLast? with
  | none => exact hpos
  | some last => exact h last (mem_of_getLast? hlast)

/-- The end is after every record. -/
theorem lt_endOf (hsorted : offsets.Pairwise (· < ·)) {o : ℤ}
    (ho : o ∈ offsets) : o < endOf offsets := by
  obtain ⟨init, last, rfl⟩ := eq_nil_or_concat' offsets |>.resolve_left
    (ne_nil_of_mem ho)
  unfold endOf
  rw [getLast?_append, getLast?_singleton]
  show o < last + 1
  rw [List.pairwise_append] at hsorted
  rcases mem_append.mp ho with ho | ho
  · exact (hsorted.2.2 o ho last mem_cons_self).trans (Int.lt_succ last)
  · rw [mem_singleton.mp ho]
    exact Int.lt_succ last

section append

variable {s : State} {p o : ℤ}

/-- The topic with one more record. -/
def appended (s : State) (p o : ℤ) : State :=
  { s with log := update s.log p (s.log p ++ [o]) }

/-- The records of a partition after one is appended. -/
theorem log_update (log : ℤ → List ℤ) (p o q : ℤ) :
    update log p (log p ++ [o]) q = if q = p then log q ++ [o] else log q := by
  rw [update_apply]
  split_ifs with hqp
  · rw [hqp]
  · rfl

theorem log_appended (q : ℤ) :
    (appended s p o).log q = if q = p then s.log q ++ [o] else s.log q := log_update s.log p o q

/-- Offsets still increase when a greater one is appended. -/
theorem pairwise_append {o : ℤ} (h : offsets.Pairwise (· < ·))
    (hnew : ∀ o' ∈ offsets, o' < o) : (offsets ++ [o]).Pairwise (· < ·) := by
  rw [List.pairwise_append]
  refine ⟨h, pairwise_singleton _ _, ?_⟩
  intro o' ho' o'' ho''
  rw [mem_singleton.mp ho'']
  exact hnew o' ho'

theorem mem_appended {q o' : ℤ} : o' ∈ (appended s p o).log q ↔ o' ∈ s.log q ∨ q = p ∧ o' = o := by
  rw [log_appended]
  split_ifs with hqp
  · rw [mem_append, mem_singleton, and_iff_right hqp]
  · rw [or_iff_left fun h => hqp h.1]

/-- What is fetched up to an offset is so after a record is appended. -/
theorem Good.append {cursor : JsonMap} (h : feed.Good s cursor) (hnew : ∀ o' ∈ s.log p, o' < o) :
    feed.Good (appended s p o) cursor := by
  intro q hq n hn
  obtain ⟨hmem, hfetched⟩ := h q hq n hn
  refine ⟨mem_appended.mpr (.inl hmem), ?_⟩
  intro o' ho' hinitial hle
  rcases mem_appended.mp ho' with ho' | ⟨rfl, rfl⟩
  · exact hfetched o' ho' hinitial hle
  · exact absurd hle (not_le.mpr (hnew n hmem))

/-- **A record is appended.** -/
theorem Invariant.append (h : feed.Invariant s) (ho : InRange o) (hnew : ∀ o' ∈ s.log p, o' < o) :
    feed.Invariant (appended s p o) where
  sorted q := by
    rw [log_appended]
    split_ifs with hqp
    · exact pairwise_append (h.sorted q) (hqp ▸ hnew)
    · exact h.sorted q
  inRange q o' ho' := by
    rcases mem_appended.mp ho' with ho' | ⟨-, rfl⟩
    · exact h.inRange q o' ho'
    · exact ho
  wf := h.wf
  good := h.good.append hnew
  run run hrun := by
    have hgood := h.run run hrun
    exact ⟨hgood.wf, hgood.offsets, hgood.good.append hnew, hgood.ahead, hgood.named, hgood.page_pos,
      hgood.returned⟩
  polling positions hpositions q position hmem := by
    have hgood := h.polling positions hpositions q position hmem
    refine ⟨hgood.mem, ?_, ?_, hgood.ahead⟩
    · rw [log_appended]
      split_ifs with hqp
      · refine (hgood.le_end.trans (endOf_le (hqp ▸ hnew) ho.1)).trans ?_
        unfold endOf
        rw [getLast?_append, getLast?_singleton]
        exact (Int.lt_succ o).le
      · exact hgood.le_end
    · intro o' ho' hinitial hlt
      rcases mem_appended.mp ho' with ho' | ⟨rfl, rfl⟩
      · exact hgood.fetched o' ho' hinitial hlt
      · exact absurd (hgood.le_end.trans (endOf_le hnew ho.1)) (not_le.mpr hlt)
  origin := h.origin
  named := h.named

end append

section begin

variable {s : State}

/-- The state in which a page is begun. -/
def begun (feed : Feed) (s : State) : State :=
  { s with
    polling := some (feed.positions s.log
      (kafkaAssignment feed.conversions feed.config (feed.cursor s)))
    origin := some (s.origin.getD (feed.startOf s.log)) }

/-- The beginning does not change. -/
theorem initial_begun (h : s.origin ≠ none) (p : ℤ) : (feed.begun s).initial p = s.initial p := by
  obtain ⟨origin, horigin⟩ := ne_none_iff_exists'.mp h
  show (s.origin.getD (feed.startOf s.log)) p = s.origin.elim 0 (· p)
  rw [horigin]
  rfl

/-- What is fetched up to an offset is so when a page is begun. -/
theorem Good.begin {cursor : JsonMap} (h : feed.Good s cursor)
    (hnamed : ∀ p ∈ feed.partitions, feed.offset cursor p ≠ ⊥ → s.origin ≠ none) :
    feed.Good (feed.begun s) cursor := by
  intro p hp n hn
  obtain ⟨hmem, hfetched⟩ := h p hp n hn
  refine ⟨hmem, fun o ho hinitial hle => hfetched o ho ?_ hle⟩
  have horigin := hnamed p hp (by rw [hn]; exact WithBot.coe_ne_bot)
  rwa [initial_begun horigin] at hinitial

/-- The cursor of the next page. -/
theorem Invariant.cursor (h : feed.Invariant s) : feed.Wf (feed.cursor s) ∧
    feed.Good s (feed.cursor s) := by
  unfold Feed.cursor
  cases hrun : s.run with
  | none => exact ⟨h.wf, h.good⟩
  | some run => exact ⟨(h.run run hrun).wf, (h.run run hrun).good⟩

/-- A position after an offset that the cursor names. -/
theorem Invariant.position_of_named (h : feed.Invariant s) {p n : ℤ} (hp : p ∈ feed.partitions)
    (hn : feed.offset (feed.cursor s) p = (n : WithBot ℤ)) :
    feed.PositionGood (feed.begun s) p (n + 1) := by
  obtain ⟨hmem, hfetched⟩ := h.cursor.2 p hp n hn
  have hne : feed.offset (feed.cursor s) p ≠ ⊥ := by
    rw [hn]
    exact WithBot.coe_ne_bot
  have horigin : s.origin ≠ none := by
    intro hnone
    obtain ⟨hnil, hrun, -⟩ := h.origin hnone
    unfold Feed.cursor at hne
    rw [hrun] at hne
    exact hne (h.wf.kafkaOffsets_eq_nil.mp hnil p hp)
  refine ⟨hp, lt_endOf (h.sorted p) hmem, ?_, ?_⟩
  · intro o ho hinitial hlt
    rw [initial_begun horigin] at hinitial
    exact hfetched o ho hinitial (Int.lt_add_one_iff.mp hlt)
  · intro hpage
    have hnext : (n : WithBot ℤ) < ((n + 1 : ℤ) : WithBot ℤ) :=
      WithBot.coe_lt_coe.mpr (Int.lt_succ n)
    show feed.offset (feed.row s) p < _
    cases hrun : s.run with
    | none =>
      unfold Feed.cursor at hn
      rw [hrun] at hn
      rw [hn]
      exact hnext
    | some run =>
      unfold Feed.cursor at hn
      rw [hrun] at hn
      exact ((h.run run hrun).ahead hpage p hp n hn).trans hnext

/-- A position at the start or the end of the topic. -/
theorem Invariant.position_of_topic (h : feed.Invariant s) (hkeeps : feed.Keeps s .begin)
    (hmore : ∀ run ∈ s.run, run.hasMore = true)
    (hnil : kafkaOffsets feed.conversions (feed.cursor s) = []) {p : ℤ} (hp : p ∈ feed.partitions) :
    feed.PositionGood (feed.begun s) p (feed.startOf s.log p) := by
  refine ⟨hp, ?_, ?_, ?_⟩
  · show feed.startOf s.log p ≤ endOf (s.log p)
    unfold startOf
    split_ifs with hlatest
    · exact le_refl _
    · exact endOf_nonneg fun o ho => (h.inRange p o ho).1
  · intro o ho hinitial hlt
    by_cases horigin : s.origin = none
    · have hstart : (feed.begun s).initial p = feed.startOf s.log p := by
        show (s.origin.getD (feed.startOf s.log)) p = _
        rw [horigin]
        rfl
      rw [hstart] at hinitial
      exact absurd hinitial (not_le.mpr hlt)
    · rw [initial_begun horigin] at hinitial
      unfold startOf at hlt
      split_ifs at hlt with hlatest
      · exact hkeeps hlatest (isSome_iff_ne_none.mpr horigin) hnil p hp o ho hinitial
      · exact absurd (h.inRange p o ho).1 (not_le.mpr hlt)
  · intro hpage
    show feed.offset (feed.row s) p < _
    cases hrun : s.run with
    | none =>
      unfold Feed.cursor at hnil
      rw [hrun] at hnil
      rw [h.wf.kafkaOffsets_eq_nil.mp hnil p hp]
      exact WithBot.bot_lt_coe _
    | some run =>
      unfold Feed.cursor at hnil
      rw [hrun] at hnil
      exact absurd hnil ((h.run run hrun).named hpage (hmore run hrun))

/-- **A page is begun.** -/
theorem Invariant.begin (h : feed.Invariant s) (hkeeps : feed.Keeps s .begin)
    (hmore : ∀ run ∈ s.run, run.hasMore = true) : feed.Invariant (feed.begun s) where
  sorted := h.sorted
  inRange := h.inRange
  wf := h.wf
  good := by
    refine h.good.begin ?_
    intro p hp hne hnone
    exact hne (h.wf.kafkaOffsets_eq_nil.mp (h.origin hnone).1 p hp)
  run run hrun := by
    have hgood := h.run run hrun
    refine ⟨hgood.wf, hgood.offsets, hgood.good.begin ?_, hgood.ahead, hgood.named, hgood.page_pos,
      hgood.returned⟩
    intro p hp _ hnone
    have hrun' : s.run = some run := hrun
    rw [(h.origin hnone).2.1] at hrun'
    cases hrun'
  polling positions hpositions p position hmem := by
    obtain rfl := some.inj hpositions
    unfold kafkaAssignment at hmem
    dsimp only at hmem
    split_ifs at hmem with hoffsets
    · obtain ⟨⟨q, n⟩, hentry, heq⟩ := List.mem_map.mp hmem
      obtain ⟨rfl, rfl⟩ := Prod.mk.inj heq
      obtain ⟨hq, hn⟩ := h.cursor.1.mem_kafkaOffsets.mp hentry
      exact h.position_of_named hq hn
    · obtain ⟨q, hq, heq⟩ := List.mem_map.mp hmem
      obtain ⟨rfl, rfl⟩ := Prod.mk.inj heq
      exact h.position_of_topic hkeeps hmore (not_not.mp hoffsets) hq
  origin hnone := by cases hnone
  named := h.named

end begin

section poll

variable {s : State} {positions : List (ℤ × ℤ)} {fetches : List FetchPartition}
  {records : List KafkaRecord}

/-- The state after a page. -/
def polled (feed : Feed) (s : State) (fetches : List FetchPartition) : State :=
  { s with
    run := some (feed.advance s.run fetches)
    polling := none
    fetched := s.fetched ++
      (allRecords fetches).map fun record => (record.partition, record.offset) }

/-- What is fetched up to an offset is so after a page. -/
theorem Good.poll {cursor : JsonMap} (h : feed.Good s cursor) :
    feed.Good (feed.polled s fetches) cursor := by
  intro p hp n hn
  obtain ⟨hmem, hfetched⟩ := h p hp n hn
  exact ⟨hmem, fun o ho hinitial hle => mem_append_left _ (hfetched o ho hinitial hle)⟩

/-- In a sorted list a beginning has everything up to its elements. -/
theorem mem_of_prefix {l l' : List ℤ} (h : l <+: l') (hsorted : l'.Pairwise (· < ·)) {n o : ℤ}
    (hn : n ∈ l) (ho : o ∈ l') (hle : o ≤ n) : o ∈ l := by
  obtain ⟨rest, rfl⟩ := h
  rcases mem_append.mp ho with ho | ho
  · exact ho
  · exact absurd hle (not_le.mpr ((List.pairwise_append.mp hsorted).2.2 n hn o ho))

/-- The records of a page, partition by partition. -/
theorem mem_offsets_iff {p o : ℤ} :
    o ∈ (records.filter fun record => record.partition = p).map KafkaRecord.offset ↔
      ∃ record ∈ records, record.partition = p ∧ record.offset = o := by
  rw [List.mem_map]
  constructor
  · rintro ⟨record, hrecord, rfl⟩
    obtain ⟨hmem, hp⟩ := mem_filter.mp hrecord
    exact ⟨record, hmem, of_decide_eq_true hp, rfl⟩
  · rintro ⟨record, hmem, hp, rfl⟩
    exact ⟨record, mem_filter.mpr ⟨hmem, decide_eq_true hp⟩, rfl⟩

/-- The records of a page are records of the topic. -/
theorem Polled.mem_log {log : ℤ → List ℤ}
    (h : feed.Polled log positions records) {record : KafkaRecord} (hrecord : record ∈ records) :
    record.partition ∈ feed.partitions ∧
      record.offset ∈ (log record.partition).filter (consumed positions record.partition) := by
  have hp := h.1 record hrecord
  exact ⟨hp, (h.2.1 _ hp).subset (mem_offsets_iff.mpr ⟨record, hrecord, rfl, rfl⟩)⟩

theorem Polled.contains (hinv : feed.Invariant s)
    (h : feed.Polled s.log positions records) : feed.Contains records := by
  intro record hrecord
  obtain ⟨hp, hmem⟩ := h.mem_log hrecord
  exact ⟨hp, hinv.inRange _ _ (mem_filter.mp hmem).1⟩

/-- The last offset of a partition is one of its records'. -/
theorem exists_of_lastOffset {p n : ℤ} (h : Topic.lastOffset p records = (n : WithBot ℤ)) :
    n ∈ (records.filter fun record => record.partition = p).map KafkaRecord.offset := by
  unfold Topic.lastOffset at h
  split at h
  · rename_i last hlast
    rw [← WithBot.coe_inj.mp h]
    exact mem_of_getLast? hlast
  · cases h

/-- A partition with a record has a last offset. -/
theorem lastOffset_ne_bot {record : KafkaRecord}
    (h : record ∈ records) : Topic.lastOffset record.partition records ≠ ⊥ := by
  have hne : ((records.filter fun other => other.partition = record.partition).map
      KafkaRecord.offset).getLast? ≠ none := by
    intro hnone
    have hmem : record.offset ∈ (records.filter fun other =>
        other.partition = record.partition).map KafkaRecord.offset :=
      mem_offsets_iff.mpr ⟨record, h, rfl, rfl⟩
    simp [getLast?_eq_none_iff.mp hnone] at hmem
  obtain ⟨last, hlast⟩ := ne_none_iff_exists'.mp hne
  unfold Topic.lastOffset
  rw [hlast]
  exact WithBot.coe_ne_bot

/-- **What a page has returned** is fetched up to the last offsets, and ahead of what is stored. -/
theorem Polled.good (hinv : feed.Invariant s) (hpolling : s.polling = some positions)
    (h : feed.Polled s.log positions (allRecords fetches)) {p n : ℤ} (hp : p ∈ feed.partitions)
    (hn : Topic.lastOffset p (allRecords fetches) = (n : WithBot ℤ)) :
    n ∈ s.log p ∧ (feed.polled s fetches).FetchedUpTo p n ∧
      (0 < feed.page → feed.offset (feed.row s) p < (n : WithBot ℤ)) := by
  have hlast := exists_of_lastOffset hn
  obtain ⟨hlog, hconsumed⟩ := mem_filter.mp ((h.2.1 p hp).subset hlast)
  obtain ⟨⟨q, position⟩, hposition, hle⟩ := List.any_eq_true.mp hconsumed
  rw [Bool.and_eq_true, decide_eq_true_iff, decide_eq_true_iff] at hle
  obtain ⟨rfl, hle⟩ := hle
  have hgood := hinv.polling positions hpolling q position hposition
  refine ⟨hlog, ?_, fun hpage => (hgood.ahead hpage).trans_le (WithBot.coe_le_coe.mpr hle)⟩
  intro o ho hinitial hon
  cases hco : consumed positions q o with
  | true =>
    have hfiltered : o ∈ (s.log q).filter (consumed positions q) := mem_filter.mpr ⟨ho, hco⟩
    have hmem := mem_of_prefix (h.2.1 q hp) ((hinv.sorted q).sublist filter_sublist) hlast
      hfiltered hon
    obtain ⟨record, hrecord, hpartition, hoffset⟩ := mem_offsets_iff.mp hmem
    apply mem_append_right
    exact List.mem_map.mpr ⟨record, hrecord, by rw [hpartition, hoffset]⟩
  | false =>
    -- before the position it is consumed from
    refine mem_append_left _ (hgood.fetched o ho hinitial ?_)
    by_contra hnot
    have htrue : consumed positions q o = true := by
      refine List.any_eq_true.mpr ⟨(q, position), hposition, ?_⟩
      rw [Bool.and_eq_true, decide_eq_true_iff, decide_eq_true_iff]
      exact ⟨rfl, not_lt.mp hnot⟩
    simp [hco] at htrue

/-- **A page is fetched.** -/
theorem Invariant.poll (h : feed.Invariant s) (hpolling : s.polling = some positions)
    (hpolled : feed.Polled s.log positions (allRecords fetches)) :
    feed.Invariant (feed.polled s fetches) where
  sorted := h.sorted
  inRange := h.inRange
  wf := h.wf
  good := h.good.poll
  run run hrun := by
    obtain rfl := some.inj hrun
    obtain ⟨hwf, hoffsets⟩ := wf_kafkaNext (hpolled.contains h)
    refine ⟨hwf, ⟨_, rfl⟩, ?_, ?_, ?_, ?_, ?_⟩
    · intro p hp n hn
      obtain ⟨hlog, hfetched, -⟩ := hpolled.good h hpolling hp ((hoffsets p hp).symm.trans hn)
      exact ⟨hlog, hfetched⟩
    · intro hpage p hp n hn
      exact (hpolled.good h hpolling hp ((hoffsets p hp).symm.trans hn)).2.2 hpage
    · intro hpage hmore hnil
      have hlen : feed.page ≤ ((allRecords fetches).length : ℤ) := of_decide_eq_true hmore
      have hpos : 0 < (allRecords fetches).length := by omega
      obtain ⟨record, hrecord⟩ := exists_mem_of_length_pos hpos
      have hp := (hpolled.mem_log hrecord).1
      have hbot := hwf.kafkaOffsets_eq_nil.mp hnil _ hp
      rw [hoffsets _ hp] at hbot
      exact lastOffset_ne_bot hrecord hbot
    · intro hmore
      have hlen : ¬ feed.page ≤ ((allRecords fetches).length : ℤ) := of_decide_eq_false hmore
      omega
    · intro p hp
      rcases mem_append.mp hp with hp | hp
      · cases hbefore : s.run with
        | none =>
          simp [hbefore] at hp
        | some run =>
          rw [hbefore] at hp
          exact (h.run run hbefore).returned p hp
      · obtain ⟨record, hrecord, rfl⟩ := List.mem_map.mp hp
        exact (hpolled.mem_log hrecord).1
  polling positions' hpositions' := by cases hpositions'
  origin hnone := by
    have hidle := (h.origin hnone).2.2
    simp [hpolling] at hidle
  named := h.named

end poll

section commit

variable {s s' : State} {run : Progress}

/-- The state after a run has succeeded. -/
def committed (feed : Feed) (s : State) (run : Progress) : State :=
  { s with
    stored := commitSourceCursors feed.conversions.toFormatting feed.tenantId
      [⟨feed.connectionId, run.checkpoint⟩] s.stored
    run := none }

/-- The row after a run has succeeded. -/
theorem row_committed (feed : Feed) (s : State) (run : Progress) :
    feed.row (feed.committed s run) = nextCursor feed.conversions.toFormatting
      (s.stored feed.tenantId feed.connectionId) run.checkpoint := by
  show (commitSourceCursors feed.conversions.toFormatting feed.tenantId
    [⟨feed.connectionId, run.checkpoint⟩] s.stored feed.tenantId feed.connectionId).getD [] = _
  rw [commitSourceCursors, foldl_cons, foldl_nil, commitCursor, ConnectorState.write_self]
  rfl

/-- **The offsets after a run has succeeded.** -/
theorem Invariant.offset_committed (h : feed.Invariant s) (hrun : s.run = some run) :
    feed.Wf (feed.row (feed.committed s run)) ∧ ∀ p ∈ feed.partitions,
      feed.offset (feed.row (feed.committed s run)) p =
        feed.offset (feed.row s) p ⊔ feed.offset run.checkpoint p := by
  have hgood := h.run run hrun
  obtain ⟨offsets, hoffsets⟩ := hgood.offsets
  rw [row_committed]
  exact Wf.nextCursor rfl h.wf hgood.wf hoffsets

/-- **A run succeeds.** -/
theorem Invariant.commit (h : feed.Invariant s) (hkeeps : feed.Keeps s .commit)
    (hrun : s.run = some run) (hidle : s.polling = none) :
    feed.Invariant (feed.committed s run) := by
  obtain ⟨hwf, hoffset⟩ := h.offset_committed hrun
  have hgood := h.run run hrun
  constructor
  · exact h.sorted
  · exact h.inRange
  · exact hwf
  · intro p hp n hn
    rw [hoffset p hp] at hn
    rcases le_total (feed.offset (feed.row s) p) (feed.offset run.checkpoint p) with hle | hle
    · rw [sup_eq_right.mpr hle] at hn
      exact hgood.good p hp n hn
    · rw [sup_eq_left.mpr hle] at hn
      exact h.good p hp n hn
  · intro run' hrun'
    cases hrun'
  · intro positions hpositions
    have hpolling : s.polling = some positions := hpositions
    simp [hidle] at hpolling
  · intro hnone
    have hbefore := (h.origin hnone).2.1
    simp [hrun] at hbefore
  · intro hne p hp
    rw [hwf.names_iff hp, hoffset p hp]
    by_cases hrow : kafkaOffsets feed.conversions (feed.row s) = []
    · have hcheckpoint : kafkaOffsets feed.conversions run.checkpoint ≠ [] := by
        intro hnil
        apply hne
        rw [hwf.kafkaOffsets_eq_nil]
        intro q hq
        rw [hoffset q hq, h.wf.kafkaOffsets_eq_nil.mp hrow q hq,
          hgood.wf.kafkaOffsets_eq_nil.mp hnil q hq, bot_sup_eq]
      have hnamed := (hgood.wf.names_iff hp).mp ((hkeeps run hrun).1 hrow hcheckpoint p hp)
      exact fun hbot => hnamed (sup_eq_bot_iff.mp hbot).2
    · have hnamed := (h.wf.names_iff hp).mp (h.named hrow p hp)
      exact fun hbot => hnamed (sup_eq_bot_iff.mp hbot).1

/-- A run or a page is given up. -/
theorem Invariant.giveUp (h : feed.Invariant s) {run : Option Progress}
    (hrun : run = s.run ∨ run = none) :
    feed.Invariant { s with run := run, polling := none } where
  sorted := h.sorted
  inRange := h.inRange
  wf := h.wf
  good := h.good
  run run' hrun' := by
    rcases hrun with rfl | rfl
    · obtain ⟨hwf, hoffsets, hgood, hahead, hnamed, hpage, hreturned⟩ := h.run run' hrun'
      exact ⟨hwf, hoffsets, hgood, hahead, hnamed, hpage, hreturned⟩
    · cases hrun'
  polling positions hpositions := by cases hpositions
  origin hnone := by
    obtain ⟨hnil, hidle, -⟩ := h.origin hnone
    refine ⟨hnil, ?_, rfl⟩
    rcases hrun with rfl | rfl
    · exact hidle
    · rfl
  named := h.named

/-- What a run that succeeds comes to. -/
theorem step_commit (hstep : feed.step s .commit = some s') :
    ∃ run, s.run = some run ∧ s.polling = none ∧ run.hasMore = false ∧
      s' = feed.committed s run := by
  unfold Feed.step at hstep
  dsimp only at hstep
  split at hstep
  · rename_i run hrun hidle
    split_ifs at hstep with hmore
    exact ⟨run, hrun, hidle, Bool.eq_false_iff.mpr hmore, (some.inj hstep).symm⟩
  · cases hstep

/-- **A step keeps the invariant.** -/
theorem Invariant.step {e : Event} (h : feed.Invariant s) (hkeeps : feed.Keeps s e)
    (hstep : feed.step s e = some s') : feed.Invariant s' := by
  cases e with
  | append p o =>
    unfold Feed.step at hstep
    dsimp only at hstep
    split_ifs at hstep with hok
    obtain rfl := some.inj hstep
    exact h.append hkeeps hok.2
  | begin =>
    unfold Feed.step at hstep
    dsimp only at hstep
    split_ifs at hstep with hok
    obtain rfl := some.inj hstep
    exact h.begin hkeeps fun run hrun => (hok.2 run hrun).1
  | poll fetches =>
    unfold Feed.step at hstep
    dsimp only at hstep
    cases hpolling : s.polling with
    | none =>
      simp [hpolling] at hstep
    | some positions =>
      rw [hpolling] at hstep
      dsimp only at hstep
      split_ifs at hstep with hok
      obtain rfl := some.inj hstep
      exact h.poll hpolling hok
  | drop =>
    obtain rfl := some.inj hstep
    exact h.giveUp (.inl rfl)
  | commit =>
    obtain ⟨run, hrun, hidle, -, rfl⟩ := step_commit hstep
    exact h.commit hkeeps hrun hidle
  | fail =>
    obtain rfl := some.inj hstep
    exact h.giveUp (.inr rfl)

end commit

/-- **The invariant holds in every state reached.** -/
theorem invariant_of_run {es : List Event} {s : State}
    (hrun : Run feed.step (fun _ => feed.Keeps) feed.start es s) : feed.Invariant s := by
  induction hrun with
  | start => exact invariant_start feed
  | next _ hkeeps hstep ih => exact ih.step hkeeps hstep

/-! ## A partition that is left out -/

section leftOut

variable {s s' : State} {p : ℤ}

/-- A cursor with offsets of the topic, but none of the partition. -/
structure Lacks (feed : Feed) (cursor : JsonMap) (p : ℤ) : Prop where
  topic : stringValue feed.conversions.toFormatting (cursor.get "topic") =
    stringValue feed.conversions.toFormatting (feed.config.get "topic")
  offsets : ∃ offsets, (cursor.get "offsets").asObject? = some offsets ∧
    ∀ e ∈ offsets, feed.conversions.parseInt 32 e.1 ≠ p

/-- Offsets are stored, but none of the partition; the run under way is not to consume it either. -/
structure LeftOut (feed : Feed) (s : State) (p : ℤ) : Prop where
  row : feed.Lacks (feed.row s) p
  stored : kafkaOffsets feed.conversions (feed.row s) ≠ []
  run : ∀ run ∈ s.run, feed.Lacks run.checkpoint p ∧
    (run.hasMore = true → kafkaOffsets feed.conversions run.checkpoint ≠ [])
  polling : ∀ positions ∈ s.polling, ∀ o, consumed positions p o = false

/-- A cursor without offsets. -/
theorem Lacks.kafkaOffsets_ne_nil {cursor offsets : JsonMap}
    (hoffsets : (cursor.get "offsets").asObject? = some offsets) :
    kafkaOffsets feed.conversions cursor ≠ [] ↔ offsets ≠ [] := by
  unfold kafkaOffsets
  rw [hoffsets]
  exact not_congr map_eq_nil_iff

/-- The partition is not consumed. -/
theorem Lacks.positions {cursor : JsonMap} (h : feed.Lacks cursor p)
    (hne : kafkaOffsets feed.conversions cursor ≠ []) (log : ℤ → List ℤ) (o : ℤ) :
    consumed (feed.positions log (kafkaAssignment feed.conversions feed.config cursor)) p o =
      false := by
  obtain ⟨offsets, hoffsets, hlacks⟩ := h.offsets
  unfold kafkaAssignment
  rw [if_pos hne]
  apply Bool.eq_false_iff.mpr
  intro hconsumed
  obtain ⟨position, hposition, hle⟩ := List.any_eq_true.mp hconsumed
  rw [Bool.and_eq_true, decide_eq_true_iff] at hle
  obtain ⟨entry, hentry, rfl⟩ := List.mem_map.mp hposition
  unfold kafkaOffsets at hentry
  rw [hoffsets] at hentry
  obtain ⟨e, he, rfl⟩ := List.mem_map.mp hentry
  exact hlacks e he hle.1

/-- The entries after a merge are those of either side. -/
theorem entry_of_mem_merge {merged incoming : JsonMap}
    {P : String × Json → Prop} (hmerged : ∀ e ∈ merged, P e) (hincoming : ∀ e ∈ incoming, P e) :
    ∀ e ∈ incoming.foldl (mergeOffset formatting) merged, P e := by
  induction incoming generalizing merged with
  | nil => exact hmerged
  | cons entry incoming ih =>
    refine ih ?_ fun e he => hincoming e (mem_cons_of_mem _ he)
    have hset : ∀ e ∈ merged.set entry.1 entry.2, P e := by
      intro e he
      rcases JsonMap.mem_set he with rfl | he
      · exact hincoming entry mem_cons_self
      · exact hmerged e he
    unfold mergeOffset
    split
    · split_ifs
      · exact hset
      · exact hmerged
    · exact hset

/-- A merge takes no entry away. -/
theorem merge_ne_nil {merged incoming : JsonMap} (h : merged ≠ []) :
    incoming.foldl (mergeOffset formatting) merged ≠ [] := by
  induction incoming generalizing merged with
  | nil => exact h
  | cons entry incoming ih =>
    apply ih
    unfold mergeOffset
    split
    · split_ifs
      · exact JsonMap.set_ne_nil _ _ _
      · exact h
    · exact JsonMap.set_ne_nil _ _ _

/-- The cursor that a commit stores lacks what its two sides lack. -/
theorem Lacks.nextCursor {row checkpoint : JsonMap} {existing : Option JsonMap}
    (hexisting : existing.getD [] = row) (hrow : feed.Lacks row p)
    (hstored : kafkaOffsets feed.conversions row ≠ []) (hcheckpoint : feed.Lacks checkpoint p) :
    feed.Lacks (nextCursor feed.conversions.toFormatting existing checkpoint) p ∧
      kafkaOffsets feed.conversions
        (Activities.nextCursor feed.conversions.toFormatting existing checkpoint) ≠ [] := by
  obtain ⟨there, hthere, hlacks⟩ := hrow.offsets
  obtain ⟨incoming, hincoming, hlacks'⟩ := hcheckpoint.offsets
  have hget := fun existing => @get_nextCursor feed.conversions.toFormatting existing _ _ hincoming
  obtain ⟨hread, hsame⟩ := hget existing
  have hfound : existingOffsets feed.conversions.toFormatting (existing.getD []) checkpoint =
      there := by
    unfold existingOffsets
    rw [hexisting, if_pos (hrow.topic.trans hcheckpoint.topic.symm), hthere, getD_some]
  rw [hfound] at hread
  refine ⟨⟨hsame ▸ hcheckpoint.topic, _, hread, ?_⟩, ?_⟩
  · exact entry_of_mem_merge (P := fun e => feed.conversions.parseInt 32 e.1 ≠ p) hlacks hlacks'
  · rw [Lacks.kafkaOffsets_ne_nil hread]
    exact merge_ne_nil ((Lacks.kafkaOffsets_ne_nil hthere).mp hstored)

/-- The cursor of a page without records of the partition. -/
theorem lacks_kafkaNext {records : List KafkaRecord}
    (h : ∀ record ∈ records, record.partition ∈ feed.partitions ∧ record.partition ≠ p) :
    feed.Lacks (kafkaNext feed.conversions
      (stringValue feed.conversions.toFormatting (feed.config.get "topic")) records) p := by
  refine ⟨rfl, _, rfl, fun e he => ?_⟩
  obtain ⟨record, hrecord, hkey⟩ := exists_of_mem_nextOffsets he
  obtain ⟨hmem, hne⟩ := h record hrecord
  rw [hkey, feed.exact.partition _ (feed.ids _ hmem).1 (feed.ids _ hmem).2]
  exact hne

/-- **A partition that is left out stays so** after a step, and none of its records is fetched. -/
theorem LeftOut.step {e : Event} (hpage : 0 < feed.page) (h : feed.LeftOut s p)
    (hstep : feed.step s e = some s') :
    feed.LeftOut s' p ∧ ∀ o, (p, o) ∈ s'.fetched → (p, o) ∈ s.fetched := by
  cases e with
  | append q o =>
    unfold Feed.step at hstep
    dsimp only at hstep
    split_ifs at hstep
    obtain rfl := some.inj hstep
    exact ⟨⟨h.row, h.stored, h.run, h.polling⟩, fun _ ho => ho⟩
  | begin =>
    unfold Feed.step at hstep
    dsimp only at hstep
    split_ifs at hstep with hok
    obtain rfl := some.inj hstep
    refine ⟨⟨h.row, h.stored, h.run, ?_⟩, fun _ ho => ho⟩
    intro positions hpositions o
    obtain rfl := some.inj hpositions
    unfold Feed.cursor
    cases hrun : s.run with
    | none => exact h.row.positions h.stored s.log o
    | some run =>
      obtain ⟨hlacks, hnamed⟩ := h.run run hrun
      exact hlacks.positions (hnamed (hok.2 run hrun).1) s.log o
  | poll fetches =>
    unfold Feed.step at hstep
    dsimp only at hstep
    cases hpolling : s.polling with
    | none =>
      simp [hpolling] at hstep
    | some positions =>
      rw [hpolling] at hstep
      dsimp only at hstep
      split_ifs at hstep with hok
      obtain rfl := some.inj hstep
      have hother : ∀ record ∈ allRecords fetches,
          record.partition ∈ feed.partitions ∧ record.partition ≠ p := by
        intro record hrecord
        obtain ⟨hmem, hlog⟩ := hok.mem_log hrecord
        refine ⟨hmem, ?_⟩
        rintro rfl
        have hconsumed := (mem_filter.mp hlog).2
        simp [h.polling positions hpolling] at hconsumed
      constructor
      · refine ⟨h.row, h.stored, ?_, fun positions hpositions => by cases hpositions⟩
        intro run hrun
        obtain rfl := some.inj hrun
        refine ⟨lacks_kafkaNext hother, fun hmore => ?_⟩
        have hlen : feed.page ≤ ((allRecords fetches).length : ℤ) := of_decide_eq_true hmore
        have hne : allRecords fetches ≠ [] := by
          intro hnil
          rw [hnil, length_nil] at hlen
          omega
        show kafkaOffsets _ (kafkaNext _ _ _) ≠ []
        rw [Lacks.kafkaOffsets_ne_nil rfl]
        exact nextOffsets_ne_nil hne
      · intro o ho
        rcases mem_append.mp ho with ho | ho
        · exact ho
        · obtain ⟨record, hrecord, heq⟩ := List.mem_map.mp ho
          exact absurd (Prod.mk.inj heq).1 (hother record hrecord).2
  | drop =>
    obtain rfl := some.inj hstep
    exact ⟨⟨h.row, h.stored, h.run, fun positions hpositions => by cases hpositions⟩,
      fun _ ho => ho⟩
  | commit =>
    obtain ⟨run, hrun, hidle, -, rfl⟩ := step_commit hstep
    have hnext := Lacks.nextCursor (rfl : (s.stored feed.tenantId feed.connectionId).getD [] = _)
      h.row h.stored (h.run run hrun).1
    rw [← row_committed] at hnext
    refine ⟨⟨hnext.1, hnext.2, ?_, ?_⟩, fun _ ho => ho⟩
    · intro run hrun
      cases hrun
    · intro positions hpositions
      have hpolling : s.polling = some positions := hpositions
      simp [hidle] at hpolling
  | fail =>
    obtain rfl := some.inj hstep
    refine ⟨⟨h.row, h.stored, ?_, ?_⟩, fun _ ho => ho⟩
    · intro run hrun
      cases hrun
    · intro positions hpositions
      cases hpositions

/-- **Whatever happens, no record of the partition is fetched any more.** -/
theorem LeftOut.of_run {es : List Event} (hpage : 0 < feed.page) (h : feed.LeftOut s p)
    (hrun : Run feed.step Any s es s') :
    feed.LeftOut s' p ∧ ∀ o, (p, o) ∈ s'.fetched → (p, o) ∈ s.fetched := by
  induction hrun with
  | start => exact ⟨h, fun _ ho => ho⟩
  | next _ _ hstep ih =>
    obtain ⟨hleft, hfetched⟩ := ih.1.step hpage hstep
    exact ⟨hleft, fun o ho => ih.2 o (hfetched o ho)⟩

end leftOut

end Feed

end Dataflow.Connectors.Kafka
