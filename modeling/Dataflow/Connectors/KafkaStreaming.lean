import Dataflow.Connectors.KafkaExecutions
import Dataflow.Workflows.Inputs
import Dataflow.Workflows.StreamBatches

/-!
# Streaming a topic

`StreamDirectWorkflow` with its Kafka source: records are appended to the topic all the time, a
batch fetches a page from the stored offsets, and the offsets of the page are stored after the batch
has succeeded. Activities are attempted again and again, and a run that continues as new is followed
by the next one.

* `KafkaStream`, `StreamingState`, `StreamingEvent`, `KafkaStream.step`: the workflow, the topic,
  the table of cursors and what is under way. `processed` are the records of the batches that
  finished with every node success or skipped.
* `AtLeastOnce`: no stored offset is beyond a record that has not been processed, and until a batch
  succeeds the table stays as it is and all batches fetch from the same offsets.
* `Refetches`: a condition on the fetches.
* `StreamingInv`, `StreamingInv.step`: the invariant.
* **`atLeastOnce_of_run`**: under this condition the stream is at least once in every state
  reached.

Source: `ee/workflows/stream_direct.go`, `activities.go`, `streams.go`
-/

namespace Dataflow.Connectors.Kafka

open Activities Library Model Workflows List Function Option

/-! ## The system -/

/-- A job of `StreamDirectWorkflow`: its first run, an accepted definition for the engine, and the
topic of its source. Offsets are 64 bits. -/
structure KafkaStream extends Topic where
  job : StreamDirect
  enterprise : Api.Enterprise
  ranging : Api.RangeIds
  accepted : Api.Accepted enterprise ranging job.request.definition
  engine : job.request.definition.execution.map ExecutionConfig.engine = some "stream-direct"
  source : Node
  isSource : source ∈ job.request.definition.nodes ∧ source.type = .source
  offset64 : ∀ n, 0 ≤ n → n < 2 ^ 63 → conversions.parseInt 64 (conversions.formatInt n) = n

/-- The current run, the offsets of the records of each partition, the table of cursors, what is
being consumed, the page of the batch with the positions it was consumed from, where consumption
began at first, the records that have been processed, the table and the positions of the last fetch
unless a batch has succeeded since, and whether a fetch was from other positions than that. -/
structure StreamingState where
  stream : StreamDirect
  run : StreamState
  log : ℤ → List ℤ
  stored : ConnectorState
  polling : Option (List (ℤ × ℤ)) := none
  page : Option (List (ℤ × ℤ) × List FetchPartition) := none
  origin : Option (ℤ → ℤ)
  processed : List (ℤ × ℤ) := []
  attempted : Option (ConnectorState × List (ℤ × ℤ)) := none
  strayed : Bool := false

/-- What may happen. -/
inductive StreamingEvent where
  /-- A record is appended to a partition. -/
  | append (partition offset : ℤ)
  /-- A fetch is begun; the error of a cursor that cannot be read is ignored. -/
  | begin (readable : Bool)
  /-- The page is fetched, and the workflow gets it. -/
  | poll (fetches : List FetchPartition) (outputRef : Option DataRef)
  /-- The fetch is given up, to be begun again. -/
  | drop
  /-- The fetch has failed for good. -/
  | fetchFails (err : String)
  /-- An activity of another node answers. -/
  | node (answer : ∀ call, StreamReply call)
  /-- The cursor is stored, without an answer. -/
  | commit
  /-- The cursor is stored, or that has failed for good. -/
  | committed (reply : Except String Unit)
  /-- A signal, or a step of the workflow itself. -/
  | workflow (event : StreamEvent)
  /-- The next run. -/
  | continueAsNew

/-- The offset at which a partition was begun. -/
def StreamingState.initial (s : StreamingState) (p : ℤ) : ℤ := s.origin.elim 0 (· p)

/-- The records of the page. -/
def StreamingState.pageRecords (s : StreamingState) : List (ℤ × ℤ) :=
  match s.page with
  | some (_, fetches) => (allRecords fetches).map fun record => (record.partition, record.offset)
  | none => []

/-- The answer of a fetch. -/
def fetchAnswer (reply : Except String StreamPage) : ∀ call, StreamReply call
  | .fetchSourcePage _ => reply
  | .node _ (.fetchSourcePage _) => .error ""
  | .node _ (.evalEdgeCondition _) => .error ""
  | .node _ (.mergeRefs _) => .error ""
  | .node _ (.dispatchNode _) => .error ""

/-- The next run of a stream. Its execution has an id by now. -/
def nextRun (stream : StreamDirect) (s : StreamState) : StreamDirect where
  info := stream.info
  request := stream.continued s
  plan := stream.plan
  planned := stream.planned

/-- No cursor is stored. -/
def noCursors : ConnectorState := fun _ _ => none

theorem noCursors_apply (tenantId connectionId : String) : noCursors tenantId connectionId = none :=
  rfl

namespace KafkaStream

variable (x : KafkaStream)

/-- The connection of the source. -/
def connectionId : String := sourceConnectionID x.job.input.definition.id x.source

/-- The source, for what a client gives and where it begins. -/
def feed : Feed where
  toTopic := x.toTopic
  config := x.source.config
  ingestion := x.source.ingestion
  tenantId := x.job.input.tenantId
  connectionId := x.connectionId
  stored := noCursors
  fresh := noCursors_apply x.job.input.tenantId x.connectionId

/-- The name of the topic. -/
def topicName : String := stringValue x.conversions.toFormatting (x.source.config.get "topic")

/-- The offsets of a cursor. -/
def offsets (cursor : JsonMap) : List (ℤ × ℤ) := kafkaOffsets x.conversions cursor

/-- The cursor is one of the topic. -/
def OfTopic (cursor : JsonMap) : Prop :=
  stringValue x.conversions.toFormatting (cursor.get "topic") = x.topicName

instance (cursor : JsonMap) : Decidable (x.OfTopic cursor) := inferInstanceAs (Decidable (_ = _))

/-- The stored cursor. -/
def row (s : StreamingState) : JsonMap :=
  (s.stored x.job.input.tenantId x.connectionId).getD []

/-- The batch has finished with every node success or skipped. -/
def Succeeded (batch : StreamBatch) : Prop :=
  batch.error = none ∧ ∀ node ∈ x.job.plan.levels.flatten, NodeDone batch.results node

instance (results : Results) (node : Node) : Decidable (NodeDone results node) :=
  match h : results.lookup node.id with
  | some result => decidable_of_iff (Settled result.status) (by simp [NodeDone, h])
  | none => .isFalse (by simp [NodeDone, h])

instance (batch : StreamBatch) : Decidable (x.Succeeded batch) :=
  inferInstanceAs (Decidable (_ ∧ _))

/-- What becomes of the page when the batch has come to this point. -/
def settle (program : StreamProgram StreamBatch) (s : StreamingState) : StreamingState :=
  match program with
  | .await _ _ => s
  | .done batch =>
    if x.Succeeded batch then
      { s with processed := s.processed ++ s.pageRecords, page := none, attempted := none }
    else { s with page := none }

/-- The workflow gets a reply in a batch. -/
def reply (s : StreamingState) (answer : ∀ call, StreamReply call) : Option StreamingState :=
  match s.run.point with
  | .batch _ (.await call k) =>
    (s.stream.step s.run (.reply answer)).map fun run =>
      x.settle (k (answer call) ()) { s with run }
  | _ => none

/-- The page that the workflow gets. Source: `activities.go` `FetchSourcePage` -/
def pageOf (params : FetchSourceParams) (fetches : List FetchPartition)
    (outputRef : Option DataRef) : StreamPage :=
  let result := kafkaResult x.conversions params.config params.ingestion fetches
  { outputRef
    recordCount := result.records.length
    checkpoint := some result.nextCursor
    lagRecords := result.lagRecords }

/-- A fetch is begun at a cursor. -/
def begun (s : StreamingState) (config cursor : JsonMap) : StreamingState :=
  let positions := x.feed.positions s.log (kafkaAssignment x.conversions config cursor)
  { s with
    polling := some positions
    origin := some (s.origin.getD (x.feed.startOf s.log))
    attempted := some (s.stored, positions)
    strayed := s.strayed || s.attempted.any fun attempt => decide (attempt.2 ≠ positions) }

/-- The activity `commitSourceCursors` has stored the cursor. -/
def store (s : StreamingState) (cursor : SourceCursor) : StreamingState :=
  { s with
    stored := commitSourceCursors x.conversions.toFormatting s.stream.input.tenantId [cursor] s.stored }

/-- One step.
Source: `stream_direct.go` `StreamDirectWorkflow`, `activities.go` `FetchSourcePage`,
`CommitSourceCursors`, `streams.go` `kafkaFetch` -/
def step (s : StreamingState) : StreamingEvent → Option StreamingState
  | .append p o =>
    if p ∈ x.partitions ∧ 0 ≤ o ∧ o < 2 ^ 63 ∧ ∀ o' ∈ s.log p, o' < o then
      some { s with log := update s.log p (s.log p ++ [o]) }
    else none
  | .begin readable =>
    match s.run.point with
    | .batch _ (.await (.fetchSourcePage params) _) =>
      if params.activityType = "kafka.fetch" ∧
          isKafkaTopic (stringValue x.conversions.toFormatting (params.config.get "topic")) then
        some (x.begun s params.config (if readable then fetchCursor s.stored params else []))
      else none
    | _ => none
  | .poll fetches outputRef =>
    match s.run.point, s.polling with
    | .batch _ (.await (.fetchSourcePage params) _), some positions =>
      if x.feed.Polled s.log positions (allRecords fetches) then
        x.reply { s with polling := none, page := some (positions, fetches) }
          (fetchAnswer (.ok (x.pageOf params fetches outputRef)))
      else none
    | _, _ => none
  | .drop => some { s with polling := none }
  | .fetchFails err =>
    match s.run.point with
    | .batch _ (.await (.fetchSourcePage _) _) =>
      x.reply { s with polling := none } (fetchAnswer (.error err))
    | _ => none
  | .node answer =>
    match s.run.point with
    | .batch _ (.await (.node id call) _) =>
      if Answered call (answer (.node id call)) then x.reply s answer else none
    | _ => none
  | .commit =>
    match s.run.point with
    | .committing _ cursor _ => some (x.store s cursor)
    | _ => none
  | .committed reply =>
    match s.run.point with
    | .committing _ cursor _ =>
      (s.stream.step s.run (.committed reply)).map fun run =>
        { (match reply with | .ok _ => x.store s cursor | .error _ => s) with run }
    | _ => none
  | .workflow event =>
    match event with
    | .reply _ | .committed _ => none
    | event => (s.stream.step s.run event).map fun run => { s with run }
  | .continueAsNew =>
    match s.run.point with
    | .continuedAsNew =>
      let stream := nextRun s.stream s.run
      some { s with stream, run := stream.start }
    | _ => none

/-- A cursor of the topic with offsets says where consumption begins: after the offset of a
partition. -/
def originOf (cursor : JsonMap) : Option (ℤ → ℤ) :=
  if x.offsets cursor ≠ [] ∧ x.OfTopic cursor then
    some fun p => (((x.offsets cursor).filter fun entry => entry.1 = p).map
      fun entry => entry.2 + 1).foldr max 0
  else none

/-- What a topic has of records before the first fetch: increasing offsets of 64 bits. -/
structure Logged (log : ℤ → List ℤ) : Prop where
  sorted : ∀ p, (log p).Pairwise (· < ·)
  range : ∀ p, ∀ o ∈ log p, 0 ≤ o ∧ o < 2 ^ 63

/-- Before the first fetch. -/
def start (stored : ConnectorState) (log : ℤ → List ℤ) : StreamingState where
  stream := x.job
  run := x.job.start
  log := log
  stored := stored
  origin := x.originOf ((stored x.job.input.tenantId x.connectionId).getD [])

/-! ## At least once -/

/-- **At least once.** The stored offset of a partition is beyond no record, from where the
partition was begun, that has not been processed by a batch that finished with every node success or
skipped; and from a fetch on, until a batch has succeeded, the table of cursors is as it was and all
fetches are from the same positions. -/
structure AtLeastOnce (s : StreamingState) : Prop where
  committed : x.OfTopic (x.row s) → ∀ p n, (p, n) ∈ x.offsets (x.row s) →
    ∀ o ∈ s.log p, s.initial p ≤ o → o ≤ n → (p, o) ∈ s.processed
  unchanged : ∀ stored positions, s.attempted = some (stored, positions) → s.stored = stored
  refetched : s.strayed = false

/-- Everything that has been appended from where consumption began has been processed. -/
def AllProcessed (s : StreamingState) : Prop :=
  ∀ p ∈ x.partitions, ∀ o ∈ s.log p, s.initial p ≤ o → (p, o) ∈ s.processed

instance (s : StreamingState) : Decidable (x.AllProcessed s) :=
  inferInstanceAs (Decidable (∀ p ∈ x.partitions, ∀ o ∈ s.log p, _ → _))

/-- **A condition on the fetches.** The stored offsets are read if there are any, and they are those
of the topic; and a fetch that starts from the end of the topic, after the first one, leaves no
record behind that has not been processed. -/
def Refetches (s : StreamingState) : StreamingEvent → Prop
  | .begin readable =>
    (x.offsets (x.row s) ≠ [] → readable = true ∧ x.OfTopic (x.row s)) ∧
    (x.feed.latest = true → s.origin.isSome = true → x.offsets (x.row s) = [] → x.AllProcessed s)
  | _ => True

instance (s : StreamingState) (e : StreamingEvent) : Decidable (x.Refetches s e) :=
  match e with
  | .begin _ => inferInstanceAs (Decidable ((_ → _ ∧ _) ∧ (_ → _ → _ → _)))
  | .append .. | .poll .. | .drop | .fetchFails _ | .node _ | .commit | .committed _ | .workflow _
  | .continueAsNew => .isTrue trivial

end KafkaStream

/-! ## Records that have been passed -/

/-- The records of a partition up to an offset are done, from where it was begun; the offset is one
of the partition's, or from before that. -/
structure Passed (log : List ℤ) (initial : ℤ) (done : ℤ → Prop) (n : ℤ) : Prop where
  within : n < initial ∨ n ∈ log
  done : ∀ o ∈ log, initial ≤ o → o ≤ n → done o

/-- A position is beyond no record that is not done, now or later. -/
structure Covers (log : List ℤ) (initial : ℤ) (done : ℤ → Prop) (position : ℤ) : Prop where
  within : position ≤ initial ∨ position ≤ endOf log
  done : ∀ o ∈ log, initial ≤ o → o < position → done o

/-- Records are appended to a partition at the end, and consumption has begun no earlier. -/
structure Grows (log log' : List ℤ) (initial initial' : ℤ) : Prop where
  kept : ∀ o ∈ log, o ∈ log'
  new : ∀ o ∈ log', o ∈ log ∨ endOf log ≤ o
  initial : initial ≤ initial'

section grows

variable {log log' : List ℤ} {initial initial' n position : ℤ} {done done' : ℤ → Prop}

/-- What has been passed stays so. -/
theorem Passed.grow (h : Passed log initial done n) (hgrows : Grows log log' initial initial')
    (hsorted : log.Pairwise (· < ·)) (hdone : ∀ o, done o → done' o) :
    Passed log' initial' done' n where
  within := by
    rcases h.within with hlt | hmem
    · exact .inl (hlt.trans_le hgrows.initial)
    · exact .inr (hgrows.kept n hmem)
  done o ho hinitial hle := by
    have hbegun : initial ≤ o := hgrows.initial.trans hinitial
    apply hdone
    rcases hgrows.new o ho with hold | hnew
    · exact h.done o hold hbegun hle
    · -- a record that is appended is beyond the offset
      rcases h.within with hlt | hmem
      · omega
      · have hend := Feed.lt_endOf hsorted hmem
        omega

/-- The end only moves on. -/
theorem Grows.endOf_le (hgrows : Grows log log' initial initial') (hsorted : log'.Pairwise (· < ·))
    (hpos : ∀ o ∈ log', 0 ≤ o) : endOf log ≤ endOf log' := by
  cases hlast : log.getLast? with
  | some last =>
    have hlt := Feed.lt_endOf hsorted (hgrows.kept last (mem_of_getLast? hlast))
    have hend : endOf log = last + 1 := by simp only [endOf, hlast]
    omega
  | none =>
    have hend : endOf log = 0 := by simp only [endOf, hlast]
    rw [hend]
    exact endOf_nonneg hpos

/-- A position that covers what is before it does so later. -/
theorem Covers.grow (h : Covers log initial done position)
    (hgrows : Grows log log' initial initial') (hsorted : log'.Pairwise (· < ·))
    (hpos : ∀ o ∈ log', 0 ≤ o) (hdone : ∀ o, done o → done' o) :
    Covers log' initial' done' position where
  within := by
    rcases h.within with hle | hle
    · exact .inl (hle.trans hgrows.initial)
    · exact .inr (hle.trans (hgrows.endOf_le hsorted hpos))
  done o ho hinitial hlt := by
    have hbegun : initial ≤ o := hgrows.initial.trans hinitial
    apply hdone
    rcases hgrows.new o ho with hold | hnew
    · exact h.done o hold hbegun hlt
    · rcases h.within with hle | hle <;> omega

/-- The position after an offset that has been passed. -/
theorem Passed.covers (h : Passed log initial done n) (hsorted : log.Pairwise (· < ·)) :
    Covers log initial done (n + 1) where
  within := by
    rcases h.within with hlt | hmem
    · exact .inl (Int.add_one_le_of_lt hlt)
    · exact .inr (Int.add_one_le_of_lt (Feed.lt_endOf hsorted hmem))
  done o ho hinitial hlt := h.done o ho hinitial (Int.lt_add_one_iff.mp hlt)

end grows

/-- The records of a partition up to an offset are among these. -/
abbrev StreamingState.Passed (s : StreamingState) (done : List (ℤ × ℤ)) (p n : ℤ) : Prop :=
  Kafka.Passed (s.log p) (s.initial p) (fun o => (p, o) ∈ done) n

/-- A position of a partition is beyond no record that has not been processed. -/
abbrev StreamingState.Covers (s : StreamingState) (p position : ℤ) : Prop :=
  Kafka.Covers (s.log p) (s.initial p) (fun o => (p, o) ∈ s.processed) position

/-- Every partition grows. -/
abbrev StreamingState.Grows (s s' : StreamingState) : Prop :=
  ∀ p, Kafka.Grows (s.log p) (s'.log p) (s.initial p) (s'.initial p)

namespace KafkaStream

variable {x : KafkaStream} {s s' : StreamingState}

/-- The records are passed up to all offsets of a cursor. -/
def Safe (x : KafkaStream) (s : StreamingState) (cursor : JsonMap) : Prop :=
  ∀ p n, (p, n) ∈ x.offsets cursor → s.Passed s.processed p n

theorem Safe.grow {cursor : JsonMap} (h : x.Safe s cursor) (hgrows : s.Grows s')
    (hlogged : Logged s.log) (hprocessed : ∀ entry ∈ s.processed, entry ∈ s'.processed) :
    x.Safe s' cursor := by
  intro p n hmem
  exact (h p n hmem).grow (hgrows p) (hlogged.sorted p) fun o => hprocessed (p, o)

/-! ## The invariant -/

/-- The run is one of the job. -/
structure SameJob (x : KafkaStream) (stream : StreamDirect) : Prop where
  plan : stream.plan = x.job.plan
  definition : stream.input.definition = x.job.input.definition
  tenantId : stream.input.tenantId = x.job.input.tenantId

/-- Nothing is done beyond this offset, and it is the end of the partition unless there are records
after it. -/
structure Behind (log : List ℤ) (initial : ℤ) (done : ℤ → Prop) (last : ℤ) : Prop where
  initial : initial ≤ last
  done : ∀ o, done o → o < last
  rest : last = endOf log ∨ ∃ o ∈ log, last ≤ o

/-- A fetch since which no batch has succeeded. -/
structure Attempted (x : KafkaStream) (s : StreamingState) (stored : ConnectorState)
    (positions : List (ℤ × ℤ)) : Prop where
  stored : s.stored = stored
  started : s.origin.isSome = true
  positions : ∃ log, positions =
      x.feed.positions log (kafkaAssignment x.conversions x.source.config (x.row s)) ∧
    (x.offsets (x.row s) = [] → ∀ p,
      Behind (s.log p) (s.initial p) (fun o => (p, o) ∈ s.processed) (endOf (log p)))

/-- The phase of a batch, and its page. -/
def Fetched (x : KafkaStream) (s : StreamingState) : BatchPhase → Prop
  | .before | .failed => True
  | .odd => False
  | .fetched page => ∃ positions fetches, s.page = some (positions, fetches) ∧
      page.checkpoint = some (kafkaNext x.conversions x.topicName (allRecords fetches)) ∧
      ∀ record ∈ allRecords fetches, record.partition ∈ x.partitions ∧
        record.offset ∈ s.log record.partition ∧
        s.Passed (s.processed ++ s.pageRecords) record.partition record.offset

/-- Where the run is: a batch that keeps to its protocol, or a cursor that may be stored. -/
def PointGood (x : KafkaStream) (s : StreamingState) : StreamPoint → Prop
  | .batch _ program => ∃ phase, x.Fetched s phase ∧ (batchProtocol s.stream.input x.source).Follows
        (BatchEnds s.stream.input x.source s.stream.plan.levels.flatten) phase program
  | .committing _ cursor _ => cursor.connectionId = x.connectionId ∧
      x.OfTopic cursor.checkpoint ∧ x.Safe s cursor.checkpoint ∧ s.attempted = none ∧
      ∃ offsets, (cursor.checkpoint.get "offsets").asObject? = some offsets
  | _ => True

/-- **The invariant of the system.** -/
structure StreamingInv (x : KafkaStream) (s : StreamingState) : Prop where
  job : x.SameJob s.stream
  logged : Logged s.log
  inLog : ∀ p o, (p, o) ∈ s.processed → o ∈ s.log p
  row : x.OfTopic (x.row s) → x.Safe s (x.row s)
  polling : ∀ positions, s.polling = some positions →
    ∀ p position, (p, position) ∈ positions → s.Covers p position
  point : x.PointGood s s.run.point
  attempt : ∀ stored positions, s.attempted = some (stored, positions) →
    x.Attempted s stored positions
  unstrayed : s.strayed = false
  begun : (∀ p, s.initial p ≤ endOf (s.log p)) ∨ x.offsets (x.row s) ≠ [] ∧ x.OfTopic (x.row s)

/-- What the invariant says. -/
theorem StreamingInv.atLeastOnce (h : x.StreamingInv s) : x.AtLeastOnce s where
  committed htopic p n hmem := (h.row htopic p n hmem).done
  unchanged stored positions hattempted := (h.attempt stored positions hattempted).stored
  refetched := h.unstrayed

/-- The source is the only one. -/
theorem single (x : KafkaStream) :
    x.job.plan.levels.flatten.filter (fun node => node.type = .source) = [x.source] := by
  have hspec := PlanSpec.of_buildPlan (Api.nodup_of_accepted x.accepted) x.job.planned
  have hperm := hspec.flatten_perm.filter fun node => decide (node.type = .source)
  have hlength :
      (x.job.plan.levels.flatten.filter fun node => decide (node.type = .source)).length =
      1 := by
    rw [hperm.length_eq, ← countP_eq_length_filter]
    exact Api.countType_source_of_stream x.accepted x.engine
  obtain ⟨node, hnode⟩ := length_eq_one_iff.mp hlength
  have hmem :
      x.source ∈ x.job.plan.levels.flatten.filter fun node => decide (node.type = .source) :=
    hperm.mem_iff.mpr (mem_filter.mpr ⟨x.isSource.1, decide_eq_true x.isSource.2⟩)
  rw [hnode] at hmem ⊢
  rw [mem_singleton.mp hmem]

theorem SameJob.single {stream : StreamDirect} (h : x.SameJob stream) :
    stream.plan.levels.flatten.filter (fun node => node.type = .source) = [x.source] := by
  rw [h.plan]
  exact x.single

/-- A point between two batches is good. -/
theorem pointGood_of_fresh {point : StreamPoint} (h : point.Fresh s.stream x.source) :
    x.PointGood s point := by
  cases point with
  | batch left program => exact ⟨.before, trivial, h⟩
  | committing left cursor count => exact absurd h id
  | _ => trivial

/-! ## Steps that leave the topic and the table as they are -/

/-- A step that changes the run, what is being consumed and the page. -/
theorem StreamingInv.frame (h : x.StreamingInv s) {stream : StreamDirect} {run : StreamState}
    {polling : Option (List (ℤ × ℤ))} (page : Option (List (ℤ × ℤ) × List FetchPartition))
    (hjob : x.SameJob stream) (hpolling : polling = s.polling ∨ polling = none)
    (hpoint : x.PointGood { s with stream, run, polling, page } run.point) :
    x.StreamingInv { s with stream, run, polling, page } where
  job := hjob
  logged := h.logged
  inLog := h.inLog
  row := h.row
  polling positions hpositions := by
    rcases hpolling with rfl | rfl
    · exact h.polling positions hpositions
    · cases hpositions
  point := hpoint
  attempt stored positions hattempted := by
    have hattempt := h.attempt stored positions hattempted
    exact ⟨hattempt.stored, hattempt.started, hattempt.positions⟩
  unstrayed := h.unstrayed
  begun := h.begun

/-! ## A record is appended -/

section append

variable {p o : ℤ}

/-- The topic with one more record. -/
def appended (s : StreamingState) (p o : ℤ) : StreamingState :=
  { s with log := update s.log p (s.log p ++ [o]) }

theorem grows_appended (hpos : 0 ≤ o) (hnew : ∀ o' ∈ s.log p, o' < o) :
    s.Grows (appended s p o) := by
  intro q
  show Grows _ (update s.log p (s.log p ++ [o]) q) _ _
  rw [Feed.log_update]
  split_ifs with hqp
  · subst hqp
    refine ⟨fun o' ho' => mem_append_left _ ho', ?_, le_refl _⟩
    intro o' ho'
    rcases mem_append.mp ho' with hold | hlast
    · exact .inl hold
    · rw [mem_singleton.mp hlast]
      exact .inr (Feed.endOf_le hnew hpos)
  · exact ⟨fun _ ho' => ho', fun _ ho' => .inl ho', le_refl _⟩

theorem Logged.append (h : Logged s.log) (hrange : 0 ≤ o ∧ o < 2 ^ 63)
    (hnew : ∀ o' ∈ s.log p, o' < o) : Logged (appended s p o).log where
  sorted q := by
    show (update s.log p (s.log p ++ [o]) q).Pairwise _
    rw [Feed.log_update]
    split_ifs with hqp
    · exact Feed.pairwise_append (h.sorted q) (hqp ▸ hnew)
    · exact h.sorted q
  range q o' ho' := by
    rcases (grows_appended hrange.1 hnew q).new o' ho' with hold | _
    · exact h.range q o' hold
    · have hmem : o' ∈ update s.log p (s.log p ++ [o]) q := ho'
      rw [Feed.log_update] at hmem
      split_ifs at hmem with hqp
      · rcases mem_append.mp hmem with hold | hlast
        · exact h.range q o' hold
        · rw [mem_singleton.mp hlast]
          exact hrange
      · exact h.range q o' hmem

/-- What was behind the end is so after a record is appended. -/
theorem Behind.append {log : List ℤ} {initial last : ℤ} {done : ℤ → Prop}
    (h : Behind log initial done last) (hpos : 0 ≤ o) (hnew : ∀ o' ∈ log, o' < o) :
    Behind (log ++ [o]) initial done last where
  initial := h.initial
  done := h.done
  rest := by
    right
    rcases h.rest with rfl | ⟨o', ho', hle⟩
    · exact ⟨o, mem_append_right _ mem_cons_self, Feed.endOf_le hnew hpos⟩
    · exact ⟨o', mem_append_left _ ho', hle⟩

/-- A page stays good. -/
theorem Fetched.grow {phase : BatchPhase} (h : x.Fetched s phase) (hgrows : s.Grows s')
    (hlogged : Logged s.log) (hpage : s'.page = s.page) (hprocessed : s'.processed = s.processed) :
    x.Fetched s' phase := by
  cases phase with
  | before | failed => trivial
  | odd => exact h
  | fetched page =>
    obtain ⟨positions, fetches, hs, hcheckpoint, hrecords⟩ := h
    refine ⟨positions, fetches, hpage.trans hs, hcheckpoint, ?_⟩
    have hpages : s'.pageRecords = s.pageRecords := by
      simp only [StreamingState.pageRecords, hpage]
    intro record hrecord
    obtain ⟨hmem, hlog, hpassed⟩ := hrecords record hrecord
    refine ⟨hmem, (hgrows _).kept _ hlog, ?_⟩
    rw [hprocessed, hpages]
    exact hpassed.grow (hgrows _) (hlogged.sorted _) fun _ ho => ho

/-- **A record is appended.** -/
theorem StreamingInv.append (h : x.StreamingInv s) (hrange : 0 ≤ o ∧ o < 2 ^ 63)
    (hnew : ∀ o' ∈ s.log p, o' < o) : x.StreamingInv (appended s p o) := by
  have hgrows := grows_appended hrange.1 hnew
  have hlogged := Logged.append h.logged hrange hnew
  constructor
  · exact h.job
  · exact hlogged
  · exact fun q o' hmem => (hgrows q).kept o' (h.inLog q o' hmem)
  · exact fun htopic => (h.row htopic).grow hgrows h.logged fun _ hentry => hentry
  · intro positions hpositions q position hmem
    have hcovers := h.polling positions hpositions q position hmem
    exact hcovers.grow (hgrows q) (hlogged.sorted q) (fun o' ho' => (hlogged.range q o' ho').1)
      fun _ ho' => ho'
  · have hpoint := h.point
    show x.PointGood (appended s p o) s.run.point
    cases hp : s.run.point with
    | batch left program =>
      rw [hp] at hpoint
      obtain ⟨phase, hfetched, hfollows⟩ := hpoint
      exact ⟨phase, hfetched.grow hgrows h.logged rfl rfl, hfollows⟩
    | committing left cursor count =>
      rw [hp] at hpoint
      obtain ⟨hconnection, htopic, hsafe, hrest⟩ := hpoint
      exact ⟨hconnection, htopic, hsafe.grow hgrows h.logged fun _ hentry => hentry, hrest⟩
    | _ => trivial
  · intro stored positions hattempted
    obtain ⟨hstored, hstarted, log, hpositions, hbehind⟩ := h.attempt stored positions hattempted
    refine ⟨hstored, hstarted, log, hpositions, fun hnil q => ?_⟩
    show Behind (update s.log p (s.log p ++ [o]) q) _ _ _
    rw [Feed.log_update]
    split_ifs with hqp
    · subst hqp
      exact (hbehind hnil q).append hrange.1 hnew
    · exact hbehind hnil q
  · exact h.unstrayed
  · rcases h.begun with hle | hnamed
    · refine .inl fun q => (hle q).trans ?_
      exact (hgrows q).endOf_le (hlogged.sorted q) fun o' ho' => (hlogged.range q o' ho').1
    · exact .inr hnamed

end append

variable {left : ℕ}

variable {log : ℤ → List ℤ}

/-! ## A fetch is begun -/

section begin

/-- The positions at the stored cursor. -/
def rowPositions (x : KafkaStream) (s : StreamingState) (log : ℤ → List ℤ) : List (ℤ × ℤ) :=
  x.feed.positions log (kafkaAssignment x.conversions x.source.config (x.row s))

/-- They are after the stored offsets. -/
theorem mem_rowPositions_of_offsets (hne : x.offsets (x.row s) ≠ [])
    {p position : ℤ} : (p, position) ∈ x.rowPositions s log ↔
      ∃ n, (p, n) ∈ x.offsets (x.row s) ∧ position = n + 1 := by
  unfold rowPositions kafkaAssignment
  have hif : kafkaOffsets x.conversions (x.row s) ≠ [] := hne
  rw [if_pos hif]
  simp only [Feed.positions, List.mem_map, Prod.mk.injEq, Prod.exists]
  constructor
  · rintro ⟨q, n, hmem, rfl, rfl⟩
    exact ⟨n, hmem, rfl⟩
  · rintro ⟨n, hmem, rfl⟩
    exact ⟨p, n, hmem, rfl, rfl⟩

/-- Without stored offsets they are at the start or the end of the topic. -/
theorem rowPositions_of_nil (hnil : x.offsets (x.row s) = []) (log : ℤ → List ℤ) :
    x.rowPositions s log = x.partitions.map fun p => (p, x.feed.startOf log p) := by
  unfold rowPositions kafkaAssignment
  have hif : kafkaOffsets x.conversions (x.row s) = [] := hnil
  simp only [hif, ne_eq, not_true_eq_false, if_false]
  rfl

theorem startOf_bounds (hlogged : Logged log) (p : ℤ) :
    0 ≤ x.feed.startOf log p ∧ x.feed.startOf log p ≤ endOf (log p) := by
  have hend := endOf_nonneg fun o ho => (hlogged.range p o ho).1
  unfold Feed.startOf
  split_ifs
  · exact ⟨hend, le_refl _⟩
  · exact ⟨le_refl _, hend⟩

/-- Where consumption begins does not move back. -/
theorem grows_begun (hlogged : Logged s.log) (config cursor : JsonMap) :
    s.Grows (x.begun s config cursor) := by
  intro p
  refine ⟨fun _ ho => ho, fun _ ho => .inl ho, ?_⟩
  show s.origin.elim 0 (· p) ≤ (s.origin.getD (x.feed.startOf s.log)) p
  cases s.origin with
  | none => exact (startOf_bounds hlogged p).1
  | some origin => exact le_refl _

/-- Where consumption begins at the first fetch. -/
theorem initial_begun_of_none (horigin : s.origin = none) (config cursor : JsonMap) (p : ℤ) :
    (x.begun s config cursor).initial p = x.feed.startOf s.log p := by
  show (s.origin.getD (x.feed.startOf s.log)) p = _
  rw [horigin]
  rfl

theorem initial_begun_of_some (horigin : s.origin.isSome = true) (config cursor : JsonMap) (p : ℤ) :
    (x.begun s config cursor).initial p = s.initial p := by
  obtain ⟨origin, horigin⟩ := isSome_iff_exists.mp horigin
  show (s.origin.getD (x.feed.startOf s.log)) p = s.origin.elim 0 (· p)
  rw [horigin]
  rfl

variable (h : x.StreamingInv s) (hallowed : x.Refetches s (.begin true))
include h hallowed

/-- **The positions cover what is before them.** -/
theorem StreamingInv.covers_begun (config cursor : JsonMap) {p position : ℤ}
    (hmem : (p, position) ∈ x.rowPositions s s.log) :
    (x.begun s config cursor).Covers p position := by
  have hgrows := grows_begun (x := x) h.logged config cursor p
  by_cases hnil : x.offsets (x.row s) = []
  · rw [rowPositions_of_nil hnil, List.mem_map] at hmem
    obtain ⟨q, hq, heq⟩ := hmem
    obtain ⟨rfl, rfl⟩ := Prod.mk.inj heq
    refine ⟨.inr (startOf_bounds h.logged q).2, ?_⟩
    intro o ho hinitial hlt
    cases horigin : s.origin with
    | none =>
      rw [initial_begun_of_none horigin] at hinitial
      omega
    | some origin =>
      have hstarted : s.origin.isSome = true := by rw [horigin]; rfl
      rw [initial_begun_of_some hstarted] at hinitial
      by_cases hlatest : x.feed.latest = true
      · exact hallowed.2 hlatest hstarted hnil q hq o ho hinitial
      · have hzero : x.feed.startOf s.log q = 0 := if_neg hlatest
        have hpos := (h.logged.range q o ho).1
        omega
  · obtain ⟨n, hentry, rfl⟩ := (mem_rowPositions_of_offsets hnil).mp hmem
    have hpassed := h.row (hallowed.1 hnil).2 p n hentry
    have hcovers := hpassed.covers (h.logged.sorted p)
    exact hcovers.grow hgrows (h.logged.sorted p) (fun o ho => (h.logged.range p o ho).1)
      fun _ ho => ho

/-- **The next fetch is from the same positions.** -/
theorem StreamingInv.positions_eq {stored : ConnectorState} {positions : List (ℤ × ℤ)}
    (hattempted : s.attempted = some (stored, positions)) :
    positions = x.rowPositions s s.log := by
  obtain ⟨-, hstarted, log, rfl, hbehind⟩ := h.attempt stored positions hattempted
  show x.rowPositions s log = x.rowPositions s s.log
  by_cases hnil : x.offsets (x.row s) = []
  · rw [rowPositions_of_nil hnil, rowPositions_of_nil hnil]
    apply map_congr_left
    intro p hp
    rw [Prod.mk.injEq]
    refine ⟨rfl, ?_⟩
    unfold Feed.startOf
    split_ifs with hlatest
    · -- all records have been processed, so none has been appended since
      have hp' := hbehind hnil p
      rcases hp'.rest with heq | ⟨o, ho, hle⟩
      · exact heq
      · have hdone := hallowed.2 hlatest hstarted hnil p hp o ho (hp'.initial.trans hle)
        have hlt := hp'.done o hdone
        omega
    · rfl
  · unfold rowPositions kafkaAssignment
    have hif : kafkaOffsets x.conversions (x.row s) ≠ [] := hnil
    simp only [hif, ne_eq, not_false_eq_true, if_true, Feed.positions]

/-- **A fetch is begun** at the stored cursor. -/
theorem StreamingInv.begin {cursor : JsonMap}
    (hcursor : kafkaAssignment x.conversions x.source.config cursor =
      kafkaAssignment x.conversions x.source.config (x.row s))
    {program : StreamProgram StreamBatch} (hp : s.run.point = .batch left program) :
    x.StreamingInv (x.begun s x.source.config cursor) := by
  have hgrows := grows_begun (x := x) h.logged x.source.config cursor
  have hpositions : x.feed.positions s.log
      (kafkaAssignment x.conversions x.source.config cursor) = x.rowPositions s s.log := by
    rw [hcursor]
    rfl
  constructor
  · exact h.job
  · exact h.logged
  · exact h.inLog
  · exact fun htopic => (h.row htopic).grow hgrows h.logged fun _ hentry => hentry
  · intro positions heq p position hmem
    have hpolling : some (x.feed.positions s.log
        (kafkaAssignment x.conversions x.source.config cursor)) = some positions := heq
    rw [hpositions] at hpolling
    cases hpolling
    exact h.covers_begun hallowed x.source.config cursor hmem
  · have hpoint := h.point
    show x.PointGood (x.begun s x.source.config cursor) s.run.point
    rw [hp] at hpoint ⊢
    obtain ⟨phase, hfetched, hfollows⟩ := hpoint
    exact ⟨phase, hfetched.grow hgrows h.logged rfl rfl, hfollows⟩
  · intro stored positions heq
    have hattempted : some (s.stored, x.feed.positions s.log
        (kafkaAssignment x.conversions x.source.config cursor)) = some (stored, positions) := heq
    rw [hpositions] at hattempted
    cases hattempted
    refine ⟨rfl, rfl, s.log, rfl, fun hnil p => ⟨?_, ?_, .inl rfl⟩⟩
    · cases horigin : s.origin with
      | none =>
        rw [initial_begun_of_none horigin]
        exact (startOf_bounds h.logged p).2
      | some origin =>
        rw [initial_begun_of_some (by rw [horigin]; rfl)]
        rcases h.begun with hle | ⟨hne, -⟩
        · exact hle p
        · exact absurd hnil hne
    · exact fun o ho => Feed.lt_endOf (h.logged.sorted p) (h.inLog p o ho)
  · show (s.strayed || s.attempted.any _) = false
    rw [h.unstrayed, Bool.false_or]
    cases hattempted : s.attempted with
    | none => rfl
    | some attempt =>
      obtain ⟨stored, positions⟩ := attempt
      have heq := h.positions_eq hallowed hattempted
      rw [hpositions, heq]
      simp
  · rcases h.begun with hle | hnamed
    · refine .inl fun p => ?_
      cases horigin : s.origin with
      | none =>
        rw [initial_begun_of_none horigin]
        exact (startOf_bounds h.logged p).2
      | some origin =>
        rw [initial_begun_of_some (by rw [horigin]; rfl)]
        exact hle p
    · exact .inr hnamed

end begin

/-! ## The workflow gets a reply -/

section reply

/-- The state when the workflow has gone on, and the page is settled. -/
def settled (x : KafkaStream) (s : StreamingState) (left : ℕ)
    (program : StreamProgram StreamBatch) :
    StreamingState :=
  x.settle program { s with
    run := StreamDirect.advance (s.stream.iterate left) left program s.run }

/-- The cursor of a page that has been processed may be stored. -/
theorem safe_kafkaNext (hlogged : Logged s.log) {records : List KafkaRecord}
    (hrecords : ∀ record ∈ records, record.partition ∈ x.partitions ∧
      record.offset ∈ s.log record.partition ∧
      s.Passed s.processed record.partition record.offset) :
    x.Safe s (kafkaNext x.conversions x.topicName records) := by
  rintro p n hmem
  obtain ⟨e, he, heq⟩ := List.mem_map.mp hmem
  obtain ⟨record, hrecord, rfl⟩ := exists_of_mem_nextOffsets he
  obtain ⟨hpartition, hlog, hpassed⟩ := hrecords record hrecord
  obtain ⟨hnonneg, hlt⟩ := hlogged.range _ _ hlog
  obtain ⟨hp, hn⟩ := Prod.mk.inj heq
  have hid := x.exact.partition _ (x.ids _ hpartition).1 (x.ids _ hpartition).2
  have hoffset := x.offset64 _ hnonneg hlt
  rw [← hp, ← hn]
  show s.Passed s.processed (x.conversions.parseInt 32 (x.conversions.formatInt record.partition))
    (x.conversions.parseInt 64 (x.conversions.formatInt record.offset))
  rw [hid, hoffset]
  exact hpassed

/-- A batch that ends well has every node done. -/
theorem succeeded_of_ends (hjob : x.SameJob s.stream) {batch : StreamBatch}
    (hdone : ∀ node ∈ s.stream.plan.levels.flatten, NodeDone batch.results node)
    (herror : batch.error = none) : x.Succeeded batch := by
  rw [hjob.plan] at hdone
  exact ⟨herror, hdone⟩

/-- **A batch succeeds**: its page has been processed, and its cursor may be stored. -/
theorem StreamingInv.succeed (h : x.StreamingInv s) {batch : StreamBatch}
    {page : StreamPage} (hfetched : x.Fetched s (.fetched page)) (herror : batch.error = none)
    (hcheckpoint : batch.checkpoint = page.checkpoint)
    (hconnection : batch.connectionId = sourceConnectionID s.stream.input.definition.id x.source)
    (hdone : ∀ node ∈ s.stream.plan.levels.flatten, NodeDone batch.results node) :
    x.StreamingInv (x.settled s left (.done batch)) := by
  obtain ⟨positions, fetches, hs, hpage, hrecords⟩ := hfetched
  have hpages : s.pageRecords =
      (allRecords fetches).map fun record => (record.partition, record.offset) := by
    simp only [StreamingState.pageRecords, hs]
  have hsucceeded := succeeded_of_ends h.job hdone herror
  have hcursor : batch.checkpoint =
      some (kafkaNext x.conversions x.topicName (allRecords fetches)) := hcheckpoint.trans hpage
  obtain ⟨run, hrun, hpoint⟩ : ∃ run, StreamDirect.advance (s.stream.iterate left) left
      (.done batch) s.run = run ∧ run.point = .committing left
        ⟨batch.connectionId, kafkaNext x.conversions x.topicName (allRecords fetches)⟩
        batch.count := by
    refine ⟨_, rfl, ?_⟩
    simp only [StreamDirect.advance, StreamDirect.afterBatch, herror, hcursor]
  unfold settled
  rw [hrun]
  simp only [settle, if_pos hsucceeded]
  show x.StreamingInv { s with
    run := run, processed := s.processed ++ s.pageRecords, page := none, attempted := none }
  constructor
  · exact h.job
  · exact h.logged
  · intro p o hmem
    rcases mem_append.mp hmem with hold | hnew
    · exact h.inLog p o hold
    · rw [hpages, List.mem_map] at hnew
      obtain ⟨record, hrecord, heq⟩ := hnew
      obtain ⟨rfl, rfl⟩ := Prod.mk.inj heq
      exact (hrecords record hrecord).2.1
  · exact fun htopic => (h.row htopic).grow
      (fun _ => ⟨fun _ ho => ho, fun _ ho => .inl ho, le_refl _⟩) h.logged
      fun _ hentry => mem_append_left _ hentry
  · intro positions' hpositions p position hmem
    have hcovers := h.polling positions' hpositions p position hmem
    exact ⟨hcovers.within, fun o ho hinitial hlt =>
      mem_append_left _ (hcovers.done o ho hinitial hlt)⟩
  · rw [hpoint]
    refine ⟨?_, rfl, ?_, rfl, _, rfl⟩
    · rw [hconnection, h.job.definition]
      rfl
    · exact safe_kafkaNext (s := { s with
        run := run, processed := s.processed ++ s.pageRecords, page := none, attempted := none })
        h.logged hrecords
  · exact fun _ _ hattempted => nomatch hattempted
  · exact h.unstrayed
  · exact h.begun

/-- **The workflow gets a reply.** -/
theorem StreamingInv.settled (h : x.StreamingInv s) {phase : BatchPhase}
    {program : StreamProgram StreamBatch} (hfetched : x.Fetched s phase)
    (hfollows : (batchProtocol s.stream.input x.source).Follows
      (BatchEnds s.stream.input x.source s.stream.plan.levels.flatten) phase program) :
    x.StreamingInv (x.settled s left program) := by
  cases program with
  | await call k =>
    apply h.frame s.page h.job (.inl rfl)
    exact ⟨phase, hfetched, hfollows⟩
  | done batch =>
    cases herror : batch.error with
    | none =>
      rcases hfollows with rfl | hends
      · exact absurd hfetched id
      · obtain ⟨page, rfl, hcheckpoint, hconnection, hdone⟩ := hends herror
        exact h.succeed hfetched herror hcheckpoint hconnection hdone
    | some err =>
      have hfailed : ¬ x.Succeeded batch := by
        intro hsucceeded
        simp [hsucceeded.1] at herror
      unfold KafkaStream.settled
      simp only [settle, if_neg hfailed]
      apply h.frame none h.job (.inl rfl)
      apply pointGood_of_fresh
      apply StreamDirect.fresh_afterBatch_of_error
      rw [herror]
      exact nofun

/-- What a reply leads to. -/
theorem reply_eq_some {answer : ∀ call, StreamReply call} {call : StreamCall}
    {k : StreamReply call → Unit → StreamProgram StreamBatch}
    (hp : s.run.point = .batch left (.await call k)) (hstep : x.reply s answer = some s') :
    s' = x.settled s left (k (answer call) ()) := by
  unfold reply StreamDirect.step at hstep
  rw [hp] at hstep
  exact (some.inj hstep).symm

end reply

/-! ## A page is fetched -/

/-- **The records of a page are passed** up to each of them, once the page is processed. -/
theorem passed_of_polled (hlogged : Logged s.log) {positions : List (ℤ × ℤ)}
    (hcovered : ∀ p position, (p, position) ∈ positions → s.Covers p position)
    {records : List KafkaRecord} (hpolled : x.feed.Polled s.log positions records)
    {record : KafkaRecord} (hrecord : record ∈ records) :
    record.partition ∈ x.partitions ∧ record.offset ∈ s.log record.partition ∧
      s.Passed (s.processed ++ records.map fun record => (record.partition, record.offset))
        record.partition record.offset := by
  obtain ⟨hmem, hlog⟩ := hpolled.mem_log hrecord
  obtain ⟨hlog, hconsumed⟩ := mem_filter.mp hlog
  refine ⟨hmem, hlog, .inr hlog, ?_⟩
  intro o ho hinitial hle
  by_cases hhere : Feed.consumed positions record.partition o = true
  · -- the records of the page are the first ones that are consumed
    obtain ⟨rest, hrest⟩ := hpolled.2.1 record.partition hmem
    have hsorted : ((s.log record.partition).filter
        (Feed.consumed positions record.partition)).Pairwise (· < ·) :=
      (hlogged.sorted record.partition).filter _
    have ho' := mem_filter.mpr ⟨ho, hhere⟩
    rw [← hrest] at ho' hsorted
    have hpage : o ∈ (records.filter fun other => other.partition = record.partition).map
        KafkaRecord.offset := by
      rcases mem_append.mp ho' with hin | hafter
      · exact hin
      · have hown : record.offset ∈ (records.filter fun other =>
            other.partition = record.partition).map KafkaRecord.offset :=
          List.mem_map_of_mem (mem_filter.mpr ⟨hrecord, decide_eq_true rfl⟩)
        have hlt := (List.pairwise_append.mp hsorted).2.2 _ hown _ hafter
        omega
    obtain ⟨other, hother, rfl⟩ := List.mem_map.mp hpage
    obtain ⟨hother, hsame⟩ := mem_filter.mp hother
    apply mem_append_right
    rw [← of_decide_eq_true hsame]
    exact List.mem_map_of_mem hother
  · -- what is not consumed is before a position
    obtain ⟨position, hposition, hat⟩ := List.any_eq_true.mp hconsumed
    rw [Bool.and_eq_true, decide_eq_true_iff, decide_eq_true_iff] at hat
    have hnot : ¬ position.2 ≤ o := by
      intro hle'
      apply hhere
      refine List.any_eq_true.mpr ⟨position, hposition, ?_⟩
      rw [Bool.and_eq_true, decide_eq_true_iff, decide_eq_true_iff]
      exact ⟨hat.1, hle'⟩
    apply mem_append_left
    have hcovers := hcovered position.1 position.2 hposition
    rw [hat.1] at hcovers
    exact hcovers.done o ho hinitial (not_le.mp hnot)

/-! ## A cursor is stored -/

/-- **A cursor is stored** whose offsets have been passed. -/
theorem StreamingInv.store (h : x.StreamingInv s) {cursor : SourceCursor} {count : ℤ}
    (hp : s.run.point = .committing left cursor count) : x.StreamingInv (x.store s cursor) := by
  have hpoint := h.point
  rw [hp] at hpoint
  obtain ⟨hconnection, htopic, hsafe, hattempted, offsets, hoffsets⟩ := hpoint
  have hrow : x.row (x.store s cursor) = nextCursor x.conversions.toFormatting
      (s.stored x.job.input.tenantId x.connectionId) cursor.checkpoint := by
    unfold KafkaStream.row KafkaStream.store
    dsimp only
    rw [commitSourceCursors, foldl_cons, foldl_nil, commitCursor, h.job.tenantId,
      hconnection, ConnectorState.write_self]
    rfl
  have hget := @Feed.get_nextCursor x.conversions.toFormatting
    (s.stored x.job.input.tenantId x.connectionId) _ _ hoffsets
  rw [← hrow] at hget
  obtain ⟨hread, hsame⟩ := hget
  have hexisting : ∀ e ∈ existingOffsets x.conversions.toFormatting (x.row s) cursor.checkpoint,
      s.Passed s.processed (x.conversions.parseInt 32 e.1)
        (x.conversions.parseInt 64 (stringValue x.conversions.toFormatting e.2)) := by
    unfold existingOffsets
    split_ifs with hsame'
    · intro e he
      have hrowTopic : x.OfTopic (x.row s) := hsame'.trans htopic
      apply h.row hrowTopic
      unfold KafkaStream.offsets kafkaOffsets
      cases hget : ((x.row s).get "offsets").asObject? with
      | none =>
        simp [hget] at he
      | some there =>
        rw [hget] at he
        exact List.mem_map_of_mem he
    · exact fun e he => absurd he not_mem_nil
  constructor
  · exact h.job
  · exact h.logged
  · exact h.inLog
  · intro _ p n hmem
    unfold KafkaStream.offsets kafkaOffsets at hmem
    rw [hread] at hmem
    obtain ⟨e, he, heq⟩ := List.mem_map.mp hmem
    obtain ⟨rfl, rfl⟩ := Prod.mk.inj heq
    refine Feed.entry_of_mem_merge (P := fun e => s.Passed s.processed
      (x.conversions.parseInt 32 e.1)
      (x.conversions.parseInt 64 (stringValue x.conversions.toFormatting e.2))) hexisting ?_ e he
    intro e he
    apply hsafe
    unfold KafkaStream.offsets kafkaOffsets
    rw [hoffsets]
    exact List.mem_map_of_mem he
  · exact h.polling
  · show x.PointGood (x.store s cursor) s.run.point
    rw [hp]
    exact ⟨hconnection, htopic, hsafe, hattempted, offsets, hoffsets⟩
  · intro stored positions hsome
    have hnone : s.attempted = some (stored, positions) := hsome
    simp [hattempted] at hnone
  · exact h.unstrayed
  · rcases h.begun with hle | ⟨hne, hrowTopic⟩
    · exact .inl hle
    · right
      constructor
      · unfold KafkaStream.offsets kafkaOffsets
        rw [hread]
        show List.map _ _ ≠ []
        rw [ne_eq, map_eq_nil_iff]
        apply Feed.merge_ne_nil
        show existingOffsets x.conversions.toFormatting (x.row s) cursor.checkpoint ≠ []
        unfold existingOffsets
        have hsame' : stringValue x.conversions.toFormatting ((x.row s).get "topic") =
            stringValue x.conversions.toFormatting (cursor.checkpoint.get "topic") :=
          hrowTopic.trans htopic.symm
        rw [if_pos hsame']
        intro hnil
        apply hne
        unfold KafkaStream.offsets kafkaOffsets
        cases hget : ((x.row s).get "offsets").asObject? with
        | none => rfl
        | some there =>
          rw [hget] at hnil
          obtain rfl : there = [] := hnil
          rfl
      · unfold OfTopic
        rw [hsame]
        exact htopic

/-! ## Steps of the workflow -/

/-- The cursor has been stored, or that has failed. -/
theorem StreamingInv.committed (h : x.StreamingInv s) {cursor : SourceCursor} {count : ℤ}
    (hp : s.run.point = .committing left cursor count) (reply : Except String Unit) :
    x.StreamingInv { (match reply with | .ok _ => x.store s cursor | .error _ => s) with
      run := StreamDirect.afterCommit (s.stream.iterate left) left count s.run reply } := by
  have hfresh : ∀ run, (s.stream.iterate left run).point.Fresh s.stream x.source :=
    fun run => StreamDirect.fresh_iterate h.job.single left run
  cases reply with
  | error err =>
    apply h.frame s.page h.job (.inl rfl)
    exact pointGood_of_fresh (hfresh _)
  | ok done =>
    apply (h.store hp).frame s.page h.job (.inl rfl)
    exact pointGood_of_fresh (StreamDirect.fresh_countBatch hfresh count)

/-- A signal, or a step of the workflow. -/
theorem StreamingInv.workflow (h : x.StreamingInv s) {event : StreamEvent} {run : StreamState}
    (hreply : ∀ answer, event ≠ .reply answer) (hcommitted : ∀ reply, event ≠ .committed reply)
    (hstep : s.stream.step s.run event = some run) : x.StreamingInv { s with run } := by
  have hsingle := h.job.single
  apply h.frame s.page h.job (.inl rfl)
  cases StreamDirect.stepped_of_step hstep with
  | signal signal hreturned => exact h.point
  | selectResume hp hr => exact pointGood_of_fresh (StreamDirect.fresh_enter hsingle)
  | selectCancel hp hr hc => exact pointGood_of_fresh (StreamDirect.fresh_enter hsingle)
  | reply hp answer => exact absurd rfl (hreply answer)
  | committed hp reply => exact absurd rfl (hcommitted reply)
  | timer hp => exact pointGood_of_fresh (StreamDirect.fresh_iterate hsingle _ _)
  | marked hp reply => trivial

/-- The fetch that a batch waits for is that of the source. -/
theorem StreamingInv.fetching (h : x.StreamingInv s) {params : FetchSourceParams}
    {k : StreamReply (.fetchSourcePage params) → Unit → StreamProgram StreamBatch}
    (hp : s.run.point = .batch left (.await (.fetchSourcePage params) k)) :
    params = fetchParams s.stream.input x.source {} ∧ ∀ reply,
      (batchProtocol s.stream.input x.source).Follows
        (BatchEnds s.stream.input x.source s.stream.plan.levels.flatten)
        (BatchPhase.before.next (.fetchSourcePage params) reply) (k reply ()) := by
  have hpoint := h.point
  rw [hp] at hpoint
  obtain ⟨phase, hfetched, ⟨hphase, hparams⟩, hk⟩ := hpoint
  rcases hphase with rfl | rfl
  · exact ⟨hparams, fun reply => hk reply () trivial⟩
  · exact absurd hfetched id

/-- The cursor that a fetch reads. -/
theorem fetchCursor_eq_row (hjob : x.SameJob s.stream) :
    fetchCursor s.stored (fetchParams s.stream.input x.source {}) = x.row s := by
  show (s.stored s.stream.input.tenantId
    (sourceConnectionID s.stream.input.definition.id x.source)).getD [] = _
  rw [hjob.tenantId, hjob.definition]
  rfl

/-- **A step keeps the invariant.** -/
theorem StreamingInv.step {e : StreamingEvent} (h : x.StreamingInv s) (hallowed : x.Refetches s e)
    (hstep : x.step s e = some s') : x.StreamingInv s' := by
  cases e with
  | append p o =>
    simp only [KafkaStream.step] at hstep
    split_ifs at hstep with hok
    obtain rfl := some.inj hstep
    exact h.append ⟨hok.2.1, hok.2.2.1⟩ hok.2.2.2
  | «begin» readable =>
    simp only [KafkaStream.step] at hstep
    split at hstep
    · rename_i hp
      split_ifs at hstep with hok hreadable
      · -- the cursor is the stored one
        obtain rfl := some.inj hstep
        obtain ⟨rfl, -⟩ := h.fetching hp
        rw [fetchCursor_eq_row h.job]
        subst hreadable
        exact h.begin hallowed rfl hp
      · -- there are no stored offsets that could be missed
        obtain rfl := some.inj hstep
        obtain ⟨rfl, -⟩ := h.fetching hp
        have hnil : x.offsets (x.row s) = [] := by
          by_contra hne
          exact hreadable (hallowed.1 hne).1
        have hallowed' : x.Refetches s (.begin true) :=
          ⟨fun hne => absurd hnil hne, hallowed.2⟩
        refine h.begin hallowed' ?_ hp
        unfold kafkaAssignment
        have hempty : kafkaOffsets x.conversions (x.row s) = [] := hnil
        rw [hempty]
        rfl
    · cases hstep
  | poll fetches outputRef =>
    simp only [KafkaStream.step] at hstep
    split at hstep
    · rename_i positions hp hpolling
      split_ifs at hstep with hpolled
      obtain rfl := reply_eq_some
        (s := { s with polling := none, page := some (positions, fetches) }) hp hstep
      obtain ⟨rfl, hfollows⟩ := h.fetching hp
      -- the state with the page, in which the workflow has not gone on yet
      have hpage : x.StreamingInv
          { s with polling := none, page := some (positions, fetches) } := by
        apply h.frame (some (positions, fetches)) h.job (.inr rfl)
        rw [hp]
        refine ⟨.before, trivial, ⟨.inl rfl, rfl⟩, fun reply _ _ => hfollows reply⟩
      have hnext := hfollows
        (.ok (x.pageOf (fetchParams s.stream.input x.source {}) fetches outputRef))
      refine hpage.settled ?_ hnext
      refine ⟨positions, fetches, rfl, rfl, fun record hrecord => ?_⟩
      exact passed_of_polled h.logged (h.polling positions hpolling) hpolled hrecord
    · cases hstep
  | drop =>
    obtain rfl := some.inj hstep
    exact h.frame s.page h.job (.inr rfl) h.point
  | fetchFails err =>
    simp only [KafkaStream.step] at hstep
    split at hstep
    · rename_i hp
      obtain rfl := reply_eq_some (s := { s with polling := none }) hp hstep
      obtain ⟨rfl, hfollows⟩ := h.fetching hp
      have hidle : x.StreamingInv { s with polling := none } :=
        h.frame s.page h.job (.inr rfl) h.point
      have hfailed : x.Fetched { s with polling := none } .failed := trivial
      exact hidle.settled hfailed (hfollows (.error err))
    · cases hstep
  | node answer =>
    simp only [KafkaStream.step] at hstep
    split at hstep
    · rename_i hp
      split_ifs at hstep with hanswered
      obtain rfl := reply_eq_some hp hstep
      have hpoint := h.point
      rw [hp] at hpoint
      obtain ⟨phase, hfetched, hallows, hk⟩ := hpoint
      refine h.settled hfetched ?_
      have hnext := hk (answer (.node _ _)) () trivial
      rw [show (batchProtocol s.stream.input x.source).next phase (.node _ _) _ = _ from
        next_node phase _ _ _, if_pos hanswered] at hnext
      exact hnext
    · cases hstep
  | commit =>
    simp only [KafkaStream.step] at hstep
    split at hstep
    · rename_i hp
      obtain rfl := some.inj hstep
      exact h.store hp
    · cases hstep
  | committed reply =>
    simp only [KafkaStream.step] at hstep
    split at hstep
    · rename_i hp
      unfold StreamDirect.step at hstep
      rw [hp] at hstep
      obtain rfl := some.inj hstep
      exact h.committed hp reply
    · cases hstep
  | workflow event =>
    simp only [KafkaStream.step] at hstep
    split at hstep
    · cases hstep
    · cases hstep
    · rename_i hreply hcommitted
      obtain ⟨run, hrun, rfl⟩ := map_eq_some_iff.mp hstep
      exact h.workflow hreply hcommitted hrun
  | continueAsNew =>
    simp only [KafkaStream.step] at hstep
    split at hstep
    · obtain rfl := some.inj hstep
      have hjob : x.SameJob (nextRun s.stream s.run) :=
        ⟨h.job.plan, h.job.definition, h.job.tenantId⟩
      apply h.frame s.page hjob (.inl rfl)
      exact pointGood_of_fresh (StreamDirect.fresh_iterate hjob.single _ _)
    · cases hstep

/-! ## Runs -/

/-- An entry is below the offset after the greatest one. -/
theorem lt_foldr_max {offsets : List (ℤ × ℤ)} {p n : ℤ} (h : (p, n) ∈ offsets) :
    n < ((offsets.filter fun entry => entry.1 = p).map fun entry => entry.2 + 1).foldr max 0 := by
  have hmem : n + 1 ∈ (offsets.filter fun entry => entry.1 = p).map fun entry => entry.2 + 1 :=
    List.mem_map.mpr ⟨(p, n), mem_filter.mpr ⟨h, decide_eq_true rfl⟩, rfl⟩
  generalize (offsets.filter fun entry => entry.1 = p).map (fun entry => entry.2 + 1) = ends at hmem
  induction ends with
  | nil => cases hmem
  | cons first ends ih =>
    rw [foldr_cons]
    rcases mem_cons.mp hmem with rfl | hmem
    · exact lt_of_lt_of_le (Int.lt_succ n) (le_max_left _ _)
    · exact (ih hmem).trans_le (le_max_right _ _)

/-- Before the first fetch. -/
theorem streamingInv_start (x : KafkaStream) (stored : ConnectorState)
    (hlog : Logged log) : x.StreamingInv (x.start stored log) where
  job := ⟨rfl, rfl, rfl⟩
  logged := hlog
  inLog _ _ hmem := nomatch hmem
  row htopic p n hmem := by
    have hne : x.offsets (x.row (x.start stored log)) ≠ [] := ne_nil_of_mem hmem
    have horigin : (x.start stored log).origin = some _ := if_pos ⟨hne, htopic⟩
    have hinitial : n < (x.start stored log).initial p := by
      unfold StreamingState.initial
      rw [horigin]
      exact lt_foldr_max hmem
    exact ⟨.inl hinitial, fun o _ hle hle' => by omega⟩
  polling _ hpolling := nomatch hpolling
  point := pointGood_of_fresh (StreamDirect.fresh_iterate x.single _ _)
  attempt _ _ hattempted := nomatch hattempted
  unstrayed := rfl
  begun := by
    by_cases hnamed : x.offsets (x.row (x.start stored log)) ≠ [] ∧
        x.OfTopic (x.row (x.start stored log))
    · exact .inr hnamed
    · left
      intro p
      have horigin : (x.start stored log).origin = none := if_neg hnamed
      unfold StreamingState.initial
      rw [horigin]
      exact endOf_nonneg fun o ho => (hlog.range p o ho).1

/-- **At least once.** In every run whose fetches meet the condition the stream is at least once in
every state reached. -/
theorem atLeastOnce_of_run (x : KafkaStream) (stored : ConnectorState) {log : ℤ → List ℤ}
    (hlog : Logged log) {es : List StreamingEvent} {s : StreamingState}
    (hrun : Transition.Run x.step (fun _ => x.Refetches) (x.start stored log) es s) :
    x.AtLeastOnce s := by
  apply StreamingInv.atLeastOnce
  refine hrun.invariant (I := fun _ s => x.StreamingInv s) (streamingInv_start x stored hlog) ?_
  intro es s e s' h hallowed hstep
  exact h.step hallowed hstep

end KafkaStream

/-! ## Two streams -/

/-- The definition of a stream from the start or the end of a topic. -/
def exampleDefinition (latest : Bool) : PipelineDefinition where
  name := "orders"
  triggerType := "manual"
  nodes :=
    [{ id := "orders", type := .source, activityType := "kafka.fetch"
       config := [("topic", .string "orders"),
         ("startPosition", .string (if latest then "latest" else "earliest"))] },
     { id := "table", type := .sink, activityType := "sink.postgres" }]
  edges := [{ source := "orders", target := "table" }]
  execution := some { engine := "stream-direct" }

/-- Its plan. -/
def examplePlan (latest : Bool) : ExecutionPlan :=
  (buildPlan (exampleDefinition latest).nodes (exampleDefinition latest).edges).toOption.getD
    { levels := [], incoming := fun _ => [] }

theorem buildPlan_exampleDefinition (latest : Bool) :
    buildPlan (exampleDefinition latest).nodes (exampleDefinition latest).edges =
      .ok (examplePlan latest) := by
  have hsome : (buildPlan (exampleDefinition latest).nodes
      (exampleDefinition latest).edges).toOption.isSome = true := by
    cases latest <;> decide +kernel
  unfold examplePlan
  cases hplan : buildPlan (exampleDefinition latest).nodes (exampleDefinition latest).edges with
  | error err =>
    rw [hplan] at hsome
    cases hsome
  | ok plan => rfl

/-- The stream, of a topic with one partition. -/
def exampleStream (latest : Bool) : KafkaStream where
  toTopic := oneFeed.toTopic
  job :=
    { info := {}
      request := { definition := exampleDefinition latest }
      plan := examplePlan latest
      planned := buildPlan_exampleDefinition latest }
  enterprise := DynamicDag.exampleEnterprise
  ranging := DynamicDag.exampleRanging
  accepted := by cases latest <;> decide +kernel
  engine := rfl
  source := (exampleDefinition latest).nodes.head (by simp [exampleDefinition])
  isSource := by simp [exampleDefinition]
  offset64 _ h _ := readNumber_formatInt h

/-- A page with one record. -/
def oneRecord (offset : ℤ) : List FetchPartition :=
  [{ partition := 0, highWatermark := 2, records := [{ partition := 0, offset }] }]

/-- The sink has written the page. -/
def sinkWritten : ∀ call, StreamReply call
  | .node _ (.dispatchNode _) => .ok { nodeId := "table", status := .success }
  | .fetchSourcePage _ => .error ""
  | .node _ (.fetchSourcePage _) => .error ""
  | .node _ (.evalEdgeCondition _) => .error ""
  | .node _ (.mergeRefs _) => .error ""

/-- The theorem at a batch with one record. -/
theorem atLeastOnce_of_run_oneRecord :
    ∃ s, Transition.Run (exampleStream false).step (fun _ => (exampleStream false).Refetches)
        ((exampleStream false).start (fun _ _ => none) fun _ => [])
        [.append 0 0, .begin true, .poll (oneRecord 0) none, .node sinkWritten,
          .committed (.ok ())] s ∧
      (0, 0) ∈ (exampleStream false).offsets ((exampleStream false).row s) ∧
      (exampleStream false).AtLeastOnce s := by
  have hrun : ∃ s, Transition.Run (exampleStream false).step
      (fun _ => (exampleStream false).Refetches)
      ((exampleStream false).start (fun _ _ => none) fun _ => [])
      [.append 0 0, .begin true, .poll (oneRecord 0) none, .node sinkWritten, .committed (.ok ())] s ∧
      (0, 0) ∈ (exampleStream false).offsets ((exampleStream false).row s) :=
    Transition.exists_run_of_guarded (by decide +kernel)
  obtain ⟨s, hrun, hstored⟩ := hrun
  refine ⟨s, hrun, hstored, KafkaStream.atLeastOnce_of_run (exampleStream false) (fun _ _ => none) ?_ hrun⟩
  exact ⟨fun _ => .nil, fun _ _ ho => nomatch ho⟩

/-- **A record between two fetches from the end of the topic is passed.** The first fetch fails, a
record is appended, and the next fetch is from the new end: the stored offset is then beyond the
record, which no batch has had. -/
theorem not_atLeastOnce_latest : ∃ s, Transition.Run (exampleStream true).step Transition.Any
        ((exampleStream true).start (fun _ _ => none) fun _ => [])
        [.begin true, .fetchFails "broker not available", .workflow .timer, .append 0 0,
          .begin true, .append 0 1, .poll (oneRecord 1) none, .node sinkWritten,
          .committed (.ok ())] s ∧
      0 ∈ s.log 0 ∧ (0, 1) ∈ (exampleStream true).offsets ((exampleStream true).row s) ∧
      ¬ (exampleStream true).AtLeastOnce s := by
  have hrun : ∃ s, Transition.Run (exampleStream true).step Transition.Any
      ((exampleStream true).start (fun _ _ => none) fun _ => [])
      [.begin true, .fetchFails "broker not available", .workflow .timer, .append 0 0,
        .begin true, .append 0 1, .poll (oneRecord 1) none, .node sinkWritten,
        .committed (.ok ())] s ∧
      (0 ∈ s.log 0 ∧ (0, 1) ∈ (exampleStream true).offsets ((exampleStream true).row s) ∧
        (exampleStream true).OfTopic ((exampleStream true).row s) ∧ s.initial 0 ≤ 0 ∧
        (0, 0) ∉ s.processed) :=
    Transition.exists_run_of_check (fun _ _ _ _ => trivial) (by decide +kernel)
  obtain ⟨s, hrun, hlog, hstored, htopic, hinitial, hprocessed⟩ := hrun
  refine ⟨s, hrun, hlog, hstored, ?_⟩
  intro hat
  exact hprocessed (hat.committed htopic 0 1 hstored 0 hlog hinitial (by decide))

end Dataflow.Connectors.Kafka
