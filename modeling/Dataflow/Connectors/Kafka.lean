import Dataflow.Connectors.Values
import Mathlib.Algebra.Order.Ring.Int
import Mathlib.Data.Int.ConditionallyCompleteOrder

/-!
# The Kafka source

A page of a topic: the partitions named in the cursor are consumed from the offset after the one
that is named, all partitions from the start or the end of the topic if none is named. The cursor of
the page names the partitions it has records of, each with the last offset.

* `KafkaConversions`: integers as texts; `Exact` is what is relied on.
* `kafkaAssignment`, `kafkaNext`, `kafkaResult`, `kafkaFetch`: the code.
* `Encoded`, `offsetAt`: the offsets that are written, and the offset of a partition.
* `Contains.offsets`, `Encoded.merge`: the offsets after a page, and those that a commit stores.

Source: `streams.go`
-/

namespace Dataflow.Connectors.Kafka

open Activities Model List

/-! ## Texts of integers -/

/-- `Conversions` with `strconv.ParseInt` for a number of bits, whose error is ignored, and
`strconv.FormatInt`, in base 10. -/
structure KafkaConversions extends Conversions where
  parseInt : ℕ → String → ℤ
  formatInt : ℤ → String

/-- What has been written is read back, by `strconv`, and by `fmt.Sscan` into a `float64`. -/
structure KafkaConversions.Exact (conversions : KafkaConversions) : Prop where
  partition : ∀ n, 0 ≤ n → n < 2 ^ 31 → conversions.parseInt 32 (conversions.formatInt n) = n
  offset : ∀ n, 0 ≤ n → n < 2 ^ 53 → conversions.parseInt 64 (conversions.formatInt n) = n
  float : ∀ n, 0 ≤ n → n < 2 ^ 53 → conversions.scanFloat (conversions.formatInt n) = n

/-! ## The code -/

/-- Source: `streams.go` `kafkaTopic`. -/
def isKafkaTopic (value : String) : Bool :=
  let length := value.toList.length
  1 ≤ length && length ≤ 249 &&
    value.toList.all fun c => c.isAlphanum || c = '.' || c = '_' || c = '-'

/-- What a client consumes: partitions from given offsets, or all partitions of the topic, from the
end or from the start. -/
inductive Assignment where
  | partitions (positions : List (ℤ × ℤ))
  | topic (latest : Bool)
  deriving DecidableEq

/-- A record that is consumed; `value` is the decoded text, or the text itself. -/
structure KafkaRecord where
  partition : ℤ
  offset : ℤ
  value : Json := .null
  timestamp : Json := .null
  deriving DecidableEq

/-- What a poll gives for a partition. -/
structure FetchPartition where
  partition : ℤ
  highWatermark : ℤ
  records : List KafkaRecord
  deriving DecidableEq

/-- The result of a page. Source: `runtime.go` `SourceResult` -/
structure KafkaResult where
  records : List Json
  nextCursor : JsonMap
  hasMore : Bool
  lagRecords : ℤ

section code

variable (conversions : KafkaConversions)

/-- The offsets of a cursor. -/
def kafkaOffsets (cursor : JsonMap) : List (ℤ × ℤ) :=
  match (cursor.get "offsets").asObject? with
  | some offsets => offsets.map fun entry =>
    (conversions.parseInt 32 entry.1,
      conversions.parseInt 64 (stringValue conversions.toFormatting entry.2))
  | none => []

/-- What is consumed at a cursor. -/
def kafkaAssignment (config cursor : JsonMap) : Assignment :=
  let offsets := kafkaOffsets conversions cursor
  if offsets ≠ [] then .partitions (offsets.map fun entry => (entry.1, entry.2 + 1))
  else .topic (decide (config.get "startPosition" = .string "latest"))

/-- The size of a page. -/
def kafkaPage (config : JsonMap) (ingestion : Option IngestionConfig) : ℤ :=
  truncate (firstNumber conversions.toConversions
    [config.get "pageSize", (ingestion.map fun ingestion => Json.number ingestion.pageSize).getD .null,
      .number 1000])

/-- All records of a poll. -/
def allRecords (fetches : List FetchPartition) : List KafkaRecord :=
  fetches.flatMap FetchPartition.records

/-- The loop over the records, for the offsets. -/
def nextOffsets (records : List KafkaRecord) : JsonMap :=
  records.foldl (fun offsets record => offsets.set (conversions.formatInt record.partition)
    (.string (conversions.formatInt record.offset))) []

/-- The cursor after a page. -/
def kafkaNext (topic : String) (records : List KafkaRecord) : JsonMap :=
  [("topic", .string topic), ("offsets", .object (nextOffsets conversions records))]

/-- A record as it is handed on. -/
def recordValue (config : JsonMap) (record : KafkaRecord) : Json :=
  match record.value with
  | .object fields =>
    if config.get "includeMetadata" = .bool true then
      .object (JsonMap.set fields "_kafka" (.object [("partition", .number record.partition),
        ("offset", .number record.offset), ("timestamp", record.timestamp)]))
    else .object fields
  | value => value

/-- How far a partition is behind its high watermark. -/
def FetchPartition.lag (partition : FetchPartition) : ℤ :=
  let nextOffset := (partition.records.getLast?.map fun record => record.offset + 1).getD
    partition.highWatermark
  max 0 (partition.highWatermark - nextOffset)

/-- What is made of a poll. -/
def kafkaResult (config : JsonMap) (ingestion : Option IngestionConfig)
    (fetches : List FetchPartition) : KafkaResult :=
  let records := allRecords fetches
  { records := records.map (recordValue config)
    nextCursor := kafkaNext conversions (stringValue conversions.toFormatting (config.get "topic"))
      records
    hasMore := decide (kafkaPage conversions config ingestion ≤ records.length)
    lagRecords := (fetches.map FetchPartition.lag).foldl (· + ·) 0 }

/-- `connected` is the error of the connection, if there is one, and `poll` is what the client gives
for an assignment and a number of records.
Source: `streams.go` `kafkaFetch` -/
def kafkaFetch (connected : Except String Unit)
    (poll : Assignment → ℤ → Except String (List FetchPartition)) (config cursor : JsonMap)
    (ingestion : Option IngestionConfig) : Except String KafkaResult :=
  if ¬ isKafkaTopic (stringValue conversions.toFormatting (config.get "topic")) then
    .error "invalid Kafka topic"
  else connected.bind fun _ =>
    (poll (kafkaAssignment conversions config cursor) (kafkaPage conversions config ingestion)).map
      (kafkaResult conversions config ingestion)

variable {conversions}

/-- What is written is the partition and the offset of a record. -/
theorem exists_of_mem_nextOffsets {records : List KafkaRecord} {e : String × Json}
    (he : e ∈ nextOffsets conversions records) :
    ∃ record ∈ records, e = (conversions.formatInt record.partition,
      .string (conversions.formatInt record.offset)) := by
  induction records using reverseRecOn with
  | nil => cases he
  | append_singleton records record ih =>
    unfold nextOffsets at he
    rw [foldl_append, foldl_cons, foldl_nil] at he
    rcases JsonMap.mem_set he with rfl | he
    · exact ⟨record, mem_append_right _ mem_cons_self, rfl⟩
    · obtain ⟨other, hother, heq⟩ := ih he
      exact ⟨other, mem_append_left _ hother, heq⟩

/-- Records leave offsets behind. -/
theorem nextOffsets_ne_nil {records : List KafkaRecord} (h : records ≠ []) :
    nextOffsets conversions records ≠ [] := by
  obtain ⟨init, record, rfl⟩ := eq_nil_or_concat' records |>.resolve_left h
  unfold nextOffsets
  rw [foldl_append, foldl_cons, foldl_nil]
  exact JsonMap.set_ne_nil _ _ _

end code

/-! ## Offsets -/

/-- The partitions of a topic, which are numbered with 32 bits, and how their numbers are
written. -/
structure Topic where
  conversions : KafkaConversions
  partitions : List ℤ
  exact : conversions.Exact
  ids : ∀ p ∈ partitions, 0 ≤ p ∧ p < 2 ^ 31

/-- An offset that a `float64` holds. -/
def InRange (n : ℤ) : Prop := 0 ≤ n ∧ n < 2 ^ 53

instance (n : ℤ) : Decidable (InRange n) := inferInstanceAs (Decidable (_ ∧ _))

namespace Topic

variable (topic : Topic)

/-- An offset of a partition, as it is written. -/
def entry (p n : ℤ) : String × Json :=
  (topic.conversions.formatInt p, .string (topic.conversions.formatInt n))

/-- Offsets that have been written: each partition once. -/
structure Encoded (offsets : JsonMap) : Prop where
  distinct : offsets.keys.Nodup
  written : ∀ e ∈ offsets, ∃ p ∈ topic.partitions, ∃ n, InRange n ∧ e = topic.entry p n

/-- The offset of a partition; one that is not named has none. -/
def offsetAt (offsets : JsonMap) (p : ℤ) : WithBot ℤ :=
  match offsets.lookup (topic.conversions.formatInt p) with
  | some value =>
    (topic.conversions.parseInt 64 (stringValue topic.conversions.toFormatting value) : ℤ)
  | none => ⊥

variable {topic}

/-- Different partitions are written differently. -/
theorem formatInt_inj {p q : ℤ} (hp : p ∈ topic.partitions) (hq : q ∈ topic.partitions) :
    topic.conversions.formatInt q = topic.conversions.formatInt p ↔ q = p := by
  constructor
  · intro h
    rw [← topic.exact.partition q (topic.ids q hq).1 (topic.ids q hq).2,
      ← topic.exact.partition p (topic.ids p hp).1 (topic.ids p hp).2, h]
  · exact congrArg _

theorem encoded_nil : topic.Encoded [] where
  distinct := nodup_nil
  written _ he := absurd he not_mem_nil

/-- An offset is written. -/
theorem Encoded.set {offsets : JsonMap} (h : topic.Encoded offsets) {p n : ℤ}
    (hp : p ∈ topic.partitions) (hn : InRange n) :
    topic.Encoded (offsets.set (topic.entry p n).1 (topic.entry p n).2) where
  distinct := JsonMap.nodup_keys_set h.distinct _ _
  written e he := by
    rcases JsonMap.mem_set he with rfl | he
    · exact ⟨p, hp, n, hn, rfl⟩
    · exact h.written e he

/-- The offsets after one is written. -/
theorem offsetAt_set (offsets : JsonMap) {p q n : ℤ} (hp : p ∈ topic.partitions)
    (hq : q ∈ topic.partitions) (hn : InRange n) :
    topic.offsetAt (offsets.set (topic.entry p n).1 (topic.entry p n).2) q =
      if q = p then (n : WithBot ℤ) else topic.offsetAt offsets q := by
  unfold offsetAt entry
  rw [JsonMap.lookup_set]
  simp only [formatInt_inj hp hq]
  split_ifs with h
  · exact congrArg _ (topic.exact.offset n hn.1 hn.2)
  · rfl

/-- The offset of a partition, read from the entries. -/
theorem Encoded.mem_iff {offsets : JsonMap} (h : topic.Encoded offsets) {p n : ℤ} :
    topic.offsetAt offsets p = (n : WithBot ℤ) ↔ topic.entry p n ∈ offsets ∧ InRange n := by
  unfold offsetAt
  constructor
  · cases hlookup : offsets.lookup (topic.conversions.formatInt p) with
    | none =>
      intro hbot
      cases hbot
    | some value =>
      intro hvalue
      have hmem := (JsonMap.lookup_eq_some_iff h.distinct).mp hlookup
      obtain ⟨q, hq, m, hm, heq⟩ := h.written _ hmem
      obtain ⟨-, rfl⟩ := Prod.mk.inj heq
      have hnm : m = n := by
        refine (topic.exact.offset m hm.1 hm.2).symm.trans ?_
        exact WithBot.coe_inj.mp hvalue
      subst hnm
      exact ⟨hmem, hm⟩
  · rintro ⟨hmem, hn⟩
    rw [(JsonMap.lookup_eq_some_iff h.distinct).mpr hmem]
    exact congrArg _ (topic.exact.offset n hn.1 hn.2)

/-- The offset of a partition, as `kafkaOffsets` reads it. -/
theorem Encoded.mem_kafkaOffsets {offsets : JsonMap} (h : topic.Encoded offsets) {cursor : JsonMap}
    (hcursor : (cursor.get "offsets").asObject? = some offsets) {p n : ℤ} :
    (p, n) ∈ kafkaOffsets topic.conversions cursor ↔
      p ∈ topic.partitions ∧ topic.offsetAt offsets p = (n : WithBot ℤ) := by
  unfold kafkaOffsets
  rw [hcursor]
  rw [mem_map, h.mem_iff]
  have hread : ∀ q ∈ topic.partitions, ∀ m, InRange m →
      (topic.conversions.parseInt 32 (topic.entry q m).1, topic.conversions.parseInt 64
        (stringValue topic.conversions.toFormatting (topic.entry q m).2)) = (q, m) := by
    intro q hq m hm
    rw [Prod.mk.injEq]
    exact ⟨topic.exact.partition q (topic.ids q hq).1 (topic.ids q hq).2,
      topic.exact.offset m hm.1 hm.2⟩
  constructor
  · rintro ⟨e, he, heq⟩
    obtain ⟨q, hq, m, hm, rfl⟩ := h.written e he
    rw [hread q hq m hm, Prod.mk.injEq] at heq
    obtain ⟨rfl, rfl⟩ := heq
    exact ⟨hq, he, hm⟩
  · rintro ⟨hp, hmem, hn⟩
    exact ⟨_, hmem, hread p hp n hn⟩

/-! ### A page -/

/-- The last offset of a partition in a list of records. -/
def lastOffset (p : ℤ) (records : List KafkaRecord) : WithBot ℤ :=
  match ((records.filter fun record => record.partition = p).map KafkaRecord.offset).getLast? with
  | some n => (n : WithBot ℤ)
  | none => ⊥

/-- Records of the topic. -/
def Contains (topic : Topic) (records : List KafkaRecord) : Prop :=
  ∀ record ∈ records, record.partition ∈ topic.partitions ∧ InRange record.offset

/-- **The offsets of a page** are the last ones of its records. -/
theorem Contains.offsets {records : List KafkaRecord} (h : topic.Contains records) :
    topic.Encoded (nextOffsets topic.conversions records) ∧ ∀ q ∈ topic.partitions,
      topic.offsetAt (nextOffsets topic.conversions records) q = lastOffset q records := by
  induction records using reverseRecOn with
  | nil => exact ⟨encoded_nil, fun _ _ => rfl⟩
  | append_singleton records record ih =>
    obtain ⟨hencoded, hoffsets⟩ := ih fun r hr => h r (mem_append_left _ hr)
    obtain ⟨hp, hn⟩ := h record (mem_append_right _ mem_cons_self)
    have hnext : nextOffsets topic.conversions (records ++ [record]) =
        (nextOffsets topic.conversions records).set
          (topic.entry record.partition record.offset).1
          (topic.entry record.partition record.offset).2 := by
      unfold nextOffsets
      rw [foldl_append]
      rfl
    rw [hnext]
    refine ⟨hencoded.set hp hn, fun q hq => ?_⟩
    rw [offsetAt_set _ hp hq hn]
    unfold lastOffset
    rw [filter_append, map_append]
    by_cases hqp : q = record.partition
    · have hlast : [record].filter (fun r => r.partition = q) = [record] := by simp [hqp]
      rw [if_pos hqp, hlast, map_singleton, getLast?_append, getLast?_singleton]
      rfl
    · have hnone : [record].filter (fun r => r.partition = q) = [] := by simp [Ne.symm hqp]
      rw [if_neg hqp, hnone, map_nil, append_nil]
      exact hoffsets q hq

/-! ### A commit -/

/-- An offset is merged with the one there is. -/
theorem Encoded.mergeOffset {merged : JsonMap} (h : topic.Encoded merged) {p n : ℤ}
    (hp : p ∈ topic.partitions) (hn : InRange n) :
    topic.Encoded (mergeOffset topic.conversions.toFormatting merged (topic.entry p n)) ∧
      ∀ q ∈ topic.partitions,
        topic.offsetAt (Activities.mergeOffset topic.conversions.toFormatting merged
            (topic.entry p n)) q =
          if q = p then topic.offsetAt merged q ⊔ (n : WithBot ℤ) else topic.offsetAt merged q := by
  unfold Activities.mergeOffset
  cases hlookup : merged.lookup (topic.entry p n).1 with
  | none =>
    refine ⟨h.set hp hn, fun q hq => ?_⟩
    rw [offsetAt_set _ hp hq hn]
    split_ifs with hqp
    · have hbot : topic.offsetAt merged q = ⊥ := by
        unfold offsetAt
        rw [hqp]
        rw [entry] at hlookup
        rw [hlookup]
      rw [hbot, bot_sup_eq]
    · rfl
  | some current =>
    have hmem := (JsonMap.lookup_eq_some_iff h.distinct).mp hlookup
    obtain ⟨p', hp', m, hm, heq⟩ := h.written _ hmem
    obtain ⟨hkey, rfl⟩ := Prod.mk.inj heq
    obtain rfl := (formatInt_inj hp' hp).mp hkey
    have hthere : topic.offsetAt merged p = (m : WithBot ℤ) := h.mem_iff.mpr ⟨hmem, hm⟩
    have hgt : numberValue topic.conversions.toFormatting (topic.entry p n).2 >
        numberValue topic.conversions.toFormatting
          (.string (topic.conversions.formatInt m)) ↔ m < n := by
      show topic.conversions.scanFloat _ < topic.conversions.scanFloat _ ↔ _
      rw [topic.exact.float n hn.1 hn.2, topic.exact.float m hm.1 hm.2]
      exact Int.cast_lt
    simp only [hgt]
    split_ifs with hlt
    · refine ⟨h.set hp hn, fun q hq => ?_⟩
      rw [offsetAt_set _ hp hq hn]
      split_ifs with hqp
      · rw [hqp, hthere, sup_eq_right.mpr (WithBot.coe_le_coe.mpr hlt.le)]
      · rfl
    · refine ⟨h, fun q hq => ?_⟩
      split_ifs with hqp
      · rw [hqp, hthere, sup_eq_left.mpr (WithBot.coe_le_coe.mpr (not_lt.mp hlt))]
      · rfl

/-- **The offsets that a commit stores** are the greater ones, partition by partition. -/
theorem Encoded.merge {merged incoming : JsonMap} (h : topic.Encoded merged)
    (hincoming : topic.Encoded incoming) :
    topic.Encoded (incoming.foldl (Activities.mergeOffset topic.conversions.toFormatting) merged) ∧
      ∀ q ∈ topic.partitions,
        topic.offsetAt (incoming.foldl (Activities.mergeOffset topic.conversions.toFormatting) merged)
            q =
          topic.offsetAt merged q ⊔ topic.offsetAt incoming q := by
  induction incoming generalizing merged with
  | nil => exact ⟨h, fun q _ => (sup_bot_eq _).symm⟩
  | cons e incoming ih =>
    obtain ⟨p, hp, n, hn, rfl⟩ := hincoming.written e mem_cons_self
    have hdistinct := hincoming.distinct
    rw [JsonMap.keys, map_cons, nodup_cons] at hdistinct
    have hrest : topic.Encoded incoming :=
      ⟨hdistinct.2, fun e he => hincoming.written e (mem_cons_of_mem _ he)⟩
    obtain ⟨hmerge, hmergeAt⟩ := h.mergeOffset hp hn
    obtain ⟨hall, hallAt⟩ := ih hmerge hrest
    refine ⟨hall, fun q hq => ?_⟩
    rw [foldl_cons, hallAt q hq, hmergeAt q hq]
    by_cases hqp : q = p
    · have habsent : topic.offsetAt incoming q = ⊥ := by
        have hnone : incoming.lookup (topic.conversions.formatInt p) = none :=
          JsonMap.lookup_eq_none.mpr hdistinct.1
        unfold offsetAt
        rw [hqp, hnone]
      have hhead : topic.offsetAt (topic.entry p n :: incoming) q = (n : WithBot ℤ) :=
        hincoming.mem_iff.mpr ⟨hqp ▸ mem_cons_self, hn⟩
      rw [if_pos hqp, habsent, sup_bot_eq, hhead]
    · have hhead : topic.offsetAt (topic.entry p n :: incoming) q = topic.offsetAt incoming q := by
        have hkey := beq_eq_false_iff_ne.mpr fun heq => hqp ((formatInt_inj hp hq).mp heq)
        unfold offsetAt entry
        rw [lookup_cons, hkey]
      rw [if_neg hqp, hhead]

end Topic

end Dataflow.Connectors.Kafka
