import Dataflow.Connectors.Values
import Dataflow.Library.Decimal

/-!
# Paging through an Iceberg table

The cursor of the source names the snapshot that has been read, with its number of rows, or, between
two pages, the snapshot that is being read, with the row that the next page begins at. Meanwhile
snapshots are appended to the table.

* `IcebergTable`, `icebergStart`, `icebergFetch`: the code. A scan with a limit gives the first
  rows.
* `icebergStep`: a table to which rows are appended, and a reader that goes on from its cursor.
* `IcebergPlace`: where the next page begins, by the kinds of cursor there are.
* `icebergFetch_spec`: what one page returns.
* **`iceberg_complete_iff`**: at a last page every row has been returned exactly once iff no
  snapshot was committed while another one was being read.
* `rows_skipped`: a snapshot between two pages, and the rows that are lost.

Row counts are numbers of rows in memory; a `float64` holds them exactly.

Source: `files.go`
-/

namespace Dataflow.Connectors

open Activities Library Library.Decimal Library.Transition List Option
  Dataflow.Model

/-! ## The code -/

/-- The summary of a snapshot. -/
structure IcebergSummary where
  operation : String
  properties : List (String × String) := []

/-- A snapshot; `summary` is nil where the metadata has none. -/
structure IcebergSnapshot where
  id : ℤ
  summary : Option IcebergSummary := none

/-- A loaded table: its current snapshot, and the rows of this snapshot in the order of a scan. -/
structure IcebergTable where
  snapshot : Option IcebergSnapshot := none
  rows : List Json := []

/-- `Properties["total-records"]` as `strconv.Atoi` reads it: zero where it cannot. -/
def IcebergSummary.totalRecords (summary : IcebergSummary) : ℤ :=
  (parseDecimal ((summary.properties.lookup "total-records").getD "")).getD 0

section code

variable (conversions : Conversions)

/-- The row that a page begins at. -/
def icebergStart (cursor : JsonMap) (snapshotId : String) : ℤ :=
  let start := truncate (firstNumber conversions [cursor.get "totalRecords", .number 0])
  if stringValue conversions.toFormatting (cursor.get "pendingSnapshotId") = snapshotId then
    truncate (firstNumber conversions [cursor.get "rowOffset", .number start])
  else start

/-- The cursor after a page. -/
def icebergNext (cursor : JsonMap) (snapshotId : String) (hasMore : Bool) (rowOffset : ℕ)
    (totalRecords : ℤ) : JsonMap :=
  if hasMore then
    [("snapshotId", cursor.get "snapshotId"), ("pendingSnapshotId", .string snapshotId),
      ("rowOffset", .number rowOffset), ("totalRecords", .number totalRecords)]
  else [("snapshotId", .string snapshotId), ("totalRecords", .number totalRecords)]

/-- The part after the checks: the page that begins at a row. -/
def icebergPage (rows : List Json) (cursor : JsonMap) (snapshotId : String) (totalRecords : ℤ)
    (start pageSize : ℕ) : JsonSourceResult :=
  let all := rows.take (start + pageSize)
  let start := min start all.length
  let records := (all.drop start).take pageSize
  let hasMore := decide ((start + records.length : ℤ) < totalRecords)
  { records, nextCursor := icebergNext cursor snapshotId hasMore (start + records.length) totalRecords
    hasMore }

/-- Source: `files.go` `icebergFetch`; a panic is an error of the activity. -/
def icebergFetch (loaded : IcebergTable) (p : JsonSourceParams) : Except String JsonSourceResult :=
  match loaded.snapshot with
  | none => .ok { records := [], nextCursor := p.cursor, hasMore := false }
  | some snapshot =>
    let snapshotId := snapshot.id.repr
    let read := stringValue conversions.toFormatting (p.cursor.get "snapshotId")
    if read = snapshotId then .ok { records := [], nextCursor := p.cursor, hasMore := false }
    else
      match snapshot.summary with
      | none => .error "invalid memory address or nil pointer dereference"
      | some summary =>
        if read ≠ "" ∧ summary.operation ≠ "append" then
          .error ("iceberg.fetch: incremental mode supports append snapshots; " ++
            "run a backfill after overwrite/delete snapshots")
        else
          match icebergStart conversions p.cursor snapshotId with
          | .negSucc _ => .error "slice bounds out of range"
          | .ofNat start =>
            .ok (icebergPage loaded.rows p.cursor snapshotId summary.totalRecords start
              (boundedPageSize conversions [p.ingestionPageSize, p.config.get "pageSize"]))

end code

/-! ## Appends and pages -/

/-- A table that grows, and a reader of it: the ids of all snapshots, what the reader has returned,
and whether its last page had more. -/
structure IcebergRead where
  table : IcebergTable
  ids : List ℤ
  cursor : JsonMap := []
  returned : List Json := []
  hasMore : Bool := false

/-- A snapshot with a new id appends rows, or the next page is fetched. -/
inductive IcebergEvent where
  | commit (id : ℤ) (appended : List Json)
  | fetch (config : JsonMap) (ingestion : Option IngestionConfig)

/-- The table after an append snapshot: its summary has the number of all rows. -/
def IcebergTable.append (table : IcebergTable) (id : ℤ) (appended : List Json) : IcebergTable where
  snapshot := some {
    id
    summary := some {
      operation := "append"
      properties := [("total-records", (table.rows.length + appended.length).repr)] } }
  rows := table.rows ++ appended

/-- One event. A page that fails leaves the reader where it is; it is not a step. -/
def icebergStep (conversions : Conversions) (s : IcebergRead) : IcebergEvent → Option IcebergRead
  | .commit id appended =>
    if id ∈ s.ids then none
    else some { s with table := s.table.append id appended, ids := s.ids ++ [id] }
  | .fetch config ingestion =>
    match icebergFetch conversions s.table { config, cursor := s.cursor, ingestion } with
    | .error _ => none
    | .ok result =>
      some { s with
        cursor := result.nextCursor
        returned := s.returned ++ result.records
        hasMore := result.hasMore }

/-- The summary of the current snapshot has the number of rows; without a snapshot there are
none. -/
def IcebergTable.Counted (table : IcebergTable) : Prop :=
  match table.snapshot with
  | none => table.rows = []
  | some snapshot => ∃ summary, snapshot.summary = some summary ∧
      summary.properties.lookup "total-records" = some table.rows.length.repr

/-- A reader that has not begun. -/
def IcebergRead.start (table : IcebergTable) : IcebergRead where
  table := table
  ids := (table.snapshot.map IcebergSnapshot.id).toList

/-- The cursor is inside a snapshot. -/
def IcebergRead.Pending (s : IcebergRead) : Prop := s.cursor.get "pendingSnapshotId" ≠ .null

instance (s : IcebergRead) : Decidable s.Pending := inferInstanceAs (Decidable (¬ _))

/-- No snapshot is committed while the cursor is inside another one. -/
def IcebergUndisturbed (s : IcebergRead) : IcebergEvent → Prop
  | .commit _ _ => ¬ s.Pending
  | .fetch _ _ => True

instance (s : IcebergRead) (event : IcebergEvent) : Decidable (IcebergUndisturbed s event) :=
  match event with
  | .commit _ _ => inferInstanceAs (Decidable (¬ _))
  | .fetch _ _ => isTrue trivial

/-! ## Cursors -/

/-- The cursors the source gives: none yet; a snapshot that is read, with its number of rows; a
snapshot that is being read, with the one read before it, the next row and the number of rows. -/
inductive IcebergPlace where
  | fresh
  | settled (id : ℤ) (total : ℕ)
  | pending (read : Option ℤ) (id : ℤ) (offset total : ℕ)

/-- A snapshot id as the cursor has it. -/
def snapshotText : Option ℤ → Json
  | none => .null
  | some id => .string id.repr

/-- The cursor at a place. -/
def IcebergPlace.cursor : IcebergPlace → JsonMap
  | .fresh => []
  | .settled id total => [("snapshotId", .string id.repr), ("totalRecords", .number total)]
  | .pending read id offset total =>
    [("snapshotId", snapshotText read), ("pendingSnapshotId", .string id.repr),
      ("rowOffset", .number offset), ("totalRecords", .number total)]

/-- The snapshot that is read. -/
def IcebergPlace.read : IcebergPlace → Option ℤ
  | .fresh => none
  | .settled id _ => some id
  | .pending read _ _ _ => read

/-- The row that the next page begins at, when a snapshot is the current one. -/
def IcebergPlace.start : IcebergPlace → ℤ → ℕ
  | .fresh, _ => 0
  | .settled _ total, _ => total
  | .pending _ id offset total, current => if id = current then offset else total

/-- The snapshot that is being read has been followed by another one. -/
def IcebergPlace.Overtaken : IcebergPlace → ℤ → Prop
  | .pending _ id _ _, current => id ≠ current
  | _, _ => False

section cursors

variable {conversions : Conversions} {place : IcebergPlace}

/-- Zero is the default for zero. -/
theorem ite_ne_zero_self (a : ℚ) : (if a ≠ 0 then a else 0) = a := by
  split_ifs with h
  · rfl
  · rw [not_not.mp h]

theorem stringValue_snapshotText (formatting : Formatting) (read : Option ℤ) (id : ℤ) :
    stringValue formatting (snapshotText read) = id.repr ↔ read = some id := by
  cases read with
  | none => simpa [snapshotText, stringValue] using (repr_int_ne_empty id).symm
  | some id' =>
    show id'.repr = id.repr ↔ some id' = some id
    rw [repr_int_injective.eq_iff, some.injEq]

theorem get_snapshotId_cursor (place : IcebergPlace) :
    place.cursor.get "snapshotId" = snapshotText place.read := by
  cases place <;> rfl

/-- **The start of a page** at a place. -/
theorem icebergStart_cursor (hpos : ∀ read id offset total, place = .pending read id offset total →
    0 < offset) (current : ℤ) :
    icebergStart conversions place.cursor current.repr = place.start current := by
  have hne : "" ≠ current.repr := (repr_int_ne_empty current).symm
  cases place with
  | fresh =>
    have hzero : firstNumber conversions [.null, .number 0] = 0 := by simp [firstNumber, number]
    have htext : stringValue conversions.toFormatting (JsonMap.get [] "pendingSnapshotId") = "" :=
      rfl
    rw [IcebergPlace.cursor, icebergStart, htext, if_neg hne]
    exact (congrArg truncate hzero).trans (truncate_natCast 0)
  | settled id total =>
    have htotal : JsonMap.get (IcebergPlace.settled id total).cursor "totalRecords" =
        .number total := rfl
    have htext : stringValue conversions.toFormatting
        ((IcebergPlace.settled id total).cursor.get "pendingSnapshotId") = "" := rfl
    rw [icebergStart, htext, if_neg hne, htotal, firstNumber_pair, ite_ne_zero_self,
      truncate_natCast]
    rfl
  | pending read id offset total =>
    have htotal : JsonMap.get (IcebergPlace.pending read id offset total).cursor "totalRecords" =
        .number total := rfl
    have htext : stringValue conversions.toFormatting
        ((IcebergPlace.pending read id offset total).cursor.get "pendingSnapshotId") =
          id.repr := rfl
    have hoffset : JsonMap.get (IcebergPlace.pending read id offset total).cursor "rowOffset" =
        .number offset := rfl
    have hne_zero : (offset : ℚ) ≠ 0 := by
      have := hpos read id offset total rfl
      positivity
    rw [icebergStart, htext, htotal, hoffset, firstNumber_pair, firstNumber_pair,
      ite_ne_zero_self, if_pos hne_zero, truncate_natCast, truncate_natCast, IcebergPlace.start]
    simp only [repr_int_injective.eq_iff]
    split_ifs <;> rfl

end cursors

/-! ## One page -/

/-- What a place says about the snapshots and the rows of the table. -/
def IcebergPlace.Known (place : IcebergPlace) (s : IcebergRead) : Prop :=
  match place with
  | .fresh => True
  | .settled id total => id ∈ s.ids ∧ total ≤ s.table.rows.length ∧
      (s.ids.getLast? = some id → total = s.table.rows.length)
  | .pending read id offset total =>
    (∀ id' ∈ read, id' ∈ s.ids ∧ s.ids.getLast? ≠ some id') ∧ id ∈ s.ids ∧ 0 < offset ∧
      offset < total ∧ total ≤ s.table.rows.length ∧
      (s.ids.getLast? = some id → total = s.table.rows.length)

/-- The reader is at a place. -/
structure IcebergRead.At (s : IcebergRead) (place : IcebergPlace) : Prop where
  cursor : s.cursor = place.cursor
  counted : s.table.Counted
  current : s.ids.getLast? = s.table.snapshot.map IcebergSnapshot.id
  append : ∀ snapshot summary, s.table.snapshot = some snapshot → snapshot.summary = some summary →
    summary.operation = "append" ∨ s.ids.length ≤ 1
  known : place.Known s

/-- The row that the next page begins at. -/
def IcebergRead.position (s : IcebergRead) (place : IcebergPlace) : ℕ :=
  s.ids.getLast?.elim 0 place.start

/-- What a page does to the reader. -/
structure IcebergRead.Page (s : IcebergRead) (place : IcebergPlace) (s' : IcebergRead)
    (place' : IcebergPlace) (records : List Json) : Prop where
  table : s'.table = s.table
  ids : s'.ids = s.ids
  returned : s'.returned = s.returned ++ records
  consecutive : records <+: s.table.rows.drop (s.position place)
  position : s'.position place' = s.position place + records.length
  inTime : ∀ current, s.ids.getLast? = some current → ¬ place'.Overtaken current
  last : s'.hasMore = false → s'.position place' = s.table.rows.length

variable {id : ℤ}

section page

variable (conversions : Conversions) {s s' : IcebergRead} {place : IcebergPlace}
  {snapshot : IcebergSnapshot}

/-- The part of the code after the checks, where the summary has the number of rows. -/
theorem icebergPage_eq {rows : List Json} {start : ℕ} (h : start ≤ rows.length) (cursor : JsonMap)
    (snapshotId : String) (pageSize : ℕ) :
    icebergPage rows cursor snapshotId rows.length start pageSize =
      { records := (rows.drop start).take pageSize
        nextCursor := icebergNext cursor snapshotId
          (decide (start + min pageSize (rows.length - start) < rows.length))
          (start + min pageSize (rows.length - start)) rows.length
        hasMore := decide (start + min pageSize (rows.length - start) < rows.length) } := by
  have hstart : min start (rows.take (start + pageSize)).length = start := by
    rw [length_take]
    omega
  have hrecords : ((rows.take (start + pageSize)).drop start).take pageSize =
      (rows.drop start).take pageSize := by
    rw [drop_take, Nat.add_sub_cancel_left, take_take, min_self]
  unfold icebergPage
  dsimp only
  rw [hstart, hrecords, length_take, length_drop]
  norm_cast

theorem totalRecords_of_counted {table : IcebergTable} {summary : IcebergSummary}
    (h : table.Counted) (hsnapshot : table.snapshot = some snapshot)
    (hsummary : snapshot.summary = some summary) : summary.totalRecords = table.rows.length := by
  unfold IcebergTable.Counted at h
  rw [hsnapshot] at h
  obtain ⟨summary', hsummary', hproperty⟩ := h
  obtain rfl := some.inj (hsummary.symm.trans hsummary')
  rw [IcebergSummary.totalRecords, hproperty, getD_some, parseDecimal_repr, getD_some]

/-- The next page begins at a row there is, or at the end. -/
theorem IcebergPlace.Known.start_le (h : place.Known s) (current : ℤ) :
    place.start current ≤ s.table.rows.length := by
  cases place with
  | fresh => exact Nat.zero_le _
  | settled id total => exact h.2.1
  | pending read id offset total =>
    obtain ⟨-, -, -, hlt, hle, -⟩ := h
    rw [IcebergPlace.start]
    split_ifs
    · exact hlt.le.trans hle
    · exact hle

/-- A snapshot that is read is one of the table. -/
theorem IcebergPlace.Known.read_mem (h : place.Known s) (hread : place.read = some id) :
    id ∈ s.ids := by
  cases place with
  | fresh => cases hread
  | settled id' total =>
    cases hread
    exact h.1
  | pending read id' offset total => exact (h.1 id hread).1

/-- **The spec of the code**: what a page returns when the current snapshot is not read yet. -/
theorem icebergFetch_spec (h : s.At place) (hsnapshot : s.table.snapshot = some snapshot)
    (hread : place.read ≠ some snapshot.id) (p : JsonSourceParams) (hp : p.cursor = s.cursor) :
    ∃ pageSize, 0 < pageSize ∧ icebergFetch conversions s.table p =
      .ok (icebergPage s.table.rows s.cursor snapshot.id.repr s.table.rows.length
        (place.start snapshot.id) pageSize) := by
  have hcurrent : s.ids.getLast? = some snapshot.id := by rw [h.current, hsnapshot, map_some]
  obtain ⟨summary, hsummary⟩ : ∃ summary, snapshot.summary = some summary := by
    have hcounted := h.counted
    unfold IcebergTable.Counted at hcounted
    rw [hsnapshot] at hcounted
    exact ⟨_, hcounted.choose_spec.1⟩
  refine ⟨boundedPageSize conversions [p.ingestionPageSize, p.config.get "pageSize"],
    (boundedPageSize_bounds _ _).1, ?_⟩
  have hstart : icebergStart conversions s.cursor snapshot.id.repr = place.start snapshot.id := by
    rw [h.cursor]
    apply icebergStart_cursor
    rintro read id offset total rfl
    exact h.known.2.2.1
  have hunread : stringValue conversions.toFormatting (s.cursor.get "snapshotId") ≠
      snapshot.id.repr := by
    rw [h.cursor, get_snapshotId_cursor, Ne, stringValue_snapshotText]
    exact hread
  -- the check of the operation: a snapshot that follows one that is read was appended
  have happend : ¬ (stringValue conversions.toFormatting (s.cursor.get "snapshotId") ≠ "" ∧
      summary.operation ≠ "append") := by
    rintro ⟨htext, hoperation⟩
    rw [h.cursor, get_snapshotId_cursor] at htext
    cases hid : place.read with
    | none =>
      rw [hid] at htext
      exact htext rfl
    | some id =>
      have hone := (h.append snapshot summary hsnapshot hsummary).resolve_left hoperation
      have hmem := h.known.read_mem hid
      obtain ⟨id', hids⟩ : ∃ id', s.ids = [id'] :=
        length_eq_one_iff.mp (le_antisymm hone (length_pos_of_mem hmem))
      rw [hids, mem_singleton] at hmem
      rw [hids, getLast?_singleton] at hcurrent
      rw [hid, hmem, hcurrent] at hread
      exact hread rfl
  unfold icebergFetch
  rw [hsnapshot, hp]
  dsimp only
  rw [if_neg hunread, hsummary]
  dsimp only
  rw [if_neg happend, hstart, totalRecords_of_counted h.counted hsnapshot hsummary]

/-- A page of a table without a snapshot. -/
theorem IcebergRead.At.page_of_none (h : s.At place) (hsnapshot : s.table.snapshot = none)
    (config : JsonMap) (ingestion : Option IngestionConfig) :
    ∃ s', icebergStep conversions s (.fetch config ingestion) = some s' ∧ s'.At place ∧
      s.Page place s' place [] := by
  have hnone : s.ids.getLast? = none := by rw [h.current, hsnapshot, map_none]
  have hids : s.ids = [] := getLast?_eq_none_iff.mp hnone
  have hrows : s.table.rows = [] := by
    have hcounted := h.counted
    unfold IcebergTable.Counted at hcounted
    rwa [hsnapshot] at hcounted
  refine ⟨{ s with returned := s.returned ++ [], hasMore := false }, ?_, ?_, ?_⟩
  · rw [icebergStep, icebergFetch, hsnapshot]
  · exact ⟨h.cursor, h.counted, h.current, h.append, h.known⟩
  · refine ⟨rfl, rfl, rfl, nil_prefix, rfl, ?_, ?_⟩
    · intro current hcurrent
      simp [hnone] at hcurrent
    · intro _
      rw [position, hnone, hrows]
      rfl

/-- A page when the current snapshot is read. -/
theorem IcebergRead.At.page_of_read (h : s.At place) (hsnapshot : s.table.snapshot = some snapshot)
    (hread : place.read = some snapshot.id) (config : JsonMap)
    (ingestion : Option IngestionConfig) :
    ∃ s', icebergStep conversions s (.fetch config ingestion) = some s' ∧ s'.At place ∧
      s.Page place s' place [] := by
  have hcurrent : s.ids.getLast? = some snapshot.id := by rw [h.current, hsnapshot, map_some]
  have hplace : place = .settled snapshot.id s.table.rows.length := by
    have hknown := h.known
    cases place with
    | fresh => cases hread
    | settled id total =>
      cases hread
      rw [hknown.2.2 hcurrent]
    | pending read id offset total => exact absurd hcurrent (hknown.1 _ hread).2
  have htext : stringValue conversions.toFormatting (s.cursor.get "snapshotId") =
      snapshot.id.repr := by
    rw [h.cursor, get_snapshotId_cursor, stringValue_snapshotText]
    exact hread
  refine ⟨{ s with returned := s.returned ++ [], hasMore := false }, ?_, ?_, ?_⟩
  · rw [icebergStep, icebergFetch, hsnapshot]
    dsimp only
    rw [if_pos htext]
  · exact ⟨h.cursor, h.counted, h.current, h.append, h.known⟩
  · refine ⟨rfl, rfl, rfl, nil_prefix, rfl, ?_, ?_⟩
    · rintro current - hover
      rw [hplace] at hover
      exact hover
    · intro _
      rw [position, hcurrent, hplace]
      rfl

/-- The place after a page of a snapshot that is not read yet. -/
def IcebergPlace.next (place : IcebergPlace) (current : ℤ) (offset total : ℕ) : IcebergPlace :=
  if offset < total then .pending place.read current offset total else .settled current total

theorem icebergNext_cursor (place : IcebergPlace) (current : ℤ) (offset total : ℕ) :
    icebergNext place.cursor current.repr (decide (offset < total)) offset total =
      (place.next current offset total).cursor := by
  unfold icebergNext IcebergPlace.next
  by_cases hlt : offset < total
  · rw [if_pos hlt, if_pos (decide_eq_true hlt), get_snapshotId_cursor]
    rfl
  · rw [if_neg hlt, if_neg (by rwa [decide_eq_true_eq])]
    rfl

/-- A page of a snapshot that is not read yet. -/
theorem IcebergRead.At.page_of_unread (h : s.At place)
    (hsnapshot : s.table.snapshot = some snapshot) (hread : place.read ≠ some snapshot.id)
    (config : JsonMap) (ingestion : Option IngestionConfig) :
    ∃ s' place' records, icebergStep conversions s (.fetch config ingestion) = some s' ∧
      s'.At place' ∧ s.Page place s' place' records := by
  have hcurrent : s.ids.getLast? = some snapshot.id := by rw [h.current, hsnapshot, map_some]
  obtain ⟨pageSize, hpage, hfetch⟩ := icebergFetch_spec conversions h hsnapshot hread
    { config, cursor := s.cursor, ingestion } rfl
  have hle := h.known.start_le snapshot.id
  rw [icebergPage_eq hle] at hfetch
  set start := place.start snapshot.id with hstart
  set total := s.table.rows.length with htotal
  set offset := start + min pageSize (total - start) with hoffset
  rw [h.cursor, icebergNext_cursor] at hfetch
  have hposition : s.position place = start := by rw [position, hcurrent, elim_some]
  have hlength : ((s.table.rows.drop start).take pageSize).length = offset - start := by
    rw [length_take, length_drop]
    omega
  have hnext : (place.next snapshot.id offset total).start snapshot.id = offset := by
    unfold IcebergPlace.next
    split_ifs with hlt
    · exact if_pos rfl
    · rw [IcebergPlace.start]
      omega
  have hmem : snapshot.id ∈ s.ids := mem_of_getLast? hcurrent
  have hknown : (place.next snapshot.id offset total).Known s := by
    unfold IcebergPlace.next
    split_ifs with hlt
    · refine ⟨?_, hmem, by omega, hlt, le_refl _, fun _ => rfl⟩
      intro id hid
      refine ⟨h.known.read_mem hid, ?_⟩
      rintro hlast
      rw [hcurrent] at hlast
      exact hread (hid.trans hlast.symm)
    · exact ⟨hmem, le_refl _, fun _ => rfl⟩
  refine ⟨{ s with
      cursor := (place.next snapshot.id offset total).cursor
      returned := s.returned ++ (s.table.rows.drop start).take pageSize
      hasMore := decide (offset < total) },
    place.next snapshot.id offset total, (s.table.rows.drop start).take pageSize, ?_, ?_, ?_⟩
  · rw [icebergStep, h.cursor, hfetch]
  · exact ⟨rfl, h.counted, h.current, h.append, hknown⟩
  · refine ⟨rfl, rfl, rfl, ?_, ?_, ?_, ?_⟩
    · rw [hposition]
      exact take_prefix _ _
    · rw [position, hcurrent, elim_some, hnext, hposition, hlength]
      omega
    · rintro current hlast hover
      obtain rfl := some.inj (hcurrent.symm.trans hlast)
      unfold IcebergPlace.next at hover
      split_ifs at hover
      · exact hover rfl
      · exact hover
    · intro hmore
      rw [position, hcurrent, elim_some, hnext]
      have hge : ¬ offset < total := of_decide_eq_false hmore
      omega

/-- **A page**: it never fails, and it returns the next rows. -/
theorem IcebergRead.At.page (h : s.At place) (config : JsonMap)
    (ingestion : Option IngestionConfig) :
    ∃ s' place' records, icebergStep conversions s (.fetch config ingestion) = some s' ∧
      s'.At place' ∧ s.Page place s' place' records := by
  cases hsnapshot : s.table.snapshot with
  | none =>
    obtain ⟨s', hstep, hat, hpage⟩ := h.page_of_none conversions hsnapshot config ingestion
    exact ⟨s', place, [], hstep, hat, hpage⟩
  | some snapshot =>
    by_cases hread : place.read = some snapshot.id
    · obtain ⟨s', hstep, hat, hpage⟩ := h.page_of_read conversions hsnapshot hread config ingestion
      exact ⟨s', place, [], hstep, hat, hpage⟩
    · exact h.page_of_unread conversions hsnapshot hread config ingestion

end page

/-! ## Runs -/

/-- Nothing is lost: the rows before the next page have been returned. -/
structure IcebergRead.Complete (s : IcebergRead) (place : IcebergPlace) : Prop where
  inTime : ∀ current, s.ids.getLast? = some current → ¬ place.Overtaken current
  returned : s.returned = s.table.rows.take (s.position place)

/-- Rows are lost: the next page begins after more rows than have been returned. -/
def IcebergRead.Short (s : IcebergRead) (place : IcebergPlace) : Prop :=
  s.returned.length < s.position place

section runs

variable {conversions : Conversions} {s s' : IcebergRead} {place place' : IcebergPlace}
  {records : List Json} {event : IcebergEvent} {es : List IcebergEvent} {table : IcebergTable}

/-- The next page begins at a row there is, or at the end. -/
theorem IcebergRead.At.position_le (h : s.At place) : s.position place ≤ s.table.rows.length := by
  unfold position
  cases s.ids.getLast? with
  | none => exact Nat.zero_le _
  | some current => exact h.known.start_le current

/-- A page loses nothing. -/
theorem IcebergRead.Complete.page (h : s.Complete place) (hpage : s.Page place s' place' records) :
    s'.Complete place' where
  inTime := by
    rw [hpage.ids]
    exact hpage.inTime
  returned := by
    rw [hpage.returned, hpage.position, hpage.table, h.returned, take_add,
      ← prefix_iff_eq_take.mp hpage.consecutive]

/-- A page does not bring back what is lost. -/
theorem IcebergRead.Short.page (h : s.Short place) (hpage : s.Page place s' place' records) :
    s'.Short place' := by
  unfold Short at h ⊢
  rw [hpage.returned, hpage.position, length_append]
  omega

variable {appended : List Json}

/-- What is known of a place stays when rows are appended. -/
theorem IcebergPlace.Known.commit (h : place.Known s) (hid : id ∉ s.ids)
    (hs' : s'.ids = s.ids ++ [id])
    (htable : s'.table = s.table.append id appended) : place.Known s' := by
  have hlast : s'.ids.getLast? = some id := by rw [hs', getLast?_concat]
  have hrows : s.table.rows.length ≤ s'.table.rows.length := by
    rw [htable, IcebergTable.append, length_append]
    exact Nat.le_add_right _ _
  have hmem : ∀ id' ∈ s.ids, id' ∈ s'.ids ∧ s'.ids.getLast? ≠ some id' := by
    intro id' hid'
    rw [hs', getLast?_concat]
    refine ⟨mem_append_left _ hid', ?_⟩
    rintro heq
    rw [some.inj heq] at hid
    exact hid hid'
  cases place with
  | fresh => exact trivial
  | settled id' total =>
    obtain ⟨hid', hle, -⟩ := h
    exact ⟨(hmem id' hid').1, hle.trans hrows, fun heq => absurd heq (hmem id' hid').2⟩
  | pending read id' offset total =>
    obtain ⟨hread, hid', hpos, hlt, hle, -⟩ := h
    exact ⟨fun r hr => hmem r (hread r hr).1, (hmem id' hid').1, hpos, hlt, hle.trans hrows,
      fun heq => absurd heq (hmem id' hid').2⟩

/-- The reader stays at its place when rows are appended. -/
theorem IcebergRead.At.commit (h : s.At place)
    (hstep : icebergStep conversions s (.commit id appended) = some s') :
    s'.At place ∧ id ∉ s.ids ∧
      s' = { s with table := s.table.append id appended, ids := s.ids ++ [id] } := by
  rw [icebergStep] at hstep
  split_ifs at hstep with hid
  obtain rfl := some.inj hstep
  refine ⟨⟨h.cursor, ?_, ?_, ?_, h.known.commit hid rfl rfl⟩, hid, rfl⟩
  · refine ⟨_, rfl, ?_⟩
    rw [IcebergTable.append, length_append]
    rfl
  · rw [getLast?_concat]
    rfl
  · intro snapshot summary hsnapshot hsummary
    left
    obtain rfl := some.inj hsnapshot
    obtain rfl := some.inj hsummary
    rfl

/-- The kinds of places, by the cursor. -/
theorem IcebergRead.At.pending_iff (h : s.At place) :
    s.Pending ↔ ∃ read id offset total, place = .pending read id offset total := by
  rw [Pending, h.cursor]
  cases place with
  | fresh => simp [IcebergPlace.cursor, JsonMap.get]
  | settled id total => simp [IcebergPlace.cursor, JsonMap.get, List.lookup_cons]
  | pending read id offset total => simp [IcebergPlace.cursor, JsonMap.get, List.lookup_cons]

/-- Between two runs the next page begins where it did. -/
theorem IcebergRead.At.position_commit (h : s.At place) (hidle : ¬ s.Pending)
    (hs' : s'.ids = s.ids ++ [id]) : s'.position place = s.position place := by
  rw [h.pending_iff] at hidle
  rw [position, position, hs', getLast?_concat, elim_some]
  cases hplace : place with
  | fresh => cases s.ids.getLast? <;> rfl
  | settled id' total =>
    have hknown := h.known
    rw [hplace] at hknown
    have hne : s.ids ≠ [] := ne_nil_of_mem hknown.1
    rw [getLast?_eq_some_getLast hne]
    rfl
  | pending read id' offset total => exact absurd ⟨read, id', offset, total, hplace⟩ hidle

/-- A snapshot between two runs loses nothing. -/
theorem IcebergRead.Complete.commit (hat : s.At place) (h : s.Complete place) (hidle : ¬ s.Pending)
    (hids : s'.ids = s.ids ++ [id])
    (htable : s'.table = s.table.append id appended) (hreturned : s'.returned = s.returned) :
    s'.Complete place where
  inTime := by
    rintro current - hover
    apply hidle
    rw [hat.pending_iff]
    cases place with
    | fresh | settled id' total => exact hover.elim
    | pending read id' offset total => exact ⟨read, id', offset, total, rfl⟩
  returned := by
    rw [hat.position_commit hidle hids, htable, IcebergTable.append,
      take_append_of_le_length hat.position_le, hreturned]
    exact h.returned

/-- **A snapshot inside another one** skips the rest of the first one. -/
theorem IcebergRead.At.short_commit (hat : s.At place) (h : s.Complete place ∨ s.Short place)
    (hpending : s.Pending) (hid : id ∉ s.ids) (hids : s'.ids = s.ids ++ [id])
    (hreturned : s'.returned = s.returned) : s'.Short place := by
  obtain ⟨read, id', offset, total, rfl⟩ := hat.pending_iff.mp hpending
  obtain ⟨-, hid', -, hlt, hle, -⟩ := hat.known
  have hne : id' ≠ id := fun heq => hid (heq ▸ hid')
  obtain ⟨current, hcurrent⟩ : ∃ current, s.ids.getLast? = some current :=
    ⟨_, getLast?_eq_some_getLast (ne_nil_of_mem hid')⟩
  have hposition : s'.position (.pending read id' offset total) = total := by
    rw [position, hids, getLast?_concat, elim_some, IcebergPlace.start, if_neg hne]
  rw [Short, hposition, hreturned]
  rcases h with h | h
  · have heq : id' = current := not_not.mp (h.inTime current hcurrent)
    have hoffset : s.position (.pending read id' offset total) = offset := by
      rw [position, hcurrent, elim_some, IcebergPlace.start, if_pos heq]
    rw [h.returned, hoffset, length_take]
    omega
  · rw [Short, position, hcurrent, elim_some, IcebergPlace.start] at h
    split_ifs at h
    · omega
    · exact h

/-- What is lost stays lost. -/
theorem IcebergRead.Short.commit (hat : s.At place) (h : s.Short place)
    (hid : id ∉ s.ids) (hids : s'.ids = s.ids ++ [id]) (hreturned : s'.returned = s.returned) :
    s'.Short place := by
  by_cases hpending : s.Pending
  · exact hat.short_commit (.inr h) hpending hid hids hreturned
  · rw [Short, hat.position_commit hpending hids, hreturned]
    exact h

/-- At the start nothing is returned. -/
theorem IcebergRead.at_start (htable : table.Counted) : (IcebergRead.start table).At .fresh where
  cursor := rfl
  counted := htable
  current := by
    rw [start]
    cases table.snapshot <;> rfl
  append _ _ _ _ := by
    right
    rw [start]
    cases table.snapshot <;> simp
  known := trivial

theorem IcebergRead.complete_start : (IcebergRead.start table).Complete .fresh where
  inTime _ _ := id
  returned := by
    unfold position
    cases (start table).ids.getLast? <;> rfl

/-- Nothing is lost, or something is. -/
def IcebergRead.Inv (s : IcebergRead) : Prop :=
  ∃ place, s.At place ∧ (s.Complete place ∨ s.Short place)

/-- Something is lost. -/
def IcebergRead.Lost (s : IcebergRead) : Prop := ∃ place, s.At place ∧ s.Short place

/-- **One step keeps the reader at a place**; an allowed one loses nothing, another one does. -/
theorem IcebergRead.At.step (hat : s.At place) (h : s.Complete place ∨ s.Short place)
    (hstep : icebergStep conversions s event = some s') :
    ∃ place', s'.At place' ∧ (s.Complete place → IcebergUndisturbed s event → s'.Complete place') ∧
      (s.Short place → s'.Short place') ∧ (¬ IcebergUndisturbed s event → s'.Short place') := by
  cases event with
  | commit id appended =>
    obtain ⟨hat', hid, rfl⟩ := hat.commit hstep
    refine ⟨place, hat', ?_, ?_, ?_⟩
    · intro hcomplete hidle
      exact hcomplete.commit hat hidle rfl rfl rfl
    · intro hshort
      exact hshort.commit hat hid rfl rfl
    · intro hpending
      exact hat.short_commit h (not_not.mp hpending) hid rfl rfl
  | fetch config ingestion =>
    obtain ⟨s'', place', records, hstep', hat', hpage⟩ :=
      hat.page conversions config ingestion
    obtain rfl := some.inj (hstep.symm.trans hstep')
    exact ⟨place', hat', fun hcomplete _ => hcomplete.page hpage, fun hshort => hshort.page hpage,
      fun hnot => absurd trivial hnot⟩

/-- The reader of a run is at a place. -/
theorem IcebergRead.inv_of_run {allowed : List IcebergEvent → IcebergRead → IcebergEvent → Prop}
    (htable : table.Counted) (h : Run (icebergStep conversions) allowed (.start table) es s) :
    s.Inv := by
  refine h.invariant (I := fun _ s => s.Inv) ⟨.fresh, at_start htable, .inl complete_start⟩ ?_
  rintro es s event s' ⟨place, hat, hor⟩ - hstep
  obtain ⟨place', hat', hcomplete, hshort, hnot⟩ := hat.step hor hstep
  refine ⟨place', hat', ?_⟩
  rcases hor with h | h
  · by_cases hok : IcebergUndisturbed s event
    · exact .inl (hcomplete h hok)
    · exact .inr (hnot hok)
  · exact .inr (hshort h)

/-- An undisturbed run loses nothing. -/
theorem IcebergRead.complete_of_run (htable : table.Counted)
    (h : Run (icebergStep conversions) (fun _ => IcebergUndisturbed) (.start table) es s) :
    ∃ place, s.At place ∧ s.Complete place := by
  refine h.invariant (I := fun _ s => ∃ place, s.At place ∧ s.Complete place)
    ⟨.fresh, at_start htable, complete_start⟩ ?_
  rintro es s event s' ⟨place, hat, hcomplete⟩ hok hstep
  obtain ⟨place', hat', hkeep, -⟩ := hat.step (.inl hcomplete) hstep
  exact ⟨place', hat', hkeep hcomplete hok⟩

/-- A disturbed run has lost something. -/
theorem IcebergRead.undisturbed_or_lost (htable : table.Counted)
    (h : Run (icebergStep conversions) Any (.start table) es s) :
    Run (icebergStep conversions) (fun _ => IcebergUndisturbed) (.start table) es s ∨ s.Lost := by
  refine h.allowed_or ?_ ?_
  · intro es s event s' hrun hstep hnot
    obtain ⟨place, hat, hor⟩ := inv_of_run htable hrun
    obtain ⟨place', hat', -, -, hlost⟩ := hat.step hor hstep
    exact ⟨place', hat', hlost hnot⟩
  · rintro es s event s' - hstep ⟨place, hat, hshort⟩
    obtain ⟨place', hat', -, hkeep, -⟩ := hat.step (.inr hshort) hstep
    exact ⟨place', hat', hkeep hshort⟩

/-- **Paging is complete iff it is not disturbed.** Whatever the sizes of the pages, a page never
fails, and when it is a last one the rows returned so far are those of the table, each once, iff no
snapshot has been committed while the cursor was inside another one. -/
theorem iceberg_complete_iff (conversions : Conversions) (table : IcebergTable)
    (htable : table.Counted) (es : List IcebergEvent) (s : IcebergRead)
    (hrun : Run (icebergStep conversions) Any (.start table) es s) (config : JsonMap)
    (ingestion : Option IngestionConfig) :
    ∃ s', icebergStep conversions s (.fetch config ingestion) = some s' ∧
      (s'.hasMore = false → (s'.returned.Perm s'.table.rows ↔
        Run (icebergStep conversions) (fun _ => IcebergUndisturbed) (.start table) es s)) := by
  obtain ⟨place, hat, hor⟩ := IcebergRead.inv_of_run htable hrun
  obtain ⟨s', place', records, hstep, hat', hpage⟩ :=
    hat.page conversions config ingestion
  refine ⟨s', hstep, fun hlast => ?_⟩
  have hend := hpage.last hlast
  rw [← hpage.table] at hend
  constructor
  · intro hperm
    rcases IcebergRead.undisturbed_or_lost htable hrun with hok | ⟨place₀, hat₀, hshort⟩
    · exact hok
    · exfalso
      obtain ⟨s'', place₁, records₁, hstep₁, hat₁, hpage₁⟩ :=
        hat₀.page conversions config ingestion
      obtain rfl := some.inj (hstep.symm.trans hstep₁)
      have hshort' := hshort.page hpage₁
      have hend₁ := hpage₁.last hlast
      rw [IcebergRead.Short, hend₁, ← hpage₁.table, hperm.length_eq] at hshort'
      exact lt_irrefl _ hshort'
  · intro hok
    obtain ⟨place₀, hat₀, hcomplete⟩ := IcebergRead.complete_of_run htable hok
    obtain ⟨s'', place₁, records₁, hstep₁, hat₁, hpage₁⟩ :=
      hat₀.page conversions config ingestion
    obtain rfl := some.inj (hstep.symm.trans hstep₁)
    have hreturned := (hcomplete.page hpage₁).returned
    rw [hpage₁.last hlast, ← hpage₁.table, take_length] at hreturned
    rw [hreturned]

end runs

/-! ## Examples -/

/-- Conversions of values that do not occur here. -/
def icebergConversions : Conversions where
  sprint _ := ""
  scanFloat _ := 0
  parseFloat _ := 0
  quote text := text

/-- Rows with a name. -/
def icebergRows (names : List String) : List Json := names.map .string

/-- The theorem at a table of three rows that is read by pages of two rows. -/
theorem iceberg_complete_iff_three_rows :
    ∃ s s', Run (icebergStep icebergConversions) (fun _ => IcebergUndisturbed) (.start {})
        [.commit 1 (icebergRows ["a", "b", "c"]), .fetch [("pageSize", .number 2)] none] s ∧
      icebergStep icebergConversions s (.fetch [] none) = some s' ∧
      s'.returned.Perm s'.table.rows := by
  have hcounted : IcebergTable.Counted {} := rfl
  obtain ⟨s, hrun, hlast⟩ : ∃ s, Run (icebergStep icebergConversions) (fun _ => IcebergUndisturbed)
      (.start {}) [.commit 1 (icebergRows ["a", "b", "c"]), .fetch [("pageSize", .number 2)] none] s ∧
      (icebergStep icebergConversions s (.fetch [] none)).all (fun s' => !s'.hasMore) = true :=
    exists_run_of_guarded (by decide +kernel)
  obtain ⟨s', hstep, hiff⟩ := iceberg_complete_iff icebergConversions {} hcounted _ s
    (hrun.mono fun _ _ _ _ => trivial) [] none
  rw [hstep, all_some, Bool.not_eq_true'] at hlast
  exact ⟨s, s', hrun, hstep, (hiff hlast).mpr hrun⟩

/-- **Rows are skipped**: a snapshot is appended after the first page of three rows, and the second
page is the last one. -/
theorem rows_skipped : ∃ s, Run (icebergStep icebergConversions) Any (.start {})
        [.commit 1 (icebergRows ["a", "b", "c"]), .fetch [("pageSize", .number 1)] none,
          .commit 2 (icebergRows ["d"]), .fetch [("pageSize", .number 1)] none] s ∧
      s.hasMore = false ∧ ¬ s.returned.Perm s.table.rows :=
  exists_run_of_check (fun _ _ _ _ => trivial) (by decide +kernel)

end Dataflow.Connectors
