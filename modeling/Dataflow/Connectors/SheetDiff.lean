import Dataflow.Connectors.MergeArrays

/-!
# The rows of a sheet that have changed

The source reads a whole sheet, and gives on the rows whose content is not the one that the cursor
has under the key of the row. The key is the text of the key column, or the number of the row where
this text is empty.

* `SheetRow`, `sheetRows`: the rows of a sheet, with their keys and contents.
* `rowDiff`: the code. `sha1` is the digest of a text in hexadecimal digits.
* `rowDiff_fst`, `get_rowHashes`: the loop: what is given on, and what the next cursor has.
* `Converges`: the same sheet gives nothing on a second time, and what was given on the first time
  was new or changed.
* **`rowDiff_converges_iff`**: so it is iff rows with one key have one digest.
* `row_emitted_again`: two rows with one key, one of which is given on every time.

Source: `saas.go`
-/

namespace Dataflow.Connectors

open Activities Model List

/-! ## The code -/

/-- A row below the headers: its key, and its cells under their headers. -/
structure SheetRow where
  key : String
  fields : JsonMap

section code

variable (rendering : Rendering) (sha1 : String → String)

/-- The cells of a row under their headers; of equal headers the last one counts, and a cell that
the row does not have is null. -/
def sheetFields (headers : List String) (cells : List Json) : JsonMap :=
  headers.zipIdx.foldl (fun row header => row.set header.1 ((cells[header.2]?).getD .null)) []

/-- The body of the loop, up to the key. -/
def sheetRow (headers : List String) (keyColumn : String) (cells : List Json) (index : ℕ) :
    SheetRow :=
  let fields := sheetFields headers cells
  let keyField := if keyColumn = "" then headers.headD "" else keyColumn
  let key := stringValue rendering.toFormatting (fields.get keyField)
  { key := if key = "" then index.repr else key, fields }

/-- The rows below the headers. -/
def sheetRows (values : List (List Json)) (keyColumn : String) : List SheetRow :=
  let headers := (values.headD []).map (stringValue rendering.toFormatting)
  values.tail.zipIdx.map fun cells => sheetRow rendering headers keyColumn cells.1 cells.2

/-- The digest of a row. -/
def SheetRow.digest (row : SheetRow) : String :=
  sha1 (marshal rendering.numbers (.object row.fields))

/-- What is given on for a row: its cells, and its key unless a header has this name. -/
def SheetRow.record (row : SheetRow) : Json :=
  .object (row.fields.foldl (fun (out : JsonMap) field => out.set field.1 field.2)
    [("_rowKey", .string row.key)])

/-- `cursor["rowHashes"]`; the nil map where it is no map. -/
def previousHashes (cursor : JsonMap) : JsonMap := (cursor.get "rowHashes").asObject?.getD []

/-- The body of the loop, from the key on. -/
def diffRow (previous : JsonMap) (state : JsonMap × List Json) (row : SheetRow) :
    JsonMap × List Json :=
  let digest := row.digest rendering sha1
  (state.1.set row.key (.string digest),
    if stringValue rendering.toFormatting (previous.get row.key) ≠ digest then
      state.2 ++ [row.record]
    else state.2)

/-- Source: `saas.go` `rowDiff`. -/
def rowDiff (values : List (List Json)) (keyColumn : String) (cursor : JsonMap) :
    List Json × JsonMap :=
  match values with
  | [] => ([], cursor)
  | header :: rows =>
    let state := (sheetRows rendering (header :: rows) keyColumn).foldl
      (diffRow rendering sha1 (previousHashes cursor)) ([], [])
    (state.2, [("rowHashes", .object state.1)])

/-! ## What is claimed -/

/-- The cursor has nothing for the key of a row, or the digest of other content. -/
def SheetRow.NewOrChanged (row : SheetRow) (cursor : JsonMap) : Prop :=
  (previousHashes cursor).lookup row.key = none ∨
    stringValue rendering.toFormatting ((previousHashes cursor).get row.key) ≠
      row.digest rendering sha1

/-- A second time the same sheet gives nothing on; and what it gives on the first time is a row that
is new or changed. -/
structure Converges (values : List (List Json)) (keyColumn : String) (cursor : JsonMap) : Prop where
  settled : (rowDiff rendering sha1 values keyColumn
    (rowDiff rendering sha1 values keyColumn cursor).2).1 = []
  changed : ∀ record ∈ (rowDiff rendering sha1 values keyColumn cursor).1,
    ∃ row ∈ sheetRows rendering values keyColumn, record = row.record ∧
      row.NewOrChanged rendering sha1 cursor

end code

/-! ## The loop -/

section loop

variable {rendering : Rendering} {sha1 : String → String} {values : List (List Json)}
  {keyColumn : String} {cursor previous : JsonMap} {rows : List SheetRow}

/-- The hashes of rows, the later ones over the earlier ones. -/
def rowHashes (rendering : Rendering) (sha1 : String → String) (rows : List SheetRow) : JsonMap :=
  rows.foldl (fun hashes row => hashes.set row.key (.string (row.digest rendering sha1))) []

theorem rowHashes_concat (row : SheetRow) : rowHashes rendering sha1 (rows ++ [row]) =
    (rowHashes rendering sha1 rows).set row.key (.string (row.digest rendering sha1)) := by
  simp [rowHashes]

/-- **The loop**: the rows whose digest the previous hashes do not have are given on in their
order. -/
theorem foldl_diffRow (previous : JsonMap) (rows : List SheetRow) :
    rows.foldl (diffRow rendering sha1 previous) ([], []) =
      (rowHashes rendering sha1 rows, (rows.filter fun row =>
        stringValue rendering.toFormatting (previous.get row.key) ≠
          row.digest rendering sha1).map SheetRow.record) := by
  induction rows using reverseRecOn with
  | nil => rfl
  | append_singleton rows row ih =>
    rw [foldl_append, ih, rowHashes_concat, filter_append, map_append,
      foldl_cons, foldl_nil, diffRow]
    split_ifs with h <;> simp [h]

/-- What the code gives on. -/
theorem rowDiff_fst : (rowDiff rendering sha1 values keyColumn cursor).1 =
    ((sheetRows rendering values keyColumn).filter fun row =>
      stringValue rendering.toFormatting ((previousHashes cursor).get row.key) ≠
        row.digest rendering sha1).map SheetRow.record := by
  cases values with
  | nil => rfl
  | cons header rows => simp only [rowDiff, foldl_diffRow]

/-- The hashes of the next cursor, where there is a row. -/
theorem previousHashes_rowDiff (hvalues : values ≠ []) :
    previousHashes (rowDiff rendering sha1 values keyColumn cursor).2 =
      rowHashes rendering sha1 (sheetRows rendering values keyColumn) := by
  cases values with
  | nil => exact absurd rfl hvalues
  | cons header rows =>
    simp only [rowDiff, foldl_diffRow]
    rfl

/-- **The last row with a key has the hash.** -/
theorem get_rowHashes (key : String) :
    stringValue rendering.toFormatting ((rowHashes rendering sha1 rows).get key) =
      ((rows.reverse.find? fun row => row.key = key).map (SheetRow.digest rendering sha1)).getD "" := by
  induction rows using reverseRecOn with
  | nil => rfl
  | append_singleton rows row ih =>
    rw [rowHashes_concat, JsonMap.get_set, reverse_append, reverse_singleton,
      singleton_append, find?_cons]
    by_cases hkey : row.key = key
    · simp [hkey, stringValue]
    · simp [hkey, Ne.symm hkey, ih]

end loop

/-! ## When it converges -/

section converges

variable (rendering : Rendering) (sha1 : String → String) (values : List (List Json))
  (keyColumn : String) (cursor : JsonMap)

/-- What is given on the first time is always new or changed. -/
theorem newOrChanged_of_mem_rowDiff {record : Json}
    (h : record ∈ (rowDiff rendering sha1 values keyColumn cursor).1) :
    ∃ row ∈ sheetRows rendering values keyColumn, record = row.record ∧
      row.NewOrChanged rendering sha1 cursor := by
  rw [rowDiff_fst] at h
  obtain ⟨row, hrow, rfl⟩ := mem_map.mp h
  obtain ⟨hmem, hchanged⟩ := mem_filter.mp hrow
  exact ⟨row, hmem, rfl, .inr (of_decide_eq_true hchanged)⟩

/-- Nothing is given on a second time iff each row has its own digest under its key. -/
theorem settled_iff : (rowDiff rendering sha1 values keyColumn
    (rowDiff rendering sha1 values keyColumn cursor).2).1 = [] ↔
      ∀ row ∈ sheetRows rendering values keyColumn, stringValue rendering.toFormatting
          ((rowHashes rendering sha1 (sheetRows rendering values keyColumn)).get row.key) =
            row.digest rendering sha1 := by
  by_cases hvalues : values = []
  · subst hvalues
    simp [rowDiff, sheetRows]
  · rw [rowDiff_fst, map_eq_nil_iff, filter_eq_nil_iff, previousHashes_rowDiff hvalues]
    simp

/-- **A sheet settles iff the rows with one key have one digest**: the last one of them is the one
that the cursor knows. -/
theorem rowDiff_converges_iff : Converges rendering sha1 values keyColumn cursor ↔
    ∀ row ∈ sheetRows rendering values keyColumn, ∀ row' ∈ sheetRows rendering values keyColumn,
      row.key = row'.key → row.digest rendering sha1 = row'.digest rendering sha1 := by
  refine Iff.trans ⟨Converges.settled, fun h => ⟨h, fun _ hrecord =>
    newOrChanged_of_mem_rowDiff rendering sha1 values keyColumn cursor hrecord⟩⟩ ?_
  rw [settled_iff]
  constructor
  · intro h row hrow row' hrow' hkey
    rw [← h row hrow, ← h row' hrow', hkey]
  · intro h row hrow
    rw [get_rowHashes]
    cases hlast : (sheetRows rendering values keyColumn).reverse.find? fun other =>
        other.key = row.key with
    | none =>
      have := find?_eq_none.mp hlast row (mem_reverse.mpr hrow)
      simp at this
    | some last =>
      have hkey : last.key = row.key := by simpa using find?_some hlast
      have hmem : last ∈ sheetRows rendering values keyColumn :=
        mem_reverse.mp (mem_of_find?_eq_some hlast)
      exact h last hmem row hrow hkey

/-- **A row that is given on every time**: the second of two rows with the key of the first is the
one that the cursor knows, so the first one is a change again. -/
theorem row_emitted_again : ¬ Converges textRendering id
    [[.string "id", .string "name"], [.string "7", .string "Ada"], [.string "7", .string "Bob"]] "id"
    [] := by
  intro h
  have hsettled := h.settled
  revert hsettled
  decide +kernel

end converges

end Dataflow.Connectors
