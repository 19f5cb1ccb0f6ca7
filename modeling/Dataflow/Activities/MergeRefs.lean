import Dataflow.Activities.Payloads
import Dataflow.Connectors.MergeArrays

/-!
# `MergeRefs`: merging what is stored

Small inputs are read and merged in memory. Large ones, if they are to be concatenated, are written
one after the other to a file, whose size is limited.

* `writeAndCount`, `spillRecords`, `spillInputs`, `streamConcatMerge`, `mergeRefs`: the code.
* `spilled`: what the file has after some records.
* `spillInputs_eq_ok`: what is written, and when that is too much.
* **`mergeRefs_concat`**: both ways come to the same.

Source: `activities.go` `MergeRefs`, `streamConcatMerge`
-/

namespace Dataflow.Activities

open Connectors Library Library.Base64 Model Workflows List

/-! ## The code -/

/-- A row that `recordNodeRun` is called with. -/
structure RecordedRun where
  executionId : String
  nodeId : String
  tenantId : String
  status : String
  durationMs : ℕ
  count : ℕ
  errorText : String

/-- What the activity is given besides its parameters: the data key of the execution, the sources of
payloads, the replies to its write, and how long it takes. -/
structure MergeContext where
  dek : Except String Bytes
  sources : PayloadSources
  replies : WriteReplies
  durationMs : ℕ

section code

variable (gcm : GCM) (codec : JsonCodec) (rendering : Rendering) (payloads : Payloads)
  (maxMergeInMemoryBytes : ℤ) (context : MergeContext) (p : MergeParams)

/-- The records of an input. -/
def readRecords (dek : Bytes) (ref : DataRef) : Except String (List Json) :=
  (payloadsRead gcm codec payloads context.sources (some ref) dek).bind fun
    | .array records => .ok records
    | _ => .error "merge input must be an array"

/-- `writeAndCount`; `written` is what the file has. -/
def writeAndCount (written bytes : Bytes) : Except String Bytes :=
  if 0 < maxMergeInMemoryBytes ∧ maxMergeInMemoryBytes < (written ++ bytes).length then
    .error ("merge output exceeds MAX_MERGE_INMEMORY_BYTES limit of " ++ toString maxMergeInMemoryBytes)
  else .ok (written ++ bytes)

/-- The loop over the records of an input. -/
def spillRecords : (written : Bytes) → (count : ℕ) → List Json → Except String (Bytes × ℕ)
  | written, count, [] => .ok (written, count)
  | written, count, record :: records => do
      let written ←
        (if 0 < count then writeAndCount maxMergeInMemoryBytes written (textBytes ",") else .ok written)
      let written ← writeAndCount maxMergeInMemoryBytes written (textBytes (marshal codec.numbers record))
      spillRecords written (count + 1) records

/-- The loop over the inputs. -/
def spillInputs (dek : Bytes) :
    (written : Bytes) → (count : ℕ) → List DataRef → Except String (Bytes × ℕ)
  | written, count, [] => .ok (written, count)
  | written, count, ref :: refs => do
      let records ← readRecords gcm codec payloads context dek ref
      let (written, count) ← spillRecords codec maxMergeInMemoryBytes written count records
      spillInputs dek written count refs

/-- The file that is used works. The text of the written array is a `json.RawMessage`, which is
written as it is and has no count.
Source: `activities.go` `streamConcatMerge` -/
def streamConcatMerge (dek : Bytes) : Except String (DataRef × PayloadEffect × ℕ) := do
  let written ← writeAndCount maxMergeInMemoryBytes [] (textBytes "[")
  let (written, count) ← spillInputs gcm codec payloads maxMergeInMemoryBytes context dek written 0 p.inputRefs
  let merged ← writeAndCount maxMergeInMemoryBytes written (textBytes "]")
  let (ref, effect) ← payloadsWriteBody gcm codec payloads context.replies merged 0 p.tenantId dek
  return (ref, effect, count)

/-- The row of a merge. -/
def mergeRun (status : String) (count : ℕ) (errorText : String) : RecordedRun :=
  ⟨p.executionId, p.nodeId, p.tenantId, status, context.durationMs, count, errorText⟩

/-- The result of a merge. -/
def mergeResult (ref : DataRef) (count : ℕ) : NodeResult where
  nodeId := p.nodeId
  status := .success
  outputRef := some ref
  metadata := [("durationMs", .number context.durationMs), ("recordCount", .number count)]

/-- The merge, without the row that is recorded. -/
def mergeInputs : Except String (DataRef × PayloadEffect × ℕ) := do
  let dek ← context.dek
  let strategy := if p.strategy = "" then "concat" else p.strategy
  let totalBytes := (p.inputRefs.map DataRef.sizeBytes).sum
  let oversized := 0 < maxMergeInMemoryBytes ∧ maxMergeInMemoryBytes < totalBytes
  if oversized ∧ strategy ≠ "concat" then
    .error ("merge inputs total " ++ toString totalBytes ++
      " bytes, exceeds MAX_MERGE_INMEMORY_BYTES limit of " ++ toString maxMergeInMemoryBytes ++
      " for strategy " ++ rendering.quote strategy)
  else if oversized then
    let (ref, effect, count) ←
      streamConcatMerge gcm codec payloads maxMergeInMemoryBytes context p dek
    return ({ ref with recordCount := count }, effect, count)
  else
    let arrays ← p.inputRefs.mapM (readRecords gcm codec payloads context dek)
    let merged ← mergeArrays rendering p.strategy arrays p.joinKey
    let (ref, effect) ←
      payloadsWrite gcm codec payloads context.replies (.array merged) p.tenantId dek
    return (ref, effect, merged.length)

/-- Source: `activities.go` `MergeRefs`. -/
def mergeRefs : RecordedRun × Except String (NodeResult × PayloadEffect) :=
  match mergeInputs gcm codec rendering payloads maxMergeInMemoryBytes context p with
  | .error err => (mergeRun context p "failed" 0 err, .error err)
  | .ok (ref, effect, count) =>
    (mergeRun context p "success" count "", .ok (mergeResult context p ref count, effect))

end code

/-! ## What the file has -/

section spilled

variable (codec : JsonCodec) {records rest : List Json}

/-- The texts of records. -/
def recordTexts (records : List Json) : List Bytes :=
  records.map fun record => textBytes (marshal codec.numbers record)

/-- **What the file has** after some records. -/
def spilled (records : List Json) : Bytes :=
  textBytes "[" ++ (textBytes ",").intercalate (recordTexts codec records)

/-- The size of the encoding of a value. -/
def encodedSize (value : Json) : ℕ := (textBytes (marshal codec.numbers value)).length

@[simp] theorem recordTexts_cons (record : Json) : recordTexts codec (record :: records) =
      textBytes (marshal codec.numbers record) :: recordTexts codec records := rfl

@[simp] theorem recordTexts_append (done : List Json) :
    recordTexts codec (done ++ rest) = recordTexts codec done ++ recordTexts codec rest := by
  simp [recordTexts]

@[simp] theorem recordTexts_eq_nil_iff : recordTexts codec records = [] ↔ records = [] := by
  simp [recordTexts]

theorem textBytes_append (text text' : String) :
    textBytes (text ++ text') = textBytes text ++ textBytes text' := by
  simp [textBytes]

theorem textBytes_renderMoreItems (records : List Json) :
    textBytes (.ofList (Json.renderMoreItems codec.numbers (records.map Json.normalize))) =
      ((recordTexts codec records).flatMap fun text => textBytes "," ++ text) ++ textBytes "]" := by
  induction records with
  | nil => rfl
  | cons record records ih =>
    have hsplit :
        String.ofList (Json.renderMoreItems codec.numbers ((record :: records).map Json.normalize)) =
        "," ++ (marshal codec.numbers record ++
          .ofList (Json.renderMoreItems codec.numbers (records.map Json.normalize))) := by
      rw [map_cons, Json.renderMoreItems, marshal, ← String.ofList_append, String.ofList_cons]
      rfl
    rw [hsplit, textBytes_append, textBytes_append, ih]
    simp

/-- **The file, closed with a bracket, is the encoding of the array.** -/
theorem textBytes_marshal_array (records : List Json) :
    textBytes (marshal codec.numbers (.array records)) =
      spilled codec records ++ textBytes "]" := by
  rw [marshal, Json.normalize, normalizeItems_eq_map, Json.render, String.ofList_cons,
    textBytes_append]
  cases records with
  | nil => rfl
  | cons record records =>
    have hsplit :
        String.ofList (Json.renderItems codec.numbers ((record :: records).map Json.normalize)) =
        marshal codec.numbers record ++
          .ofList (Json.renderMoreItems codec.numbers (records.map Json.normalize)) := by
      rw [map_cons, Json.renderItems, marshal, ← String.ofList_append]
    rw [hsplit, textBytes_append, textBytes_renderMoreItems, spilled, recordTexts_cons,
      Lists.intercalate_cons]
    simp

/-- One record more. -/
theorem spilled_concat (done : List Json) (record : Json) : spilled codec (done ++ [record]) =
      (if 0 < done.length then spilled codec done ++ textBytes "," else spilled codec done) ++
        textBytes (marshal codec.numbers record) := by
  by_cases hdone : done = []
  · subst hdone
    simp [spilled, recordTexts]
  · rw [if_pos (length_pos_of_ne_nil hdone), spilled, recordTexts_append,
      Lists.intercalate_append _ (by simpa using hdone) (by simp), spilled]
    simp [recordTexts]

/-- What is written later comes behind. -/
theorem exists_spilled_append (done rest : List Json) :
    ∃ more, spilled codec (done ++ rest) = spilled codec done ++ more := by
  by_cases hdone : done = []
  · exact ⟨(textBytes ",").intercalate (recordTexts codec rest), by simp [hdone, spilled, recordTexts]⟩
  · by_cases hrest : rest = []
    · exact ⟨[], by simp [hrest]⟩
    · refine ⟨textBytes "," ++ (textBytes ",").intercalate (recordTexts codec rest), ?_⟩
      rw [spilled, recordTexts_append,
        Lists.intercalate_append _ (by simpa using hdone) (by simpa using hrest), spilled, append_assoc]

theorem encodedSize_array : encodedSize codec (.array records) =
    (spilled codec records).length + 1 := by
  rw [encodedSize, textBytes_marshal_array, length_append]
  rfl

/-- **Arrays take less room together**: brackets are saved, and one separator is added at most. -/
theorem encodedSize_append_le (done : List Json) : encodedSize codec (.array (done ++ rest)) ≤
      encodedSize codec (.array done) + encodedSize codec (.array rest) := by
  have hbracket : (textBytes "[").length = 1 := rfl
  have hcomma : (textBytes ",").length = 1 := rfl
  rw [encodedSize_array, encodedSize_array, encodedSize_array]
  by_cases hdone : done = []
  · simp [hdone]
  · by_cases hrest : rest = []
    · simp [hrest]
    · rw [spilled, spilled, spilled, recordTexts_append,
        Lists.intercalate_append _ (by simpa using hdone) (by simpa using hrest)]
      simp only [length_append, hbracket, hcomma]
      omega

/-- All arrays together. -/
theorem encodedSize_flatten_le {arrays : List (List Json)} (h : arrays ≠ []) :
    encodedSize codec (.array arrays.flatten) ≤
      (arrays.map fun records => encodedSize codec (.array records)).sum := by
  induction arrays with
  | nil => exact absurd rfl h
  | cons records arrays ih =>
    by_cases harrays : arrays = []
    · simp [harrays]
    · rw [flatten_cons, map_cons, sum_cons]
      exact (encodedSize_append_le codec _).trans (Nat.add_le_add_left (ih harrays) _)

end spilled

/-! ## What is written -/

section merge

variable {gcm : GCM} {codec : JsonCodec} {rendering : Rendering} {payloads : Payloads}
  {maxMergeInMemoryBytes : ℤ} {context : MergeContext} {p : MergeParams} {dek written bytes : Bytes}
  {records done merged : List Json} {arrays : List (List Json)} {refs : List DataRef}

/-- The file is within the limit. -/
def Fits (maxMergeInMemoryBytes : ℤ) (written : Bytes) : Prop :=
  0 < maxMergeInMemoryBytes → (written.length : ℤ) ≤ maxMergeInMemoryBytes

theorem Fits.of_append (h : Fits maxMergeInMemoryBytes (written ++ bytes)) :
    Fits maxMergeInMemoryBytes written := by
  intro hlimit
  have hlength := h hlimit
  rw [length_append] at hlength
  omega

theorem writeAndCount_eq_ok {written' : Bytes} :
    writeAndCount maxMergeInMemoryBytes written bytes = .ok written' ↔
      Fits maxMergeInMemoryBytes (written ++ bytes) ∧ written' = written ++ bytes := by
  unfold writeAndCount Fits
  split_ifs with h
  · simp only [false_iff, not_and]
    intro hfits
    exact absurd (hfits h.1) (not_le.mpr h.2)
  · rw [not_and, not_lt] at h
    exact ⟨fun heq => ⟨h, (Except.ok.inj heq).symm⟩, fun heq => by rw [heq.2]⟩

/-- **The records of one array** are written if they fit. -/
theorem spillRecords_eq_ok {out : Bytes × ℕ}
    (hfits : Fits maxMergeInMemoryBytes (spilled codec done)) :
    spillRecords codec maxMergeInMemoryBytes (spilled codec done) done.length records = .ok out ↔
      Fits maxMergeInMemoryBytes (spilled codec (done ++ records)) ∧
        out = (spilled codec (done ++ records), (done ++ records).length) := by
  induction records generalizing done with
  | nil => simp [spillRecords, hfits, eq_comm]
  | cons record records ih =>
    have hassoc : done ++ record :: records = done ++ [record] ++ records := by simp
    have hlength : done.length + 1 = (done ++ [record]).length := by simp
    have hwritten := spilled_concat codec done record
    rw [spillRecords, bind_eq_ok, hassoc, hlength]
    constructor
    · rintro ⟨w, hcomma, h⟩
      obtain ⟨w', hwrite, h⟩ := bind_eq_ok.mp h
      obtain ⟨hrecord, rfl⟩ := writeAndCount_eq_ok.mp hwrite
      have hw :
          w = if 0 < done.length then spilled codec done ++ textBytes "," else spilled codec done := by
        split_ifs at hcomma ⊢
        · exact (writeAndCount_eq_ok.mp hcomma).2
        · exact (Except.ok.inj hcomma).symm
      rw [hw, ← hwritten] at h hrecord
      exact (ih hrecord).mp h
    · rintro ⟨hall, rfl⟩
      obtain ⟨more, hmore⟩ := exists_spilled_append codec (done ++ [record]) records
      have hrecord : Fits maxMergeInMemoryBytes (spilled codec (done ++ [record])) := by
        rw [hmore] at hall
        exact hall.of_append
      rw [hwritten] at hrecord
      refine ⟨if 0 < done.length then spilled codec done ++ textBytes "," else spilled codec done, ?_, ?_⟩
      · split_ifs at hrecord ⊢
        · exact writeAndCount_eq_ok.mpr ⟨hrecord.of_append, rfl⟩
        · rfl
      · refine bind_eq_ok.mpr ⟨_, writeAndCount_eq_ok.mpr ⟨hrecord, rfl⟩, ?_⟩
        rw [← hwritten] at hrecord ⊢
        exact (ih hrecord).mpr ⟨hall, rfl⟩

/-- A stored array, with the size of its encoding in its reference. -/
structure StoredArray (gcm : GCM) (codec : JsonCodec) (payloads : Payloads) (context : MergeContext)
    (dek : Bytes) (ref : DataRef) (records : List Json) : Prop where
  read : payloadsRead gcm codec payloads context.sources (some ref) dek = .ok (.array records)
  size : ref.sizeBytes = encodedSize codec (.array records)

variable {ref : DataRef}

theorem StoredArray.readRecords (h : StoredArray gcm codec payloads context dek ref records) :
    readRecords gcm codec payloads context dek ref = .ok records := by
  rw [Activities.readRecords, h.read]
  rfl

/-- **All inputs** are written if they fit. -/
theorem spillInputs_eq_ok {out : Bytes × ℕ}
    (hfits : Fits maxMergeInMemoryBytes (spilled codec done))
    (hstored : Forall₂ (StoredArray gcm codec payloads context dek) refs arrays) :
    spillInputs gcm codec payloads maxMergeInMemoryBytes context dek (spilled codec done) done.length refs =
        .ok out ↔
      Fits maxMergeInMemoryBytes (spilled codec (done ++ arrays.flatten)) ∧
        out = (spilled codec (done ++ arrays.flatten), (done ++ arrays.flatten).length) := by
  induction hstored generalizing done with
  | nil => simp [spillInputs, hfits, eq_comm]
  | @cons ref records refs arrays href _ ih =>
    rw [spillInputs, href.readRecords, ok_bind, bind_eq_ok, flatten_cons, ← append_assoc]
    constructor
    · rintro ⟨out', hspill, h⟩
      obtain ⟨hrecords, rfl⟩ := (spillRecords_eq_ok hfits).mp hspill
      exact (ih hrecords).mp h
    · rintro ⟨hall, rfl⟩
      obtain ⟨more, hmore⟩ := exists_spilled_append codec (done ++ records) arrays.flatten
      have hrecords : Fits maxMergeInMemoryBytes (spilled codec (done ++ records)) := by
        rw [hmore] at hall
        exact hall.of_append
      exact ⟨_, (spillRecords_eq_ok hfits).mpr ⟨hrecords, rfl⟩, (ih hrecords).mpr ⟨hall, rfl⟩⟩

variable {effect : PayloadEffect}

/-- **What is streamed**: the encoding of all records, if it fits. -/
theorem streamConcatMerge_eq_ok {count : ℕ}
    (hstored : Forall₂ (StoredArray gcm codec payloads context dek) p.inputRefs arrays) :
    streamConcatMerge gcm codec payloads maxMergeInMemoryBytes context p dek =
      .ok (ref, effect, count) ↔
      Fits maxMergeInMemoryBytes (textBytes (marshal codec.numbers (.array arrays.flatten))) ∧
        payloadsWriteBody gcm codec payloads context.replies
          (textBytes (marshal codec.numbers (.array arrays.flatten))) 0 p.tenantId dek = .ok (ref, effect) ∧
        count = arrays.flatten.length := by
  have hempty : [] ++ textBytes "[" = spilled codec [] := by simp [spilled, recordTexts]
  rw [streamConcatMerge, textBytes_marshal_array, bind_eq_ok]
  constructor
  · rintro ⟨w, hopen, h⟩
    obtain ⟨hfits, rfl⟩ := writeAndCount_eq_ok.mp hopen
    rw [hempty] at hfits h
    obtain ⟨out, hspill, h⟩ := bind_eq_ok.mp h
    obtain ⟨-, rfl⟩ := (spillInputs_eq_ok hfits hstored).mp hspill
    obtain ⟨w, hclose, h⟩ := bind_eq_ok.mp h
    obtain ⟨hall, rfl⟩ := writeAndCount_eq_ok.mp hclose
    obtain ⟨⟨ref, effect⟩, hwrite, h⟩ := bind_eq_ok.mp h
    cases h
    exact ⟨hall, hwrite, rfl⟩
  · rintro ⟨hall, hwrite, rfl⟩
    obtain ⟨more, hmore⟩ := exists_spilled_append codec [] arrays.flatten
    have hfits : Fits maxMergeInMemoryBytes (spilled codec []) := by
      have hflat := hall.of_append
      rw [← nil_append arrays.flatten, hmore] at hflat
      exact hflat.of_append
    refine ⟨_, writeAndCount_eq_ok.mpr ⟨hempty ▸ hfits, rfl⟩, ?_⟩
    rw [hempty]
    refine bind_eq_ok.mpr ⟨_, (spillInputs_eq_ok hfits hstored).mpr ⟨hall.of_append, rfl⟩, ?_⟩
    exact bind_eq_ok.mpr ⟨_, writeAndCount_eq_ok.mpr ⟨hall, rfl⟩, bind_eq_ok.mpr ⟨_, hwrite, rfl⟩⟩

/-- The count of records only goes into the reference. -/
theorem payloadsWriteBody_recordCount (replies : WriteReplies) (body : Bytes) (recordCount : ℕ)
    (tenantId : String) :
    payloadsWriteBody gcm codec payloads replies body recordCount tenantId dek =
      (payloadsWriteBody gcm codec payloads replies body 0 tenantId dek).map fun (ref, effect) =>
        ({ ref with recordCount := recordCount }, effect) := by
  unfold payloadsWriteBody
  dsimp only
  generalize encryptPayload gcm replies.nonce body (payloads.key dek) = encrypted
  cases payloads.store with
  | some bucket =>
    split_ifs
    all_goals cases encrypted <;> cases replies.put <;> rfl
  | none =>
    split_ifs
    all_goals cases encrypted <;> cases replies.insert <;> rfl

/-- The sizes of the references. -/
theorem sizeBytes_of_stored
    (hstored : Forall₂ (StoredArray gcm codec payloads context dek) refs arrays) :
    (refs.map DataRef.sizeBytes).sum =
      ((arrays.map fun records => encodedSize codec (.array records)).sum : ℕ) := by
  induction hstored with
  | nil => rfl
  | cons href _ ih =>
    rw [map_cons, sum_cons, map_cons, sum_cons, ih, href.size]
    push_cast
    rfl

theorem mapM_readRecords (hstored : Forall₂ (StoredArray gcm codec payloads context dek) refs arrays) :
    refs.mapM (readRecords gcm codec payloads context dek) = .ok arrays := by
  induction hstored with
  | nil => rfl
  | cons href _ ih => rw [mapM_cons, href.readRecords, ok_bind, ih, ok_bind]; rfl

/-- The write of an array, with the count that the other one puts into its reference. -/
theorem payloadsWrite_array_eq_ok {replies : WriteReplies}
    {tenantId : String} :
    payloadsWrite gcm codec payloads replies (.array records) tenantId dek = .ok (ref, effect) ↔
      ∃ ref', payloadsWriteBody gcm codec payloads replies (textBytes (marshal codec.numbers (.array records))) 0
        tenantId dek = .ok (ref', effect) ∧ { ref' with recordCount := (records.length : ℤ) } = ref := by
  rw [payloadsWrite, payloadsWriteBody_recordCount, map_eq_ok]
  constructor
  · rintro ⟨⟨ref', effect'⟩, hwrite, heq⟩
    obtain ⟨href, rfl⟩ := Prod.mk.inj heq
    exact ⟨ref', hwrite, href⟩
  · rintro ⟨ref', hwrite, rfl⟩
    exact ⟨_, hwrite, rfl⟩

/-- **What a merge does**, whichever way it takes. -/
theorem mergeInputs_eq_ok {count : ℕ}
    (hlimit : 0 < maxMergeInMemoryBytes) (hconcat : p.strategy = "" ∨ p.strategy = "concat")
    (hdek : context.dek = .ok dek) (hinputs : p.inputRefs ≠ [])
    (hstored : Forall₂ (StoredArray gcm codec payloads context dek) p.inputRefs arrays) :
    mergeInputs gcm codec rendering payloads maxMergeInMemoryBytes context p =
      .ok (ref, effect, count) ↔
      (encodedSize codec (.array arrays.flatten) : ℤ) ≤ maxMergeInMemoryBytes ∧
        payloadsWrite gcm codec payloads context.replies (.array arrays.flatten) p.tenantId dek =
          .ok (ref, effect) ∧ count = arrays.flatten.length := by
  have hstrategy : (if p.strategy = "" then "concat" else p.strategy) = "concat" := by
    rcases hconcat with h | h
    · rw [if_pos h]
    · rw [h]; rfl
  have hne : arrays ≠ [] := by
    rintro rfl
    exact hinputs (forall₂_nil_right_iff.mp hstored)
  unfold mergeInputs
  rw [hdek, ok_bind]
  rw [hstrategy, if_neg fun h => h.2 rfl, sizeBytes_of_stored hstored]
  split_ifs with hsize
  · rw [bind_eq_ok]
    constructor
    · rintro ⟨⟨ref', effect', count'⟩, hstream, h⟩
      obtain ⟨hfits, hwrite, rfl⟩ := (streamConcatMerge_eq_ok hstored).mp hstream
      cases h
      exact ⟨hfits hlimit, payloadsWrite_array_eq_ok.mpr ⟨ref', hwrite, rfl⟩, rfl⟩
    · rintro ⟨hfits, hwrite, rfl⟩
      obtain ⟨ref', hbody, rfl⟩ := payloadsWrite_array_eq_ok.mp hwrite
      exact ⟨_, (streamConcatMerge_eq_ok hstored).mpr ⟨fun _ => hfits, hbody, rfl⟩, rfl⟩
  · have hfits : (encodedSize codec (.array arrays.flatten) : ℤ) ≤ maxMergeInMemoryBytes := by
      have hle := encodedSize_flatten_le codec hne
      rw [not_and, not_lt] at hsize
      exact (Int.ofNat_le.mpr hle).trans (hsize hlimit)
    rw [mapM_readRecords hstored, ok_bind, mergeArrays_concat hconcat, ok_bind, bind_eq_ok]
    constructor
    · rintro ⟨⟨ref', effect'⟩, hwrite, h⟩
      cases h
      exact ⟨hfits, hwrite, rfl⟩
    · rintro ⟨-, hwrite, rfl⟩
      exact ⟨_, hwrite, rfl⟩

/-- **Both ways come to the same.** When the inputs are streamed, what is stored is what a write of
the merged array stores, with its count of records. And if that can be written, then the merge
succeeds iff the encoding of the merged array is within the limit, whichever way the sizes of the
inputs select, and with one result. -/
theorem mergeRefs_concat (hlimit : 0 < maxMergeInMemoryBytes)
    (hconcat : p.strategy = "" ∨ p.strategy = "concat") (hdek : context.dek = .ok dek)
    (hinputs : p.inputRefs ≠ [])
    (hstored : Forall₂ (StoredArray gcm codec payloads context dek) p.inputRefs arrays)
    (hmerge : mergeArrays rendering p.strategy arrays p.joinKey = .ok merged) :
    (∀ ref effect count,
      streamConcatMerge gcm codec payloads maxMergeInMemoryBytes context p dek = .ok (ref, effect, count) →
        payloadsWrite gcm codec payloads context.replies (.array merged) p.tenantId dek =
            .ok ({ ref with recordCount := count }, effect) ∧ count = merged.length) ∧
      ∀ ref effect,
        payloadsWrite gcm codec payloads context.replies (.array merged) p.tenantId dek = .ok (ref, effect) →
          ((∃ result, (mergeRefs gcm codec rendering payloads maxMergeInMemoryBytes context p).2 = .ok result) ↔
            (encodedSize codec (.array merged) : ℤ) ≤ maxMergeInMemoryBytes) ∧
          ∀ result, (mergeRefs gcm codec rendering payloads maxMergeInMemoryBytes context p).2 = .ok result →
            result = (mergeResult context p ref merged.length, effect) := by
  rw [mergeArrays_concat hconcat] at hmerge
  obtain rfl := Except.ok.inj hmerge
  refine ⟨?_, ?_⟩
  · intro ref effect count hstream
    obtain ⟨-, hwrite, rfl⟩ := (streamConcatMerge_eq_ok hstored).mp hstream
    exact ⟨payloadsWrite_array_eq_ok.mpr ⟨ref, hwrite, rfl⟩, rfl⟩
  intro ref effect hwrite
  have hiff : ∀ ref effect count,
      mergeInputs gcm codec rendering payloads maxMergeInMemoryBytes context p = .ok (ref, effect, count) ↔ _ :=
    fun _ _ _ => mergeInputs_eq_ok hlimit hconcat hdek hinputs hstored
  unfold mergeRefs
  cases hmerge : mergeInputs gcm codec rendering payloads maxMergeInMemoryBytes context p with
  | error err =>
    refine ⟨⟨?_, ?_⟩, ?_⟩
    · rintro ⟨result, ⟨⟩⟩
    · intro hfits
      have hok := (hiff ref effect _).mpr ⟨hfits, hwrite, rfl⟩
      rw [hmerge] at hok
      cases hok
    · rintro result ⟨⟩
  | ok merged =>
    obtain ⟨ref', effect', count⟩ := merged
    obtain ⟨hfits, hwrite', rfl⟩ := (hiff ref' effect' count).mp hmerge
    rw [hwrite] at hwrite'
    cases hwrite'
    refine ⟨⟨fun _ => hfits, fun _ => ⟨_, rfl⟩⟩, ?_⟩
    rintro result ⟨⟩
    rfl

end merge

/-! ## Two stored arrays -/

/-- The reference of an array with one text. -/
def rowRef : DataRef :=
  { tenantId := "t", sizeBytes := 7, recordCount := 1, type := "inline", key := "WyJyb3ciXQ==" }

theorem length_rowNonce : (replicate 12 (0 : UInt8)).length = 12 := rfl

/-- Nothing but what is in references can be read, and nothing else is written. -/
def rowContext : MergeContext where
  dek := .ok []
  sources := ⟨fun _ _ => .error "", fun _ => .error ""⟩
  replies := ⟨replicate 12 0, length_rowNonce, "", .error "", .error ""⟩
  durationMs := 0

/-- The merge of one array twice. -/
def rowMerge : MergeParams where
  inputRefs := [rowRef, rowRef]
  strategy := "concat"
  tenantId := "t"
  executionId := "run"
  nodeId := "merge"
  encryptedDek := ""

theorem storedArray_rowRef :
    StoredArray tagGCM marshalledCodec ⟨none, [], 100⟩ rowContext [] rowRef [.string "row"] where
  read := by
    have hbody : payloadsBody tagGCM marshalledCodec ⟨none, [], 100⟩ rowContext.sources rowRef [] =
        .ok (textBytes (marshal quotientTexts (.array [.string "row"]))) := by
      have hdecode : stdEncoding.decodeString "WyJyb3ciXQ==" =
          some (textBytes (marshal quotientTexts (.array [.string "row"]))) := by decide +kernel
      rw [payloadsBody, if_pos (by rfl), if_neg (by decide),
        show rowRef.key = "WyJyb3ciXQ==" from rfl, hdecode]
    rw [payloadsRead]
    rw [if_neg (by decide), show (⟨none, [], 100⟩ : Payloads).key [] = [] from rfl, hbody]
    exact unmarshal_marshalledCodec _
  size := by rfl

/-- Two arrays of 7 bytes are streamed into one of 13. -/
theorem mergeRefs_concat_row :
    (∀ ref effect count,
      streamConcatMerge tagGCM marshalledCodec ⟨none, [], 100⟩ 13 rowContext rowMerge [] =
          .ok (ref, effect, count) →
        payloadsWrite tagGCM marshalledCodec ⟨none, [], 100⟩ rowContext.replies
            (.array [.string "row", .string "row"]) "t" [] =
          .ok ({ ref with recordCount := count }, effect) ∧ count = 2) ∧
      ((∃ result, (mergeRefs tagGCM marshalledCodec textRendering ⟨none, [], 100⟩ 13 rowContext
          rowMerge).2 = .ok result) ↔
        (encodedSize marshalledCodec (.array [.string "row", .string "row"]) : ℤ) ≤ 13) := by
  obtain ⟨ref, hwrite⟩ : ∃ ref, payloadsWrite tagGCM marshalledCodec ⟨none, [], 100⟩
      rowContext.replies (.array [.string "row", .string "row"]) "t" [] = .ok (ref, .inline) :=
    ⟨_, rfl⟩
  have hmerge := @mergeRefs_concat _ _ textRendering _ 13 _ rowMerge _ _ _
    (by decide) (.inr rfl) rfl (by simp [rowMerge])
    (.cons storedArray_rowRef (.cons storedArray_rowRef .nil)) rfl
  exact ⟨hmerge.1, (hmerge.2 ref .inline hwrite).1⟩

end Dataflow.Activities
