import Dataflow.Activities.MergeRefs

/-!
# The inputs of a merge by their positions

A join puts the fields of its second input over those of the first. Which input has which number
depends on what the sources of the in-edges have left: those that have left nothing are not counted.

* `inputArrays`: the arrays that are merged; `edgeArray`: what an in-edge brings.
* `PositionsKept`: the array with a number is that of the in-edge with this number.
* `OutputsFirst`: in-edges without output are not followed by such with records.
* `mayCall_mergeRefs`: the merge that a node calls, in any run.
* **`positions_kept_iff`**: when positions are kept.

Source: `dynamic_dag.go` `runNode`, `activities.go` `MergeRefs`, `transforms.go` `MergeArrays`
-/

namespace Dataflow.Activities

open Connectors Library Library.Base64 Model Workflows List

/-! ## Arrays and in-edges -/

section arrays

variable (gcm : GCM) (codec : JsonCodec) (payloads : Payloads) (context : MergeContext)

/-- The arrays that a merge reads, one for each reference. -/
def inputArrays (p : MergeParams) : Except String (List (List Json)) := do
  let dek ← context.dek
  p.inputRefs.mapM (readRecords gcm codec payloads context dek)

/-- What the source of an in-edge has left, and nothing if there is no reference. -/
def edgeArray (results : Results) (edge : Edge) : Except String (List Json) :=
  match results.outputRef edge.source with
  | none => .ok []
  | some ref => do
      let dek ← context.dek
      readRecords gcm codec payloads context dek ref

/-- **Positions are kept**: the array with a number is what the in-edge with this number brings.
Where there are fewer arrays than in-edges the rest counts as empty, as in a join. -/
def PositionsKept (results : Results) (inEdges : List Edge) (arrays : List (List Json)) : Prop :=
  ∀ k edge, inEdges[k]? = some edge → edgeArray gcm codec payloads context results edge = .ok (arrays.getD k [])

/-- After an in-edge whose source has left no output there are no records. -/
def OutputsFirst (results : Results) (inEdges : List Edge) : Prop :=
  inEdges.Pairwise fun edge later =>
    results.outputRef edge.source = none → edgeArray gcm codec payloads context results later = .ok []

end arrays

/-! ## The call of a node -/

section call

variable {input : WorkflowInput} {node : Node} {inEdges : List Edge} {results : Results}
  {p : MergeParams}

/-- References are collected after the conditions, and are those of the same results. -/
theorem mayCall_mergeRefs_of_conditions (hmerge : node.type = .merge) {es : List Edge}
    {results' : Results} (hagree : AgreeOn inEdges results results')
    (h : (evalConditions input node (runBody input node inEdges) es results').MayCall
      (AgreeOn inEdges results) (.mergeRefs p)) :
    p = mergeParams input node (upstreamRefs inEdges results) := by
  induction es generalizing results' with
  | nil =>
    have hrefs : upstreamRefs inEdges results' = upstreamRefs inEdges results :=
      filterMap_congr fun edge he => (hagree.outputRef he).symm
    rw [evalConditions, runBody, hmerge] at h
    dsimp only at h
    rw [hrefs] at h
    cases h with
    | here => rfl
    | later reply hs rest => cases rest
  | cons edge es ih =>
    rw [evalConditions] at h
    split_ifs at h
    · exact ih hagree h
    · cases h with
      | later reply hs rest =>
        cases reply with
        | error err => cases rest
        | ok allowed =>
          cases allowed with
          | false => cases rest
          | true => exact ih hs rest

/-- **The merge that a node calls**, in any run in which the results of its in-edges' sources
stay. -/
theorem mayCall_mergeRefs (hmerge : node.type = .merge)
    (h : (runNode input node inEdges results).MayCall (AgreeOn inEdges results) (.mergeRefs p)) :
    p = mergeParams input node (upstreamRefs inEdges results) := by
  unfold runNode at h
  dsimp only at h
  split_ifs at h
  · cases h
  · exact mayCall_mergeRefs_of_conditions hmerge (fun _ _ => rfl) h

end call

/-! ## Positions -/

section positions

variable {gcm : GCM} {codec : JsonCodec} {rendering : Rendering} {payloads : Payloads}
  {context : MergeContext} {input : WorkflowInput} {node : Node} {inEdges : List Edge}
  {results : Results} {p : MergeParams} {arrays : List (List Json)}

/-- What the in-edges bring, one by one; what is there makes up the arrays. -/
theorem exists_outputs (h : inputArrays gcm codec payloads context p = .ok arrays)
    (hrefs : p.inputRefs = upstreamRefs inEdges results) :
    ∃ output : Edge → Option (List Json), (inEdges.map output).reduceOption = arrays ∧
      ∀ edge ∈ inEdges, (output edge = none ↔ results.outputRef edge.source = none) ∧
        edgeArray gcm codec payloads context results edge = .ok ((output edge).getD []) := by
  obtain ⟨dek, hdek, h⟩ := bind_eq_ok.mp h
  obtain ⟨read, harrays, hread⟩ := exists_map_of_mapM h
  refine ⟨fun edge => (results.outputRef edge.source).map read, ?_, fun edge hedge => ⟨by simp, ?_⟩⟩
  · rw [← harrays, hrefs]
    unfold upstreamRefs List.reduceOption
    rw [filterMap_map, map_filterMap]
    rfl
  · unfold edgeArray
    cases href : results.outputRef edge.source with
    | none => simp [href]
    | some ref =>
      have hmem : ref ∈ p.inputRefs := by
        rw [hrefs]
        exact mem_filterMap.mpr ⟨edge, hedge, href⟩
      simpa [href, hdek, ok_bind] using hread ref hmem

/-- **When positions are kept**: exactly if no in-edge without output is followed by one with
records. -/
theorem positions_kept_iff (hmerge : node.type = .merge)
    (hcall : (runNode input node inEdges results).MayCall (AgreeOn inEdges results) (.mergeRefs p))
    (harrays : inputArrays gcm codec payloads context p = .ok arrays) :
    PositionsKept gcm codec payloads context results inEdges arrays ↔
      OutputsFirst gcm codec payloads context results inEdges := by
  obtain rfl := mayCall_mergeRefs hmerge hcall
  obtain ⟨output, rfl, houtput⟩ := exists_outputs harrays rfl
  have hkept :
      PositionsKept gcm codec payloads context results inEdges (inEdges.map output).reduceOption ↔
      ∀ k o, (inEdges.map output)[k]? = some o → (inEdges.map output).reduceOption.getD k [] = o.getD [] := by
    unfold PositionsKept
    refine forall_congr' fun k => ?_
    rw [getElem?_map]
    cases hedge : inEdges[k]? with
    | none => simp
    | some edge =>
      have harray := (houtput edge (mem_of_getElem? hedge)).2
      simp [harray, eq_comm]
  rw [hkept, Lists.getD_reduceOption_iff, pairwise_map]
  refine List.Pairwise.iff_of_mem fun {edge later} hedge hlater => ?_
  rw [(houtput edge hedge).1, (houtput later hlater).2]
  simp

end positions

/-! ## A join without its left side -/

/-- The row of the right side. -/
def rightRow : JsonMap := [("id", .string "1")]

/-- The reference of its array. -/
def rightRef : DataRef :=
  { tenantId := "t", sizeBytes := 12, recordCount := 1, type := "inline", key := "W3siaWQiOiIxIn1d" }

/-- A left join of two in-edges. -/
def joinNode : Node :=
  { id := "join", type := .merge, activityType := "flow.merge", mergeStrategy := "leftJoin", joinKey := "id" }

/-- The in-edges, the left one first. -/
def joinEdges : List Edge :=
  [{ id := "e1", source := "left", target := "join" }, { id := "e2", source := "right", target := "join" }]

/-- The left source has come to this, and the right one has left its row. -/
def sidesResults (left : NodeResult) : Results :=
  ((∅ : Results).insert "left" left).insert "right"
    { nodeId := "right", status := .success, outputRef := some rightRef }

theorem readRecords_rightRef :
    readRecords tagGCM marshalledCodec ⟨none, [], 100⟩ rowContext [] rightRef =
      .ok [.object rightRow] := by
  have hdecode : stdEncoding.decodeString "W3siaWQiOiIxIn1d" =
      some (textBytes (marshal quotientTexts (.array [.object rightRow]))) := by decide +kernel
  have hbody : payloadsBody tagGCM marshalledCodec ⟨none, [], 100⟩ rowContext.sources rightRef [] =
      .ok (textBytes (marshal quotientTexts (.array [.object rightRow]))) := by
    rw [payloadsBody, if_pos (by rfl), if_neg (by decide),
      show rightRef.key = "W3siaWQiOiIxIn1d" from rfl, hdecode]
  have hread :
      payloadsRead tagGCM marshalledCodec ⟨none, [], 100⟩ rowContext.sources (some rightRef) [] =
      .ok (.array [.object rightRow]) := by
    rw [payloadsRead]
    rw [if_neg (by decide), show (⟨none, [], 100⟩ : Payloads).key [] = [] from rfl, hbody]
    exact unmarshal_marshalledCodec _
  rw [readRecords, hread]
  rfl

/-- If the left source has no output, the join is called with the right one alone. -/
theorem mayCall_joinNode {left : NodeResult} (hleft : left.outputRef = none) :
    (runNode {} joinNode joinEdges (sidesResults left)).MayCall (AgreeOn joinEdges (sidesResults left))
      (.mergeRefs (mergeParams {} joinNode [rightRef])) := by
  have hright : (joinEdges.any fun edge => (sidesResults left).succeeded edge.source) = true :=
    any_eq_true.mpr ⟨{ id := "e2", source := "right", target := "join" }, by simp [joinEdges], rfl⟩
  have hrun : runNode {} joinNode joinEdges (sidesResults left) =
      runBody {} joinNode joinEdges (sidesResults left) := by
    unfold runNode
    rw [hright, if_neg (by simp)]
    rfl
  have hrefs : upstreamRefs joinEdges (sidesResults left) = [rightRef] := by
    have hlookup : (sidesResults left).outputRef "left" = left.outputRef := rfl
    simp only [upstreamRefs, joinEdges, filterMap_cons, hlookup, hleft]
    rfl
  rw [hrun, runBody, ← hrefs]
  exact .here _ _

theorem inputArrays_rightRef :
    inputArrays tagGCM marshalledCodec ⟨none, [], 100⟩ rowContext (mergeParams {} joinNode [rightRef]) =
      .ok [[.object rightRow]] := by
  rw [inputArrays, show rowContext.dek = .ok [] from rfl, ok_bind,
    show (mergeParams {} joinNode [rightRef]).inputRefs = [rightRef] from rfl, mapM_cons, readRecords_rightRef]
  rfl

theorem positions_kept_iff_failed :
    PositionsKept tagGCM marshalledCodec ⟨none, [], 100⟩ rowContext (sidesResults (failed "left" "timeout"))
        joinEdges [[.object rightRow]] ↔
      OutputsFirst tagGCM marshalledCodec ⟨none, [], 100⟩ rowContext (sidesResults (failed "left" "timeout"))
        joinEdges :=
  positions_kept_iff rfl (mayCall_joinNode rfl) inputArrays_rightRef

/-- **The right side becomes the left one** if the left source failed, and a left join has its
rows. -/
theorem right_becomes_left :
    ∃ p, (runNode {} joinNode joinEdges (sidesResults (failed "left" "timeout"))).MayCall
        (AgreeOn joinEdges (sidesResults (failed "left" "timeout"))) (.mergeRefs p) ∧
      inputArrays tagGCM marshalledCodec ⟨none, [], 100⟩ rowContext p = .ok [[.object rightRow]] ∧
      mergeArrays textRendering p.strategy [[.object rightRow]] p.joinKey = .ok [.object rightRow] ∧
      ¬ PositionsKept tagGCM marshalledCodec ⟨none, [], 100⟩ rowContext
        (sidesResults (failed "left" "timeout")) joinEdges [[.object rightRow]] := by
  refine ⟨_, mayCall_joinNode rfl, inputArrays_rightRef, rfl, fun hkept => ?_⟩
  have hleft : edgeArray tagGCM marshalledCodec ⟨none, [], 100⟩ rowContext
      (sidesResults (failed "left" "timeout")) { id := "e1", source := "left", target := "join" } = .ok [] := rfl
  have hfirst := hkept 0 _ rfl
  rw [hleft] at hfirst
  exact absurd (Except.ok.inj hfirst) (by simp)

end Dataflow.Activities
