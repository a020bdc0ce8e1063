import DataStreams.V31.Honest

/-! A frame and a message are read as what they were built from (v31). -/
namespace DataStreams.V31
open List Go SortedMap
variable {W : WireLibs} {handles : List Bytes}
lemma decodeHandles_append (main : Bytes)
    (h : ∀ b ∈ handles, W.unmarshalBlobHandle b = .ok () ∧ b.length < 2 ^ 64) :
    decodeHandles W handles.length (handles.flatMap (fun b => putUvarint b.length ++ b) ++ main) =
      .ok (handles,main) := by
  induction handles with
  | nil => rfl
  | cons b handles ih =>
    obtain ⟨hb,hlen⟩ := h b (by simp)
    have hcut : ∀ rest : Bytes, Go.sliceFrom (putUvarint b.length ++ rest) (putUvarint b.length).length = .ok rest := by
      intro rest
      rw [sliceFrom_eq_ok (by simp),drop_left]
    simp only [length_cons,decodeHandles,flatMap_cons,append_assoc,uvarint_putUvarint hlen,hcut,ok_bind]
    rw [if_neg (by simp),sliceTo_eq_ok (by simp),sliceFrom_eq_ok (by simp),take_left,drop_left]
    simp only [ok_bind,hb,Go.ofExcept,ih (fun c hc => h c (by simp [hc]))]

lemma decodeFrame_frameObservation (main : Bytes)
    (hcount : handles.length ≤ maxObservationBlobHandles)
    (h : ∀ b ∈ handles, W.unmarshalBlobHandle b = .ok () ∧ b.length < 2 ^ 64) :
    decodeFrame W (frameObservation handles main) = .ok (handles,main) := by
  have hlen : handles.length < 2 ^ 64 := hcount.trans_lt (by decide)
  have hindex : Go.index (frameObservation handles main) 0 = .ok observationWireVersion := rfl
  have hrest : Go.sliceFrom (frameObservation handles main) 1 =
      .ok (putUvarint handles.length ++ (handles.flatMap (fun b => putUvarint b.length ++ b) ++ main)) := by
    rw [sliceFrom_eq_ok (by simp [frameObservation])]
    simp [frameObservation]
  simp only [decodeFrame,hindex,hrest,ok_bind,ne_eq,not_true_eq_false,if_false,uvarint_putUvarint hlen]
  rw [if_neg (Nat.not_lt.2 hcount),sliceFrom_eq_ok (by simp),drop_left]
  exact decodeHandles_append main h

lemma definitionsFromProto_some (defs : ChannelDefinitions) :
    definitionsFromProto (defs.mapVal (fun _ cd => some cd)) = .ok defs := by
  rw [definitionsFromProto,entries_mapVal,mapM_map_ok (k := id),map_id]
  · exact congrArg Except.ok defs.ofList_entries
  · exact fun _ _ => rfl

/-- An observation within the limits reads back. -/
lemma observationFromProto_observationToProto {obs : Observation} {formats : List ReportFormat}
    (hremove : obs.removeChannelIDs.size ≤ maxObservationRemoveChannelIDsLength)
    (hupdate : obs.updateChannelDefinitions.size ≤ maxObservationUpdateChannelDefinitionsLength)
    (hformats : formats.length ≤ maxObservationSupportedReportFormatsLength)
    (hattested : validateAttestedPredecessorRetirement obs.attestedPredecessorRetirement = .ok ())
    (hpredecessor : validatePredecessorConfig obs.predecessorSigners obs.predecessorF = .ok ()) :
    observationFromProto (observationToProto obs formats) = .ok
      { obs with
        streamValues := ∅
        supportedReportFormats := formats.toFinset
        predecessorF := obs.predecessorF % 256
        cycleStartSeqNr := 0 } := by
  have hkeys : ¬ obs.removeChannelIDs.keys.length > maxObservationRemoveChannelIDsLength := by
    rw [SortedMap.keys,length_map]
    exact Nat.not_lt.2 hremove
  have hsize : ¬ (obs.updateChannelDefinitions.mapVal (fun _ cd => some cd)).size >
      maxObservationUpdateChannelDefinitionsLength := by
    rw [SortedMap.size,entries_mapVal,length_map]
    exact Nat.not_lt.2 hupdate
  have hlen : ¬ formats.length > maxObservationSupportedReportFormatsLength := Nat.not_lt.2 hformats
  simp only [observationFromProto,observationToProto,hkeys,hsize,if_false,definitionsFromProto_some]
  change (if _ then _ else _) = _
  simp only [hlen,if_false,hattested,hpredecessor,setOf_keys]
  rfl

end DataStreams.V31
