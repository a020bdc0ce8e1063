import DataStreams.V31.RoundTrip
import DataStreams.V31.Validated

/-! What an honest oracle sends is decoded as it was meant, and passes the checks that need no
state (v31). -/
namespace DataStreams.V31
open List SortedMap
variable {M : Type}

variable {committed : ChannelDefinitions}
lemma channelUpdateVotesFrom_inv {l : List DefinitionEntry} {size : ℕ}
    {updates : ChannelDefinitions} (hupdates : updates.size < maxObservationUpdateChannelDefinitionsLength) :
    (channelUpdateVotesFrom committed l size updates).size ≤ maxObservationUpdateChannelDefinitionsLength ∧
      ∀ e ∈ (channelUpdateVotesFrom committed l size updates).entries,
        e ∈ updates.entries ∨ e ∈ l ∧ committed.get? e.1 ≠ some e.2 := by
  induction l generalizing size updates with
  | nil => exact ⟨hupdates.le,fun e he => .inl he⟩
  | cons x l ih =>
    unfold channelUpdateVotesFrom
    split_ifs with hsame
    · refine ⟨(ih hupdates).1,fun e he => ?_⟩
      exact ((ih hupdates).2 e he).imp_right fun h => ⟨mem_cons_of_mem _ h.1,h.2⟩
    · have hinsert : ∀ e ∈ (updates.insert x.1 x.2).entries,
          e ∈ updates.entries ∨ e ∈ x :: l ∧ committed.get? e.1 ≠ some e.2 := by
        intro e he
        rcases mem_entries_insert.1 he with rfl | ⟨he,_⟩
        · exact .inr ⟨mem_cons_self,hsame⟩
        · exact .inl he
      dsimp only
      split_ifs with hbytes hfull
      · exact ⟨hupdates.le,fun e he => .inl he⟩
      · exact ⟨(size_insert_le _ _ _).trans hupdates,hinsert⟩
      · obtain ⟨hsize,hmem⟩ := ih
          (Nat.lt_of_not_le hfull)
        refine ⟨hsize,fun e he => ?_⟩
        rcases hmem e he with h | ⟨h,hne⟩
        · exact hinsert e h
        · exact .inr ⟨mem_cons_of_mem _ h,hne⟩

variable {L : Libs} {factsOf : FactsOf}
lemma admissibleChannelDefinitions_inv {expected admissible : ChannelDefinitions} {skipped : List ChannelID}
    (h : admissibleChannelDefinitions L factsOf committed expected = .ok (admissible,skipped,none)) :
    inadmissibleChannelIDs L factsOf admissible (changedChannelIDs committed admissible) = .ok ([],none) := by
  obtain ⟨⟨ids,err⟩,hfirst,h⟩ := Go.bind_ok_iff.1 h
  dsimp only at h
  split_ifs at h with hdone
  · obtain ⟨rfl,rfl,rfl⟩ : expected = admissible ∧ ids = skipped ∧ err = none := by simpa using h
    rcases hdone with hsome | rfl
    · simp at hsome
    · exact hfirst
  · obtain ⟨⟨rest,err'⟩,hsecond,h⟩ := Go.bind_ok_iff.1 h
    dsimp only at h
    split at h
    · simp at h
    · obtain ⟨rfl,_⟩ : _ = admissible ∧ ids = skipped := by simpa using h
      exact hsecond
    · simp at h

structure VotesFit (factsOf : FactsOf) (votes : ChannelVotes) : Prop where
  removals : votes.1.length ≤ maxObservationRemoveChannelIDsLength
  updates : votes.2.size ≤ maxObservationUpdateChannelDefinitionsLength
  definitions : DefinitionsOk factsOf votes.2

lemma votesFit_empty (factsOf : FactsOf) {ids : List ChannelID}
    (h : ids.length ≤ maxObservationRemoveChannelIDsLength) : VotesFit factsOf (ids,∅) :=
  ⟨h,Nat.zero_le _,fun _ he => absurd he not_mem_nil⟩

/-- An honest oracle's votes are within the limits. -/
lemma votesFit_channelVotes {o : Oracle} {state : KVState M}
    {votes : ChannelVotes} (h : channelVotes L factsOf o state = .ok votes) :
    VotesFit factsOf votes := by
  have hremovals : ∀ expected, (removalVotes state.channelDefinitions expected).length ≤
      maxObservationRemoveChannelIDsLength := fun expected => by
    rw [removalVotes,length_map]
    exact length_take_le _ _
  unfold channelVotes at h
  split_ifs at h
  · cases Except.ok.inj h
    exact votesFit_empty factsOf (Nat.zero_le _)
  · obtain ⟨⟨admissible,skipped,err⟩,hadm,h⟩ := Go.bind_ok_iff.1 h
    cases err with
    | some e =>
      cases Except.ok.inj h
      exact votesFit_empty factsOf (hremovals _)
    | none =>
      cases Except.ok.inj h
      obtain ⟨hsize,hmem⟩ := @channelUpdateVotesFrom_inv
        _ admissible.entries _ ∅ (Nat.zero_lt_succ _)
      refine ⟨hremovals _,hsize,fun e he => ?_⟩
      obtain ⟨he,hne⟩ := (hmem e he).resolve_left not_mem_nil
      refine definitionOk_of_inadmissibleChannelIDs (admissibleChannelDefinitions_inv hadm) he ?_
      exact mem_map.2 ⟨e,mem_filter.2 ⟨he,by simpa using hne⟩,rfl⟩

structure Delivered (W : WireLibs) (fetcher : BlobFetcher) (message : ObservationProto)
    (snapshot : Option BlobSnapshot) : Prop where
  message : W.unmarshalObservation (marshalObservation message) = .ok message
  handle : ∀ s ∈ snapshot, W.unmarshalBlobHandle s.blobHandleBytes = .ok () ∧ s.blobHandleBytes.length < 2 ^ 64
  blob : ∀ s ∈ snapshot, ∃ payload raw, fetchBlob fetcher s.blobHandleBytes = .ok payload ∧
    decodeFramedPayload W payload maxObservationDecompressedBytes "blob payload" = .ok raw ∧
    decodeBlobEntry W raw = .ok ⟨s.values.mapVal (fun _ v => some v),raw.length,s.cycleStartSeqNr⟩

def receivedObservation (cfg : Config) (o : Oracle) (state : KVState M)
    (votes : ChannelVotes) (snapshot : Option BlobSnapshot) : Observation :=
  let sent := observationWith cfg o state votes
  { sent with
    streamValues := snapshot.elim ∅ (fun s => s.values.mapVal (fun _ v => some v))
    predecessorF := sent.predecessorF % 256
    cycleStartSeqNr := snapshot.elim 0 BlobSnapshot.cycleStartSeqNr }

variable (cfg : Config) (o : Oracle) (state : KVState M) (votes : ChannelVotes)
lemma validateAttested_observationWith : validateAttestedPredecessorRetirement
    (observationWith cfg o state votes).attestedPredecessorRetirement = .ok () := by
  have hnil : validateAttestedPredecessorRetirement [] = .ok () := rfl
  simp only [observationWith,attestedPredecessorRetirement]
  split
  · exact hnil
  · split_ifs
    · exact hnil
    · split
      · exact hnil
      · split
        · exact hnil
        · assumption

lemma validatePredecessor_observationWith :
    validatePredecessorConfig (observationWith cfg o state votes).predecessorSigners
      (observationWith cfg o state votes).predecessorF = .ok () := by
  have hnone : validatePredecessorConfig PredecessorConfig.none.signers PredecessorConfig.none.f = .ok () := rfl
  simp only [observationWith,voteOnPredecessorConfig]
  split
  · exact hnone
  · split_ifs
    · exact hnone
    · split
      · exact hnone
      · split_ifs
        · exact hnone
        · split
          · exact hnone
          · assumption

variable {cfg o state votes}
lemma fetchBlobsAndDecodeObservation_encodeObservation {W : WireLibs} {fetcher : BlobFetcher} {factsOf : FactsOf}
    {snapshot : Option BlobSnapshot} (hvotes : VotesFit factsOf votes)
    (hdelivered : Delivered W fetcher
      (observationToProto (observationWith cfg o state votes) (supportedReportFormats o)) snapshot) :
    fetchBlobsAndDecodeObservation W fetcher (encodeObservation (observationWith cfg o state votes)
      (supportedReportFormats o) (snapshot.toList.map BlobSnapshot.blobHandleBytes)) =
        .ok (receivedObservation cfg o state votes snapshot) := by
  have hframe : ∀ main, decodeFrame W (frameObservation (snapshot.toList.map BlobSnapshot.blobHandleBytes) main) =
      .ok (snapshot.toList.map BlobSnapshot.blobHandleBytes,main) := by
    intro main
    refine decodeFrame_frameObservation main ?_ ?_
    · cases snapshot <;> simp [maxObservationBlobHandles]
    · intro b hb
      obtain ⟨s,hs,rfl⟩ := mem_map.1 hb
      exact hdelivered.handle s (Option.mem_toList.1 hs)
  have hmessage := @observationFromProto_observationToProto
    _ (supportedReportFormats o)
    ((size_insertMany_le _ _).trans (by simpa [SortedMap.empty,SortedMap.size] using hvotes.removals))
    hvotes.updates (length_take_le _ _) (validateAttested_observationWith cfg o state votes)
    (validatePredecessor_observationWith cfg o state votes)
  unfold fetchBlobsAndDecodeObservation encodeObservation
  rw [if_neg (by simp [frameObservation]),hframe]
  simp only [Go.ok_bind,hdelivered.message,Go.ofExcept,hmessage]
  cases snapshot with
  | none => rfl
  | some s =>
    obtain ⟨payload,raw,hfetch,hraw,hentry⟩ := hdelivered.blob s rfl
    have hmerge : ∀ obs : Observation, obs.cycleStartSeqNr = 0 → obs.streamValues = ∅ →
        mergeBlob W fetcher (obs,maxObservationDecompressedBytes) s.blobHandleBytes = .ok
          ({ obs with
            cycleStartSeqNr := s.cycleStartSeqNr
            streamValues := s.values.mapVal (fun _ v => some v) },maxObservationDecompressedBytes - raw.length) := by
      intro obs hcycle hvalues
      simp only [mergeBlob,hfetch,Go.ofExcept,Go.ok_bind,Nat.min_self,hraw,hentry,hcycle,hvalues,ne_eq,
        not_true_eq_false,false_and,if_false]
      rw [empty_overlay]
    simp only [Option.toList_some,map_cons,map_nil,foldlM_cons,foldlM_nil]
    rw [hmerge _ rfl rfl]
    rfl

end DataStreams.V31
