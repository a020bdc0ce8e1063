import DataStreams.Protocol.StreamBudget
import DataStreams.V31.Run

/-! What an observation is checked for holds of every committed definition by itself (v31). -/
namespace DataStreams.V31
open List Go SortedMap ChannelDefinitionsBudget

def entryOf (v : UpdateVote) : DefinitionEntry := (v.channelID,v.definition)

/-- One update is installed unless there is no room for its channel or a total of the set
would grow past its limit. -/
def installUpdate (factsOf : FactsOf) (defs : ChannelDefinitions) (v : UpdateVote) : ChannelDefinitions :=
  if (defs.get? v.channelID).isNone ∧ defs.size ≥ maxOutcomeChannelDefinitionsLength then defs
  else if (totalsOf factsOf (defs.insert v.channelID v.definition)).grows (totalsOf factsOf defs) then defs
  else defs.insert v.channelID v.definition

variable {factsOf : FactsOf} {defs defs' : ChannelDefinitions} {b' : ChannelDefinitionsBudget} {v : UpdateVote}
/-- The running budget is the one measured from the definitions. -/
lemma applyUpdate_inv (h : applyUpdate factsOf (.measured (costs factsOf defs),defs) v = .ok (b',defs')) :
    defs' = installUpdate factsOf defs v ∧ b' = .measured (costs factsOf defs') := by
  unfold applyUpdate at h
  dsimp only at h
  rw [installUpdate]
  by_cases hfull : (defs.get? v.channelID).isNone ∧ defs.size ≥ maxOutcomeChannelDefinitionsLength
  · rw [if_pos hfull] at h ⊢
    cases Except.ok.inj h
    exact ⟨rfl,rfl⟩
  · rw [if_neg hfull] at h ⊢
    obtain ⟨⟨fits,b⟩,hreplace,h⟩ := bind_ok_iff.1 h
    obtain ⟨hfits,rfl⟩ := replace_inv hreplace
    cases fits with
    | false =>
      cases Except.ok.inj h
      rw [if_pos (not_not.1 (mt hfits.2 nofun))]
      exact ⟨rfl,rfl⟩
    | true =>
      cases Except.ok.inj h
      rw [if_neg (hfits.1 rfl)]
      exact ⟨rfl,rfl⟩

lemma foldlM_applyUpdate {updates : List UpdateVote}
    (h : updates.foldlM (applyUpdate factsOf) (.measured (costs factsOf defs),defs) = .ok (b',defs')) :
    defs' = updates.foldl (installUpdate factsOf) defs := by
  induction updates generalizing defs with
  | nil =>
    cases Except.ok.inj h
    rfl
  | cons v updates ih =>
    rw [foldlM_cons] at h
    obtain ⟨⟨b₁,d₁⟩,hv,h⟩ := bind_ok_iff.1 h
    obtain ⟨rfl,rfl⟩ := applyUpdate_inv hv
    exact ih h

variable {t : ObservationTally} {f : ℕ}
/-- The passing updates are applied to the definitions kept, with the budget of these. It
is measured only if there are updates, and needs the facts of every definition kept. -/
lemma applyChannelVotes_foldlM (h : applyChannelVotes factsOf defs t f = .ok defs') :
    (∃ b', (passingUpdates t f).foldlM (applyUpdate factsOf)
      (.measured (costs factsOf (applyRemovals defs t f)),applyRemovals defs t f) = .ok (b',defs')) ∧
      (passingUpdates t f ≠ [] → ∀ e ∈ (applyRemovals defs t f).entries, ∃ facts, liveFacts factsOf e.1 e.2 = .ok facts) := by
  unfold applyChannelVotes at h
  cases hu : passingUpdates t f with
  | nil =>
    simp only [hu] at h
    cases Except.ok.inj h
    exact ⟨⟨_,rfl⟩,fun hne => absurd rfl hne⟩
  | cons v updates =>
    simp only [hu] at h
    obtain ⟨b,hb,h⟩ := bind_ok_iff.1 h
    obtain ⟨⟨b',d'⟩,hf,h⟩ := bind_ok_iff.1 h
    cases Except.ok.inj h
    cases new_eq hb
    refine ⟨⟨b',hf⟩,fun _ e he => ?_⟩
    obtain ⟨channels,hfacts,_⟩ := bind_ok_iff.1 hb
    obtain ⟨facts,hfact,_⟩ := (allFacts_ok hfacts).1 e he
    exact ⟨facts,hfact⟩

/-- The definitions after the votes of a round: the passing updates, one after the other,
on what is kept. -/
def mergedDefinitions (factsOf : FactsOf) (defs : ChannelDefinitions) (t : ObservationTally) (f : ℕ) :
    ChannelDefinitions :=
  (passingUpdates t f).foldl (installUpdate factsOf) (applyRemovals defs t f)

/-- The votes of a round install the passing updates one after the other. -/
lemma applyChannelVotes_eq
    (h : applyChannelVotes factsOf defs t f = .ok defs') : defs' = mergedDefinitions factsOf defs t f := by
  obtain ⟨⟨b',hf⟩,_⟩ := applyChannelVotes_foldlM h
  exact foldlM_applyUpdate hf

lemma installUpdate_cases (factsOf : FactsOf) (defs : ChannelDefinitions) (v : UpdateVote) :
    installUpdate factsOf defs v = defs ∨ installUpdate factsOf defs v = defs.insert v.channelID v.definition := by
  unfold installUpdate
  split_ifs <;> simp

lemma foldl_installUpdate_sublist (factsOf : FactsOf) (updates : List UpdateVote) (defs : ChannelDefinitions) :
    ∃ S : List UpdateVote, S.Sublist updates ∧
      updates.foldl (installUpdate factsOf) defs = defs.insertMany (S.map entryOf) := by
  induction updates generalizing defs with
  | nil => exact ⟨[],.slnil,rfl⟩
  | cons v updates ih =>
    obtain ⟨S,hS,heq⟩ := ih (installUpdate factsOf defs v)
    rw [foldl_cons,heq]
    rcases installUpdate_cases factsOf defs v with h | h
    · exact ⟨S,hS.cons v,by rw [h]⟩
    · exact ⟨v :: S,hS.cons_cons v,by rw [h]; rfl⟩

lemma installUpdate_withinBudget (h : WithinBudget defs) : WithinBudget (installUpdate factsOf defs v) := by
  unfold installUpdate
  split_ifs with hfull hgrows
  · exact h
  · exact h
  · refine ⟨?_,?_⟩
    · cases hget : defs.get? v.channelID with
      | some cd => exact (size_insert_of_mem hget _).trans_le h.channels
      | none =>
        have hsize : defs.size < maxOutcomeChannelDefinitionsLength :=
          Nat.lt_of_not_le fun hle => hfull ⟨by rw [hget]; rfl,hle⟩
        exact (size_insert_le _ _ _).trans hsize
    · have hids := h.streamIDs
      simp only [BudgetTotals.grows,totalsOf_streamIDs,Bool.or_eq_true,growsPast_eq_true,not_or] at hgrows
      have := hgrows.1.2
      omega

lemma applyChannelVotes_inv (h : applyChannelVotes factsOf defs t f = .ok defs') (hw : WithinBudget defs) :
    WithinBudget defs' ∧ ∃ S : List UpdateVote, S.Sublist (passingUpdates t f) ∧
      defs' = (applyRemovals defs t f).insertMany (S.map entryOf) := by
  rw [applyChannelVotes_eq h,mergedDefinitions]
  refine ⟨?_,foldl_installUpdate_sublist factsOf _ _⟩
  have hkept : WithinBudget (applyRemovals defs t f) := hw.filter _
  generalize applyRemovals defs t f = kept at hkept
  induction passingUpdates t f generalizing kept with
  | nil => exact hkept
  | cons v updates ih => exact ih _ (installUpdate_withinBudget hkept)

lemma mem_foldl_countUpdate {hash : ChannelID → ChannelDefinition → VoteHash}
    {l : List DefinitionEntry} {votes : SortedMap VoteHash UpdateVote} {e : VoteHash × UpdateVote}
    (h : e ∈ (l.foldl (countUpdate hash) votes).entries) : e ∈ votes.entries ∨ entryOf e.2 ∈ l := by
  induction l generalizing votes with
  | nil => exact .inl h
  | cons x l ih =>
    rcases ih h with h | h
    · rcases mem_entries_insert.1 h with rfl | ⟨h,_⟩
      · exact .inr (by simp [entryOf])
      · exact .inl h
    · exact .inr (mem_cons_of_mem _ h)

lemma countPredecessor_updateVotes (cfg : Config) (L : Libs) (obs : Observation) (t : ObservationTally) :
    (t.countPredecessor cfg L obs).updateVotes = t.updateVotes := by
  unfold ObservationTally.countPredecessor
  split_ifs <;> rfl

variable {cfg : Config} {L : Libs}
lemma mem_passingUpdates {aos : List Attributed} (h : v ∈ passingUpdates (.ofObservations cfg L aos) f) :
    ∃ ao ∈ aos, entryOf v ∈ ao.2.updateChannelDefinitions.entries := by
  have hfold : ∀ (l : List Attributed) (t : ObservationTally) (e : VoteHash × UpdateVote),
      e ∈ (l.foldl (ObservationTally.count cfg L) t).updateVotes.entries → e ∈ t.updateVotes.entries ∨
        ∃ ao ∈ l, entryOf e.2 ∈ ao.2.updateChannelDefinitions.entries := by
    intro l
    induction l with
    | nil => exact fun t e he => .inl he
    | cons ao l ih =>
      intro t e he
      rcases ih _ e he with he | ⟨ao',hao',he⟩
      · rcases mem_foldl_countUpdate he with he | he
        · rw [countPredecessor_updateVotes] at he
          exact .inl he
        · exact .inr ⟨ao,by simp,he⟩
      · exact .inr ⟨ao',by simp [hao'],he⟩
  have hpast := mem_of_mem_filter (mem_of_mem_filter h)
  obtain ⟨e,he,rfl⟩ := mem_map.1 hpast
  rw [mem_insertionSort] at he
  exact (hfold aos .empty e he).resolve_left (by simp [ObservationTally.empty,EmptyCollection.emptyCollection,SortedMap.empty])

def decodeVotes (W : WireLibs) (raw : Bytes) : Go Observation :=
  if raw.length = 0 then .ok .empty
  else do
    let (_,main) ← decodeFrame W raw
    let message ← Go.ofExcept (W.unmarshalObservation main)
    Go.ofExcept (observationFromProto message)

variable {W : WireLibs} {fetcher : BlobFetcher} {raw : Bytes} {obs : Observation}
lemma fetchBlobsAndDecodeObservation_votes (h : fetchBlobsAndDecodeObservation W fetcher raw = .ok obs) :
    ∃ base values cycle, decodeVotes W raw = .ok base ∧
      obs = { base with streamValues := values, cycleStartSeqNr := cycle } := by
  unfold fetchBlobsAndDecodeObservation at h
  unfold decodeVotes
  split_ifs at h ⊢ with hempty
  · exact ⟨obs,obs.streamValues,obs.cycleStartSeqNr,h,rfl⟩
  · simp only [bind_ok_iff] at h ⊢
    obtain ⟨⟨handles,main⟩,hframe,message,hmessage,base,hbase,⟨merged,left⟩,hmerge,h⟩ := h
    cases Except.ok.inj h
    have hvotes : ∃ values cycle, merged = { base with streamValues := values, cycleStartSeqNr := cycle } := by
      refine foldlM_invariant (P := fun acc : Observation × ℕ => ∃ values cycle,
        acc.1 = { base with streamValues := values, cycleStartSeqNr := cycle }) ⟨_,_,rfl⟩ ?_ hmerge
      intro handle _ acc acc' hacc hstep
      obtain ⟨values,cycle,hacc⟩ := hacc
      simp only [mergeBlob,bind_ok_iff] at hstep
      obtain ⟨payload,_,raw,_,entry,_,hstep⟩ := hstep
      split_ifs at hstep
      · exact absurd hstep (err_ne_ok _ _)
      · cases Except.ok.inj hstep
        rw [hacc]
        exact ⟨_,_,rfl⟩
    obtain ⟨values,cycle,hmerged⟩ := hvotes
    exact ⟨base,values,cycle,⟨(handles,main),hframe,message,hmessage,hbase⟩,hmerged⟩

lemma definitionOk_of_validateObservation {fetcher' : BlobFetcher} {committed : ChannelDefinitions} {seqNr : ℕ}
    (hseq : 1 < seqNr) (hvalid : validateObservation cfg L W fetcher factsOf committed seqNr raw = .ok ())
    (hobs : fetchBlobsDecodeAndValidateObservation cfg W fetcher' seqNr raw = .ok obs)
    {e : DefinitionEntry} (he : e ∈ obs.updateChannelDefinitions.entries) :
    DefinitionOk factsOf e.1 e.2 := by
  rw [validateObservation,if_neg (by omega),if_neg (by omega)] at hvalid
  obtain ⟨obs',hobs',hverify⟩ := bind_ok_iff.1 hvalid
  simp only [fetchBlobsDecodeAndValidateObservation,bind_ok_iff,Except.ok.injEq] at hobs hobs'
  obtain ⟨_,hobs,_,_,rfl⟩ := hobs
  obtain ⟨_,hobs',_,_,rfl⟩ := hobs'
  obtain ⟨base,_,_,hbase,rfl⟩ := fetchBlobsAndDecodeObservation_votes hobs
  obtain ⟨base',_,_,hbase',rfl⟩ := fetchBlobsAndDecodeObservation_votes hobs'
  cases Except.ok.inj (hbase.symm.trans hbase')
  have hsize : 0 < SortedMap.size _ := length_pos_of_mem he
  rw [definitionsForVerify,if_pos hsize] at hverify
  refine (verifyChannelDefinitions_ok_iff.1 hverify).1 e (get?_eq_some_iff.1 ?_)
  rw [advocatedDefinitions,get?_overlay,get?_eq_some_iff.2 he,Option.some_or]

end DataStreams.V31
