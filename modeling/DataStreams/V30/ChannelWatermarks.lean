import DataStreams.V30.OptsCacheReads

/-! A channel that is removed and installed again in one round is left without a watermark
(v30). -/
namespace DataStreams.V30.Plugin
open Go SortedMap Option
variable {P : Plugin} {cache : OptsCache} {prev : Outcome} {t : ObservationTally}
def Watermarked (o : Outcome) : Prop :=
  ∀ id cd, o.channelDefinitions.get? id = some cd → ∃ w, o.validAfterNanoseconds.get? id = some w

def FindsRoom (id : ChannelID) : Channels → List UpdateVote → Prop
  | _,[] => False
  | c,v :: updates =>
    (v.channelID = id ∧ c.definitions.size < maxOutcomeChannelDefinitionsLength) ∨ FindsRoom id (c.install v) updates

variable {c : Channels} {id : ChannelID}
lemma install_get?_of_ne {v : UpdateVote} (h : id ≠ v.channelID) :
    (c.install v).definitions.get? id = c.definitions.get? id := by
  unfold Channels.install
  split_ifs
  · rfl
  · exact get?_insert_of_ne _ _ h

lemma isSome_foldl_install (updates : List UpdateVote)
    (h : (c.definitions.get? id).isSome) : ((updates.foldl Channels.install c).definitions.get? id).isSome := by
  induction updates generalizing c with
  | nil => exact h
  | cons v updates ih =>
    refine ih ?_
    by_cases hid : id = v.channelID
    · rw [Channels.install,if_neg (by simp [SortedMap.contains,← hid,h]),hid,get?_insert_self]
      rfl
    · rwa [install_get?_of_ne hid]

lemma isSome_foldl_install_iff (updates : List UpdateVote)
    (h : c.definitions.get? id = none) :
    ((updates.foldl Channels.install c).definitions.get? id).isSome ↔ FindsRoom id c updates := by
  induction updates generalizing c with
  | nil => simp [h,FindsRoom]
  | cons v updates ih =>
    rw [List.foldl_cons,FindsRoom]
    by_cases hid : id = v.channelID
    · subst hid
      by_cases hroom : c.definitions.size < maxOutcomeChannelDefinitionsLength
      · have hinstalled : ((c.install v).definitions.get? v.channelID).isSome := by
          rw [Channels.install,if_neg (by omega),get?_insert_self]
          rfl
        exact iff_of_true (isSome_foldl_install updates hinstalled) (.inl ⟨rfl,hroom⟩)
      · have hsame : c.install v = c := by
          rw [Channels.install,if_pos ⟨by simp [SortedMap.contains,h],Nat.le_of_not_lt hroom⟩]
        rw [hsame,ih h,or_iff_right fun hfound => hroom hfound.2]
    · rw [ih ((install_get?_of_ne hid).trans h),or_iff_right fun hfound => hid hfound.1.symm]

lemma get?_foldl_remove (ids : List ChannelID) (c : Channels) (id : ChannelID) :
    (ids.foldl Channels.remove c).definitions.get? id = if id ∈ ids then none else c.definitions.get? id := by
  induction ids generalizing c with
  | nil => simp
  | cons a ids ih =>
    rw [List.foldl_cons,ih,Channels.remove,get?_erase]
    by_cases hid : id = a <;> simp [hid]

variable (P) in
/-- The channel is voted out, and an update that finds room brings it back. -/
def Reinstalled (cache : OptsCache) (prev : Outcome) (t : ObservationTally) (id : ChannelID) : Prop :=
  id ∈ P.removedChannelIDs prev t ∧
    FindsRoom id ((P.removedChannelIDs prev t).foldl Channels.remove (startChannels cache prev))
      (P.updatedDefinitions prev t)

lemma reinstalled_iff :
    P.Reinstalled cache prev t id ↔
      id ∈ P.removedChannelIDs prev t ∧ ((P.votedChannels cache prev t).definitions.get? id).isSome := by
  refine and_congr_right fun hid => ?_
  rw [votedChannels,isSome_foldl_install_iff]
  rw [get?_foldl_remove,if_pos hid]

lemma isSome_nextValidAfter_iff (obsTs : ℕ) (hid : ((P.votedChannels cache prev t).definitions.get? id).isSome) :
    ((P.nextValidAfter cache prev t obsTs).get? id).isSome ↔ id ∉ P.removedChannelIDs prev t := by
  obtain ⟨cd,hcd⟩ := isSome_iff_exists.1 hid
  simp only [nextValidAfter,get?_eraseMany,get?_overlay,get?_mapVal,hcd,map_some]
  split_ifs with hid
  · simp [hid]
  · simp [hid]

lemma isSome_get?_evaluate {calculated : Calculated} (h : P.evaluate cache prev t = .ok calculated) (id : ChannelID) :
    (calculated.channelDefinitions.get? id).isSome = ((P.votedChannels cache prev t).definitions.get? id).isSome := by
  have hopts := congrArg (fun c => (c.raw.get? id).isSome) (ofDefinitions_evaluate h)
  simpa only [OptsCache.get?_raw_ofDefinitions,isSome_map] using hopts

lemma watermarked_round {seqNr : ℕ} {o out : Outcome} {cache' : OptsCache} {aos : List Bytes} (hseq : 2 ≤ seqNr)
    (hcall : P.outcome cache seqNr prev aos = .ok (o,cache')) (hcoded : o.recoded P.config.protocolVersion = .ok out) :
    ∃ t, P.decodeObservations aos .empty = .ok t ∧ (Watermarked out ↔ ∀ id, ¬ P.Reinstalled cache prev t id) := by
  obtain ⟨t,calculated,ht,hcalculated,rfl,-⟩ := outcome_eq_ok hseq hcall
  obtain ⟨hdefs,hmarks⟩ := recoded_eq_ok hcoded
  refine ⟨t,ht,forall_congr' fun id => ?_⟩
  rw [← exists_imp,← isSome_iff_exists,← isSome_iff_exists,hdefs,hmarks,reinstalled_iff,not_and',
    show (P.nextOutcome cache prev t calculated).channelDefinitions = calculated.channelDefinitions from rfl,
    isSome_get?_evaluate hcalculated]
  exact forall_congr' (isSome_nextValidAfter_iff _)

/-- In the outcome of a round after the first, as it is decoded, every channel has a
watermark exactly when the round installs no channel that it also votes to remove. -/
theorem watermarked_iff {seqNr : ℕ} {out : Outcome} {aos : List Bytes} (hseq : 2 ≤ seqNr)
    (h : P.encodedOutcome cache seqNr prev aos = .ok out) (ht : P.decodeObservations aos .empty = .ok t) :
    Watermarked out ↔ ∀ id, ¬ P.Reinstalled cache prev t id := by
  obtain ⟨⟨o,cache'⟩,hcall,hcoded⟩ := bind_ok_iff.1 h
  obtain ⟨t',ht',hiff⟩ := watermarked_round hseq hcall (ofExcept_eq_ok.1 hcoded)
  cases Except.ok.inj (ht.symm.trans ht')
  exact hiff

/-- The same of every round of a run. -/
theorem execute_watermarked_iff {aos : ℕ → List Bytes} {n : ℕ} {out : Outcome} {cache' : OptsCache}
    (h : P.execute aos (n + 2) = .ok (out,cache')) :
    ∃ prev cache t, P.execute aos (n + 1) = .ok (prev,cache) ∧ P.decodeObservations (aos (n + 2)) .empty = .ok t ∧
      (Watermarked out ↔ ∀ id, ¬ P.Reinstalled cache prev t id) := by
  obtain ⟨⟨prev,cache⟩,hprev,h⟩ := bind_ok_iff.1 h
  obtain ⟨⟨o,cache''⟩,hcall,h⟩ := bind_ok_iff.1 h
  obtain ⟨out',hcoded,h⟩ := bind_ok_iff.1 h
  cases h
  obtain ⟨t,ht,hiff⟩ := watermarked_round (by omega) hcall (ofExcept_eq_ok.1 hcoded)
  exact ⟨prev,cache,t,hprev,ht,hiff⟩

/-- Round 2 adds channel 1; in round 3 the oracles vote both to remove it and to change it. -/
def reinstallMessages : List ObservationProto :=
  [updateMessage 10 1 jsonChannel,
    { updateMessage 20 1 { jsonChannel with source := 1 } with removeChannelIDs := [1] }]

def reinstallPlugin : Plugin := reading reinstallMessages

def reinstallObservations : ℕ → List Bytes
  | n + 2 => List.replicate 3 ((reinstallMessages[n]?).elim [] marshalObservation)
  | _ => List.replicate 3 []

def reinstallRun (n : ℕ) : Outcome × OptsCache :=
  (reinstallPlugin.execute reinstallObservations n).getD (⟨.unset,0,∅,∅,fun _ _ => none⟩,.empty)

lemma reinstallRun_two :
    reinstallPlugin.encodedOutcome (reinstallRun 1).2 2 (reinstallRun 1).1 (reinstallObservations 2) =
      .ok (reinstallRun 2).1 := rfl

theorem watermarked_iff_reinstallRun :
    (reinstallRun 2).1.channelDefinitions.keys = [1] ∧
      ∃ t, reinstallPlugin.decodeObservations (reinstallObservations 2) .empty = .ok t ∧
        (Watermarked (reinstallRun 2).1 ↔
          ∀ id, ¬ reinstallPlugin.Reinstalled (reinstallRun 1).2 (reinstallRun 1).1 t id) := by
  have ht := eq_ok_getD (x := reinstallPlugin.decodeObservations (reinstallObservations 2) .empty)
    (by decide +kernel) .empty
  exact ⟨by decide +kernel,_,ht,watermarked_iff (by decide) reinstallRun_two ht⟩

/-- Round 3 keeps channel 1 with its new definition and deletes its watermark. -/
theorem removal_with_update_loses_watermark :
    reinstallPlugin.execute reinstallObservations 3 = .ok (reinstallRun 3) ∧
      (reinstallRun 3).1.channelDefinitions.keys = [1] ∧
      (reinstallRun 3).1.validAfterNanoseconds.get? 1 = none ∧ ¬ Watermarked (reinstallRun 3).1 := by
  have hcd : (reinstallRun 3).1.channelDefinitions.get? 1 = some { jsonChannel with source := 1 } := by decide +kernel
  have hw : (reinstallRun 3).1.validAfterNanoseconds.get? 1 = none := by decide +kernel
  refine ⟨eq_ok_getD (by decide +kernel) _,by decide +kernel,hw,fun h => ?_⟩
  obtain ⟨w,hsome⟩ := h 1 _ hcd
  rw [hw] at hsome
  exact absurd hsome nofun

end DataStreams.V30.Plugin
