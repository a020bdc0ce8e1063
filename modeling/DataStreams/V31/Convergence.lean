import DataStreams.V31.HonestAccepted
import DataStreams.V31.FeedIDs

/-! Honest oracles that vote for one set reach it, unless a round is stuck on a budget (v31). -/
namespace DataStreams.V31
open List Function SortedMap
variable {M : Type} {factsOf : FactsOf} {committed wanted : ChannelDefinitions}

def differing (committed wanted : ChannelDefinitions) : Finset ChannelID :=
  (committed.keys ++ wanted.keys).toFinset.filter (fun id => committed.get? id ≠ wanted.get? id)

lemma mem_differing {id : ChannelID} :
    id ∈ differing committed wanted ↔ committed.get? id ≠ wanted.get? id := by
  rw [differing,Finset.mem_filter,and_iff_right_iff_imp]
  intro hne
  simp only [toFinset_append,Finset.mem_union,mem_toFinset,SortedMap.mem_keys]
  by_contra hnone
  simp only [not_or,Bool.not_eq_true,Option.isSome_eq_false_iff,Option.isNone_iff_eq_none] at hnone
  exact hne (hnone.1.trans hnone.2.symm)

lemma card_differing_eq_zero :
    (differing committed wanted).card = 0 ↔ committed = wanted := by
  rw [Finset.card_eq_zero,Finset.eq_empty_iff_forall_notMem]
  refine ⟨fun h => SortedMap.ext fun id => not_not.1 (mt mem_differing.2 (h id)),?_⟩
  rintro rfl id hid
  exact mem_differing.1 hid rfl

def MovesTo (wanted committed next : ChannelDefinitions) : Prop :=
  ∀ id, next.get? id = committed.get? id ∨ next.get? id = wanted.get? id

namespace MovesTo
lemma differing_subset {next : ChannelDefinitions} (h : MovesTo wanted committed next) :
    differing next wanted ⊆ differing committed wanted := by
  intro id hid
  rw [mem_differing] at hid ⊢
  rcases h id with heq | heq
  · rwa [heq] at hid
  · exact absurd heq hid

lemma card_differing_lt {next : ChannelDefinitions} (h : MovesTo wanted committed next) (hne : next ≠ committed) :
    (differing next wanted).card < (differing committed wanted).card := by
  obtain ⟨id,hid⟩ : ∃ id, next.get? id ≠ committed.get? id := by
    by_contra hall
    exact hne (SortedMap.ext (by simpa using hall))
  have hwanted := (h id).resolve_left hid
  refine Finset.card_lt_card ⟨h.differing_subset,fun hsub => ?_⟩
  have hmem : id ∈ differing committed wanted := mem_differing.2 (by rw [← hwanted]; exact hid.symm)
  exact mem_differing.1 (hsub hmem) hwanted

end MovesTo

/-- The set keeps the live channels, has room and is admissible as it is. -/
structure WantedFor (L : Libs) (factsOf : FactsOf) (committed wanted : ChannelDefinitions) : Prop where
  live : ∀ id cd, committed.get? id = some cd → cd.tombstone = false → (wanted.get? id).isSome
  room : wanted.size ≤ maxOutcomeChannelDefinitionsLength
  admitted : ∃ skipped, admissibleChannelDefinitions L factsOf committed wanted = .ok (wanted,skipped,none)

lemma mem_changedChannelIDs {id : ChannelID} :
    id ∈ changedChannelIDs committed wanted ↔ ∃ cd, wanted.get? id = some cd ∧ committed.get? id ≠ some cd := by
  simp only [changedChannelIDs,mem_map,mem_filter,decide_eq_true_eq,Prod.exists]
  constructor
  · rintro ⟨_,cd,⟨he,hne⟩,rfl⟩
    exact ⟨cd,get?_eq_some_iff.2 he,hne⟩
  · rintro ⟨cd,hcd,hne⟩
    exact ⟨id,cd,⟨get?_eq_some_iff.1 hcd,hne⟩,rfl⟩

lemma MovesTo.changedChannelIDs_subset {next : ChannelDefinitions} (h : MovesTo wanted committed next) :
    ∀ id ∈ changedChannelIDs next wanted, id ∈ changedChannelIDs committed wanted := by
  intro id hid
  rw [mem_changedChannelIDs] at hid ⊢
  obtain ⟨cd,hcd,hne⟩ := hid
  refine ⟨cd,hcd,?_⟩
  rcases h id with heq | heq
  · rwa [heq] at hne
  · exact absurd (heq.trans hcd) hne

lemma inadmissibleChannelIDs_mono {L : Libs} {defs : ChannelDefinitions} {admitting admitting' : Admitting}
    (h : inadmissibleChannelIDs L factsOf defs admitting = .ok ([],none))
    (hsub : ∀ id ∈ admitting', id ∈ admitting) :
    inadmissibleChannelIDs L factsOf defs admitting' = .ok ([],none) := by
  have hne : admitting' ≠ [] → admitting ≠ [] := by
    rintro hne rfl
    exact hne (eq_nil_iff_forall_not_mem.2 fun id hid => not_mem_nil (hsub id hid))
  obtain ⟨res,hres,h⟩ := Go.bind_ok_iff.1 h
  refine Go.bind_ok_iff.2 ⟨res,hres,?_⟩
  cases hwhole : res.wholeSetErr with
  | some e => simp [hwhole] at h
  | none =>
    simp only [hwhole] at h ⊢
    have hids : ∀ ids : List ChannelID, (ids.filter (fun id => id ∈ admitting)).dedup = [] →
        (ids.filter (fun id => id ∈ admitting')).dedup = [] := by
      intro ids hnil
      rw [dedup_eq_nil,filter_eq_nil_iff] at hnil ⊢
      exact fun id hid hmem => hnil id hid (decide_eq_true (hsub id (of_decide_eq_true hmem)))
    have hset : (res.admissionFindings.filter (fun f => f.wholeSet && f.appliesTo admitting)).map AdmissionFinding.err = [] →
        (res.admissionFindings.filter (fun f => f.wholeSet && f.appliesTo admitting')).map AdmissionFinding.err = [] := by
      simp only [map_eq_nil_iff,filter_eq_nil_iff,Bool.and_eq_true,not_and]
      intro hnil f hf hwholeSet happlies
      refine hnil f hf hwholeSet ?_
      simp only [AdmissionFinding.appliesTo,hwholeSet,if_true,decide_eq_true_eq] at happlies ⊢
      exact hne happlies
    split at h
    · next hfindings =>
      rw [hset hfindings]
      dsimp only
      split_ifs at h with hmany
      · simp at h
      · obtain ⟨hnil,_⟩ := Prod.mk.inj (Except.ok.inj h)
        rw [hids _ hnil,if_neg]
        rintro ⟨_,hadmitted,hcount⟩
        exact hmany ⟨hnil,hne hadmitted,hcount⟩
    · simp at h

lemma admissible_of_inadmissible {L : Libs}
    (h : inadmissibleChannelIDs L factsOf wanted (changedChannelIDs committed wanted) = .ok ([],none)) :
    admissibleChannelDefinitions L factsOf committed wanted = .ok (wanted,[],none) := by
  rw [admissibleChannelDefinitions,h]
  rfl

lemma WantedFor.moves {L : Libs} {next : ChannelDefinitions} (h : WantedFor L factsOf committed wanted)
    (hmoves : MovesTo wanted committed next) :
    WantedFor L factsOf next wanted where
  live := by
    intro id cd hcd hlive
    rcases hmoves id with heq | heq
    · exact h.live id cd (heq ▸ hcd) hlive
    · rw [← heq,hcd]
      rfl
  room := h.room
  admitted := by
    obtain ⟨skipped,hadm⟩ := h.admitted
    exact ⟨[],admissible_of_inadmissible
      (inadmissibleChannelIDs_mono (admissibleChannelDefinitions_inv hadm) hmoves.changedChannelIDs_subset)⟩

lemma WantedFor.voteOnChannels_eq {L : Libs} (h : WantedFor L factsOf committed wanted) :
    voteOnChannels L factsOf committed wanted =
      .ok (removalVotes committed wanted,channelUpdateVotes committed wanted) := by
  obtain ⟨skipped,hadm⟩ := h.admitted
  rw [voteOnChannels,hadm]
  rfl

lemma mem_removalVotes {id : ChannelID} (h : id ∈ removalVotes committed wanted) :
    wanted.get? id = none ∧ (committed.get? id).isSome := by
  obtain ⟨e,he,rfl⟩ := mem_map.1 h
  obtain ⟨hmem,habsent⟩ := mem_filter.1 (mem_of_mem_take he)
  have hcd := get?_eq_some_iff.2 hmem
  rw [get?_filter,Option.filter_eq_some_iff] at hcd
  refine ⟨?_,by rw [hcd.1]; rfl⟩
  simpa [SortedMap.contains] using habsent

lemma WantedFor.isSome_of_no_removal {L : Libs} {id : ChannelID} (h : WantedFor L factsOf committed wanted)
    (hnil : removalVotes committed wanted = []) (hid : (committed.get? id).isSome) : (wanted.get? id).isSome := by
  obtain ⟨cd,hcd⟩ := Option.isSome_iff_exists.1 hid
  by_contra hnone
  have htomb : cd.tombstone = true := by
    by_contra hlive
    exact hnone (h.live id cd hcd (by simpa using hlive))
  have hmem : (id,cd) ∈ ((committed.filter (fun _ cd => cd.tombstone)).entries.filter
      (fun e => !wanted.contains e.1)) := by
    refine mem_filter.2 ⟨get?_eq_some_iff.1 ?_,?_⟩
    · rw [get?_filter,hcd]
      simp [Option.filter,htomb]
    · simpa [SortedMap.contains] using hnone
  rw [removalVotes,map_eq_nil_iff,subtractChannelDefinitions] at hnil
  cases hentries : (committed.filter (fun _ cd => cd.tombstone)).entries.filter (fun e => !wanted.contains e.1) with
  | nil =>
    rw [hentries] at hmem
    exact not_mem_nil hmem
  | cons e rest =>
    rw [hentries] at hnil
    exact cons_ne_nil _ _ hnil

lemma get?_channelUpdateVotes {id : ChannelID} {cd : ChannelDefinition}
    (h : (channelUpdateVotes committed wanted).get? id = some cd) :
    wanted.get? id = some cd ∧ committed.get? id ≠ some cd := by
  obtain ⟨_,hmem⟩ := @channelUpdateVotesFrom_inv committed wanted.entries _ ∅
    (Nat.zero_lt_succ _)
  obtain ⟨hentry,hne⟩ := (hmem (id,cd) (get?_eq_some_iff.1 h)).resolve_left not_mem_nil
  exact ⟨get?_eq_some_iff.2 hentry,hne⟩

def CastsVotes (votes : ChannelVotes) (o : Observation) : Prop :=
  o.removeChannelIDs = .setOf votes.1 ∧ o.updateChannelDefinitions = votes.2

instance (votes : ChannelVotes) : DecidablePred (CastsVotes votes) :=
  fun _ => inferInstanceAs (Decidable (_ ∧ _))

structure VotedTogether (f : ℕ) (votes : ChannelVotes) (obs : List Attributed) : Prop where
  counted : f < obs.countP (fun ao => CastsVotes votes ao.2)
  others : ∀ ao ∈ obs, CastsVotes votes ao.2 ∨ CastsVotes ([],∅) ao.2

namespace VotedTogether
lemma countP_iff {f : ℕ} {votes : ChannelVotes} {obs : List Attributed} (h : VotedTogether f votes obs)
    {p : Observation → Bool} {q : Prop} (hcast : ∀ o, CastsVotes votes o → (p o = true ↔ q))
    (hsilent : ∀ o, CastsVotes ([],∅) o → p o = false) :
    f < obs.countP (fun ao => p ao.2) ↔ q := by
  constructor
  · intro hmany
    obtain ⟨ao,hao,hp⟩ := countP_pos_iff.1 (Nat.zero_lt_of_lt hmany)
    rcases h.others ao hao with hvotes | hnone
    · exact (hcast ao.2 hvotes).1 hp
    · rw [hsilent ao.2 hnone] at hp
      contradiction
  · intro hq
    refine h.counted.trans_le (countP_mono_left fun ao _ hvotes => ?_)
    exact (hcast ao.2 (of_decide_eq_true hvotes)).2 hq

lemma votesFor_iff {f : ℕ} {votes : ChannelVotes} {obs : List Attributed} {id : ChannelID}
    (h : VotedTogether f votes obs) {cd : ChannelDefinition} :
    f < votesFor obs id cd ↔ votes.2.get? id = some cd := by
  refine h.countP_iff (p := fun o => o.updateChannelDefinitions.get? id = some cd) ?_ ?_
  · intro o ho
    rw [ho.2,decide_eq_true_iff]
  · intro o ho
    rw [ho.2]
    exact decide_eq_false nofun

lemma votesToRemove_iff {f : ℕ} {votes : ChannelVotes} {obs : List Attributed} {id : ChannelID}
    (h : VotedTogether f votes obs) : f < votesToRemove obs id ↔ id ∈ votes.1 := by
  refine h.countP_iff (p := fun o => o.removeChannelIDs.contains id) ?_ ?_
  · intro o ho
    rw [ho.1,contains_setOf]
  · intro o ho
    rw [ho.1]
    rfl

lemma updatesOnWire {f : ℕ} {votes : ChannelVotes} {obs : List Attributed} (h : VotedTogether f votes obs)
    (hwire : ∀ e ∈ votes.2.entries, e.1 < 2 ^ 32 ∧ e.2.OnWire) :
    ∀ ao ∈ obs, UpdatesOnWire ao.2 := by
  intro ao hao e he
  rcases h.others ao hao with hvotes | hnone
  · exact hwire e (hvotes.2 ▸ he)
  · rw [hnone.2] at he
    exact absurd he not_mem_nil

end VotedTogether

lemma updatesPast_nodup {cfg : Config} {L : Libs} {obs : List Attributed} {f : ℕ} (hsha : Injective L.sha256)
    (hwire : ∀ ao ∈ obs, UpdatesOnWire ao.2) :
    (updatesPast (ObservationTally.ofObservations cfg L obs).updateVotes f).Nodup := by
  have hget := Ballot.get?_foldl_count updateBallot (fun e => makeChannelHash L e.1 e.2) (updatesOf obs)
    (updateHash_inj hsha hwire)
  rw [updatesPast,(ofObservations_eq cfg L obs).1]
  refine List.Nodup.filter _ (List.Nodup.map_on ?_ ?_)
  · intro a ha b hb heq
    rw [mem_insertionSort] at ha hb
    have hka := ((hget a.1 a.2).1 (get?_eq_some_iff.2 ha)).1
    have hkb := ((hget b.1 b.2).1 (get?_eq_some_iff.2 hb)).1
    exact Prod.ext (by rw [← hka,← hkb,heq]) heq
  · exact (perm_insertionSort _ _).nodup_iff.2 (entries_nodup _)

lemma eq_of_mem_passingUpdates {cfg : Config} {L : Libs} {obs : List Attributed} {f : ℕ}
    (hsha : Injective L.sha256) (hwire : ∀ ao ∈ obs, UpdatesOnWire ao.2) {v u : UpdateVote}
    (hu : u ∈ passingUpdates (.ofObservations cfg L obs) f)
    (hv : v ∈ passingUpdates (.ofObservations cfg L obs) f) (hid : u.channelID = v.channelID) : u = v := by
  have huvotes := votesFor_of_mem_passingUpdates hsha hwire hu
  have hvvotes := votesFor_of_mem_passingUpdates hsha hwire hv
  have hdef : u.definition = v.definition := by
    by_contra hne
    have := hvvotes.2 u.definition hne
    rw [← hid] at this
    exact absurd huvotes.1 (Nat.not_lt.2 this)
  have hcount : u.votes = v.votes := by
    rw [((mem_updatesPast_iff hsha hwire).1 (mem_filter.1 hu).1).1,
      ((mem_updatesPast_iff hsha hwire).1 (mem_filter.1 hv).1).1,hid,hdef]
  cases u
  cases v
  simp_all

lemma passingUpdates_channels_nodup {cfg : Config} {L : Libs} {obs : List Attributed} {f : ℕ}
    (hsha : Injective L.sha256) (hwire : ∀ ao ∈ obs, UpdatesOnWire ao.2) :
    ((passingUpdates (.ofObservations cfg L obs) f).map UpdateVote.channelID).Nodup :=
  List.Nodup.map_on (fun _ hu _ hv => eq_of_mem_passingUpdates hsha hwire hu hv)
    ((updatesPast_nodup hsha hwire).filter _)

/-- When the correct oracles vote alike, exactly their updates pass. -/
lemma VotedTogether.mem_passingUpdates {cfg : Config} {L : Libs} {obs : List Attributed} {f : ℕ}
    (hsha : Injective L.sha256) (hwire : ∀ ao ∈ obs, UpdatesOnWire ao.2) {v : UpdateVote} {votes : ChannelVotes}
    (h : VotedTogether f votes obs) : v ∈ passingUpdates (.ofObservations cfg L obs) f ↔
      v.votes = votesFor obs v.channelID v.definition ∧ votes.2.get? v.channelID = some v.definition := by
  have hpast : ∀ u : UpdateVote, u ∈ updatesPast (ObservationTally.ofObservations cfg L obs).updateVotes f ↔
      u.votes = votesFor obs u.channelID u.definition ∧ votes.2.get? u.channelID = some u.definition := by
    intro u
    rw [mem_updatesPast_iff hsha hwire]
    refine and_congr_right fun hvotes => ?_
    rw [hvotes,h.votesFor_iff]
  rw [passingUpdates,mem_filter,hpast,and_iff_left_iff_imp,decide_eq_true_iff]
  intro hv
  -- any other update of the channel has the same definition and the same votes
  have hall : ∀ u ∈ (updatesPast (ObservationTally.ofObservations cfg L obs).updateVotes f).filter
      (fun w => w.channelID = v.channelID), u = v := by
    intro u hu
    obtain ⟨hu,hid⟩ := mem_filter.1 hu
    have hid : u.channelID = v.channelID := of_decide_eq_true hid
    obtain ⟨huvotes,hudef⟩ := (hpast u).1 hu
    have hdef : u.definition = v.definition := by
      rw [hid] at hudef
      exact Option.some.inj (hudef.symm.trans hv.2)
    cases u
    cases v
    simp_all
  have hnodup := (@updatesPast_nodup cfg _ _ f hsha hwire).filter (fun w => w.channelID = v.channelID)
  rw [nodup_iff_count_le_one] at hnodup
  have hcount := hnodup v
  rwa [count_eq_length.2 fun u hu => (hall u hu).symm] at hcount

/-- A batch changes nothing exactly when each of its updates is refused. -/
lemma foldl_installUpdate_eq_self_iff {defs : ChannelDefinitions} {updates : List UpdateVote}
    (hnew : ∀ v ∈ updates, defs.get? v.channelID ≠ some v.definition)
    (hnodup : (updates.map UpdateVote.channelID).Nodup) :
    updates.foldl (installUpdate factsOf) defs = defs ↔ ∀ v ∈ updates, installUpdate factsOf defs v = defs := by
  induction updates with
  | nil => exact iff_of_true rfl nofun
  | cons v updates ih =>
    rw [map_cons,nodup_cons] at hnodup
    have ih := ih (fun w hw => hnew w (mem_cons_of_mem _ hw)) hnodup.2
    rw [foldl_cons,forall_mem_cons]
    rcases installUpdate_cases factsOf defs v with hrefused | hinstalled
    · rw [hrefused,ih]
      exact (and_iff_right rfl).symm
    · -- once installed, the definition stays: the updates that follow are of other channels
      have hget : (updates.foldl (installUpdate factsOf) (defs.insert v.channelID v.definition)).get? v.channelID =
          some v.definition := by
        obtain ⟨S,hS,hfold⟩ := foldl_installUpdate_sublist factsOf updates (defs.insert v.channelID v.definition)
        rw [hfold,get?_insertMany_of_notMem,get?_insert_self]
        intro hmem
        obtain ⟨e,he,hid⟩ := mem_map.1 hmem
        obtain ⟨w,hw,rfl⟩ := mem_map.1 he
        exact hnodup.1 (mem_map.2 ⟨w,hS.subset hw,hid⟩)
      rw [hinstalled]
      refine iff_of_false (fun heq => ?_) (fun hall => ?_)
      · rw [heq] at hget
        exact hnew v mem_cons_self hget
      · have hself := congrArg (fun m => m.get? v.channelID) hall.1
        simp only [get?_insert_self] at hself
        exact hnew v mem_cons_self hself.symm

/-- The set is not yet the wanted one, but there is nothing to remove, and each change of
the batch alone would take a total past its budget. -/
structure Stuck (factsOf : FactsOf) (committed wanted : ChannelDefinitions) : Prop where
  ne : committed ≠ wanted
  removals : removalVotes committed wanted = []
  refused : ∀ id cd, (channelUpdateVotes committed wanted).get? id = some cd →
    (totalsOf factsOf (committed.insert id cd)).grows (totalsOf factsOf committed) = true

lemma WantedFor.installUpdate_eq_self_iff {L : Libs} (h : WantedFor L factsOf committed wanted)
    (hremovals : removalVotes committed wanted = []) {v : UpdateVote}
    (hv : (channelUpdateVotes committed wanted).get? v.channelID = some v.definition) :
    installUpdate factsOf committed v = committed ↔
      (totalsOf factsOf (committed.insert v.channelID v.definition)).grows (totalsOf factsOf committed) = true := by
  obtain ⟨hwanted,hne⟩ := get?_channelUpdateVotes hv
  have hroom : ¬ ((committed.get? v.channelID).isNone ∧ committed.size ≥ maxOutcomeChannelDefinitionsLength) := by
    rintro ⟨hnone,hfull⟩
    have hlt := size_lt_size (fun _ => h.isSome_of_no_removal hremovals) (Option.isNone_iff_eq_none.1 hnone)
      (by rw [hwanted]; rfl)
    have := h.room
    omega
  rw [installUpdate,if_neg hroom]
  split_ifs with hgrows
  · exact iff_of_true rfl hgrows
  · refine iff_of_false (fun heq => ?_) hgrows
    have hself := congrArg (fun m => m.get? v.channelID) heq
    simp only [get?_insert_self] at hself
    exact hne hself.symm

lemma VotedTogether.wanted_updatesOnWire {obs : List Attributed} {f : ℕ}
    (hvoted : VotedTogether f (removalVotes committed wanted,channelUpdateVotes committed wanted) obs)
    (hwire : ∀ e ∈ wanted.entries, e.1 < 2 ^ 32 ∧ e.2.OnWire) : ∀ ao ∈ obs, UpdatesOnWire ao.2 := by
  refine hvoted.updatesOnWire fun e he => hwire e ?_
  exact get?_eq_some_iff.1 (get?_channelUpdateVotes (get?_eq_some_iff.2 he)).1

/-- A round of equal votes moves only towards the wanted definitions. -/
lemma VotedTogether.movesTo {cfg : Config} {L : Libs} {obs : List Attributed} {f : ℕ} (hsha : Injective L.sha256)
    (hwire : ∀ e ∈ wanted.entries, e.1 < 2 ^ 32 ∧ e.2.OnWire)
    (hvoted : VotedTogether f (removalVotes committed wanted,channelUpdateVotes committed wanted) obs) :
    MovesTo wanted committed (mergedDefinitions factsOf committed (.ofObservations cfg L obs) f) := by
  have hupdates := hvoted.wanted_updatesOnWire hwire
  intro id
  obtain ⟨S,hS,hmerged⟩ := foldl_installUpdate_sublist factsOf (passingUpdates (.ofObservations cfg L obs) f)
    (applyRemovals committed (.ofObservations cfg L obs) f)
  rw [mergedDefinitions,hmerged]
  cases hget : ((applyRemovals committed (.ofObservations cfg L obs) f).insertMany (S.map entryOf)).get? id with
  | none =>
    have hnone : ¬ (applyRemovals committed (.ofObservations cfg L obs) f).contains id = true := by
      intro hthere
      have hafter := contains_insertMany.2 (.inl hthere : _ ∨ id ∈ (S.map entryOf).map Prod.fst)
      rw [SortedMap.contains,hget] at hafter
      cases hafter
    rw [SortedMap.contains,get?_applyRemovals] at hnone
    split_ifs at hnone with hremoved
    · exact .inr (mem_removalVotes (hvoted.votesToRemove_iff.1 hremoved)).1.symm
    · exact .inl (Option.not_isSome_iff_eq_none.1 hnone).symm
  | some cd =>
    rcases mem_entries_insertMany (get?_eq_some_iff.1 hget) with hkept | hnew
    · rw [← get?_eq_some_iff,get?_applyRemovals] at hkept
      split_ifs at hkept
      exact .inl hkept.symm
    · obtain ⟨v,hv,hentry⟩ := mem_map.1 hnew
      obtain ⟨rfl,rfl⟩ := Prod.mk.inj hentry
      have hvote := ((hvoted.mem_passingUpdates hsha hupdates).1 (hS.subset hv)).2
      exact .inr (get?_channelUpdateVotes hvote).1.symm

/-- A round that has not reached the wanted set changes nothing exactly if it is stuck. -/
lemma VotedTogether.merged_eq_self_iff {cfg : Config} {L : Libs} {obs : List Attributed} {f : ℕ}
    (hsha : Injective L.sha256) (hwire : ∀ e ∈ wanted.entries, e.1 < 2 ^ 32 ∧ e.2.OnWire)
    (hvoted : VotedTogether f (removalVotes committed wanted,channelUpdateVotes committed wanted) obs)
    (h : WantedFor L factsOf committed wanted) (hne : committed ≠ wanted) :
    mergedDefinitions factsOf committed (.ofObservations cfg L obs) f = committed ↔ Stuck factsOf committed wanted := by
  have hupdates := hvoted.wanted_updatesOnWire hwire
  have hpassing (v : UpdateVote) : v ∈ passingUpdates (.ofObservations cfg L obs) f ↔ _ :=
    hvoted.mem_passingUpdates hsha hupdates
  have hkept : removalVotes committed wanted = [] →
      applyRemovals committed (.ofObservations cfg L obs) f = committed := by
    intro hnil
    ext id : 1
    rw [get?_applyRemovals,if_neg]
    rw [hvoted.votesToRemove_iff,hnil]
    exact not_mem_nil
  have hfold := @foldl_installUpdate_eq_self_iff factsOf _ _
    (fun v hv => (get?_channelUpdateVotes ((hpassing v).1 hv).2).2) (passingUpdates_channels_nodup (f := f) hsha hupdates)
  constructor
  · intro hsame
    have hnil : removalVotes committed wanted = [] := by
      by_contra hsome
      obtain ⟨id,hid⟩ := exists_mem_of_ne_nil _ hsome
      obtain ⟨hwanted,hcommitted⟩ := mem_removalVotes hid
      obtain ⟨cd,hcd⟩ := Option.isSome_iff_exists.1 hcommitted
      rw [← hsame] at hcd
      rcases kept_or_update (get?_eq_some_iff.1 hcd) with ⟨-,hleft⟩ | ⟨v,hv,hentry⟩
      · rw [removeVotes_getD] at hleft
        exact absurd (hvoted.votesToRemove_iff.2 hid) (Nat.not_lt.2 hleft)
      · have hvote := (get?_channelUpdateVotes ((hpassing v).1 hv).2).1
        rw [show v.channelID = id from congrArg Prod.fst hentry,hwanted] at hvote
        cases hvote
    refine ⟨hne,hnil,fun id cd hcd => ?_⟩
    rw [mergedDefinitions,hkept hnil,hfold] at hsame
    let v : UpdateVote := ⟨id,cd,votesFor obs id cd⟩
    exact (h.installUpdate_eq_self_iff hnil (v := v) hcd).1 (hsame v ((hpassing v).2 ⟨rfl,hcd⟩))
  · intro hstuck
    rw [mergedDefinitions,hkept hstuck.removals,hfold]
    intro v hv
    have hvote := ((hpassing v).1 hv).2
    exact (h.installUpdate_eq_self_iff hstuck.removals hvote).2 (hstuck.refused _ _ hvote)

/-- A round that has reached the wanted set stays there. -/
lemma VotedTogether.merged_eq_of_eq {cfg : Config} {L : Libs} {obs : List Attributed} {f : ℕ}
    (hsha : Injective L.sha256) (hwire : ∀ e ∈ wanted.entries, e.1 < 2 ^ 32 ∧ e.2.OnWire)
    (hvoted : VotedTogether f (removalVotes committed wanted,channelUpdateVotes committed wanted) obs)
    (heq : committed = wanted) :
    mergedDefinitions factsOf committed (.ofObservations cfg L obs) f = wanted := by
  ext id : 1
  rcases hvoted.movesTo hsha hwire id with h | h
  · rw [h,heq]
  · exact h

abbrev Rounds (I : Instance M) (first : ℕ) (start : KVState M) := Trace (fun n => Step I (first + n)) start

def Run.after {I : Instance M} (run : Run I) (first : ℕ) : Rounds I first (run.state first) where
  len := run.len - first
  input n := run.input (first + n)
  state n := run.state (first + n)
  out n := run.out (first + n)
  state_zero := rfl
  step_ok n hn := run.step_ok (first + n) (by omega)

namespace Rounds
variable {I : Instance M} {first : ℕ} {start : KVState M} (tr : Rounds I first start)
/-- More than `f` observations of round `n + 1` carry the votes of an honest oracle that
wants the set, the others vote on no channel, and the round counts votes: a retired
instance does not. -/
structure VotesFor (factsOf : FactsOf) (wanted : ChannelDefinitions) (n : ℕ) : Prop where
  votes : ∃ obs votes,
    decodeObservations I (tr.input (n + 1)).1.fetcher (first + (n + 1)) (tr.input (n + 1)).2 = .ok obs ∧
    voteOnChannels I.libs factsOf (tr.state n).channelDefinitions wanted = .ok votes ∧
    VotedTogether I.config.f votes obs
  counts : (tr.out (n + 1)).lifeCycleStage ≠ .retired

/-- All rounds are computed by one build and vote for one set. -/
structure VotingFor (factsOf : FactsOf) (wanted : ChannelDefinitions) : Prop where
  later : 1 ≤ first
  build : ∀ n, n < tr.len → (tr.input (n + 1)).1.factsOf = factsOf
  start : WantedFor I.libs factsOf start.channelDefinitions wanted
  onWire : ∀ e ∈ wanted.entries, e.1 < 2 ^ 32 ∧ e.2.OnWire
  votes : ∀ n, n < tr.len → tr.VotesFor factsOf wanted n

namespace VotingFor
variable {tr} {factsOf : FactsOf} {wanted : ChannelDefinitions}

lemma next_eq {n : ℕ} (h : tr.VotingFor factsOf wanted) (hn : n < tr.len)
    (hwanted : WantedFor I.libs factsOf (tr.state n).channelDefinitions wanted) :
    ∃ obs, VotedTogether I.config.f (removalVotes (tr.state n).channelDefinitions wanted,
        channelUpdateVotes (tr.state n).channelDefinitions wanted) obs ∧
      (tr.state (n + 1)).channelDefinitions =
        mergedDefinitions factsOf (tr.state n).channelDefinitions (.ofObservations I.config I.libs obs) I.config.f := by
  have hfirst := h.later
  obtain ⟨obs,votes,hobs,hvotes,hvoted⟩ := (h.votes n hn).votes
  rw [hwanted.voteOnChannels_eq] at hvotes
  cases Except.ok.inj hvotes
  obtain ⟨obs',hobs',hround⟩ := stateTransition_inv (by omega) (tr.step_ok n hn)
  cases Except.ok.inj (hobs.symm.trans hobs')
  have hdefs := (laterRound_inv hround).2
  rw [nextDefinitions_of_not_retired (h.votes n hn).counts,h.build n hn] at hdefs
  exact ⟨obs,hvoted,applyChannelVotes_eq hdefs⟩

lemma wantedFor (h : tr.VotingFor factsOf wanted) (hsha : Injective I.libs.sha256) :
    ∀ n, n ≤ tr.len → WantedFor I.libs factsOf (tr.state n).channelDefinitions wanted := by
  intro n hn
  refine tr.invariant_from (P := fun n => WantedFor I.libs factsOf (tr.state n).channelDefinitions wanted) ?_ ?_ n
    (Nat.zero_le n) hn
  · rw [tr.state_zero]
    exact h.start
  · intro k _ hk ih
    obtain ⟨obs,hvoted,hnext⟩ := h.next_eq hk ih
    rw [hnext]
    exact ih.moves (hvoted.movesTo hsha h.onWire)

/-- A stuck round is followed by stuck rounds only. -/
lemma stuck_forever {n : ℕ} (h : tr.VotingFor factsOf wanted) (hsha : Injective I.libs.sha256)
    (hstuck : Stuck factsOf (tr.state n).channelDefinitions wanted) :
    ∀ k, n ≤ k → k ≤ tr.len → (tr.state k).channelDefinitions = (tr.state n).channelDefinitions := by
  refine tr.invariant_from (P := fun k => (tr.state k).channelDefinitions = (tr.state n).channelDefinitions) rfl ?_
  intro k _ hk ih
  have hwanted := h.wantedFor hsha k hk.le
  obtain ⟨obs,hvoted,hnext⟩ := h.next_eq hk hwanted
  rw [← ih] at hstuck
  rw [hnext,(hvoted.merged_eq_self_iff hsha h.onWire hwanted hstuck.ne).2 hstuck,ih]

lemma card_differing_step {n : ℕ} (h : tr.VotingFor factsOf wanted) (hsha : Injective I.libs.sha256)
    (hn : n < tr.len) (hfree : ¬ Stuck factsOf (tr.state n).channelDefinitions wanted) :
    (differing (tr.state (n + 1)).channelDefinitions wanted).card ≤
      (differing (tr.state n).channelDefinitions wanted).card - 1 := by
  have hwanted := h.wantedFor hsha n hn.le
  obtain ⟨obs,hvoted,hnext⟩ := h.next_eq hn hwanted
  rw [hnext]
  by_cases heq : (tr.state n).channelDefinitions = wanted
  · rw [hvoted.merged_eq_of_eq hsha h.onWire heq,card_differing_eq_zero.2 rfl]
    exact Nat.zero_le _
  · have hmoves : MovesTo wanted (tr.state n).channelDefinitions
        (mergedDefinitions factsOf (tr.state n).channelDefinitions (.ofObservations I.config I.libs obs) I.config.f) :=
      hvoted.movesTo hsha h.onWire
    have hlt := hmoves.card_differing_lt
      (mt (hvoted.merged_eq_self_iff hsha h.onWire hwanted heq).1 hfree)
    omega

end VotingFor

/-- After as many rounds as channels differ, the committed set is the wanted one, exactly
if no round was stuck. -/
theorem converges_iff {tr : Rounds I first start} (hsha : Injective I.libs.sha256)
    (h : tr.VotingFor factsOf wanted) (hlen : (differing start.channelDefinitions wanted).card ≤ tr.len) :
    (tr.state tr.len).channelDefinitions = wanted ↔
      ∀ n, n < tr.len → ¬ Stuck factsOf (tr.state n).channelDefinitions wanted := by
  constructor
  · intro heq n hn hstuck
    exact hstuck.ne ((h.stuck_forever hsha hstuck tr.len hn.le le_rfl).symm.trans heq)
  · intro hfree
    have hle := tr.measure_le (fun s => (differing s.channelDefinitions wanted).card)
      (fun n hn => h.card_differing_step hsha hn (hfree n hn)) tr.len le_rfl
    rw [← card_differing_eq_zero]
    omega

end Rounds

lemma wantedFor_of_entries {L : Libs}
    (hlive : ∀ e ∈ committed.entries, e.2.tombstone = false → (wanted.get? e.1).isSome = true)
    (hroom : wanted.size ≤ maxOutcomeChannelDefinitionsLength)
    (hadmitted : admissibleChannelDefinitions L factsOf committed wanted = .ok (wanted,[],none)) :
    WantedFor L factsOf committed wanted where
  live id cd hcd := hlive (id,cd) (get?_eq_some_iff.1 hcd)
  room := hroom
  admitted := ⟨[],hadmitted⟩

lemma votedTogether_of_three {f : ℕ} {votes : ChannelVotes} {o : Observation} (hf : f < 3)
    (h : CastsVotes votes o) : VotedTogether f votes [(0,o),(1,o),(2,o)] := by
  refine ⟨?_,?_⟩
  · simpa [countP_cons,h] using hf
  · intro ao hao
    simp only [mem_cons,not_mem_nil,or_false] at hao
    rcases hao with rfl | rfl | rfl
    all_goals exact .inl h

def votingMessage (ts : ℕ) (format : ReportFormat) (defs : ChannelDefinitions) : ObservationProto :=
  { timestampMessage ts [format] with updateChannelDefinitions := defs.mapVal (fun _ cd => some cd) }

def jsonChannels (ids : List ChannelID) : ChannelDefinitions := .ofList (ids.map fun id => (id,jsonChannel))

/-- An observation has room for five definitions, so that the sixth channel waits for round 3. -/
def addVotes : ℕ → ChannelDefinitions
  | 2 => jsonChannels [1,2,3,4,5]
  | 3 => jsonChannels [6]
  | _ => ∅

def addInstance : Instance Unit :=
  smallInstance ⟨.rejecting,fromTable [],digest⟩
    (wireOf ((List.range 6).map fun n => votingMessage (n + 2) .json (addVotes (n + 2))) [] [])

def addObservations (n : ℕ) : List AttributedObservation :=
  fromThree (if n = 1 then [] else frameObservation [] (marshalObservation (votingMessage n .json (addVotes n))))

def addNode : Node := nodeWithAllCodecs addInstance.libs priceFetcher

def addRun : Run addInstance := .ofExecution _ addNode addObservations 7 (by decide +kernel)

lemma addRun_votingFor : (addRun.after 1).VotingFor addNode.factsOf (jsonChannels [1,2,3,4,5,6]) where
  later := le_rfl
  build _ _ := rfl
  start := wantedFor_of_entries (by decide +kernel) (by decide +kernel) (by decide +kernel)
  onWire := by
    have hentries : ∀ e ∈ (jsonChannels [1,2,3,4,5,6]).entries, e.1 < 2 ^ 32 ∧ e.2 = jsonChannel := by decide
    intro e he
    exact ⟨(hentries e he).1,(hentries e he).2 ▸ onWire_jsonChannel⟩
  votes := by
    intro n hn
    have hobs : ∀ n < 6, decodeObservations addInstance addNode.fetcher (1 + (n + 1)) (addObservations (1 + (n + 1))) =
        .ok ([0,1,2].map fun oracle => (oracle,votingObservation (n + 2) .json (addVotes (n + 2)))) := by
      decide +kernel
    have hvotes : ∀ n < 6, voteOnChannels addInstance.libs addNode.factsOf ((addRun.after 1).state n).channelDefinitions
        (jsonChannels [1,2,3,4,5,6]) = .ok ([],addVotes (n + 2)) := by
      decide +kernel
    have hcounts : ∀ n < 6, ((addRun.after 1).out (n + 1)).lifeCycleStage ≠ .retired := by decide +kernel
    exact ⟨⟨_,_,hobs n hn,hvotes n hn,votedTogether_of_three (by decide) ⟨rfl,rfl⟩⟩,hcounts n hn⟩

/-- All six channels are committed in round 3. -/
theorem converges_addRun :
    (addRun.after 1).VotingFor addNode.factsOf (jsonChannels [1,2,3,4,5,6]) ∧
      (addRun.state 1).channelDefinitions = ∅ ∧ (addRun.state 2).channelDefinitions = jsonChannels [1,2,3,4,5] ∧
      ((addRun.state 7).channelDefinitions = jsonChannels [1,2,3,4,5,6] ↔
        ∀ n, n < 6 → ¬ Stuck addNode.factsOf ((addRun.after 1).state n).channelDefinitions
          (jsonChannels [1,2,3,4,5,6])) ∧
      (addRun.state 3).channelDefinitions = jsonChannels [1,2,3,4,5,6] :=
  ⟨addRun_votingFor,by decide +kernel,by decide +kernel,
    Rounds.converges_iff digest_injective addRun_votingFor (by decide +kernel),by decide +kernel⟩

/-- The opts of feed 1 or 2 that declare calculated stream 100 or 101. -/
def declareJSON : JSON :=
  .ofExpressions [(1,[(['1'],100)]),(1,[(['1'],101)]),(2,[(['1'],100)]),(2,[(['1'],101)])]

/-- The expression reads nothing. -/
def constantExprs : ExprLib := ⟨fromTable [(['1'],.integer 1)],fromTable []⟩

def declaring (stream : StreamID) (feed : ℕ) : ChannelDefinition :=
  ⟨.evmABIEncodeUnpackedExpr,[⟨1,.median⟩,⟨2,.median⟩,⟨3,.median⟩],(JSONText.exprOpts feed [(['1'],stream)]).bytes,
    false,0,false⟩

def declarations (first second : StreamID) : ChannelDefinitions := .ofList [(1,declaring first 1),(2,declaring second 2)]

def declareLibs : Libs := ⟨declareJSON,fromTable [],digest⟩

def declareMessage (ts : ℕ) (defs : ChannelDefinitions) : ObservationProto :=
  votingMessage ts .evmABIEncodeUnpackedExpr defs

/-- Round 2 declares the streams 100 and 101, and from then on the oracles want them the
other way round. -/
def swapMessages : List ObservationProto :=
  declareMessage 10 (declarations 100 101) :: .replicate 2 (declareMessage 20 (declarations 101 100))

def swapInstance : Instance Unit := smallInstance declareLibs (wireOf swapMessages [] [])

def declareNode : Node := ⟨channelFactsFor declareJSON (codecsFor declareLibs constantExprs (fun _ => true)) .empty,none⟩

def swapRun : Run swapInstance :=
  .ofExecution _ declareNode (sentFrom (swapMessages.map (Prod.mk []))) 4 (by decide +kernel)

def swapObservation : Observation := votingObservation 20 .evmABIEncodeUnpackedExpr (declarations 101 100)

lemma onWire_declaring {stream : StreamID} {feed : ℕ}
    (hlength : (marshalChannelDefinition (declaring stream feed)).length < 2 ^ 64) : (declaring stream feed).OnWire := by
  have hstreams : ∀ s ∈ (declaring stream feed).streams, s.streamID < 2 ^ 32 := by
    simp [declaring]
  refine ⟨⟨(by decide : ReportFormat.evmABIEncodeUnpackedExpr.code < 2 ^ 32),fun _ h => nomatch h⟩,hstreams,?_,
    Nat.two_pow_pos 32,hlength⟩
  intro s hs
  simp only [declaring,mem_cons,not_mem_nil,or_false] at hs
  rcases hs with rfl | rfl | rfl
  all_goals exact ⟨by decide,fun _ h => nomatch h⟩

lemma swapRun_votingFor : (swapRun.after 2).VotingFor declareNode.factsOf (declarations 101 100) where
  later := by decide
  build _ _ := rfl
  start := wantedFor_of_entries (by decide +kernel) (by decide +kernel) (by decide +kernel)
  onWire := by
    intro e he
    have he : e ∈ [(1,declaring 101 1),(2,declaring 100 2)] := he
    simp only [mem_cons,not_mem_nil,or_false] at he
    rcases he with rfl | rfl
    all_goals exact ⟨by decide,onWire_declaring (by decide +kernel)⟩
  votes := by
    intro n hn
    have hcases : n = 0 ∨ n = 1 := by
      have hn : n < 2 := hn
      omega
    refine ⟨⟨[(0,swapObservation),(1,swapObservation),(2,swapObservation)],([],declarations 101 100),?_,?_,
      votedTogether_of_three (by decide) ⟨rfl,rfl⟩⟩,?_⟩
    all_goals rcases hcases with rfl | rfl
    all_goals decide +kernel

lemma stuck_declarations : Stuck declareNode.factsOf (declarations 100 101) (declarations 101 100) where
  ne := by decide +kernel
  removals := by decide +kernel
  refused := by
    have hall : ∀ e ∈ (channelUpdateVotes (declarations 100 101) (declarations 101 100)).entries,
        (totalsOf declareNode.factsOf ((declarations 100 101).insert e.1 e.2)).grows
          (totalsOf declareNode.factsOf (declarations 100 101)) = true := by decide +kernel
    intro id cd hcd
    exact hall (id,cd) (get?_eq_some_iff.1 hcd)

/-- Either change alone would declare a stream twice, so both are refused in every round, and no
number of rounds is enough. -/
theorem swapped_streams_never_adopted :
    (swapRun.after 2).VotingFor declareNode.factsOf (declarations 101 100) ∧
      (differing (swapRun.state 2).channelDefinitions (declarations 101 100)).card ≤ (swapRun.after 2).len ∧
      (swapRun.state 4).channelDefinitions = declarations 100 101 ∧
      ∀ (I : Instance Unit) (first : ℕ) (start : KVState Unit) (tr : Rounds I first start),
        Injective I.libs.sha256 → start.channelDefinitions = declarations 100 101 →
        tr.VotingFor declareNode.factsOf (declarations 101 100) →
        ∀ n, n ≤ tr.len → (tr.state n).channelDefinitions ≠ declarations 101 100 := by
  refine ⟨swapRun_votingFor,by decide +kernel,by decide +kernel,?_⟩
  intro I first start tr hsha hstart h n hn
  have hstuck : Stuck declareNode.factsOf (tr.state 0).channelDefinitions (declarations 101 100) := by
    rw [tr.state_zero,hstart]
    exact stuck_declarations
  rw [h.stuck_forever hsha hstuck n (Nat.zero_le n) hn]
  exact hstuck.ne

end DataStreams.V31
