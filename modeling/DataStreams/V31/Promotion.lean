import DataStreams.V31.Adoption
import DataStreams.V31.AgreedTime
import DataStreams.V31.Handover

/-! A staging instance is promoted by a report that enough signers of its predecessor have
signed (v31). -/
namespace DataStreams.V31
open List Go Function SortedMap

structure AttestedRetirementReport where
  retirementReport : Bytes
  seqNr : ℕ
  sigs : List AttributedOnchainSignature
  deriving DecidableEq

/-- What verification takes from other packages: the decoders and the signature check of a
key, for a digest, a sequence number and the bytes of a report. -/
structure RetirementLibs where
  unmarshalAttested : Bytes → Except String AttestedRetirementReport
  verify : Bytes → ConfigDigest → ℕ → Bytes → Bytes → Bool
  unmarshalReport : Bytes → Except String RetirementReport

def maxRetirementReportChannels : ℕ := 2 * maxOutcomeChannelDefinitionsLength

namespace RetirementLibs
variable (R : RetirementLibs)
def decodeReport (data : Bytes) : Except String RetirementReport := do
  let report ← R.unmarshalReport data
  let n := (report.validAfterNanoseconds.getD ∅).size
  if n > maxRetirementReportChannels then
    .error s!"retirement report has {n} channels, max {maxRetirementReportChannels}"
  else .ok report

def countSignatures (digest : ConfigDigest) (signers : List Bytes) (arr : AttestedRetirementReport) :
    List AttributedOnchainSignature → List ℕ → ℕ → Except String ℕ
  | [],_,validSigs => .ok validSigs
  | sig :: sigs,seen,validSigs =>
    match signers[sig.signer]? with
    | none => .error s!"Verify failed; attested report signer index out of bounds (got: {sig.signer}, max: {signers.length - 1})"
    | some signer =>
      if sig.signer ∈ seen then .error s!"Verify failed; duplicate signature from signer index {sig.signer}"
      else countSignatures digest signers arr sigs (sig.signer :: seen)
        (if R.verify signer digest arr.seqNr arr.retirementReport sig.signature then validSigs + 1 else validSigs)

def verifyAttestedRetirementReport : RetirementVerifier := fun digest pc serialized => do
  let arr ← R.unmarshalAttested serialized
  if arr.sigs.length > pc.signers.length then
    .error s!"Verify failed; attested report carries more signatures than signers (got: {arr.sigs.length}, max: {pc.signers.length})"
  else do
    let validSigs ← R.countSignatures digest pc.signers arr arr.sigs [] 0
    if validSigs ≤ pc.f then
      .error s!"Verify failed; not enough valid signatures (got: {validSigs}, need: {pc.f + 1})"
    else R.decodeReport arr.retirementReport

/-- A signature that verifies with the key it names. -/
def ValidSignature (digest : ConfigDigest) (signers : List Bytes) (arr : AttestedRetirementReport)
    (sig : AttributedOnchainSignature) : Prop :=
  ∃ signer, signers[sig.signer]? = some signer ∧
    R.verify signer digest arr.seqNr arr.retirementReport sig.signature = true

instance (digest : ConfigDigest) (signers : List Bytes) (arr : AttestedRetirementReport) :
    DecidablePred (R.ValidSignature digest signers arr) := fun sig =>
  match h : signers[sig.signer]? with
  | none => .isFalse (fun ⟨_,hs,_⟩ => nomatch h.symm.trans hs)
  | some signer => decidable_of_iff (R.verify signer digest arr.seqNr arr.retirementReport sig.signature = true)
    ⟨fun hv => ⟨signer,h,hv⟩,fun ⟨_,hs,hv⟩ => by rw [h] at hs; cases hs; exact hv⟩

/-- The serialized report carries no more signatures than there are signers, by pairwise
distinct signers, more than `f` of them valid, and holds the given report. -/
structure Attests (digest : ConfigDigest) (pc : PredecessorConfig) (serialized : Bytes) (r : RetirementReport)
    (arr : AttestedRetirementReport) : Prop where
  unmarshal : R.unmarshalAttested serialized = .ok arr
  length_le : arr.sigs.length ≤ pc.signers.length
  distinct : (arr.sigs.map AttributedOnchainSignature.signer).Nodup
  enough : pc.f + 1 ≤ arr.sigs.countP (fun sig => R.ValidSignature digest pc.signers arr sig)
  decode : R.decodeReport arr.retirementReport = .ok r

variable {R} {digest : ConfigDigest} {signers : List Bytes} {arr : AttestedRetirementReport}
/-- Only valid signatures of different signers are counted. -/
lemma countSignatures_eq_ok {sigs : List AttributedOnchainSignature} {seen : List ℕ} {start n : ℕ}
    (h : R.countSignatures digest signers arr sigs seen start = .ok n) :
    (sigs.map AttributedOnchainSignature.signer).Nodup ∧ (∀ sig ∈ sigs, sig.signer ∉ seen) ∧
      n = start + sigs.countP (fun sig => R.ValidSignature digest signers arr sig) := by
  -- the loop keeps the signers seen so far apart from the ones to come
  induction sigs generalizing seen start with
  | nil =>
    cases h
    exact ⟨nodup_nil,nofun,rfl⟩
  | cons sig sigs ih =>
    rw [countSignatures] at h
    cases hsigner : signers[sig.signer]? with
    | none =>
      rw [hsigner] at h
      contradiction
    | some signer =>
      rw [hsigner] at h
      dsimp only at h
      split_ifs at h with hseen hvalid
      all_goals obtain ⟨hnodup,hfresh,rfl⟩ := ih h
      all_goals
        have hhead : sig.signer ∉ sigs.map AttributedOnchainSignature.signer := by
          intro hmem
          obtain ⟨other,hother,heq⟩ := mem_map.1 hmem
          exact hfresh other hother (by rw [heq]; exact mem_cons_self)
        have hrest : ∀ other ∈ sig :: sigs, other.signer ∉ seen := by
          intro other hother
          rcases mem_cons.1 hother with rfl | hother
          · exact hseen
          · exact fun hmem => hfresh other hother (mem_cons_of_mem _ hmem)
        have hhere : R.ValidSignature digest signers arr sig ↔
            R.verify signer digest arr.seqNr arr.retirementReport sig.signature = true := by
          simp [ValidSignature,hsigner]
        refine ⟨nodup_cons.2 ⟨hhead,hnodup⟩,hrest,?_⟩
        simp only [countP_cons,hhere,hvalid]
      · simp only [decide_true,if_true]
        omega
      · simp

/-- Whatever verification returns is attested. -/
lemma attests_of_verify {pc : PredecessorConfig} {serialized : Bytes} {r : RetirementReport}
    (h : R.verifyAttestedRetirementReport digest pc serialized = .ok r) : ∃ arr, R.Attests digest pc serialized r arr := by
  obtain ⟨arr,harr,h⟩ := bind_ok_iff.1 h
  split_ifs at h with hmany
  obtain ⟨n,hn,h⟩ := bind_ok_iff.1 h
  split_ifs at h with hfew
  obtain ⟨hnodup,_,rfl⟩ := countSignatures_eq_ok hn
  exact ⟨arr,harr,not_lt.1 hmany,hnodup,by omega,h⟩

end RetirementLibs

def votesForPredecessor (obs : List Attributed) (pc : PredecessorConfig) : ℕ :=
  obs.countP (fun ao => ao.2.predecessorSigners = pc.signers ∧ ao.2.predecessorF = pc.f)

variable {cfg : Config} {fetcher : BlobFetcher} {seqNr : ℕ}
lemma predecessorOnWire_of_decoded {W : WireLibs} {raw : Bytes}
    {obs : Observation} (h : fetchBlobsDecodeAndValidateObservation cfg W fetcher seqNr raw = .ok obs) :
    PredecessorOnWire obs := by
  obtain ⟨_,hobs,_,_,⟨⟩⟩ : ∃ o, _ ∧ ∃ u, _ ∧ _ := by
    simpa only [fetchBlobsDecodeAndValidateObservation,bind_ok_iff] using h
  obtain ⟨base,_,_,hbase,rfl⟩ := fetchBlobsAndDecodeObservation_votes hobs
  unfold decodeVotes at hbase
  split_ifs at hbase
  · cases hbase
    exact ⟨show 0 < 2 ^ 64 by decide,fun s hs => absurd hs not_mem_nil⟩
  · simp only [bind_ok_iff,ofExcept_eq_ok] at hbase
    obtain ⟨_,_,message,_,hbase⟩ := hbase
    unfold observationFromProto at hbase
    split_ifs at hbase
    all_goals obtain ⟨updates,_,hbase⟩ := bind_ok_iff.1 hbase
    · contradiction
    · contradiction
    simp only [bind_ok_iff] at hbase
    obtain ⟨_,_,_,hpredecessor,⟨⟩⟩ := hbase
    unfold validatePredecessorConfig at hpredecessor
    split_ifs at hpredecessor with _ hsigners
    refine ⟨(Nat.mod_lt _ (by decide)).trans (by decide),?_⟩
    intro s hs
    simp only [any_eq_true,Bool.or_eq_true,decide_eq_true_eq,not_exists,not_and,not_or,not_lt] at hsigners
    exact (hsigners s hs).2.trans_lt (by decide)

variable {aos : List AttributedObservation} {obs : List Attributed}
lemma predecessorOnWire_of_decodeObservations (h : decodeObservations I fetcher seqNr aos = .ok obs) :
    ∀ ao ∈ obs, PredecessorOnWire ao.2 := by
  intro ao hao
  obtain ⟨raw,_,hraw⟩ := (mapM_ok h).2 ao hao
  obtain ⟨o,ho,⟨⟩⟩ := bind_ok_iff.1 hraw
  exact predecessorOnWire_of_decoded ho

variable {L : Libs} {pc : PredecessorConfig}
/-- More than f oracles voted for the elected configuration. -/
lemma votes_of_elected (hsha : Injective L.sha256) (hwire : ∀ ao ∈ obs, PredecessorOnWire ao.2)
    (h : electPredecessorConfig (ObservationTally.ofObservations cfg L obs).predecessorVotes cfg.f = some pc) :
    cfg.f < votesForPredecessor obs pc := by
  obtain ⟨e,he,rfl⟩ := Option.map_eq_some_iff.1 h
  have hmem := mem_of_find?_eq_some he
  have hvotes : cfg.f < e.2.votes := by simpa using find?_some he
  rw [(ofObservations_eq cfg L obs).2.2.1,← get?_eq_some_iff,
    predecessorBallot.get?_foldl_count _ _ (predecessorHash_inj hsha hwire)] at hmem
  obtain ⟨_,hcount,_⟩ := hmem
  refine hvotes.trans_le ?_
  have hvotes' : e.2.votes = (predecessorsOf cfg obs).count e.2.config := hcount
  rw [hvotes',predecessorsOf]
  split_ifs
  · exact Nat.zero_le _
  · -- each vote for the set is an observation that carries it
    rw [List.count,countP_filterMap]
    apply countP_mono_left
    intro ao _ hao
    apply decide_eq_true
    by_cases hs : ao.2.predecessorSigners = []
    · simp [hs] at hao
    · rw [if_pos hs] at hao
      have heq : (⟨ao.2.predecessorSigners,ao.2.predecessorF⟩ : PredecessorConfig) = e.2.config := by simpa using hao
      rw [← heq]
      exact ⟨rfl,rfl⟩

variable {M : Type}
/-- Every watermark the instance would carry over is the one a new channel gets. -/
def CarriesInitial (L : Libs) (prev : KVState M) (obsTs : ℕ) : Prop :=
  ∀ id cd w, prev.channelDefinitions.get? id = some cd → prev.validAfterNanoseconds.get? id = some w →
    carryValidAfter L prev id w = some (initialValidAfter cd obsTs)

variable {prev : KVState M} {obsTs : ℕ}
/-- A report without a map acts as one with an empty map in this case only. -/
lemma nextValidAfter_none_eq_iff :
    nextValidAfter L prev none obsTs = nextValidAfter L prev (some ∅) obsTs ↔ CarriesInitial L prev obsTs := by
  have hempty : ∀ id, (nextValidAfter L prev (some ∅) obsTs).get? id =
      (prev.channelDefinitions.get? id).map (fun cd => initialValidAfter cd obsTs) := by
    intro id
    rw [get?_nextValidAfter,carriedValidAfter,get?_mapVal,get?_emptyCollection]
    rfl
  have hcarried : ∀ id, (nextValidAfter L prev none obsTs).get? id =
      ((prev.validAfterNanoseconds.get? id).bind (carryValidAfter L prev id)).or
        ((prev.channelDefinitions.get? id).map (fun cd => initialValidAfter cd obsTs)) := by
    intro id
    rw [get?_nextValidAfter,carriedValidAfter,get?_filterMap]
  constructor
  · intro h id cd w hcd hw
    have hid := congrArg (fun m => m.get? id) h
    simp only [hempty,hcarried,hcd,hw,Option.bind_some,Option.map_some] at hid
    unfold carryValidAfter at hid ⊢
    rw [hcd] at hid ⊢
    dsimp only at hid ⊢
    split_ifs at hid ⊢ <;> simpa using hid
  · intro h
    ext1 id
    rw [hempty,hcarried]
    cases hw : prev.validAfterNanoseconds.get? id with
    | none => simp
    | some w =>
      cases hcd : prev.channelDefinitions.get? id with
      | none => simp [carryValidAfter,hcd]
      | some cd => simp [h id cd w hcd hw]

def MixesMaps (reports : List RetirementReport) : Prop :=
  (∃ r ∈ reports, r.validAfterNanoseconds = none) ∧ ∃ r ∈ reports, r.validAfterNanoseconds ≠ none

variable {r : RetirementReport}
lemma nextValidAfter_congr {reports : List RetirementReport}
    (hmix : MixesMaps reports → CarriesInitial L prev obsTs) {s : RetirementReport} (hr : r ∈ reports)
    (hs : s ∈ reports) (hagree : retirementAgrees r s = true) :
    nextValidAfter L prev r.validAfterNanoseconds obsTs = nextValidAfter L prev s.validAfterNanoseconds obsTs := by
  have hentries := (Prod.mk.inj (retirementAgrees_iff.1 hagree)).2
  cases hrm : r.validAfterNanoseconds with
  | none =>
    cases hsm : s.validAfterNanoseconds with
    | none => rfl
    | some m =>
      rw [hrm,hsm] at hentries
      have hm : ∅ = m := hentries
      rw [← hm]
      exact nextValidAfter_none_eq_iff.2 (hmix ⟨⟨r,hr,hrm⟩,s,hs,by rw [hsm]; nofun⟩)
  | some m =>
    cases hsm : s.validAfterNanoseconds with
    | none =>
      rw [hrm,hsm] at hentries
      have hm : m = ∅ := hentries
      rw [hm]
      exact (nextValidAfter_none_eq_iff.2 (hmix ⟨⟨s,hs,hsm⟩,r,hr,by rw [hrm]; nofun⟩)).symm
    | some m' =>
      rw [hrm,hsm] at hentries
      have hm : m = m' := hentries
      rw [hm]

lemma medianTimestamp_perm {l m : List ℕ} (h : l.Perm m) : medianTimestamp l = medianTimestamp m := by
  have hsort : l.insertionSort (· ≤ ·) = m.insertionSort (· ≤ ·) := by
    apply List.Perm.eq_of_pairwise (fun a b _ _ hab hba => le_antisymm hab hba)
      (pairwise_insertionSort _ _) (pairwise_insertionSort _ _)
    exact ((perm_insertionSort _ _).trans h).trans (perm_insertionSort _ _).symm
  rw [medianTimestamp,medianTimestamp,hsort,h.length_eq]

section Round
variable {I : Instance M} {obs' : List Attributed} {digest : ConfigDigest}
lemma obsTs_of_perm (h : obs.Perm obs') :
    (decideRound I prev (.ofObservations I.config I.libs obs)).obsTs =
      (decideRound I prev (.ofObservations I.config I.libs obs')).obsTs := by
  simp only [decideRound,timestampsNanoseconds_ofObservations,agreedObservationTimestamp,medianTimestamp_perm (h.map _)]

def acceptedOf (I : Instance M) (digest : ConfigDigest) (obs : List Attributed) : List RetirementReport :=
  acceptedRetirements I.config I.verify digest (.ofObservations I.config I.libs obs)

lemma validAfter_eq_of_chosen (hdigest : I.config.predecessorConfigDigest = some digest)
    (hstaging : prev.lifeCycleStage = .staging)
    (hchosen : chooseRetirement (acceptedOf I digest obs) = some r) :
    (decideRound I prev (.ofObservations I.config I.libs obs)).validAfter =
      nextValidAfter I.libs prev r.validAfterNanoseconds
        (decideRound I prev (.ofObservations I.config I.libs obs)).obsTs := by
  have hresolved : resolvePredecessorRetirement I.config I.verify prev.lifeCycleStage
      (.ofObservations I.config I.libs obs) = some r := (resolvePredecessorRetirement_eq hdigest hstaging).trans hchosen
  rw [hstaging] at hresolved
  simp only [decideRound,hresolved,promotedValidAfter,hstaging,if_true,Option.bind_some]

lemma chosen_mem {reports : List RetirementReport} (h : chooseRetirement reports = some r) :
    r ∈ reports ∧ ∀ a ∈ reports, ∀ b ∈ reports, retirementAgrees a b = true := by
  have hall := (chooseRetirement_isSome_iff.1 (by rw [h]; rfl)).2
  cases reports with
  | nil => cases h
  | cons s rest =>
    rw [chooseRetirement] at h
    split_ifs at h
    cases h
    exact ⟨mem_cons_self,hall⟩

lemma exists_observation_of_accepted (h : r ∈ acceptedOf I digest obs) :
    ∃ pc, electPredecessorConfig (ObservationTally.ofObservations I.config I.libs obs).predecessorVotes I.config.f =
        some pc ∧ ∃ ao ∈ obs, ao.2.attestedPredecessorRetirement ≠ [] ∧
      acceptRetirement I.config I.verify digest pc ao.2.attestedPredecessorRetirement = some r := by
  unfold acceptedOf acceptedRetirements at h
  split at h
  · simp at h
  · next pc hpc =>
    obtain ⟨b,hb,hr⟩ := mem_filterMap.1 h
    rw [mem_eraseDups,(ofObservations_eq I.config I.libs obs).2.2.2.1,attestedOf] at hb
    split_ifs at hb
    · simp at hb
    · obtain ⟨hb,hne⟩ := mem_filter.1 hb
      obtain ⟨ao,hao,rfl⟩ := mem_map.1 hb
      exact ⟨pc,hpc,ao,hao,of_decide_eq_true hne,hr⟩

lemma accepted_mem_of_observation (hdigest : I.config.predecessorConfigDigest = some digest)
    (hpc : electPredecessorConfig (ObservationTally.ofObservations I.config I.libs obs).predecessorVotes I.config.f =
      some pc) {ao : Attributed} (hao : ao ∈ obs) (hne : ao.2.attestedPredecessorRetirement ≠ [])
    (hr : acceptRetirement I.config I.verify digest pc ao.2.attestedPredecessorRetirement = some r) :
    r ∈ acceptedOf I digest obs := by
  unfold acceptedOf acceptedRetirements
  rw [hpc]
  refine mem_filterMap.2 ⟨_,?_,hr⟩
  rw [mem_eraseDups,(ofObservations_eq I.config I.libs obs).2.2.2.1,attestedOf,if_neg (by simp [hdigest])]
  exact mem_filter.2 ⟨mem_map_of_mem hao,decide_eq_true hne⟩

lemma verify_of_acceptRetirement {cfg : Config} {verify : RetirementVerifier} {b : Bytes}
    (h : acceptRetirement cfg verify digest pc b = some r) : verify digest pc b = .ok r := by
  unfold acceptRetirement at h
  split at h
  · contradiction
  · next hv =>
    rw [hv]
    split at h
    · contradiction
    · rw [Option.some.inj h]

/-- Some order of the observations makes any accepted report the chosen one. -/
lemma exists_perm_choosing (hsha : Injective I.libs.sha256)
    (hdigest : I.config.predecessorConfigDigest = some digest)
    (hobs : decodeObservations I fetcher seqNr aos = .ok obs) (hchosen : (chooseRetirement (acceptedOf I digest obs)).isSome)
    (hr : r ∈ acceptedOf I digest obs) :
    ∃ aos' obs', aos.Perm aos' ∧ obs.Perm obs' ∧ decodeObservations I fetcher seqNr aos' = .ok obs' ∧
      chooseRetirement (acceptedOf I digest obs') = some r := by
  have hwire := predecessorOnWire_of_decodeObservations hobs
  obtain ⟨pc,hpc,ao,hao,hne,hacc⟩ := exists_observation_of_accepted hr
  obtain ⟨raw,hraw,hdecode⟩ := (mapM_ok hobs).2 ao hao
  obtain ⟨front,back,rfl⟩ := append_of_mem hraw
  -- the observation that carries the report goes first
  have hperm : (front ++ raw :: back).Perm (raw :: (front ++ back)) := perm_middle
  obtain ⟨obs',hobs',hpermobs⟩ := mapM_perm hperm hobs
  refine ⟨raw :: (front ++ back),obs',hperm,hpermobs,hobs',?_⟩
  simp only [mapM_cons,bind_ok_iff] at hobs'
  obtain ⟨first,hfirst,rest,_,⟨⟩⟩ := hobs'
  have heq : first = ao := Except.ok.inj ((show _ = Except.ok first from bind_ok_iff.2 hfirst).symm.trans hdecode)
  have hhead : ∃ tail, acceptedOf I digest (first :: rest) = r :: tail := by
    rw [predecessorVotes_of_perm hsha hwire hpermobs] at hpc
    unfold acceptedOf acceptedRetirements
    rw [hpc]
    dsimp only
    rw [(ofObservations_eq I.config I.libs (first :: rest)).2.2.2.1,attestedOf,if_neg (by simp [hdigest]),map_cons,
      filter_cons_of_pos (by rw [heq]; exact decide_eq_true hne),eraseDups_cons,
      filterMap_cons_some (by rw [heq]; exact hacc)]
    exact ⟨_,rfl⟩
  have hsome : (chooseRetirement (acceptedOf I digest (first :: rest))).isSome := by
    have hmem := @acceptedRetirements_mem_iff I.config _ _ _ hsha hwire hpermobs I.verify digest
    rw [chooseRetirement_isSome_iff] at hchosen ⊢
    refine ⟨ne_nil_of_mem ((hmem r).1 hr),fun a ha b hb => ?_⟩
    exact hchosen.2 a ((hmem a).2 ha) b ((hmem b).2 hb)
  obtain ⟨tail,htail⟩ := hhead
  rw [htail,chooseRetirement] at hsome ⊢
  split_ifs at hsome ⊢
  · rfl
  · simp at hsome

end Round

/-- The promotion by the report `r` rests on votes and signatures of this round, and on
neither the order of its observations nor an earlier round. -/
structure AuthenticPromotion (R : RetirementLibs) (I : Instance M) (fetcher : BlobFetcher) (seqNr : ℕ)
    (prev next : KVState M) (aos : List AttributedObservation) (obs : List Attributed) (digest : ConfigDigest)
    (r : RetirementReport) (pc : PredecessorConfig) : Prop where
  agreed : I.config.f < votesForPredecessor obs pc
  attested : ∃ ao ∈ obs, ∃ arr, R.Attests digest pc ao.2.attestedPredecessorRetirement r arr
  /-- Valid and compatible reports of the round that disagree would have stopped it. -/
  consistent : ∀ ao ∈ obs, ∀ ao' ∈ obs, ao.2.attestedPredecessorRetirement ≠ [] →
    ao'.2.attestedPredecessorRetirement ≠ [] → ∀ s s',
    acceptRetirement I.config I.verify digest pc ao.2.attestedPredecessorRetirement = some s →
    acceptRetirement I.config I.verify digest pc ao'.2.attestedPredecessorRetirement = some s' →
    retirementAgrees s s' = true
  leaderIndependent : ∀ aos', aos.Perm aos' → ∃ obs', decodeObservations I fetcher seqNr aos' = .ok obs' ∧
    (decideRound I prev (.ofObservations I.config I.libs obs')).stage = next.lifeCycleStage ∧
    (decideRound I prev (.ofObservations I.config I.libs obs')).validAfter = next.validAfterNanoseconds
  /-- Whatever the earlier rounds left behind, the staging instance resolves to `r`. -/
  thisRound : ∀ prev' : KVState M, prev'.lifeCycleStage = .staging →
    resolvePredecessorRetirement I.config I.verify prev'.lifeCycleStage (.ofObservations I.config I.libs obs) = some r ∧
    (decideRound I prev' (.ofObservations I.config I.libs obs)).stage = next.lifeCycleStage

variable {I : Instance M}
lemma AuthenticPromotion.transition_eq {R : RetirementLibs} {node : Node}
    {next : KVState M} {digest : ConfigDigest}
    (hseq : 1 < seqNr)
    (h : AuthenticPromotion R I node.fetcher seqNr prev next aos obs digest r pc) {aos' : List AttributedObservation}
    (hperm : aos.Perm aos') {next' : KVState M} {out' : Precursor}
    (h' : stateTransition I node seqNr prev aos' = .ok (next',out')) :
    next'.lifeCycleStage = next.lifeCycleStage ∧ next'.validAfterNanoseconds = next.validAfterNanoseconds := by
  obtain ⟨obs',hobs',hstage,hva⟩ := h.leaderIndependent aos' hperm
  obtain ⟨obs₁,hobs₁,hround⟩ := stateTransition_inv hseq h'
  cases Except.ok.inj (hobs'.symm.trans hobs₁)
  have hlater := (laterRound_inv hround).1
  rw [hlater.next_stage,hlater.stage,hlater.next_validAfter,hlater.validAfter]
  exact ⟨hstage,hva⟩

lemma exists_chosen_of_promoted (hstaging : prev.lifeCycleStage = .staging)
    (hpromoted : (decideRound I prev (.ofObservations I.config I.libs obs)).stage = .production) :
    ∃ digest r, I.config.predecessorConfigDigest = some digest ∧
      chooseRetirement (acceptedOf I digest obs) = some r := by
  have hsome : (resolvePredecessorRetirement I.config I.verify prev.lifeCycleStage
      (.ofObservations I.config I.libs obs)).isSome := by
    by_contra hnone
    simp only [decideRound,nextStage,promotedStage,hnone,and_false,if_false] at hpromoted
    simp [hstaging] at hpromoted
  cases hdigest : I.config.predecessorConfigDigest with
  | none => simp [resolvePredecessorRetirement,hdigest] at hsome
  | some digest =>
    rw [resolvePredecessorRetirement_eq hdigest hstaging] at hsome
    exact ⟨digest,_,rfl,(Option.some_get hsome).symm⟩

/-- A promotion is authentic and independent of the leader, unless reports with and without
a map are accepted together and the watermarks carried over are not the initial ones. -/
theorem authenticPromotion_iff {R : RetirementLibs} {I : Instance M} {node : Node} {seqNr : ℕ}
    {prev next : KVState M} {aos : List AttributedObservation} {out : Precursor} {obs : List Attributed}
    (hverify : I.verify = R.verifyAttestedRetirementReport) (hsha : Injective I.libs.sha256)
    (hseq : 1 < seqNr) (h : stateTransition I node seqNr prev aos = .ok (next,out))
    (hobs : decodeObservations I node.fetcher seqNr aos = .ok obs) (hstaging : prev.lifeCycleStage = .staging)
    (hpromoted : next.lifeCycleStage = .production) :
    ∃ digest, I.config.predecessorConfigDigest = some digest ∧
      ((∃ r pc, AuthenticPromotion R I node.fetcher seqNr prev next aos obs digest r pc) ↔
        (MixesMaps (acceptedOf I digest obs) → CarriesInitial I.libs prev next.observationTimestampNs)) := by
  have hwire := predecessorOnWire_of_decodeObservations hobs
  obtain ⟨obs₁,hobs₁,hround⟩ := stateTransition_inv hseq h
  cases Except.ok.inj (hobs.symm.trans hobs₁)
  have hlater := (laterRound_inv hround).1
  have hstage : (decideRound I prev (.ofObservations I.config I.libs obs)).stage = next.lifeCycleStage := by
    rw [hlater.next_stage,hlater.stage]
  have hobsTs : (decideRound I prev (.ofObservations I.config I.libs obs)).obsTs = next.observationTimestampNs := by
    rw [hlater.next_obsTs,hlater.obsTs]
  have hva : (decideRound I prev (.ofObservations I.config I.libs obs)).validAfter = next.validAfterNanoseconds := by
    rw [hlater.next_validAfter,hlater.validAfter]
  obtain ⟨digest,r,hdigest,hchosen⟩ := exists_chosen_of_promoted hstaging (hstage.trans hpromoted)
  obtain ⟨hr,hagree⟩ := chosen_mem hchosen
  refine ⟨digest,hdigest,?_,?_⟩
  · rintro ⟨r',pc,hauthentic⟩ ⟨⟨a,ha,hnone⟩,b,hb,hsome⟩
    -- an order that chooses the report without a map, and one that chooses the other
    have hwatermarks : ∀ s ∈ acceptedOf I digest obs,
        nextValidAfter I.libs prev s.validAfterNanoseconds next.observationTimestampNs = next.validAfterNanoseconds := by
      intro s hs
      obtain ⟨aos',obs',hperm,hpermobs,hobs',hchosen'⟩ :=
        exists_perm_choosing hsha hdigest hobs (by rw [hchosen]; rfl) hs
      obtain ⟨obs₂,hobs₂,_,hva'⟩ := hauthentic.leaderIndependent aos' hperm
      cases Except.ok.inj (hobs'.symm.trans hobs₂)
      rw [← hva',validAfter_eq_of_chosen hdigest hstaging hchosen',← hobsTs,obsTs_of_perm hpermobs]
    have hentries := (Prod.mk.inj (retirementAgrees_iff.1 (hagree a ha b hb))).2
    rw [hnone] at hentries
    obtain ⟨m,hm⟩ := Option.ne_none_iff_exists'.1 hsome
    rw [hm] at hentries
    have hempty : ∅ = m := hentries
    rw [← nextValidAfter_none_eq_iff,hempty,← hnone,← hm,hwatermarks a ha,hwatermarks b hb]
  · intro hmix
    obtain ⟨pc,hpc,ao,hao,hne,hacc⟩ := exists_observation_of_accepted hr
    refine ⟨r,pc,votes_of_elected hsha hwire hpc,?_,?_,?_,?_⟩
    · rw [hverify] at hacc
      obtain ⟨arr,harr⟩ := RetirementLibs.attests_of_verify (verify_of_acceptRetirement hacc)
      exact ⟨ao,hao,arr,harr⟩
    · intro ao₁ h₁ ao₂ h₂ hne₁ hne₂ s s' hs hs'
      exact hagree s (accepted_mem_of_observation hdigest hpc h₁ hne₁ hs) s'
        (accepted_mem_of_observation hdigest hpc h₂ hne₂ hs')
    · intro aos' hperm
      obtain ⟨obs',hobs',hpermobs⟩ := mapM_perm hperm hobs
      have hstage' : (decideRound I prev (.ofObservations I.config I.libs obs')).stage = next.lifeCycleStage :=
        (nextStage_of_perm hsha hwire hpermobs I.verify prev.lifeCycleStage).symm.trans hstage
      obtain ⟨digest',r',hdigest',hchosen'⟩ := exists_chosen_of_promoted hstaging (hstage'.trans hpromoted)
      cases Option.some.inj (hdigest.symm.trans hdigest')
      have hr' := (acceptedRetirements_mem_iff hsha hwire hpermobs I.verify digest r').2 (chosen_mem hchosen').1
      refine ⟨obs',hobs',hstage',?_⟩
      rw [validAfter_eq_of_chosen hdigest hstaging hchosen',← obsTs_of_perm hpermobs,hobsTs,← hva,
        validAfter_eq_of_chosen hdigest hstaging hchosen,hobsTs]
      exact nextValidAfter_congr hmix hr' hr (hagree r' hr' r hr)
    · intro prev' hstaging'
      have hresolved : ∀ stage, stage = .staging → resolvePredecessorRetirement I.config I.verify stage
          (.ofObservations I.config I.libs obs) = some r := by
        rintro stage rfl
        exact (resolvePredecessorRetirement_eq hdigest rfl).trans hchosen
      refine ⟨hresolved _ hstaging',?_⟩
      rw [← hstage]
      simp only [decideRound,hstaging,hstaging']

/-- The JSON of a retirement report with the text of its map. -/
def retirementText (validAfter : Bytes) : Bytes :=
  (JSONText.object [("ProtocolVersion",.number 2),("ValidAfterNanoseconds",⟨validAfter,[]⟩)]).bytes

/-- A report of sequence number 7 with one signature, of oracle 0. -/
def attest (report : Bytes) : AttestedRetirementReport := ⟨report,7,[⟨1 :: report,0⟩]⟩

/-- The protobuf message of `attest`. -/
@[irreducible] def attestBytes (report : Bytes) : Bytes :=
  protoBytes 1 report ++ protoVarint 2 7 ++ protoBytes 3 (protoBytes 1 (1 :: report))

def nullReport : Bytes := retirementText (ascii "null")

def emptyReport : Bytes := retirementText (JSONText.object []).bytes

/-- The libraries on the two reports. The signature of a report is the key with the report. -/
def nullAndEmpty : RetirementLibs where
  unmarshalAttested := fromTable ([nullReport,emptyReport].map fun r => (attestBytes r,attest r))
  verify key _ _ report signature := signature = key ++ report
  unmarshalReport := fromTable [(nullReport,⟨2,none⟩),(emptyReport,⟨2,some ∅⟩)]

def attesting (report : Bytes) : ObservationProto :=
  { attestingMessage with attestedPredecessorRetirement := attestBytes report }

def attestedInstance : Instance Unit :=
  { handoverInstance none with
    wire := wireOf (stagingMessages.map Prod.snd ++ [attesting nullReport,attesting emptyReport]) [priceBlob 4]
      [(fiveBytes,⟨5,0⟩)]
    verify := nullAndEmpty.verifyAttestedRetirementReport }

def attestedBy (observer : ℕ) (report : Bytes) : AttributedObservation :=
  ⟨observer,frameObservation [[4]] (marshalObservation (attesting report))⟩

def attestedObservations (last : List AttributedObservation) : ℕ → List AttributedObservation
  | 4 => last
  | n => sentFrom stagingMessages n

def nodeOfAttested : Node := nodeWithAllCodecs ⟨.rejecting,fromTable [],digest⟩ priceFetcher

def nullFirst : List AttributedObservation :=
  [attestedBy 0 nullReport,attestedBy 1 emptyReport,attestedBy 2 emptyReport]

def emptyFirst : List AttributedObservation :=
  [attestedBy 1 emptyReport,attestedBy 0 nullReport,attestedBy 2 emptyReport]

/-- The report without a map is the first one. -/
def nullFirstRun : Run attestedInstance :=
  .ofExecution _ nodeOfAttested (attestedObservations nullFirst) 4 (by decide +kernel)

def emptyFirstRun : Run attestedInstance :=
  .ofExecution _ nodeOfAttested (attestedObservations emptyFirst) 4 (by decide +kernel)

def emptyOnlyRun : Run attestedInstance :=
  .ofExecution _ nodeOfAttested (attestedObservations (([0,1,2]).map (attestedBy · emptyReport))) 4
    (by decide +kernel)

theorem authenticPromotion_emptyOnlyRun :
    ∃ obs, decodeObservations attestedInstance nodeOfAttested.fetcher 4 (emptyOnlyRun.input 4).2 = .ok obs ∧
      (emptyOnlyRun.state 3).lifeCycleStage = .staging ∧ (emptyOnlyRun.state 4).lifeCycleStage = .production ∧
      ∃ r pc, AuthenticPromotion nullAndEmpty attestedInstance nodeOfAttested.fetcher 4 (emptyOnlyRun.state 3)
        (emptyOnlyRun.state 4) (emptyOnlyRun.input 4).2 obs 1 r pc := by
  obtain ⟨obs,hobs,_⟩ := emptyOnlyRun.later_decoded (n := 3) (by decide) (by decide)
  have hstaging : (emptyOnlyRun.state 3).lifeCycleStage = .staging := by decide +kernel
  have hpromoted : (emptyOnlyRun.state 4).lifeCycleStage = .production := by decide +kernel
  obtain ⟨digest,hdigest,hiff⟩ := authenticPromotion_iff (R := nullAndEmpty) rfl digest_injective (by decide +kernel)
    (emptyOnlyRun.step_ok 3 (by decide)) hobs hstaging hpromoted
  cases hdigest
  refine ⟨obs,hobs,hstaging,hpromoted,hiff.2 fun hmix => ?_⟩
  obtain ⟨⟨r,hr,hnone⟩,_⟩ := hmix
  have hmaps : (decodeObservations attestedInstance nodeOfAttested.fetcher 4 (emptyOnlyRun.input 4).2).toOption.map
      (fun o => (acceptedOf attestedInstance 1 o).map RetirementReport.validAfterNanoseconds) = some [some ∅] := by
    decide +kernel
  rw [show decodeObservations attestedInstance nodeOfAttested.fetcher 4 (emptyOnlyRun.input 4).2 = .ok obs from hobs] at hmaps
  have hall : (acceptedOf attestedInstance 1 obs).map RetirementReport.validAfterNanoseconds = [some ∅] :=
    Option.some.inj hmaps
  have hmem := mem_map_of_mem (f := RetirementReport.validAfterNanoseconds) hr
  rw [hall,hnone] at hmem
  simp at hmem

/-- The two orders of the same observations promote with different watermarks for channel 1:
20 s, the one of the staging rounds, and 30 s, the timestamp of the round. -/
theorem watermarks_depend_on_order :
    (nullFirstRun.input 4).2.Perm (emptyFirstRun.input 4).2 ∧
      (nullFirstRun.state 3).lifeCycleStage = .staging ∧ (nullFirstRun.state 4).lifeCycleStage = .production ∧
      (nullFirstRun.state 4).validAfterNanoseconds.get? 1 = some (20 * 10 ^ 9) ∧
      (emptyFirstRun.state 4).validAfterNanoseconds.get? 1 = some (30 * 10 ^ 9) ∧
      ∀ obs r pc, ¬ AuthenticPromotion nullAndEmpty attestedInstance nodeOfAttested.fetcher 4 (nullFirstRun.state 3)
        (nullFirstRun.state 4) (nullFirstRun.input 4).2 obs 1 r pc := by
  have hperm : (nullFirstRun.input 4).2.Perm (emptyFirstRun.input 4).2 := List.Perm.swap _ _ _
  have hnull : (nullFirstRun.state 4).validAfterNanoseconds.get? 1 = some (20 * 10 ^ 9) := by decide +kernel
  have hempty : (emptyFirstRun.state 4).validAfterNanoseconds.get? 1 = some (30 * 10 ^ 9) := by decide +kernel
  refine ⟨hperm,by decide +kernel,by decide +kernel,hnull,hempty,fun obs r pc h => ?_⟩
  have hstep := emptyFirstRun.step_ok 3 (by decide)
  rw [show emptyFirstRun.state 3 = nullFirstRun.state 3 from rfl] at hstep
  have heq := (h.transition_eq (by decide +kernel) hperm hstep).2
  have hsame := (congrArg (SortedMap.get? · 1) heq).symm.trans hempty
  exact absurd (hnull.symm.trans hsame) (by decide)

end DataStreams.V31
