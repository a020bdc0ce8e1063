import DataStreams.V31.Backfill
import DataStreams.V31.BlobPump
import DataStreams.V31.HonestAccepted

/-! When a peer accepts the observation of an honest oracle (v31). -/
namespace DataStreams.V31
open List SortedMap
variable {M : Type} {I : Instance M}

def votedDefinitions (committed : ChannelDefinitions) (votes : ChannelVotes) :
    ChannelDefinitions :=
  (committed.filter (fun id _ => id ∉ votes.1)).overlay votes.2

/-- Votes a peer finds nothing wrong with. -/
def VotesAcceptable (J : JSON) (committed : ChannelDefinitions) (votes : ChannelVotes) :
    Prop :=
  votes.2.size = 0 ∨
    BackfillsOk J (votedDefinitions committed votes) ∧ WithinLimits (votedDefinitions committed votes)

variable {cfg : Config} {o : Oracle} {state : KVState M} {votes : ChannelVotes}
  {snapshot : Option BlobSnapshot}

/-- The checks without state fail only for values that nest other than decimals. -/
lemma checkObservation_receivedObservation {seqNr : ℕ} (hround : ∀ s ∈ snapshot, s.cycleStartSeqNr ≤ seqNr)
    (hsize : ∀ s ∈ snapshot, s.values.size ≤ maxObservationStreamValuesLength) :
    checkObservation cfg seqNr (receivedObservation cfg o state votes snapshot) = .ok () ↔
      ∀ s ∈ snapshot, ∀ e ∈ s.values.entries, nestsOnlyDecimal e.2 = true := by
  have hattested : cfg.predecessorConfigDigest.isNone →
      attestedPredecessorRetirement cfg o state.lifeCycleStage = [] := by
    intro h
    rw [attestedPredecessorRetirement,Option.isNone_iff_eq_none.1 h]
  have hsigners : attestedPredecessorRetirement cfg o state.lifeCycleStage = [] →
      (voteOnPredecessorConfig cfg o (attestedPredecessorRetirement cfg o state.lifeCycleStage)).signers = [] := by
    intro h
    rw [h,voteOnPredecessorConfig]
    split <;> rfl
  have hcycle : ¬ (receivedObservation cfg o state votes snapshot).cycleStartSeqNr > seqNr := by
    cases snapshot with
    | none => exact Nat.not_lt_zero _
    | some s => exact Nat.not_lt.2 (hround s rfl)
  have hvalues : ¬ (receivedObservation cfg o state votes snapshot).streamValues.size >
      maxObservationStreamValuesLength := by
    cases snapshot with
    | none => exact Nat.not_lt_zero _
    | some s =>
      rw [receivedObservation,Option.elim_some,SortedMap.size,entries_mapVal,length_map]
      exact Nat.not_lt.2 (hsize s rfl)
  unfold checkObservation
  rw [if_neg (fun h => h.2 (hattested h.1)),if_neg (fun h => h.2 (hsigners (hattested h.1))),
    if_neg (fun h => h.1 (hsigners h.2)),if_neg hcycle,if_neg hvalues]
  cases snapshot with
  | none => exact iff_of_true rfl fun s hs => absurd hs (Option.not_mem_none s)
  | some s =>
    simp only [receivedObservation,Option.elim_some,entries_mapVal,any_map]
    split_ifs with hany
    · simpa using hany
    · simpa using hany

lemma advocatedDefinitions_receivedObservation (committed : ChannelDefinitions) :
    advocatedDefinitions committed (receivedObservation cfg o state votes snapshot) =
      votedDefinitions committed votes := by
  have hremoved : (fun id (_ : ChannelDefinition) => !(SortedMap.setOf votes.1).contains id) =
      fun id _ => decide (id ∉ votes.1) := by
    funext id _
    rw [Bool.eq_iff_iff,Bool.not_eq_true',← Bool.not_eq_true,contains_setOf,decide_eq_true_iff]
  simp only [advocatedDefinitions,receivedObservation,observationWith,hremoved,votedDefinitions]

/-- Peers accept the votes exactly when the definitions they would get are in order. -/
lemma verifyChannelDefinitions_receivedObservation {L : Libs} {factsOf : FactsOf} {committed : ChannelDefinitions}
    (hcommitted : DefinitionsOk factsOf committed) (hvotes : VotesFit factsOf votes) :
    verifyChannelDefinitions L factsOf
        (definitionsForVerify committed (receivedObservation cfg o state votes snapshot)) = .ok () ↔
      VotesAcceptable L.json committed votes := by
  rw [verifyChannelDefinitions_ok_iff,definitionsForVerify,advocatedDefinitions_receivedObservation,VotesAcceptable]
  have hupdates : (receivedObservation cfg o state votes snapshot).updateChannelDefinitions = votes.2 := rfl
  rw [hupdates]
  split_ifs with hsize
  · have hdefs : DefinitionsOk factsOf (votedDefinitions committed votes) := by
      intro e he
      rcases mem_entries_insertMany he with he | he
      · rw [← get?_eq_some_iff,get?_filter,Option.filter_eq_some_iff] at he
        exact hcommitted e (get?_eq_some_iff.1 he.1)
      · exact hvotes.definitions e he
    simp only [hdefs,true_and,Nat.ne_of_gt hsize,false_or]
  · have hzero : votes.2.size = 0 := by omega
    have hnil : votes.2.entries = [] := length_eq_zero_iff.1 hzero
    refine iff_of_true ⟨hvotes.definitions,?_,?_,?_⟩ (.inl hzero)
    · exact fun e he => absurd (hnil ▸ he) not_mem_nil
    · rw [hzero]
      exact Nat.zero_le _
    · simp [countedStreamIDs,hnil]

/-- A snapshot that round `n + 1` may refer to: its gathering started in that round or an
earlier one, and it holds no other streams than those the definitions of that round asked for. -/
structure Run.Gathered (run : Run I) (n : ℕ) (s : BlobSnapshot) : Prop where
  started : 2 ≤ s.cycleStartSeqNr
  round : s.cycleStartSeqNr ≤ n + 1
  requested : ∀ sid ∈ s.values.keys,
    sid ∈ observableStreams (run.state (s.cycleStartSeqNr - 1)).channelDefinitions

/-- Whatever a pump hands out, in any interleaving with the rounds, is such a snapshot. -/
theorem BlobPump.Reachable.gathered {run : Run I} {P : PumpParams} {p : BlobPump} {n : ℕ} {s : BlobSnapshot}
    (h : BlobPump.Reachable run P p) (hs : s ∈ p.take (n + 1)) : run.Gathered n s := by
  obtain ⟨parked,hparked,rfl⟩ := Option.map_eq_some_iff.1 hs
  obtain ⟨hlatest,husable⟩ := Option.filter_eq_some_iff.1 hparked
  obtain ⟨k,hk,hcycle,hvalues⟩ := h.published.latest parked hlatest
  have hage := ((Bool.and_eq_true _ _).mp husable).2
  rw [BlobPump.isWithinRoundAgeAtSeqNr,Bool.and_eq_true,decide_eq_true_iff] at hage
  refine ⟨by omega,hage.1,fun sid hsid => ?_⟩
  rw [hcycle,Nat.add_sub_cancel]
  exact hvalues hsid

lemma observableStreams_subset (defs : ChannelDefinitions) : observableStreams defs ⊆ liveStreamIDs defs := by
  intro sid hsid
  obtain ⟨e,he,hsid⟩ := mem_flatMap.1 (mem_dedup.1 hsid)
  refine mem_flatMap.2 ⟨e,he,?_⟩
  split_ifs at hsid with hskip
  · exact absurd hsid not_mem_nil
  · obtain ⟨s,hs,rfl⟩ := mem_map.1 hsid
    rw [ChannelDefinition.liveStreamIDs,if_neg fun h => hskip (.inl h)]
    exact mem_map_of_mem (mem_of_mem_filter hs)

lemma Run.Gathered.size_le {run : Run I} {n : ℕ} {s : BlobSnapshot} (h : run.Gathered n s) (hlen : n ≤ run.len) :
    s.values.size ≤ maxObservationStreamValuesLength := by
  have hstarted := h.started
  have hround := h.round
  have hbudget := run.withinBudget (n := s.cycleStartSeqNr - 1) (by omega) (by omega)
  have hkeys : s.values.keys ⊆ liveStreamIDs (run.state (s.cycleStartSeqNr - 1)).channelDefinitions :=
    fun sid hsid => observableStreams_subset _ (h.requested sid hsid)
  have hle := (length_dedup_le_of_subset hkeys).trans hbudget.streamIDs
  rwa [s.values.keys_nodup.dedup,SortedMap.keys,length_map] at hle

/-- A peer of the same build and state accepts the observation of an honest oracle exactly
when its values nest only decimals and its votes are acceptable. -/
theorem Run.Validated.observation_accepted_iff {run : Run I} {codecs : ReportCodecs} (hv : run.Validated codecs)
    {n : ℕ} (hn : 1 ≤ n) (hlen : n ≤ run.len) {o : Oracle} {cache cache' : ChannelAnalysisCache}
    (hcache : cache.Reachable I.libs.json codecs) (hcache' : cache'.Reachable I.libs.json codecs)
    {votes : ChannelVotes} {raw : Bytes} {fetcher : BlobFetcher}
    (hvotes : channelVotes I.libs (channelFactsFor I.libs.json codecs cache) o (run.state n) = .ok votes)
    (hraw : observation I.config I.libs (channelFactsFor I.libs.json codecs cache) o (run.state n) (n + 1) = .ok raw)
    (hgathered : ∀ s ∈ roundSnapshot o (run.state n) (n + 1), run.Gathered n s)
    (hdelivered : Delivered I.wire fetcher
      (observationToProto (observationWith I.config o (run.state n) votes) (supportedReportFormats o))
      (roundSnapshot o (run.state n) (n + 1))) :
    validateObservation I.config I.libs I.wire fetcher (channelFactsFor I.libs.json codecs cache')
        (run.state n).channelDefinitions (n + 1) raw = .ok () ↔
      (∀ s ∈ roundSnapshot o (run.state n) (n + 1), ∀ e ∈ s.values.entries, nestsOnlyDecimal e.2 = true) ∧
        VotesAcceptable I.libs.json (run.state n).channelDefinitions votes := by
  rw [hcache.channelFactsFor_eq] at hvotes hraw
  have hfit := votesFit_channelVotes hvotes
  -- The bytes are the encoding of the observation with these votes.
  rw [observation,if_neg (by omega),if_neg (by omega),hvotes,Go.ok_bind] at hraw
  split_ifs at hraw with hclock
  · exact absurd hraw (Go.err_ne_ok _ _)
  cases Except.ok.inj hraw
  rw [hcache'.channelFactsFor_eq,validateObservation,if_neg (by omega),if_neg (by omega)]
  simp only [fetchBlobsDecodeAndValidateObservation,
    fetchBlobsAndDecodeObservation_encodeObservation hfit hdelivered,Go.ok_bind,Go.bind_ok_iff,Go.ofExcept_eq_ok,
    Except.ok.injEq]
  have hcheck := @checkObservation_receivedObservation _ I.config o (run.state n) votes _ _
    (fun s hs => (hgathered s hs).round) (fun s hs => (hgathered s hs).size_le hlen)
  have hverify := @verifyChannelDefinitions_receivedObservation _ I.config o (run.state n) _
    (roundSnapshot o (run.state n) (n + 1)) I.libs _ _ (hv.definitionsOk hn hlen) hfit
  rw [← hcheck,← hverify]
  constructor
  · rintro ⟨_,⟨_,hc,rfl⟩,hver⟩
    exact ⟨hc,hver⟩
  · rintro ⟨hc,hver⟩
    exact ⟨_,⟨(),hc,rfl⟩,hver⟩

def voteMessage (ts : ℕ) (removals : List ChannelID) (updates : ChannelDefinitions) : ObservationProto :=
  { timestampMessage ts [.json] with
    removeChannelIDs := removals
    updateChannelDefinitions := updates.mapVal (fun _ cd => some cd) }

def tombstonedChannel : ChannelDefinition := { jsonChannel with tombstone := true }

/-- An oracle without a predecessor and without values that wants the given channels. -/
def voter (ts : ℤ) (wanted : ChannelDefinitions) : Oracle where
  formats := [.json]
  attestedRetirementReport _ := .error "no predecessor"
  predecessorConfig _ := none
  shouldRetire := .ok false
  definitions _ := wanted
  take _ := none
  unixNano := ts

/-- What the oracles want in rounds 2 to 4: a channel and its backfill, then the channel
tombstoned, then only the backfill. -/
def wantedIn : ℕ → ChannelDefinitions
  | 2 => .ofList [(1,jsonChannel),(2,backfillChannel)]
  | 3 => .ofList [(1,tombstonedChannel),(2,backfillChannel)]
  | _ => .ofList [(2,backfillChannel)]

/-- The messages of rounds 2 to 4, and two others for round 4: both add channel 3, and the
first of them also drops the tombstone. -/
def reapMessages : List ObservationProto :=
  [voteMessage 10 [] (wantedIn 2),
    voteMessage 20 [] (.ofList [(1,tombstonedChannel)]),
    voteMessage 30 [1] ∅,
    voteMessage 30 [1] (.ofList [(3,jsonChannel)]),voteMessage 30 [] (.ofList [(3,jsonChannel)])]

def reapInstance : Instance Unit := { backfillInstance with wire := wireOf reapMessages [] [] }

def reapCodecs : ReportCodecs := codecsFor reapInstance.libs rejectingExprs (fun _ => true)

def reapFacts : FactsOf := channelFactsFor reapInstance.libs.json reapCodecs .empty

def reapRun : Run reapInstance :=
  .ofExecution reapInstance (nodeWithAllCodecs reapInstance.libs none)
    (sentFrom (reapMessages.map (Prod.mk []))) 4 (by decide +kernel)

lemma reapRun_validated : reapRun.Validated reapCodecs where
  build _ _ _ := ⟨.empty,.empty,rfl⟩
  validated n hn hlen ao hao := by
    have hall : ∀ n ∈ [1,2,3], ∀ ao ∈ (reapRun.input (n + 1)).2,
        validateObservation reapInstance.config reapInstance.libs reapInstance.wire none reapFacts
          (reapRun.state n).channelDefinitions (n + 1) ao.observation = .ok () := by decide +kernel
    have hlen : n < 4 := hlen
    exact ⟨none,.empty,.empty,hall n (by simp; omega) ao hao⟩

variable (tombstone : Bool)
def wantedWith : ChannelDefinitions :=
  if tombstone then .ofList [(1,tombstonedChannel),(2,backfillChannel),(3,jsonChannel)]
  else .ofList [(2,backfillChannel),(3,jsonChannel)]

def reapVotes : ChannelVotes :=
  (if tombstone then [] else [1],.ofList [(3,jsonChannel)])

/-- What it sends, and a peer's verdict on it. -/
def reapBytes : Bytes :=
  frameObservation [] (marshalObservation (voteMessage 30 (reapVotes tombstone).1 (reapVotes tombstone).2))

def reapVerdict : Go Unit :=
  validateObservation reapInstance.config reapInstance.libs reapInstance.wire none reapFacts
    (reapRun.state 3).channelDefinitions 4 (reapBytes tombstone)

lemma reap_channelVotes :
    channelVotes reapInstance.libs reapFacts (voter 30 (wantedWith tombstone)) (reapRun.state 3) =
      .ok (reapVotes tombstone) := by
  cases tombstone <;> decide +kernel

lemma reap_observation :
    observation reapInstance.config reapInstance.libs reapFacts (voter 30 (wantedWith tombstone)) (reapRun.state 3) 4 =
      .ok (reapBytes tombstone) := by
  cases tombstone <;> decide +kernel

lemma reap_delivered : Delivered reapInstance.wire none
    (observationToProto (observationWith reapInstance.config (voter 30 (wantedWith tombstone)) (reapRun.state 3)
      (reapVotes tombstone)) [.json]) none where
  message := by cases tombstone <;> decide +kernel
  handle := nofun
  blob := nofun

lemma reap_roundSnapshot : roundSnapshot (voter 30 (wantedWith tombstone)) (reapRun.state 3) 4 = none := by
  unfold roundSnapshot
  split_ifs <;> rfl

/-- An oracle that keeps the tombstone and adds channel 3 is accepted. -/
theorem observation_accepted_iff_reapRun :
    reapVerdict true = .ok () ∧
      VotesAcceptable reapInstance.libs.json (reapRun.state 3).channelDefinitions (reapVotes true) := by
  have hverdict : reapVerdict true = .ok () := by decide +kernel
  refine ⟨hverdict,((reapRun_validated.observation_accepted_iff (n := 3) (o := voter 30 (wantedWith true)) (by decide)
    (by decide) .empty .empty (reap_channelVotes true) (reap_observation true) ?_ ?_).1 hverdict).2⟩
  · rw [reap_roundSnapshot]
    exact nofun
  · rw [reap_roundSnapshot]
    exact reap_delivered true

/-- Once the target of a live backfill is a tombstone, an honest oracle that drops the
tombstone and adds another channel is rejected by its peers. -/
theorem reaping_with_an_update_is_rejected :
    reapRun.Validated reapCodecs ∧
      observation reapInstance.config reapInstance.libs reapFacts (voter 30 (wantedWith false)) (reapRun.state 3) 4 =
        .ok (reapBytes false) ∧
      fetchBlobsAndDecodeObservation reapInstance.wire none (reapBytes false) =
        .ok (receivedObservation reapInstance.config (voter 30 (wantedWith false)) (reapRun.state 3)
          (reapVotes false) none) ∧ reapVerdict false ≠ .ok () := by
  refine ⟨reapRun_validated,reap_observation false,?_,by decide +kernel⟩
  have hfit := votesFit_channelVotes (reap_channelVotes false)
  have hdecode := fetchBlobsAndDecodeObservation_encodeObservation hfit (reap_delivered false)
  have hbytes : encodeObservation (observationWith reapInstance.config (voter 30 (wantedWith false)) (reapRun.state 3)
      (reapVotes false)) [.json] [] = reapBytes false := by decide +kernel
  exact hbytes ▸ hdecode

end DataStreams.V31
