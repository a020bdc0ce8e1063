import DataStreams.V31.Execution
import DataStreams.V31.Reports

/-! A promotion takes over the watermarks of the predecessor's report, if that has a map (v31). -/
namespace DataStreams.V31
open Option
variable {M : Type} {I : Instance M}
def leadsClock (e obsTs : ℕ) : Bool := obsTs + maxConsensusClockLead < e

/-- An entry that leads by too much counts from the round's timestamp. -/
def boundedEntry (e obsTs : ℕ) : ℕ := if leadsClock e obsTs then obsTs else e

/-- The watermark a channel should have after a promotion: the bounded entry of the report,
and the round's timestamp if it has none. -/
def handedOver (r : RetirementReport) (c : ChannelID) (obsTs : ℕ) : ℕ :=
  ((r.validAfterNanoseconds.bind (fun m => m.get? c)).map (fun e => boundedEntry e obsTs)).getD obsTs

/-- The report has a map, and the 64-bit comparison with its entry is the exact one. A
report without a map is harmless only if the watermark carried over is the timestamp. -/
def AdoptsExactly (prev : KVState M) (r : RetirementReport) (c : ChannelID) (obsTs : ℕ) : Prop :=
  match r.validAfterNanoseconds with
  | none => advanceValidAfter prev c obsTs = obsTs
  | some m => ∀ e, m.get? c = some e → aheadOfClock e obsTs = leadsClock e obsTs ∨ e = obsTs

def promotionWatermark (prev : KVState M) (r : RetirementReport) (c : ChannelID) (obsTs : ℕ) : ℕ :=
  match r.validAfterNanoseconds with
  | none => advanceValidAfter prev c obsTs
  | some m => ((m.get? c).map (fun e => boundPromotedValidAfter e obsTs)).getD obsTs

lemma get?_nextValidAfter_promoted {L : Libs} {prev : KVState M} {r : RetirementReport} {c : ChannelID}
    {cd : ChannelDefinition} (hcd : prev.channelDefinitions.get? c = some cd) (hb : cd.isBackfill = false) (obsTs : ℕ) :
    (nextValidAfter L prev r.validAfterNanoseconds obsTs).get? c = some (promotionWatermark prev r c obsTs) := by
  rw [promotionWatermark]
  cases r.validAfterNanoseconds with
  | none => exact get?_nextValidAfter_of_mem hcd hb obsTs
  | some m =>
    have hinitial : initialValidAfter cd obsTs = obsTs := by rw [initialValidAfter,if_neg (by simp [hb])]
    rw [get?_nextValidAfter,carriedValidAfter,SortedMap.get?_mapVal,hcd,map_some,hinitial]
    dsimp only
    cases m.get? c with
    | none => rw [map_none,none_or,getD_none]
    | some e => rw [map_some,some_or,getD_some]

lemma ite_eq_ite_iff_of_bool (a b : Bool) (x y : ℕ) :
    (if a then x else y) = (if b then x else y) ↔ a = b ∨ y = x := by
  cases a <;> cases b <;> simp [eq_comm]

lemma boundPromotedValidAfter_eq_boundedEntry_iff (e obsTs : ℕ) :
    boundPromotedValidAfter e obsTs = boundedEntry e obsTs ↔ aheadOfClock e obsTs = leadsClock e obsTs ∨ e = obsTs := by
  rw [boundPromotedValidAfter,boundedEntry]
  exact ite_eq_ite_iff_of_bool _ _ _ _

lemma promotionWatermark_eq_iff (prev : KVState M) (r : RetirementReport) (c : ChannelID) (obsTs : ℕ) :
    promotionWatermark prev r c obsTs = handedOver r c obsTs ↔ AdoptsExactly prev r c obsTs := by
  rw [promotionWatermark,handedOver,AdoptsExactly]
  cases r.validAfterNanoseconds with
  | none => exact Iff.rfl
  | some m =>
    rw [bind_some]
    dsimp only
    cases m.get? c with
    | none => exact iff_of_true (by rw [map_none,map_none]) (fun _ h => absurd h nofun)
    | some e =>
      rw [map_some,map_some,getD_some,getD_some,boundPromotedValidAfter_eq_boundedEntry_iff]
      refine ⟨?_,fun h => h e rfl⟩
      rintro h _ ⟨⟩
      exact h

namespace Run
variable {run : Run I}
/-- Round `m` is the first production round from `p` on that reports the channel, which is
in effect and not a backfill in all rounds between. -/
structure FirstReport (run : Run I) (c : ChannelID) (p m : ℕ) : Prop where
  le : p ≤ m
  len : m ≤ run.len
  effective : ∀ k, p ≤ k → k ≤ m → ∃ cd, (run.out k).channelDefinitions.get? c = some cd ∧ cd.isBackfill = false
  production : (run.out m).lifeCycleStage = .production
  reported : c ∈ (run.out m).reportableChannelIDs
  first : ∀ k, p ≤ k → k < m → (run.out k).lifeCycleStage = .production → c ∉ (run.out k).reportableChannelIDs

/-- Until the first report the watermark of the promotion stays. -/
lemma FirstReport.validAfter_eq {c : ChannelID} {p m : ℕ} (h : run.FirstReport c p m) (hp : 1 ≤ p)
    (hprod : (run.state p).lifeCycleStage = .production) {w : ℕ}
    (hw : (run.state p).validAfterNanoseconds.get? c = some w) :
    (run.state m).validAfterNanoseconds.get? c = some w := by
  have hlen := h.len
  refine run.invariant_from (m := p) (P := fun k => k ≤ m → (run.state k).validAfterNanoseconds.get? c = some w)
    (fun _ => hw) ?_ m h.le hlen le_rfl
  intro k hpk hklen ih hkm
  obtain ⟨t,ht⟩ := run.later (hp.trans hpk) hklen
  have hm : (run.state m).lifeCycleStage = .production :=
    (run.state_eq_out (hp.trans h.le) hlen).1.trans h.production
  have hk : (run.state k).lifeCycleStage = .production := by
    rcases run.stage_after_production hp hpk hklen.le hprod with hk | hk
    · exact hk
    · have := run.retired_absorbing (hp.trans hpk) (by omega) hlen hk
      exact absurd (hm.symm.trans this) nofun
  obtain ⟨hstage,_,hrep⟩ := run.state_eq_out (hp.trans hpk) hklen.le
  have hquiet : prevReportable (run.state k) c = false := by
    rw [prevReportable,hrep]
    exact decide_eq_false (h.first _ hpk (by omega) (hstage.symm.trans hk))
  obtain ⟨cd,hcd,hb⟩ := h.effective (k + 1) (by omega) hkm
  rw [ht.definitions] at hcd
  rw [ht.validAfter_eq fun hs => absurd (hk.symm.trans hs) nofun,get?_nextValidAfter_of_mem hcd hb,advanceValidAfter,
    ih (by omega)]
  simp [hquiet]

def HandsOver (run : Run I) (r : RetirementReport) (c : ChannelID) (p m : ℕ) : Prop :=
  (run.out m).validAfterNanoseconds.get? c = some (handedOver r c (run.out p).observationTimestampNanoseconds) ∧
    ∀ report cd, (run.out m).channelReport I.libs m c = some (report,cd) →
      report.validAfterNanoseconds = handedOver r c (run.out p).observationTimestampNanoseconds

/-- The first production report of a channel starts where the predecessor's report hands it over
exactly when the promotion takes over the entry of the channel as it stands. -/
theorem handsOver_iff {n m : ℕ} {c : ChannelID} {obs : List Attributed} {r : RetirementReport} (hn : 1 ≤ n)
    (hobs : run.Decoded n obs) (hstaging : (run.state n).lifeCycleStage = .staging)
    (hr : resolvePredecessorRetirement I.config I.verify .staging (.ofObservations I.config I.libs obs) = some r)
    (hfirst : run.FirstReport c (n + 1) m) :
    run.HandsOver r c (n + 1) m ↔
      AdoptsExactly (run.state n) r c (run.out (n + 1)).observationTimestampNanoseconds := by
  have hle := hfirst.le
  have hlen := hfirst.len
  obtain ⟨obs',hobs',hround,_⟩ := run.later_decoded hn (by omega)
  cases Except.ok.inj (hobs.symm.trans hobs')
  obtain ⟨cd,hcd,hb⟩ := hfirst.effective (n + 1) le_rfl hle
  rw [hround.definitions] at hcd
  have hw : (run.state (n + 1)).validAfterNanoseconds.get? c =
      some (promotionWatermark (run.state n) r c (run.out (n + 1)).observationTimestampNanoseconds) := by
    rw [hround.next_validAfter,hround.validAfter,hround.obsTs]
    simp only [decideRound,hstaging,hr,promotedValidAfter,if_true,bind_some]
    exact get?_nextValidAfter_promoted hcd hb _
  -- The promoted round is in production: a retired one would never report.
  have hm := (run.state_eq_out (by omega) hlen).1.trans hfirst.production
  have hprod : (run.state (n + 1)).lifeCycleStage = .production := by
    by_contra hne
    have hretired : (run.state (n + 1)).lifeCycleStage = .retired := by
      rw [hround.next_stage,hround.stage] at hne ⊢
      simp only [decideRound,nextStage,promotedStage,hstaging,hr,isSome_some,and_self,if_true,true_and] at hne ⊢
      split_ifs at hne ⊢
      · rfl
      · exact absurd rfl hne
    cases hm.symm.trans (run.retired_absorbing (by omega) hle hlen hretired)
  have hva := hfirst.validAfter_eq (by omega) hprod hw
  obtain ⟨k,t,hmk,hk,_,hlast⟩ := run.later_of_reported (by omega) hlen hfirst.reported
  rw [hlast.next_validAfter] at hva
  rw [← promotionWatermark_eq_iff,HandsOver,hva,Option.some.injEq]
  refine and_iff_left_of_imp fun heq report cd' hreport => ?_
  obtain ⟨cd,hcd,hb⟩ := hfirst.effective m hle le_rfl
  rw [(Precursor.channelReport_interval hcd hb hreport).2.1,hva,getD_some,heq]

end Run

/-- Round 4 attests the predecessor's retirement. -/
def attestingMessage : ObservationProto :=
  { timestampMessage (30 * 10 ^ 9) [.json] with
    attestedPredecessorRetirement := [9]
    predecessorSigners := [[1]] }

/-- Round 2 adds channel 1, round 3 gives it a watermark while the instance is staging. -/
def stagingMessages : List (List Bytes × ObservationProto) :=
  [([],updateMessage (10 * 10 ^ 9) 1 jsonChannel),([],timestampMessage (20 * 10 ^ 9) [.json])]

def handoverMessages : List (List Bytes × ObservationProto) :=
  stagingMessages ++ [([],attestingMessage),([[4]],timestampMessage (40 * 10 ^ 9) [.json])]

def handoverInstance (map : Option (SortedMap ChannelID ℕ)) : Instance Unit :=
  { smallInstance ⟨.rejecting,fromTable [],digest⟩
      (wireOf (handoverMessages.map Prod.snd) [priceBlob 4] [(fiveBytes,⟨5,0⟩)]) with
    config := fourOracles (some 1)
    verify := fun _ _ attested => if attested = [9] then .ok ⟨2,map⟩ else .error "not attested" }

/-- The promotion comes in a round without a price. -/
def handoverRun : Run (handoverInstance (some (.ofList [(1,15 * 10 ^ 9)]))) :=
  .ofExecution _ (nodeWithAllCodecs ⟨.rejecting,fromTable [],digest⟩ priceFetcher) (sentFrom handoverMessages) 5
    (by decide +kernel)

/-- The predecessor never had a channel, and its report has no map. -/
def emptyHandoverRun : Run (handoverInstance none) :=
  .ofExecution _ (nodeWithAllCodecs ⟨.rejecting,fromTable [],digest⟩ priceFetcher)
    (sentFrom (stagingMessages ++ [([[4]],attestingMessage)])) 4 (by decide +kernel)

def Run.resolved (run : Run I) (n : ℕ) : Option RetirementReport :=
  (decodeObservations I (run.input (n + 1)).1.fetcher (n + 1) (run.input (n + 1)).2).toOption.bind
    (fun obs => resolvePredecessorRetirement I.config I.verify .staging (.ofObservations I.config I.libs obs))

lemma Run.exists_decoded_of_resolved {run : Run I} {n : ℕ} {r : RetirementReport} (h : run.resolved n = some r) :
    ∃ obs, run.Decoded n obs ∧
      resolvePredecessorRetirement I.config I.verify .staging (.ofObservations I.config I.libs obs) = some r := by
  obtain ⟨obs,hobs,hr⟩ := bind_eq_some_iff.1 h
  refine ⟨obs,?_,hr⟩
  cases hdec : decodeObservations I (run.input (n + 1)).1.fetcher (n + 1) (run.input (n + 1)).2 with
  | error e => simp [hdec,Except.toOption] at hobs
  | ok obs' =>
    simp only [hdec,Except.toOption,Option.some.injEq] at hobs
    rw [Run.Decoded,hdec,hobs]

lemma Run.firstReport_of_quiet {run : Run I} {c : ChannelID} {p m : ℕ} (cd : ChannelDefinition) (hle : p ≤ m)
    (hlen : m ≤ run.len) (hcd : ∀ k < m + 1, p ≤ k → (run.out k).channelDefinitions.get? c = some cd)
    (hb : cd.isBackfill = false) (hprod : (run.out m).lifeCycleStage = .production)
    (hrep : c ∈ (run.out m).reportableChannelIDs) (hquiet : ∀ k < m, p ≤ k → c ∉ (run.out k).reportableChannelIDs) :
    run.FirstReport c p m where
  le := hle
  len := hlen
  effective k hpk hkm := ⟨cd,hcd k (Nat.lt_succ_of_le hkm) hpk,hb⟩
  production := hprod
  reported := hrep
  first k hpk hkm _ := hquiet k hkm hpk

/-- Channel 1 is reported in the round after the promotion. -/
theorem handsOver_iff_handoverRun :
    ∃ obs r, handoverRun.Decoded 3 obs ∧
      resolvePredecessorRetirement (fourOracles (some 1)) (handoverInstance (some (.ofList [(1,15 * 10 ^ 9)]))).verify
        .staging (.ofObservations (fourOracles (some 1)) ⟨.rejecting,fromTable [],digest⟩ obs) = some r ∧
      (handoverRun.state 3).lifeCycleStage = .staging ∧ handoverRun.FirstReport 1 4 5 ∧
      (handoverRun.HandsOver r 1 4 5 ↔
        AdoptsExactly (handoverRun.state 3) r 1 (handoverRun.out 4).observationTimestampNanoseconds) ∧
      handedOver r 1 (handoverRun.out 4).observationTimestampNanoseconds = 15 * 10 ^ 9 := by
  obtain ⟨obs,hobs,hr⟩ := @Run.exists_decoded_of_resolved _ _ handoverRun 3
    ⟨2,some (.ofList [(1,15 * 10 ^ 9)])⟩ (by decide +kernel)
  have hstaging : (handoverRun.state 3).lifeCycleStage = .staging := by decide +kernel
  have hfirst : handoverRun.FirstReport 1 4 5 :=
    Run.firstReport_of_quiet jsonChannel (by decide) (by decide) (by decide +kernel) rfl (by decide +kernel)
      (by decide +kernel) (by decide +kernel)
  exact ⟨obs,_,hobs,hr,hstaging,hfirst,Run.handsOver_iff (by decide) hobs hstaging hr hfirst,by decide +kernel⟩

/-- The report has no entry for channel 1, yet its first production report starts at 20 s,
the watermark of the staging rounds, and not at 30 s. -/
theorem report_without_map_keeps_staging_watermark :
    ∃ obs r, emptyHandoverRun.Decoded 3 obs ∧
      resolvePredecessorRetirement (fourOracles (some 1)) (handoverInstance none).verify .staging
        (.ofObservations (fourOracles (some 1)) ⟨.rejecting,fromTable [],digest⟩ obs) = some r ∧
      (emptyHandoverRun.state 3).lifeCycleStage = .staging ∧ emptyHandoverRun.FirstReport 1 4 4 ∧
      handedOver r 1 (emptyHandoverRun.out 4).observationTimestampNanoseconds = 30 * 10 ^ 9 ∧
      (emptyHandoverRun.out 4).validAfterNanoseconds.get? 1 = some (20 * 10 ^ 9) ∧
      ¬ emptyHandoverRun.HandsOver r 1 4 4 := by
  obtain ⟨obs,hobs,hr⟩ := @Run.exists_decoded_of_resolved _ _ emptyHandoverRun 3 ⟨2,none⟩
    (by decide +kernel)
  have hfirst : emptyHandoverRun.FirstReport 1 4 4 :=
    Run.firstReport_of_quiet jsonChannel le_rfl (by decide) (by decide +kernel) rfl (by decide +kernel)
      (by decide +kernel) (by decide +kernel)
  have hexpected : handedOver ⟨2,none⟩ 1 (emptyHandoverRun.out 4).observationTimestampNanoseconds = 30 * 10 ^ 9 := by
    decide +kernel
  have hwatermark : (emptyHandoverRun.out 4).validAfterNanoseconds.get? 1 = some (20 * 10 ^ 9) := by decide +kernel
  refine ⟨obs,_,hobs,hr,by decide +kernel,hfirst,hexpected,hwatermark,fun h => ?_⟩
  have heq := h.1
  rw [hwatermark,hexpected] at heq
  exact absurd heq (by decide)

end DataStreams.V31
