import DataStreams.Foundation.Trace
import DataStreams.V31.StateTransition

/-! Runs of an instance from the empty store, and what a round after the first did (v31). -/
namespace DataStreams.V31
open Option SortedMap
variable {M : Type}
def Step (I : Instance M) (seqNr : ℕ) (input : Node × List AttributedObservation)
    (prev next : KVState M) (out : Precursor) : Prop :=
  stateTransition I input.1 seqNr prev input.2 = .ok (next,out)

abbrev Run (I : Instance M) := Trace (Step I) (KVState.fresh I.engine.initial)

structure LaterRound (I : Instance M) (prev next : KVState M) (out : Precursor)
    (t : ObservationTally) : Prop where
  stage : out.lifeCycleStage = (decideRound I prev t).stage
  obsTs : out.observationTimestampNanoseconds = (decideRound I prev t).obsTs
  definitions : out.channelDefinitions = prev.channelDefinitions
  validAfter : out.validAfterNanoseconds = (decideRound I prev t).validAfter
  next_stage : next.lifeCycleStage = out.lifeCycleStage
  next_obsTs : next.observationTimestampNs = out.observationTimestampNanoseconds
  next_validAfter : next.validAfterNanoseconds = out.validAfterNanoseconds
  next_reported : next.reportedLastRound = out.reportableChannelIDs
  /-- Reportability is decided by the predicate, on the aggregates of the round. -/
  reportable : ∃ aggregates support, ∀ id, id ∈ out.reportableChannelIDs ↔
    (out.channelDefinitions.get? id).isSome ∧ { out with streamAggregates := aggregates }.isReportable I.libs
        I.config.defaultMinReportIntervalNanoseconds I.config.f support prev.opts id = true

variable {I : Instance M} {prev next : KVState M} {out : Precursor}
lemma laterRound_inv {seqNr : ℕ} {factsOf : FactsOf} {obs : List Attributed}
    (h : laterRound I factsOf seqNr prev obs = .ok (next,out)) :
    LaterRound I prev next out (.ofObservations I.config I.libs obs) ∧
      nextDefinitions factsOf prev.channelDefinitions (.ofObservations I.config I.libs obs) I.config.f
        out.lifeCycleStage = .ok next.channelDefinitions := by
  simp only [laterRound,Go.bind_ok_iff] at h
  obtain ⟨pending,hpending,⟨aggregates,memory⟩,_,_,_,h⟩ := h
  simp only [Except.ok.injEq,Prod.mk.injEq] at h
  obtain ⟨rfl,rfl⟩ := h
  set d := decideRound I prev (.ofObservations I.config I.libs obs)
  refine ⟨⟨rfl,rfl,rfl,rfl,rfl,rfl,rfl,rfl,aggregates,supportVotes d.codecSupport prev.channelDefinitions,?_⟩,hpending⟩
  intro id
  exact Precursor.mem_reportableChannels

lemma stateTransition_inv {seqNr : ℕ} {node : Node} {aos : List AttributedObservation} (hs : 1 < seqNr)
    (h : stateTransition I node seqNr prev aos = .ok (next,out)) :
    ∃ obs, decodeObservations I node.fetcher seqNr aos = .ok obs ∧
      laterRound I node.factsOf seqNr prev obs = .ok (next,out) := by
  unfold stateTransition at h
  split_ifs at h with hq h1
  · exact absurd h (Go.err_ne_ok _ _)
  · omega
  · exact Go.bind_ok_iff.1 h

lemma le_agreedObservationTimestamp (timestamps : List ℕ) (prev : ℕ) :
    prev ≤ agreedObservationTimestamp timestamps prev := by
  unfold agreedObservationTimestamp
  split_ifs with h
  · exact le_rfl
  · omega

lemma nextStage_of_production {report : Option RetirementReport} {votes f : ℕ} :
    nextStage .production report votes f = .production ∨ nextStage .production report votes f = .retired := by
  unfold nextStage promotedStage
  split_ifs <;> simp_all

lemma nextStage_retired (report : Option RetirementReport) (votes f : ℕ) :
    nextStage .retired report votes f = .retired := by
  simp [nextStage,promotedStage]

lemma promotedValidAfter_eq_none {report : Option RetirementReport} {votes f : ℕ} {stage : LifeCycleStage}
    (h : stage = .staging → nextStage stage report votes f = .staging) :
    promotedValidAfter stage report = none := by
  unfold promotedValidAfter
  split_ifs with hs
  · cases report with
    | none => rfl
    | some r =>
      have := h hs
      simp only [nextStage,promotedStage,hs,isSome_some,and_self,if_true,true_and] at this
      split_ifs at this
  · rfl

lemma get?_nextValidAfter (L : Libs) (prev : KVState M) (promoted : Option (SortedMap ChannelID ℕ))
    (obsTs : ℕ) (id : ChannelID) :
    (nextValidAfter L prev promoted obsTs).get? id = ((carriedValidAfter L prev promoted obsTs).get? id).or
        ((prev.channelDefinitions.get? id).map (fun cd => initialValidAfter cd obsTs)) := by
  simp [nextValidAfter,get?_overlay]

/-- The next watermark of a channel that is not a backfill: the last observation timestamp if it
reported, else its own, and the round's timestamp if it has none. -/
def advanceValidAfter (prev : KVState M) (id : ChannelID) (obsTs : ℕ) : ℕ :=
  match prev.validAfterNanoseconds.get? id with
  | none => obsTs
  | some w => if prevReportable prev id then prev.observationTimestampNs else w

lemma le_advanceValidAfter {id : ChannelID} {obsTs b : ℕ} (hprev : b ≤ prev.observationTimestampNs)
    (hobs : b ≤ obsTs)
    (hw : prevReportable prev id = true ∨ ∀ w, prev.validAfterNanoseconds.get? id = some w → b ≤ w) :
    b ≤ advanceValidAfter prev id obsTs := by
  unfold advanceValidAfter
  cases hva : prev.validAfterNanoseconds.get? id with
  | none => exact hobs
  | some w =>
    dsimp only
    split_ifs with hr
    · exact hprev
    · exact (hw.resolve_left hr) w hva

lemma get?_nextValidAfter_of_mem {id : ChannelID} {L : Libs} {cd : ChannelDefinition}
    (hcd : prev.channelDefinitions.get? id = some cd) (hb : cd.isBackfill = false) (obsTs : ℕ) :
    (nextValidAfter L prev none obsTs).get? id = some (advanceValidAfter prev id obsTs) := by
  rw [get?_nextValidAfter,advanceValidAfter]
  simp only [carriedValidAfter,get?_filterMap,hcd,map_some,initialValidAfter,hb]
  cases prev.validAfterNanoseconds.get? id with
  | none => simp
  | some w =>
    simp only [bind_some,carryValidAfter,hcd,hb]
    split_ifs <;> simp_all

lemma get?_nextValidAfter_of_notMem {id : ChannelID} {L : Libs} (hcd : prev.channelDefinitions.get? id = none)
    (obsTs : ℕ) :
    (nextValidAfter L prev none obsTs).get? id = none := by
  rw [get?_nextValidAfter]
  simp only [carriedValidAfter,get?_filterMap,hcd,map_none,or_none]
  cases prev.validAfterNanoseconds.get? id with
  | none => rfl
  | some w => simp [carryValidAfter,hcd]

namespace LaterRound

lemma obsTs_le {t : ObservationTally} (h : LaterRound I prev next out t) :
    prev.observationTimestampNs ≤ next.observationTimestampNs := by
  rw [h.next_obsTs,h.obsTs]
  exact le_agreedObservationTimestamp _ _

lemma stage_of_production {t : ObservationTally} (h : LaterRound I prev next out t)
    (hp : prev.lifeCycleStage = .production) :
    next.lifeCycleStage = .production ∨ next.lifeCycleStage = .retired := by
  rw [h.next_stage,h.stage]
  simp only [decideRound,hp]
  exact nextStage_of_production

lemma stage_of_retired {t : ObservationTally} (h : LaterRound I prev next out t)
    (hp : prev.lifeCycleStage = .retired) : next.lifeCycleStage = .retired := by
  rw [h.next_stage,h.stage]
  simp only [decideRound,hp]
  exact nextStage_retired _ _ _

lemma validAfter_eq {t : ObservationTally} (h : LaterRound I prev next out t)
    (hp : prev.lifeCycleStage = .staging → next.lifeCycleStage = .staging) :
    next.validAfterNanoseconds = nextValidAfter I.libs prev none next.observationTimestampNs := by
  have hnone : promotedValidAfter prev.lifeCycleStage
      (resolvePredecessorRetirement I.config I.verify prev.lifeCycleStage t) = none := by
    rw [h.next_stage,h.stage] at hp
    exact promotedValidAfter_eq_none hp
  rw [h.next_validAfter,h.validAfter,h.next_obsTs,h.obsTs]
  simp only [decideRound,hnone]

lemma interval {id : ChannelID} {t : ObservationTally} (h : LaterRound I prev next out t)
    (hid : id ∈ out.reportableChannelIDs)
    (hb : ∀ cd, out.channelDefinitions.get? id = some cd → cd.isBackfill = false) :
    ∃ va, next.validAfterNanoseconds.get? id = some va ∧ va < next.observationTimestampNs := by
  obtain ⟨aggregates,support,hrep⟩ := h.reportable
  obtain ⟨hsome,hrep⟩ := (hrep id).1 hid
  obtain ⟨cd,hcd⟩ := isSome_iff_exists.1 hsome
  obtain ⟨va,hva,hlt⟩ := Precursor.isReportable_interval hrep hcd (hb cd hcd)
  exact ⟨va,by rw [h.next_validAfter]; exact hva,by rw [h.next_obsTs]; exact hlt⟩

lemma not_retired {id : ChannelID} {t : ObservationTally} (h : LaterRound I prev next out t)
    (hid : id ∈ out.reportableChannelIDs) : out.lifeCycleStage ≠ .retired := by
  obtain ⟨aggregates,support,hrep⟩ := h.reportable
  intro hr
  have htrue := ((hrep id).1 hid).2
  exact Bool.false_ne_true ((@Precursor.isReportable_retired { out with streamAggregates := aggregates } _ _ _ _ _ _ hr).symm.trans
    htrue)

end LaterRound

namespace Run
variable (run : Run I) {n m : ℕ}
def Decoded (n : ℕ) (obs : List Attributed) : Prop :=
  decodeObservations I (run.input (n + 1)).1.fetcher (n + 1) (run.input (n + 1)).2 = .ok obs

lemma later_decoded (hn : 1 ≤ n) (hlen : n < run.len) :
    ∃ obs, run.Decoded n obs ∧
      LaterRound I (run.state n) (run.state (n + 1)) (run.out (n + 1)) (.ofObservations I.config I.libs obs) ∧
      nextDefinitions (run.input (n + 1)).1.factsOf (run.state n).channelDefinitions
        (.ofObservations I.config I.libs obs) I.config.f (run.out (n + 1)).lifeCycleStage =
          .ok (run.state (n + 1)).channelDefinitions := by
  obtain ⟨obs,hobs,h⟩ := stateTransition_inv (by omega) (run.step_ok n hlen)
  exact ⟨obs,hobs,laterRound_inv h⟩

lemma later (hn : 1 ≤ n) (hlen : n < run.len) :
    ∃ t, LaterRound I (run.state n) (run.state (n + 1)) (run.out (n + 1)) t := by
  obtain ⟨obs,_,h,_⟩ := run.later_decoded hn hlen
  exact ⟨_,h⟩

lemma first (hlen : 0 < run.len) :
    (run.state 1).validAfterNanoseconds = ∅ ∧ (run.state 1).reportedLastRound = [] ∧
      (run.state 1).channelDefinitions = ∅ ∧ (run.state 1).observationTimestampNs = 0 ∧
      (run.state 1).lifeCycleStage = (run.out 1).lifeCycleStage ∧
      (run.out 1).reportableChannelIDs = [] ∧ (run.out 1).channelDefinitions = ∅ ∧
      (run.out 1).observationTimestampNanoseconds = 0 ∧ (run.out 1).lifeCycleStage ≠ .retired := by
  have h := run.step_ok 0 hlen
  simp only [Step,stateTransition,firstRound,Nat.zero_add,Nat.le_refl,if_true] at h
  split_ifs at h
  · exact absurd h (Go.err_ne_ok _ _)
  · exact absurd h (Go.err_ne_ok _ _)
  all_goals
    simp only [Except.ok.injEq,Prod.mk.injEq] at h
    obtain ⟨hs,ho⟩ := h
    simp [← hs,← ho]

lemma later_of_reported {id : ChannelID} (hn : 1 ≤ n) (hlen : n ≤ run.len)
    (hid : id ∈ (run.out n).reportableChannelIDs) :
    ∃ m t, n = m + 1 ∧ 1 ≤ m ∧ m < run.len ∧ LaterRound I (run.state m) (run.state n) (run.out n) t := by
  obtain ⟨m,rfl⟩ := Nat.exists_eq_add_of_le' hn
  rcases Nat.eq_zero_or_pos m with rfl | hm
  · have hnil := (run.first (by omega)).2.2.2.2.2.1
    rw [hnil] at hid
    simp at hid
  · obtain ⟨t,ht⟩ := run.later hm (by omega)
    exact ⟨m,t,rfl,hm,by omega,ht⟩

/-- What a round writes is what its precursor says. -/
lemma state_eq_out (hn : 1 ≤ n) (hlen : n ≤ run.len) :
    (run.state n).lifeCycleStage = (run.out n).lifeCycleStage ∧
      (run.state n).observationTimestampNs = (run.out n).observationTimestampNanoseconds ∧
      (run.state n).reportedLastRound = (run.out n).reportableChannelIDs := by
  obtain ⟨m,rfl⟩ := Nat.exists_eq_add_of_le' hn
  rcases Nat.eq_zero_or_pos m with rfl | hm
  · obtain ⟨_,hrep,_,hobs,hstage,horep,_,hoobs,_⟩ := run.first (by omega)
    exact ⟨hstage,by rw [hobs,hoobs],by rw [hrep,horep]⟩
  · obtain ⟨t,ht⟩ := run.later hm (by omega)
    exact ⟨ht.next_stage,ht.next_obsTs,ht.next_reported⟩

lemma obsTs_mono (hm : 1 ≤ m) (hmn : m ≤ n) (hn : n ≤ run.len) :
    (run.state m).observationTimestampNs ≤ (run.state n).observationTimestampNs := by
  refine run.mono KVState.observationTimestampNs (a := 1) ?_ m n hm hmn hn
  intro k hk hlen
  obtain ⟨t,ht⟩ := run.later hk hlen
  exact ht.obsTs_le

lemma stage_after_production (hm : 1 ≤ m) (hmn : m ≤ n) (hn : n ≤ run.len)
    (hp : (run.state m).lifeCycleStage = .production) :
    (run.state n).lifeCycleStage = .production ∨ (run.state n).lifeCycleStage = .retired := by
  refine run.invariant_from (m := m) (P := fun n => (run.state n).lifeCycleStage = .production ∨
    (run.state n).lifeCycleStage = .retired) (.inl hp) ?_ n hmn hn
  intro k hk hlen ih
  obtain ⟨t,ht⟩ := run.later (hm.trans hk) hlen
  rcases ih with ih | ih
  · exact ht.stage_of_production ih
  · exact .inr (ht.stage_of_retired ih)

lemma retired_absorbing (hm : 1 ≤ m) (hmn : m ≤ n) (hn : n ≤ run.len)
    (hr : (run.state m).lifeCycleStage = .retired) : (run.state n).lifeCycleStage = .retired := by
  refine run.invariant_from (m := m) (P := fun n => (run.state n).lifeCycleStage = .retired) hr ?_ n hmn hn
  intro k hk hlen ih
  obtain ⟨t,ht⟩ := run.later (hm.trans hk) hlen
  exact ht.stage_of_retired ih

end Run
end DataStreams.V31
