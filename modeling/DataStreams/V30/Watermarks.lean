import DataStreams.V30.Plugin

/-! The watermark follows what was emitted exactly when two rounds agree on which channels
reported (v30). -/
namespace DataStreams.V30.Plugin
open SortedMap
variable {P : Plugin} {cache : OptsCache} {prev : Outcome} {t : ObservationTally} {c : ChannelID} {w : ℕ}

lemma get?_nextValidAfter (hp : promoted prev t = false) (hw : prev.validAfterNanoseconds.get? c = some w)
    (hc : c ∉ P.removedChannelIDs prev t) (obsTs : ℕ) :
    (P.nextValidAfter cache prev t obsTs).get? c =
      some (P.carryValidAfter (sharedOutcome prev (P.votedChannels cache prev t).definitions)
        (P.votedChannels cache prev t).opts c w) := by
  have hnone : promotedValidAfter prev t = none := by simp [promotedValidAfter,hp]
  simp only [nextValidAfter,hnone,get?_eraseMany,hc,if_false,get?_overlay,
    get?_mapVal,hw,Option.map_some,Option.some_or]

variable (voted : ChannelDefinitions)
@[simp] lemma sharedOutcome_stage : (sharedOutcome prev voted).lifeCycleStage = prev.lifeCycleStage := by
  unfold sharedOutcome
  split_ifs <;> rfl

@[simp] lemma sharedOutcome_obsTs :
    (sharedOutcome prev voted).observationTimestampNanoseconds = prev.observationTimestampNanoseconds := by
  unfold sharedOutcome
  split_ifs <;> rfl

@[simp] lemma sharedOutcome_validAfter :
    (sharedOutcome prev voted).validAfterNanoseconds = prev.validAfterNanoseconds := by
  unfold sharedOutcome
  split_ifs <;> rfl

variable (P) in
def reported (prev : Outcome) (c : ChannelID) : Prop := c ∈ prev.reportedChannels P.libs.json P.config

instance (c : ChannelID) : Decidable (P.reported prev c) := inferInstanceAs (Decidable (_ ∈ _))

variable (P) in
/-- The watermark moves to the observation timestamp of the round before if that round
reported the channel, and stays where it was if not. -/
def FollowsEmission (prev next : Outcome) (c : ChannelID) (w : ℕ) : Prop :=
  next.validAfterNanoseconds.get? c = some (if P.reported prev c then prev.observationTimestampNanoseconds else w)

variable (P) in
/-- The votes leave the channel with a definition and opts under which the previous
outcome gives the same answer as its own, or the two watermarks coincide. -/
def DecidesAlike (cache : OptsCache) (prev : Outcome) (t : ObservationTally) (c : ChannelID) (w : ℕ) : Prop :=
  let voted := P.votedChannels cache prev t
  let shared := sharedOutcome prev voted.definitions
  if (shared.channelDefinitions.get? c).any ChannelDefinition.isBackfill then
    (prev.lifeCycleStage = .production → selectBackfillCandidate P.libs.json shared c voted.opts = none) ∧
      (P.reported prev c → w = prev.observationTimestampNanoseconds)
  else (shared.isReportable P.libs.json P.config voted.opts c = true ↔ P.reported prev c) ∨
    w = prev.observationTimestampNanoseconds

/-- A round after the second that is not a promotion, and a channel that is no backfill,
has a watermark and is not removed. -/
structure Carries (P : Plugin) (cache : OptsCache) (n : ℕ) (prev : Outcome) (aos : List Bytes)
    (t : ObservationTally) (next : Outcome) (c : ChannelID) (w : ℕ) : Prop where
  round : 3 ≤ n
  votes : P.decodeObservations aos .empty = .ok t
  step : ∃ cache', P.outcome cache n prev aos = .ok (next,cache')
  not_promoted : prev.lifeCycleStage = .staging → next.lifeCycleStage = .staging
  watermark : prev.validAfterNanoseconds.get? c = some w
  not_backfill : ∀ cd, prev.channelDefinitions.get? c = some cd → cd.isBackfill = false
  not_removed : c ∉ P.removedChannelIDs prev t

namespace Carries
variable {n : ℕ} {aos : List Bytes} {next : Outcome} (h : Carries P cache n prev aos t next c w)
include h

lemma next_eq : ∃ calculated, next = P.nextOutcome cache prev t calculated := by
  obtain ⟨cache',hstep⟩ := h.step
  unfold outcome at hstep
  split_ifs at hstep with hq hn
  · exact absurd hstep (Go.err_ne_ok _ _)
  · exact absurd hn (by have := h.round; omega)
  · obtain ⟨t',ht',hstep⟩ := Go.bind_ok_iff.1 hstep
    cases Except.ok.inj (h.votes.symm.trans ht')
    split_ifs at hstep
    · exact absurd hstep (Go.err_ne_ok _ _)
    · obtain ⟨calculated,-,hstep⟩ := Go.bind_ok_iff.1 hstep
      simp only [Except.ok.injEq,Prod.mk.injEq] at hstep
      exact ⟨calculated,hstep.1.symm⟩

lemma promoted_eq_false : promoted prev t = false := by
  by_contra hp
  rw [Bool.not_eq_false] at hp
  have hstaging : prev.lifeCycleStage = .staging := by
    simp only [promoted,Bool.and_eq_true,decide_eq_true_eq] at hp
    exact hp.1
  have hnext := h.not_promoted hstaging
  obtain ⟨calculated,rfl⟩ := h.next_eq
  simp only [nextOutcome,nextStage,hp,if_true,true_and] at hnext
  split_ifs at hnext

lemma validAfter :
    next.validAfterNanoseconds.get? c =
      some (P.carryValidAfter (sharedOutcome prev (P.votedChannels cache prev t).definitions)
        (P.votedChannels cache prev t).opts c w) := by
  obtain ⟨calculated,rfl⟩ := h.next_eq
  exact get?_nextValidAfter h.promoted_eq_false h.watermark h.not_removed _

/-- A channel turned into a backfill keeps its watermark or takes that of a row, which
is strictly between its watermark and the observation timestamp. -/
lemma followsEmission_backfill
    (hb : ((sharedOutcome prev (P.votedChannels cache prev t).definitions).channelDefinitions.get? c).any
      ChannelDefinition.isBackfill = true) :
    P.FollowsEmission prev next c w ↔ P.DecidesAlike cache prev t c w := by
  simp only [FollowsEmission,DecidesAlike,h.validAfter,carryValidAfter,hb,if_true,
    sharedOutcome_stage,Option.some.injEq]
  by_cases hstage : prev.lifeCycleStage = .production
  · simp only [hstage,ne_eq,not_true_eq_false,if_false,forall_const]
    cases hs : selectBackfillCandidate P.libs.json
        (sharedOutcome prev (P.votedChannels cache prev t).definitions) c (P.votedChannels cache prev t).opts with
    | none =>
      by_cases hr : P.reported prev c <;> simp [hr]
    | some row =>
      obtain ⟨w',hw',hlo,hhi⟩ := selectBackfillCandidate_bounds hs
      rw [sharedOutcome_validAfter,h.watermark,Option.some.injEq] at hw'
      subst hw'
      rw [sharedOutcome_obsTs] at hhi
      have hne : row.tsNanos ≠ if P.reported prev c then prev.observationTimestampNanoseconds else w := by
        split_ifs <;> omega
      simp [hne]
  · by_cases hr : P.reported prev c <;> simp [hstage,hr]

lemma followsEmission_interval
    (hb : ((sharedOutcome prev (P.votedChannels cache prev t).definitions).channelDefinitions.get? c).any
      ChannelDefinition.isBackfill = false) :
    P.FollowsEmission prev next c w ↔ P.DecidesAlike cache prev t c w := by
  simp only [FollowsEmission,DecidesAlike,h.validAfter,carryValidAfter,hb,Bool.false_eq_true,if_false,
    sharedOutcome_obsTs,Option.some.injEq]
  by_cases hr : P.reported prev c
  · simp only [hr,if_true,iff_true]
    split_ifs with hr' <;> simp [hr']
  · simp only [hr,if_false,iff_false]
    split_ifs with hr'
    · simp [hr',eq_comm]
    · simp [hr']

end Carries

/-- For every vote of a round, the watermark follows emission exactly when the votes do not change
the answer of the previous outcome. The law also asks that a channel that did not report has a
watermark other than the observation timestamp. -/
theorem followsEmission_iff {n : ℕ} {aos : List Bytes} {next : Outcome}
    (h : Carries P cache n prev aos t next c w) :
    (P.FollowsEmission prev next c w ↔ P.DecidesAlike cache prev t c w) ∧
      (((next.validAfterNanoseconds.get? c = some prev.observationTimestampNanoseconds ↔ P.reported prev c) ∧
          (¬ P.reported prev c → next.validAfterNanoseconds.get? c = some w)) ↔
        P.DecidesAlike cache prev t c w ∧ (P.reported prev c ∨ w ≠ prev.observationTimestampNanoseconds)) := by
  have hiff : P.FollowsEmission prev next c w ↔ P.DecidesAlike cache prev t c w := by
    cases hb : ((sharedOutcome prev (P.votedChannels cache prev t).definitions).channelDefinitions.get? c).any
        ChannelDefinition.isBackfill with
    | true => exact h.followsEmission_backfill hb
    | false => exact h.followsEmission_interval hb
  refine ⟨hiff,?_⟩
  rw [← hiff,FollowsEmission]
  by_cases hr : P.reported prev c
  · simp [hr]
  · simp only [hr,iff_false,not_false_eq_true,forall_const,if_false,false_or]
    refine ⟨fun ⟨hne,hw⟩ => ⟨hw,?_⟩,fun ⟨hw,hne⟩ => ⟨?_,hw⟩⟩
    · rintro rfl
      exact hne hw
    · rw [hw]
      simpa using hne

/-- The messages of rounds 2 to 5: a JSON channel is added, reports, and is tombstoned. -/
def tombstoneMessages : List ObservationProto :=
  [updateMessage (1 * 10 ^ 10) 1 jsonChannel,timestampMessage (2 * 10 ^ 10) [.json],
    timestampMessage (3 * 10 ^ 10) [.json],updateMessage (4 * 10 ^ 10) 1 { jsonChannel with tombstone := true }]

/-- No stream is observed, so no aggregate is agreed. -/
def tombstonePlugin : Plugin := reading tombstoneMessages

def tombstoneObservations : ℕ → List Bytes
  | n + 2 => List.replicate 3 ((tombstoneMessages[n]?).elim [] marshalObservation)
  | _ => List.replicate 3 []

def tombstoneRun (n : ℕ) : Outcome × OptsCache :=
  (tombstonePlugin.execute tombstoneObservations n).getD (⟨.unset,0,∅,∅,fun _ _ => none⟩,.empty)

def tombstoneTally (n : ℕ) : ObservationTally :=
  (tombstonePlugin.decodeObservations (tombstoneObservations n) .empty).getD .empty

lemma tombstoneRun_carries {n : ℕ} (hn : n = 3 ∨ n = 4) :
    Carries tombstonePlugin (tombstoneRun n).2 (n + 1) (tombstoneRun n).1 (tombstoneObservations (n + 1))
      (tombstoneTally (n + 1)) (tombstoneRun (n + 1)).1 1 ((n - 2) * 10 ^ 10) := by
  have hcd : (tombstoneRun n).1.channelDefinitions.get? 1 = some jsonChannel := by
    rcases hn with rfl | rfl <;> decide +kernel
  have hnb : ∀ cd, (tombstoneRun n).1.channelDefinitions.get? 1 = some cd → cd.isBackfill = false := by
    intro cd h
    rw [hcd,Option.some.injEq] at h
    subst h
    rfl
  rcases hn with rfl | rfl
  · exact ⟨by decide,Go.eq_ok_getD (by decide +kernel) _,⟨(tombstoneRun 4).2,rfl⟩,by decide +kernel,
      by decide +kernel,hnb,by decide +kernel⟩
  · exact ⟨by decide,Go.eq_ok_getD (by decide +kernel) _,⟨(tombstoneRun 5).2,rfl⟩,by decide +kernel,
      by decide +kernel,hnb,by decide +kernel⟩

/-- In round 4 no votes are adopted: round 3 reported the channel and its watermark moves
to the end of that report. -/
theorem followsEmission_iff_tombstoneRun :
    tombstonePlugin.DecidesAlike (tombstoneRun 3).2 (tombstoneRun 3).1 (tombstoneTally 4) 1 (1 * 10 ^ 10) ∧
      (tombstoneRun 4).1.validAfterNanoseconds.get? 1 = some (2 * 10 ^ 10) := by
  have hrep : tombstonePlugin.reported (tombstoneRun 3).1 1 := by decide +kernel
  have hobs : (tombstoneRun 3).1.observationTimestampNanoseconds = 2 * 10 ^ 10 := by decide +kernel
  have hnext : (tombstoneRun 4).1.validAfterNanoseconds.get? 1 = some (2 * 10 ^ 10) := by decide +kernel
  refine ⟨(followsEmission_iff (tombstoneRun_carries (.inl rfl))).1.1 ?_,hnext⟩
  simp [FollowsEmission,hrep,hobs,hnext]

/-- Round 4 reports channel 1 from 20 to 30 seconds. Round 5 adopts a tombstone for it,
takes that to mean that it did not report, and leaves its watermark at 20 seconds. -/
theorem tombstone_update_loses_emission :
    tombstonePlugin.execute tombstoneObservations 4 = .ok (tombstoneRun 4) ∧
      Carries tombstonePlugin (tombstoneRun 4).2 5 (tombstoneRun 4).1 (tombstoneObservations 5)
        (tombstoneTally 5) (tombstoneRun 5).1 1 (2 * 10 ^ 10) ∧
      ¬ tombstonePlugin.FollowsEmission (tombstoneRun 4).1 (tombstoneRun 5).1 1 (2 * 10 ^ 10) ∧
      ¬ ((tombstoneRun 5).1.validAfterNanoseconds.get? 1 =
          some (tombstoneRun 4).1.observationTimestampNanoseconds ↔
        tombstonePlugin.reported (tombstoneRun 4).1 1) := by
  have hrep : tombstonePlugin.reported (tombstoneRun 4).1 1 := by decide +kernel
  have hobs : (tombstoneRun 4).1.observationTimestampNanoseconds = 3 * 10 ^ 10 := by decide +kernel
  have hnext : (tombstoneRun 5).1.validAfterNanoseconds.get? 1 = some (2 * 10 ^ 10) := by decide +kernel
  refine ⟨Go.eq_ok_getD (by decide +kernel) _,tombstoneRun_carries (.inr rfl),?_,?_⟩
  · simp [FollowsEmission,hrep,hobs,hnext]
  · simp [hrep,hobs,hnext]

end DataStreams.V30.Plugin
