import DataStreams.V31.Execution
import DataStreams.V31.Reports

/-! A backfill's watermark follows the row that was emitted when two selections agree (v31). -/
namespace DataStreams.V31
variable {M : Type}
variable {L : Libs} {prev : KVState M} {id : ChannelID}
lemma carryBackfill_emitted (hp : prev.lifeCycleStage = .production) (hr : prevReportable prev id = true) (w : ℕ) :
    carryBackfill L prev id w = ((selectBackfillCandidate L prev.channelDefinitions
      prev.validAfterNanoseconds prev.observationTimestampNs id prev.opts).map BackfillCandidate.tsNanos).getD w := by
  simp only [carryBackfill,hp,hr,ne_eq,not_true_eq_false,if_false,if_true]
  split <;> simp_all

lemma carryBackfill_not_emitted
    (h : ¬ (prev.lifeCycleStage = .production ∧ prevReportable prev id = true)) (w : ℕ) :
    carryBackfill L prev id w = w := by
  unfold carryBackfill
  split_ifs with hs hr
  · rfl
  · exact absurd ⟨not_not.1 hs,hr⟩ h
  · rfl

lemma LaterRound.exists_validAfter {I : Instance M} {next : KVState M} {out : Precursor}
    {t : ObservationTally} (h : LaterRound I prev next out t) {cd : ChannelDefinition}
    (hcd : out.channelDefinitions.get? id = some cd) : ∃ w, out.validAfterNanoseconds.get? id = some w := by
  rw [h.definitions] at hcd
  rw [h.validAfter,← Option.isSome_iff_exists]
  simp [decideRound,get?_nextValidAfter,hcd]

namespace Run
variable {I : Instance M} (run : Run I) (c : ChannelID)
def EmittedBackfill (k : ℕ) : Prop :=
  (run.out k).lifeCycleStage = .production ∧ c ∈ (run.out k).reportableChannelIDs

/-- The channel is a backfill under the definitions in effect in a round. -/
def BackfillIn (k : ℕ) : Prop :=
  ∃ cd, (run.out k).channelDefinitions.get? c = some cd ∧ cd.isBackfill = true

/-- The round is not the promotion of the instance. -/
def NotPromoted (k : ℕ) : Prop :=
  (run.state (k - 1)).lifeCycleStage = .staging → (run.state k).lifeCycleStage = .staging

instance (k : ℕ) : Decidable (run.EmittedBackfill c k) := inferInstanceAs (Decidable (_ ∧ _))

/-- After round `k`, the watermark is that of the row emitted in round `k`, and unchanged
if none was. -/
def BackfillFollowsEmission (k : ℕ) : Prop :=
  (run.out (k + 1)).validAfterNanoseconds.get? c =
    if run.EmittedBackfill c k then ((run.out k).emittedRow I.libs c).map BackfillCandidate.tsNanos
    else (run.out k).validAfterNanoseconds.get? c

/-- The definitions and opts of round `k + 1` select the row that round `k` emitted. -/
def SelectsAlike (k : ℕ) : Prop :=
  run.EmittedBackfill c k →
    (selectBackfillCandidate I.libs (run.out (k + 1)).channelDefinitions (run.out k).validAfterNanoseconds
      (run.out k).observationTimestampNanoseconds c (run.out (k + 1)).opts).map BackfillCandidate.tsNanos =
    ((run.out k).emittedRow I.libs c).map BackfillCandidate.tsNanos

variable {run c}
variable {k w : ℕ}
lemma backfill_validAfter (hk : 1 ≤ k) (hlen : k < run.len) (hb : run.BackfillIn c (k + 1))
    (hp : run.NotPromoted (k + 1)) (hw : (run.state k).validAfterNanoseconds.get? c = some w) :
    (run.out (k + 1)).validAfterNanoseconds.get? c = some (carryBackfill I.libs (run.state k) c w) := by
  obtain ⟨t,ht⟩ := run.later hk hlen
  obtain ⟨cd,hcd,hbf⟩ := hb
  rw [ht.definitions] at hcd
  rw [← ht.next_validAfter,ht.validAfter_eq hp,get?_nextValidAfter]
  simp [carriedValidAfter,hw,carryValidAfter,hcd,hbf]

lemma EmittedBackfill.row (h : run.EmittedBackfill c k) (hk : 1 ≤ k) (hlen : k ≤ run.len)
    (hb : run.BackfillIn c k) (hw : (run.out k).validAfterNanoseconds.get? c = some w) :
    ∃ r, (run.out k).emittedRow I.libs c = some r ∧ w < r.tsNanos := by
  obtain ⟨m,t,rfl,_,_,ht⟩ := run.later_of_reported hk hlen h.2
  obtain ⟨aggregates,support,hrep⟩ := ht.reportable
  obtain ⟨cd,hcd,hbf⟩ := hb
  obtain ⟨_,r,hr⟩ := Precursor.isReportable_backfill ((hrep c).1 h.2).2 hcd hbf
  have hopts : (run.state m).opts = (run.out (m + 1)).opts := by
    rw [KVState.opts,Precursor.opts,ht.definitions]
  rw [hopts] at hr
  obtain ⟨w',hw',hlt,_⟩ := selectBackfillCandidate_bounds hr
  cases Option.some.inj (hw.symm.trans hw')
  exact ⟨r,hr,hlt⟩

/-- In every run and every round that is not a promotion, the watermark of a backfill in
effect before and after follows what was emitted exactly when the definitions of the
round select the emitted row. -/
theorem backfillFollowsEmission_iff {k : ℕ} (hk : 1 ≤ k) (hlen : k < run.len) (hb : run.BackfillIn c k)
    (hb' : run.BackfillIn c (k + 1)) (hp : run.NotPromoted (k + 1)) :
    run.BackfillFollowsEmission c k ↔ run.SelectsAlike c k := by
  obtain ⟨m,rfl⟩ := Nat.exists_eq_add_of_le' hk
  rcases Nat.eq_zero_or_pos m with rfl | hm
  · obtain ⟨cd,hcd,_⟩ := hb
    rw [(run.first (by omega)).2.2.2.2.2.2.1] at hcd
    simp at hcd
  obtain ⟨t,ht⟩ := run.later hm (by omega)
  obtain ⟨t',ht'⟩ := run.later hk hlen
  obtain ⟨w,hw⟩ := ht.exists_validAfter hb.choose_spec.1
  have hcarry := backfill_validAfter hk hlen hb' hp (ht.next_validAfter ▸ hw)
  have hopts : (run.state (m + 1)).opts = (run.out (m + 1 + 1)).opts := by
    rw [KVState.opts,Precursor.opts,ht'.definitions]
  have hemitted : run.EmittedBackfill c (m + 1) ↔ (run.state (m + 1)).lifeCycleStage = .production ∧
      prevReportable (run.state (m + 1)) c = true := by
    simp [EmittedBackfill,prevReportable,ht.next_stage,ht.next_reported]
  rw [BackfillFollowsEmission,hcarry]
  by_cases he : run.EmittedBackfill c (m + 1)
  · obtain ⟨r,hr,hlt⟩ := he.row hk (by omega) hb hw
    simp only [SelectsAlike,he,if_true,forall_const,hr,Option.map_some,ht'.definitions,← hopts,
      carryBackfill_emitted (hemitted.1 he).1 (hemitted.1 he).2,ht.next_validAfter,ht.next_obsTs]
    cases selectBackfillCandidate I.libs (run.state (m + 1)).channelDefinitions
        (run.out (m + 1)).validAfterNanoseconds (run.out (m + 1)).observationTimestampNanoseconds c
        (run.state (m + 1)).opts with
    | none => simpa using hlt.ne
    | some r' => simp
  · simp [SelectsAlike,he,hw,carryBackfill_not_emitted (mt hemitted.2 he)]

end Run

def backfillOpts : Bytes :=
  let row : JSONText := .object [("1",.string (ascii "5"))]
  (JSONText.object [("targetChannelId",.number 1),("observations",.object [("5",row),("7",row)])]).bytes

def backfillOptsWire : HistoryBackfillOptsWire :=
  ⟨1,.ofList [(['5'],.ofList [(['1'],['5'])]),(['7'],.ofList [(['1'],['5'])])]⟩

def backfillChannel : ChannelDefinition := ⟨.historyBackfill,[⟨1,.median⟩],backfillOpts,false,0,false⟩

/-- The messages of rounds 2 to 5. Round 2 adds a channel and its backfill, rounds 3 and 4
report a row each, and round 4 adopts a tombstone for the channel. -/
def backfillMessages : List ObservationProto :=
  [{ timestampMessage (10 * 10 ^ 9) [.json] with
      updateChannelDefinitions := .ofList [(1,some jsonChannel),(2,some backfillChannel)] },
    timestampMessage (20 * 10 ^ 9) [.json],
    updateMessage (30 * 10 ^ 9) 1 { jsonChannel with tombstone := true },timestampMessage (40 * 10 ^ 9) [.json]]

def backfillInstance : Instance Unit :=
  smallInstance ⟨{ JSON.rejecting with unmarshalHistoryBackfill := fromTable [(backfillOpts,backfillOptsWire)] },
    fromTable [(['5'],⟨5,0⟩)],digest⟩ (wireOf backfillMessages [] [])

def backfillRun : Run backfillInstance :=
  .ofExecution backfillInstance (nodeWithAllCodecs backfillInstance.libs none)
    (sentFrom (backfillMessages.map (Prod.mk []))) 5 (by decide +kernel)

variable {n : ℕ}
lemma backfillRun_backfillIn (hn : n ∈ [3,4,5]) : backfillRun.BackfillIn 2 n := by
  have hcd : ∀ n ∈ [3,4,5], (backfillRun.out n).channelDefinitions.get? 2 = some backfillChannel := by
    decide +kernel
  exact ⟨backfillChannel,hcd n hn,rfl⟩

lemma backfillRun_notPromoted (hn : n ∈ [3,4,5]) : backfillRun.NotPromoted n := by
  have hprod : ∀ n ∈ [3,4,5], (backfillRun.state (n - 1)).lifeCycleStage = .production := by
    decide +kernel
  exact fun hs => absurd ((hprod n hn).symm.trans hs) nofun

/-- Round 3 emits the row at 5 seconds and round 4 adopts its timestamp as the watermark. -/
theorem backfillFollowsEmission_iff_backfillRun :
    backfillRun.SelectsAlike 2 3 ∧ (backfillRun.out 4).validAfterNanoseconds.get? 2 = some (5 * 10 ^ 9) := by
  have he : backfillRun.EmittedBackfill 2 3 := by decide +kernel
  have hrow : ((backfillRun.out 3).emittedRow backfillInstance.libs 2).map BackfillCandidate.tsNanos =
      some (5 * 10 ^ 9) := by decide +kernel
  have hva : (backfillRun.out 4).validAfterNanoseconds.get? 2 = some (5 * 10 ^ 9) := by decide +kernel
  refine ⟨(Run.backfillFollowsEmission_iff (by decide) (by decide) (backfillRun_backfillIn (by decide))
    (backfillRun_backfillIn (by decide)) (backfillRun_notPromoted (by decide))).1 ?_,hva⟩
  rw [Run.BackfillFollowsEmission,if_pos he,hrow,hva]

/-- Round 4 emits the row at 7 seconds. In round 5 the target is tombstoned, nothing is
selected, and the watermark stays at 5 seconds, before the emitted row. -/
theorem tombstoned_target_repeats_row :
    backfillRun.BackfillIn 2 4 ∧ backfillRun.BackfillIn 2 5 ∧ backfillRun.NotPromoted 5 ∧
      backfillRun.EmittedBackfill 2 4 ∧ ¬ backfillRun.BackfillFollowsEmission 2 4 := by
  have he : backfillRun.EmittedBackfill 2 4 := by decide +kernel
  have hrow : ((backfillRun.out 4).emittedRow backfillInstance.libs 2).map BackfillCandidate.tsNanos =
      some (7 * 10 ^ 9) := by decide +kernel
  have hva : (backfillRun.out 5).validAfterNanoseconds.get? 2 = some (5 * 10 ^ 9) := by decide +kernel
  refine ⟨backfillRun_backfillIn (by decide),backfillRun_backfillIn (by decide),
    backfillRun_notPromoted (by decide),he,?_⟩
  rw [Run.BackfillFollowsEmission,if_pos he,hrow,hva]
  decide

end DataStreams.V31
