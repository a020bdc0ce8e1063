import DataStreams.V31.Execution
import DataStreams.V31.Reports

/-! Rounds after the retirement carry the watermarks of the channels in effect unchanged (v31). -/
namespace DataStreams.V31
open Option
variable {M : Type} {I : Instance M}

/-- The watermarks of a retired state in a run: every channel in effect has one, and no
channel reported. -/
structure Settled (s : KVState M) : Prop where
  retired : s.lifeCycleStage = .retired
  covered : ∀ id, (s.channelDefinitions.get? id).isSome → (s.validAfterNanoseconds.get? id).isSome
  silent : s.reportedLastRound = []

/-- Only channels in effect have a watermark. -/
def OnlyEffective (s : KVState M) : Prop :=
  ∀ id, (s.validAfterNanoseconds.get? id).isSome → (s.channelDefinitions.get? id).isSome

lemma Settled.get?_nextValidAfter {s : KVState M} (h : Settled s) (L : Libs) (obsTs : ℕ) (id : ChannelID) :
    (nextValidAfter L s none obsTs).get? id =
      if (s.channelDefinitions.get? id).isSome then s.validAfterNanoseconds.get? id else none := by
  cases hcd : s.channelDefinitions.get? id with
  | none => simpa using get?_nextValidAfter_of_notMem hcd obsTs
  | some cd =>
    obtain ⟨w,hw⟩ := isSome_iff_exists.1 (h.covered id (by rw [hcd]; rfl))
    have hreported : prevReportable s id = false := by simp [prevReportable,h.silent]
    rw [V31.get?_nextValidAfter]
    simp [carriedValidAfter,carryValidAfter,carryBackfill,hw,hcd,hreported,h.retired]

lemma get?_nextValidAfter_isSome (L : Libs) (s : KVState M) (promoted : Option (SortedMap ChannelID ℕ)) (obsTs : ℕ)
    (id : ChannelID) :
    ((nextValidAfter L s promoted obsTs).get? id).isSome ↔
      (s.channelDefinitions.get? id).isSome ∨ ∃ m, promoted = some m ∧ (m.get? id).isSome := by
  rw [V31.get?_nextValidAfter,isSome_or,Bool.or_eq_true,isSome_map,or_comm]
  cases promoted with
  | some m => simp [carriedValidAfter]
  | none =>
    simp only [reduceCtorEq,false_and,exists_false,or_false,or_iff_left_iff_imp]
    intro hcarried
    cases hcd : s.channelDefinitions.get? id with
    | some cd => rfl
    | none =>
      cases hw : s.validAfterNanoseconds.get? id <;>
        simp [carriedValidAfter,carryValidAfter,hw,hcd] at hcarried

/-- If the round promotes and retires the instance at once, the report it is promoted by
names only channels in effect. -/
def NamesEffective (I : Instance M) (prev : KVState M) (t : ObservationTally) : Prop :=
  prev.lifeCycleStage = .staging → t.shouldRetireVotes > I.config.f →
    ∀ r, resolvePredecessorRetirement I.config I.verify .staging t = some r →
      ∀ m, r.validAfterNanoseconds = some m → ∀ id, (m.get? id).isSome → (prev.channelDefinitions.get? id).isSome

namespace Run
variable {run : Run I}
variable {n : ℕ}
section
variable (hn : 1 ≤ n) (hlen : n ≤ run.len) (hr : (run.state n).lifeCycleStage = .retired)
include hn hlen hr

lemma exists_round_of_retired :
    ∃ k obs, n = k + 1 ∧ 1 ≤ k ∧ run.Decoded k obs ∧
      LaterRound I (run.state k) (run.state n) (run.out n) (.ofObservations I.config I.libs obs) ∧
      (run.state n).channelDefinitions = (run.state k).channelDefinitions := by
  obtain ⟨k,rfl⟩ := Nat.exists_eq_add_of_le' hn
  rcases Nat.eq_zero_or_pos k with rfl | hk
  · obtain ⟨_,_,_,_,hstage,_,_,_,hne⟩ := run.first (by omega)
    exact absurd (hstage.symm.trans hr) hne
  · obtain ⟨obs,hobs,hround,hdefs⟩ := run.later_decoded hk (by omega)
    rw [nextDefinitions,← hround.next_stage,if_neg (fun h => h.1 hr)] at hdefs
    exact ⟨k,obs,rfl,hk,hobs,hround,(Except.ok.inj hdefs).symm⟩

lemma settled : Settled (run.state n) := by
  obtain ⟨k,obs,_,_,_,hround,hdefs⟩ := exists_round_of_retired hn hlen hr
  refine ⟨hr,fun id hid => ?_,List.eq_nil_iff_forall_not_mem.2 fun id hid => ?_⟩
  · rw [hround.next_validAfter,hround.validAfter]
    rw [hdefs] at hid
    exact (get?_nextValidAfter_isSome _ _ _ _ id).2 (.inl hid)
  · rw [hround.next_reported] at hid
    exact hround.not_retired hid (hround.next_stage.symm.trans hr)

end

lemma get?_validAfter_succ (hn : 1 ≤ n) (hlen : n < run.len) (hr : (run.state n).lifeCycleStage = .retired)
    (id : ChannelID) : (run.state (n + 1)).validAfterNanoseconds.get? id =
      if ((run.state n).channelDefinitions.get? id).isSome then (run.state n).validAfterNanoseconds.get? id
      else none := by
  obtain ⟨t,ht⟩ := run.later hn hlen
  rw [ht.validAfter_eq fun hs => absurd (hr.symm.trans hs) nofun]
  exact (settled hn hlen.le hr).get?_nextValidAfter _ _ id

variable {obs : List Attributed}
/-- The first retired round holds only channels in effect exactly when the report that
promoted it, if one did, names only those. -/
lemma onlyEffective_iff {k : ℕ}
    (hround : LaterRound I (run.state k) (run.state (k + 1)) (run.out (k + 1)) (.ofObservations I.config I.libs obs))
    (hdefs : (run.state (k + 1)).channelDefinitions = (run.state k).channelDefinitions)
    (hr : (run.state (k + 1)).lifeCycleStage = .retired) (hfirst : (run.state k).lifeCycleStage ≠ .retired) :
    OnlyEffective (run.state (k + 1)) ↔ NamesEffective I (run.state k) (.ofObservations I.config I.libs obs) := by
  set t := ObservationTally.ofObservations I.config I.libs obs
  set report := resolvePredecessorRetirement I.config I.verify (run.state k).lifeCycleStage t with hreport
  have hstage : nextStage (run.state k).lifeCycleStage report t.shouldRetireVotes I.config.f = .retired := by
    rw [← hr,hround.next_stage,hround.stage]
    rfl
  have hretire : promotedStage (run.state k).lifeCycleStage report = .production ∧
      t.shouldRetireVotes > I.config.f := by
    unfold nextStage at hstage
    split_ifs at hstage with h
    · exact h
    · unfold promotedStage at hstage
      split_ifs at hstage
      exact absurd hstage hfirst
  have honly : OnlyEffective (run.state (k + 1)) ↔ ∀ m, promotedValidAfter (run.state k).lifeCycleStage report = some m →
      ∀ id, (m.get? id).isSome → ((run.state k).channelDefinitions.get? id).isSome := by
    rw [OnlyEffective,hround.next_validAfter,hround.validAfter,hdefs]
    simp only [decideRound,get?_nextValidAfter_isSome]
    constructor
    · intro h m hm id hid
      exact h id (.inr ⟨m,hm,hid⟩)
    · rintro h id (hid | ⟨m,hm,hid⟩)
      · exact hid
      · exact h m hm id hid
  rw [honly,NamesEffective]
  constructor
  · intro h hs hv r hres m hm id hid
    rw [hs] at hreport
    refine h m ?_ id hid
    rw [promotedValidAfter,if_pos hs,hreport,hres]
    exact hm
  · intro h m hm id hid
    unfold promotedValidAfter at hm
    split_ifs at hm with hs
    obtain ⟨r,hres,hm⟩ := bind_eq_some_iff.1 hm
    rw [hreport,hs] at hres
    exact h hs hretire.2 r hres m hm id hid

/-- Retired rounds stay retired, report no channel, and all hand over one map. -/
structure RetirementFrozen (run : Run I) : Prop where
  absorbing : ∀ m n, 1 ≤ m → m ≤ n → n ≤ run.len →
    (run.out m).lifeCycleStage = .retired → (run.out n).lifeCycleStage = .retired
  silent : ∀ n, 1 ≤ n → n ≤ run.len → (run.out n).lifeCycleStage = .retired → (run.out n).reportableChannelIDs = []
  agree : ∀ m n, 1 ≤ m → m ≤ run.len → 1 ≤ n → n ≤ run.len → ∀ (encoders encoders' : ReportEncoders) (r s : RetirementReport),
    .retirement r ∈ (run.out m).reports I.libs encoders I.config.protocolVersion m →
    .retirement s ∈ (run.out n).reports I.libs encoders' I.config.protocolVersion n →
    r.validAfterNanoseconds = s.validAfterNanoseconds

lemma out_validAfter (hn : 1 ≤ n) (hlen : n ≤ run.len) (hr : (run.state n).lifeCycleStage = .retired) :
    (run.out n).validAfterNanoseconds = (run.state n).validAfterNanoseconds := by
  obtain ⟨_,_,_,_,_,hround,_⟩ := exists_round_of_retired hn hlen hr
  exact hround.next_validAfter.symm

lemma onlyEffective_of_namesEffective (h : ∀ n, 1 ≤ n → n + 1 < run.len → ∀ obs, run.Decoded n obs →
      NamesEffective I (run.state n) (.ofObservations I.config I.libs obs))
    (hn : 1 ≤ n) (hlen : n < run.len) (hr : (run.state n).lifeCycleStage = .retired) :
    OnlyEffective (run.state n) := by
  obtain ⟨k,obs,rfl,hk,hobs,hround,hdefs⟩ := exists_round_of_retired hn hlen.le hr
  by_cases hfirst : (run.state k).lifeCycleStage = .retired
  · intro id hid
    rw [get?_validAfter_succ hk (by omega) hfirst] at hid
    rw [hdefs]
    split_ifs at hid with hcd
    · exact hcd
    · simp at hid
  · exact (onlyEffective_iff hround hdefs hr hfirst).2 (h k hk hlen obs hobs)

/-- Two retired rounds in a row hand over one map only if the first adopted no watermark
for a channel that is not in effect. -/
lemma RetirementFrozen.namesEffective (hfrozen : run.RetirementFrozen) (hn : 1 ≤ n) (hlen : n + 1 < run.len)
    (hobs : run.Decoded n obs) : NamesEffective I (run.state n) (.ofObservations I.config I.libs obs) := by
  intro hstaging hvotes r hres m hm id hid
  obtain ⟨obs',hobs',hround,_⟩ := run.later_decoded hn (by omega)
  cases Except.ok.inj (hobs.symm.trans hobs')
  have hr : (run.state (n + 1)).lifeCycleStage = .retired := by
    rw [hround.next_stage,hround.stage]
    simp [decideRound,nextStage,promotedStage,hstaging,hres,hvotes]
  have hr' := run.retired_absorbing (by omega) (Nat.le_succ (n + 1)) hlen hr
  have heq : (run.state (n + 1)).validAfterNanoseconds = (run.state (n + 2)).validAfterNanoseconds := by
    have hout := (run.state_eq_out (by omega) (by omega : n + 1 ≤ run.len)).1.symm.trans hr
    have hout' := (run.state_eq_out (by omega) (by omega : n + 2 ≤ run.len)).1.symm.trans hr'
    have hmaps := hfrozen.agree (n + 1) (n + 2) (by omega) (by omega) (by omega) hlen (fun _ => none) (fun _ => none) _ _
      (Precursor.mem_reports_of_retired hout (by omega)) (Precursor.mem_reports_of_retired hout' (by omega))
    rw [← out_validAfter (by omega) (by omega) hr,← out_validAfter (by omega) hlen hr']
    exact Option.some.inj hmaps
  -- The round adopts the watermark, and the next one keeps it only for a channel in effect.
  have hadopted : ((run.state (n + 1)).validAfterNanoseconds.get? id).isSome := by
    rw [hround.next_validAfter,hround.validAfter]
    refine (get?_nextValidAfter_isSome _ _ _ _ id).2 (.inr ⟨m,?_,hid⟩)
    rw [promotedValidAfter,if_pos hstaging,hstaging,hres]
    exact hm
  rw [heq,get?_validAfter_succ (by omega) (by omega) hr] at hadopted
  obtain ⟨k,_,hk,_,_,_,hdefs⟩ := exists_round_of_retired (by omega) (by omega : n + 1 ≤ run.len) hr
  cases Nat.succ.inj hk
  rw [hdefs] at hadopted
  split_ifs at hadopted with hcd
  · exact hcd
  · simp at hadopted

lemma validAfter_eq_of_retired (h : ∀ n, 1 ≤ n → n + 1 < run.len → ∀ obs, run.Decoded n obs →
      NamesEffective I (run.state n) (.ofObservations I.config I.libs obs))
    {m : ℕ} (hm : 1 ≤ m) (hmn : m ≤ n) (hn : n ≤ run.len) (hr : (run.state m).lifeCycleStage = .retired) :
    (run.state n).validAfterNanoseconds = (run.state m).validAfterNanoseconds := by
  refine run.invariant_from (m := m) (P := fun n =>
    (run.state n).validAfterNanoseconds = (run.state m).validAfterNanoseconds) rfl ?_ n hmn hn
  intro k hk hlen ih
  have hrk := run.retired_absorbing hm hk hlen.le hr
  rw [← ih]
  ext1 id
  rw [get?_validAfter_succ (hm.trans hk) hlen hrk]
  split_ifs with hcd
  · rfl
  · refine (not_isSome_iff_eq_none.1 fun hva => hcd ?_).symm
    exact onlyEffective_of_namesEffective h (hm.trans hk) hlen hrk id hva

/-- The handover is frozen exactly when no round that promotes and retires the instance at
once, and is not the last, adopts a watermark for a channel that is not in effect. -/
theorem retirementFrozen_iff (run : Run I) :
    run.RetirementFrozen ↔ ∀ n, 1 ≤ n → n + 1 < run.len → ∀ obs, run.Decoded n obs →
      NamesEffective I (run.state n) (.ofObservations I.config I.libs obs) := by
  refine ⟨fun hfrozen n hn hlen obs hobs => hfrozen.namesEffective hn hlen hobs,fun h => ⟨?_,?_,?_⟩⟩
  · intro m n hm hmn hn hr
    rw [← (run.state_eq_out (hm.trans hmn) hn).1]
    exact run.retired_absorbing hm hmn hn ((run.state_eq_out hm (hmn.trans hn)).1.trans hr)
  · intro n hn hlen hr
    have hout := run.state_eq_out hn hlen
    rw [← hout.2.2]
    exact (settled hn hlen (hout.1.trans hr)).silent
  · intro m n hm hmlen hn hnlen encoders encoders' r s hrm hsn
    obtain ⟨hr,rfl⟩ := Precursor.retirement_mem_reports hrm
    obtain ⟨hs,rfl⟩ := Precursor.retirement_mem_reports hsn
    have hrs := (run.state_eq_out hm hmlen).1.trans hr
    have hss := (run.state_eq_out hn hnlen).1.trans hs
    simp only [Precursor.retirementReport,out_validAfter hm hmlen hrs,out_validAfter hn hnlen hss]
    rcases Nat.le_total m n with hmn | hmn
    · rw [validAfter_eq_of_retired h hm hmn hnlen hrs]
    · rw [validAfter_eq_of_retired h hn hmn hmlen hss]

end Run

/-- The messages of rounds 2 to 4. Round 2 adds channel 1; in round 3 the oracles attest the
predecessor's retirement and vote to retire. -/
def retireMessages : List ObservationProto :=
  [updateMessage (10 * 10 ^ 9) 1 jsonChannel,
    { timestampMessage (20 * 10 ^ 9) [.json] with
      attestedPredecessorRetirement := [9]
      shouldRetire := true
      predecessorSigners := [[1]] },timestampMessage (30 * 10 ^ 9) [.json]]

/-- The predecessor hands over channel 7, which this instance does not have. -/
def retireInstance : Instance Unit :=
  { smallInstance ⟨.rejecting,fromTable [],digest⟩ (wireOf retireMessages [] []) with
    config := fourOracles (some 1)
    verify := fun _ _ attested =>
      if attested = [9] then .ok ⟨2,some (.ofList [(7,15 * 10 ^ 9)])⟩ else .error "not attested" }

def retireRun : Run retireInstance :=
  .ofExecution retireInstance (nodeWithAllCodecs retireInstance.libs none)
    (sentFrom (retireMessages.map (Prod.mk []))) 4 (by decide +kernel)

/-- Round 3 hands over channels 1 and 7 and round 4 only channel 1: a successor that sees
both reports refuses to promote. -/
theorem promotion_with_retirement_not_frozen :
    ¬ retireRun.RetirementFrozen ∧
      chooseRetirement [(retireRun.out 3).retirementReport 2,(retireRun.out 4).retirementReport 2] = none := by
  have hstages : ∀ n ∈ [3,4], (retireRun.out n).lifeCycleStage = .retired := by decide +kernel
  have hmap : (retireRun.out 3).validAfterNanoseconds = .ofList [(1,20 * 10 ^ 9),(7,15 * 10 ^ 9)] := by decide +kernel
  have hmap' : (retireRun.out 4).validAfterNanoseconds = .ofList [(1,20 * 10 ^ 9)] := by decide +kernel
  refine ⟨fun h => ?_,by simp only [Precursor.retirementReport,hmap,hmap']; decide⟩
  have heq := h.agree 3 4 (by decide) (by decide) (by decide) (by decide) (fun _ => none) (fun _ => none) _ _
    (Precursor.mem_reports_of_retired (hstages 3 (by decide)) (by decide))
    (Precursor.mem_reports_of_retired (hstages 4 (by decide)) (by decide))
  simp only [Precursor.retirementReport,hmap,hmap'] at heq
  exact absurd heq (by decide)

end DataStreams.V31
