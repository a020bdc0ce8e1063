import DataStreams.V31.Execution
import Mathlib.Order.CompletePartialOrder
import Mathlib.Order.Interval.Set.Disjoint

/-! The production reports of a channel tile the time line (v31). -/
namespace DataStreams.V31
variable {M : Type}
/-- One production report of a channel: its round and the interval it covers. -/
structure ReportedInterval where
  round : ℕ
  after : ℕ
  upTo : ℕ
  deriving DecidableEq, Repr

def ReportedInterval.covered (r : ReportedInterval) : Set ℕ := Set.Ioc r.after r.upTo

namespace Run
variable {I : Instance M} (run : Run I) (c : ChannelID)
def reportedInProduction (n : ℕ) : Bool :=
  (run.out n).lifeCycleStage = .production && c ∈ (run.out n).reportableChannelIDs

/-- The channel's production reports in round order. -/
def coverage : List ReportedInterval :=
  (run.rounds (run.reportedInProduction c)).map (fun n =>
    ⟨n,((run.out n).validAfterNanoseconds.get? c).getD 0,(run.out n).observationTimestampNanoseconds⟩)

def NeverBackfill : Prop :=
  ∀ n cd, 1 ≤ n → n ≤ run.len → (run.out n).channelDefinitions.get? c = some cd → cd.isBackfill = false

/-- The channel is in the effective definitions of every round from `m` to `n`. -/
def EffectiveBetween (m n : ℕ) : Prop :=
  ∀ k, m ≤ k → k ≤ n → ((run.out k).channelDefinitions.get? c).isSome

variable {run c}
section
variable (hb : run.NeverBackfill c)
include hb

lemma step_validAfter {k : ℕ} (hk : 1 ≤ k) (hlen : k < run.len)
    (hp : (run.state k).lifeCycleStage ≠ .staging) :
    (run.state (k + 1)).validAfterNanoseconds.get? c =
      if ((run.out (k + 1)).channelDefinitions.get? c).isSome then
        some (advanceValidAfter (run.state k) c (run.state (k + 1)).observationTimestampNs)
      else none := by
  obtain ⟨t,ht⟩ := run.later hk hlen
  rw [ht.validAfter_eq (fun h => absurd h hp),ht.definitions]
  cases hcd : (run.state k).channelDefinitions.get? c with
  | none => simp [get?_nextValidAfter_of_notMem hcd]
  | some cd =>
    have hnb := hb (k + 1) cd (by omega) hlen (by rw [ht.definitions]; exact hcd)
    simp [get?_nextValidAfter_of_mem hcd hnb]

/-- The watermark never falls behind a reported round. -/
lemma reported_le_validAfter {m n w : ℕ} (hm : 1 ≤ m) (hmn : m < n)
    (hn : n ≤ run.len) (hrep : run.reportedInProduction c m = true)
    (hw : (run.state n).validAfterNanoseconds.get? c = some w) : (run.state m).observationTimestampNs ≤ w := by
  simp only [reportedInProduction,Bool.and_eq_true,decide_eq_true_eq] at hrep
  obtain ⟨hstage,_,hreported⟩ := run.state_eq_out hm (by omega)
  have hprod : (run.state m).lifeCycleStage = .production := by rw [hstage,hrep.1]
  let Past (k : ℕ) : Prop := ∀ v, (run.state k).validAfterNanoseconds.get? c = some v →
    (run.state m).observationTimestampNs ≤ v
  have hstep : ∀ k, m ≤ k → k < run.len → prevReportable (run.state k) c = true ∨ Past k → Past (k + 1) := by
    intro k hk hlen ih v hv
    have hns : (run.state k).lifeCycleStage ≠ .staging := by
      rcases run.stage_after_production hm hk (by omega) hprod with h | h <;> simp [h]
    rw [step_validAfter hb (hm.trans hk) hlen hns] at hv
    split_ifs at hv
    cases hv
    exact le_advanceValidAfter (run.obsTs_mono hm hk (by omega)) (run.obsTs_mono hm (by omega) hlen) ih
  -- a round either reports the channel or has its watermark past the end already
  have hinv := run.invariant_from (m := m) (P := fun k => prevReportable (run.state k) c = true ∨ Past k)
    (.inl (by simp [prevReportable,hreported,hrep.2])) (fun k hk hlen ih => .inr (hstep k hk hlen ih))
  obtain ⟨k,rfl⟩ := Nat.exists_eq_add_of_le' (Nat.one_le_of_lt hmn)
  exact hstep k (by omega) (by omega) (hinv k (by omega) (by omega)) w hw

/-- Between two reports the watermark is the timestamp of the first. -/
lemma validAfter_eq_reported {m n : ℕ} (hm : 1 ≤ m) (hmn : m < n)
    (hn : n ≤ run.len) (hrep : run.reportedInProduction c m = true)
    (hprod : (run.state n).lifeCycleStage = .production)
    (hquiet : ∀ k, m < k → k < n → run.reportedInProduction c k = false)
    (heff : run.EffectiveBetween c m n) :
    (run.state n).validAfterNanoseconds.get? c = some (run.state m).observationTimestampNs := by
  simp only [reportedInProduction,Bool.and_eq_true,decide_eq_true_eq] at hrep
  obtain ⟨hstage,_,hreported⟩ := run.state_eq_out hm (by omega)
  have hpm : (run.state m).lifeCycleStage = .production := by rw [hstage,hrep.1]
  -- a retired round would keep the instance retired up to round `n`
  have hpk : ∀ k, m ≤ k → k ≤ n → (run.state k).lifeCycleStage = .production := by
    intro k hk hkn
    rcases run.stage_after_production hm hk (by omega) hpm with h | h
    · exact h
    · have := run.retired_absorbing (by omega) hkn hn h
      rw [hprod] at this
      contradiction
  have hstep : ∀ k, m ≤ k → k < n → (run.state (k + 1)).validAfterNanoseconds.get? c =
      some (advanceValidAfter (run.state k) c (run.state (k + 1)).observationTimestampNs) := by
    intro k hk hkn
    rw [step_validAfter hb (by omega) (by omega) (by simp [hpk k hk (by omega)]),
      if_pos (heff (k + 1) (by omega) (by omega))]
  obtain ⟨j,t,rfl,_,_,ht⟩ := run.later_of_reported hm (by omega) hrep.2
  obtain ⟨va,hva,_⟩ := ht.interval hrep.2 (fun cd => hb (j + 1) cd (by omega) (by omega))
  have hfirst : (run.state (j + 1 + 1)).validAfterNanoseconds.get? c =
      some (run.state (j + 1)).observationTimestampNs := by
    rw [hstep (j + 1) le_rfl hmn]
    simp [advanceValidAfter,hva,prevReportable,hreported,hrep.2]
  have hinv : ∀ k, j + 1 + 1 ≤ k → k ≤ run.len → k ≤ n →
      (run.state k).validAfterNanoseconds.get? c = some (run.state (j + 1)).observationTimestampNs := by
    refine run.invariant_from (m := j + 1 + 1) (fun _ => hfirst) ?_
    intro k hk hlen ih hkn
    have hnr := hquiet k (by omega) (by omega)
    obtain ⟨hs,_,hr⟩ := run.state_eq_out (n := k) (by omega) (by omega)
    have hkp := hpk k (by omega) (by omega)
    rw [hs] at hkp
    simp only [reportedInProduction,hkp,decide_true,Bool.true_and,decide_eq_false_iff_not] at hnr
    rw [hstep k (by omega) (by omega)]
    simp [advanceValidAfter,ih (by omega),prevReportable,hr,hnr]
  exact hinv n (by omega) hn le_rfl

lemma interval_of_reported {n : ℕ} (hn : 1 ≤ n) (hlen : n ≤ run.len)
    (hrep : run.reportedInProduction c n = true) :
    ∃ va, (run.out n).validAfterNanoseconds.get? c = some va ∧
      (run.state n).validAfterNanoseconds.get? c = some va ∧
      va < (run.out n).observationTimestampNanoseconds := by
  simp only [reportedInProduction,Bool.and_eq_true,decide_eq_true_eq] at hrep
  obtain ⟨m,t,rfl,_,_,ht⟩ := run.later_of_reported hn hlen hrep.2
  obtain ⟨va,hva,hlt⟩ := ht.interval hrep.2 (fun cd => hb (m + 1) cd (by omega) (by omega))
  exact ⟨va,ht.next_validAfter ▸ hva,hva,ht.next_obsTs ▸ hlt⟩

lemma upTo_le_after {m n : ℕ} (hm : 1 ≤ m) (hmn : m < n)
    (hn : n ≤ run.len) (hrm : run.reportedInProduction c m = true)
    (hrn : run.reportedInProduction c n = true) :
    (run.out m).observationTimestampNanoseconds ≤ ((run.out n).validAfterNanoseconds.get? c).getD 0 := by
  obtain ⟨va,hout,hstate,_⟩ := interval_of_reported hb (by omega) hn hrn
  rw [hout,Option.getD_some,← (run.state_eq_out hm (by omega)).2.1]
  exact reported_le_validAfter hb hm hmn hn hrm hstate

end

/-- The production reports of a channel that is never a backfill cover non-empty,
pairwise disjoint intervals with strictly increasing ends; between two consecutive ones
nothing is lost as long as the channel stays in effect. -/
theorem coverage_tiles (hb : run.NeverBackfill c) :
    (∀ r ∈ run.coverage c, r.covered.Nonempty) ∧
      (run.coverage c).Pairwise (fun a b => Disjoint a.covered b.covered) ∧
      (run.coverage c).Pairwise (fun a b => a.upTo < b.upTo) ∧
      (run.coverage c).IsChain (fun a b => run.EffectiveBetween c a.round b.round → b.after = a.upTo) := by
  have hlt : ∀ n, 1 ≤ n → n ≤ run.len → run.reportedInProduction c n = true →
      ((run.out n).validAfterNanoseconds.get? c).getD 0 < (run.out n).observationTimestampNanoseconds := by
    intro n hn hlen hrep
    obtain ⟨va,hva,_,h⟩ := interval_of_reported hb hn hlen hrep
    rw [hva]
    exact h
  refine ⟨?_,?_,?_,?_⟩
  · intro r hr
    simp only [coverage,List.mem_map,Trace.mem_rounds] at hr
    obtain ⟨n,⟨⟨hn,hlen⟩,hrep⟩,rfl⟩ := hr
    exact Set.nonempty_Ioc.2 (hlt n hn hlen hrep)
  · refine List.pairwise_map.2 (Trace.rounds_pairwise ?_)
    intro m n hm hmn hn hrm hrn
    exact Set.Ioc_disjoint_Ioc_of_le (upTo_le_after hb hm hmn hn hrm hrn)
  · refine List.pairwise_map.2 (Trace.rounds_pairwise ?_)
    intro m n hm hmn hn hrm hrn
    exact (upTo_le_after hb hm hmn hn hrm hrn).trans_lt (hlt n (by omega) hn hrn)
  · refine (List.isChain_map _).2 (Trace.rounds_isChain ?_)
    intro m n hm hmn hn hrm hrn hquiet heff
    have hprod : (run.state n).lifeCycleStage = .production := by
      rw [(run.state_eq_out (by omega) hn).1]
      simp only [reportedInProduction,Bool.and_eq_true,decide_eq_true_eq] at hrn
      exact hrn.1
    have hva := validAfter_eq_reported hb hm hmn hn hrm hprod hquiet heff
    obtain ⟨va,hout,hstate,_⟩ := interval_of_reported hb (by omega) hn hrn
    rw [hva,Option.some.injEq] at hstate
    simp only [hout,Option.getD_some,← hstate]
    exact (run.state_eq_out hm (by omega)).2.1

lemma neverBackfill_of_all (h : (List.range' 1 run.len).all (fun n =>
    ((run.out n).channelDefinitions.get? c).all (fun cd => !cd.isBackfill)) = true) : run.NeverBackfill c := by
  intro n cd hn hlen hcd
  have hmem : n ∈ List.range' 1 run.len := by
    rw [List.mem_range'_1]
    omega
  simpa [hcd] using List.all_eq_true.1 h n hmem

end Run

/-- Round 2 adds a channel, round 3 gives it a watermark, rounds 4 and 5 report it. -/
def coverageMessages : List (List Bytes × ObservationProto) :=
  [([],updateMessage 100 1 jsonChannel),([],timestampMessage 200 [.json]),([[4]],timestampMessage 300 [.json]),
    ([[5]],timestampMessage 400 [.json])]

def coverageInstance : Instance Unit :=
  smallInstance ⟨.rejecting,fromTable [],digest⟩
    (wireOf (coverageMessages.map Prod.snd) [priceBlob 4,priceBlob 5] [(fiveBytes,⟨5,0⟩)])

def coverageObservations : ℕ → List AttributedObservation := sentFrom coverageMessages

def coverageRun : Run coverageInstance :=
  .ofExecution coverageInstance (nodeWithAllCodecs coverageInstance.libs priceFetcher)
    coverageObservations 5 (by decide +kernel)

theorem coverage_tiles_coverageRun :
    coverageRun.coverage 1 = [⟨4,200,300⟩,⟨5,300,400⟩] ∧
      (coverageRun.coverage 1).IsChain (fun a b =>
        coverageRun.EffectiveBetween 1 a.round b.round → b.after = a.upTo) :=
  ⟨by decide +kernel,(Run.coverage_tiles (Run.neverBackfill_of_all (by decide +kernel))).2.2.2⟩

end DataStreams.V31
