import DataStreams.V31.Coverage

/-! A round keeps the contributions whose cycle started few enough rounds ago, and recently
enough (v31). -/
namespace DataStreams.V31
open List

def snapshotReuseRounds : ℕ := 4
def maxStreamValueAgeRounds : ℕ := snapshotReuseRounds + 2

def agreedTimestampAt (window : List ℕ) (seqNr round : ℕ) : Option ℕ :=
  if round > seqNr ∨ seqNr - round ≥ window.length then none
  else window[window.length - 1 - (seqNr - round)]?

/-- The intervals between neighbours, without those that are not positive. -/
def positiveIntervals : List ℕ → List ℕ
  | a :: b :: rest => (if a < b then [b - a] else []) ++ positiveIntervals (b :: rest)
  | _ => []

/-- The upper median of the positive intervals, at least the configured one. Zero while no
interval is known. -/
def roundIntervalEstimate (window : List ℕ) (configured : ℕ) : ℕ :=
  let intervals := positiveIntervals window
  if intervals = [] then 0
  else max (min ((intervals.insertionSort (· ≤ ·)).getD (intervals.length / 2) 0) (2 ^ 63 - 1)) configured

/-- The product is one of 64-bit numbers and wraps. -/
def maxStreamValueAge (roundInterval : ℕ) : ℕ := maxStreamValueAgeRounds * roundInterval % 2 ^ 64

inductive FreshnessVerdict
  | fresh
  | staleByRounds
  | staleBeforeWindow
  | staleByTime
  deriving DecidableEq

/-- The contribution's cycle started at most the allowed number of rounds ago. -/
def StreamContribution.WithinRounds (c : StreamContribution) (seqNr : ℕ) : Prop :=
  c.cycleStartSeqNr ≤ seqNr ∧ seqNr - c.cycleStartSeqNr ≤ maxStreamValueAgeRounds

def judgeContribution (seqNr roundTs : ℕ) (window : List ℕ) (maxAge : ℕ) (c : StreamContribution) :
    FreshnessVerdict :=
  if c.cycleStartSeqNr > seqNr ∨ seqNr - c.cycleStartSeqNr > maxStreamValueAgeRounds then .staleByRounds
  else
    match agreedTimestampAt window seqNr c.cycleStartSeqNr with
    | none => .staleBeforeWindow
    | some cycleTs =>
      if maxAge > 0 ∧ roundTs > cycleTs ∧ roundTs - cycleTs > maxAge then .staleByTime else .fresh

/-- The fresh contributions of a stream. When they are too few, those that are not stale
by time come back. -/
def keptContributions (judge : StreamContribution → FreshnessVerdict) (minContributions : ℕ)
    (contributions : List StreamContribution) : List StreamContribution :=
  let fresh := contributions.filter (fun c => judge c = .fresh)
  let fallback := contributions.filter (fun c => judge c ≠ .staleByTime)
  if contributions.all (fun c => judge c = .fresh) then fresh
  else if fresh.length ≥ minContributions ∨ fallback.length = fresh.length then fresh
  else fallback

def selectFreshContributions (byStream : SortedMap StreamID (List StreamContribution)) (seqNr roundTs : ℕ)
    (window : List ℕ) (roundInterval minContributions : ℕ) : SortedMap StreamID (List StreamValue) :=
  byStream.mapVal (fun _ contributions =>
    (keptContributions (judgeContribution seqNr roundTs window (maxStreamValueAge roundInterval)) minContributions
      contributions).map StreamContribution.value)

namespace RoundInput
variable (x : RoundInput) (configured minContributions : ℕ)
def roundInterval : ℕ := roundIntervalEstimate x.agreedTimestamps configured

def verdict (c : StreamContribution) : FreshnessVerdict :=
  judgeContribution x.seqNr x.observationTimestampNanoseconds x.agreedTimestamps
    (maxStreamValueAge (x.roundInterval configured)) c

def kept (contributions : List StreamContribution) : List StreamContribution :=
  keptContributions (x.verdict configured) minContributions contributions

def freshValues : SortedMap StreamID (List StreamValue) :=
  selectFreshContributions x.contributions x.seqNr x.observationTimestampNanoseconds x.agreedTimestamps
    (x.roundInterval configured) minContributions

end RoundInput

variable {M : Type}
def roundInput (I : Instance M) (seqNr : ℕ) (prev : KVState M) (obs : List Attributed) : RoundInput :=
  let t := ObservationTally.ofObservations I.config I.libs obs
  let d := decideRound I prev t
  ⟨seqNr,d.obsTs,d.agreedTimestamps,prev.channelDefinitions,t.streamObservations⟩

variable {seqNr : ℕ}
lemma laterRound_evaluates {I : Instance M} {factsOf : FactsOf} {prev next : KVState M}
    {obs : List Attributed} {out : Precursor} (h : laterRound I factsOf seqNr prev obs = .ok (next,out)) :
    (∃ aggregates, I.engine.evaluate prev.memory (roundInput I seqNr prev obs) = .ok (aggregates,next.memory)) ∧
      next.recentAgreedTimestamps = (roundInput I seqNr prev obs).agreedTimestamps ∧
      out.observationTimestampNanoseconds = (roundInput I seqNr prev obs).observationTimestampNanoseconds := by
  simp only [laterRound,Go.bind_ok_iff,Go.ofExcept_eq_ok] at h
  obtain ⟨pending,_,⟨aggregates,memory⟩,heval,_,_,h⟩ := h
  simp only [Except.ok.injEq,Prod.mk.injEq] at h
  obtain ⟨rfl,rfl⟩ := h
  exact ⟨⟨aggregates,heval⟩,rfl,rfl⟩

section Selection
variable {judge : StreamContribution → FreshnessVerdict} {minContributions : ℕ}
  {contributions : List StreamContribution} {c : StreamContribution}

variable (h : c ∈ keptContributions judge minContributions contributions)
include h

lemma judge_of_mem_keptContributions : judge c ≠ .staleByTime := by
  unfold keptContributions at h
  dsimp only at h
  split_ifs at h
  · simp [of_decide_eq_true (mem_filter.1 h).2]
  · simp [of_decide_eq_true (mem_filter.1 h).2]
  · exact of_decide_eq_true (mem_filter.1 h).2

lemma fresh_lt_of_mem_keptContributions
    (hc : judge c ≠ .fresh) : (contributions.filter (fun c => judge c = .fresh)).length < minContributions := by
  unfold keptContributions at h
  dsimp only at h
  split_ifs at h with _ hfew
  · exact absurd (of_decide_eq_true (mem_filter.1 h).2) hc
  · exact absurd (of_decide_eq_true (mem_filter.1 h).2) hc
  · exact Nat.lt_of_not_le fun hle => hfew (.inl hle)

end Selection

variable {roundTs maxAge : ℕ} {window : List ℕ} {c : StreamContribution}
lemma judgeContribution_of_withinRounds {ts : ℕ}
    (hc : c.WithinRounds seqNr) (hts : agreedTimestampAt window seqNr c.cycleStartSeqNr = some ts) :
    judgeContribution seqNr roundTs window maxAge c =
      if 0 < maxAge ∧ ts < roundTs ∧ maxAge < roundTs - ts then .staleByTime else .fresh := by
  rw [judgeContribution,if_neg (by simpa [StreamContribution.WithinRounds] using hc),hts]

lemma judgeContribution_of_not_withinRounds
    (hc : ¬ c.WithinRounds seqNr) : judgeContribution seqNr roundTs window maxAge c = .staleByRounds := by
  rw [judgeContribution,if_pos]
  by_contra h
  exact hc (by simpa [StreamContribution.WithinRounds] using h)

lemma appendAgreedTimestamp_lastValues {f : ℕ → ℕ} {n : ℕ} (hn : 1 ≤ n) :
    appendAgreedTimestamp (lastValues f n (min (n - 1) agreedTimestampWindow)) (f (n + 1)) =
      lastValues f (n + 1) (min n agreedTimestampWindow) := by
  have hshift : ∀ k : ℕ, k ≤ agreedTimestampWindow → k + 1 - min (k + 1) agreedTimestampWindow =
      k - min k (agreedTimestampWindow - 1) := by
    simp only [agreedTimestampWindow]
    omega
  rw [appendAgreedTimestamp,length_lastValues,hshift _ (Nat.min_le_right _ _),
    drop_lastValues_append (by omega) (Nat.min_le_left _ _)]
  congr 1
  simp only [agreedTimestampWindow]
  omega

namespace Run
variable {I : Instance M} (run : Run I)
def agreedTimestamp (n : ℕ) : ℕ := (run.out n).observationTimestampNanoseconds

lemma recentAgreedTimestamps_one (hlen : 0 < run.len) : (run.state 1).recentAgreedTimestamps = [] := by
  have h := run.step_ok 0 hlen
  simp only [Step,stateTransition,firstRound,Nat.zero_add,Nat.le_refl,if_true] at h
  split_ifs at h
  · exact absurd h (Go.err_ne_ok _ _)
  · exact absurd h (Go.err_ne_ok _ _)
  all_goals rw [← (Prod.mk.inj (Except.ok.inj h)).1]

variable {n : ℕ}
lemma roundInput_of_decoded {obs : List Attributed} (hn : 1 ≤ n) (hlen : n < run.len)
    (hobs : run.Decoded n obs) :
    (run.state (n + 1)).recentAgreedTimestamps = (roundInput I (n + 1) (run.state n) obs).agreedTimestamps ∧
      run.agreedTimestamp (n + 1) = (roundInput I (n + 1) (run.state n) obs).observationTimestampNanoseconds := by
  obtain ⟨obs',hobs',hround⟩ := stateTransition_inv (by omega) (run.step_ok n hlen)
  cases Except.ok.inj (hobs.symm.trans hobs')
  exact (laterRound_evaluates hround).2

lemma recentAgreedTimestamps_eq (hn : 1 ≤ n) (hlen : n ≤ run.len) :
    (run.state n).recentAgreedTimestamps =
      lastValues run.agreedTimestamp n (min (n - 1) agreedTimestampWindow) := by
  refine run.invariant_from (m := 1) (P := fun n => (run.state n).recentAgreedTimestamps =
    lastValues run.agreedTimestamp n (min (n - 1) agreedTimestampWindow)) ?_ ?_ n hn hlen
  · exact run.recentAgreedTimestamps_one (by omega)
  · intro n hn hlen ih
    obtain ⟨obs,hobs,_⟩ := run.later_decoded hn hlen
    obtain ⟨hwindow,hts⟩ := run.roundInput_of_decoded hn hlen hobs
    have hagreed : (roundInput I (n + 1) (run.state n) obs).agreedTimestamps =
        appendAgreedTimestamp (run.state n).recentAgreedTimestamps (run.agreedTimestamp (n + 1)) := by
      rw [hts]
      rfl
    rw [hwindow,hagreed,ih,appendAgreedTimestamp_lastValues hn,Nat.add_sub_cancel]

lemma agreedTimestampAt_eq {s c : ℕ} (hlen : s ≤ run.len) (hc : 2 ≤ c)
    (hrecent : s - maxStreamValueAgeRounds ≤ c) (hcs : c ≤ s) :
    agreedTimestampAt (run.state s).recentAgreedTimestamps s c = some (run.agreedTimestamp c) := by
  simp only [maxStreamValueAgeRounds,snapshotReuseRounds] at hrecent
  have hlt : s - c < min (s - 1) agreedTimestampWindow := by
    simp only [agreedTimestampWindow]
    omega
  rw [run.recentAgreedTimestamps_eq (by omega) hlen,agreedTimestampAt,length_lastValues,if_neg (by omega),
    getElem?_lastValues (by omega) hlt]
  congr 2
  omega

/-- How a round judges the contributions of its observations, for a configured round
interval and number of contributions a stream needs. -/
structure JudgesFreshness (x : RoundInput) (configured minContributions : ℕ) : Prop where
  /-- The window holds the timestamp agreed in each recent round but the first. -/
  window : ∀ c, max 2 (x.seqNr - maxStreamValueAgeRounds) ≤ c → c ≤ x.seqNr →
    agreedTimestampAt x.agreedTimestamps x.seqNr c = some (run.agreedTimestamp c)
  /-- No recent contribution is stale for lack of its round's timestamp. -/
  in_window : ∀ c : StreamContribution, 2 ≤ c.cycleStartSeqNr → c.WithinRounds x.seqNr →
    x.verdict configured c ≠ .staleBeforeWindow
  /-- What is aggregated are the values of the kept contributions. -/
  values : ∀ sid, (x.freshValues configured minContributions).get? sid =
    (x.contributions.get? sid).map (fun cs => (x.kept configured minContributions cs).map StreamContribution.value)
  /-- A recent contribution that is older than the allowed number of round intervals is
  not kept. Ages are 64-bit numbers. -/
  in_time : ∀ cs c, c ∈ x.kept configured minContributions cs → 2 ≤ c.cycleStartSeqNr → c.WithinRounds x.seqNr →
    x.observationTimestampNanoseconds - run.agreedTimestamp c.cycleStartSeqNr < 2 ^ 64 →
    0 < x.roundInterval configured →
    x.observationTimestampNanoseconds - run.agreedTimestamp c.cycleStartSeqNr ≤
      maxStreamValueAgeRounds * x.roundInterval configured
  /-- Nor one that is older than the bound the round computes. -/
  in_computed_time : ∀ cs c, c ∈ x.kept configured minContributions cs → 2 ≤ c.cycleStartSeqNr →
    c.WithinRounds x.seqNr → 0 < maxStreamValueAge (x.roundInterval configured) →
    x.observationTimestampNanoseconds - run.agreedTimestamp c.cycleStartSeqNr ≤
      maxStreamValueAge (x.roundInterval configured)
  /-- Contributions from too many rounds ago are kept only when too few are fresh. -/
  fallback : ∀ cs c, c ∈ x.kept configured minContributions cs → ¬ c.WithinRounds x.seqNr →
    (cs.filter (fun c => x.verdict configured c = .fresh)).length < minContributions

/-- Every round after the first judges its contributions by the timestamps the run agreed
on in their rounds. -/
theorem judgesFreshness {n : ℕ} {obs : List Attributed} (hn : 1 ≤ n) (hlen : n < run.len)
    (hobs : run.Decoded n obs) (configured minContributions : ℕ) :
    run.JudgesFreshness (roundInput I (n + 1) (run.state n) obs) configured minContributions := by
  obtain ⟨hwindow,hts⟩ := run.roundInput_of_decoded hn hlen hobs
  set x := roundInput I (n + 1) (run.state n) obs
  have hseq : x.seqNr = n + 1 := rfl
  have hat : ∀ c, 2 ≤ c → x.seqNr - maxStreamValueAgeRounds ≤ c → c ≤ x.seqNr →
      agreedTimestampAt x.agreedTimestamps x.seqNr c = some (run.agreedTimestamp c) := by
    intro c hc hrecent hcs
    rw [← hwindow,hseq]
    exact run.agreedTimestampAt_eq hlen hc hrecent hcs
  have hverdict : ∀ c : StreamContribution, 2 ≤ c.cycleStartSeqNr → c.WithinRounds x.seqNr →
      x.verdict configured c = if 0 < maxStreamValueAge (x.roundInterval configured) ∧
        run.agreedTimestamp c.cycleStartSeqNr < x.observationTimestampNanoseconds ∧
        maxStreamValueAge (x.roundInterval configured) <
          x.observationTimestampNanoseconds - run.agreedTimestamp c.cycleStartSeqNr
        then .staleByTime else .fresh := by
    intro c hc hrounds
    exact judgeContribution_of_withinRounds hrounds
      (hat _ hc (by have := hrounds.2; omega) hrounds.1)
  have hcomputed : ∀ cs c, c ∈ x.kept configured minContributions cs → 2 ≤ c.cycleStartSeqNr →
      c.WithinRounds x.seqNr → 0 < maxStreamValueAge (x.roundInterval configured) →
      x.observationTimestampNanoseconds - run.agreedTimestamp c.cycleStartSeqNr ≤
        maxStreamValueAge (x.roundInterval configured) := by
    intro cs c hkept hc hrounds hpos
    by_contra hold
    refine judge_of_mem_keptContributions hkept ?_
    rw [hverdict c hc hrounds,if_pos ⟨hpos,by omega,by omega⟩]
  refine ⟨?_,?_,?_,?_,hcomputed,?_⟩
  · intro c hc hcs
    exact hat c (by omega) (by omega) hcs
  · intro c hc hrounds
    rw [hverdict c hc hrounds]
    split_ifs <;> nofun
  · intro sid
    exact SortedMap.get?_mapVal _ _ _
  · intro cs c hkept hc hrounds hage hinterval
    by_contra hold
    -- An age beyond the bound leaves no room for the product to wrap.
    have hexact : maxStreamValueAge (x.roundInterval configured) =
        maxStreamValueAgeRounds * x.roundInterval configured := Nat.mod_eq_of_lt (by omega)
    have hpos : 0 < maxStreamValueAge (x.roundInterval configured) := by
      rw [hexact]
      exact Nat.mul_pos (by decide) hinterval
    exact hold (hexact ▸ hcomputed cs c hkept hc hrounds hpos)
  · intro cs c hkept hrounds
    refine fresh_lt_of_mem_keptContributions hkept ?_
    rw [RoundInput.verdict,judgeContribution_of_not_withinRounds hrounds]
    nofun

end Run

/-- Round 5 reads the timestamps of rounds 2 to 5, and the values gathered in round 5. -/
theorem judgesFreshness_coverageRun :
    (coverageRun.state 5).recentAgreedTimestamps = [100,200,300,400] ∧ ∃ obs, coverageRun.Decoded 4 obs ∧
      coverageRun.JudgesFreshness (roundInput coverageInstance 5 (coverageRun.state 4) obs) 50 3 := by
  obtain ⟨obs,hobs,_⟩ := coverageRun.later_decoded (n := 4) (by decide) (by decide)
  exact ⟨by decide +kernel,obs,hobs,coverageRun.judgesFreshness (by decide) (by decide) hobs 50 3⟩

end DataStreams.V31
