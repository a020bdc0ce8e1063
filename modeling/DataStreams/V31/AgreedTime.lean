import DataStreams.Foundation.Rank
import DataStreams.V31.Coverage

/-! The agreed timestamp of a round lies in the range of the correct clocks or is the one before
it (v31). -/
namespace DataStreams.V31
open List

lemma timestampsNanoseconds_count (cfg : Config) (L : Libs) (t : ObservationTally) (ao : Attributed) :
    (t.count cfg L ao).timestampsNanoseconds =
      t.timestampsNanoseconds ++ [ao.2.observationTimestampNanoseconds] := by
  unfold ObservationTally.count ObservationTally.countPredecessor
  dsimp only
  split_ifs <;> rfl

lemma timestampsNanoseconds_ofObservations (cfg : Config) (L : Libs) (obs : List Attributed) :
    (ObservationTally.ofObservations cfg L obs).timestampsNanoseconds =
      obs.map (fun ao => ao.2.observationTimestampNanoseconds) := by
  suffices h : ∀ t : ObservationTally, (obs.foldl (ObservationTally.count cfg L) t).timestampsNanoseconds =
      t.timestampsNanoseconds ++ obs.map (fun ao => ao.2.observationTimestampNanoseconds) by
    rw [ObservationTally.ofObservations,h]
    rfl
  -- the tally takes the observations one by one
  induction obs with
  | nil => simp
  | cons ao obs ih =>
    intro t
    rw [foldl_cons,ih,timestampsNanoseconds_count,map_cons,append_assoc,singleton_append]

lemma medianTimestamp_between {timestamps correct faulty : List ℕ} {t : ℕ}
    (hperm : timestamps.Perm (correct ++ faulty)) (hfaulty : faulty.length ≤ t)
    (hlen : 2 * t + 1 ≤ timestamps.length) :
    (∃ a ∈ correct, a ≤ medianTimestamp timestamps) ∧ ∃ a ∈ correct, medianTimestamp timestamps ≤ a := by
  have hsort := perm_insertionSort (· ≤ ·) timestamps
  obtain ⟨m,hm,hrange⟩ := Rank.between_correct (f := id) (hsort.trans hperm) hfaulty
    (hlen.trans_eq hsort.length_eq.symm) (pairwise_insertionSort (· ≤ ·) timestamps)
  have hmedian : medianTimestamp timestamps = m := by
    rw [medianTimestamp,getD_eq_getElem?_getD,← hsort.length_eq,hm]
    rfl
  rw [hmedian]
  exact hrange

variable {M : Type} {I : Instance M}
/-- In every round after the first, at least `2 * f + 1` observations arrive and at most `f`
of them from oracles that are faulty in the round. -/
structure Run.FewFaulty (run : Run I) (faulty : ℕ → OracleID → Bool) : Prop where
  enough : ∀ n obs, 1 ≤ n → n < run.len → run.Decoded n obs → 2 * I.config.f + 1 ≤ obs.length
  few : ∀ n obs, 1 ≤ n → n < run.len → run.Decoded n obs →
    (obs.filter (fun ao => faulty (n + 1) ao.1)).length ≤ I.config.f

def Run.CorrectClock (run : Run I) (faulty : ℕ → OracleID → Bool) (n ts : ℕ) : Prop :=
  ∃ obs, run.Decoded (n - 1) obs ∧ ∃ ao ∈ obs, faulty n ao.1 = false ∧ ao.2.observationTimestampNanoseconds = ts

namespace Run
variable {run : Run I} {faulty : ℕ → OracleID → Bool}
variable {n : ℕ} {obs : List Attributed}
/-- More than `3 * f` oracles have a quorum that leaves `2 * f + 1` observations. -/
lemma length_of_decoded (hconfig : 3 * I.config.f < I.config.n) (hlen : n < run.len) (hobs : run.Decoded n obs) :
    2 * I.config.f + 1 ≤ obs.length := by
  have hstep : stateTransition I _ _ _ _ = .ok _ := run.step_ok n hlen
  rw [stateTransition] at hstep
  rw [Go.length_mapM_ok hobs]
  split_ifs at hstep with hquorum
  · exact absurd hstep (Go.err_ne_ok _ _)
  · exact (I.byzQuorum.le_size hconfig).trans (not_lt.1 hquorum)
  · exact (I.byzQuorum.le_size hconfig).trans (not_lt.1 hquorum)

/-- The median timestamp lies between two correct clocks. -/
lemma FewFaulty.median_between (h : run.FewFaulty faulty) (hn : 1 ≤ n)
    (hlen : n < run.len) (hobs : run.Decoded n obs) :
    (∃ ts, run.CorrectClock faulty (n + 1) ts ∧
      ts ≤ medianTimestamp (obs.map (fun ao => ao.2.observationTimestampNanoseconds))) ∧
    ∃ ts, run.CorrectClock faulty (n + 1) ts ∧
      medianTimestamp (obs.map (fun ao => ao.2.observationTimestampNanoseconds)) ≤ ts := by
  have hperm : (obs.map (fun ao => ao.2.observationTimestampNanoseconds)).Perm
      ((obs.filter (fun ao => !faulty (n + 1) ao.1)).map (fun ao => ao.2.observationTimestampNanoseconds) ++
        (obs.filter (fun ao => faulty (n + 1) ao.1)).map (fun ao => ao.2.observationTimestampNanoseconds)) := by
    rw [← map_append]
    apply List.Perm.map
    exact (filter_append_perm (fun ao => faulty (n + 1) ao.1) obs).symm.trans perm_append_comm
  have hclock : ∀ ts ∈ (obs.filter (fun ao => !faulty (n + 1) ao.1)).map
      (fun ao => ao.2.observationTimestampNanoseconds), run.CorrectClock faulty (n + 1) ts := by
    intro ts hts
    obtain ⟨ao,hao,rfl⟩ := mem_map.1 hts
    rw [mem_filter,Bool.not_eq_true'] at hao
    exact ⟨obs,hobs,ao,hao.1,hao.2,rfl⟩
  obtain ⟨⟨lo,hlo,hle⟩,hi,hhi,hge⟩ := medianTimestamp_between (t := I.config.f) hperm
    (by rw [length_map]; exact h.few n obs hn hlen hobs)
    (by rw [length_map]; exact h.enough n obs hn hlen hobs)
  exact ⟨⟨lo,hclock lo hlo,hle⟩,hi,hclock hi hhi,hge⟩

lemma agreed_eq (hn : 1 ≤ n) (hlen : n < run.len) (hobs : run.Decoded n obs) :
    (run.out (n + 1)).observationTimestampNanoseconds =
      agreedObservationTimestamp (obs.map (fun ao => ao.2.observationTimestampNanoseconds))
        (run.out n).observationTimestampNanoseconds := by
  obtain ⟨obs',hobs',hround,_⟩ := run.later_decoded hn hlen
  cases Except.ok.inj (hobs.symm.trans hobs')
  rw [hround.obsTs,← (run.state_eq_out hn hlen.le).2.1,← timestampsNanoseconds_ofObservations]
  rfl

/-- Agreed time never goes back, is at least some correct clock of its round, and at most
some correct clock of its round or an earlier one. -/
structure HonestTime (run : Run I) (faulty : ℕ → OracleID → Bool) : Prop where
  monotone : ∀ m n, 1 ≤ m → m ≤ n → n ≤ run.len →
    (run.out m).observationTimestampNanoseconds ≤ (run.out n).observationTimestampNanoseconds
  lower : ∀ n, 2 ≤ n → n ≤ run.len →
    ∃ ts, run.CorrectClock faulty n ts ∧ ts ≤ (run.out n).observationTimestampNanoseconds
  upper : ∀ n, 2 ≤ n → n ≤ run.len →
    ∃ m ts, 2 ≤ m ∧ m ≤ n ∧ run.CorrectClock faulty m ts ∧ (run.out n).observationTimestampNanoseconds ≤ ts

/-- Faulty oracles, at most `f` among at least `2 * f + 1`, neither move time back nor push
it beyond every correct clock. -/
theorem FewFaulty.honestTime (h : run.FewFaulty faulty) : run.HonestTime faulty := by
  refine ⟨?_,?_,?_⟩
  · intro m n hm hmn hn
    rw [← (run.state_eq_out hm (hmn.trans hn)).2.1,← (run.state_eq_out (hm.trans hmn) hn).2.1]
    exact run.obsTs_mono hm hmn hn
  · intro n hn hlen
    obtain ⟨n,rfl⟩ := Nat.exists_eq_add_of_le' (show 1 ≤ n by omega)
    obtain ⟨obs,hobs,_⟩ := run.later_decoded (by omega) hlen
    obtain ⟨⟨ts,hts,hle⟩,_⟩ := h.median_between (by omega) hlen hobs
    refine ⟨ts,hts,hle.trans ?_⟩
    rw [agreed_eq (by omega) hlen hobs,agreedObservationTimestamp]
    split_ifs with hlt
    · exact hlt.le
    · exact le_rfl
  · intro n hn
    -- the floor is the agreed timestamp of the round before, which has such a clock already
    induction n, hn using Nat.le_induction with
    | base =>
      intro hlen
      obtain ⟨obs,hobs,_⟩ := run.later_decoded (by omega) hlen
      obtain ⟨_,ts,hts,hle⟩ := h.median_between (by omega) hlen hobs
      refine ⟨2,ts,le_rfl,le_rfl,hts,?_⟩
      have hzero := (run.first (by omega)).2.2.2.2.2.2.2.1
      rw [agreed_eq (by omega) hlen hobs,hzero,agreedObservationTimestamp,if_neg (Nat.not_lt_zero _)]
      exact hle
    | succ n hn ih =>
      intro hlen
      obtain ⟨obs,hobs,_⟩ := run.later_decoded (by omega) hlen
      obtain ⟨_,ts,hts,hle⟩ := h.median_between (by omega) hlen hobs
      rw [agreed_eq (by omega) hlen hobs,agreedObservationTimestamp]
      split_ifs with hlt
      · obtain ⟨m,ts',hm,hmn,hclock,hle'⟩ := ih (by omega)
        exact ⟨m,ts',hm,hmn.trans (Nat.le_succ n),hclock,hle'⟩
      · exact ⟨n + 1,ts,by omega,le_rfl,hts,hle⟩

end Run

/-- Oracle 2 is faulty in every round. -/
theorem honestTime_coverageRun :
    coverageRun.HonestTime (fun _ id => id = 2) ∧ (coverageRun.out 5).observationTimestampNanoseconds = 400 := by
  have hdecoded : ∀ n ∈ [1,2,3,4], (decodeObservations coverageInstance priceFetcher (n + 1)
      (coverageObservations (n + 1))).toOption.map (fun obs => obs.map Prod.fst) = some [0,1,2] := by decide +kernel
  have hobs : ∀ n obs, 1 ≤ n → n < coverageRun.len → coverageRun.Decoded n obs → obs.map Prod.fst = [0,1,2] := by
    intro n obs hn hlen hobs
    have hn4 : n < 5 := hlen
    have hmem : n ∈ [1,2,3,4] := by
      simp only [mem_cons,not_mem_nil,or_false]
      omega
    have heq := hdecoded n hmem
    rw [show decodeObservations coverageInstance priceFetcher (n + 1) (coverageObservations (n + 1)) = .ok obs from hobs]
      at heq
    exact Option.some.inj heq
  refine ⟨Run.FewFaulty.honestTime ⟨?_,?_⟩,by decide +kernel⟩
  · exact fun n obs _ => Run.length_of_decoded (by decide)
  · intro n obs hn hlen hdec
    have hmap : (obs.filter (fun ao => ao.1 = 2)).map Prod.fst = (obs.map Prod.fst).filter (fun id => id = 2) := by
      rw [filter_map]
      rfl
    rw [← length_map,hmap,hobs n obs hn hlen hdec]
    decide

end DataStreams.V31
