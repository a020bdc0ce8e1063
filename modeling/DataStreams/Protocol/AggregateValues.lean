import DataStreams.Protocol.AggregateOrder

/-! Aggregates of decoded contributions are within the limits of decoding themselves. -/
namespace DataStreams
open List Go Option
variable {S : SliceSort} {W : WireLibs} {decimal : DecimalEncoder} {values : List (Option StreamValue)}
  {minContributions : ℕ} {v : StreamValue}

lemma mem_of_index_sort {α : Type} {less : α → α → Bool} {xs : List α} {i : ℕ} {a : α}
    (h : Go.index (S.sort less xs) i = .ok a) : a ∈ xs := by
  unfold Go.index at h
  split at h
  · next b hb =>
    cases h
    exact (S.perm less xs).mem_iff.1 (mem_of_getElem? hb)
  · exact absurd h (panics_ne_ok _ _)

lemma StreamValue.Decodable.number {d : Decimal} (hv : v.Decodable) (h : v.number = some d) : d.ExponentInRange := by
  cases v with
  | decimal d' =>
    cases h
    exact hv.inRange
  | quote q =>
    cases h
    exact hv.inRange.2.1
  | timestamped t v => cases h

lemma StreamValue.Decodable.timestampedDecimal {t : ℕ} {d : Decimal} (hv : v.Decodable)
    (h : v.timestampedDecimal = some (t,d)) : t < 2 ^ 64 ∧ d.ExponentInRange := by
  unfold StreamValue.timestampedDecimal at h
  split at h
  · cases h
    exact ⟨hv.inRange.1,hv.inRange.2⟩
  · cases h

lemma StreamValue.Decodable.observedAt_lt (hv : v.Decodable) : v.observedAt < 2 ^ 64 := by
  cases v with
  | decimal d => exact Nat.two_pow_pos 64
  | quote q => exact Nat.two_pow_pos 64
  | timestamped t v => exact hv.inRange.1

variable (hall : ∀ v, some v ∈ values → v.Decodable)
include hall

lemma decodable_medianOfNumbers (h : medianOfNumbers S values minContributions = .ok (some v)) :
    ∃ d, v = .decimal d ∧ d.ExponentInRange := by
  unfold medianOfNumbers at h
  dsimp only at h
  split_ifs at h
  · exact absurd h (err_ne_ok _ _)
  obtain ⟨d,hd,⟨⟩⟩ := bind_ok_iff.1 h
  refine ⟨d,rfl,?_⟩
  obtain ⟨w,hw,hnumber⟩ := mem_filterMap.1 (mem_of_index_sort hd)
  obtain ⟨u,rfl,hu⟩ := bind_eq_some_iff.1 hnumber
  exact (hall u hw).number hu

lemma decodable_of_mem_bucket (h : v ∈ (mostCommonType values).2) : v.Decodable := by
  rw [mostCommonType_snd_eq] at h
  exact hall v (mem_contributionsOf.1 h).1

/-- A median can be stored and read back. -/
lemma decodable_medianAggregatorV31 (h : medianAggregatorV31 S values minContributions = .ok (some v)) : v.Decodable := by
  have hnumbers : medianOfNumbers S values minContributions = .ok (some v) → v.Decodable := by
    intro h
    obtain ⟨d,rfl,hd⟩ := decodable_medianOfNumbers hall h
    exact StreamValue.decodable_decimal.2 hd
  have hbucket := fun v => @decodable_of_mem_bucket values v hall
  unfold medianAggregatorV31 medianAggregator at h
  generalize mostCommonType values = common at h hbucket
  obtain ⟨type,bucket⟩ := common
  cases type with
  | decimal => exact hnumbers h
  | quote => exact hnumbers h
  | other code => exact absurd h (err_ne_ok _ _)
  | timestamped =>
    obtain ⟨r,hr,h⟩ := bind_ok_iff.1 h
    cases r with
    | none => cases h
    | some median =>
      obtain ⟨t,ht,⟨⟩⟩ := bind_ok_iff.1 h
      -- the numbers and the timestamps are those of the timestamped decimals in the bucket
      obtain ⟨d,rfl,hd⟩ := decodable_medianOfNumbers (fun w hw => by
        obtain ⟨u,hu,hsome⟩ := mem_filterMap.1 hw
        obtain ⟨e,he,⟨⟩⟩ := map_eq_some_iff.1 hsome
        exact StreamValue.decodable_decimal.2 ((hbucket u hu).timestampedDecimal he).2) hr
      have hstamp := mem_of_index_sort ht
      rw [medianTimestamps_v31] at hstamp
      obtain ⟨u,hu,hsome⟩ := mem_filterMap.1 hstamp
      obtain ⟨e,he,rfl⟩ := map_eq_some_iff.1 hsome
      exact ⟨⟨((hbucket u hu).timestampedDecimal he).1,hd⟩,show 1 ≤ maxStreamValueNesting by decide⟩

/-- So can a mode. -/
lemma decodable_modeAggregator (hW : W.ReadsValues decimal)
    (h : modeAggregator S W decimal values minContributions = .ok (some v)) (hmin : 1 ≤ minContributions) : v.Decodable := by
  rw [modeAggregator_eq] at h
  obtain ⟨ballots,hballots,h⟩ := bind_ok_iff.1 h
  have hballots := ofExcept_eq_ok.1 hballots
  have hstamps : ∀ b t, t ∈ ModeVotes.stamps ballots b → t < 2 ^ 64 := by
    intro b t ht
    obtain ⟨ballot,hballot,rfl⟩ := mem_map.1 ht
    obtain ⟨u,hu,hcast⟩ := (mapM_ok hballots).2 ballot (mem_of_mem_filter hballot)
    obtain ⟨_,_,⟨⟩⟩ := bind_ok_iff.1 hcast
    exact (decodable_of_mem_bucket hall hu).observedAt_lt
  obtain ⟨_,hwin⟩ := ModeVotes.winner_foldl_record ballots
  unfold modeOfBallots at h
  generalize ModeVotes.winner (ballots.foldl ModeVotes.record ∅) = r at h hwin
  dsimp only at h hwin
  split_ifs at h with hfew hempty
  · exact absurd h (err_ne_ok _ _)
  · cases h
  · obtain ⟨u,hu,h⟩ := bind_ok_iff.1 h
    have hdecodable := decodable_of_unmarshalProtoStreamValue hW (ofExcept_eq_ok.1 hu)
    cases u with
    | decimal d =>
      cases h
      exact hdecodable
    | quote q =>
      cases h
      exact hdecodable
    | timestamped t₀ u =>
      obtain ⟨t,ht,⟨⟩⟩ := bind_ok_iff.1 h
      have hne : r.2 ≠ [] := length_pos_iff.1 (by omega)
      have hmem := mem_of_index_sort ht
      rw [(hwin hne).1] at hmem
      exact ⟨⟨hstamps _ _ hmem,hdecodable.inRange.2⟩,hdecodable.nesting_le⟩

/-- So can a quote. -/
lemma decodable_quoteAggregator (h : quoteAggregator S values minContributions = .ok (some v)) : v.Decodable := by
  have hquote : ∀ q ∈ values.filterMap validQuote, StreamValue.Decodable (.quote q) := by
    intro q hq
    obtain ⟨w,hw,hvalid⟩ := mem_filterMap.1 hq
    unfold validQuote at hvalid
    split at hvalid
    · split_ifs at hvalid
      cases hvalid
      exact hall _ hw
    · cases hvalid
  unfold quoteAggregator at h
  dsimp only at h
  split_ifs at h
  · exact absurd h (err_ne_ok _ _)
  obtain ⟨benchmark,hbenchmark,h⟩ := bind_ok_iff.1 h
  obtain ⟨bid,hbid,h⟩ := bind_ok_iff.1 h
  obtain ⟨ask,hask,⟨⟩⟩ := bind_ok_iff.1 h
  have hbenchmark := mem_of_index_sort hbenchmark
  have hbid := (S.perm _ _).mem_iff.1 (mem_of_index_sort hbid)
  have hask := (S.perm _ _).mem_iff.1 ((S.perm _ _).mem_iff.1 (mem_of_index_sort hask))
  exact StreamValue.decodable_quote.2 ⟨(StreamValue.decodable_quote.1 (hquote _ hbid)).1,
    (StreamValue.decodable_quote.1 (hquote _ hbenchmark)).2.1,(StreamValue.decodable_quote.1 (hquote _ hask)).2.2⟩

lemma decodable_of_aggregator (hW : W.ReadsValues decimal) {a : Aggregator} {aggF : AggregatorFunc}
    (haggF : getAggregatorFuncV31 S W decimal a = some aggF) (hmin : 1 ≤ minContributions)
    (h : aggF values minContributions = .ok (some v)) : v.Decodable := by
  unfold getAggregatorFuncV31 getAggregatorFunc at haggF
  split_ifs at haggF with ha
  · cases haggF
    exact decodable_medianAggregatorV31 hall h
  · cases a with
    | median => exact absurd rfl ha
    | mode =>
      cases haggF
      exact decodable_modeAggregator hall hW h hmin
    | quote =>
      cases haggF
      exact decodable_quoteAggregator hall h
    | unset => cases haggF
    | calculated => cases haggF
    | other code => cases haggF

end DataStreams
