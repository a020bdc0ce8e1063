import DataStreams.Protocol.AggregateRange
import DataStreams.Protocol.ModeAgreement

/-! Aggregates do not depend on the order of the contributions, nor on how a sort leaves equal
items. -/
namespace DataStreams
open List Go

/-- The same type, the same numbers and the same timestamps. -/
def StreamValue.Alike : StreamValue → StreamValue → Prop
  | .decimal a,.decimal b => a.toRat = b.toRat
  | .quote p,.quote q =>
    p.bid.toRat = q.bid.toRat ∧ p.benchmark.toRat = q.benchmark.toRat ∧ p.ask.toRat = q.ask.toRat
  | .timestamped t v,.timestamped t' w => t = t' ∧ Alike v w
  | _,_ => False

lemma StreamValue.Alike.refl (v : StreamValue) : v.Alike v := by
  induction v with
  | decimal d => exact rfl
  | quote q => exact ⟨rfl,rfl,rfl⟩
  | timestamped t v ih => exact ⟨rfl,ih⟩

inductive SameResult : Go (Option StreamValue) → Go (Option StreamValue) → Prop
  | failed (e e' : String) : SameResult (.error (.error e)) (.error (.error e'))
  | nothing : SameResult (.ok none) (.ok none)
  | value {v v'} : v.Alike v' → SameResult (.ok (some v)) (.ok (some v'))

variable {α β : Type} [LinearOrder β] (S S' : SliceSort) {less : α → α → Bool} {xs ys : List α}
lemma index_middle_perm (key : α → β) (hless : ∀ a b, less a b = true ↔ key a < key b) (hperm : xs.Perm ys) (hne : xs ≠ []) :
    ∃ a b, Go.index (S.sort less xs) (xs.length / 2) = .ok a ∧ Go.index (S'.sort less ys) (ys.length / 2) = .ok b ∧
      key a = key b := by
  have hx := S.perm less xs
  have hy := S'.perm less ys
  have hpos := length_pos_iff.2 hne
  have hkx : xs.length / 2 < (S.sort less xs).length := by
    rw [hx.length_eq]
    omega
  have hky : xs.length / 2 < (S'.sort less ys).length := by
    rw [hy.length_eq,← hperm.length_eq]
    omega
  refine ⟨_,_,index_eq_ok hkx,by rw [← hperm.length_eq]; exact index_eq_ok hky,?_⟩
  have hsx := S.sorted_by key hless xs
  have hsy := S'.sorted_by key hless ys
  apply le_antisymm
  · exact Rank.rank_le_rank hx (hy.trans hperm.symm) hsx hsy (fun a _ => le_rfl) hkx hky
  · exact Rank.rank_le_rank (hy.trans hperm.symm) hx hsy hsx (fun a _ => le_rfl) hky hkx

lemma index_middle_stamps {ts ts' : List ℕ} (hperm : ts.Perm ts') (hne : ts ≠ []) :
    ∃ t, Go.index (S.sort (fun a b => a < b) ts) (ts.length / 2) = .ok t ∧
      Go.index (S'.sort (fun a b => a < b) ts') (ts'.length / 2) = .ok t := by
  obtain ⟨t,t',ht,ht',hsame⟩ := index_middle_perm S S' id (fun a b => decide_eq_true_iff) hperm hne
  cases hsame
  exact ⟨t,ht,ht'⟩

variable {S S' : SliceSort} {values values' : List (Option StreamValue)} {minContributions : ℕ}
lemma mostCommonType_perm (h : values.Perm values') :
    (mostCommonType values).1 = (mostCommonType values').1 ∧ (mostCommonType values).2.Perm (mostCommonType values').2 := by
  have hperm := h.filterMap id
  have htype : (mostCommonType values).1 = (mostCommonType values').1 :=
    ((isMostCommon_mostCommonType values).perm hperm).unique (isMostCommon_mostCommonType values')
  refine ⟨htype,?_⟩
  rw [mostCommonType_snd,mostCommonType_snd,htype]
  exact hperm.filter _

lemma medianOfNumbers_perm (S S' : SliceSort) (h : values.Perm values') (hmin : 1 ≤ minContributions) :
    (∃ e e', medianOfNumbers S values minContributions = Go.err e ∧ medianOfNumbers S' values' minContributions = Go.err e') ∨
      ∃ d d', medianOfNumbers S values minContributions = .ok (some (.decimal d)) ∧
        medianOfNumbers S' values' minContributions = .ok (some (.decimal d')) ∧ d.toRat = d'.toRat ∧
        minContributions ≤ (values.filterMap (fun v => v.bind StreamValue.number)).length := by
  have hperm := h.filterMap (fun v => v.bind StreamValue.number)
  unfold medianOfNumbers
  dsimp only
  rw [← hperm.length_eq]
  split_ifs with hfew
  · exact .inl ⟨_,_,rfl,rfl⟩
  · right
    have hne : values.filterMap (fun v => v.bind StreamValue.number) ≠ [] := length_pos_iff.1 (by omega)
    obtain ⟨d,d',hd,hd',heq⟩ := index_middle_perm S S' Decimal.toRat (fun a b => Decimal.lt_iff_toRat_lt) hperm hne
    rw [← hperm.length_eq] at hd'
    exact ⟨d,d',by rw [hd]; rfl,by rw [hd']; rfl,heq,not_lt.1 hfew⟩

lemma length_counted_le_medianTimestamps (countSkippedTimestamps : Bool) (bucket : List StreamValue) :
    (bucket.filterMap StreamValue.timestampedDecimal).length ≤ (medianTimestamps countSkippedTimestamps bucket).length := by
  rw [medianTimestamps,length_filterMap_eq_countP,length_filterMap_eq_countP]
  apply countP_mono_left
  intro v _ hv
  obtain ⟨e,he⟩ := Option.isSome_iff_exists.1 hv
  rw [he]
  rfl

/-- The median does not depend on the order of the values, nor on the sort. -/
lemma medianAggregator_perm (S S' : SliceSort) (countSkippedTimestamps : Bool) (h : values.Perm values')
    (hmin : 1 ≤ minContributions) : SameResult (medianAggregator S countSkippedTimestamps values minContributions)
      (medianAggregator S' countSkippedTimestamps values' minContributions) := by
  obtain ⟨htype,hbucket⟩ := mostCommonType_perm h
  have hnumbers : SameResult (medianOfNumbers S values minContributions) (medianOfNumbers S' values' minContributions) := by
    rcases medianOfNumbers_perm S S' h hmin with ⟨e,e',he,he'⟩ | ⟨d,d',hd,hd',heq,_⟩
    · rw [he,he']
      exact .failed e e'
    · rw [hd,hd']
      exact .value heq
  unfold medianAggregator
  generalize mostCommonType values = common at htype hbucket ⊢
  generalize mostCommonType values' = common' at htype hbucket ⊢
  obtain ⟨type,bucket⟩ := common
  obtain ⟨type',bucket'⟩ := common'
  dsimp only at htype hbucket
  subst htype
  cases type with
  | decimal => exact hnumbers
  | quote => exact hnumbers
  | other code => exact .failed _ _
  | timestamped =>
    have hinner := hbucket.filterMap (fun v => v.timestampedDecimal.map (fun e => some (StreamValue.decimal e.2)))
    have hstamps : (medianTimestamps countSkippedTimestamps bucket).Perm (medianTimestamps countSkippedTimestamps bucket') :=
      hbucket.filterMap _
    dsimp only
    rcases medianOfNumbers_perm S S' hinner hmin with ⟨e,e',he,he'⟩ | ⟨d,d',hd,hd',heq,hlen⟩
    · rw [he,he']
      exact .failed e e'
    · rw [hd,hd']
      have hne : medianTimestamps countSkippedTimestamps bucket ≠ [] := by
        apply length_pos_iff.1
        refine lt_of_lt_of_le (lt_of_lt_of_le hmin hlen) ?_
        refine (length_filterMap_le _ _).trans ?_
        rw [← map_filterMap,length_map]
        exact length_counted_le_medianTimestamps countSkippedTimestamps bucket
      obtain ⟨t,ht,ht'⟩ := index_middle_stamps S S' hstamps hne
      simp only [ok_bind,ht,ht']
      exact .value ⟨rfl,heq⟩

variable {ballots ballots' : List (Bytes × ℕ)}
lemma stamps_perm (h : ballots.Perm ballots') (b : Bytes) :
    (ModeVotes.stamps ballots b).Perm (ModeVotes.stamps ballots' b) :=
  (h.filter _).map _

/-- The winner of the ballots does not depend on their order. -/
lemma winner_perm (h : ballots.Perm ballots') :
    let r := ModeVotes.winner (ballots.foldl ModeVotes.record ∅)
    let r' := ModeVotes.winner (ballots'.foldl ModeVotes.record ∅)
    r.2.length = r'.2.length ∧ (r.2 ≠ [] → r.1 = r'.1 ∧ r.2.Perm r'.2) := by
  intro r r'
  obtain ⟨hmost,hwin⟩ := ModeVotes.winner_foldl_record ballots
  obtain ⟨hmost',hwin'⟩ := ModeVotes.winner_foldl_record ballots'
  change ∀ b, _ ≤ r.2.length at hmost
  change ∀ b, _ ≤ r'.2.length at hmost'
  change r.2 ≠ [] → r.2 = ModeVotes.stamps ballots r.1 ∧ _ at hwin
  change r'.2 ≠ [] → r'.2 = ModeVotes.stamps ballots' r'.1 ∧ _ at hwin'
  have hle : r.2.length ≤ r'.2.length := by
    by_cases hnil : r.2 = []
    · rw [hnil]
      exact Nat.zero_le _
    · rw [(hwin hnil).1,(stamps_perm h _).length_eq]
      exact hmost' _
  have hge : r'.2.length ≤ r.2.length := by
    by_cases hnil : r'.2 = []
    · rw [hnil]
      exact Nat.zero_le _
    · rw [(hwin' hnil).1,← (stamps_perm h _).length_eq]
      exact hmost _
  have hlen := le_antisymm hle hge
  refine ⟨hlen,?_⟩
  intro hne
  have hne' : r'.2 ≠ [] := by
    rw [← length_pos_iff,← hlen]
    exact length_pos_iff.2 hne
  obtain ⟨hstamps,hlow⟩ := hwin hne
  obtain ⟨hstamps',hlow'⟩ := hwin' hne'
  have hkey : r.1 = r'.1 := by
    apply ModeVotes.key_injective
    apply le_antisymm
    · exact hlow r'.1 (by rw [(stamps_perm h _).length_eq,← hstamps',hlen])
    · exact hlow' r.1 (by rw [← (stamps_perm h _).length_eq,← hstamps,hlen])
  refine ⟨hkey,?_⟩
  rw [hstamps,hstamps',hkey]
  exact stamps_perm h _

lemma modeOfBallots_perm (S S' : SliceSort) (W : WireLibs) (type : StreamValueType)
    (h : ballots.Perm ballots') (hmin : 1 ≤ minContributions) :
    SameResult (modeOfBallots S W type ballots minContributions) (modeOfBallots S' W type ballots' minContributions) := by
  obtain ⟨hlen,hwin⟩ := winner_perm h
  unfold modeOfBallots
  generalize ModeVotes.winner (ballots.foldl ModeVotes.record ∅) = r at hlen hwin
  generalize ModeVotes.winner (ballots'.foldl ModeVotes.record ∅) = r' at hlen hwin
  dsimp only at hlen hwin ⊢
  rw [← hlen]
  split_ifs with hfew hempty hempty' hempty'
  · exact .failed _ _
  · exact .nothing
  · have hne : r.2 ≠ [] := length_pos_iff.1 (by omega)
    exact absurd ((hwin hne).1.symm.trans hempty) hempty'
  · have hne : r.2 ≠ [] := length_pos_iff.1 (by omega)
    exact absurd ((hwin hne).1.trans hempty') hempty
  · have hne : r.2 ≠ [] := length_pos_iff.1 (by omega)
    obtain ⟨hbytes,hstamps⟩ := hwin hne
    rw [← hbytes]
    obtain ⟨t,ht,ht'⟩ := index_middle_stamps S S' hstamps hne
    rw [← hstamps.length_eq] at ht'
    cases unmarshalProtoStreamValue W (some ⟨type,r.1⟩) with
    | error e => exact .failed e e
    | ok v =>
      cases v with
      | decimal d => exact .value (.refl _)
      | quote q => exact .value (.refl _)
      | timestamped t₀ v =>
        simp only [Go.ofExcept,ok_bind,ht,ht']
        exact .value ⟨rfl,.refl v⟩

lemma modeAggregator_perm (S S' : SliceSort) (W : WireLibs) (decimal : DecimalEncoder)
    (h : values.Perm values') (hmin : 1 ≤ minContributions) :
    SameResult (modeAggregator S W decimal values minContributions) (modeAggregator S' W decimal values' minContributions) := by
  obtain ⟨htype,hbucket⟩ := mostCommonType_perm h
  rw [modeAggregator_eq,modeAggregator_eq,htype]
  cases hballots : (mostCommonType values).2.mapM (modeBallot decimal) with
  | ok ballots =>
    obtain ⟨ballots',hballots',hperm⟩ := mapM_perm hbucket hballots
    rw [hballots']
    exact modeOfBallots_perm S S' W _ hperm hmin
  | error e =>
    cases hballots' : (mostCommonType values').2.mapM (modeBallot decimal) with
    | error e' => exact .failed e e'
    | ok ballots' =>
      obtain ⟨ballots,hback,_⟩ := mapM_perm hbucket.symm hballots'
      cases hballots.symm.trans hback

lemma quoteAggregator_perm (S S' : SliceSort) (h : values.Perm values') (hmin : 1 ≤ minContributions) :
    SameResult (quoteAggregator S values minContributions) (quoteAggregator S' values' minContributions) := by
  have hperm := h.filterMap validQuote
  unfold quoteAggregator
  dsimp only
  rw [← hperm.length_eq]
  split_ifs with hfew
  · exact .failed _ _
  · have hne : values.filterMap validQuote ≠ [] := length_pos_iff.1 (by omega)
    generalize values.filterMap validQuote = quotes at hperm hne
    generalize values'.filterMap validQuote = quotes' at hperm
    have hmiddle : ∀ (key : Quote → Decimal) {xs ys : List Quote}, xs.Perm quotes → ys.Perm quotes' →
        ∃ p q, Go.index (S.sort (fun p q => (key p).lt (key q)) xs) ((S.sort (fun p q => (key p).lt (key q)) xs).length / 2) = .ok p ∧
          Go.index (S'.sort (fun p q => (key p).lt (key q)) ys) ((S'.sort (fun p q => (key p).lt (key q)) ys).length / 2) = .ok q ∧
          (key p).toRat = (key q).toRat := by
      intro key xs ys hxs hys
      rw [(S.perm _ xs).length_eq,(S'.perm _ ys).length_eq]
      apply index_middle_perm S S' (fun q => (key q).toRat) (fun a b => Decimal.lt_iff_toRat_lt)
        (hxs.trans (hperm.trans hys.symm))
      intro hnil
      rw [hnil] at hxs
      exact hne (nil_perm.1 hxs)
    -- each sort starts from the one before it
    have hbench := S.perm (fun p q => p.benchmark.lt q.benchmark) quotes
    have hbench' := S'.perm (fun p q => p.benchmark.lt q.benchmark) quotes'
    have hbid := (S.perm (fun p q => p.bid.lt q.bid) _).trans hbench
    have hbid' := (S'.perm (fun p q => p.bid.lt q.bid) _).trans hbench'
    obtain ⟨p₁,q₁,hp₁,hq₁,h₁⟩ := hmiddle Quote.benchmark (.refl _) (.refl _)
    obtain ⟨p₂,q₂,hp₂,hq₂,h₂⟩ := hmiddle Quote.bid hbench hbench'
    obtain ⟨p₃,q₃,hp₃,hq₃,h₃⟩ := hmiddle Quote.ask hbid hbid'
    simp only [hp₁,hq₁,hp₂,hq₂,hp₃,hq₃,ok_bind]
    exact .value ⟨h₂,h₁,h₃⟩

/-- The four aggregators on two orders of the same contributions. -/
theorem aggregators_perm (S S' : SliceSort) (W : WireLibs) (decimal : DecimalEncoder)
    (h : values.Perm values') (hmin : 1 ≤ minContributions) :
    SameResult (medianAggregatorV30 S values minContributions) (medianAggregatorV30 S' values' minContributions) ∧
      SameResult (medianAggregatorV31 S values minContributions) (medianAggregatorV31 S' values' minContributions) ∧
      SameResult (modeAggregator S W decimal values minContributions) (modeAggregator S' W decimal values' minContributions) ∧
      SameResult (quoteAggregator S values minContributions) (quoteAggregator S' values' minContributions) :=
  ⟨medianAggregator_perm S S' true h hmin,medianAggregator_perm S S' false h hmin,
    modeAggregator_perm S S' W decimal h hmin,quoteAggregator_perm S S' h hmin⟩

theorem aggregators_perm_stampedPrices :
    stampedPrices.Perm stampedPrices.reverse ∧ SameResult (medianAggregatorV31 insertionSlice stampedPrices 3)
        (medianAggregatorV31 insertionSlice stampedPrices.reverse 3) :=
  have hperm : stampedPrices.Perm stampedPrices.reverse := stampedPrices.reverse_perm.symm
  ⟨hperm,(aggregators_perm insertionSlice insertionSlice valueLibs marshalDecimal hperm (by decide)).2.1⟩

end DataStreams
