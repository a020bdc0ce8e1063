import DataStreams.Foundation.Rank
import DataStreams.Protocol.Aggregators

/-! Aggregates lie in the range of the correct contributions, whatever type the faulty ones
pretend to have. -/
namespace DataStreams
open List Go

def Decimal.Within (d : Decimal) (ds : List Decimal) : Prop :=
  (∃ a ∈ ds, a.toRat ≤ d.toRat) ∧ ∃ a ∈ ds, d.toRat ≤ a.toRat

lemma index_middle_between {α β : Type} [LinearOrder β] {S : SliceSort} {less : α → α → Bool} {key : α → β}
    {xs correct faulty : List α} {t : ℕ} {m : α} (hless : ∀ a b, less a b = true ↔ key a < key b)
    (hperm : xs.Perm (correct ++ faulty)) (hfaulty : faulty.length ≤ t) (hlen : 2 * t + 1 ≤ xs.length)
    (h : Go.index (S.sort less xs) (xs.length / 2) = .ok m) :
    (∃ a ∈ correct, key a ≤ key m) ∧ ∃ a ∈ correct, key m ≤ key a := by
  have hsort := S.perm less xs
  obtain ⟨m',hm',hrange⟩ := Rank.between_correct (hsort.trans hperm) hfaulty (hlen.trans_eq hsort.length_eq.symm)
    (S.sorted_by key hless xs)
  rw [hsort.length_eq] at hm'
  rw [Go.index,hm'] at h
  cases h
  exact hrange

lemma filterMap_perm_append {α β : Type} {xs correct faulty : List α} (f : α → Option β)
    (h : xs.Perm (correct ++ faulty)) : (xs.filterMap f).Perm (correct.filterMap f ++ faulty.filterMap f) := by
  rw [← filterMap_append]
  exact h.filterMap f

variable {S : SliceSort} {values correct faulty : List (Option StreamValue)} {t : ℕ} {r : Option StreamValue}
lemma medianOfNumbers_within (hperm : values.Perm (correct ++ faulty)) (hfaulty : faulty.length ≤ t)
    (h : medianOfNumbers S values (2 * t + 1) = .ok r) :
    ∃ d, r = some (.decimal d) ∧ d.Within (correct.filterMap (fun v => v.bind StreamValue.number)) := by
  unfold medianOfNumbers at h
  dsimp only at h
  split_ifs at h with hfew
  · exact absurd h (err_ne_ok _ _)
  · obtain ⟨d,hd,⟨⟩⟩ := bind_ok_iff.1 h
    refine ⟨d,rfl,index_middle_between (fun a b => Decimal.lt_iff_toRat_lt) (filterMap_perm_append _ hperm) ?_ (not_lt.1 hfew) hd⟩
    exact (length_filterMap_le _ _).trans hfaulty

/-- The number and the timestamp of a median lie in the range of the correct contributions
it counted. -/
def MedianInRange (correct : List (Option StreamValue)) : StreamValue → Prop
  | .decimal d => d.Within (correct.filterMap (fun v => v.bind StreamValue.number))
  | .timestamped ts (.decimal d) =>
    let counted := correct.filterMap (fun v => v.bind StreamValue.timestampedDecimal)
    d.Within (counted.map Prod.snd) ∧ (∃ e ∈ counted, e.1 ≤ ts) ∧ ∃ e ∈ counted, ts ≤ e.1
  | _ => False

lemma timestampedDecimal_eq_none {v : StreamValue} (h : v.type ≠ .timestamped) : v.timestampedDecimal = none := by
  cases v with
  | decimal d => rfl
  | quote q => rfl
  | timestamped t v => exact absurd rfl h

lemma filterMap_timestampedDecimal {β : Type} (f : ℕ × Decimal → β) (htype : (mostCommonType values).1 = .timestamped) :
    (mostCommonType values).2.filterMap (fun v => v.timestampedDecimal.map f) =
      (values.filterMap (fun v => v.bind StreamValue.timestampedDecimal)).map f := by
  rw [mostCommonType_snd,htype,filterMap_filter,filterMap_filterMap,map_filterMap]
  apply filterMap_congr
  intro v _
  cases v with
  | none => rfl
  | some v =>
    by_cases hv : v.type = .timestamped
    · simp [hv]
    · simp [hv,timestampedDecimal_eq_none hv]

lemma medianTimestamps_v31 (bucket : List StreamValue) :
    medianTimestamps false bucket = bucket.filterMap (fun v => v.timestampedDecimal.map Prod.fst) := by
  apply filterMap_congr
  intro v _
  cases v.timestampedDecimal <;> rfl

lemma number_decimals (ds : List (ℕ × Decimal)) :
    (ds.map (fun e => some (StreamValue.decimal e.2))).filterMap (fun v => v.bind StreamValue.number) = ds.map Prod.snd := by
  rw [filterMap_map,← filterMap_eq_map]
  rfl

/-- The median is a number, timestamped or not, in the range of the correct contributions
of the kind it counted. -/
theorem medianAggregatorV31_inRange (hperm : values.Perm (correct ++ faulty)) (hfaulty : faulty.length ≤ t)
    (h : medianAggregatorV31 S values (2 * t + 1) = .ok r) : ∃ v, r = some v ∧ MedianInRange correct v := by
  have hnumbers : medianOfNumbers S values (2 * t + 1) = .ok r → ∃ v, r = some v ∧ MedianInRange correct v := by
    intro h
    obtain ⟨d,rfl,hd⟩ := medianOfNumbers_within hperm hfaulty h
    exact ⟨_,rfl,hd⟩
  rw [medianAggregatorV31,medianAggregator] at h
  cases htype : (mostCommonType values).1 with
  | decimal =>
    rw [← Prod.mk.eta (p := mostCommonType values),htype] at h
    exact hnumbers h
  | quote =>
    rw [← Prod.mk.eta (p := mostCommonType values),htype] at h
    exact hnumbers h
  | other code =>
    rw [← Prod.mk.eta (p := mostCommonType values),htype] at h
    exact absurd h (err_ne_ok _ _)
  | timestamped =>
    have hsvalues := filterMap_timestampedDecimal (fun e => some (StreamValue.decimal e.2)) htype
    have htimestamps := filterMap_timestampedDecimal Prod.fst htype
    rw [← Prod.mk.eta (p := mostCommonType values),htype] at h
    dsimp only at h
    rw [medianTimestamps_v31,hsvalues,htimestamps] at h
    -- the pairs that count, split into correct and faulty ones
    have hcounted := filterMap_perm_append (fun v => v.bind StreamValue.timestampedDecimal) hperm
    have hfew := (length_filterMap_le (fun v : Option StreamValue => v.bind StreamValue.timestampedDecimal) faulty).trans hfaulty
    generalize values.filterMap (fun v => v.bind StreamValue.timestampedDecimal) = pairs at h hcounted
    obtain ⟨median,hmedian,h⟩ := bind_ok_iff.1 h
    have hinner := hcounted.map (fun e => some (StreamValue.decimal e.2))
    rw [map_append] at hinner
    obtain ⟨d,rfl,hd⟩ := medianOfNumbers_within hinner (by rw [length_map]; exact hfew) hmedian
    rw [number_decimals] at hd
    obtain ⟨ts,hts,⟨⟩⟩ := bind_ok_iff.1 h
    refine ⟨_,rfl,hd,?_⟩
    have hlen : 2 * t + 1 ≤ (pairs.map Prod.fst).length := by
      unfold medianOfNumbers at hmedian
      dsimp only at hmedian
      split_ifs at hmedian with hlt
      · exact absurd hmedian (err_ne_ok _ _)
      · rw [number_decimals,length_map] at hlt
        rw [length_map]
        exact not_lt.1 hlt
    have hstamps := hcounted.map Prod.fst
    rw [map_append] at hstamps
    obtain ⟨⟨a,ha,hle⟩,b,hb,hge⟩ := index_middle_between (fun a b => decide_eq_true_iff) hstamps
      (by rw [length_map]; exact hfew) hlen hts
    obtain ⟨ea,hea,rfl⟩ := mem_map.1 ha
    obtain ⟨eb,heb,rfl⟩ := mem_map.1 hb
    exact ⟨⟨ea,hea,hle⟩,eb,heb,hge⟩

/-- Four timestamped prices, one of them from a faulty oracle that is far off. -/
def stampedPrices : List (Option StreamValue) :=
  [some (.timestamped 100 (.decimal ⟨5,0⟩)),some (.timestamped 102 (.decimal ⟨51,-1⟩)),
    some (.timestamped 101 (.decimal ⟨52,-1⟩)),some (.timestamped 9999 (.decimal ⟨1,6⟩))]

theorem medianAggregatorV31_stampedPrices :
    medianAggregatorV31 insertionSlice stampedPrices 3 = .ok (some (.timestamped 102 (.decimal ⟨52,-1⟩))) ∧
      MedianInRange (stampedPrices.take 3) (.timestamped 102 (.decimal ⟨52,-1⟩)) := by
  have hmedian : medianAggregatorV31 insertionSlice stampedPrices 3 =
      .ok (some (.timestamped 102 (.decimal ⟨52,-1⟩))) := by decide
  have hsplit : stampedPrices = stampedPrices.take 3 ++ stampedPrices.drop 3 := (take_append_drop 3 _).symm
  obtain ⟨v,hv,hrange⟩ := medianAggregatorV31_inRange (t := 1) (List.Perm.of_eq hsplit) (by decide) hmedian
  cases hv
  exact ⟨hmedian,hrange⟩

variable {S : SliceSort} {values correct faulty : List (Option StreamValue)} {t : ℕ} {r : Option StreamValue}
structure QuoteInRange (correct : List Quote) (q : Quote) : Prop where
  isValid : q.isValid = true
  bid : q.bid.Within (correct.map Quote.bid)
  benchmark : q.benchmark.Within (correct.map Quote.benchmark)
  ask : q.ask.Within (correct.map Quote.ask)

lemma isValid_iff {q : Quote} : q.isValid = true ↔
    q.bid.toRat ≤ q.benchmark.toRat ∧ q.benchmark.toRat ≤ q.ask.toRat := by
  rw [Quote.isValid,Bool.and_eq_true,Decimal.le_iff_toRat_le,Decimal.le_iff_toRat_le]

lemma isValid_of_mem_validQuote {q : Quote} (h : q ∈ values.filterMap validQuote) : q.isValid = true := by
  obtain ⟨v,_,hv⟩ := mem_filterMap.1 h
  unfold validQuote at hv
  split at hv
  · split_ifs at hv with hvalid
    cases hv
    exact hvalid
  · contradiction

def SortedBy (key : Quote → Decimal) (sorted quotes : List Quote) : Prop :=
  sorted.Perm quotes ∧ sorted.Pairwise (fun p q => (key p).toRat ≤ (key q).toRat)

lemma sortedBy_sort (S : SliceSort) (key : Quote → Decimal) {xs quotes : List Quote} (h : xs.Perm quotes) :
    SortedBy key (S.sort (fun p q => (key p).lt (key q)) xs) quotes :=
  ⟨(S.perm _ xs).trans h,S.sorted_by (fun q => (key q).toRat) (fun _ _ => Decimal.lt_iff_toRat_lt) xs⟩

namespace SortedBy
variable {key key' : Quote → Decimal} {sorted sorted' quotes : List Quote} {m m' : Quote}
lemma exists_middle (h : SortedBy key sorted quotes) (hne : quotes ≠ []) :
    ∃ q, Go.index sorted (sorted.length / 2) = .ok q := by
  have hlen : 0 < sorted.length := by
    rw [h.1.length_eq]
    exact length_pos_of_ne_nil hne
  exact ⟨_,index_eq_ok (by omega)⟩

lemma middle_within {correct faulty : List Quote} (h : SortedBy key sorted quotes)
    (hperm : quotes.Perm (correct ++ faulty)) (hfaulty : faulty.length ≤ t) (hlen : 2 * t + 1 ≤ quotes.length)
    (hm : Go.index sorted (sorted.length / 2) = .ok m) : (key m).Within (correct.map key) := by
  obtain ⟨m',hm',⟨a,ha,hle⟩,b,hb,hge⟩ := Rank.between_correct (f := fun q => (key q).toRat) (h.1.trans hperm) hfaulty
    (hlen.trans_eq h.1.length_eq.symm) h.2
  rw [Go.index,hm'] at hm
  cases hm
  exact ⟨⟨key a,mem_map_of_mem ha,hle⟩,key b,mem_map_of_mem hb,hge⟩

lemma middle_le (h : SortedBy key sorted quotes) (h' : SortedBy key' sorted' quotes)
    (hle : ∀ q ∈ quotes, (key q).toRat ≤ (key' q).toRat) (hm : Go.index sorted (sorted.length / 2) = .ok m)
    (hm' : Go.index sorted' (sorted'.length / 2) = .ok m') : (key m).toRat ≤ (key' m').toRat := by
  have hlen := h.1.length_eq.trans h'.1.length_eq.symm
  unfold Go.index at hm hm'
  split at hm
  · next a ha =>
    split at hm'
    · next b hb =>
      cases hm
      cases hm'
      obtain ⟨hk,rfl⟩ := List.getElem?_eq_some_iff.1 ha
      obtain ⟨hk',rfl⟩ := List.getElem?_eq_some_iff.1 hb
      have := Rank.rank_le_rank (f := fun q => (key q).toRat) (g := fun q => (key' q).toRat) h.1 h'.1 h.2 h'.2 hle hk
        (k := sorted.length / 2) (by omega)
      simpa only [hlen] using this
    · exact absurd hm' (panics_ne_ok _ _)
  · exact absurd hm (panics_ne_ok _ _)

end SortedBy

/-- The quote aggregator returns a quote exactly from enough valid quotes, and one that is
in order and in the range of the correct ones. -/
theorem quoteAggregator_inRange (S : SliceSort) (hperm : values.Perm (correct ++ faulty)) (hfaulty : faulty.length ≤ t) :
    (∀ r, quoteAggregator S values (2 * t + 1) = .ok r →
      ∃ q, r = some (.quote q) ∧ QuoteInRange (correct.filterMap validQuote) q) ∧
    (2 * t + 1 ≤ (values.filterMap validQuote).length →
      ∃ q, quoteAggregator S values (2 * t + 1) = .ok (some (.quote q))) := by
  have hsplit := filterMap_perm_append validQuote hperm
  have hvalid : ∀ q ∈ values.filterMap validQuote, q.bid.toRat ≤ q.benchmark.toRat ∧ q.benchmark.toRat ≤ q.ask.toRat :=
    fun q hq => isValid_iff.1 (isValid_of_mem_validQuote hq)
  have hfew := (length_filterMap_le validQuote faulty).trans hfaulty
  unfold quoteAggregator
  generalize values.filterMap validQuote = quotes at hsplit hvalid
  dsimp only
  have hbenchmark := sortedBy_sort S Quote.benchmark (List.Perm.refl quotes)
  have hbid := sortedBy_sort S Quote.bid hbenchmark.1
  have hask := sortedBy_sort S Quote.ask hbid.1
  generalize S.sort (fun p q => p.benchmark.lt q.benchmark) quotes = byBenchmark at hbenchmark hbid hask
  generalize S.sort (fun p q => p.bid.lt q.bid) byBenchmark = byBid at hbid hask
  generalize S.sort (fun p q => p.ask.lt q.ask) byBid = byAsk at hask
  constructor
  · intro r h
    split_ifs at h with hshort
    · exact absurd h (err_ne_ok _ _)
    · obtain ⟨benchmark,hb,bid,hi,ask,ha,⟨⟩⟩ : ∃ benchmark, _ ∧ ∃ bid, _ ∧ ∃ ask, _ ∧ _ := by
        simpa only [bind_ok_iff] using h
      have hlen := not_lt.1 hshort
      have hlow := hbid.middle_le hbenchmark (fun q hq => (hvalid q hq).1) hi hb
      have hhigh := hbenchmark.middle_le hask (fun q hq => (hvalid q hq).2) hb ha
      have hwithin := hbid.middle_within hsplit hfew hlen hi
      have hwithin' := hbenchmark.middle_within hsplit hfew hlen hb
      have hwithin'' := hask.middle_within hsplit hfew hlen ha
      exact ⟨_,rfl,isValid_iff.2 ⟨hlow,hhigh⟩,hwithin,hwithin',hwithin''⟩
  · intro hlen
    have hne : quotes ≠ [] := by
      intro hnil
      simp [hnil] at hlen
    obtain ⟨benchmark,hb⟩ := hbenchmark.exists_middle hne
    obtain ⟨bid,hi⟩ := hbid.exists_middle hne
    obtain ⟨ask,ha⟩ := hask.exists_middle hne
    refine ⟨⟨bid.bid,benchmark.benchmark,ask.ask⟩,?_⟩
    rw [if_neg (not_lt.2 hlen),hb,ok_bind,hi,ok_bind,ha,ok_bind]

/-- Three quotes in order, one that is not, and one of a faulty oracle that is far off. -/
def quotes : List (Option StreamValue) :=
  [some (.quote ⟨⟨1,0⟩,⟨2,0⟩,⟨3,0⟩⟩),some (.quote ⟨⟨15,-1⟩,⟨18,-1⟩,⟨4,0⟩⟩),some (.quote ⟨⟨3,0⟩,⟨2,0⟩,⟨1,0⟩⟩),
    some (.quote ⟨⟨1,0⟩,⟨19,-1⟩,⟨2,0⟩⟩),some (.quote ⟨⟨1,6⟩,⟨1,6⟩,⟨1,6⟩⟩)]

theorem quoteAggregator_quotes : ∃ q, quoteAggregator insertionSlice quotes 3 = .ok (some (.quote q)) ∧
    QuoteInRange ((quotes.take 4).filterMap validQuote) q := by
  have hsplit : quotes = quotes.take 4 ++ quotes.drop 4 := (take_append_drop 4 _).symm
  have h := quoteAggregator_inRange (t := 1) insertionSlice (List.Perm.of_eq hsplit) (by decide)
  obtain ⟨q,hq⟩ := h.2 (by decide)
  obtain ⟨q',hq',hrange⟩ := h.1 _ hq
  cases hq'
  exact ⟨q,hq,hrange⟩

end DataStreams
