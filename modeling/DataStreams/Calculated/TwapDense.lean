import DataStreams.Calculated.Twap
import DataStreams.Foundation.DenseSeries

/-! The observations of a window are a dense series of one-second buckets, given sparsely. -/
namespace DataStreams
open List DenseSeries

def recordSecond (record : Decimal × ℕ) : ℤ := (record.2 / nanosecondsPerSecond : ℕ)

/-- The price of the newest record of a second. -/
def bucketOf (records : List (Decimal × ℕ)) (windowStart : ℤ) (i : ℕ) : Option Decimal :=
  ((records.filter fun r => recordSecond r = windowStart + i).getLast?).map Prod.fst

variable (series : Series)
def Series.records : List (Decimal × ℕ) := series.values.zip series.timestamps

def twapBucket (windowStart : ℤ) : ℕ → Option Decimal := bucketOf series.records windowStart

def InWindow (windowStart anchorSeconds : ℤ) (record : Decimal × ℕ) : Prop :=
  windowStart ≤ recordSecond record ∧ recordSecond record < anchorSeconds

def TwapObservation.entry (o : TwapObservation) : ℕ × Decimal := (o.offset,o.price)

variable {past : List (Decimal × ℕ)} {record : Decimal × ℕ} {start anchor : ℤ} {n : ℕ}
lemma bucketOf_append (i : ℕ) :
    bucketOf (past ++ [record]) start i = if recordSecond record = start + i then some record.1 else bucketOf past start i := by
  unfold bucketOf
  rw [filter_append]
  by_cases h : recordSecond record = start + i
  · rw [if_pos h,filter_cons_of_pos (by rwa [decide_eq_true_iff]),filter_nil,getLast?_concat]
    rfl
  · rw [if_neg h,filter_cons_of_neg (by rwa [decide_eq_true_iff]),filter_nil,append_nil]

variable {i : ℕ}
lemma exists_of_bucketOf {v : Decimal} (h : bucketOf past start i = some v) :
    ∃ r ∈ past, recordSecond r = start + i ∧ r.1 = v := by
  obtain ⟨r,hr,hv⟩ := Option.map_eq_some_iff.1 h
  obtain ⟨hmem,hsecond⟩ := mem_filter.1 (mem_of_getLast? hr)
  exact ⟨r,hmem,by rwa [decide_eq_true_iff] at hsecond,hv⟩

lemma recordSecond_le {r r' : Decimal × ℕ} (h : r.2 < r'.2) : recordSecond r ≤ recordSecond r' := by
  unfold recordSecond
  exact_mod_cast Nat.div_le_div_right h.le

variable {observations : List TwapObservation}
lemma twapObserve_outside (h : ¬InWindow start anchor record) :
    twapObserve start anchor observations (record,i) = .ok observations := by
  unfold twapObserve
  rw [if_pos]
  change recordSecond record < start ∨ anchor ≤ recordSecond record
  unfold InWindow at h
  omega

lemma twapObserve_notPositive (h : InWindow start anchor record)
    (hprice : record.1.toRat ≤ 0) : twapObserve start anchor observations (record,i) = .error (.price i record.1) := by
  have hpositive : record.1.isPositive = false := by
    rw [Decimal.isPositive,decide_eq_false_iff_not,not_lt]
    exact not_lt.1 fun hpos => absurd (Decimal.toRat_pos.2 hpos) (not_lt.2 hprice)
  unfold twapObserve
  rw [if_neg,if_pos]
  · simp only [hpositive,Bool.not_false]
  · change ¬(recordSecond record < start ∨ anchor ≤ recordSecond record)
    unfold InWindow at h
    omega

lemma twapObserve_sparse (hanchor : anchor = start + n)
    (h : Sparse (bucketOf past start) n (observations.map TwapObservation.entry)) (hnewer : ∀ r ∈ past, r.2 < record.2)
    (hwindow : InWindow start anchor record) (hprice : 0 < record.1.toRat) :
    ∃ init offset, twapObserve start anchor observations (record,i) = .ok (init ++ [⟨offset,record.1⟩]) ∧
      (∀ o ∈ init, o ∈ observations) ∧
      Sparse (bucketOf (past ++ [record]) start) n ((init ++ [⟨offset,record.1⟩]).map TwapObservation.entry) := by
  have hpositive : record.1.isPositive = true := by
    rw [Decimal.isPositive,decide_eq_true_iff]
    exact Decimal.toRat_pos.1 hprice
  obtain ⟨hlow,hhigh⟩ := hwindow
  obtain ⟨k,hk⟩ := Int.eq_ofNat_of_zero_le (show 0 ≤ recordSecond record - start by omega)
  have hkn : k < n := by omega
  have hbucket : ∀ j < n, bucketOf (past ++ [record]) start j = if j = k then some record.1 else bucketOf past start j := by
    intro j _
    rw [bucketOf_append]
    have hiff : recordSecond record = start + j ↔ j = k := by omega
    simp only [hiff]
  -- timestamps increase, so no earlier record is of a later second
  have hle : ∀ o ∈ observations, o.offset ≤ k := by
    intro o ho
    have hmem : (o.offset,o.price) ∈ observations.map TwapObservation.entry := mem_map.2 ⟨o,ho,rfl⟩
    obtain ⟨r,hr,hsecond,-⟩ := exists_of_bucketOf ((h.agrees _ _ (h.below _ hmem)).2 hmem)
    have := recordSecond_le (hnewer r hr)
    omega
  have hobserve : twapObserve start anchor observations (record,i) =
      observations.getLast?.elim (.ok [⟨k,record.1⟩]) fun last =>
        if last.offset = k then .ok (observations.dropLast ++ [⟨k,record.1⟩]) else .ok (observations ++ [⟨k,record.1⟩]) := by
    have hseconds : (((record.2 / nanosecondsPerSecond : ℕ) : ℤ) - start).toNat = k := by
      change (recordSecond record - start).toNat = k
      omega
    unfold twapObserve
    rw [if_neg,if_neg]
    · subst hseconds
      cases observations.getLast? <;> rfl
    · rw [hpositive]
      decide
    · change ¬(recordSecond record < start ∨ anchor ≤ recordSecond record)
      omega
  rw [hobserve]
  rcases eq_nil_or_concat observations with rfl | ⟨init,last,rfl⟩
  · exact ⟨[],k,rfl,fun o ho => ho,h.append hkn (fun o ho => absurd ho not_mem_nil) hbucket⟩
  · rw [concat_eq_append] at h hle hobserve ⊢
    rw [map_append] at h
    rw [getLast?_concat,Option.elim_some]
    by_cases hsame : last.offset = k
    · rw [if_pos hsame,dropLast_concat]
      refine ⟨init,k,rfl,fun o ho => mem_append_left _ ho,?_⟩
      rw [map_append]
      have hlast : [last].map TwapObservation.entry = [(k,last.price)] := by rw [← hsame]; rfl
      rw [hlast] at h
      exact h.replace hbucket
    · rw [if_neg hsame]
      refine ⟨init ++ [last],k,rfl,fun o ho => ho,?_⟩
      rw [map_append,map_append]
      refine h.append hkn ?_ hbucket
      -- the last observation is of an earlier second, and those before it as well
      intro o ho
      rw [← map_append] at h ho
      obtain ⟨o',ho',rfl⟩ := mem_map.1 ho
      change o'.offset < k
      have hlastlt : last.offset < k := lt_of_le_of_ne (hle last (mem_append_right _ mem_cons_self)) hsame
      rcases mem_append.1 ho' with hinit | hlast
      · rw [map_append] at h
        have hlt := (pairwise_append.1 h.increasing).2.2 o'.entry (mem_map_of_mem hinit) last.entry
          (mem_map_of_mem mem_cons_self)
        exact lt_trans hlt hlastlt
      · rwa [mem_singleton.1 hlast]

/-- A run of observations that passes: the dense series so far, with positive prices. -/
structure Observed (past : List (Decimal × ℕ)) (start anchor : ℤ) (n : ℕ) (observations : List TwapObservation) : Prop where
  sparse : Sparse (bucketOf past start) n (observations.map TwapObservation.entry)
  positive : ∀ o ∈ observations, 0 < o.price.toRat
  passed : ∀ r ∈ past, InWindow start anchor r → 0 < r.1.toRat
  recorded : ∀ o ∈ observations, ∃ r ∈ past, r.1 = o.price

/-- A record is refused or extends the dense series it is observed from. -/
lemma twapObserve_cases (hanchor : anchor = start + n)
    (h : Observed past start anchor n observations) (hnewer : ∀ r ∈ past, r.2 < record.2) :
    (∃ next, twapObserve start anchor observations (record,i) = .ok next ∧ Observed (past ++ [record]) start anchor n next) ∨
      twapObserve start anchor observations (record,i) = .error (.price i record.1) ∧ InWindow start anchor record ∧
        record.1.toRat ≤ 0 := by
  by_cases hwindow : InWindow start anchor record
  · rcases le_or_gt record.1.toRat 0 with hprice | hprice
    · exact .inr ⟨twapObserve_notPositive hwindow hprice,hwindow,hprice⟩
    · obtain ⟨init,offset,hobserve,hinit,hsparse⟩ := twapObserve_sparse (i := i) hanchor h.sparse hnewer hwindow hprice
      refine .inl ⟨_,hobserve,hsparse,?_,?_,?_⟩
      · intro o ho
        rcases mem_append.1 ho with ho | ho
        · exact h.positive o (hinit o ho)
        · rwa [mem_singleton.1 ho]
      · intro r hr hin
        rcases mem_append.1 hr with hr | hr
        · exact h.passed r hr hin
        · rwa [mem_singleton.1 hr]
      · intro o ho
        rcases mem_append.1 ho with ho | ho
        · obtain ⟨r,hr,hprice⟩ := h.recorded o (hinit o ho)
          exact ⟨r,mem_append_left _ hr,hprice⟩
        · refine ⟨record,mem_append_right _ mem_cons_self,?_⟩
          rw [mem_singleton.1 ho]
  · refine .inl ⟨observations,twapObserve_outside hwindow,?_,h.positive,?_,?_⟩
    · apply h.sparse.congr
      intro j hj
      rw [bucketOf_append,if_neg]
      unfold InWindow at hwindow
      omega
    · intro r hr hin
      rcases mem_append.1 hr with hr | hr
      · exact h.passed r hr hin
      · exact absurd (mem_singleton.1 hr ▸ hin) hwindow
    · intro o ho
      obtain ⟨r,hr,hprice⟩ := h.recorded o ho
      exact ⟨r,mem_append_left _ hr,hprice⟩

lemma foldlM_observe_cases {records : List (Decimal × ℕ)} (hanchor : anchor = start + n)
    (h : Observed past start anchor n observations) (hincreasing : (past ++ records).Pairwise fun r r' => r.2 < r'.2) (k : ℕ) :
    (∃ result, (records.zipIdx k).foldlM (twapObserve start anchor) observations = .ok result ∧
        Observed (past ++ records) start anchor n result) ∨
      ∃ i, ∃ r ∈ records, (records.zipIdx k).foldlM (twapObserve start anchor) observations = .error (.price i r.1) ∧
        InWindow start anchor r ∧ r.1.toRat ≤ 0 := by
  induction records generalizing past observations k with
  | nil => exact .inl ⟨observations,rfl,by rwa [append_nil]⟩
  | cons record records ih =>
    have hsplit : past ++ record :: records = (past ++ [record]) ++ records := by simp
    have hnewer : ∀ r ∈ past, r.2 < record.2 :=
      fun r hr => (pairwise_append.1 hincreasing).2.2 r hr record mem_cons_self
    rw [zipIdx_cons,foldlM_cons]
    rcases twapObserve_cases (i := k) hanchor h hnewer with ⟨next,hnext,hobserved⟩ | ⟨herror,hwindow,hprice⟩
    · rw [hnext,Go.ok_bind,hsplit]
      rcases ih hobserved (hsplit ▸ hincreasing) (k + 1) with hok | ⟨i,r,hr,hfails⟩
      · exact .inl hok
      · exact .inr ⟨i,r,mem_cons_of_mem _ hr,hfails⟩
    · rw [herror]
      exact .inr ⟨k,record,mem_cons_self,rfl,hwindow,hprice⟩

/-- A price in the window that has no logarithm. -/
def HasNonPositive (start anchor : ℤ) : Prop :=
  ∃ r ∈ series.records, InWindow start anchor r ∧ r.1.toRat ≤ 0

lemma Series.pairwise_records : series.records.Pairwise fun r r' => r.2 < r'.2 := by
  have hmap : series.records.map Prod.snd = series.timestamps := map_snd_zip series.length_eq.ge
  have hincreasing := series.increasing
  rw [← hmap,pairwise_map] at hincreasing
  exact hincreasing

/-- The observations are the dense series, unless a price in the window has no logarithm. -/
lemma twapObservations_cases {start anchor : ℤ} {n : ℕ} (hanchor : anchor = start + n) :
    (∃ observations, twapObservations series start anchor = .ok observations ∧
        Observed series.records start anchor n observations ∧ ¬HasNonPositive series start anchor) ∨
      (∃ i v, twapObservations series start anchor = .error (.price i v)) ∧ HasNonPositive series start anchor := by
  have hempty : Observed [] start anchor n [] := by
    refine ⟨Sparse.empty fun i _ => rfl,?_,?_,?_⟩
    · exact fun o ho => absurd ho not_mem_nil
    · exact fun r hr => absurd hr not_mem_nil
    · exact fun o ho => absurd ho not_mem_nil
  have hincreasing : ([] ++ series.records).Pairwise fun r r' : Decimal × ℕ => r.2 < r'.2 := series.pairwise_records
  rcases foldlM_observe_cases hanchor hempty hincreasing 0 with
    ⟨observations,hok,hobserved⟩ | ⟨i,r,hr,herror,hwindow,hprice⟩
  · refine .inl ⟨observations,hok,hobserved,?_⟩
    rintro ⟨r,hr,hwindow,hprice⟩
    exact absurd (hobserved.passed r hr hwindow) (not_lt.2 hprice)
  · exact .inr ⟨⟨i,r.1,herror⟩,r,hr,hwindow,hprice⟩

def denseStats (f : ℕ → Option Decimal) (n : ℕ) : TwapStats := ⟨samples f n,headGap f n,interiorGap f n,tailGap f n⟩

lemma twapInteriorGap_eq {left : TwapObservation} {rest : List TwapObservation}
    (h : ((left :: rest).map TwapObservation.entry).Pairwise fun a b => a.1 < b.1) {g : ℤ} (hg : 0 ≤ g) :
    twapInteriorGap left rest g = max g (longestGap left.offset (rest.map TwapObservation.offset)) := by
  induction rest generalizing left g with
  | nil => exact (max_eq_left hg).symm
  | cons right rest ih =>
    obtain ⟨hlt,htail⟩ := pairwise_cons.1 h
    have hgap : left.offset < right.offset := hlt right.entry (mem_map_of_mem mem_cons_self)
    rw [twapInteriorGap,ih htail (hg.trans (le_max_left _ _)),map_cons,longestGap]
    omega

/-- The statistics of the list are those of the dense series. -/
lemma twapGapStats_eq {f : ℕ → Option Decimal} (h : Sparse f n (observations.map TwapObservation.entry)) :
    twapGapStats observations n = denseStats f n := by
  cases observations with
  | nil =>
    have hnone := h.of_nil
    simp [twapGapStats,denseStats,samples,headGap,tailGap,interiorGap,adjacentPairs,hnone]
  | cons first rest =>
    have hlast : ((first :: rest).map TwapObservation.entry).getLast? = some (rest.getLastD first).entry := by
      rw [getLast?_map,getLast?_cons,getLastD_eq_getLast?]
      rfl
    have hlastn : (rest.getLastD first).offset < n := h.below _ (mem_of_getLast? hlast)
    have hplaces : (rest.map TwapObservation.entry).map Prod.fst = rest.map TwapObservation.offset := by
      rw [map_map]
      rfl
    have hhead := h.headGap_eq
    have hinterior := h.interiorGap_eq
    rw [hplaces] at hinterior
    rw [denseStats,h.samples_eq,hhead,hinterior,h.tailGap_eq hlast,twapGapStats,twapInteriorGap_eq h.increasing le_rfl,
      length_map,TwapStats.mk.injEq]
    refine ⟨rfl,rfl,?_,?_⟩
    · exact max_eq_right (by positivity)
    · change (n : ℤ) - 1 - (rest.getLastD first).offset = ((n - 1 - (rest.getLastD first).offset : ℕ) : ℤ)
      omega

def TwapConfig.Refuses (cfg : TwapConfig) (stats : TwapStats) : Prop :=
  stats.m < cfg.minSamples ∨ cfg.maxHeadGap < stats.gHead ∨ cfg.maxInteriorGap < stats.gInt ∨ cfg.maxTailGap < stats.gTail

lemma twapReasons_ne_nil {cfg : TwapConfig} {stats : TwapStats} (hmin : 1 ≤ cfg.minSamples) :
    twapReasons cfg stats ≠ [] ↔ cfg.Refuses stats := by
  unfold twapReasons TwapConfig.Refuses
  rw [max_eq_left hmin]
  constructor
  · intro h
    by_contra hnone
    rw [not_or,not_or,not_or] at hnone
    rw [if_neg hnone.1,if_neg hnone.2.1,if_neg hnone.2.2.1,if_neg hnone.2.2.2] at h
    exact h rfl
  · rintro (h | h | h | h) <;> simp [h]

end DataStreams
