import DataStreams.Calculated.Twap

/-! Simple, weighted and exponential averages of a history window. None leaves the range of its
values. -/
namespace DataStreams
open List Go Decimal

/-- The number of samples an argument asks for. -/
def windowSize (L : Libs) (name : String) (series : Series) (x : Arg) : Except String ℤ :=
  match toDecimal L x with
  | .error e => .error s!"{name}: {e}"
  | .ok d =>
    if (Decimal.ofInt series.values.length).lt d then
      .error s!"{name}: sample count {d.text} exceeds the window length {series.values.length}"
    else
      match decimalToInt "sample count" d 1 series.values.length with
      | .error e => .error s!"{name}: {e}"
      | .ok n => .ok n

def Series.newest (series : Series) (count : ℤ) : List Decimal :=
  series.values.drop (series.values.length - count.toNat)

def sma (L : Libs) (x n : Arg) : Go Decimal := do
  let series ← Go.ofExcept (historyWindow "SMA" x)
  let count ← Go.ofExcept (windowSize L "SMA" series n)
  divRoundByInt (Scalar.total (series.newest count)) count calculatedPrecision

def weightedTotal (values : List Decimal) : Decimal :=
  values.zipIdx.foldl (fun weighted (v,i) => weighted.add (v.mul (.ofInt (i + 1 : ℕ)))) .zero

def wma (L : Libs) (x n : Arg) : Go Decimal := do
  let series ← Go.ofExcept (historyWindow "WMA" x)
  let count ← Go.ofExcept (windowSize L "WMA" series n)
  divRoundByInt (weightedTotal (series.newest count)) (count * (count + 1) / 2) calculatedPrecision

def emaStep (alpha oneMinusAlpha ema v : Decimal) : Go Decimal := do
  let new ← v.mulChecked alpha
  let old ← ema.mulChecked oneMinusAlpha
  .ok ((new.add old).round calculatedPrecision)

/-- The seed is the mean of the oldest values. -/
def ema (L : Libs) (x n : Arg) : Go Decimal := do
  let series ← Go.ofExcept (historyWindow "EMA" x)
  let count ← Go.ofExcept (windowSize L "EMA" series n)
  let seed ← divRoundByInt (Scalar.total (series.values.take count.toNat)) count calculatedPrecision
  let alpha ← divRoundByInt (.ofInt 2) (count + 1) doublePrecision
  (series.values.drop count.toNat).foldlM (emaStep alpha ((Decimal.ofInt 1).sub alpha)) seed

def WithinRounded (values : List Decimal) (r : Decimal) : Prop :=
  ∃ low ∈ values, ∃ high ∈ values, (∀ v ∈ values, low.toRat ≤ v.toRat ∧ v.toRat ≤ high.toRat) ∧
    (low.round calculatedPrecision).toRat ≤ r.toRat ∧ r.toRat ≤ (high.round calculatedPrecision).toRat

variable {α : Type} {low high : ℚ}
lemma toRat_foldl_add (f : α → Decimal) (l : List α) (d : Decimal) :
    (l.foldl (fun d a => d.add (f a)) d).toRat = d.toRat + (l.map fun a => (f a).toRat).sum := by
  induction l generalizing d with
  | nil => rw [foldl_nil,map_nil,sum_nil,add_zero]
  | cons a l ih => rw [foldl_cons,ih,toRat_add,map_cons,sum_cons,add_assoc]

variable {l : List α}
lemma exponent_foldl_add {f : α → Decimal} {d : Decimal} {bound : ℤ} (hl : ∀ a ∈ l, -bound ≤ (f a).exponent)
    (hlow : -bound ≤ d.exponent) (hhigh : d.exponent ≤ 0) :
    -bound ≤ (l.foldl (fun d a => d.add (f a)) d).exponent ∧ (l.foldl (fun d a => d.add (f a)) d).exponent ≤ 0 := by
  induction l generalizing d with
  | nil => exact ⟨hlow,hhigh⟩
  | cons a l ih =>
    exact ih (fun b hb => hl b (mem_cons_of_mem _ hb)) (le_min hlow (hl a mem_cons_self))
      ((min_le_left _ _).trans hhigh)

lemma weighted_sum_bounds {f w : α → ℚ} (h : ∀ a ∈ l, 0 ≤ w a ∧ low ≤ f a ∧ f a ≤ high) :
    low * (l.map w).sum ≤ (l.map fun a => f a * w a).sum ∧ (l.map fun a => f a * w a).sum ≤ high * (l.map w).sum := by
  induction l with
  | nil => simp
  | cons a l ih =>
    obtain ⟨hw,hlow,hhigh⟩ := h a mem_cons_self
    obtain ⟨ihlow,ihhigh⟩ := ih fun b hb => h b (mem_cons_of_mem _ hb)
    simp only [map_cons,sum_cons,mul_add]
    exact ⟨add_le_add (mul_le_mul_of_nonneg_right hlow hw) ihlow,add_le_add (mul_le_mul_of_nonneg_right hhigh hw) ihhigh⟩

lemma sum_places (l : List α) (k : ℕ) :
    2 * ((l.zipIdx k).map fun p => ((p.2 + 1 : ℕ) : ℚ)).sum = l.length * (l.length + 1 + 2 * k) := by
  induction l generalizing k with
  | nil => simp
  | cons a l ih =>
    rw [zipIdx_cons,map_cons,sum_cons,mul_add,ih]
    push_cast [length_cons]
    ring

variable {L : Libs} {series : Series} {n : Arg} {count : ℤ} {values : List Decimal} {x r : Decimal} {prec : ℕ} {low high : ℚ}
variable {name : String}
lemma windowSize_bounds (h : windowSize L name series n = .ok count) :
    1 ≤ count ∧ count ≤ series.values.length := by
  unfold windowSize at h
  split at h
  · cases h
  · split_ifs at h
    split at h
    · cases h
    · cases h
      exact decimalToInt_bounds (by assumption)

lemma divRoundByInt_spec (hcount : 0 < count) :
    (∀ r, divRoundByInt x count prec = .ok r → r.toRat = roundedTo prec (x.toRat / count) ∧ r.exponent = -prec) ∧
      (Decimal.DivisionFits x (.ofInt count) prec → ∃ r, divRoundByInt x count prec = .ok r) := by
  have hne : (Decimal.ofInt count).coefficient ≠ 0 := hcount.ne'
  have heq : divRoundByInt x count prec = x.divRound (.ofInt count) prec := by
    rw [divRoundByInt,if_neg (not_le.2 hcount),divRound,Decimal.isZero,if_neg (by simpa using hne)]
  rw [heq]
  refine ⟨?_,fun hfits => ⟨_,divRound_eq hne hfits⟩⟩
  intro r hr
  have hfits := divisionFits_of_ok hr
  refine ⟨?_,?_⟩
  · rw [toRat_divRound hne hfits hr,toRat_ofInt]
  · rw [divRound_eq hne hfits] at hr
    cases hr
    rfl

lemma within_of_divRoundByInt (hcount : 0 < count) (h : divRoundByInt x count prec = .ok r)
    (hlow : low * count ≤ x.toRat) (hhigh : x.toRat ≤ high * count) :
    roundedTo prec low ≤ r.toRat ∧ r.toRat ≤ roundedTo prec high := by
  have hpos : (0 : ℚ) < count := Int.cast_pos.2 hcount
  rw [((divRoundByInt_spec hcount).1 r h).1]
  exact ⟨roundedTo_mono ((le_div_iff₀ hpos).2 hlow),roundedTo_mono ((div_le_iff₀ hpos).2 hhigh)⟩

lemma total_bounded (h : ∀ v ∈ values, low ≤ v.toRat ∧ v.toRat ≤ high) :
    low * values.length ≤ (Scalar.total values).toRat ∧ (Scalar.total values).toRat ≤ high * values.length := by
  have hsum := weighted_sum_bounds (w := fun _ => 1) fun v hv => ⟨zero_le_one,h v hv⟩
  have htotal : (Scalar.total values).toRat = (values.map Decimal.toRat).sum := by
    exact (toRat_foldl_add id values .zero).trans (by simp)
  rw [htotal]
  simpa using hsum

lemma weightedTotal_bounded (h : ∀ v ∈ values, low ≤ v.toRat ∧ v.toRat ≤ high) :
    low * (values.length * (values.length + 1) / 2) ≤ (weightedTotal values).toRat ∧
      (weightedTotal values).toRat ≤ high * (values.length * (values.length + 1) / 2) := by
  have hsum := weighted_sum_bounds (l := values.zipIdx) (f := fun p => p.1.toRat) (w := fun p => ((p.2 + 1 : ℕ) : ℚ))
    fun p hp => ⟨Nat.cast_nonneg _,h p.1 (fst_mem_of_mem_zipIdx hp)⟩
  have htotal : (weightedTotal values).toRat = (values.zipIdx.map fun p => p.1.toRat * ((p.2 + 1 : ℕ) : ℚ)).sum := by
    rw [weightedTotal,toRat_foldl_add fun p : Decimal × ℕ => p.1.mul (.ofInt (p.2 + 1 : ℕ))]
    simp [toRat_mul,toRat_ofInt]
  have hweights := sum_places values 0
  rw [htotal]
  have hall : (values.zipIdx.map fun p => ((p.2 + 1 : ℕ) : ℚ)).sum = values.length * (values.length + 1) / 2 := by
    rw [Nat.cast_zero,mul_zero,add_zero] at hweights
    linarith
  rwa [hall] at hsum

lemma withinRounded_of_bounds (hne : values ≠ [])
    (h : ∀ low high, (∀ v ∈ values, low ≤ v.toRat ∧ v.toRat ≤ high) →
      roundedTo calculatedPrecision low ≤ r.toRat ∧ r.toRat ≤ roundedTo calculatedPrecision high) :
    WithinRounded values r := by
  have hne' : values.toFinset.Nonempty := toFinset_nonempty_iff values |>.2 hne
  obtain ⟨low,hlow,hleast⟩ := values.toFinset.exists_min_image Decimal.toRat hne'
  obtain ⟨high,hhigh,hgreatest⟩ := values.toFinset.exists_max_image Decimal.toRat hne'
  have hbounds : ∀ v ∈ values, low.toRat ≤ v.toRat ∧ v.toRat ≤ high.toRat := fun v hv =>
    ⟨hleast v (mem_toFinset.2 hv),hgreatest v (mem_toFinset.2 hv)⟩
  refine ⟨low,mem_toFinset.1 hlow,high,mem_toFinset.1 hhigh,hbounds,?_⟩
  rw [toRat_round,toRat_round]
  exact h _ _ hbounds

lemma historyWindow_series (name : String) (h : windowSize L name series n = .ok count) :
    historyWindow name (.series series) = .ok series := by
  have hbounds := windowSize_bounds h
  exact if_neg (by omega)

lemma Series.length_newest (h : windowSize L name series n = .ok count) :
    ((series.newest count).length : ℤ) = count ∧ series.newest count ≠ [] := by
  have hbounds := windowSize_bounds h
  have hlength : ((series.newest count).length : ℤ) = count := by
    rw [Series.newest,length_drop]
    omega
  refine ⟨hlength,fun hnil => ?_⟩
  rw [hnil,length_nil] at hlength
  omega

lemma average_eq (h : windowSize L name series n = .ok count) (body : Series → ℤ → Go Decimal) :
    (do
      let series ← Go.ofExcept (historyWindow name (.series series))
      let count ← Go.ofExcept (windowSize L name series n)
      body series count) = body series count := by
  rw [historyWindow_series name h]
  change Go.ofExcept (windowSize L name series n) >>= body series = _
  rw [h]
  rfl

lemma divRoundByInt_returns (hlow : -2 ^ 29 ≤ x.exponent) (hhigh : x.exponent ≤ 0) (hcount : 0 < count) (hprec : prec ≤ 36) :
    ∃ r, divRoundByInt x count prec = .ok r := by
  apply (divRoundByInt_spec hcount).2
  constructor <;> simp only [Decimal.ofInt] <;> omega

lemma total_returns (h : ∀ v ∈ values, |v.exponent| ≤ 2 ^ 29) (hcount : 0 < count) :
    ∃ r, divRoundByInt (Scalar.total values) count calculatedPrecision = .ok r := by
  have hlow : ∀ v ∈ values, -2 ^ 29 ≤ v.exponent := fun v hv => (abs_le.1 (h v hv)).1
  obtain ⟨hlow,hhigh⟩ := exponent_foldl_add (f := id) (d := .zero) hlow (by decide) (by decide)
  exact divRoundByInt_returns hlow hhigh hcount (by decide)

lemma weightedTotal_returns (h : ∀ v ∈ values, |v.exponent| ≤ 2 ^ 29) (hcount : 0 < count) :
    ∃ r, divRoundByInt (weightedTotal values) count calculatedPrecision = .ok r := by
  have hlow : ∀ p ∈ values.zipIdx, -2 ^ 29 ≤ (p.1.mul (.ofInt (p.2 + 1 : ℕ))).exponent := by
    intro p hp
    have hv := abs_le.1 (h p.1 (fst_mem_of_mem_zipIdx hp))
    simp only [Decimal.mul,Decimal.ofInt]
    omega
  obtain ⟨hlow,hhigh⟩ := exponent_foldl_add (d := .zero) hlow (by decide) (by decide)
  exact divRoundByInt_returns hlow hhigh hcount (by decide)

lemma alpha_spec {alpha : Decimal} (hcount : 0 < count) (h : divRoundByInt (.ofInt 2) (count + 1) doublePrecision = .ok alpha) :
    (0 ≤ alpha.toRat ∧ alpha.toRat ≤ 1) ∧ alpha.exponent = -36 := by
  obtain ⟨hvalue,hexp⟩ := (divRoundByInt_spec (by omega)).1 alpha h
  have hbounds := @within_of_divRoundByInt _ _ _ _ 0 1 (by omega) h (by rw [zero_mul,toRat_ofInt]; norm_num)
    (by rw [one_mul,toRat_ofInt]; exact_mod_cast (by omega : 2 ≤ count + 1))
  have hzero : roundedTo doublePrecision 0 = 0 := by simpa using @roundedTo_intCast_mul doublePrecision 0
  have hone : roundedTo doublePrecision 1 = 1 := by
    have h := @roundedTo_intCast_mul doublePrecision (10 ^ 36)
    rwa [show ((10 ^ 36 : ℤ) : ℚ) * 10 ^ (-(doublePrecision : ℤ)) = 1 by norm_num [doublePrecision,calculatedPrecision]] at h
  rw [hzero,hone] at hbounds
  exact ⟨hbounds,hexp⟩

variable {alpha e v : Decimal}
lemma emaStep_within (hα : 0 ≤ alpha.toRat ∧ alpha.toRat ≤ 1) (hv : low ≤ v.toRat ∧ v.toRat ≤ high)
    (he : roundedTo calculatedPrecision low ≤ e.toRat ∧ e.toRat ≤ roundedTo calculatedPrecision high)
    (h : emaStep alpha ((Decimal.ofInt 1).sub alpha) e v = .ok r) :
    roundedTo calculatedPrecision low ≤ r.toRat ∧ r.toRat ≤ roundedTo calculatedPrecision high := by
  obtain ⟨new,hnew,h⟩ := bind_ok_iff.1 h
  obtain ⟨old,hold,h⟩ := bind_ok_iff.1 h
  cases h
  rw [toRat_round,toRat_add,eq_mul_of_mulChecked hnew,eq_mul_of_mulChecked hold,
    toRat_mul,toRat_mul,toRat_sub,toRat_ofInt,Int.cast_one]
  exact roundedTo_average hα.1 hα.2 hv he

lemma emaStep_returns (hα : alpha.exponent = -36) (hv : |v.exponent| ≤ 2 ^ 29) (he : e.exponent = -18) :
    ∃ r, emaStep alpha ((Decimal.ofInt 1).sub alpha) e v = .ok r ∧ r.exponent = -18 := by
  have hrest : ((Decimal.ofInt 1).sub alpha).exponent = -36 := by
    simp only [Decimal.sub,Decimal.ofInt,hα]
    decide
  rw [emaStep,mulChecked_eq_mul (hv.trans (by decide)) (by rw [hα]; decide),ok_bind,
    mulChecked_eq_mul (by rw [he]; decide) (by rw [hrest]; decide),ok_bind]
  exact ⟨_,rfl,exponent_round _ _⟩

lemma emaSteps_return (hα : alpha.exponent = -36) (hvalues : ∀ v ∈ values, |v.exponent| ≤ 2 ^ 29) (he : e.exponent = -18) :
    ∃ r, values.foldlM (emaStep alpha ((Decimal.ofInt 1).sub alpha)) e = .ok r := by
  induction values generalizing e with
  | nil => exact ⟨e,rfl⟩
  | cons v values ih =>
    obtain ⟨next,hnext,hexp⟩ := emaStep_returns hα (hvalues v mem_cons_self) he
    obtain ⟨r,hr⟩ := ih (fun v hv => hvalues v (mem_cons_of_mem _ hv)) hexp
    exact ⟨r,by rw [foldlM_cons,hnext,ok_bind,hr]⟩

/-- Whatever the average returns is within the values it averages, and it returns for values
of the size that is stored. -/
def StaysWithin (L : Libs) (name : String) (average : Libs → Arg → Arg → Go Decimal) (values : Series → ℤ → List Decimal) :
    Prop :=
  ∀ series n count, windowSize L name series n = .ok count →
    (∀ r, average L (.series series) n = .ok r → WithinRounded (values series count) r) ∧
      ((∀ v ∈ series.values, |v.exponent| ≤ 2 ^ 29) → ∃ r, average L (.series series) n = .ok r)

lemma sma_within (L : Libs) : StaysWithin L "SMA" sma Series.newest := by
  intro series n count h
  have hlength := Series.length_newest h
  obtain ⟨hpos,-⟩ := windowSize_bounds h
  rw [show sma L (.series series) n = _ from average_eq h _]
  refine ⟨fun r hr => withinRounded_of_bounds hlength.2 fun low high hvalues => ?_,fun hexponent => ?_⟩
  · have htotal := total_bounded hvalues
    rw [show ((series.newest count).length : ℚ) = count by exact_mod_cast hlength.1] at htotal
    exact within_of_divRoundByInt hpos hr htotal.1 htotal.2
  · exact total_returns (fun v hv => hexponent v (mem_of_mem_drop hv)) hpos

lemma wma_within (L : Libs) : StaysWithin L "WMA" wma Series.newest := by
  intro series n count h
  have hlength := Series.length_newest h
  obtain ⟨hpos,-⟩ := windowSize_bounds h
  have heven : 2 * (count * (count + 1) / 2) = count * (count + 1) := Int.mul_ediv_cancel' (Int.even_mul_succ_self count).two_dvd
  have hweight : 0 < count * (count + 1) / 2 := by
    have : 0 < count * (count + 1) := by positivity
    omega
  rw [show wma L (.series series) n = _ from average_eq h _]
  refine ⟨fun r hr => withinRounded_of_bounds hlength.2 fun low high hvalues => ?_,fun hexponent => ?_⟩
  · have htotal := weightedTotal_bounded hvalues
    have hcast : (count : ℚ) * (count + 1) / 2 = (count * (count + 1) / 2 : ℤ) := by
      have : (2 : ℚ) * (count * (count + 1) / 2 : ℤ) = count * (count + 1) := by exact_mod_cast heven
      linarith
    rw [show ((series.newest count).length : ℚ) = count by exact_mod_cast hlength.1,hcast] at htotal
    exact within_of_divRoundByInt hweight hr htotal.1 htotal.2
  · exact weightedTotal_returns (fun v hv => hexponent v (mem_of_mem_drop hv)) hweight

lemma ema_within (L : Libs) : StaysWithin L "EMA" ema fun series _ => series.values := by
  intro series n count h
  obtain ⟨hpos,hle⟩ := windowSize_bounds h
  have hne : series.values ≠ [] := fun hnil => by
    rw [hnil,length_nil] at hle
    omega
  have htaken : ((series.values.take count.toNat).length : ℤ) = count := by
    rw [length_take]
    omega
  rw [show ema L (.series series) n = _ from average_eq h _]
  refine ⟨fun r hr => withinRounded_of_bounds hne fun low high hvalues => ?_,fun hexponent => ?_⟩
  · obtain ⟨seed,hseed,hr⟩ := bind_ok_iff.1 hr
    obtain ⟨alpha,halpha,hr⟩ := bind_ok_iff.1 hr
    have holdest : ∀ v ∈ series.values.take count.toNat, low ≤ v.toRat ∧ v.toRat ≤ high :=
      fun v hv => hvalues v (mem_of_mem_take hv)
    have htotal := total_bounded holdest
    rw [show ((series.values.take count.toNat).length : ℚ) = count by exact_mod_cast htaken] at htotal
    -- the seed is within the bounds, and no step leaves them
    refine foldlM_invariant
      (P := fun e => roundedTo calculatedPrecision low ≤ e.toRat ∧ e.toRat ≤ roundedTo calculatedPrecision high)
      (within_of_divRoundByInt hpos hseed htotal.1 htotal.2) ?_ hr
    intro v hv e next he hnext
    exact emaStep_within (alpha_spec hpos halpha).1 (hvalues v (mem_of_mem_drop hv)) he hnext
  · obtain ⟨seed,hseed⟩ := total_returns (fun v hv => hexponent v (mem_of_mem_take hv)) hpos
    obtain ⟨alpha,halpha⟩ := @divRoundByInt_returns (count + 1) (.ofInt 2) doublePrecision (by decide) (by decide) (by omega) (by decide)
    rw [hseed,ok_bind,halpha,ok_bind]
    exact emaSteps_return (alpha_spec hpos halpha).2 (fun v hv => hexponent v (mem_of_mem_drop hv))
      ((divRoundByInt_spec hpos).1 seed hseed).2

/-- None of the averages leaves the rounded range of its values. -/
theorem movingAverages_within (L : Libs) :
    StaysWithin L "SMA" sma Series.newest ∧ StaysWithin L "WMA" wma Series.newest ∧
      StaysWithin L "EMA" ema fun series _ => series.values :=
  ⟨sma_within L,wma_within L,ema_within L⟩

example : ema scalarLibs (.series ⟨[⟨1,0⟩,⟨2,0⟩,⟨5,0⟩],[1,2,3],rfl,by decide⟩) (.integer .int 2) =
    .ok ⟨3833333333333333333,-18⟩ := by decide +kernel

end DataStreams
