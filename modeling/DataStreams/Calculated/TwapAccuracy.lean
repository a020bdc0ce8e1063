import DataStreams.Calculated.OperandBounds
import DataStreams.Calculated.TwapDense
import DataStreams.Foundation.RoundedSteps

/-! An accepted window is averaged as its dense series. Only the steps within a gap are
approximated. -/
namespace DataStreams
open List Go Real Decimal Rat
open DenseSeries

lemma abs_log_sub_le {x y m : ℝ} (hm : 0 < m) (hx : m ≤ x) (hy : m ≤ y) : |Real.log x - Real.log y| ≤ |x - y| / m := by
  have hone : ∀ {a b : ℝ}, m ≤ a → m ≤ b → Real.log a - Real.log b ≤ |a - b| / m := by
    intro a b ha hb
    have hapos := hm.trans_le ha
    have hbpos := hm.trans_le hb
    calc Real.log a - Real.log b = Real.log (a / b) := (log_div hapos.ne' hbpos.ne').symm
      _ ≤ a / b - 1 := log_le_sub_one_of_pos (div_pos hapos hbpos)
      _ = (a - b) / b := by rw [sub_div,div_self hbpos.ne']
      _ ≤ |a - b| / m := div_le_div₀ (abs_nonneg _) (le_abs_self _) hm hb
  rw [abs_le]
  constructor
  · have hswap := hone hy hx
    rw [abs_sub_comm] at hswap
    linarith
  · exact hone hx hy

/-- Two neighbouring prices of a window that is averaged accurately. -/
structure Near (left right : Decimal) : Prop where
  left_pos : 0 < left.toRat
  right_pos : 0 < right.toRat
  left_le : left.toRat ≤ 10 ^ 6 * right.toRat
  right_le : right.toRat ≤ 10 ^ 6 * left.toRat
  left_exponent : |left.exponent| ≤ 2 ^ 29
  right_exponent : |right.exponent| ≤ 2 ^ 29

section Ratio
variable {left right : Decimal}
lemma Near.ratio_bounds (h : Near left right) :
    (1 : ℝ) / 10 ^ 6 ≤ right.toRat / left.toRat ∧ (right.toRat : ℝ) / left.toRat ≤ 10 ^ 6 := by
  have hl : (0 : ℝ) < left.toRat := by exact_mod_cast h.left_pos
  have hlr : (left.toRat : ℝ) ≤ 10 ^ 6 * right.toRat := by exact_mod_cast h.left_le
  have hrl : (right.toRat : ℝ) ≤ 10 ^ 6 * left.toRat := by exact_mod_cast h.right_le
  constructor
  · rw [div_le_div_iff₀ (by positivity) hl]
    linarith
  · rwa [div_le_iff₀ hl]

lemma Near.logGrowth_close (h : Near left right) :
    ∃ growth l, divRound right left 46 = .ok growth ∧ lnDecimal growth (46 : ℕ) = .ok l ∧ l.exponent = -46 ∧
      |(l.toRat : ℝ) - Real.log (right.toRat / left.toRat)| ≤ 102 / 10 ^ 42 := by
  obtain ⟨hlow,hhigh⟩ := h.ratio_bounds
  have hne : left.coefficient ≠ 0 := (toRat_pos.1 h.left_pos).ne'
  have hel := abs_le.1 h.left_exponent
  have her := abs_le.1 h.right_exponent
  obtain ⟨growth,hgrowth,hexp,hclose⟩ := divRound_spec hne
    (show Decimal.DivisionFits right left 46 by constructor <;> omega)
  have hdivide : divRound right left 46 = .ok growth := by
    rw [divRound,if_neg (by rwa [Decimal.isZero,decide_eq_true_iff]),hgrowth]
  have hclose' := (cast_le (K := ℝ)).2 hclose
  rw [cast_halfUnit] at hclose'
  push_cast at hclose'
  have hbounds := abs_le.1 hclose'
  have hlowg : (1 : ℝ) / (2 * 10 ^ 6) ≤ growth.toRat := by
    norm_num at hbounds hlow ⊢
    linarith [hbounds.1]
  have hpos : 0 < growth.toRat := by
    have hpos' : (0 : ℝ) < growth.toRat := lt_of_lt_of_le (by norm_num) hlowg
    exact_mod_cast hpos'
  have hsize : |growth.toRat| ≤ 2 ^ 20 := by
    have hsize' : (growth.toRat : ℝ) ≤ 2 ^ 20 := by
      norm_num at hbounds hhigh ⊢
      linarith [hbounds.2]
    rw [abs_of_pos hpos]
    exact_mod_cast hsize'
  have hbits : growth.coefficientBits ≤ 768 :=
    (coefficientBits_le (E := 46) hsize (by rw [hexp])).trans (by decide)
  obtain ⟨l,hl,hlexp,hlclose⟩ := lnDecimal_close (toRat_pos.1 hpos) hbits (by rw [hexp]; decide) (show 46 ≤ 1000 by decide)
  refine ⟨growth,l,hdivide,hl,hlexp,?_⟩
  have hlog := abs_log_sub_le (show (0 : ℝ) < 1 / (2 * 10 ^ 6) by norm_num) hlowg
    (le_trans (by norm_num) hlow : 1 / (2 * 10 ^ 6) ≤ (right.toRat : ℝ) / left.toRat)
  calc |(l.toRat : ℝ) - Real.log (right.toRat / left.toRat)|
      = |((l.toRat : ℝ) - Real.log growth.toRat) + (Real.log growth.toRat - Real.log (right.toRat / left.toRat))| := by ring_nf
    _ ≤ 51 / (100 * 10 ^ 46) + |(growth.toRat : ℝ) - right.toRat / left.toRat| / (1 / (2 * 10 ^ 6)) :=
        (abs_add_le _ _).trans (add_le_add hlclose hlog)
    _ ≤ 51 / (100 * 10 ^ 46) + 1 / (2 * 10 ^ 46) / (1 / (2 * 10 ^ 6)) :=
        add_le_add le_rfl (div_le_div_of_nonneg_right hclose' (by norm_num))
    _ ≤ 102 / 10 ^ 42 := by norm_num

noncomputable def gapRatio (left right : Decimal) (span : ℕ) : ℝ := exp (Real.log (right.toRat / left.toRat) / span)

lemma gapRatio_pos (left right : Decimal) (span : ℕ) : 0 < gapRatio left right span := exp_pos _

variable {span : ℕ}
variable (h : Near left right)
include h

lemma Near.gapRatio_pow (hspan : span ≠ 0) : gapRatio left right span ^ span = right.toRat / left.toRat := by
  have hpos : (0 : ℝ) < right.toRat / left.toRat := lt_of_lt_of_le (by norm_num) h.ratio_bounds.1
  have hne : (span : ℝ) ≠ 0 := by exact_mod_cast hspan
  rw [gapRatio,← exp_nat_mul,mul_div_cancel₀ _ hne,exp_log hpos]

lemma Near.abs_log_le : |Real.log (right.toRat / left.toRat)| ≤ 15 := by
  obtain ⟨hlow,hhigh⟩ := h.ratio_bounds
  have hpos : (0 : ℝ) < right.toRat / left.toRat := lt_of_lt_of_le (by norm_num) hlow
  have hupper := log_le_log hpos hhigh
  have hlower := log_le_log (by norm_num) hlow
  rw [one_div,log_inv,log_pow] at hlower
  rw [log_pow] at hupper
  push_cast at hupper hlower
  rw [abs_le]
  constructor <;> linarith [log_ten_le]

lemma Near.gapRatio_le (hspan : 2 ≤ span) : gapRatio left right span ≤ 10 ^ 3 := by
  have hpow := h.gapRatio_pow (show span ≠ 0 by omega)
  by_contra hlarge
  rw [not_le] at hlarge
  have hge : (10 ^ 3 : ℝ) ^ 2 < gapRatio left right span ^ span := by
    calc (10 ^ 3 : ℝ) ^ 2 ≤ (10 ^ 3) ^ span := pow_le_pow_right₀ (by norm_num) hspan
      _ < gapRatio left right span ^ span := pow_lt_pow_left₀ hlarge (by norm_num) (by omega)
  rw [hpow] at hge
  linarith [h.ratio_bounds.2]

/-- The computed ratio of one step is close to the geometric one. -/
lemma Near.stepRatio_close (hspan : 2 ≤ span) :
    ∃ c, twapStepRatio left right span = .ok c ∧ |(c.toRat : ℝ) - gapRatio left right span| ≤ 1 / 10 ^ 36 := by
  obtain ⟨growth,l,hgrowth,hl,hlexp,hlclose⟩ := h.logGrowth_close
  have hspan' : (2 : ℝ) ≤ span := by exact_mod_cast hspan
  have hfits : Decimal.DivisionFits l (.ofInt span) 46 := by
    have hzero : (Decimal.ofInt span).exponent = 0 := rfl
    constructor <;> rw [hlexp,hzero] <;> decide
  obtain ⟨m,hm,hmexp,hmclose⟩ := divRound_spec (show (Decimal.ofInt span).coefficient ≠ 0 from (by omega : (span : ℤ) ≠ 0)) hfits
  have hdivide : divRoundByInt l span 46 = .ok m := by
    rw [divRoundByInt,if_neg (by omega),divRound,if_neg,hm]
    rw [Decimal.isZero,decide_eq_true_iff]
    exact show (span : ℤ) ≠ 0 by omega
  have hmclose' := (cast_le (K := ℝ)).2 hmclose
  rw [cast_halfUnit,toRat_ofInt] at hmclose'
  push_cast at hmclose'
  -- the logarithm of the ratio is off by less than a unit in the 40th place
  have hlogratio : |(m.toRat : ℝ) - Real.log (right.toRat / left.toRat) / span| ≤ 52 / 10 ^ 42 := by
    calc |(m.toRat : ℝ) - Real.log (right.toRat / left.toRat) / span|
        = |((m.toRat : ℝ) - l.toRat / span) + (l.toRat - Real.log (right.toRat / left.toRat)) / span| := by ring_nf
      _ ≤ |(m.toRat : ℝ) - l.toRat / span| + |(l.toRat - Real.log (right.toRat / left.toRat)) / span| := abs_add_le _ _
      _ ≤ 1 / (2 * 10 ^ 46) + 102 / 10 ^ 42 / 2 := by
          refine add_le_add hmclose' ?_
          rw [abs_div,abs_of_pos (show (0 : ℝ) < span by linarith)]
          exact div_le_div₀ (by norm_num) hlclose (by norm_num) hspan'
      _ ≤ 52 / 10 ^ 42 := by norm_num
  have hsmall : |m.toRat| ≤ maxExpArgument := by
    have hlog := h.abs_log_le
    have hquot : |Real.log (right.toRat / left.toRat) / span| ≤ 15 := by
      rw [abs_div,abs_of_pos (show (0 : ℝ) < span by linarith),div_le_iff₀ (by linarith)]
      nlinarith
    have hreal : |(m.toRat : ℝ)| ≤ 2400 := by
      rw [abs_le] at hlogratio hquot ⊢
      norm_num at hlogratio
      constructor <;> linarith [hlogratio.1,hlogratio.2,hquot.1,hquot.2]
    rw [← cast_le (K := ℝ)]
    push_cast [maxExpArgument]
    exact hreal
  obtain ⟨c,hc,-,hcclose⟩ := expDecimal_close hsmall (by rw [hmexp]; decide) (show 36 ≤ 10000 by decide)
  refine ⟨c,?_,?_⟩
  · change (do
      let growth ← divRound right left 46
      let logGrowth ← lnDecimal growth (46 : ℕ)
      let logRatio ← divRoundByInt logGrowth span 46
      expDecimal logRatio (36 : ℕ)) = .ok c
    rw [hgrowth,ok_bind,hl,ok_bind,hdivide,ok_bind,hc]
  · have hρ := gapRatio_pos left right span
    have hle := h.gapRatio_le hspan
    have hexp : |exp m.toRat - gapRatio left right span| ≤ 10 ^ 3 * (104 / 10 ^ 42) := by
      have hsplit : exp m.toRat - gapRatio left right span =
          gapRatio left right span * (exp (m.toRat - Real.log (right.toRat / left.toRat) / span) - 1) := by
        rw [mul_sub,mul_one,gapRatio,← exp_add]
        ring_nf
      have hone := abs_exp_sub_one_le (hlogratio.trans (by norm_num))
      rw [hsplit,abs_mul,abs_of_pos hρ]
      exact mul_le_mul hle (hone.trans (by linarith)) (abs_nonneg _) (by norm_num)
    calc |(c.toRat : ℝ) - gapRatio left right span|
        = |((c.toRat : ℝ) - exp m.toRat) + (exp m.toRat - gapRatio left right span)| := by ring_nf
      _ ≤ 14 / (25 * 10 ^ 36) + 10 ^ 3 * (104 / 10 ^ 42) := (abs_add_le _ _).trans (add_le_add hcclose hexp)
      _ ≤ 1 / 10 ^ 36 := by norm_num

end Ratio

section Steps
variable {left right : Decimal} {span : ℕ}
def nextPrice (ratio price : Decimal) : Decimal := (price.mul ratio).round doublePrecision

lemma toRat_twapSteps (ratio : Decimal) (k : ℕ) (price sum : Decimal) :
    (twapSteps ratio k price sum).toRat = sum.toRat + ∑ j ∈ Finset.range k, ((nextPrice ratio)^[j + 1] price).toRat := by
  induction k generalizing price sum with
  | zero => simp [twapSteps]
  | succ k ih =>
    have hstep : twapSteps ratio (k + 1) price sum = twapSteps ratio k (nextPrice ratio price) (sum.add (nextPrice ratio price)) := rfl
    rw [hstep,ih,toRat_add,Finset.sum_range_succ',add_assoc,add_comm (nextPrice ratio price).toRat]
    rfl

lemma exponent_twapSteps {ratio price sum : Decimal} (k : ℕ) (hsum : |sum.exponent| ≤ 2 ^ 29) :
    |(twapSteps ratio k price sum).exponent| ≤ 2 ^ 29 := by
  induction k generalizing price sum with
  | zero => exact hsum
  | succ k ih =>
    apply ih
    have hround : (nextPrice ratio price).exponent = -36 := exponent_round _ _
    have hadd : (sum.add (nextPrice ratio price)).exponent = min sum.exponent (nextPrice ratio price).exponent := rfl
    have hbounds := abs_le.1 hsum
    change |(sum.add (nextPrice ratio price)).exponent| ≤ 2 ^ 29
    rw [hadd,hround,abs_le]
    omega

variable {k : ℕ}
variable (h : Near left right) (hleft : left.toRat ≤ 10 ^ 12) (hright : right.toRat ≤ 10 ^ 12) (hspan : span ≠ 0)
include h hleft hright hspan

lemma Near.weight_le
    (hk : k ≤ span) :
    max 1 (gapRatio left right span) ^ k ≤ 10 ^ 6 ∧ (left.toRat : ℝ) * max 1 (gapRatio left right span) ^ k ≤ 10 ^ 12 := by
  have hl : (0 : ℝ) < left.toRat := by exact_mod_cast h.left_pos
  have hleft' : (left.toRat : ℝ) ≤ 10 ^ 12 := by exact_mod_cast hleft
  rcases le_total (gapRatio left right span) 1 with hle | hge
  · rw [max_eq_left hle,one_pow,mul_one]
    exact ⟨by norm_num,hleft'⟩
  · have hpow : gapRatio left right span ^ k ≤ right.toRat / left.toRat :=
      (pow_le_pow_right₀ hge hk).trans (h.gapRatio_pow hspan).le
    rw [max_eq_right hge]
    refine ⟨hpow.trans h.ratio_bounds.2,?_⟩
    calc (left.toRat : ℝ) * gapRatio left right span ^ k ≤ left.toRat * (right.toRat / left.toRat) :=
          mul_le_mul_of_nonneg_left hpow hl.le
      _ = right.toRat := mul_div_cancel₀ _ hl.ne'
      _ ≤ 10 ^ 12 := by exact_mod_cast hright

/-- Repeated rounding does not lead a filled price astray. -/
lemma Near.nextPrice_close (hday : span ≤ 86400) {c : Decimal}
    (hc : |(c.toRat : ℝ) - gapRatio left right span| ≤ 1 / 10 ^ 36) (hk : k ≤ span) :
    |(((nextPrice c)^[k] left).toRat : ℝ) - left.toRat * gapRatio left right span ^ k| ≤ 1 / 10 ^ 19 := by
  have hl : (0 : ℝ) < left.toRat := by exact_mod_cast h.left_pos
  obtain ⟨hW,hpW⟩ := h.weight_le hleft hright hspan hk
  have hkday : (k : ℝ) ≤ 86400 := by exact_mod_cast hk.trans hday
  have hstep : ∀ j, |(((nextPrice c)^[j + 1] left).toRat : ℝ) - ((nextPrice c)^[j] left).toRat * c.toRat| ≤ 1 / (2 * 10 ^ 36) := by
    intro j
    rw [Function.iterate_succ_apply']
    have hround := (cast_le (K := ℝ)).2 ((((nextPrice c)^[j] left).mul c).abs_round_sub_le (36 : ℕ))
    rw [cast_halfUnit,toRat_mul] at hround
    push_cast at hround
    exact hround
  have herror := RoundedSteps.abs_sub_geometric_le hl.le (gapRatio_pos left right span).le (le_max_right 1 _) (le_max_left 1 _)
    (by norm_num) (by norm_num) hc (x := fun j => (((nextPrice c)^[j] left).toRat : ℝ)) rfl hstep k
  refine herror.trans ?_
  have hgrow := RoundedSteps.one_add_pow_le (k := k) (ε := 1 / 10 ^ 36) (by norm_num) (by linarith)
  have hsum : max 1 (gapRatio left right span) ^ k * (1 / (2 * 10 ^ 36) + left.toRat * (1 / 10 ^ 36)) ≤ 101 / 10 ^ 26 := by
    calc max 1 (gapRatio left right span) ^ k * (1 / (2 * 10 ^ 36) + left.toRat * (1 / 10 ^ 36))
        = max 1 (gapRatio left right span) ^ k * (1 / (2 * 10 ^ 36)) +
            left.toRat * max 1 (gapRatio left right span) ^ k * (1 / 10 ^ 36) := by ring
      _ ≤ 10 ^ 6 * (1 / (2 * 10 ^ 36)) + 10 ^ 12 * (1 / 10 ^ 36) := by gcongr
      _ ≤ 101 / 10 ^ 26 := by norm_num
  calc (k : ℝ) * (max 1 (gapRatio left right span) ^ k * (1 / (2 * 10 ^ 36) + left.toRat * (1 / 10 ^ 36)) * (1 + 1 / 10 ^ 36) ^ k)
      ≤ 86400 * (101 / 10 ^ 26 * (11 / 10)) := by gcongr
    _ ≤ 1 / 10 ^ 19 := by norm_num

end Steps

def TwapObservation.point (o : TwapObservation) : ℕ × ℝ := (o.offset,(o.price.toRat : ℝ))

structure Neighbours (left right : TwapObservation) : Prop where
  lt : left.offset < right.offset
  span : right.offset - left.offset ≤ 86400
  near : Near left.price right.price
  left_le : left.price.toRat ≤ 10 ^ 12
  right_le : right.price.toRat ≤ 10 ^ 12

variable {left right : TwapObservation}
lemma Neighbours.gapSum_eq (h : Neighbours left right) :
    gapSum left.point right.point = ∑ j ∈ Finset.range (right.offset - left.offset - 1),
      (left.price.toRat : ℝ) * gapRatio left.price right.price (right.offset - left.offset) ^ (j + 1) := by
  have hl : (0 : ℝ) < left.price.toRat := by exact_mod_cast h.near.left_pos
  have hr : (0 : ℝ) < right.price.toRat := by exact_mod_cast h.near.right_pos
  rw [gapSum,Finset.sum_Ico_eq_sum_range]
  apply Finset.sum_congr rfl
  intro j _
  have hspan : ((right.offset : ℝ) - left.offset) = ((right.offset - left.offset : ℕ) : ℝ) := (Nat.cast_sub h.lt.le).symm
  have hplace : ((left.offset + 1 + j : ℕ) : ℝ) - left.offset = ((j + 1 : ℕ) : ℝ) := by
    push_cast
    ring
  change exp (Real.log left.price.toRat + (Real.log right.price.toRat - Real.log left.price.toRat) *
    ((((left.offset + 1 + j : ℕ) : ℝ) - left.offset) / ((right.offset : ℝ) - left.offset))) = _
  rw [hplace,hspan,exp_add,exp_log hl,← log_div hr.ne' hl.ne',gapRatio,← exp_nat_mul]
  congr 2
  ring

/-- The sum over one gap, from rounded steps. -/
lemma Neighbours.interpolate_close (h : Neighbours left right) (hgap : (right.offset : ℤ) - left.offset ≠ 1) :
    ∃ r, twapInterpolate left right = .ok r ∧ |r.exponent| ≤ 2 ^ 29 ∧
      |(r.toRat : ℝ) - gapSum left.point right.point| ≤ ((right.offset - left.offset - 1 : ℕ) : ℝ) / 10 ^ 19 := by
  have hlt := h.lt
  have hspan : 2 ≤ right.offset - left.offset := by omega
  obtain ⟨c,hc,hclose⟩ := h.near.stepRatio_close hspan
  have hratio : twapStepRatio left.price right.price (right.offset - left.offset) = .ok c := by
    have hcast : ((right.offset : ℤ) - left.offset) = ((right.offset - left.offset : ℕ) : ℤ) := by omega
    rw [hcast]
    exact hc
  refine ⟨_,by rw [twapInterpolate,hratio],exponent_twapSteps _ (by decide),?_⟩
  have hzero : Decimal.zero.toRat = 0 := by simp [Decimal.toRat,Decimal.zero]
  rw [toRat_twapSteps,hzero,zero_add,h.gapSum_eq]
  push_cast
  rw [← Finset.sum_sub_distrib]
  refine (Finset.abs_sum_le_sum_abs _ _).trans ?_
  calc ∑ j ∈ Finset.range (right.offset - left.offset - 1), |(((nextPrice c)^[j + 1] left.price).toRat : ℝ) -
        left.price.toRat * gapRatio left.price right.price (right.offset - left.offset) ^ (j + 1)|
      ≤ ∑ _j ∈ Finset.range (right.offset - left.offset - 1), 1 / 10 ^ 19 := by
        apply Finset.sum_le_sum
        intro j hj
        rw [Finset.mem_range] at hj
        exact h.near.nextPrice_close h.left_le h.right_le (by omega) h.span hclose (by omega)
    _ = ((right.offset - left.offset - 1 : ℕ) : ℝ) / 10 ^ 19 := by
        rw [Finset.sum_const,Finset.card_range,nsmul_eq_mul]
        ring

lemma gapSum_of_succ (h : (right.offset : ℤ) - left.offset = 1) : gapSum left.point right.point = 0 := by
  have hnext : left.point.1 + 1 = right.point.1 := by
    change left.offset + 1 = right.offset
    omega
  rw [gapSum,hnext,Finset.Ico_self,Finset.sum_empty]

lemma exponent_add_le {a b : Decimal} (ha : |a.exponent| ≤ 2 ^ 29) (hb : |b.exponent| ≤ 2 ^ 29) : |(a.add b).exponent| ≤ 2 ^ 29 := by
  have hadd : (a.add b).exponent = min a.exponent b.exponent := rfl
  rw [abs_le] at ha hb ⊢
  omega

/-- The sum over all gaps. -/
lemma twapFill_close {rest : List TwapObservation} {sum : Decimal} (hchain : (left :: rest).IsChain Neighbours)
    (hsum : |sum.exponent| ≤ 2 ^ 29) :
    ∃ r, twapFill (some left) rest sum = .ok r ∧ |r.exponent| ≤ 2 ^ 29 ∧ left.offset ≤ (rest.getLastD left).offset ∧
      |(r.toRat : ℝ) - (sum.toRat + chainSum left.point (rest.map TwapObservation.point))| ≤
        (((rest.getLastD left).offset : ℝ) - left.offset) / 10 ^ 19 := by
  induction rest generalizing left sum with
  | nil =>
    refine ⟨sum,rfl,hsum,le_rfl,?_⟩
    simp [chainSum]
  | cons right rest ih =>
    obtain ⟨hpair,htail⟩ := isChain_cons_cons.1 hchain
    have hlt := hpair.lt
    have hsum' := exponent_add_le hsum hpair.near.right_exponent
    rw [twapFill,map_cons,chainSum,getLastD_cons]
    by_cases hgap : (right.offset : ℤ) - left.offset = 1
    · obtain ⟨r,hr,hexp,hle,hclose⟩ := ih htail hsum'
      rw [if_pos hgap,hr]
      refine ⟨r,rfl,hexp,hlt.le.trans hle,?_⟩
      rw [gapSum_of_succ hgap,zero_add]
      rw [toRat_add] at hclose
      push_cast at hclose
      have hoff : (left.offset : ℝ) ≤ right.offset := by exact_mod_cast hlt.le
      have hprice : right.point.2 = (right.price.toRat : ℝ) := rfl
      rw [hprice,← add_assoc]
      refine hclose.trans (div_le_div_of_nonneg_right ?_ (by norm_num))
      linarith
    · obtain ⟨filled,hfilled,hfexp,hfclose⟩ := hpair.interpolate_close hgap
      obtain ⟨r,hr,hexp,hle,hclose⟩ := ih htail (exponent_add_le hsum' hfexp)
      rw [if_neg hgap,hfilled,ok_bind,hr]
      refine ⟨r,rfl,hexp,hlt.le.trans hle,?_⟩
      rw [toRat_add,toRat_add] at hclose
      push_cast at hclose
      have hmissing : ((right.offset - left.offset - 1 : ℕ) : ℝ) ≤ right.offset - left.offset := by
        rw [Nat.sub_sub,Nat.cast_sub (by omega)]
        push_cast
        linarith
      have hprice : right.point.2 = (right.price.toRat : ℝ) := rfl
      rw [hprice]
      calc |(r.toRat : ℝ) - (sum.toRat + (gapSum left.point right.point + right.price.toRat +
            chainSum right.point (rest.map TwapObservation.point)))|
          = |((r.toRat : ℝ) - ((sum.toRat + right.price.toRat + filled.toRat) +
              chainSum right.point (rest.map TwapObservation.point))) + (filled.toRat - gapSum left.point right.point)| := by ring_nf
        _ ≤ (((rest.getLastD right).offset : ℝ) - right.offset) / 10 ^ 19 +
              ((right.offset - left.offset - 1 : ℕ) : ℝ) / 10 ^ 19 := (abs_add_le _ _).trans (add_le_add hclose hfclose)
        _ ≤ (((rest.getLastD right).offset : ℝ) - left.offset) / 10 ^ 19 := by
            rw [← add_div]
            exact div_le_div_of_nonneg_right (by linarith) (by norm_num)

variable {L : Libs}
variable {k : ℤ}
lemma twapConfigInt_bounds {fields : List (String × Arg)} {key : String} {lo : ℤ}
    (h : twapConfigInt L fields key lo = .ok k) : lo ≤ k := by
  unfold twapConfigInt at h
  dsimp only at h
  split_ifs at h
  · exact absurd h (err_ne_ok _ _)
  split at h
  · exact absurd h (err_ne_ok _ _)
  split at h
  · exact absurd h (err_ne_ok _ _)
  · cases h
    exact (decimalToInt_bounds (by assumption)).1

lemma twapWindowSeconds_bounds {raw : Arg} (h : twapWindowSeconds L raw = .ok k) : 1 ≤ k ∧ k ≤ 86400 := by
  unfold twapWindowSeconds at h
  split_ifs at h
  · exact absurd h (err_ne_ok _ _)
  split at h
  · exact absurd h (err_ne_ok _ _)
  obtain ⟨parts,-,h⟩ := bind_ok_iff.1 h
  dsimp only at h
  split_ifs at h
  · exact absurd h (err_ne_ok _ _)
  obtain ⟨seconds,-,h⟩ := bind_ok_iff.1 h
  split_ifs at h
  · exact absurd h (err_ne_ok _ _)
  · exact absurd h (err_ne_ok _ _)
  split at h
  · exact absurd h (err_ne_ok _ _)
  · cases h
    exact decimalToInt_bounds (by assumption)

lemma parseTwapConfig_bounds {raw : ConfigArg} {cfg : TwapConfig} (h : parseTwapConfig L raw = .ok cfg) :
    1 ≤ cfg.windowSeconds ∧ cfg.windowSeconds ≤ 86400 ∧ 1 ≤ cfg.minSamples := by
  cases raw with
  | value x => exact absurd h (err_ne_ok _ _)
  | fields fields =>
    rw [parseTwapConfig] at h
    split_ifs at h
    · exact absurd h (err_ne_ok _ _)
    obtain ⟨w,hw,h⟩ := bind_ok_iff.1 h
    obtain ⟨m,hm,h⟩ := bind_ok_iff.1 h
    obtain ⟨_,-,h⟩ := bind_ok_iff.1 h
    obtain ⟨_,-,h⟩ := bind_ok_iff.1 h
    obtain ⟨_,-,h⟩ := bind_ok_iff.1 h
    split_ifs at h
    · exact absurd h (err_ne_ok _ _)
    simp only [check_bind_ok_iff] at h
    obtain ⟨-,-,-,h⟩ := h
    cases h
    exact ⟨(twapWindowSeconds_bounds hw).1,(twapWindowSeconds_bounds hw).2,twapConfigInt_bounds hm⟩

/-- Prices that are averaged accurately: not too large, and neighbours not too far apart. The
exponents leave room in 32 bits, as those of stored values do. -/
structure TamePrices (series : Series) (start : ℤ) (n : ℕ) : Prop where
  le : ∀ i < n, ∀ p, twapBucket series start i = some p → p.toRat ≤ 10 ^ 12
  adjacent : ∀ a b, (a,b) ∈ adjacentPairs (observed (twapBucket series start) n) → ∀ p q,
    twapBucket series start a = some p → twapBucket series start b = some q →
      p.toRat ≤ 10 ^ 6 * q.toRat ∧ q.toRat ≤ 10 ^ 6 * p.toRat
  exponent : ∀ v ∈ series.values, |v.exponent| ≤ 2 ^ 29

variable {series : Series} {start anchor : ℤ} {n : ℕ} {observations : List TwapObservation}
lemma TamePrices.of_values (hle : ∀ v ∈ series.values, v.toRat ≤ 10 ^ 12)
    (hfactor : ∀ v ∈ series.values, ∀ w ∈ series.values, v.toRat ≤ 10 ^ 6 * w.toRat)
    (hexponent : ∀ v ∈ series.values, |v.exponent| ≤ 2 ^ 29) : TamePrices series start n := by
  have hmem : ∀ {i p}, twapBucket series start i = some p → p ∈ series.values := by
    intro i p hp
    obtain ⟨r,hr,-,rfl⟩ := exists_of_bucketOf hp
    exact (of_mem_zip hr).1
  exact ⟨fun i _ p hp => hle p (hmem hp),
    fun a b _ p q hp hq => ⟨hfactor p (hmem hp) q (hmem hq),hfactor q (hmem hq) p (hmem hp)⟩,hexponent⟩

lemma Observed.isChain (h : Observed series.records start anchor n observations) (htame : TamePrices series start n)
    (hday : n ≤ 86400) : observations.IsChain Neighbours := by
  have hadjacent := (isChain_map TwapObservation.entry).1 h.sparse.isChain
  have hexponent : ∀ o ∈ observations, |o.price.exponent| ≤ 2 ^ 29 := by
    intro o ho
    obtain ⟨r,hr,hprice⟩ := h.recorded o ho
    rw [← hprice]
    exact htame.exponent _ (of_mem_zip hr).1
  have hbucket : ∀ o ∈ observations, o.offset < n ∧ twapBucket series start o.offset = some o.price := by
    intro o ho
    have hmem : o.entry ∈ observations.map TwapObservation.entry := mem_map_of_mem ho
    have hn := h.sparse.below _ hmem
    exact ⟨hn,(h.sparse.agrees _ _ hn).2 hmem⟩
  refine hadjacent.imp_of_mem_imp ?_
  intro left right hl hr hadj
  have hlt : left.offset < right.offset := (Finset.mem_filter.1 hadj).2.1
  obtain ⟨hln,hlb⟩ := hbucket left hl
  obtain ⟨hrn,hrb⟩ := hbucket right hr
  obtain ⟨hle,hge⟩ := htame.adjacent _ _ hadj _ _ hlb hrb
  exact ⟨hlt,by omega,⟨h.positive left hl,h.positive right hr,hle,hge,hexponent left hl,hexponent right hr⟩,
    htame.le _ hln _ hlb,htame.le _ hrn _ hrb⟩

variable {first : TwapObservation} {rest : List TwapObservation}
lemma index_last : Go.index (first :: rest) ((first :: rest).length - 1) = .ok (rest.getLastD first) := by
  rw [Go.index,← List.getLast?_eq_getElem?,getLast?_cons,getLastD_eq_getLast?]

lemma twapFillThenAverage_cons (k : ℤ) :
    twapFillThenAverage (first :: rest) k = (do
      let sum ← twapFill (some first) rest (((first.price.mul (.ofInt first.offset)).add
        ((rest.getLastD first).price.mul (.ofInt (k - 1 - (rest.getLastD first).offset)))).add first.price)
      divRoundByInt sum k calculatedPrecision) := by
  have hfirst : Go.index (first :: rest) 0 = .ok first := rfl
  rw [twapFillThenAverage,hfirst,ok_bind,index_last,ok_bind]
  dsimp only
  rw [twapFill]

/-- The average of the observations is close to the mean of the dense series. -/
lemma Observed.average_close (h : Observed series.records start anchor n observations) (htame : TamePrices series start n)
    (hday : n ≤ 86400) (hpos : 1 ≤ n) (hne : observations ≠ []) :
    ∃ d, twapFillThenAverage observations n = .ok d ∧
      |(d.toRat : ℝ) - mean (fun i => (twapBucket series start i).map fun p => (p.toRat : ℝ)) n| < 10 ^ (-18 : ℤ) := by
  cases observations with
  | nil => exact absurd rfl hne
  | cons first rest =>
    have hchain := h.isChain htame hday
    have hpoints := h.sparse.map fun p => (p.toRat : ℝ)
    rw [map_map] at hpoints
    have hsum := hpoints.sum_fill
    have hexponent : ∀ o ∈ first :: rest, |o.price.exponent| ≤ 2 ^ 29 := by
      intro o ho
      obtain ⟨r,hr,hprice⟩ := h.recorded o ho
      rw [← hprice]
      exact htame.exponent _ (of_mem_zip hr).1
    have hlast : rest.getLastD first ∈ first :: rest := mem_of_getLast? (by rw [getLast?_cons,getLastD_eq_getLast?])
    have hlastn : (rest.getLastD first).offset < n := h.sparse.below _ (mem_map_of_mem hlast)
    have hscaled : ∀ o ∈ first :: rest, ∀ k : ℤ, |(o.price.mul (.ofInt k)).exponent| ≤ 2 ^ 29 := by
      intro o ho k
      change |o.price.exponent + 0| ≤ 2 ^ 29
      rw [add_zero]
      exact hexponent o ho
    obtain ⟨r,hr,hrexp,-,hclose⟩ := twapFill_close hchain (exponent_add_le (exponent_add_le
      (hscaled first mem_cons_self first.offset) (hscaled _ hlast ((n : ℤ) - 1 - (rest.getLastD first).offset)))
      (hexponent first mem_cons_self))
    have hrbounds := abs_le.1 hrexp
    have hzero : (Decimal.ofInt n).exponent = 0 := rfl
    obtain ⟨d,hd,-,hdclose⟩ := divRound_spec (show (Decimal.ofInt n).coefficient ≠ 0 from (by omega : (n : ℤ) ≠ 0))
      (show Decimal.DivisionFits r (.ofInt n) 18 by constructor <;> rw [hzero] <;> omega)
    refine ⟨d,?_,?_⟩
    · rw [twapFillThenAverage_cons,hr,ok_bind,divRoundByInt,if_neg (by omega),divRound,if_neg,calculatedPrecision,hd]
      rw [Decimal.isZero,decide_eq_true_iff]
      exact show (n : ℤ) ≠ 0 by omega
    have hn : (0 : ℝ) < n := by exact_mod_cast hpos
    have hlast' : (List.getLastD (rest.map TwapObservation.point) first.point) = (rest.getLastD first).point := by
      rw [getLastD_eq_getLast?,getLastD_eq_getLast?,getLast?_map,Option.getD_map]
    -- everything but the gaps is exact
    have hexact : ∑ i ∈ Finset.range n, fill (fun i => (twapBucket series start i).map fun p => (p.toRat : ℝ)) n i =
        ((((first.price.mul (.ofInt first.offset)).add ((rest.getLastD first).price.mul
          (.ofInt ((n : ℤ) - 1 - (rest.getLastD first).offset)))).add first.price).toRat : ℝ) +
          chainSum first.point (rest.map TwapObservation.point) := by
      refine hsum.trans ?_
      change (first.offset : ℝ) * first.price.toRat + (first.price.toRat + chainSum first.point (rest.map TwapObservation.point)) +
        ((n - 1 - (List.getLastD (rest.map TwapObservation.point) first.point).1 : ℕ) : ℝ) *
          (List.getLastD (rest.map TwapObservation.point) first.point).2 = _
      have htail : ((n - 1 - (rest.getLastD first).offset : ℕ) : ℝ) = (((n : ℤ) - 1 - (rest.getLastD first).offset : ℤ) : ℝ) := by
        rw [← Int.cast_natCast]
        congr 1
        omega
      rw [hlast']
      change _ + ((n - 1 - (rest.getLastD first).offset : ℕ) : ℝ) * ((rest.getLastD first).price.toRat : ℝ) = _
      rw [htail]
      simp only [toRat_add,toRat_mul,toRat_ofInt]
      push_cast
      ring
    rw [← hexact] at hclose
    have hdclose' := (cast_le (K := ℝ)).2 hdclose
    rw [cast_halfUnit,toRat_ofInt] at hdclose'
    push_cast at hdclose'
    have hoffset : ((rest.getLastD first).offset : ℝ) - first.offset ≤ n := by
      have hlt : ((rest.getLastD first).offset : ℝ) ≤ n := by exact_mod_cast hlastn.le
      linarith [(Nat.cast_nonneg first.offset : (0 : ℝ) ≤ first.offset)]
    rw [mean]
    generalize ∑ i ∈ Finset.range n, fill (fun i => (twapBucket series start i).map fun p => (p.toRat : ℝ)) n i = total at hclose
    have hgaps : |(r.toRat : ℝ) / n - total / n| ≤ 1 / 10 ^ 19 := by
      rw [← sub_div,abs_div,abs_of_pos hn,div_le_iff₀ hn]
      refine hclose.trans ?_
      rw [div_mul_eq_mul_div,one_mul]
      exact div_le_div_of_nonneg_right hoffset (by norm_num)
    calc |(d.toRat : ℝ) - total / n| = |((d.toRat : ℝ) - r.toRat / n) + (r.toRat / n - total / n)| := by ring_nf
      _ ≤ 1 / (2 * 10 ^ 18) + 1 / 10 ^ 19 := (abs_add_le _ _).trans (add_le_add hdclose' hgaps)
      _ < 10 ^ (-18 : ℤ) := by norm_num

/-- For every accepted configuration and every series, the samples and gaps are those of the
dense series, a window is refused exactly for them or for a price without logarithm, and an
accepted window is averaged accurately. -/
theorem twap_equals_dense (L : Libs) {raw : ConfigArg} {cfg : TwapConfig} (hcfg : parseTwapConfig L raw = .ok cfg)
    (series : Series) (anchor : ℤ) :
    (¬HasNonPositive series (anchor - cfg.windowSeconds) anchor → ∃ observations,
      twapObservations series (anchor - cfg.windowSeconds) anchor = .ok observations ∧
        twapGapStats observations cfg.windowSeconds =
          denseStats (twapBucket series (anchor - cfg.windowSeconds)) cfg.windowSeconds.toNat) ∧
      (∀ r, twap series cfg anchor = .error (.rejection r) →
        r.stats = denseStats (twapBucket series (anchor - cfg.windowSeconds)) cfg.windowSeconds.toNat) ∧
      ((∃ r, twap series cfg anchor = .error (.rejection r)) ∨ (∃ i v, twap series cfg anchor = .error (.price i v)) ↔
        cfg.Refuses (denseStats (twapBucket series (anchor - cfg.windowSeconds)) cfg.windowSeconds.toNat) ∨
          HasNonPositive series (anchor - cfg.windowSeconds) anchor) ∧
      (¬cfg.Refuses (denseStats (twapBucket series (anchor - cfg.windowSeconds)) cfg.windowSeconds.toNat) →
        ¬HasNonPositive series (anchor - cfg.windowSeconds) anchor →
        TamePrices series (anchor - cfg.windowSeconds) cfg.windowSeconds.toNat →
        ∃ d, twap series cfg anchor = .ok d ∧
          |(d.toRat : ℝ) - mean (fun i => (twapBucket series (anchor - cfg.windowSeconds) i).map fun p => (p.toRat : ℝ))
            cfg.windowSeconds.toNat| < 10 ^ (-18 : ℤ)) := by
  obtain ⟨hlow,hhigh,hmin⟩ := parseTwapConfig_bounds hcfg
  obtain ⟨n,hn⟩ := Int.eq_ofNat_of_zero_le (show 0 ≤ cfg.windowSeconds by omega)
  have hanchor : anchor = (anchor - cfg.windowSeconds) + n := by omega
  have htoNat : cfg.windowSeconds.toNat = n := by omega
  rw [htoNat]
  generalize hstart : anchor - cfg.windowSeconds = start at hanchor ⊢
  have htwap : twap series cfg anchor = (do
      let observations ← twapObservations series start anchor
      if twapReasons cfg (twapGapStats observations cfg.windowSeconds) ≠ [] then
        .error (.rejection ⟨twapReasons cfg (twapGapStats observations cfg.windowSeconds),
          twapGapStats observations cfg.windowSeconds,cfg,start,anchor,series.values.length⟩)
      else (twapFillThenAverage observations cfg.windowSeconds).mapError .fault) := by
    rw [← hstart]
    refine bind_congr fun observations => ?_
    cases twapFillThenAverage observations cfg.windowSeconds <;> rfl
  rcases twapObservations_cases series hanchor with ⟨observations,hok,hobserved,hpositive⟩ | ⟨⟨i,v,herror⟩,hnonpositive⟩
  · have hstats : twapGapStats observations cfg.windowSeconds = denseStats (twapBucket series start) n := by
      rw [hn]
      exact twapGapStats_eq hobserved.sparse
    rw [hok,ok_bind,hstats] at htwap
    refine ⟨fun _ => ⟨observations,hok,hstats⟩,?_⟩
    by_cases hrefuses : cfg.Refuses (denseStats (twapBucket series start) n)
    · rw [if_pos ((twapReasons_ne_nil hmin).2 hrefuses)] at htwap
      rw [htwap]
      refine ⟨?_,⟨fun _ => .inl hrefuses,fun _ => .inl ⟨_,rfl⟩⟩,fun hnot => absurd hrefuses hnot⟩
      intro r hr
      cases hr
      rfl
    · rw [if_neg (fun hreasons => hrefuses ((twapReasons_ne_nil hmin).1 hreasons))] at htwap
      have hrejects : ∀ e, twap series cfg anchor = .error e → ∃ f, e = .fault f := by
        intro e he
        rw [htwap] at he
        cases hmean : twapFillThenAverage observations cfg.windowSeconds with
        | error f =>
          rw [hmean] at he
          cases he
          exact ⟨f,rfl⟩
        | ok d =>
          rw [hmean] at he
          cases he
      refine ⟨?_,⟨?_,?_⟩,?_⟩
      · intro r hr
        obtain ⟨f,hf⟩ := hrejects _ hr
        cases hf
      · rintro (⟨r,hr⟩ | ⟨i,v,hv⟩)
        · obtain ⟨f,hf⟩ := hrejects _ hr
          cases hf
        · obtain ⟨f,hf⟩ := hrejects _ hv
          cases hf
      · rintro (h | h)
        · exact absurd h hrefuses
        · exact absurd h hpositive
      · intro _ _ htame
        have hne : observations ≠ [] := by
          rintro rfl
          refine hrefuses (.inl ?_)
          rw [← hstats]
          exact lt_of_lt_of_le (show (0 : ℤ) < 1 by decide) hmin
        obtain ⟨d,hd,hclose⟩ := hobserved.average_close htame (by omega) (by omega) hne
        rw [hn,hd] at htwap
        exact ⟨d,htwap,hclose⟩
  · rw [herror] at htwap
    refine ⟨fun h => absurd hnonpositive h,?_,⟨fun _ => .inr hnonpositive,fun _ => .inr ⟨i,v,htwap⟩⟩,
      fun _ h => absurd hnonpositive h⟩
    intro r hr
    cases htwap.symm.trans hr

/-- Two records whose gap doubles the price every second. -/
def doublingSeries : Series := ⟨[⟨100,0⟩,⟨800,0⟩],[6500000000,9000000000],rfl,by decide⟩

def doublingConfig : ConfigArg :=
  .fields [("window",.integer .duration 5000000000),("minSamples",.integer .int 2),("maxHeadGap",.integer .int 1),
    ("maxInteriorGap",.integer .int 2),("maxTailGap",.integer .int 0)]

theorem twap_equals_dense_doubling :
    parseTwapConfig scalarLibs doublingConfig = .ok ⟨5,2,1,2,0⟩ ∧
      twap doublingSeries ⟨5,2,1,2,0⟩ 10 = .ok ⟨320000000000000000000,-18⟩ ∧
      |((Decimal.toRat ⟨320000000000000000000,-18⟩ : ℚ) : ℝ) -
        mean (fun i => (twapBucket doublingSeries (10 - 5) i).map fun p => (p.toRat : ℝ)) 5| < 10 ^ (-18 : ℤ) := by
  have hcfg : parseTwapConfig scalarLibs doublingConfig = .ok ⟨5,2,1,2,0⟩ := by decide +kernel
  have heval : twap doublingSeries ⟨5,2,1,2,0⟩ 10 = .ok ⟨320000000000000000000,-18⟩ := by decide +kernel
  obtain ⟨-,-,hrefused,haccurate⟩ := twap_equals_dense scalarLibs hcfg doublingSeries 10
  have hnot := mt hrefused.2 (by
    rintro (⟨r,hr⟩ | ⟨i,v,hv⟩)
    · cases heval.symm.trans hr
    · cases heval.symm.trans hv)
  have htame : TamePrices doublingSeries (10 - 5) 5 := by
    have hprices : ∀ v ∈ doublingSeries.values, 100 ≤ v.toRat ∧ v.toRat ≤ 800 ∧ v.exponent = 0 := by
      intro v hv
      rcases mem_cons.1 hv with rfl | hv
      · norm_num [Decimal.toRat]
      · rw [mem_singleton.1 hv]
        norm_num [Decimal.toRat]
    refine .of_values (fun v hv => ?_) (fun v hv w hw => ?_) (fun v hv => ?_)
    · linarith [(hprices v hv).2.1]
    · linarith [(hprices v hv).2.1,(hprices w hw).1]
    · rw [(hprices v hv).2.2]
      decide
  obtain ⟨d,hd,hclose⟩ := haccurate (fun h => hnot (.inl h)) (fun h => hnot (.inr h)) htame
  cases heval.symm.trans hd
  exact ⟨hcfg,heval,hclose⟩

end DataStreams
