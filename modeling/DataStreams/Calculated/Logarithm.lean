import DataStreams.Calculated.Exponential
import DataStreams.Foundation.Halley

/-! The logarithm of a decimal, from those of a mantissa near one and of ten by Halley's
iteration. -/
namespace DataStreams
open Real Decimal

/-- From the worst start, twelve steps cover any precision an operand can ask for. -/
def maxHalleySteps : ℕ := 12

/-- A step of at most this leaves an error below the last working digit. -/
def halleyThreshold (w : ℕ) : Decimal := ⟨1,-((w + 2) / 3 : ℕ) - 1⟩

def halleySteps (m : Decimal) (w : ℕ) : ℕ → Decimal → Go Decimal
  | 0,_ => Go.err s!"logarithm of {m.text} did not converge in {maxHalleySteps} steps"
  | steps + 1,y => do
    let e ← expDecimal y w
    let step ← ((m.sub e).mul (.ofInt 2)).divRound (m.add e) w
    if step.abs.le (halleyThreshold w) then .ok (y.add step) else halleySteps m w steps (y.add step)

def halleyLn (m : Decimal) (w : ℕ) : Go Decimal := do
  let y ← ((m.sub (.ofInt 1)).mul (.ofInt 2)).divRound (m.add (.ofInt 1)) w
  halleySteps m w maxHalleySteps y

def printedLength (n : ℤ) : ℕ := (if n < 0 then 1 else 0) + (Nat.toDigits 10 n.natAbs).length

/-- The mantissa, within a factor of the root of ten from one, and the power of ten. -/
def lnParts (x : Decimal) : Decimal × ℤ :=
  let m : Decimal := ⟨x.coefficient,1 - x.numDigits⟩
  let n : ℤ := x.numDigits - 1 + x.exponent
  if Decimal.lt ⟨317,-2⟩ m then (m.shift (-1),n + 1) else (m,n)

def lnDecimal (x : Decimal) (places : ℤ) : Go Decimal :=
  if x.isNegative then Go.err "cannot calculate natural logarithm for negative decimals"
  else if x.isZero then Go.err "cannot represent natural logarithm of 0, result: -infinity"
  else if places < 0 then Go.err s!"logarithm precision {places} must not be negative"
  else do
    let w := places.toNat + expGuardDigits
    let (m,n) := lnParts x
    let result ← halleyLn m w
    if n ≠ 0 then do
      let ln10 ← halleyLn (.ofInt 10) (w + printedLength n)
      .ok ((result.add (ln10.mul (.ofInt n))).round places)
    else .ok (result.round places)

/-- The distance to the logarithm with so many steps to go, but for the noise of a step. -/
noncomputable def halleyBound : ℕ → ℝ
  | 0 => 1 / 10 ^ 1012
  | 1 => 1 / 10 ^ 337
  | 2 => 1 / 10 ^ 112
  | 3 => 1 / 10 ^ 37
  | 4 => 1 / 10 ^ 12
  | 5 => 1 / 5000
  | 6 => 3 / 25
  | _ => 11 / 10

lemma cube_le (k : ℕ) : (1 / 10 ^ k : ℝ) ^ 3 / 12 ≤ 1 / 10 ^ (3 * k + 1) := by
  have hpow : (1 / 10 ^ k : ℝ) ^ 3 = 1 / 10 ^ (3 * k) := by
    rw [div_pow,one_pow,← pow_mul,mul_comm]
  rw [hpow,pow_succ,div_div,div_le_div_iff₀ (by positivity) (by positivity)]
  have : (0 : ℝ) < 10 ^ (3 * k) := by positivity
  linarith

lemma halleyBound_cube (n : ℕ) : halleyBound (n + 1) ^ 3 / 12 ≤ halleyBound n := by
  match n with
  | 0 => exact cube_le 337
  | 1 => exact cube_le 112
  | 2 => exact cube_le 37
  | 3 => exact cube_le 12
  | 4 => norm_num [halleyBound]
  | 5 => norm_num [halleyBound]
  | 6 => norm_num [halleyBound]
  | n + 7 =>
    change (11 / 10 : ℝ) ^ 3 / 12 ≤ 11 / 10
    norm_num

lemma halleyBound_nonneg (n : ℕ) : 0 ≤ halleyBound n := by
  unfold halleyBound
  split <;> positivity

lemma halleyBound_le (n : ℕ) : halleyBound n ≤ 11 / 10 := by
  have hpow : ∀ k : ℕ, (1 / 10 ^ k : ℝ) ≤ 1 := by
    intro k
    rw [div_le_one (by positivity)]
    exact one_le_pow₀ (by norm_num)
  match n with
  | 0 => exact (hpow 1012).trans (by norm_num)
  | 1 => exact (hpow 337).trans (by norm_num)
  | 2 => exact (hpow 112).trans (by norm_num)
  | 3 => exact (hpow 37).trans (by norm_num)
  | 4 => exact (hpow 12).trans (by norm_num)
  | 5 => norm_num [halleyBound]
  | 6 => norm_num [halleyBound]
  | n + 7 => exact le_rfl

lemma halleyBound_noise {b ν : ℝ} (hb0 : 0 ≤ b) (hb : b ≤ 11 / 10) (hν0 : 0 ≤ ν) (hν : ν ≤ 1 / 10 ^ 8) :
    (b + 2 * ν) ^ 3 / 12 + ν ≤ b ^ 3 / 12 + 2 * ν := by
  have hb2 : b ^ 2 ≤ 121 / 100 := by nlinarith
  have hν2 : ν ^ 2 ≤ ν / 10 ^ 8 := by nlinarith
  have hν3 : ν ^ 3 ≤ ν / 10 ^ 8 := by nlinarith
  have h1 : b ^ 2 * ν ≤ 121 / 100 * ν := mul_le_mul_of_nonneg_right hb2 hν0
  have h2 : b * ν ^ 2 ≤ 11 / 10 * (ν / 10 ^ 8) := mul_le_mul hb hν2 (by positivity) (by norm_num)
  have hexpand : (b + 2 * ν) ^ 3 / 12 = b ^ 3 / 12 + b ^ 2 * ν / 2 + b * ν ^ 2 + 2 / 3 * ν ^ 3 := by ring
  rw [hexpand]
  linarith

section Iteration
variable {m y : Decimal} {w : ℕ}
lemma exp_two_le : exp 2 ≤ 8 := by
  have hexp : exp 2 = exp 1 ^ 2 := by
    rw [← exp_nat_mul]
    norm_num
  rw [hexp]
  nlinarith [exp_one_lt_d9,exp_pos 1]

lemma le_exp_of_near (hm : (3 : ℝ) / 10 ≤ m.toRat) (hδ : |Real.log m.toRat - y.toRat| ≤ 6 / 5) :
    1 / 32 ≤ exp (y.toRat : ℝ) := by
  have hmpos : (0 : ℝ) < m.toRat := by linarith
  have hy : Real.log m.toRat - 2 ≤ y.toRat := by linarith [(abs_le.1 hδ).2]
  have hinv : 1 / 8 ≤ exp (-2) := by
    rw [exp_neg,← one_div]
    exact one_div_le_one_div_of_le (exp_pos 2) exp_two_le
  calc (1 : ℝ) / 32 ≤ 3 / 10 * (1 / 8) := by norm_num
    _ ≤ m.toRat * exp (-2) := mul_le_mul hm hinv (by norm_num) hmpos.le
    _ = exp (Real.log m.toRat - 2) := by
      rw [sub_eq_add_neg,exp_add,exp_log hmpos]
    _ ≤ exp y.toRat := exp_le_exp.2 hy

lemma log_ten_le : Real.log 10 ≤ 236 / 100 := by
  have hexp : (10 : ℝ) ≤ exp (236 / 100) := by
    have htwo : exp 1 ^ 2 = exp 2 := by
      rw [← exp_nat_mul]
      norm_num
    have hsmall := quadratic_le_exp_of_nonneg (show (0 : ℝ) ≤ 36 / 100 by norm_num)
    have hsplit : exp (236 / 100) = exp 2 * exp (36 / 100) := by
      rw [← exp_add]
      norm_num
    have hone := exp_one_gt_d9
    have hseven : (7.38 : ℝ) ≤ exp 2 := by
      rw [← htwo]
      nlinarith
    rw [hsplit]
    nlinarith [exp_pos (36 / 100)]
  exact (log_le_iff_le_exp (by norm_num)).2 hexp

lemma abs_log_le (hlow : (3 : ℝ) / 10 ≤ m.toRat) (hhigh : (m.toRat : ℝ) ≤ 10) : |Real.log m.toRat| ≤ 236 / 100 := by
  have hpos : (0 : ℝ) < m.toRat := by linarith
  rw [abs_le]
  constructor
  · have hinv : Real.log (1 / 10) ≤ Real.log m.toRat := log_le_log (by norm_num) (by linarith)
    rw [one_div,log_inv] at hinv
    linarith [log_ten_le]
  · exact (log_le_log hpos hhigh).trans log_ten_le

lemma divRound_same {d d₂ : Decimal} (hexp : d.exponent = d₂.exponent) (hpos : 0 < d₂.toRat) {precision : ℕ}
    (hprecision : precision ≤ 10000) :
    ∃ q, d.divRound d₂ precision = .ok q ∧ q.exponent = -precision ∧
      |(q.toRat : ℝ) - d.toRat / d₂.toRat| ≤ 1 / (2 * 10 ^ precision) := by
  obtain ⟨q,hq,hqexp,hclose⟩ := divRound_spec (toRat_pos.1 hpos).ne'
    (show Decimal.DivisionFits d d₂ precision by constructor <;> omega)
  refine ⟨q,hq,hqexp,?_⟩
  have hcast := (Rat.cast_le (K := ℝ)).2 hclose
  rw [cast_halfUnit] at hcast
  push_cast at hcast
  exact hcast

/-- A step of the iteration is the exact one up to rounding. -/
lemma halley_step (hlow : (3 : ℝ) / 10 ≤ m.toRat) (hhigh : (m.toRat : ℝ) ≤ 10) (hw : 10 ≤ w) (hw' : w ≤ 10000)
    (hexp : y.exponent = -w) (hδ : |Real.log m.toRat - y.toRat| ≤ 6 / 5) :
    ∃ e step, expDecimal y w = .ok e ∧ ((m.sub e).mul (.ofInt 2)).divRound (m.add e) w = .ok step ∧
      step.exponent = -w ∧ |(step.toRat : ℝ) - halley (Real.log m.toRat - y.toRat)| ≤ 8 / 10 ^ w := by
  have hmpos : (0 : ℝ) < m.toRat := by linarith
  have hunit : (0 : ℝ) < 10 ^ w := by positivity
  have hy : |y.toRat| ≤ maxExpArgument := by
    have hlog := abs_log_le hlow hhigh
    have hreal : |(y.toRat : ℝ)| ≤ 2400 := by
      rw [abs_le] at hδ hlog ⊢
      constructor <;> linarith
    have hrat : ((|y.toRat| : ℚ) : ℝ) ≤ ((2400 : ℚ) : ℝ) := by
      push_cast
      exact hreal
    exact Rat.cast_le.1 hrat
  obtain ⟨e,he,-,hclose⟩ := expDecimal_close hy (by omega) hw'
  have hge := le_exp_of_near hlow hδ
  have hnoise : (14 : ℝ) / (25 * 10 ^ w) ≤ 1 / 32 := by
    have hten : (10 : ℝ) ^ 10 ≤ 10 ^ w := pow_le_pow_right₀ (by norm_num) hw
    rw [div_le_div_iff₀ (by positivity) (by norm_num)]
    linarith
  have hepos : (0 : ℝ) ≤ e.toRat := by linarith [(abs_le.1 hclose).1]
  have hsum : (0 : ℚ) < (m.add e).toRat := by
    have hreal : (0 : ℝ) < ((m.add e).toRat : ℚ) := by
      rw [toRat_add]
      push_cast
      linarith
    exact_mod_cast hreal
  have hsame : ((m.sub e).mul (.ofInt 2)).exponent = (m.add e).exponent := add_zero _
  obtain ⟨step,hstep,hstepexp,hround⟩ := divRound_same hsame hsum hw'
  refine ⟨e,step,he,hstep,hstepexp,?_⟩
  have hquot : ((((m.sub e).mul (.ofInt 2)).toRat : ℚ) : ℝ) / ((m.add e).toRat : ℚ) =
      2 * ((m.toRat : ℝ) - e.toRat) / (m.toRat + e.toRat) := by
    rw [toRat_mul,toRat_sub,toRat_add,toRat_ofInt]
    push_cast
    ring
  rw [hquot] at hround
  have hcarry := Halley.abs_step_sub_step_le hmpos hepos (exp_pos (y.toRat : ℝ)).le
  rw [Halley.step_eq hmpos] at hcarry
  have hcarry' : 4 * |(e.toRat : ℝ) - exp y.toRat| / m.toRat ≤ 15 / (2 * 10 ^ w) := by
    rw [div_le_iff₀ hmpos]
    calc 4 * |(e.toRat : ℝ) - exp y.toRat| ≤ 4 * (14 / (25 * 10 ^ w)) := by linarith
      _ ≤ 15 / (2 * 10 ^ w) * (3 / 10) := by
        rw [div_mul_div_comm,← mul_div_assoc,div_le_div_iff₀ (by positivity) (by positivity)]
        nlinarith
      _ ≤ 15 / (2 * 10 ^ w) * m.toRat := mul_le_mul_of_nonneg_left hlow (by positivity)
  calc |(step.toRat : ℝ) - halley (Real.log m.toRat - y.toRat)|
      = |((step.toRat : ℝ) - 2 * ((m.toRat : ℝ) - e.toRat) / (m.toRat + e.toRat)) +
          (2 * ((m.toRat : ℝ) - e.toRat) / (m.toRat + e.toRat) - halley (Real.log m.toRat - y.toRat))| := by ring_nf
    _ ≤ _ := abs_add_le _ _
    _ ≤ 1 / (2 * 10 ^ w) + 15 / (2 * 10 ^ w) := add_le_add hround (hcarry.trans hcarry')
    _ = 8 / 10 ^ w := by
      field_simp
      norm_num

/-- The threshold at which the iteration stops, cubed, is below the precision. -/
lemma halleyThreshold_spec (hw : 10 ≤ w) (hw' : w ≤ 1020) :
    ∃ θ : ℝ, ((halleyThreshold w).toRat : ℝ) = θ ∧ 0 < θ ∧ θ ^ 3 ≤ 1 / (1000 * 10 ^ w) ∧ 80 / 10 ^ w ≤ θ ∧
      halleyBound 0 + 24 / 10 ^ w ≤ θ := by
  obtain ⟨t,ht⟩ : ∃ t, t = (w + 2) / 3 + 1 := ⟨_,rfl⟩
  have hθ : ((halleyThreshold w).toRat : ℝ) = 1 / 10 ^ t := by
    have hexp : -(((w + 2) / 3 : ℕ) : ℤ) - 1 = -(t : ℤ) := by omega
    rw [halleyThreshold,Decimal.toRat,hexp,zpow_neg,zpow_natCast]
    push_cast
    ring
  have hw2 : (10 : ℝ) ^ (t + 2) ≤ 10 ^ w := pow_le_pow_right₀ (by norm_num) (by omega)
  have hcube : (10 : ℝ) ^ (w + 3) ≤ 10 ^ (3 * t) := pow_le_pow_right₀ (by norm_num) (by omega)
  have hlast : (10 : ℝ) ^ (t + 1) ≤ 10 ^ 1012 := pow_le_pow_right₀ (by norm_num) (by omega)
  have hpos : (0 : ℝ) < 10 ^ t := by positivity
  have hunit : (80 : ℝ) / 10 ^ w ≤ 80 / 100 * (1 / 10 ^ t) := by
    rw [pow_add] at hw2
    rw [div_mul_div_comm,div_le_div_iff₀ (by positivity) (by positivity)]
    nlinarith
  refine ⟨_,hθ,by positivity,?_,?_,?_⟩
  · rw [div_pow,one_pow,← pow_mul,mul_comm t 3]
    apply one_div_le_one_div_of_le (by positivity)
    rw [pow_add] at hcube
    linarith
  · refine hunit.trans ?_
    have : 0 < 1 / (10 : ℝ) ^ t := by positivity
    linarith
  · have hbound : halleyBound 0 ≤ 1 / 10 * (1 / 10 ^ t) := by
      rw [pow_succ] at hlast
      rw [halleyBound,div_mul_div_comm]
      generalize (10 : ℝ) ^ 1012 = large at *
      apply div_le_div₀ (by norm_num) (by norm_num) (by positivity)
      linarith
    have hpos' : 0 < 1 / (10 : ℝ) ^ t := by positivity
    have hnoise : (24 : ℝ) / 10 ^ w = 24 / 80 * (80 / 10 ^ w) := by ring
    rw [hnoise]
    linarith

lemma halleySteps_succ (hlow : (3 : ℝ) / 10 ≤ m.toRat) (hhigh : (m.toRat : ℝ) ≤ 10) (hw : 10 ≤ w) (hw' : w ≤ 10000)
    (hexp : y.exponent = -w) (hδ : |Real.log m.toRat - y.toRat| ≤ 6 / 5) :
    ∃ next : Decimal, next.exponent = -w ∧
      |((next.toRat : ℝ) - y.toRat) - halley (Real.log m.toRat - y.toRat)| ≤ 8 / 10 ^ w ∧
      ∀ n, halleySteps m w (n + 1) y =
        if |next.toRat - y.toRat| ≤ (halleyThreshold w).toRat then .ok next else halleySteps m w n next := by
  obtain ⟨e,step,he,hstep,hstepexp,hclose⟩ := halley_step hlow hhigh hw hw' hexp hδ
  have hdiff : (y.add step).toRat - y.toRat = step.toRat := by
    rw [toRat_add]
    ring
  refine ⟨y.add step,?_,?_,?_⟩
  · change min y.exponent step.exponent = -w
    rw [hexp,hstepexp,min_self]
  · rw [← Rat.cast_sub,hdiff]
    exact hclose
  · intro n
    rw [halleySteps,he,Go.ok_bind,hstep,Go.ok_bind]
    simp only [le_iff_toRat_le,toRat_abs,hdiff]

lemma abs_sub_le_of_threshold {L t next θ u : ℝ} (hδ : |L - t| ≤ 6 / 5) (hstep : |(next - t) - halley (L - t)| ≤ 8 * u)
    (hsmall : |next - t| ≤ θ) (hcube : θ ^ 3 ≤ u / 1000) (hnoise : 80 * u ≤ θ) (hu : 0 ≤ u) : |next - L| ≤ 9 * u := by
  have hθ : 0 ≤ θ := (abs_nonneg _).trans hsmall
  have hnear := Halley.abs_le_of_step hδ hstep
  have hleft := Halley.abs_sub_step_le hstep
  have hδθ : |L - t| ≤ 5 / 4 * θ := by linarith
  have hcube' : |L - t| ^ 3 ≤ (5 / 4 * θ) ^ 3 := pow_le_pow_left₀ (abs_nonneg _) hδθ 3
  have hrewrite : |next - L| = |L - t - (next - t)| := by
    rw [← abs_neg]
    ring_nf
  rw [hrewrite]
  have hexpand : (5 / 4 * θ) ^ 3 = 125 / 64 * θ ^ 3 := by ring
  linarith

variable (hlow : (3 : ℝ) / 10 ≤ m.toRat) (hhigh : (m.toRat : ℝ) ≤ 10) (hw : 10 ≤ w) (hw' : w ≤ 1020)
include hlow hhigh hw hw'

/-- The iteration stops in time, and what is left then is a few units. -/
lemma halleySteps_close
    {n : ℕ} (hexp : y.exponent = -w) (hδ : |Real.log m.toRat - y.toRat| ≤ halleyBound n + 2 * (8 / 10 ^ w)) :
    ∃ r, halleySteps m w (n + 1) y = .ok r ∧ r.exponent = -w ∧ |(r.toRat : ℝ) - Real.log m.toRat| ≤ 9 / 10 ^ w := by
  obtain ⟨θ,hθ,-,hcube,hnoise,hlast⟩ := halleyThreshold_spec hw hw'
  have hunit : (0 : ℝ) < 1 / 10 ^ w := by positivity
  have hν : (8 : ℝ) / 10 ^ w = 8 * (1 / 10 ^ w) := by ring
  have htiny : (8 : ℝ) / 10 ^ w ≤ 1 / 10 ^ 8 := by
    have hten : (10 : ℝ) ^ 10 ≤ 10 ^ w := pow_le_pow_right₀ (by norm_num) hw
    rw [div_le_div_iff₀ (by positivity) (by norm_num)]
    linarith
  have hstop : ∀ {t next : ℝ}, |Real.log m.toRat - t| ≤ 6 / 5 →
      |(next - t) - halley (Real.log m.toRat - t)| ≤ 8 / 10 ^ w → |next - t| ≤ θ →
      |next - Real.log m.toRat| ≤ 9 / 10 ^ w := by
    intro t next hnear hstep hsmall
    rw [hν] at hstep
    have hclose := abs_sub_le_of_threshold hnear hstep hsmall (hcube.trans (le_of_eq (by ring)))
      (le_trans (le_of_eq (by ring)) hnoise) hunit.le
    exact hclose.trans (le_of_eq (by ring))
  induction n generalizing y with
  | zero =>
    have hnear : |Real.log m.toRat - y.toRat| ≤ 6 / 5 := by linarith [halleyBound_le 0]
    obtain ⟨next,hnext,hstep,hsteps⟩ := halleySteps_succ hlow hhigh hw (by omega) hexp hnear
    have hsmall : |(next.toRat : ℝ) - y.toRat| ≤ θ := by
      have hle := Halley.abs_step_le hstep
      have hsum : (24 : ℝ) / 10 ^ w = 3 * (8 / 10 ^ w) := by ring
      linarith
    have hlast : |next.toRat - y.toRat| ≤ (halleyThreshold w).toRat := by
      rw [← hθ] at hsmall
      exact_mod_cast hsmall
    exact ⟨next,by rw [hsteps,if_pos hlast],hnext,hstop hnear hstep hsmall⟩
  | succ n ih =>
    have hnear : |Real.log m.toRat - y.toRat| ≤ 6 / 5 := by linarith [halleyBound_le (n + 1)]
    obtain ⟨next,hnext,hstep,hsteps⟩ := halleySteps_succ hlow hhigh hw (by omega) hexp hnear
    rw [hsteps]
    split_ifs with hlast
    · have hsmall : |(next.toRat : ℝ) - y.toRat| ≤ θ := by
        rw [← hθ]
        exact_mod_cast hlast
      exact ⟨next,rfl,hnext,hstop hnear hstep hsmall⟩
    · apply ih hnext
      have hleft := Halley.abs_sub_step_le hstep
      have hcubed := pow_le_pow_left₀ (abs_nonneg _) hδ 3
      have hbound := halleyBound_noise (halleyBound_nonneg (n + 1)) (halleyBound_le (n + 1)) (by positivity) htiny
      have hnextbound := halleyBound_cube n
      have hrewrite : Real.log m.toRat - y.toRat - ((next.toRat : ℝ) - y.toRat) = Real.log m.toRat - next.toRat := by ring
      rw [hrewrite] at hleft
      linarith

/-- The mantissas that occur, and ten. -/
lemma halleyLn_close :
    ∃ r, halleyLn m w = .ok r ∧ r.exponent = -w ∧ |(r.toRat : ℝ) - Real.log m.toRat| ≤ 9 / 10 ^ w := by
  have hmpos : (0 : ℝ) < m.toRat := by linarith
  have hsum : (0 : ℚ) < (m.add (.ofInt 1)).toRat := by
    rw [toRat_add,toRat_ofInt]
    have : (0 : ℚ) < m.toRat := by exact_mod_cast hmpos
    push_cast
    linarith
  have hsame : ((m.sub (.ofInt 1)).mul (.ofInt 2)).exponent = (m.add (.ofInt 1)).exponent := add_zero _
  obtain ⟨y,hy,hyexp,hstart⟩ := divRound_same hsame hsum (show w ≤ 10000 by omega)
  have hquot : ((((m.sub (.ofInt 1)).mul (.ofInt 2)).toRat : ℚ) : ℝ) / ((m.add (.ofInt 1)).toRat : ℚ) =
      halley (Real.log m.toRat) := by
    rw [← sub_zero (Real.log (m.toRat : ℝ)),← Halley.step_eq hmpos,exp_zero,toRat_mul,toRat_sub,
      toRat_add,toRat_ofInt,toRat_ofInt]
    push_cast
    ring
  rw [hquot] at hstart
  have hδ := Halley.abs_sub_step_le hstart
  have hlog := pow_le_pow_left₀ (abs_nonneg _) (abs_log_le hlow hhigh) 3
  rw [halleyLn,hy,Go.ok_bind]
  apply halleySteps_close hlow hhigh hw hw' hyexp
  have hbound : halleyBound 11 = 11 / 10 := rfl
  have hhalf : 1 / (2 * (10 : ℝ) ^ w) ≤ 2 * (8 / 10 ^ w) := by
    rw [← mul_div_assoc,div_le_div_iff₀ (by positivity) (by positivity)]
    have : (0 : ℝ) < 10 ^ w := by positivity
    linarith
  rw [hbound]
  norm_num at hlog
  linarith

end Iteration

variable {x : Decimal}
lemma lt_pow_length_toDigits (n : ℕ) : n < 10 ^ (Nat.toDigits 10 n).length := by
  have hpos : 0 < (Nat.toDigits 10 n).length := List.length_pos_of_ne_nil (Nat.toDigits_ne_nil)
  exact (Nat.length_toDigits_le_iff (by decide) hpos).1 le_rfl

lemma pow_length_toDigits_le {n : ℕ} (hn : 0 < n) : 10 ^ ((Nat.toDigits 10 n).length - 1) ≤ n := by
  by_contra hlt
  rw [not_le] at hlt
  by_cases hone : (Nat.toDigits 10 n).length - 1 = 0
  · rw [hone,pow_zero] at hlt
    omega
  · have hle := (Nat.length_toDigits_le_iff (by decide) (by omega)).2 hlt
    omega

lemma mantissa_bounds (hx : 0 < x.coefficient) :
    (1 : ℚ) ≤ Decimal.toRat ⟨x.coefficient,1 - x.numDigits⟩ ∧ Decimal.toRat ⟨x.coefficient,1 - x.numDigits⟩ < 10 := by
  have hnat : 0 < x.coefficient.natAbs := by omega
  have hlow := pow_length_toDigits_le hnat
  have hhigh := lt_pow_length_toDigits x.coefficient.natAbs
  have hpos : 0 < (Nat.toDigits 10 x.coefficient.natAbs).length := List.length_pos_of_ne_nil (Nat.toDigits_ne_nil)
  obtain ⟨d,hd⟩ : ∃ d, (Nat.toDigits 10 x.coefficient.natAbs).length = d + 1 :=
    ⟨_,(Nat.succ_pred_eq_of_pos hpos).symm⟩
  have hexp : (1 : ℤ) - x.numDigits = -d := by
    rw [Decimal.numDigits,hd]
    omega
  rw [hd] at hlow hhigh
  rw [Nat.add_sub_cancel] at hlow
  have hcoef : (x.coefficient : ℚ) = x.coefficient.natAbs := by
    rw [Nat.cast_natAbs,abs_of_pos hx]
  have hlowq : (10 : ℚ) ^ d ≤ x.coefficient.natAbs := by exact_mod_cast hlow
  have hhighq : (x.coefficient.natAbs : ℚ) < 10 ^ (d + 1) := by exact_mod_cast hhigh
  have hunit : (0 : ℚ) < 10 ^ d := by positivity
  rw [Decimal.toRat,hexp,zpow_neg,zpow_natCast,hcoef,← div_eq_mul_inv,one_le_div hunit,div_lt_iff₀ hunit]
  rw [pow_succ] at hhighq
  exact ⟨hlowq,by linarith⟩

lemma lnParts_spec (hx : 0 < x.coefficient) :
    (3 / 10 : ℚ) ≤ (lnParts x).1.toRat ∧ (lnParts x).1.toRat ≤ 10 ∧
      x.toRat = (lnParts x).1.toRat * 10 ^ (lnParts x).2 := by
  obtain ⟨hlow,hhigh⟩ := mantissa_bounds hx
  have hsplit : x.toRat = Decimal.toRat ⟨x.coefficient,1 - x.numDigits⟩ * 10 ^ ((x.numDigits : ℤ) - 1 + x.exponent) := by
    rw [Decimal.toRat,Decimal.toRat,mul_assoc,← zpow_add₀ (by norm_num)]
    ring_nf
  unfold lnParts
  dsimp only
  split_ifs with hlt
  · rw [lt_iff_toRat_lt] at hlt
    have hbound : (317 / 100 : ℚ) < Decimal.toRat ⟨x.coefficient,1 - x.numDigits⟩ := by
      refine lt_of_eq_of_lt ?_ hlt
      norm_num [Decimal.toRat,zpow_neg]
    rw [toRat_shift,hsplit,zpow_neg_one]
    refine ⟨by linarith,by linarith,?_⟩
    rw [zpow_add₀ (by norm_num : (10 : ℚ) ≠ 0) ((x.numDigits : ℤ) - 1 + x.exponent),zpow_one]
    field_simp
  · exact ⟨by linarith,hhigh.le,hsplit⟩

lemma abs_lt_pow_printedLength (n : ℤ) : |(n : ℝ)| < 10 ^ printedLength n := by
  have hlt := lt_pow_length_toDigits n.natAbs
  have hle : 10 ^ (Nat.toDigits 10 n.natAbs).length ≤ 10 ^ printedLength n :=
    Nat.pow_le_pow_right (by decide) (Nat.le_add_left _ _)
  have hnat : (n.natAbs : ℝ) < 10 ^ printedLength n := by exact_mod_cast hlt.trans_le hle
  rwa [Nat.cast_natAbs,Int.cast_abs] at hnat

lemma printedLength_le {n : ℤ} (hn : |n| < 10 ^ 5) : printedLength n ≤ 6 := by
  have hnat : n.natAbs < 10 ^ 5 := by
    rw [Int.abs_eq_natAbs] at hn
    exact_mod_cast hn
  have hle := (Nat.length_toDigits_le_iff (by decide) (by decide)).2 hnat
  unfold printedLength
  split_ifs <;> omega

lemma numDigits_le {n : ℕ} (hn : 0 < n) (hbits : x.coefficientBits ≤ n) : x.numDigits ≤ n := by
  apply (Nat.length_toDigits_le_iff (by decide) hn).2
  calc x.coefficient.natAbs < 2 ^ x.coefficientBits := Nat.lt_size_self _
    _ ≤ 2 ^ n := Nat.pow_le_pow_right (by decide) hbits
    _ ≤ 10 ^ n := Nat.pow_le_pow_left (by decide) _

lemma abs_lnParts_lt (hbits : x.coefficientBits ≤ 768) (hexp : |x.exponent| ≤ 4000) : |(lnParts x).2| < 10 ^ 5 := by
  have hdigits := numDigits_le (by decide) hbits
  rw [abs_le] at hexp
  rw [abs_lt]
  unfold lnParts
  dsimp only
  split_ifs <;> constructor <;> omega

lemma log_eq_lnParts (hx : 0 < x.coefficient) :
    Real.log x.toRat = Real.log (lnParts x).1.toRat + (lnParts x).2 * Real.log 10 := by
  obtain ⟨hlow,-,heq⟩ := lnParts_spec hx
  have hpos : (0 : ℝ) < (lnParts x).1.toRat := by
    have : (0 : ℚ) < (lnParts x).1.toRat := by linarith
    exact_mod_cast this
  rw [heq]
  push_cast
  rw [log_mul hpos.ne' (zpow_ne_zero _ (by norm_num)),log_zpow]

/-- The result is a decimal of so many places, off by little more than half a unit. -/
lemma lnDecimal_close {places : ℕ} (hx : 0 < x.coefficient) (hbits : x.coefficientBits ≤ 768)
    (hexp : |x.exponent| ≤ 4000) (hplaces : places ≤ 1000) :
    ∃ r, lnDecimal x places = .ok r ∧ r.exponent = -places ∧
      |(r.toRat : ℝ) - Real.log x.toRat| ≤ 51 / (100 * 10 ^ places) := by
  obtain ⟨hlow,hhigh,-⟩ := lnParts_spec hx
  have hlow' : (3 : ℝ) / 10 ≤ (lnParts x).1.toRat := by
    have hcast := (Rat.cast_le (K := ℝ)).2 hlow
    push_cast at hcast
    exact hcast
  have hhigh' : ((lnParts x).1.toRat : ℝ) ≤ 10 := by exact_mod_cast hhigh
  have hguard : expGuardDigits = 10 := rfl
  have hlength := printedLength_le (abs_lnParts_lt hbits hexp)
  have hlog := log_eq_lnParts hx
  have hunit : (0 : ℝ) < 10 ^ places := by positivity
  obtain ⟨result,hresult,-,hclose⟩ := halleyLn_close hlow' hhigh' (show 10 ≤ places + expGuardDigits by omega) (by omega)
  have hneg : ¬x.isNegative = true := by
    rw [Decimal.isNegative,decide_eq_true_iff]
    omega
  have hzero : ¬x.isZero = true := by
    rw [Decimal.isZero,decide_eq_true_iff]
    omega
  have hw : (9 : ℝ) / 10 ^ (places + expGuardDigits) ≤ 1 / (200 * 10 ^ places) := by
    rw [hguard,pow_add,div_le_div_iff₀ (by positivity) (by positivity)]
    nlinarith
  rw [lnDecimal,if_neg hneg,if_neg hzero,if_neg (by omega)]
  dsimp only
  rw [Int.toNat_natCast,hresult,Go.ok_bind]
  split_ifs with hn
  · have hten : ((Decimal.ofInt 10).toRat : ℝ) = 10 := by
      rw [toRat_ofInt]
      norm_num
    obtain ⟨ln10,hln10,-,hclose10⟩ := @halleyLn_close (.ofInt 10) (places + expGuardDigits + printedLength (lnParts x).2)
      (by rw [hten]; norm_num) hten.le (by omega) (by omega)
    rw [hten] at hclose10
    rw [hln10,Go.ok_bind]
    refine ⟨_,rfl,exponent_round _ _,?_⟩
    have hpower : |((lnParts x).2 : ℝ)| * (9 / 10 ^ (places + expGuardDigits + printedLength (lnParts x).2)) ≤
        9 / 10 ^ (places + expGuardDigits) := by
      have hlt := abs_lt_pow_printedLength (lnParts x).2
      rw [pow_add _ (places + expGuardDigits),← mul_div_assoc,div_le_div_iff₀ (by positivity) (by positivity)]
      nlinarith [show (0 : ℝ) < 10 ^ (places + expGuardDigits) by positivity]
    have hsum : |((result.add (ln10.mul (.ofInt (lnParts x).2))).toRat : ℝ) - Real.log x.toRat| ≤ 1 / (100 * 10 ^ places) := by
      rw [hlog,toRat_add,toRat_mul,toRat_ofInt]
      push_cast
      calc |(result.toRat : ℝ) + ln10.toRat * (lnParts x).2 - (Real.log (lnParts x).1.toRat + (lnParts x).2 * Real.log 10)|
          = |((result.toRat : ℝ) - Real.log (lnParts x).1.toRat) + (lnParts x).2 * (ln10.toRat - Real.log 10)| := by ring_nf
        _ ≤ |(result.toRat : ℝ) - Real.log (lnParts x).1.toRat| + |((lnParts x).2 : ℝ) * (ln10.toRat - Real.log 10)| :=
            abs_add_le _ _
        _ ≤ 9 / 10 ^ (places + expGuardDigits) + 9 / 10 ^ (places + expGuardDigits) := by
            rw [abs_mul]
            exact add_le_add hclose ((mul_le_mul_of_nonneg_left hclose10 (abs_nonneg _)).trans hpower)
        _ ≤ 1 / (200 * 10 ^ places) + 1 / (200 * 10 ^ places) := add_le_add hw hw
        _ = 1 / (100 * 10 ^ places) := by
            field_simp
            norm_num
    refine (abs_round_sub_real_le hsum places).trans (le_of_eq ?_)
    field_simp
    norm_num
  · rw [not_not] at hn
    refine ⟨_,rfl,exponent_round _ _,?_⟩
    rw [hlog,hn,Int.cast_zero,zero_mul,add_zero]
    refine (abs_round_sub_real_le (hclose.trans hw) places).trans ?_
    rw [div_add_div _ _ (by positivity) (by positivity),div_le_div_iff₀ (by positivity) (by positivity)]
    nlinarith [mul_pos hunit hunit,mul_pos hunit (mul_pos hunit hunit)]

/-- For every positive operand within the operand bounds and every number of places, both
iterations stop in time and the logarithm is off by less than a unit in the last place. -/
theorem lnDecimal_accurate {x : Decimal} {places : ℤ} (hx : 0 < x.toRat) (hbits : x.coefficientBits ≤ 768)
    (hexp : |x.exponent| ≤ 4000) (hlow : 0 ≤ places) (hhigh : places ≤ 1000) :
    ∃ r, lnDecimal x places = .ok r ∧ |(r.toRat : ℝ) - Real.log x.toRat| < 10 ^ (-places) := by
  obtain ⟨n,rfl⟩ := Int.eq_ofNat_of_zero_le hlow
  obtain ⟨r,hr,-,hclose⟩ := lnDecimal_close (toRat_pos.1 hx) hbits hexp (show n ≤ 1000 by omega)
  refine ⟨r,hr,hclose.trans_lt ?_⟩
  rw [zpow_neg,zpow_natCast,← one_div,div_lt_div_iff₀ (by positivity) (by positivity)]
  linarith [show (0 : ℝ) < 10 ^ n by positivity]

theorem lnDecimal_accurate_seventyFive :
    lnDecimal ⟨75,0⟩ 4 = .ok ⟨43175,-4⟩ ∧
      |((Decimal.toRat ⟨43175,-4⟩ : ℚ) : ℝ) - Real.log (Decimal.toRat ⟨75,0⟩ : ℚ)| < 10 ^ (-4 : ℤ) := by
  have heval : lnDecimal ⟨75,0⟩ 4 = .ok ⟨43175,-4⟩ := by decide +kernel
  have hx : 0 < Decimal.toRat ⟨75,0⟩ := by norm_num [Decimal.toRat]
  obtain ⟨r,hr,hclose⟩ := lnDecimal_accurate hx (by decide) (by decide) (show (0 : ℤ) ≤ 4 by decide) (by decide)
  cases heval.symm.trans hr
  exact ⟨heval,hclose⟩

end DataStreams
