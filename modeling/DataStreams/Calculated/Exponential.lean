import DataStreams.Foundation.ScaledExp
import DataStreams.Protocol.DecimalOps

/-! The exponential of a decimal: the argument is halved, the series summed on scaled integers
and the sum squared back. -/
namespace DataStreams
open Real Decimal Int Rat

def maxExpArgument : ℤ := 2400

def expGuardDigits : ℕ := 10

/-- The least number of halvings that bring the argument to at most 1/256. -/
def expHalvings (a : Decimal) : ℕ := ((a.mul (.ofInt 256)).ceil.bigInt - 1).natAbs.size

/-- A bound on the digits before the point; 0.4343 is just above `1 / log 10`. -/
def expResultDigits (a : Decimal) : Go ℕ := do
  let product ← a.mulChecked ⟨4343,-4⟩
  .ok (product.ceil.bigInt + 1).toNat

def expWorkingDigits (a : Decimal) (places : ℕ) : Go ℕ := do
  let resultDigits ← expResultDigits a
  .ok (places + resultDigits + expHalvings a / 3 + 1 + expGuardDigits)

/-- The exponential of a positive argument in units of the last working digit. The series has
fewer terms than there are units in one. -/
def expScaled (a : Decimal) (k w : ℕ) : Go ℕ := do
  let q ← a.divRound (.ofInt (2 ^ k)) w
  let r := (q.shift w).bigInt.toNat
  match ScaledExp.taylorSum (10 ^ w) r (10 ^ w) 1 (10 ^ w) (10 ^ w) with
  | none => Go.panics "the series did not end"
  | some sum => .ok (ScaledExp.squarings (10 ^ w) k sum)

def expDecimal (x : Decimal) (places : ℤ) : Go Decimal :=
  if places < 0 then Go.err s!"exponential precision {places} must not be negative"
  else if (Decimal.ofInt maxExpArgument).lt x.abs then
    Go.err s!"exponential argument {x.text} exceeds the maximum magnitude of {maxExpArgument}"
  else if x.isZero then .ok (Decimal.round ⟨1,0⟩ places)
  else do
    let a := x.abs
    let w ← expWorkingDigits a places.toNat
    let sum ← expScaled a (expHalvings a) w
    let result : Decimal := ⟨sum,-w⟩
    if x.isNegative then do
      let inverse ← Decimal.divRound ⟨1,0⟩ result (places + 1).toNat
      .ok (inverse.round places)
    else .ok (result.round places)

lemma le_log_ten : (449 : ℝ) / 195 ≤ Real.log 10 := by
  have hexp : exp (449 * 1) ≤ (10 : ℝ) ^ 195 := by
    have hpow := pow_le_pow_left₀ (exp_pos 1).le exp_one_lt_d9.le 64
    calc exp (449 * 1) = (exp 1 ^ 64) ^ 7 * exp 1 := by
          rw [← pow_mul,← pow_succ,← exp_nat_mul]
          norm_num
      _ ≤ (2.7182818286 ^ 64) ^ 7 * 2.7182818286 :=
          mul_le_mul (pow_le_pow_left₀ (by positivity) hpow 7) exp_one_lt_d9.le (exp_pos 1).le (by positivity)
      _ ≤ 10 ^ 195 := by norm_num
  rw [← le_log_iff_exp_le (by positivity),log_pow] at hexp
  push_cast at hexp
  rw [div_le_iff₀ (by norm_num)]
  linarith

lemma two_pow_le_ten_pow (k : ℕ) : (2 : ℝ) ^ k ≤ 10 ^ (k / 3 + 1) := by
  have hk : k ≤ 3 * (k / 3 + 1) := by omega
  calc (2 : ℝ) ^ k ≤ 2 ^ (3 * (k / 3 + 1)) := pow_le_pow_right₀ one_le_two hk
    _ = 8 ^ (k / 3 + 1) := by
      rw [pow_mul]
      norm_num
    _ ≤ 10 ^ (k / 3 + 1) := pow_le_pow_left₀ (by norm_num) (by norm_num) _

variable {a : Decimal}
/-- After the halvings the argument is at most 1/256. -/
lemma expHalvings_spec (hpos : 0 < a.toRat) (hle : a.toRat ≤ maxExpArgument) :
    256 * a.toRat ≤ 2 ^ expHalvings a ∧ expHalvings a ≤ 20 := by
  have hceil : (a.mul (.ofInt 256)).ceil.bigInt = ⌈a.toRat * 256⌉ := by
    rw [bigInt_ceil,toRat_mul,toRat_ofInt]
    norm_num
  have hone : 1 ≤ ⌈a.toRat * 256⌉ := one_le_ceil_iff.2 (by positivity)
  have htop : ⌈a.toRat * 256⌉ ≤ 2400 * 256 := by
    rw [ceil_le]
    push_cast
    have hle' : a.toRat ≤ 2400 := hle
    linarith
  have hbits : ((⌈a.toRat * 256⌉ - 1).natAbs : ℤ) = ⌈a.toRat * 256⌉ - 1 := by omega
  rw [expHalvings,hceil]
  constructor
  · have hlt : (⌈a.toRat * 256⌉ - 1).natAbs < 2 ^ (⌈a.toRat * 256⌉ - 1).natAbs.size := Nat.lt_size_self _
    have hint : ⌈a.toRat * 256⌉ ≤ 2 ^ (⌈a.toRat * 256⌉ - 1).natAbs.size := by
      have hlt' : ((⌈a.toRat * 256⌉ - 1).natAbs : ℤ) < 2 ^ (⌈a.toRat * 256⌉ - 1).natAbs.size := by exact_mod_cast hlt
      omega
    have hle := ceil_le.1 hint
    push_cast at hle
    linarith
  · rw [Nat.size_le]
    omega

lemma exponent_le_three (hpos : 0 < a.toRat) (hle : a.toRat ≤ maxExpArgument) : a.exponent ≤ 3 := by
  by_contra hlt
  have hcoef : (1 : ℚ) ≤ a.coefficient := by exact_mod_cast toRat_pos.1 hpos
  have hpow : (10 : ℚ) ^ (4 : ℤ) ≤ 10 ^ a.exponent := zpow_le_zpow_right₀ (by norm_num) (by omega)
  have hle' : a.toRat ≤ 2400 := hle
  have hbig : (10 : ℚ) ^ (4 : ℤ) ≤ a.toRat := by
    rw [Decimal.toRat]
    nlinarith [zpow_pos (show (0 : ℚ) < 10 by norm_num) a.exponent]
  norm_num at hbig
  linarith

/-- The estimate of the digits bounds the result. -/
lemma expResultDigits_spec (hpos : 0 < a.toRat) (hle : a.toRat ≤ maxExpArgument) (hexp : -2 ^ 31 + 4 ≤ a.exponent) :
    ∃ n, expResultDigits a = .ok (n + 1) ∧ n ≤ 1043 ∧ exp (a.toRat : ℝ) ≤ 10 ^ n := by
  have hceil : (a.mul ⟨4343,-4⟩).ceil.bigInt = ⌈a.toRat * (4343 / 10000)⌉ := by
    rw [bigInt_ceil,toRat_mul]
    norm_num [Decimal.toRat,zpow_neg]
  have hnonneg : 0 ≤ ⌈a.toRat * (4343 / 10000)⌉ := ceil_nonneg (by positivity)
  have htop : ⌈a.toRat * (4343 / 10000)⌉ ≤ 1043 := by
    rw [ceil_le]
    push_cast
    have hle' : a.toRat ≤ 2400 := hle
    linarith
  obtain ⟨n,hn⟩ := eq_ofNat_of_zero_le hnonneg
  refine ⟨n,?_,by omega,?_⟩
  · have hthree := exponent_le_three hpos hle
    rw [expResultDigits,Decimal.mulChecked,if_neg (by dsimp only; omega),Go.ok_bind,hceil,hn]
    exact congrArg Except.ok (by omega)
  · have hargument : (a.toRat : ℝ) * (4343 / 10000) ≤ n := by
      have hle := le_ceil (a.toRat * (4343 / 10000))
      rw [hn] at hle
      have hcast : ((a.toRat * (4343 / 10000) : ℚ) : ℝ) ≤ ((n : ℚ) : ℝ) := cast_le.2 (by exact_mod_cast hle)
      push_cast at hcast
      exact hcast
    have hlog := le_log_ten
    have hn0 : (0 : ℝ) ≤ n := Nat.cast_nonneg n
    rw [← exp_log (show (0 : ℝ) < 10 ^ n by positivity),exp_le_exp,log_pow]
    nlinarith

lemma exists_scaled_argument (hpos : 0 < a.toRat) (hle : a.toRat ≤ maxExpArgument) (hexp : -2 ^ 31 ≤ a.exponent)
    (k : ℕ) {w : ℕ} (hw : w ≤ 2 ^ 20) :
    ∃ q, a.divRound (.ofInt (2 ^ k)) w = .ok q ∧
      |((q.shift w).bigInt.toNat : ℝ) / 10 ^ w - a.toRat / 2 ^ k| ≤ 1 / (2 * 10 ^ w) := by
  have hne : (Decimal.ofInt (2 ^ k)).coefficient ≠ 0 := pow_ne_zero k (by decide)
  have hfits : Decimal.DivisionFits a (.ofInt (2 ^ k)) w := by
    have hthree := exponent_le_three hpos hle
    have hzero : (Decimal.ofInt (2 ^ k)).exponent = 0 := rfl
    constructor <;> omega
  obtain ⟨q,hq,hexponent,hclose⟩ := divRound_spec hne hfits
  refine ⟨q,hq,?_⟩
  have hunit : (0 : ℚ) < 10 ^ w := by positivity
  have hhalf : Decimal.halfUnit w = 1 / (2 * 10 ^ w) := by
    rw [Decimal.halfUnit,zpow_neg,zpow_natCast]
    field_simp
  have hvalue : q.toRat = q.coefficient / 10 ^ w := by
    rw [Decimal.toRat,hexponent,zpow_neg,zpow_natCast,div_eq_mul_inv]
  have hdivisor : (Decimal.ofInt (2 ^ k)).toRat = 2 ^ k := by
    rw [toRat_ofInt]
    push_cast
    rfl
  rw [hvalue,hhalf,hdivisor] at hclose
  have hbig : (q.shift w).bigInt = q.coefficient := by
    rw [Decimal.bigInt,Decimal.shift,hexponent]
    simp
  have hnonneg : 0 ≤ q.coefficient := by
    have hlow := (abs_le.1 hclose).1
    have hquot : 0 < a.toRat / 2 ^ k := by positivity
    have hgt : -1 < (q.coefficient : ℚ) := by
      have hbound : -(1 / (2 * 10 ^ w)) < (q.coefficient : ℚ) / 10 ^ w := by linarith
      rw [lt_div_iff₀ hunit] at hbound
      have hcancel : -(1 / (2 * (10 : ℚ) ^ w)) * 10 ^ w = -(1 / 2) := by
        field_simp
      linarith
    have hgt' : -1 < q.coefficient := by exact_mod_cast hgt
    omega
  have hcast : ((q.shift w).bigInt.toNat : ℝ) = (q.coefficient : ℝ) := by
    rw [hbig]
    exact_mod_cast toNat_of_nonneg hnonneg
  rw [hcast]
  have hreal : (|(q.coefficient : ℚ) / 10 ^ w - a.toRat / 2 ^ k| : ℚ) ≤ ((1 / (2 * 10 ^ w) : ℚ)) := hclose
  have hreal' : ((|(q.coefficient : ℚ) / 10 ^ w - a.toRat / 2 ^ k| : ℚ) : ℝ) ≤ ((1 / (2 * 10 ^ w) : ℚ) : ℝ) :=
    cast_le.2 hreal
  push_cast at hreal'
  exact hreal'

lemma scaled_term_lt_one {r w : ℕ} (h : (r : ℝ) / 10 ^ w ≤ 1 / 128) : (10 : ℝ) ^ w * (r / 10 ^ w) ^ (w / 2 + 1) < 1 := by
  have hpow : ((r : ℝ) / 10 ^ w) ^ (w / 2 + 1) ≤ (1 / 128) ^ (w / 2 + 1) := pow_le_pow_left₀ (by positivity) h _
  have hlt : (10 : ℝ) ^ w < 128 ^ (w / 2 + 1) :=
    calc (10 : ℝ) ^ w < 10 ^ (2 * (w / 2 + 1)) := pow_lt_pow_right₀ (by norm_num) (by omega)
      _ = 100 ^ (w / 2 + 1) := by
        rw [pow_mul]
        norm_num
      _ ≤ 128 ^ (w / 2 + 1) := pow_le_pow_left₀ (by norm_num) (by norm_num) _
  calc (10 : ℝ) ^ w * ((r : ℝ) / 10 ^ w) ^ (w / 2 + 1) ≤ 10 ^ w * (1 / 128) ^ (w / 2 + 1) :=
        mul_le_mul_of_nonneg_left hpow (by positivity)
    _ = 10 ^ w / 128 ^ (w / 2 + 1) := by rw [one_div,inv_pow,div_eq_mul_inv]
    _ < 1 := by
      rw [div_lt_one (by positivity)]
      exact hlt

lemma error_le_of_digits {n k w places : ℕ} {E c : ℝ} (hw : w = places + (n + 1) + k / 3 + 1 + 10) (hE : E ≤ 10 ^ n)
    (hc0 : 0 ≤ c) (hc : c ≤ 20000) : E * (2 ^ k * c / 10 ^ w) ≤ 2 / 10 ^ (places + 7) := by
  have hk := two_pow_le_ten_pow k
  calc E * (2 ^ k * c / 10 ^ w) ≤ 10 ^ n * (10 ^ (k / 3 + 1) * 20000 / 10 ^ w) := by gcongr
    _ = 2 / 10 ^ (places + 7) := by
      rw [hw]
      field_simp
      ring

lemma two_pow_mul_le {k w : ℕ} {c : ℝ} (hw : k / 3 + 1 + 10 ≤ w) (hc0 : 0 ≤ c) (hc : c ≤ 20000) :
    2 ^ k * c ≤ (10 : ℝ) ^ w := by
  calc 2 ^ k * c ≤ 10 ^ (k / 3 + 1) * 10 ^ 10 := by
        have hk := two_pow_le_ten_pow k
        gcongr
        linarith
    _ = 10 ^ (k / 3 + 1 + 10) := (pow_add _ _ _).symm
    _ ≤ 10 ^ w := pow_le_pow_right₀ (by norm_num) hw

/-- The scaled exponential is close at the working precision. -/
lemma expScaled_spec (hpos : 0 < a.toRat) (hle : a.toRat ≤ maxExpArgument) (hexp : -2 ^ 31 + 4 ≤ a.exponent)
    {places : ℕ} (hplaces : places ≤ 10000) :
    ∃ w, expWorkingDigits a places = .ok w ∧ w ≤ 2 ^ 20 ∧ ∃ sum, expScaled a (expHalvings a) w = .ok sum ∧
      1 ≤ (sum : ℝ) / 10 ^ w ∧ |(sum : ℝ) / 10 ^ w - exp a.toRat| ≤ 2 / 10 ^ (places + 7) := by
  obtain ⟨hhalved,hk⟩ := expHalvings_spec hpos hle
  obtain ⟨n,hdigits,hn,hten⟩ := expResultDigits_spec hpos hle hexp
  have hwdigits : expWorkingDigits a places = .ok (places + (n + 1) + expHalvings a / 3 + 1 + 10) := by
    rw [expWorkingDigits,hdigits]
    rfl
  generalize expHalvings a = k at *
  generalize hwdef : places + (n + 1) + k / 3 + 1 + 10 = w at *
  have hwle : w ≤ 2 ^ 20 := by omega
  obtain ⟨q,hq,hr⟩ := exists_scaled_argument hpos hle (by omega) k hwle
  refine ⟨w,hwdigits,hwle,?_⟩
  rw [expScaled,hq,Go.ok_bind]
  dsimp only
  generalize (q.shift w).bigInt.toNat = r at *
  have hpow : (0 : ℝ) < 10 ^ w := by positivity
  have hcast : ((10 ^ w : ℕ) : ℝ) = 10 ^ w := by push_cast; rfl
  have hlarge : (10 : ℝ) ^ 11 ≤ 10 ^ w := pow_le_pow_right₀ (by norm_num) (by omega)
  have hsmall : (r : ℝ) / 10 ^ w ≤ 1 / 128 := by
    have hquot : (a.toRat : ℝ) / 2 ^ k ≤ 1 / 256 := by
      have hcast : ((256 * a.toRat : ℚ) : ℝ) ≤ ((2 ^ k : ℚ) : ℝ) := cast_le.2 hhalved
      push_cast at hcast
      rw [div_le_div_iff₀ (by positivity) (by norm_num)]
      linarith
    have hunit : 1 / (2 * (10 : ℝ) ^ w) ≤ 1 / 256 := by
      rw [div_le_div_iff₀ (by positivity) (by norm_num)]
      linarith
    linarith [(abs_le.1 hr).2]
  have hr2 : 2 * r ≤ 10 ^ w := by
    rw [div_le_iff₀ hpow] at hsmall
    have hle : (2 * r : ℝ) ≤ ((10 ^ w : ℕ) : ℝ) := by
      rw [hcast]
      linarith
    exact_mod_cast hle
  have hN : ((10 ^ w : ℕ) : ℝ) * ((r : ℝ) / ((10 ^ w : ℕ) : ℝ)) ^ (w / 2 + 1) < 1 := by
    rw [hcast]
    exact scaled_term_lt_one hsmall
  have hfuel : w / 2 + 1 ≤ 10 ^ w := by
    have hlt : w < 10 ^ w := Nat.lt_pow_self (by decide)
    omega
  have hS : 0 < 10 ^ w := Nat.pow_pos (by decide)
  obtain ⟨s,hs,hSs,hup,hdown⟩ := ScaledExp.taylorSum_bounds hS hr2 hN (Nat.succ_pos _) hfuel
  have hunits : 2 * ((w / 2 + 1 : ℕ) : ℝ) + 4 + 2 ≤ 20000 := by
    have hle : 2 * (w / 2 + 1) + 4 + 2 ≤ 20000 := by omega
    exact_mod_cast hle
  have hfit := two_pow_mul_le (show k / 3 + 1 + 10 ≤ w by omega) (by positivity) hunits
  have herror := ScaledExp.squarings_exp hS hSs (by positivity) (by rwa [hcast]) hup hdown (by rwa [hcast])
  refine ⟨ScaledExp.squarings (10 ^ w) k s,by rw [hs],?_,?_⟩
  · rw [one_le_div hpow,← hcast]
    exact_mod_cast ScaledExp.le_squarings hS k hSs
  · rw [hcast] at herror
    exact herror.trans (error_le_of_digits hwdef.symm hten (by positivity) hunits)

variable {x : Decimal} {places : ℕ}
lemma abs_round_sub_real_le {d : Decimal} {t ε : ℝ} (h : |(d.toRat : ℝ) - t| ≤ ε) (places : ℕ) :
    |((d.round places).toRat : ℝ) - t| ≤ 1 / (2 * 10 ^ places) + ε := by
  have hround := cast_le (K := ℝ) |>.2 (d.abs_round_sub_le places)
  rw [cast_halfUnit] at hround
  push_cast at hround
  calc |((d.round places).toRat : ℝ) - t| = |(((d.round places).toRat : ℝ) - d.toRat) + (d.toRat - t)| := by ring_nf
    _ ≤ |((d.round places).toRat : ℝ) - d.toRat| + |(d.toRat : ℝ) - t| := abs_add_le _ _
    _ ≤ 1 / (2 * 10 ^ places) + ε := add_le_add hround h

lemma abs_inv_sub_inv_le {s t : ℝ} (hs : 1 ≤ s) (ht : 1 ≤ t) : |s⁻¹ - t⁻¹| ≤ |s - t| := by
  have heq : s⁻¹ - t⁻¹ = -((s - t) / (s * t)) := by
    field_simp
    ring
  have hprod : 1 ≤ s * t := one_le_mul_of_one_le_of_one_le hs ht
  rw [heq,abs_neg,abs_div,abs_of_pos (by linarith : 0 < s * t)]
  exact div_le_self (abs_nonneg _) hprod

lemma expDecimal_zero (hx : x.toRat = 0) : expDecimal x places = .ok (Decimal.round ⟨1,0⟩ places) := by
  have hcoef := toRat_eq_zero_iff.1 hx
  have hle : (Decimal.ofInt maxExpArgument).lt x.abs = false := by
    rw [← Bool.not_eq_true,lt_iff_toRat_lt,toRat_abs,hx,toRat_ofInt]
    norm_num [maxExpArgument]
  rw [expDecimal,if_neg (by omega),hle,if_neg (by decide),if_pos (by simpa [Decimal.isZero] using hcoef)]

/-- The result is a decimal of so many places, off by little more than half a unit. -/
lemma expDecimal_close (hx : |x.toRat| ≤ maxExpArgument) (hexp : -2 ^ 31 + 4 ≤ x.exponent) (hplaces : places ≤ 10000) :
    ∃ r, expDecimal x places = .ok r ∧ r.exponent = -places ∧
      |(r.toRat : ℝ) - exp x.toRat| ≤ 14 / (25 * 10 ^ places) := by
  have hunit : (0 : ℝ) < 10 ^ places := by positivity
  by_cases hzero : x.toRat = 0
  · refine ⟨_,expDecimal_zero hzero,exponent_round _ _,?_⟩
    have hone : |((Decimal.toRat ⟨1,0⟩ : ℚ) : ℝ) - exp x.toRat| ≤ 0 := by
      rw [hzero]
      simp [Decimal.toRat]
    refine (abs_round_sub_real_le hone places).trans ?_
    rw [add_zero,div_le_div_iff₀ (by positivity) (by positivity)]
    linarith
  have hpos : 0 < x.abs.toRat := by
    rw [toRat_abs]
    exact abs_pos.2 hzero
  have hle : x.abs.toRat ≤ maxExpArgument := by rwa [toRat_abs]
  obtain ⟨w,hw,hwle,sum,hsum,hone,hclose⟩ := expScaled_spec hpos hle hexp hplaces
  have hcoef : x.coefficient ≠ 0 := fun h => hzero (toRat_eq_zero_iff.2 h)
  have hlt : (Decimal.ofInt maxExpArgument).lt x.abs = false := by
    rw [← Bool.not_eq_true,lt_iff_toRat_lt,not_lt,toRat_ofInt]
    exact hle
  have hresult : ((Decimal.toRat ⟨sum,-w⟩ : ℚ) : ℝ) = sum / 10 ^ w := by
    rw [Decimal.toRat,zpow_neg,zpow_natCast]
    push_cast
    rw [div_eq_mul_inv]
  have htiny : 2 / 10 ^ (places + 7) ≤ 1 / (100 * 10 ^ places : ℝ) := by
    rw [pow_add,div_le_div_iff₀ (by positivity) (by positivity)]
    nlinarith
  rw [expDecimal,if_neg (by omega),hlt,if_neg (by decide),if_neg (by simpa [Decimal.isZero] using hcoef)]
  dsimp only
  rw [toNat_natCast,hw,Go.ok_bind,hsum,Go.ok_bind]
  by_cases hneg : x.isNegative = true
  · rw [if_pos hneg]
    have habs : x.abs.toRat = -x.toRat := by
      rw [toRat_abs,abs_of_nonpos]
      rw [← neg_nonneg,← toRat_neg,toRat_nonneg]
      have hcoef : x.coefficient < 0 := by simpa [Decimal.isNegative] using hneg
      change 0 ≤ -x.coefficient
      omega
    have hsum0 : (sum : ℤ) ≠ 0 := by
      intro h
      have hzero : (sum : ℝ) = 0 := by exact_mod_cast h
      rw [hzero,zero_div] at hone
      linarith
    obtain ⟨inverse,hinverse,-,hquot⟩ := @divRound_spec ⟨1,0⟩ ⟨sum,-w⟩ (places + 1) hsum0
      (by constructor <;> (dsimp only; push_cast; omega))
    rw [show ((places : ℤ) + 1).toNat = places + 1 by omega,hinverse,Go.ok_bind]
    refine ⟨_,rfl,exponent_round _ _,?_⟩
    have hinv : |(inverse.toRat : ℝ) - exp x.toRat| ≤ 1 / (20 * 10 ^ places) + 1 / (100 * 10 ^ places) := by
      have hquot' := cast_le (K := ℝ) |>.2 hquot
      have hhalf : ((Decimal.halfUnit (places + 1 : ℕ) : ℚ) : ℝ) = 1 / (20 * 10 ^ places) := by
        rw [cast_halfUnit,pow_succ]
        ring
      have hnum : (Decimal.toRat ⟨1,0⟩ : ℚ) = 1 := by simp [Decimal.toRat]
      rw [hhalf,hnum] at hquot'
      push_cast at hquot'
      rw [hresult,one_div] at hquot'
      have hexpinv : exp (x.toRat : ℝ) = (exp (x.abs.toRat : ℝ))⁻¹ := by
        rw [habs,← exp_neg]
        push_cast
        rw [neg_neg]
      have hinvs : |((sum : ℝ) / 10 ^ w)⁻¹ - exp x.toRat| ≤ 1 / (100 * 10 ^ places) := by
        rw [hexpinv]
        refine (abs_inv_sub_inv_le hone (one_le_exp ?_)).trans (hclose.trans htiny)
        exact_mod_cast hpos.le
      calc |(inverse.toRat : ℝ) - exp x.toRat|
          = |((inverse.toRat : ℝ) - ((sum : ℝ) / 10 ^ w)⁻¹) + (((sum : ℝ) / 10 ^ w)⁻¹ - exp x.toRat)| := by ring_nf
        _ ≤ _ := abs_add_le _ _
        _ ≤ 1 / (20 * 10 ^ places) + 1 / (100 * 10 ^ places) := add_le_add hquot' hinvs
    refine (abs_round_sub_real_le hinv places).trans (le_of_eq ?_)
    field_simp
    norm_num
  · rw [if_neg hneg]
    have habs : x.abs.toRat = x.toRat := by
      rw [toRat_abs,abs_of_nonneg (toRat_nonneg.2 ?_)]
      simpa [Decimal.isNegative] using hneg
    rw [habs,← hresult] at hclose
    refine ⟨_,rfl,exponent_round _ _,(abs_round_sub_real_le hclose places).trans ?_⟩
    refine (add_le_add_right htiny _).trans (le_of_lt ?_)
    rw [div_add_div _ _ (by positivity) (by positivity),div_lt_div_iff₀ (by positivity) (by positivity)]
    nlinarith [mul_pos hunit hunit,mul_pos hunit (mul_pos hunit hunit)]

/-- For every argument in bounds whose exponent is at least four above the least one, and every
number of places, the exponential returns and is off by less than a unit in the last place. -/
theorem expDecimal_accurate {x : Decimal} {places : ℤ} (hx : |x.toRat| ≤ 2400) (hexp : -2 ^ 31 + 4 ≤ x.exponent)
    (hlow : 0 ≤ places) (hhigh : places ≤ 10000) :
    ∃ r, expDecimal x places = .ok r ∧ |(r.toRat : ℝ) - exp x.toRat| < 10 ^ (-places) := by
  obtain ⟨n,rfl⟩ := eq_ofNat_of_zero_le hlow
  obtain ⟨r,hr,-,hclose⟩ := expDecimal_close hx hexp (show n ≤ 10000 by omega)
  refine ⟨r,hr,hclose.trans_lt ?_⟩
  rw [zpow_neg,zpow_natCast,← one_div,div_lt_div_iff₀ (by positivity) (by positivity)]
  linarith [show (0 : ℝ) < 10 ^ n by positivity]

theorem expDecimal_accurate_minusThreeHalves :
    expDecimal ⟨-15,-1⟩ 6 = .ok ⟨223130,-6⟩ ∧
      |((Decimal.toRat ⟨223130,-6⟩ : ℚ) : ℝ) - exp (Decimal.toRat ⟨-15,-1⟩ : ℚ)| < 10 ^ (-6 : ℤ) := by
  have heval : expDecimal ⟨-15,-1⟩ 6 = .ok ⟨223130,-6⟩ := by decide +kernel
  have hx : |Decimal.toRat ⟨-15,-1⟩| ≤ 2400 := by norm_num [Decimal.toRat,zpow_neg,abs_le]
  obtain ⟨r,hr,hclose⟩ := expDecimal_accurate hx (by norm_num) (show (0 : ℤ) ≤ 6 by decide) (by decide)
  cases heval.symm.trans hr
  exact ⟨heval,hclose⟩

/-- The argument `1e-2147483648` is in bounds, and its product with 0.4343 has an exponent
that does not fit. -/
theorem expDecimal_overflows :
    |Decimal.toRat ⟨1,-2 ^ 31⟩| ≤ 2400 ∧
      expDecimal ⟨1,-2 ^ 31⟩ 0 = Go.panics "exponent -2147483652 overflows an int32!" := by
  have hx : Decimal.toRat ⟨1,-2 ^ 31⟩ ≤ 1 := by
    rw [Decimal.toRat,Int.cast_one,one_mul]
    exact zpow_le_one_of_nonpos₀ (by norm_num) (by decide)
  have hpos : 0 ≤ Decimal.toRat ⟨1,-2 ^ 31⟩ := toRat_nonneg.2 (by decide)
  have hbound : |Decimal.toRat ⟨1,-2 ^ 31⟩| ≤ 2400 := by
    rw [abs_of_nonneg hpos]
    exact hx.trans (by norm_num)
  have hlt : (Decimal.ofInt maxExpArgument).lt (Decimal.abs ⟨1,-2 ^ 31⟩) = false := by
    rw [← Bool.not_eq_true,lt_iff_toRat_lt,not_lt,toRat_ofInt,toRat_abs]
    exact hbound
  refine ⟨hbound,?_⟩
  rw [expDecimal,if_neg (by decide),hlt,if_neg (by decide),if_neg (by decide)]
  rfl

end DataStreams
