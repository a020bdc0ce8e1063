import DataStreams.Calculated.Logarithm

/-! Powers of decimals: an exact power by the whole part of the exponent, and the exponential of
a logarithm for the rest. -/
namespace DataStreams
open Go Real

def maxOperandCoefficientBits : ℕ := 4 * maxDecimalCoefficientBits

def maxOperandExponent : ℤ := 4 * maxDecimalExponent

def checkOperand (d : Decimal) : Except String Unit :=
  if maxOperandCoefficientBits < d.coefficientBits then
    .error s!"operand has a coefficient of {d.coefficientBits} bits, which exceeds the maximum of {maxOperandCoefficientBits}"
  else if maxOperandExponent < d.exponent ∨ d.exponent < -maxOperandExponent then
    .error s!"operand has an exponent of {d.exponent}, which exceeds the maximum magnitude of {maxOperandExponent}"
  else .ok ()

def maxPowExponent : ℤ := 100000

def maxPowResultBits : ℤ := 2 ^ 21

def powEstimatePrecision : ℤ := 8

namespace Decimal
/-- Repeated squaring; the remaining exponent has at most as many bits as there is fuel. -/
def powLoop : ℕ → ℕ → Decimal → Decimal → Go Decimal
  | 0,_,_,result => .ok result
  | fuel + 1,e,n,result =>
    if e = 0 then .ok result
    else do
      let result ← (if e % 2 = 1 then result.mulChecked n else .ok result)
      let n ← (if 0 < e / 2 then n.mulChecked n else .ok n)
      powLoop fuel (e / 2) n result

def powBigIntWithPrecision (d : Decimal) (exp : ℤ) (precision : ℕ) : Go Decimal := do
  let result ← powLoop exp.natAbs.size exp.natAbs d ⟨1,0⟩
  if exp < 0 then divRound ⟨1,0⟩ result precision else .ok result

/-- The part of the package's power that is used here: the exponent is a whole number or the
base is zero, so that there is no fraction left to apply. -/
def powWithPrecision (d d₂ : Decimal) (precision : ℕ) : Go Decimal :=
  if d.isZero then
    if d₂.isZero then Go.err "cannot represent undefined value of 0**0"
    else if d₂.isPositive then .ok zero
    else Go.err "cannot represent infinity value of 0 ** y, where y < 0"
  else if d₂.isZero then .ok ⟨1,0⟩
  else d.powBigIntWithPrecision d₂.bigInt precision

end Decimal

def checkPow (base exponent : Decimal) : Go Unit :=
  if (Decimal.ofInt maxPowExponent).lt exponent.abs then
    Go.err s!"exponent {exponent.text} exceeds the maximum magnitude of {maxPowExponent}"
  else if base.abs.isZero then .ok ()
  else do
    let resultBits ← (Decimal.ofInt base.abs.coefficientBits).mulChecked (exponent.truncatePlaces 0).abs
    if (Decimal.ofInt maxPowResultBits).lt resultBits then
      Go.err s!"power of {base.text} by {exponent.text} needs a coefficient of up to {resultBits.text} bits, which exceeds the maximum of {maxPowResultBits}"
    else
      match lnDecimal base.abs powEstimatePrecision with
      | .error (.error e) => Go.err s!"power of {base.text} by {exponent.text} could not be bounded: {e}"
      | .error (.panic m) => Go.panics m
      | .ok lnBase => do
        let magnitude ← exponent.mulChecked lnBase
        if (Decimal.ofInt maxExpArgument).lt magnitude.abs then
          Go.err s!"power of {base.text} by {exponent.text} has a natural logarithm of {magnitude.abs.text}, which exceeds the maximum magnitude of {maxExpArgument}"
        else .ok ()

/-- A panic of the package is recovered as an error. -/
def decimalIntPow (base exponent : Decimal) (prec : ℕ) : Go Decimal :=
  match base.powWithPrecision exponent prec with
  | .ok result => .ok result
  | .error (.error e) => Go.err e
  | .error (.panic m) => Go.err s!"power of {base.text} by {exponent.text} could not be computed: {m}"

/-- The places of the logarithm and the exponential, raised to cover the operands. -/
def fracPrecision (base exponent : Decimal) (prec : ℕ) : ℕ :=
  let fracPrec := if prec < base.numDigits then base.numDigits else prec
  let fracPrec := if fracPrec < exponent.numDigits then fracPrec + exponent.numDigits else fracPrec
  fracPrec + 10

def decimalPow (base exponent : Decimal) (prec : ℕ) : Go Decimal := do
  checkPow base exponent
  let intPart := exponent.truncatePlaces 0
  let fracPart := exponent.sub intPart
  if fracPart.isZero || base.isZero then decimalIntPow base exponent prec
  else if base.isNegative then
    Go.err "cannot represent imaginary value of x ** y, where x < 0 and y is non-integer decimal"
  else do
    let intPow ← decimalIntPow base intPart prec
    let lnBase ← lnDecimal base (fracPrecision base exponent prec)
    let argument ← lnBase.mulChecked fracPart
    let fracPow ← expDecimal argument (fracPrecision base exponent prec)
    intPow.mulChecked fracPow

namespace Decimal
structure IsOperand (d : Decimal) : Prop where
  bits : d.coefficientBits ≤ 768
  exponent : |d.exponent| ≤ 4000

lemma checkOperand_eq_ok {d : Decimal} : checkOperand d = .ok () ↔ d.IsOperand := by
  have hbits : maxOperandCoefficientBits = 768 := rfl
  have hexp : maxOperandExponent = 4000 := rfl
  unfold checkOperand
  rw [hbits,hexp]
  split_ifs with hlong hlarge
  · refine ⟨?_,fun h => absurd h.bits (not_le.2 hlong)⟩
    intro h
    cases h
  · constructor
    · intro h
      cases h
    intro h
    have hbound := abs_le.1 h.exponent
    omega
  · refine ⟨fun _ => ⟨not_lt.1 hlong,?_⟩,fun _ => rfl⟩
    rw [abs_le]
    omega

variable {d a b r : Decimal}
lemma IsOperand.abs (h : d.IsOperand) : d.abs.IsOperand := by
  refine ⟨?_,h.exponent⟩
  have hsame : d.abs.coefficientBits = d.coefficientBits := by
    rw [coefficientBits,coefficientBits,Decimal.abs,Int.natAbs_natCast]
  rw [hsame]
  exact h.bits

lemma mulChecked_eq_mul (ha : |a.exponent| ≤ 2 ^ 30) (hb : |b.exponent| < 2 ^ 30) : a.mulChecked b = .ok (a.mul b) := by
  rw [abs_le] at ha
  rw [abs_lt] at hb
  rw [mulChecked,if_neg (by omega)]

lemma eq_mul_of_mulChecked (h : a.mulChecked b = .ok r) : r = a.mul b := by
  unfold mulChecked at h
  split_ifs at h
  · exact absurd h (panics_ne_ok _ _)
  · exact (Except.ok.inj h).symm

lemma pow_split (q : ℚ) (e : ℕ) : q ^ e = (q * q) ^ (e / 2) * q ^ (e % 2) := by
  rw [← pow_two,← pow_mul,← pow_add,Nat.div_add_mod]

/-- Square and multiply computes the power, when the fuel suffices. -/
lemma toRat_powLoop {fuel e : ℕ} {n result : Decimal} (hfuel : e < 2 ^ fuel)
    (h : powLoop fuel e n result = .ok r) :
    r.toRat = result.toRat * n.toRat ^ e ∧ r.exponent = result.exponent + e * n.exponent := by
  -- the product of the result and the remaining power of `n` does not change
  induction fuel generalizing e n result with
  | zero =>
    obtain rfl : e = 0 := by
      rw [pow_zero] at hfuel
      omega
    cases h
    simp
  | succ fuel ih =>
    rw [powLoop] at h
    by_cases he : e = 0
    · rw [if_pos he] at h
      cases h
      simp [he]
    rw [if_neg he,bind_ok_iff] at h
    obtain ⟨result',hresult,h⟩ := h
    obtain ⟨n',hn,h⟩ := bind_ok_iff.1 h
    have hresult' : result'.toRat = result.toRat * n.toRat ^ (e % 2) ∧
        result'.exponent = result.exponent + (e % 2 : ℕ) * n.exponent := by
      split_ifs at hresult with hodd
      · rw [eq_mul_of_mulChecked hresult,toRat_mul,hodd]
        simp [mul]
      · cases hresult
        have heven : e % 2 = 0 := by omega
        simp [heven]
    have hn' : n'.toRat ^ (e / 2) = (n.toRat * n.toRat) ^ (e / 2) ∧
        (e / 2 : ℕ) * n'.exponent = (e / 2 : ℕ) * (2 * n.exponent) := by
      split_ifs at hn with hmore
      · rw [eq_mul_of_mulChecked hn,toRat_mul]
        refine ⟨rfl,?_⟩
        rw [mul,two_mul]
      · have hlast : e / 2 = 0 := by omega
        simp [hlast]
    obtain ⟨hvalue,hexp⟩ := ih (by rw [pow_succ] at hfuel; omega) h
    constructor
    · rw [hvalue,hresult'.1,hn'.1,pow_split n.toRat e]
      ring
    · have hdiv : (e : ℤ) = (e % 2 : ℕ) + 2 * (e / 2 : ℕ) := by omega
      rw [hexp,hresult'.2,hn'.2,hdiv]
      ring

lemma toRat_truncatePlaces_zero (d : Decimal) : (d.truncatePlaces 0).toRat = truncate d.toRat := by
  unfold truncatePlaces
  split_ifs with h
  · have hzero : (d.rescale (-0)).exponent = 0 := rfl
    have hvalue := coefficient_rescale d 0
    rw [zpow_zero,div_one] at hvalue
    rw [toRat,hzero,zpow_zero,mul_one]
    exact congrArg Int.cast hvalue
  · have hexp : 0 ≤ d.exponent := by omega
    rw [← bigInt_eq_truncate,bigInt_cast hexp]

lemma exponent_truncatePlaces_zero (d : Decimal) : 0 ≤ (d.truncatePlaces 0).exponent ∧
    (d.truncatePlaces 0).exponent ≤ max d.exponent 0 := by
  unfold truncatePlaces
  split_ifs with h
  · exact ⟨le_rfl,le_max_right _ _⟩
  · exact ⟨by omega,le_max_left _ _⟩

lemma abs_truncate_le (q : ℚ) : |(truncate q : ℚ)| ≤ |q| := by
  rcases truncate_bounds q with ⟨hq,ht,hle,-⟩ | ⟨hq,ht,hle,-⟩
  · rw [abs_of_nonneg hq,abs_of_nonneg (by exact_mod_cast ht)]
    exact hle
  · rw [abs_of_neg hq,abs_of_nonpos (by exact_mod_cast ht)]
    linarith

end Decimal

variable {base exponent : Decimal}
lemma estimate_close (hbase : base.IsOperand) (hne : base.coefficient ≠ 0) :
    ∃ lnBase, lnDecimal base.abs powEstimatePrecision = .ok lnBase ∧ lnBase.exponent = -8 ∧
      |(lnBase.toRat : ℝ) - Real.log base.abs.toRat| ≤ 51 / (100 * 10 ^ 8) := by
  have hpos : 0 < base.abs.coefficient := by
    change (0 : ℤ) < base.coefficient.natAbs
    omega
  exact lnDecimal_close hpos hbase.abs.bits hbase.abs.exponent (show 8 ≤ 1000 by decide)

/-- The three limits of the check. -/
structure PowFits (base exponent lnBase : Decimal) : Prop where
  whole : |exponent.toRat| ≤ maxPowExponent
  bits : base.coefficientBits * |(truncate exponent.toRat : ℚ)| ≤ maxPowResultBits
  magnitude : |exponent.toRat * lnBase.toRat| ≤ maxExpArgument

lemma not_lt_ofInt {n : ℤ} {d : Decimal} : ¬(Decimal.ofInt n).lt d = true ↔ d.toRat ≤ n := by
  rw [Decimal.lt_iff_toRat_lt,Decimal.toRat_ofInt,not_lt]

/-- The guard lets exactly the powers with a small estimate through. -/
lemma checkPow_cases (hexponent : exponent.IsOperand) (hne : base.coefficient ≠ 0)
    {lnBase : Decimal} (hln : lnDecimal base.abs powEstimatePrecision = .ok lnBase) (hexp : lnBase.exponent = -8) :
    checkPow base exponent = .ok () ∧ PowFits base exponent lnBase ∨
      (∃ m, checkPow base exponent = Go.err m) ∧ ¬PowFits base exponent lnBase := by
  have hsmall := abs_le.1 hexponent.exponent
  have hwhole := exponent.exponent_truncatePlaces_zero
  have hzero : ¬base.abs.isZero = true := by
    rw [Decimal.isZero,decide_eq_true_iff]
    change ¬(base.coefficient.natAbs : ℤ) = 0
    omega
  have hbits : (Decimal.ofInt base.abs.coefficientBits).mulChecked (exponent.truncatePlaces 0).abs =
      .ok ((Decimal.ofInt base.abs.coefficientBits).mul (exponent.truncatePlaces 0).abs) := by
    apply Decimal.mulChecked_eq_mul
    · simp [Decimal.ofInt]
    · change |(exponent.truncatePlaces 0).exponent| < 2 ^ 30
      rw [abs_lt]
      omega
  have hmagnitude : exponent.mulChecked lnBase = .ok (exponent.mul lnBase) := by
    apply Decimal.mulChecked_eq_mul
    · rw [abs_le]
      omega
    · rw [hexp]
      decide
  have hsame : base.abs.coefficientBits = base.coefficientBits := by
    rw [Decimal.coefficientBits,Decimal.coefficientBits,Decimal.abs,Int.natAbs_natCast]
  unfold checkPow
  rw [if_neg hzero,hbits,ok_bind,hln]
  dsimp only
  rw [hmagnitude,ok_bind]
  by_cases h₁ : (Decimal.ofInt maxPowExponent).lt exponent.abs = true
  · rw [if_pos h₁]
    refine .inr ⟨⟨_,rfl⟩,fun h => ?_⟩
    refine absurd h₁ (not_lt_ofInt.2 ?_)
    rw [Decimal.toRat_abs]
    exact h.whole
  rw [if_neg h₁]
  by_cases h₂ : (Decimal.ofInt maxPowResultBits).lt
      ((Decimal.ofInt base.abs.coefficientBits).mul (exponent.truncatePlaces 0).abs) = true
  · rw [if_pos h₂]
    refine .inr ⟨⟨_,rfl⟩,fun h => ?_⟩
    refine absurd h₂ (not_lt_ofInt.2 ?_)
    rw [Decimal.toRat_mul,Decimal.toRat_ofInt,Decimal.toRat_abs,Decimal.toRat_truncatePlaces_zero,hsame]
    exact h.bits
  rw [if_neg h₂]
  by_cases h₃ : (Decimal.ofInt maxExpArgument).lt (exponent.mul lnBase).abs = true
  · rw [if_pos h₃]
    refine .inr ⟨⟨_,rfl⟩,fun h => ?_⟩
    refine absurd h₃ (not_lt_ofInt.2 ?_)
    rw [Decimal.toRat_abs,Decimal.toRat_mul]
    exact h.magnitude
  rw [if_neg h₃]
  rw [not_lt_ofInt,Decimal.toRat_abs] at h₁ h₃
  rw [not_lt_ofInt,Decimal.toRat_mul,Decimal.toRat_ofInt,Decimal.toRat_abs,Decimal.toRat_truncatePlaces_zero,hsame] at h₂
  rw [Decimal.toRat_mul] at h₃
  exact .inl ⟨rfl,h₁,h₂,h₃⟩

lemma PowFits.abs_mul_log_le {lnBase : Decimal} {t : ℝ} (h : PowFits base exponent lnBase)
    (hclose : |(lnBase.toRat : ℝ) - t| ≤ 51 / (100 * 10 ^ 8)) : |(exponent.toRat : ℝ) * t| ≤ 2401 := by
  have hwhole : |(exponent.toRat : ℝ)| ≤ 100000 := by
    have hcast := (Rat.cast_le (K := ℝ)).2 h.whole
    push_cast [maxPowExponent] at hcast
    exact hcast
  have hmagnitude : |(exponent.toRat : ℝ) * lnBase.toRat| ≤ 2400 := by
    have hcast := (Rat.cast_le (K := ℝ)).2 h.magnitude
    push_cast [maxExpArgument] at hcast
    exact hcast
  calc |(exponent.toRat : ℝ) * t| = |(exponent.toRat : ℝ) * lnBase.toRat - exponent.toRat * (lnBase.toRat - t)| := by ring_nf
    _ ≤ |(exponent.toRat : ℝ) * lnBase.toRat| + |(exponent.toRat : ℝ) * (lnBase.toRat - t)| := abs_sub _ _
    _ ≤ 2400 + 100000 * (51 / (100 * 10 ^ 8)) := by
        rw [abs_mul (exponent.toRat : ℝ) (_ - _)]
        exact add_le_add hmagnitude (mul_le_mul hwhole hclose (abs_nonneg _) (by norm_num))
    _ ≤ 2401 := by norm_num

lemma exp_le_two_pow {x : ℝ} {n : ℕ} (h : x ≤ n) : exp x ≤ 2 ^ (2 * n) := by
  have hone : exp 1 ≤ 2 ^ 2 := by linarith [exp_one_lt_d9]
  calc exp x ≤ exp (n * 1) := exp_le_exp.2 (by rwa [mul_one])
    _ = exp 1 ^ n := exp_nat_mul 1 n
    _ ≤ (2 ^ 2) ^ n := pow_le_pow_left₀ (exp_pos 1).le hone n
    _ = 2 ^ (2 * n) := (pow_mul _ _ _).symm

lemma numDigits_le_mul {d : Decimal} {n : ℕ} (hn : 0 < n) (h : d.coefficientBits ≤ 192 * n) : d.numDigits ≤ 58 * n := by
  apply (Nat.length_toDigits_le_iff (by decide) (by omega)).2
  calc d.coefficient.natAbs < 2 ^ d.coefficientBits := Nat.lt_size_self _
    _ ≤ 2 ^ (192 * n) := Nat.pow_le_pow_right (by decide) h
    _ = (2 ^ 192) ^ n := pow_mul _ _ _
    _ ≤ (10 ^ 58) ^ n := Nat.pow_le_pow_left (by decide) _
    _ = 10 ^ (58 * n) := (pow_mul _ _ _).symm

lemma fracPrecision_bounds {base exponent : Decimal} (hbase : base.IsOperand) (hexponent : exponent.IsOperand) {prec : ℕ}
    (hprec : prec ≤ 232) : prec + 10 ≤ fracPrecision base exponent prec ∧ fracPrecision base exponent prec ≤ 1000 := by
  have hb := numDigits_le_mul (n := 4) (by decide) hbase.bits
  have he := numDigits_le_mul (n := 4) (by decide) hexponent.bits
  unfold fracPrecision
  dsimp only
  split_ifs <;> constructor <;> omega

variable {result : Decimal} {k : ℤ}
lemma abs_pow_natAbs (hne : base.coefficient ≠ 0) (n : ℕ) :
    |(base.toRat : ℝ)| ^ n = exp (n * Real.log base.abs.toRat) := by
  have hpos : (0 : ℝ) < |(base.toRat : ℝ)| := by
    rw [abs_pos]
    exact_mod_cast fun h => hne (Decimal.toRat_eq_zero_iff.1 h)
  rw [Decimal.toRat_abs,Rat.cast_abs,exp_nat_mul,exp_log hpos]

lemma abs_one_div_le (hne : base.coefficient ≠ 0) {n : ℕ} (hvalue : result.toRat = base.toRat ^ n)
    (hlog : -(n * Real.log base.abs.toRat) ≤ 2401) : |1 / (result.toRat : ℝ)| ≤ exp 2401 := by
  rw [hvalue,Rat.cast_pow,abs_div,abs_one,abs_pow,abs_pow_natAbs hne,one_div,← exp_neg]
  exact exp_le_exp.2 hlog

lemma powBigIntWithPrecision_size (hbase : base.IsOperand) (hne : base.coefficient ≠ 0) (hk : |k| ≤ 100000)
    (hlog : |(k : ℝ) * Real.log base.abs.toRat| ≤ 2401) {prec : ℕ} (hprec : prec ≤ 1000)
    (h : base.powBigIntWithPrecision k prec = .ok result) :
    |(result.toRat : ℝ)| ≤ exp 2401 + 1 ∧ |result.exponent| ≤ 400001000 := by
  obtain ⟨power,hpower,h⟩ := bind_ok_iff.1 h
  obtain ⟨hvalue,hexp⟩ := Decimal.toRat_powLoop (Nat.lt_size_self _) hpower
  have hone : Decimal.toRat ⟨1,0⟩ = 1 := by norm_num [Decimal.toRat]
  rw [hone,one_mul] at hvalue
  rw [zero_add] at hexp
  have hexponent : |power.exponent| ≤ 400000000 := by
    rw [hexp,abs_mul,← Int.abs_eq_natAbs,abs_abs]
    exact mul_le_mul hk hbase.exponent (abs_nonneg _) (by decide)
  have hbounds := abs_le.1 hexponent
  split_ifs at h with hneg
  · -- a negative exponent divides one by the power
    have hnat : ((k.natAbs : ℕ) : ℝ) = -k := by
      rw [← Int.cast_natCast,Int.ofNat_natAbs_of_nonpos hneg.le,Int.cast_neg]
    have hsmall := abs_one_div_le hne hvalue (by rw [hnat]; linarith [(abs_le.1 hlog).2])
    have hpne : power.coefficient ≠ 0 := by
      intro hzero
      have hpow := Decimal.toRat_eq_zero_iff.2 hzero
      rw [hvalue] at hpow
      exact hne (Decimal.toRat_eq_zero_iff.1 (pow_eq_zero_iff (by omega) |>.1 hpow))
    obtain ⟨q,hq,hqexp,hqclose⟩ := Decimal.divRound_spec (d := ⟨1,0⟩) hpne
      (show Decimal.DivisionFits ⟨1,0⟩ power prec by constructor <;> dsimp only <;> omega)
    cases (hq.symm.trans h)
    have hclose := (Rat.cast_le (K := ℝ)).2 hqclose
    rw [hone,Decimal.cast_halfUnit] at hclose
    push_cast at hclose
    refine ⟨?_,?_⟩
    · have hunit : 1 / (2 * (10 : ℝ) ^ prec) ≤ 1 := by
        rw [div_le_one (by positivity)]
        linarith [one_le_pow₀ (show (1 : ℝ) ≤ 10 by norm_num) (n := prec)]
      calc |(result.toRat : ℝ)| = |((result.toRat : ℝ) - 1 / power.toRat) + 1 / power.toRat| := by ring_nf
        _ ≤ |(result.toRat : ℝ) - 1 / power.toRat| + |1 / (power.toRat : ℝ)| := abs_add_le _ _
        _ ≤ exp 2401 + 1 := by linarith
    · rw [hqexp,abs_neg,abs_of_nonneg (by omega)]
      omega
  · cases h
    have hnat : ((k.natAbs : ℕ) : ℝ) = k := by
      rw [← Int.cast_natCast,Int.natAbs_of_nonneg (not_lt.1 hneg)]
    refine ⟨?_,hexponent.trans (by decide)⟩
    rw [hvalue,Rat.cast_pow,abs_pow,abs_pow_natAbs hne,hnat]
    have hsize := exp_le_exp.2 (abs_le.1 hlog).2
    linarith

lemma decimalIntPow_ends {exponent : Decimal} (hbase : base.IsOperand) (hne : base.coefficient ≠ 0)
    (hk : |exponent.bigInt| ≤ 100000) (hlog : |(exponent.bigInt : ℝ) * Real.log base.abs.toRat| ≤ 2401) {prec : ℕ}
    (hprec : prec ≤ 1000) :
    (decimalIntPow base exponent prec).Ends fun r =>
      |(r.toRat : ℝ)| ≤ exp 2401 + 1 ∧ |r.exponent| ≤ 400001000 := by
  unfold decimalIntPow
  split
  case h_2 e _ => exact ends_err e
  case h_3 m _ => exact ends_err _
  case h_1 r hr =>
    rw [Decimal.powWithPrecision,if_neg (by rwa [Decimal.isZero,decide_eq_true_iff])] at hr
    split_ifs at hr with hzero
    · cases hr
      refine ends_ok ⟨?_,by decide⟩
      have hone : Decimal.toRat ⟨1,0⟩ = 1 := by norm_num [Decimal.toRat]
      rw [hone,Rat.cast_one,abs_one]
      linarith [exp_pos 2401]
    · exact ends_ok (powBigIntWithPrecision_size hbase hne hk hlog hprec hr)

lemma decimalIntPow_zero_ends {exponent : Decimal} (hzero : base.coefficient = 0) (prec : ℕ) :
    (decimalIntPow base exponent prec).Ends fun r => r = .zero := by
  unfold decimalIntPow
  split
  case h_2 e _ => exact ends_err e
  case h_3 m _ => exact ends_err _
  case h_1 r hr =>
    rw [Decimal.powWithPrecision,if_pos (by rwa [Decimal.isZero,decide_eq_true_iff])] at hr
    split_ifs at hr
    · exact absurd hr (err_ne_ok _ _)
    · exact ends_ok (Except.ok.inj hr).symm
    · exact absurd hr (err_ne_ok _ _)

variable {x : Decimal} {places : ℕ}
lemma expDecimal_cases (hexp : -2 ^ 31 + 4 ≤ x.exponent) (hplaces : places ≤ 10000) :
    (∃ r, expDecimal x places = .ok r ∧ r.exponent = -places ∧ |x.toRat| ≤ maxExpArgument ∧
      |(r.toRat : ℝ) - exp x.toRat| ≤ 14 / (25 * 10 ^ places)) ∨
      (∃ m, expDecimal x places = Go.err m) ∧ ¬|x.toRat| ≤ maxExpArgument := by
  by_cases hx : |x.toRat| ≤ maxExpArgument
  · obtain ⟨r,hr,hrexp,hclose⟩ := expDecimal_close hx hexp hplaces
    exact .inl ⟨r,hr,hrexp,hx,hclose⟩
  · refine .inr ⟨?_,hx⟩
    have hlt : (Decimal.ofInt maxExpArgument).lt x.abs = true := by
      rw [Decimal.lt_iff_toRat_lt,Decimal.toRat_ofInt,Decimal.toRat_abs]
      exact not_le.1 hx
    rw [expDecimal,if_neg (by omega),if_pos hlt]
    exact ⟨_,rfl⟩

lemma expDecimal_ends (hexp : -2 ^ 31 + 4 ≤ x.exponent) (hplaces : places ≤ 10000) :
    (expDecimal x places).Ends fun r => |(r.toRat : ℝ)| ≤ exp 2400 + 1 ∧ r.exponent = -(places : ℤ) := by
  rcases expDecimal_cases hexp hplaces with ⟨r,hr,hrexp,hx,hclose⟩ | ⟨⟨m,hm⟩,-⟩
  · rw [hr]
    refine ends_ok ⟨?_,hrexp⟩
    have harg : (x.toRat : ℝ) ≤ 2400 := by
      have hcast := (Rat.cast_le (K := ℝ)).2 hx
      push_cast [maxExpArgument] at hcast
      exact (abs_le.1 hcast).2
    have hunit : 14 / (25 * (10 : ℝ) ^ places) ≤ 1 := by
      rw [div_le_one (by positivity)]
      linarith [one_le_pow₀ (show (1 : ℝ) ≤ 10 by norm_num) (n := places)]
    calc |(r.toRat : ℝ)| = |((r.toRat : ℝ) - exp x.toRat) + exp x.toRat| := by ring_nf
      _ ≤ |(r.toRat : ℝ) - exp x.toRat| + |exp x.toRat| := abs_add_le _ _
      _ ≤ exp 2400 + 1 := by
          rw [abs_of_pos (exp_pos _)]
          linarith [exp_le_exp.2 harg]
  · rw [hm]
    exact ends_err m

variable {prec : ℕ}
lemma checkPow_zero_ends (hzero : base.coefficient = 0) : (checkPow base exponent).Ends fun _ => True := by
  have habs : base.abs.isZero = true := by
    rw [Decimal.isZero,decide_eq_true_iff]
    change (base.coefficient.natAbs : ℤ) = 0
    omega
  unfold checkPow
  rw [if_pos habs]
  split_ifs
  · exact ends_err _
  · exact ends_ok trivial

lemma checkPow_ends (hbase : base.IsOperand) (hexponent : exponent.IsOperand) (hne : base.coefficient ≠ 0) :
    (checkPow base exponent).Ends fun _ =>
      |exponent.toRat| ≤ maxPowExponent ∧ |(exponent.toRat : ℝ) * Real.log base.abs.toRat| ≤ 2401 := by
  obtain ⟨lnBase,hln,hexp,hclose⟩ := estimate_close hbase hne
  rcases checkPow_cases hexponent hne hln hexp with ⟨hok,hfits⟩ | ⟨⟨m,hm⟩,-⟩
  · rw [hok]
    exact ends_ok ⟨hfits.whole,hfits.abs_mul_log_le hclose⟩
  · rw [hm]
    exact ends_err m

lemma whole_bounds {t : ℝ} (hwhole : |exponent.toRat| ≤ maxPowExponent) (hlog : |(exponent.toRat : ℝ) * t| ≤ 2401) :
    |truncate exponent.toRat| ≤ 100000 ∧ |(truncate exponent.toRat : ℝ) * t| ≤ 2401 := by
  have hle := Decimal.abs_truncate_le exponent.toRat
  constructor
  · have hbound : |(truncate exponent.toRat : ℚ)| ≤ (100000 : ℤ) := hle.trans hwhole
    exact_mod_cast hbound
  · have hcast : |(truncate exponent.toRat : ℝ)| ≤ |(exponent.toRat : ℝ)| := by exact_mod_cast (Rat.cast_le (K := ℝ)).2 hle
    rw [abs_mul] at hlog ⊢
    exact (mul_le_mul_of_nonneg_right hcast (abs_nonneg t)).trans hlog

lemma bigInt_truncatePlaces_zero (d : Decimal) : (d.truncatePlaces 0).bigInt = truncate d.toRat := by
  rw [Decimal.bigInt_eq_truncate,Decimal.toRat_truncatePlaces_zero,truncate_intCast]

lemma exponent_fracPart (hexponent : exponent.IsOperand) : |(exponent.sub (exponent.truncatePlaces 0)).exponent| ≤ 4000 := by
  have hexp := abs_le.1 hexponent.exponent
  have hwhole := exponent.exponent_truncatePlaces_zero
  change |min exponent.exponent (exponent.truncatePlaces 0).exponent| ≤ 4000
  rw [abs_le]
  omega

/-- Powers of operands do not crash, and those that are returned are bounded. -/
lemma decimalPow_ends (hbase : base.IsOperand) (hexponent : exponent.IsOperand) (hprec : prec ≤ 232) :
    (decimalPow base exponent prec).Ends fun r => |(r.toRat : ℝ)| ≤ (exp 2401 + 1) * (exp 2400 + 1) := by
  have hexp₁ := exp_pos 2401
  have hexp₂ := exp_pos 2400
  unfold decimalPow
  by_cases hzero : base.coefficient = 0
  · refine (checkPow_zero_ends hzero).bind ?_
    intro _ _
    have hbool : base.isZero = true := by rwa [Decimal.isZero,decide_eq_true_iff]
    dsimp only
    rw [hbool,Bool.or_true,if_pos rfl]
    refine (decimalIntPow_zero_ends hzero prec).mono ?_
    rintro r rfl
    have hvalue : Decimal.toRat .zero = 0 := by simp [Decimal.toRat,Decimal.zero]
    rw [hvalue,Rat.cast_zero,abs_zero]
    positivity
  refine (checkPow_ends hbase hexponent hzero).bind ?_
  rintro _ ⟨hwhole,hlog⟩
  obtain ⟨hk,hklog⟩ := whole_bounds hwhole hlog
  dsimp only
  split_ifs with hfrac hneg
  · refine (decimalIntPow_ends hbase hzero ?_ ?_ (hprec.trans (by decide))).mono ?_
    · rwa [Decimal.bigInt_eq_truncate]
    · rwa [Decimal.bigInt_eq_truncate]
    · rintro r ⟨hr,-⟩
      nlinarith
  · exact ends_err _
  refine (decimalIntPow_ends hbase hzero ?_ ?_ (hprec.trans (by decide))).bind ?_
  · rwa [bigInt_truncatePlaces_zero]
  · rwa [bigInt_truncatePlaces_zero]
  rintro intPow ⟨hint,hintexp⟩
  have hpos : 0 < base.coefficient := by
    rw [Decimal.isNegative,decide_eq_true_iff] at hneg
    omega
  obtain ⟨hlow,hhigh⟩ := fracPrecision_bounds hbase hexponent hprec
  obtain ⟨lnBase,hln,hlnexp,-⟩ := lnDecimal_close hpos hbase.bits hbase.exponent hhigh
  have hfracexp := exponent_fracPart hexponent
  rw [hln,ok_bind,Decimal.mulChecked_eq_mul (by rw [hlnexp,abs_neg,abs_of_nonneg (by omega)]; omega)
    (hfracexp.trans_lt (by decide)),ok_bind]
  have hargument : -2 ^ 31 + 4 ≤ (lnBase.mul (exponent.sub (exponent.truncatePlaces 0))).exponent := by
    change -2 ^ 31 + 4 ≤ lnBase.exponent + (exponent.sub (exponent.truncatePlaces 0)).exponent
    have hbound := abs_le.1 hfracexp
    omega
  refine (expDecimal_ends hargument (hhigh.trans (by decide))).bind ?_
  rintro fracPow ⟨hfracPow,hfracPowexp⟩
  rw [Decimal.mulChecked_eq_mul (hintexp.trans (by decide))
    (by rw [hfracPowexp,abs_neg,abs_of_nonneg (by omega)]; omega)]
  refine ends_ok ?_
  rw [Decimal.toRat_mul,Rat.cast_mul,abs_mul]
  exact mul_le_mul hint hfracPow (abs_nonneg _) (by positivity)

lemma powFits_half {lnBase : Decimal} : PowFits base ⟨5,-1⟩ lnBase ↔ |(1 / 2 : ℚ) * lnBase.toRat| ≤ maxExpArgument := by
  have hhalf : Decimal.toRat ⟨5,-1⟩ = 1 / 2 := by norm_num [Decimal.toRat]
  have htruncate : truncate (1 / 2) = 0 := by norm_num [truncate]
  constructor
  · intro h
    rw [← hhalf]
    exact h.magnitude
  · intro h
    refine ⟨?_,?_,by rwa [hhalf]⟩
    · rw [hhalf]
      norm_num [maxPowExponent]
    · rw [hhalf,htruncate]
      norm_num [maxPowResultBits]

lemma decimalPow_half (hpos : 0 < base.coefficient) :
    decimalPow base ⟨5,-1⟩ prec = (do
      checkPow base ⟨5,-1⟩
      let lnBase ← lnDecimal base (fracPrecision base ⟨5,-1⟩ prec)
      let argument ← lnBase.mulChecked ⟨5,-1⟩
      let fracPow ← expDecimal argument (fracPrecision base ⟨5,-1⟩ prec)
      Decimal.mulChecked ⟨1,0⟩ fracPow) := by
  have hwhole : Decimal.truncatePlaces ⟨5,-1⟩ 0 = ⟨0,0⟩ := by decide
  have hfrac : Decimal.sub ⟨5,-1⟩ ⟨0,0⟩ = ⟨5,-1⟩ := by decide
  have hzero : ¬(Decimal.isZero ⟨5,-1⟩ || base.isZero) = true := by
    rw [Decimal.isZero,Decimal.isZero]
    simp only [Bool.or_eq_true,decide_eq_true_iff]
    omega
  have hneg : ¬base.isNegative = true := by
    rw [Decimal.isNegative,decide_eq_true_iff]
    omega
  have hone : decimalIntPow base ⟨0,0⟩ prec = .ok ⟨1,0⟩ := by
    have hpow : base.powWithPrecision ⟨0,0⟩ prec = .ok ⟨1,0⟩ := by
      rw [Decimal.powWithPrecision,if_neg (by rw [Decimal.isZero,decide_eq_true_iff]; omega),if_pos (by decide)]
    rw [decimalIntPow,hpow]
  unfold decimalPow
  dsimp only
  rw [hwhole,hfrac,if_neg hzero,if_neg hneg,hone,ok_bind]

lemma abs_exp_half_sub_sqrt_le {y l δ : ℝ} (hy : 0 < y) (hclose : |l - Real.log y| ≤ δ) (hδ : δ ≤ 1) :
    |exp (l * (1 / 2)) - √y| ≤ √y * δ := by
  have hroot : √y = exp (Real.log y * (1 / 2)) := by
    rw [sqrt_eq_rpow,rpow_def_of_pos hy]
  have hsplit : exp (l * (1 / 2)) - √y = √y * (exp ((l - Real.log y) / 2) - 1) := by
    rw [hroot,mul_sub,← exp_add,mul_one]
    ring_nf
  have hsmall : |(l - Real.log y) / 2| ≤ 1 := by
    rw [abs_div,abs_two]
    linarith
  have hexp := abs_exp_sub_one_le hsmall
  rw [hsplit,abs_mul,abs_of_nonneg (sqrt_nonneg y)]
  refine mul_le_mul_of_nonneg_left (hexp.trans ?_) (sqrt_nonneg y)
  rw [abs_div,abs_two]
  linarith

lemma half_within {l : Decimal} {y δ : ℝ} (hclose : |(l.toRat : ℝ) - Real.log y| ≤ δ) (hδ : δ ≤ 1)
    (hlog : |Real.log y| ≤ 4790) : |(1 / 2 : ℚ) * l.toRat| ≤ maxExpArgument := by
  rw [← Rat.cast_le (K := ℝ)]
  push_cast [maxExpArgument]
  rw [abs_le] at hclose hlog ⊢
  constructor <;> linarith [hclose.1,hclose.2,hlog.1,hlog.2]

/-- The power to one half is close to the square root. -/
lemma decimalPow_half_close (hbase : base.IsOperand) (hpos : 0 < base.coefficient) (hprec : prec ≤ 232) :
    ((decimalPow base ⟨5,-1⟩ prec).Ends fun r => |(r.toRat : ℝ) - √(base.toRat : ℝ)| ≤
        (√(base.toRat : ℝ) + 1) / 10 ^ (prec + 10)) ∧
      (|Real.log base.toRat| ≤ 4790 → ∃ r, decimalPow base ⟨5,-1⟩ prec = .ok r) := by
  have hhalf : Decimal.toRat ⟨5,-1⟩ = 1 / 2 := by norm_num [Decimal.toRat]
  have hoperand : Decimal.IsOperand ⟨5,-1⟩ := ⟨by decide,by decide⟩
  have hy : (0 : ℝ) < base.toRat := by exact_mod_cast Decimal.toRat_pos.2 hpos
  have habs : (base.abs.toRat : ℝ) = base.toRat := by
    rw [Decimal.toRat_abs,Rat.cast_abs,abs_of_pos hy]
  rw [decimalPow_half hpos]
  obtain ⟨estimate,hestimate,hestexp,hestclose⟩ := estimate_close hbase hpos.ne'
  rw [habs] at hestclose
  rcases checkPow_cases hoperand hpos.ne' hestimate hestexp with ⟨hok,-⟩ | ⟨⟨m,hm⟩,hfits⟩
  swap
  · rw [hm]
    exact ⟨ends_err m,fun hlog => absurd (powFits_half.2 (half_within hestclose (by norm_num) hlog)) hfits⟩
  obtain ⟨hlow,hhigh⟩ := fracPrecision_bounds hbase hoperand hprec
  generalize fracPrecision base ⟨5,-1⟩ prec = w at hlow hhigh ⊢
  have hunit : (10 : ℝ) ^ (prec + 10) ≤ 10 ^ w := pow_le_pow_right₀ (by norm_num) hlow
  have hten : (1 : ℝ) ≤ 10 ^ w := one_le_pow₀ (by norm_num)
  obtain ⟨l,hl,hlexp,hlclose⟩ := lnDecimal_close hpos hbase.bits hbase.exponent hhigh
  have hδ : 51 / (100 * (10 : ℝ) ^ w) ≤ 1 := by
    rw [div_le_one (by positivity)]
    linarith
  have hproduct : ((l.mul ⟨5,-1⟩).toRat : ℝ) = l.toRat * (1 / 2) := by
    rw [Decimal.toRat_mul,hhalf]
    push_cast
    ring
  have hmul : l.mulChecked ⟨5,-1⟩ = .ok (l.mul ⟨5,-1⟩) :=
    Decimal.mulChecked_eq_mul (by rw [hlexp,abs_neg,abs_of_nonneg (by omega)]; omega) (by decide)
  have hargument : -2 ^ 31 + 4 ≤ (l.mul ⟨5,-1⟩).exponent := by
    change -2 ^ 31 + 4 ≤ l.exponent + -1
    omega
  rw [hok,ok_bind,hl,ok_bind,hmul,ok_bind]
  rcases expDecimal_cases hargument (hhigh.trans (by decide)) with ⟨r,hr,hrexp,-,hclose⟩ | ⟨⟨m,hm⟩,hlarge⟩
  swap
  · rw [hm]
    refine ⟨ends_err m,fun hlog => absurd ?_ hlarge⟩
    rw [Decimal.toRat_mul,hhalf,mul_comm]
    exact half_within hlclose hδ hlog
  have hresult : Decimal.mulChecked ⟨1,0⟩ r = .ok (Decimal.mul ⟨1,0⟩ r) :=
    Decimal.mulChecked_eq_mul (by decide) (by rw [hrexp,abs_neg,abs_of_nonneg (by omega)]; omega)
  have hone : Decimal.toRat ⟨1,0⟩ = 1 := by norm_num [Decimal.toRat]
  rw [hr,ok_bind,hresult]
  refine ⟨ends_ok ?_,fun _ => ⟨_,rfl⟩⟩
  have hroot := abs_exp_half_sub_sqrt_le hy hlclose hδ
  have hnonneg := sqrt_nonneg (base.toRat : ℝ)
  rw [hproduct] at hclose
  rw [Decimal.toRat_mul,hone,one_mul]
  calc |(r.toRat : ℝ) - √(base.toRat : ℝ)|
      = |((r.toRat : ℝ) - exp (l.toRat * (1 / 2))) + (exp (l.toRat * (1 / 2)) - √(base.toRat : ℝ))| := by ring_nf
    _ ≤ 14 / (25 * 10 ^ w) + √(base.toRat : ℝ) * (51 / (100 * 10 ^ w)) := (abs_add_le _ _).trans (add_le_add hclose hroot)
    _ = (√(base.toRat : ℝ) * (51 / 100) + 14 / 25) / 10 ^ w := by
        field_simp
        ring
    _ ≤ (√(base.toRat : ℝ) + 1) / 10 ^ (prec + 10) :=
        div_le_div₀ (by positivity) (by linarith) (by positivity) hunit

end DataStreams
