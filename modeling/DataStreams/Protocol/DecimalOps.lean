import DataStreams.Foundation.HalfAway
import DataStreams.Protocol.CanonicalValues
import Mathlib.Data.Rat.Floor

/-! Arithmetic of the decimal package. Rounding and division are off by half a unit in the last
place at most. -/
namespace DataStreams
open Int

def truncate (q : ℚ) : ℤ := if 0 ≤ q then ⌊q⌋ else ⌈q⌉

lemma truncate_intCast (n : ℤ) : truncate n = n := by
  unfold truncate
  split_ifs
  · exact floor_intCast n
  · exact ceil_intCast n

lemma truncate_div (n : ℤ) {m : ℕ} (hm : 0 < m) : truncate ((n : ℚ) / (m : ℚ)) = n.tdiv m := by
  have hmq : (0 : ℚ) < m := Nat.cast_pos.2 hm
  unfold truncate
  by_cases hn : 0 ≤ n
  · have hq : (0 : ℚ) ≤ n / m := div_nonneg (cast_nonneg hn) hmq.le
    rw [if_pos hq,Rat.floor_intCast_div_natCast,tdiv_eq_ediv_of_nonneg hn]
  · have hq : ¬ (0 : ℚ) ≤ n / m := not_le.2 (div_neg_of_neg_of_pos (cast_lt_zero.2 (not_le.1 hn)) hmq)
    have hneg : (n : ℚ) / m = -((-n : ℤ) / (m : ℚ)) := by
      push_cast
      ring
    rw [if_neg hq,hneg,ceil_neg,Rat.floor_intCast_div_natCast,← tdiv_eq_ediv_of_nonneg (by omega),
      Int.neg_tdiv,Int.neg_neg]

namespace Decimal
lemma bigInt_eq_truncate (d : Decimal) : d.bigInt = truncate d.toRat := by
  unfold bigInt toRat
  split_ifs with he
  · obtain ⟨n,hn⟩ := eq_ofNat_of_zero_le he
    have hcast : (d.coefficient : ℚ) * 10 ^ d.exponent = ((d.coefficient * 10 ^ n : ℤ) : ℚ) := by
      rw [hn,zpow_natCast]
      push_cast
      rfl
    rw [hcast,truncate_intCast,hn,toNat_natCast]
  · obtain ⟨n,hn⟩ := eq_ofNat_of_zero_le (show 0 ≤ -d.exponent by omega)
    have hexp : d.exponent = -n := by omega
    have hcast : (d.coefficient : ℚ) * 10 ^ d.exponent = (d.coefficient : ℚ) / ((10 ^ n : ℕ) : ℚ) := by
      rw [hexp,zpow_neg,zpow_natCast,div_eq_mul_inv]
      push_cast
      rfl
    rw [hcast,truncate_div _ (Nat.pow_pos (by decide)),hn,toNat_natCast]
    push_cast
    rfl

lemma toRat_mul (a b : Decimal) : (a.mul b).toRat = a.toRat * b.toRat := by
  have hpow : (10 : ℚ) ^ (a.exponent + b.exponent) = 10 ^ a.exponent * 10 ^ b.exponent :=
    zpow_add₀ (by norm_num) _ _
  simp only [toRat,mul,hpow,cast_mul]
  ring

lemma toRat_ofInt (n : ℤ) : (ofInt n).toRat = n := by simp [toRat,ofInt]

def zero : Decimal := ⟨0,0⟩

def isZero (d : Decimal) : Bool := d.coefficient = 0

def abs (d : Decimal) : Decimal := ⟨d.coefficient.natAbs,d.exponent⟩

/-- Quotient to the given number of decimal places, and remainder. -/
def quoRem (d d₂ : Decimal) (precision : ℕ) : Go (Decimal × Decimal) :=
  if d₂.coefficient = 0 then Go.panics "decimal division by 0"
  else
    let scale : ℤ := -precision
    let e := d.exponent - d₂.exponent - scale
    if 2 ^ 31 - 1 < e ∨ e < -2 ^ 31 then Go.panics "overflow in decimal QuoRem"
    else if e < 0 then
      let bb := d₂.coefficient * 10 ^ (-e).toNat
      .ok (⟨d.coefficient.tdiv bb,scale⟩,⟨d.coefficient.tmod bb,d.exponent⟩)
    else
      let aa := d.coefficient * 10 ^ e.toNat
      .ok (⟨aa.tdiv d₂.coefficient,scale⟩,⟨aa.tmod d₂.coefficient,scale + d₂.exponent⟩)

/-- Division that rounds half away from zero at the given number of decimal places. -/
def divRound (d d₂ : Decimal) (precision : ℕ) : Go Decimal := do
  let (q,r) ← d.quoRem d₂ precision
  if ¬ d₂.abs.le ⟨2 * r.coefficient.natAbs,r.exponent + precision⟩ then .ok q
  else if d.coefficient.sign * d₂.coefficient.sign < 0 then .ok ⟨q.coefficient - 1,q.exponent⟩
  else .ok ⟨q.coefficient + 1,q.exponent⟩

def neg (d : Decimal) : Decimal := ⟨-d.coefficient,d.exponent⟩

/-- The sum at the smaller of the two exponents. -/
def add (a b : Decimal) : Decimal :=
  let e := min a.exponent b.exponent
  ⟨a.coefficient * 10 ^ (a.exponent - e).toNat + b.coefficient * 10 ^ (b.exponent - e).toNat,e⟩

def sub (a b : Decimal) : Decimal :=
  let e := min a.exponent b.exponent
  ⟨a.coefficient * 10 ^ (a.exponent - e).toNat - b.coefficient * 10 ^ (b.exponent - e).toNat,e⟩

/-- The product as the package computes it: exponents have 32 bits. -/
def mulChecked (a b : Decimal) : Go Decimal :=
  if 2 ^ 31 - 1 < a.exponent + b.exponent ∨ a.exponent + b.exponent < -2 ^ 31 then
    Go.panics s!"exponent {a.exponent + b.exponent} overflows an int32!"
  else .ok (a.mul b)

/-- The number at another exponent, truncated if that one is larger. -/
def rescale (d : Decimal) (exponent : ℤ) : Decimal :=
  ⟨bigInt ⟨d.coefficient,d.exponent - exponent⟩,exponent⟩

def roundTenths (c : ℤ) : ℤ :=
  let c := if c < 0 then c - 5 else c + 5
  if c / 10 < 0 ∧ c % 10 ≠ 0 then c / 10 + 1 else c / 10

/-- Rounds half away from zero to a number of decimal places, which may be negative. -/
def round (d : Decimal) (places : ℤ) : Decimal :=
  if d.exponent = -places then d else ⟨roundTenths (d.rescale (-places - 1)).coefficient,-places⟩

def truncatePlaces (d : Decimal) (precision : ℤ) : Decimal :=
  if 0 ≤ precision ∧ d.exponent < -precision then d.rescale (-precision) else d

def ceil (d : Decimal) : Decimal :=
  if 0 ≤ d.exponent then d
  else
    let scale : ℤ := 10 ^ (-d.exponent).toNat
    ⟨if d.coefficient % scale ≠ 0 then d.coefficient / scale + 1 else d.coefficient / scale,0⟩

def floor (d : Decimal) : Decimal :=
  if 0 ≤ d.exponent then d else ⟨d.coefficient / 10 ^ (-d.exponent).toNat,0⟩

def shift (d : Decimal) (n : ℤ) : Decimal := ⟨d.coefficient,d.exponent + n⟩

def numDigits (d : Decimal) : ℕ := (Nat.toDigits 10 d.coefficient.natAbs).length

def isPositive (d : Decimal) : Bool := 0 < d.coefficient

/-- The digits before and after the point, without trailing zeros after it. -/
def textDigits (d : Decimal) : List Char × List Char :=
  if 0 ≤ d.exponent then (Nat.toDigits 10 d.bigInt.natAbs,[])
  else
    let places := (-d.exponent).toNat
    let digits := (Nat.toDigits 10 d.coefficient.natAbs).leftpad (places + 1) '0'
    (digits.take (digits.length - places),(digits.drop (digits.length - places)).rdropWhile (· = '0'))

def withPoint (digits : List Char × List Char) : List Char :=
  if digits.2 = [] then digits.1 else digits.1 ++ '.' :: digits.2

def textChars (d : Decimal) : List Char :=
  if d.coefficient < 0 then '-' :: withPoint d.textDigits else withPoint d.textDigits

def text (d : Decimal) : String := String.ofList d.textChars

variable {d : Decimal}
lemma toRat_nonneg : 0 ≤ d.toRat ↔ 0 ≤ d.coefficient := by
  have hpos : (0 : ℚ) < 10 ^ d.exponent := zpow_pos (by norm_num) _
  rw [toRat,mul_nonneg_iff_of_pos_right hpos,cast_nonneg_iff]

lemma toRat_pos : 0 < d.toRat ↔ 0 < d.coefficient := by
  have hpos : (0 : ℚ) < 10 ^ d.exponent := zpow_pos (by norm_num) _
  rw [toRat,mul_pos_iff_of_pos_right hpos,cast_pos]

@[simp] lemma toRat_zero : zero.toRat = 0 := by rw [toRat,zero,cast_zero,zero_mul]

lemma toRat_neg (d : Decimal) : d.neg.toRat = -d.toRat := by
  simp only [toRat,neg,cast_neg,neg_mul]

lemma toRat_abs (d : Decimal) : d.abs.toRat = |d.toRat| := by
  have hpos : (0 : ℚ) < 10 ^ d.exponent := zpow_pos (by norm_num) _
  rw [toRat,toRat,abs_mul,abs_of_pos hpos,Decimal.abs]
  simp only [natCast_natAbs,cast_abs]

lemma toRat_add (a b : Decimal) : (a.add b).toRat = a.toRat + b.toRat := by
  rw [← rescale_eq a (min_le_left _ b.exponent),← rescale_eq b (min_le_right a.exponent _),← add_mul,← cast_add]
  rfl

lemma toRat_sub (a b : Decimal) : (a.sub b).toRat = a.toRat - b.toRat := by
  rw [← rescale_eq a (min_le_left _ b.exponent),← rescale_eq b (min_le_right a.exponent _),← sub_mul,← cast_sub]
  rfl

lemma toRat_shift (d : Decimal) (n : ℤ) : (d.shift n).toRat = d.toRat * 10 ^ n := by
  rw [toRat,toRat,shift,zpow_add₀ (by norm_num),mul_assoc]

lemma coefficient_rescale (d : Decimal) (e : ℤ) : (d.rescale e).coefficient = truncate (d.toRat / 10 ^ e) := by
  rw [rescale,bigInt_eq_truncate,toRat,toRat,zpow_sub₀ (by norm_num),mul_div_assoc]

lemma truncate_bounds (q : ℚ) :
    0 ≤ q ∧ 0 ≤ truncate q ∧ (truncate q : ℚ) ≤ q ∧ q < truncate q + 1 ∨
      q < 0 ∧ truncate q ≤ 0 ∧ q ≤ truncate q ∧ (truncate q : ℚ) < q + 1 := by
  unfold truncate
  split_ifs with h
  · exact .inl ⟨h,floor_nonneg.2 h,floor_le q,lt_floor_add_one q⟩
  · rw [not_le] at h
    exact .inr ⟨h,ceil_nonpos.2 h.le,le_ceil q,ceil_lt_add_one q⟩

lemma bigInt_cast (h : 0 ≤ d.exponent) : (d.bigInt : ℚ) = d.toRat := by
  obtain ⟨n,hn⟩ := eq_ofNat_of_zero_le h
  rw [bigInt,if_pos h,toRat,hn,toNat_natCast,zpow_natCast]
  push_cast
  rfl

lemma exponent_ceil (d : Decimal) : 0 ≤ d.ceil.exponent := by
  unfold ceil
  split_ifs with h
  · exact h
  · exact le_rfl

variable {n : ℕ}
lemma toRat_of_neg (h : -d.exponent = n) : d.toRat = d.coefficient / ((10 ^ n : ℤ) : ℚ) := by
  have hexp : d.exponent = -n := by omega
  rw [toRat,hexp,zpow_neg,zpow_natCast,div_eq_mul_inv]
  push_cast
  rfl

/-- The least integer that is not below the number. -/
lemma bigInt_ceil (d : Decimal) : d.ceil.bigInt = ⌈d.toRat⌉ := by
  symm
  rw [ceil_eq_iff,bigInt_cast d.exponent_ceil]
  unfold ceil
  split_ifs with h
  · exact ⟨by linarith,le_rfl⟩
  obtain ⟨n,hn⟩ := eq_ofNat_of_zero_le (show 0 ≤ -d.exponent by omega)
  rw [toRat_of_neg hn,hn,toNat_natCast]
  have hpos : (0 : ℤ) < 10 ^ n := pow_pos (by decide) n
  have hposq : (0 : ℚ) < ((10 ^ n : ℤ) : ℚ) := by exact_mod_cast hpos
  have hdiv := emod_add_mul_ediv d.coefficient (10 ^ n)
  have hnonneg := emod_nonneg d.coefficient hpos.ne'
  have hlt := emod_lt_of_pos d.coefficient hpos
  have hwhole : ∀ m : ℤ, toRat ⟨m,0⟩ = m := toRat_ofInt
  rw [hwhole,lt_div_iff₀ hposq,div_le_iff₀ hposq]
  split_ifs with hrest
  · constructor
    · exact_mod_cast (show (d.coefficient / 10 ^ n + 1 - 1) * 10 ^ n < d.coefficient by
        rw [add_sub_cancel_right,mul_comm]
        omega)
    · exact_mod_cast (show d.coefficient ≤ (d.coefficient / 10 ^ n + 1) * 10 ^ n by
        rw [add_mul,one_mul,mul_comm]
        omega)
  · rw [not_not] at hrest
    constructor
    · exact_mod_cast (show (d.coefficient / 10 ^ n - 1) * 10 ^ n < d.coefficient by
        rw [sub_mul,one_mul,mul_comm]
        omega)
    · exact_mod_cast (show d.coefficient ≤ (d.coefficient / 10 ^ n) * 10 ^ n by
        rw [mul_comm]
        omega)

def halfUnit (places : ℤ) : ℚ := 10 ^ (-places) / 2

lemma cast_halfUnit (places : ℕ) : ((halfUnit places : ℚ) : ℝ) = 1 / (2 * 10 ^ places) := by
  rw [halfUnit,zpow_neg,zpow_natCast]
  push_cast
  field_simp

lemma roundTenths_bounds (c : ℤ) :
    0 ≤ c ∧ c - 4 ≤ 10 * roundTenths c ∧ 10 * roundTenths c ≤ c + 5 ∨
      c < 0 ∧ c - 5 ≤ 10 * roundTenths c ∧ 10 * roundTenths c ≤ c + 4 := by
  unfold roundTenths
  by_cases hneg : c < 0
  · refine .inr ⟨hneg,?_⟩
    simp only [if_pos hneg]
    have hfloor : (c - 5) / 10 < 0 := by omega
    by_cases hrest : (c - 5) % 10 = 0
    · rw [if_neg (fun h => h.2 hrest)]
      omega
    · rw [if_pos ⟨hfloor,hrest⟩]
      omega
  · refine .inl ⟨not_lt.1 hneg,?_⟩
    simp only [if_neg hneg]
    rw [if_neg (fun h => absurd h.1 (by omega))]
    omega

lemma roundTenths_truncate (t : ℚ) : roundTenths (truncate t) = halfAway (t / 10) := by
  rcases truncate_bounds t with ⟨ht,hc,hle,hlt⟩ | ⟨ht,hc,hle,hlt⟩
  · obtain ⟨-,hlow,hhigh⟩ := (roundTenths_bounds (truncate t)).resolve_right (fun h => absurd h.1 (not_lt.2 hc))
    have hlow' : (truncate t : ℚ) - 4 ≤ 10 * roundTenths (truncate t) := by exact_mod_cast hlow
    have hhigh' : (10 : ℚ) * roundTenths (truncate t) ≤ truncate t + 5 := by exact_mod_cast hhigh
    exact eq_halfAway_of_nonneg (by linarith) (by linarith) (by linarith)
  · have hround : truncate t - 5 ≤ 10 * roundTenths (truncate t) ∧ 10 * roundTenths (truncate t) ≤ truncate t + 4 := by
      rcases hc.lt_or_eq with h | h
      · have := roundTenths_bounds (truncate t)
        omega
      · rw [h]
        decide
    have hlow' : (truncate t : ℚ) - 5 ≤ 10 * roundTenths (truncate t) := by exact_mod_cast hround.1
    have hhigh' : (10 : ℚ) * roundTenths (truncate t) ≤ truncate t + 4 := by exact_mod_cast hround.2
    exact eq_halfAway_of_neg (by linarith) (by linarith) (by linarith)

lemma toRat_round (d : Decimal) (places : ℤ) : (d.round places).toRat = roundedTo places d.toRat := by
  unfold round
  split_ifs with hexp
  · rw [toRat,hexp,roundedTo_intCast_mul]
  · have hten : d.toRat / 10 ^ (-places - 1) / 10 = d.toRat * 10 ^ places := by
      rw [div_div,← zpow_add_one₀ (by norm_num),sub_add_cancel,zpow_neg,div_inv_eq_mul]
    rw [toRat,coefficient_rescale,roundTenths_truncate,hten,roundedTo]

lemma abs_roundedTo_sub_le (places : ℤ) (q : ℚ) : |roundedTo places q - q| ≤ halfUnit places := by
  have hunit : (0 : ℚ) < 10 ^ (-places) := zpow_pos (by norm_num) _
  have hone : (10 : ℚ) ^ places * 10 ^ (-places) = 1 := by
    rw [← zpow_add₀ (by norm_num),add_neg_cancel,zpow_zero]
  have hscaled := mul_le_mul_of_nonneg_right (abs_halfAway_sub_le (q * 10 ^ places)) hunit.le
  rw [← abs_of_pos hunit,← abs_mul,sub_mul,abs_of_pos hunit,mul_assoc,hone,mul_one] at hscaled
  rw [roundedTo,halfUnit]
  linarith

lemma abs_round_sub_le (d : Decimal) (places : ℤ) : |(d.round places).toRat - d.toRat| ≤ halfUnit places := by
  rw [toRat_round]
  exact abs_roundedTo_sub_le places d.toRat

lemma exponent_round (d : Decimal) (places : ℤ) : (d.round places).exponent = -places := by
  unfold round
  split_ifs with hexp
  · exact hexp
  · rfl

def roundQuotient (a b : ℤ) : ℤ :=
  if 2 * |a.tmod b| < |b| then a.tdiv b
  else if a.sign * b.sign < 0 then a.tdiv b - 1 else a.tdiv b + 1

lemma roundQuotient_neg_neg (a b : ℤ) : roundQuotient (-a) (-b) = roundQuotient a b := by
  unfold roundQuotient
  rw [neg_tmod,tmod_neg,abs_neg,abs_neg,Int.neg_tdiv,Int.tdiv_neg,neg_neg,Int.sign_neg,Int.sign_neg,neg_mul_neg]

variable {b : ℤ}
lemma roundQuotient_of_pos (a : ℤ) (hb : 0 < b) : roundQuotient a b = halfAway (a / b) := by
  have hbq : (0 : ℚ) < b := cast_pos.2 hb
  have hdiv : (a.tmod b + a.tdiv b * b : ℚ) = a := by exact_mod_cast tmod_add_tdiv_mul a b
  have hquotient : (a : ℚ) / b = a.tmod b / b + a.tdiv b := by
    rw [← hdiv,add_div,mul_div_cancel_right₀ _ hbq.ne']
  unfold roundQuotient
  rw [sign_eq_one_of_pos hb,mul_one,abs_of_pos hb]
  rcases le_or_gt 0 a with ha | ha
  · -- the remainder is not negative
    have hq : (0 : ℚ) ≤ a / b := div_nonneg (by exact_mod_cast ha) hbq.le
    have hrest : (0 : ℚ) ≤ a.tmod b / b := div_nonneg (by exact_mod_cast tmod_nonneg b ha) hbq.le
    have hlt : (a.tmod b : ℚ) / b < 1 := (div_lt_one hbq).2 (by exact_mod_cast tmod_lt_of_pos a hb)
    rw [abs_of_nonneg (tmod_nonneg b ha),if_neg (not_lt.2 (Int.sign_nonneg_iff.2 ha))]
    split_ifs with hsmall
    · have hhalf : (a.tmod b : ℚ) / b < 1 / 2 := by
        rw [div_lt_div_iff₀ hbq two_pos]
        exact_mod_cast (by omega : a.tmod b * 2 < 1 * b)
      exact eq_halfAway_of_nonneg hq (by linarith) (by linarith)
    · have hhalf : (1 : ℚ) / 2 ≤ a.tmod b / b := by
        rw [div_le_div_iff₀ two_pos hbq]
        exact_mod_cast (by omega : 1 * b ≤ a.tmod b * 2)
      exact eq_halfAway_of_nonneg hq (by push_cast; linarith) (by push_cast; linarith)
  · have hq : (a : ℚ) / b < 0 := div_neg_of_neg_of_pos (by exact_mod_cast ha) hbq
    have hnonpos : a.tmod b ≤ 0 := by
      have hneg := tmod_nonneg b (Int.neg_nonneg_of_nonpos ha.le)
      rw [neg_tmod] at hneg
      omega
    have hrest : (a.tmod b : ℚ) / b ≤ 0 := div_nonpos_of_nonpos_of_nonneg (by exact_mod_cast hnonpos) hbq.le
    have hlt : -1 < (a.tmod b : ℚ) / b := by
      rw [lt_div_iff₀ hbq]
      exact_mod_cast (by linarith [lt_tmod_of_pos a hb] : -1 * b < a.tmod b)
    rw [abs_of_nonpos hnonpos,if_pos (sign_neg_iff.2 ha)]
    split_ifs with hsmall
    · have hhalf : -(1 / 2) < (a.tmod b : ℚ) / b := by
        rw [lt_div_iff₀ hbq]
        have : (-b : ℚ) < 2 * a.tmod b := by exact_mod_cast (by omega : -b < 2 * a.tmod b)
        linarith
      exact eq_halfAway_of_neg hq (by linarith) (by linarith)
    · have hhalf : (a.tmod b : ℚ) / b ≤ -(1 / 2) := by
        rw [div_le_iff₀ hbq]
        have : (2 : ℚ) * a.tmod b ≤ -b := by exact_mod_cast (by omega : 2 * a.tmod b ≤ -b)
        linarith
      exact eq_halfAway_of_neg hq (by push_cast; linarith) (by push_cast; linarith)

lemma roundQuotient_eq (a : ℤ) (hb : b ≠ 0) : roundQuotient a b = halfAway (a / b) := by
  rcases hb.lt_or_gt with hneg | hpos
  · have h := roundQuotient_of_pos (-a) (Int.neg_pos.2 hneg)
    rwa [roundQuotient_neg_neg,cast_neg,cast_neg,neg_div_neg_eq] at h
  · exact roundQuotient_of_pos a hpos

/-- The dividend and the divisor of the integers that are divided. -/
def quotientParts (d d₂ : Decimal) (precision : ℕ) : ℤ × ℤ :=
  let e := d.exponent - d₂.exponent + precision
  if e < 0 then (d.coefficient,d₂.coefficient * 10 ^ (-e).toNat) else (d.coefficient * 10 ^ e.toNat,d₂.coefficient)

variable {d₂ : Decimal}
lemma quotientParts_ne_zero (d : Decimal) (precision : ℕ) (h : d₂.coefficient ≠ 0) :
    (quotientParts d d₂ precision).2 ≠ 0 := by
  unfold quotientParts
  dsimp only
  split_ifs
  · exact mul_ne_zero h (pow_ne_zero _ (by decide))
  · exact h

lemma quotientParts_div (d : Decimal) (precision : ℕ) (h : d₂.coefficient ≠ 0) :
    ((quotientParts d d₂ precision).1 : ℚ) / (quotientParts d d₂ precision).2 = d.toRat / d₂.toRat * 10 ^ precision := by
  have hten : (10 : ℚ) ≠ 0 := by norm_num
  have hc : (d₂.coefficient : ℚ) ≠ 0 := cast_ne_zero.2 h
  have hpow : (10 : ℚ) ^ (d.exponent - d₂.exponent + precision) = 10 ^ d.exponent / 10 ^ d₂.exponent * 10 ^ precision := by
    rw [zpow_add₀ hten,zpow_sub₀ hten,zpow_natCast]
  have hne : (10 : ℚ) ^ d₂.exponent ≠ 0 := zpow_ne_zero _ hten
  have hvalue : d.toRat / d₂.toRat * 10 ^ precision =
      d.coefficient / d₂.coefficient * 10 ^ (d.exponent - d₂.exponent + precision) := by
    rw [hpow,toRat,toRat]
    field_simp
  rw [hvalue]
  unfold quotientParts
  dsimp only
  split_ifs with he
  · obtain ⟨n,hn⟩ := eq_ofNat_of_zero_le (show 0 ≤ -(d.exponent - d₂.exponent + precision) by omega)
    have hexp : d.exponent - d₂.exponent + precision = -n := by omega
    rw [hn,hexp,toNat_natCast,zpow_neg,zpow_natCast]
    push_cast
    field_simp
  · obtain ⟨n,hn⟩ := eq_ofNat_of_zero_le (not_lt.1 he)
    rw [hn,toNat_natCast,zpow_natCast]
    push_cast
    field_simp

def DivisionFits (d d₂ : Decimal) (precision : ℕ) : Prop :=
  -2 ^ 31 ≤ d.exponent - d₂.exponent + precision ∧ d.exponent - d₂.exponent + precision ≤ 2 ^ 31 - 1

lemma sign_mul_pow_ten (c : ℤ) (n : ℕ) : (c * 10 ^ n).sign = c.sign := by
  rw [Int.sign_mul,sign_eq_one_of_pos (pow_pos (by decide) n),mul_one]

lemma abs_le_remainder {m e : ℤ} (he : d₂.exponent = e + n) :
    d₂.abs.le ⟨2 * (m.natAbs : ℤ),e⟩ = true ↔ |d₂.coefficient * 10 ^ n| ≤ 2 * |m| := by
  have hpos : (0 : ℚ) < 10 ^ e := zpow_pos (by norm_num) _
  have hdivisor : |d₂.toRat| = |(d₂.coefficient * 10 ^ n : ℤ)| * (10 : ℚ) ^ e := by
    have hscale : d₂.toRat = ((d₂.coefficient * 10 ^ n : ℤ) : ℚ) * 10 ^ e := by
      rw [toRat,he,zpow_add₀ (by norm_num),zpow_natCast]
      push_cast
      ring
    rw [hscale,abs_mul,abs_of_pos hpos,cast_abs]
  have hremainder : toRat ⟨2 * (m.natAbs : ℤ),e⟩ = ((2 * |m| : ℤ) : ℚ) * 10 ^ e := by
    rw [toRat,natCast_natAbs]
  rw [le_iff_toRat_le,toRat_abs,hdivisor,hremainder,mul_le_mul_iff_left₀ hpos]
  norm_cast

variable {precision : ℕ}
/-- Division rounds the exact quotient half away from zero. -/
lemma divRound_eq (h : d₂.coefficient ≠ 0) (hfits : DivisionFits d d₂ precision) :
    d.divRound d₂ precision =
      .ok ⟨roundQuotient (quotientParts d d₂ precision).1 (quotientParts d d₂ precision).2,-precision⟩ := by
  obtain ⟨hlow,hhigh⟩ := hfits
  have hexp : d.exponent - d₂.exponent - -(precision : ℤ) = d.exponent - d₂.exponent + precision := by ring
  unfold divRound quoRem quotientParts roundQuotient
  by_cases he : d.exponent - d₂.exponent + precision < 0
  · obtain ⟨n,hn⟩ := eq_ofNat_of_zero_le (show 0 ≤ -(d.exponent - d₂.exponent + precision) by omega)
    have hcompare := @abs_le_remainder n d₂ (d.coefficient.tmod (d₂.coefficient * 10 ^ n)) (d.exponent + precision)
      (by omega)
    simp only [if_neg h,hexp,if_neg (show ¬(2 ^ 31 - 1 < d.exponent - d₂.exponent + (precision : ℤ) ∨
      d.exponent - d₂.exponent + (precision : ℤ) < -2 ^ 31) by omega),if_pos he,hn,toNat_natCast,Go.ok_bind,
      sign_mul_pow_ten,hcompare,not_le]
    split_ifs <;> rfl
  · have hcompare := @abs_le_remainder 0 d₂
      ((d.coefficient * 10 ^ (d.exponent - d₂.exponent + precision).toNat).tmod d₂.coefficient) d₂.exponent (by simp)
    have hexp₂ : -(precision : ℤ) + d₂.exponent + precision = d₂.exponent := by ring
    simp only [pow_zero,mul_one] at hcompare
    simp only [if_neg h,hexp,if_neg (show ¬(2 ^ 31 - 1 < d.exponent - d₂.exponent + (precision : ℤ) ∨
      d.exponent - d₂.exponent + (precision : ℤ) < -2 ^ 31) by omega),if_neg he,Go.ok_bind,sign_mul_pow_ten,hexp₂,
      hcompare,not_le]
    split_ifs <;> rfl

variable {q : Decimal}
lemma divisionFits_of_ok (h : d.divRound d₂ precision = .ok q) : DivisionFits d d₂ precision := by
  unfold divRound quoRem at h
  obtain ⟨parts,hparts,-⟩ := Go.bind_ok_iff.1 h
  dsimp only at hparts
  split_ifs at hparts with hzero hoverflow
  all_goals first | exact absurd hparts (Go.panics_ne_ok _ _) | (constructor <;> omega)

variable (h : d₂.coefficient ≠ 0) (hfits : DivisionFits d d₂ precision)
include h hfits

lemma toRat_divRound
    (hq : d.divRound d₂ precision = .ok q) : q.toRat = roundedTo precision (d.toRat / d₂.toRat) := by
  rw [divRound_eq h hfits] at hq
  cases hq
  rw [toRat,roundQuotient_eq _ (quotientParts_ne_zero d precision h),quotientParts_div d precision h,roundedTo,zpow_natCast]

lemma divRound_spec :
    ∃ q, d.divRound d₂ precision = .ok q ∧ q.exponent = -precision ∧
      |q.toRat - d.toRat / d₂.toRat| ≤ halfUnit precision := by
  refine ⟨_,divRound_eq h hfits,rfl,?_⟩
  rw [toRat_divRound h hfits (divRound_eq h hfits)]
  exact abs_roundedTo_sub_le _ _

end Decimal
end DataStreams
