import DataStreams.Protocol.Aggregators
import DataStreams.Protocol.WireSizes

/-! Equal numbers have one canonical form, and its encoding decodes to it. -/
namespace DataStreams
open Int

namespace Decimal

lemma toRat_eq_zero_iff {d : Decimal} : d.toRat = 0 ↔ d.coefficient = 0 := by
  have hpow : (10 : ℚ) ^ d.exponent ≠ 0 := zpow_ne_zero _ (by norm_num)
  rw [toRat,mul_eq_zero,or_iff_left hpow,cast_eq_zero]

lemma toRat_tdiv {coef exp : ℤ} (h : coef.tmod 10 = 0) : toRat ⟨coef.tdiv 10,exp + 1⟩ = toRat ⟨coef,exp⟩ := by
  have hcoef : coef = coef.tdiv 10 * 10 := by
    have := tmod_add_tdiv_mul coef 10
    omega
  have hcast : (coef : ℚ) = coef.tdiv 10 * 10 := by exact_mod_cast hcoef
  simp only [toRat]
  rw [hcast,zpow_add₀ (by norm_num),zpow_one]
  ring

lemma toRat_stripZeros (fuel : ℕ) (coef exp : ℤ) : (stripZeros fuel coef exp).toRat = toRat ⟨coef,exp⟩ := by
  induction fuel generalizing coef exp with
  | zero => rfl
  | succ fuel ih =>
    rw [stripZeros]
    split_ifs with h
    · rw [ih,toRat_tdiv h.2]
    · rfl

lemma toRat_canonical (d : Decimal) : d.canonical.toRat = d.toRat := by
  unfold canonical
  split_ifs with hzero
  · rw [toRat_eq_zero_iff.2 hzero,toRat_eq_zero_iff.2 rfl]
  · exact toRat_stripZeros _ _ _

lemma exponent_stripZeros {fuel : ℕ} {coef exp : ℤ} (h : exp ≤ maxDecimalExponent) :
    exp ≤ (stripZeros fuel coef exp).exponent ∧ (stripZeros fuel coef exp).exponent ≤ maxDecimalExponent := by
  induction fuel generalizing coef exp with
  | zero => exact ⟨le_rfl,h⟩
  | succ fuel ih =>
    rw [stripZeros]
    split_ifs with hstep
    · obtain ⟨hlow,hhigh⟩ := @ih (coef.tdiv 10) (exp + 1) (by omega)
      exact ⟨by omega,hhigh⟩
    · exact ⟨le_rfl,h⟩

lemma natAbs_stripZeros_le (fuel : ℕ) (coef exp : ℤ) :
    (stripZeros fuel coef exp).coefficient.natAbs ≤ coef.natAbs := by
  induction fuel generalizing coef exp with
  | zero => exact le_rfl
  | succ fuel ih =>
    rw [stripZeros]
    split_ifs
    · refine (ih _ _).trans ?_
      rw [natAbs_tdiv]
      exact Nat.div_le_self _ _
    · exact le_rfl

def Stripped (d : Decimal) : Prop :=
  d.coefficient ≠ 0 ∧ d.exponent ≤ maxDecimalExponent ∧
    (d.exponent < maxDecimalExponent → d.coefficient.tmod 10 ≠ 0)

lemma stripped_stripZeros {fuel : ℕ} {coef exp : ℤ} (hne : coef ≠ 0) (hexp : exp ≤ maxDecimalExponent)
    (hfuel : coef.natAbs < 10 ^ fuel) : (stripZeros fuel coef exp).Stripped := by
  induction fuel generalizing coef exp with
  | zero => exact absurd hfuel (by simpa using hne)
  | succ fuel ih =>
    rw [stripZeros]
    split_ifs with hstep
    · obtain ⟨hlt,hmod⟩ := hstep
      have hcoef := tmod_add_tdiv_mul coef 10
      apply ih
      · intro hzero
        rw [hzero] at hcoef
        omega
      · omega
      · rw [natAbs_tdiv]
        exact Nat.div_lt_of_lt_mul (hfuel.trans_eq Nat.pow_succ')
    · refine ⟨hne,hexp,?_⟩
      intro hlt hmod
      exact hstep ⟨hlt,hmod⟩

lemma stripped_canonical {d : Decimal} (hne : d.coefficient ≠ 0) (hexp : d.exponent ≤ maxDecimalExponent) :
    d.canonical.Stripped := by
  rw [canonical,if_neg hne]
  apply stripped_stripZeros hne hexp
  calc d.coefficient.natAbs < 2 ^ d.coefficientBits := Nat.lt_size_self _
    _ ≤ 10 ^ d.coefficientBits := Nat.pow_le_pow_left (by decide) _

lemma Stripped.exponent_le {a b : Decimal} (ha : a.Stripped) (hb : b.Stripped) (h : a.toRat = b.toRat) :
    b.exponent ≤ a.exponent := by
  by_contra hlt
  rw [not_le] at hlt
  have hscaled := rescale_eq b hlt.le
  have hpow : (10 : ℚ) ^ a.exponent ≠ 0 := zpow_ne_zero _ (by norm_num)
  have hcoef : a.coefficient = b.coefficient * 10 ^ (b.exponent - a.exponent).toNat := by
    have hcast : (a.coefficient : ℚ) * 10 ^ a.exponent =
        ((b.coefficient * 10 ^ (b.exponent - a.exponent).toNat : ℤ) : ℚ) * 10 ^ a.exponent := by
      rw [hscaled,← h,toRat]
    exact_mod_cast mul_right_cancel₀ hpow hcast
  apply ha.2.2 (lt_of_lt_of_le hlt hb.2.1)
  obtain ⟨k,hk⟩ : ∃ k, (b.exponent - a.exponent).toNat = k + 1 := ⟨_,(Nat.succ_pred (by omega)).symm⟩
  rw [hcoef,hk,pow_succ,← mul_assoc]
  exact mul_tmod_left _ _

lemma Stripped.eq {a b : Decimal} (ha : a.Stripped) (hb : b.Stripped) (h : a.toRat = b.toRat) : a = b := by
  have hexp := le_antisymm (hb.exponent_le ha h.symm) (ha.exponent_le hb h)
  have hpow : (10 : ℚ) ^ b.exponent ≠ 0 := zpow_ne_zero _ (by norm_num)
  rw [toRat,toRat,hexp] at h
  have hcoef : a.coefficient = b.coefficient := by exact_mod_cast mul_right_cancel₀ hpow h
  cases a
  cases b
  cases hexp
  cases hcoef
  rfl

/-- Decimals of an allowed exponent have the same canonical form exactly when they are the
same number. -/
lemma canonical_eq_iff {a b : Decimal} (ha : a.ExponentInRange) (hb : b.ExponentInRange) :
    a.canonical = b.canonical ↔ a.toRat = b.toRat := by
  constructor
  · intro h
    rw [← toRat_canonical a,h,toRat_canonical]
  · intro h
    by_cases hzero : a.coefficient = 0
    · have hzero' : b.coefficient = 0 := by rw [← toRat_eq_zero_iff,← h,toRat_eq_zero_iff.2 hzero]
      rw [canonical,if_pos hzero,canonical,if_pos hzero']
    · have hzero' : b.coefficient ≠ 0 := by rwa [Ne,← toRat_eq_zero_iff,← h,toRat_eq_zero_iff]
      apply (stripped_canonical hzero ha.2).eq (stripped_canonical hzero' hb.2)
      rw [toRat_canonical,toRat_canonical,h]

lemma ExponentInRange.canonical {d : Decimal} (h : d.ExponentInRange) : d.canonical.ExponentInRange := by
  unfold Decimal.canonical
  split_ifs with hzero
  · exact ⟨by decide,by decide⟩
  · have hexp := @exponent_stripZeros d.coefficientBits d.coefficient _ h.2
    exact ⟨h.1.trans hexp.1,hexp.2⟩

lemma coefficientBits_canonical_le (d : Decimal) : d.canonical.coefficientBits ≤ d.coefficientBits := by
  unfold Decimal.canonical
  split_ifs with hzero
  · exact Nat.zero_le _
  · exact Nat.size_le_size (natAbs_stripZeros_le _ _ _)

end Decimal

namespace StreamValue
def SameNumber : StreamValue → StreamValue → Prop
  | .decimal a,.decimal b => a.toRat = b.toRat
  | .quote p,.quote q =>
    p.bid.toRat = q.bid.toRat ∧ p.benchmark.toRat = q.benchmark.toRat ∧ p.ask.toRat = q.ask.toRat
  | .timestamped _ v,.timestamped _ w => SameNumber v w
  | _,_ => False

def decSameNumber : (v w : StreamValue) → Decidable (v.SameNumber w)
  | .decimal a,.decimal b => inferInstanceAs (Decidable (a.toRat = b.toRat))
  | .quote p,.quote q => inferInstanceAs
      (Decidable (p.bid.toRat = q.bid.toRat ∧ p.benchmark.toRat = q.benchmark.toRat ∧ p.ask.toRat = q.ask.toRat))
  | .timestamped _ v,.timestamped _ w => decSameNumber v w
  | .decimal _,.quote _ => .isFalse id
  | .decimal _,.timestamped _ _ => .isFalse id
  | .quote _,.decimal _ => .isFalse id
  | .quote _,.timestamped _ _ => .isFalse id
  | .timestamped _ _,.decimal _ => .isFalse id
  | .timestamped _ _,.quote _ => .isFalse id

instance : DecidableRel SameNumber := decSameNumber

lemma SameNumber.refl (v : StreamValue) : v.SameNumber v := by
  induction v with
  | decimal d => exact rfl
  | quote q => exact ⟨rfl,rfl,rfl⟩
  | timestamped t v ih => exact ih

lemma SameNumber.symm {v w : StreamValue} (h : v.SameNumber w) : w.SameNumber v := by
  induction v generalizing w with
  | decimal d => cases w <;> first | exact Eq.symm h | exact h.elim
  | quote q => cases w <;> first | exact ⟨h.1.symm,h.2.1.symm,h.2.2.symm⟩ | exact h.elim
  | timestamped t v ih => cases w <;> first | exact ih h | exact h.elim

lemma SameNumber.trans {u v w : StreamValue} (h : u.SameNumber v) (h' : v.SameNumber w) : u.SameNumber w := by
  induction u generalizing v w with
  | decimal d => cases v <;> cases w <;> first | exact Eq.trans h h' | exact h.elim | exact h'.elim
  | quote q =>
    cases v <;> cases w <;>
      first | exact ⟨h.1.trans h'.1,h.2.1.trans h'.2.1,h.2.2.trans h'.2.2⟩ | exact h.elim | exact h'.elim
  | timestamped t u ih => cases v <;> cases w <;> first | exact ih h h' | exact h.elim | exact h'.elim

lemma SameNumber.type_eq {v w : StreamValue} (h : v.SameNumber w) : v.type = w.type := by
  cases v <;> cases w <;> first | rfl | exact h.elim

def isPlain : StreamValue → Bool
  | .timestamped _ _ => false
  | _ => true

/-- A decimal or a quote, with a timestamp or without. -/
def atMostStamped : StreamValue → Bool
  | .timestamped _ v => v.isPlain
  | _ => true

/-- Zero without a timestamp. -/
def observedAt : StreamValue → ℕ
  | .timestamped t _ => t
  | _ => 0

end StreamValue

open StreamValue
variable {v w : StreamValue}
lemma canonicalStreamValue_eq_iff (hv : v.isPlain) (hw : w.isPlain) (hrv : v.InRange) (hrw : w.InRange) :
    canonicalStreamValue v = canonicalStreamValue w ↔ v.SameNumber w := by
  cases v with
  | timestamped t v => exact absurd hv Bool.false_ne_true
  | decimal a =>
    cases w with
    | timestamped t w => exact absurd hw Bool.false_ne_true
    | quote q => exact iff_of_false (by simp [canonicalStreamValue]) id
    | decimal b =>
      simp only [canonicalStreamValue,StreamValue.decimal.injEq]
      exact Decimal.canonical_eq_iff hrv hrw
  | quote p =>
    cases w with
    | timestamped t w => exact absurd hw Bool.false_ne_true
    | decimal d => exact iff_of_false (by simp [canonicalStreamValue]) id
    | quote q =>
      simp only [canonicalStreamValue,StreamValue.quote.injEq,Quote.mk.injEq]
      exact and_congr (Decimal.canonical_eq_iff hrv.1 hrw.1)
        (and_congr (Decimal.canonical_eq_iff hrv.2.1 hrw.2.1) (Decimal.canonical_eq_iff hrv.2.2 hrw.2.2))

/-- Values vote for the same thing exactly when they are the same numbers. -/
lemma canonicalModeValue_eq_iff (hv : v.atMostStamped) (hw : w.atMostStamped) (hrv : v.InRange) (hrw : w.InRange) :
    (canonicalModeValue v).1 = (canonicalModeValue w).1 ↔ v.SameNumber w := by
  cases v with
  | timestamped t v =>
    cases w with
    | timestamped t' w =>
      simp only [canonicalModeValue,StreamValue.timestamped.injEq,true_and]
      exact canonicalStreamValue_eq_iff hv hw hrv.2 hrw.2
    | decimal d => exact iff_of_false (by simp [canonicalModeValue,canonicalStreamValue]) id
    | quote q => exact iff_of_false (by simp [canonicalModeValue,canonicalStreamValue]) id
  | decimal a =>
    cases w with
    | timestamped t w => exact iff_of_false (by simp [canonicalModeValue,canonicalStreamValue]) id
    | decimal b => exact canonicalStreamValue_eq_iff rfl rfl hrv hrw
    | quote q => exact canonicalStreamValue_eq_iff rfl rfl hrv hrw
  | quote p =>
    cases w with
    | timestamped t w => exact iff_of_false (by simp [canonicalModeValue,canonicalStreamValue]) id
    | decimal b => exact canonicalStreamValue_eq_iff rfl rfl hrv hrw
    | quote q => exact canonicalStreamValue_eq_iff rfl rfl hrv hrw

lemma canonicalModeValue_snd (v : StreamValue) : (canonicalModeValue v).2 = v.observedAt := by
  cases v <;> rfl

lemma sameNumber_canonicalStreamValue (v : StreamValue) : (canonicalStreamValue v).SameNumber v := by
  cases v with
  | decimal d => exact d.toRat_canonical
  | quote q => exact ⟨q.bid.toRat_canonical,q.benchmark.toRat_canonical,q.ask.toRat_canonical⟩
  | timestamped t v => exact .refl v

lemma sameNumber_canonicalModeValue (v : StreamValue) : (canonicalModeValue v).1.SameNumber v := by
  cases v with
  | decimal d => exact sameNumber_canonicalStreamValue (.decimal d)
  | quote q => exact sameNumber_canonicalStreamValue (.quote q)
  | timestamped t v => exact sameNumber_canonicalStreamValue v

lemma inRange_canonicalStreamValue (h : v.InRange) : (canonicalStreamValue v).InRange := by
  cases v with
  | decimal d => exact Decimal.ExponentInRange.canonical h
  | quote q => exact ⟨h.1.canonical,h.2.1.canonical,h.2.2.canonical⟩
  | timestamped t v => exact h

lemma inRange_canonicalModeValue (h : v.InRange) : (canonicalModeValue v).1.InRange := by
  cases v with
  | decimal d => exact inRange_canonicalStreamValue h
  | quote q => exact inRange_canonicalStreamValue h
  | timestamped t v => exact ⟨by decide,inRange_canonicalStreamValue h.2⟩

lemma nesting_canonicalStreamValue (v : StreamValue) : (canonicalStreamValue v).nesting = v.nesting := by
  cases v <;> rfl

lemma nesting_canonicalModeValue (v : StreamValue) : (canonicalModeValue v).1.nesting = v.nesting := by
  cases v with
  | decimal d => rfl
  | quote q => rfl
  | timestamped t v => exact congrArg (· + 1) (nesting_canonicalStreamValue v)

/-- The library encodes every decimal of an allowed exponent: four bytes of exponent, one of
sign, and the coefficient. -/
def WritesDecimals (decimal : DecimalEncoder) : Prop :=
  ∀ d : Decimal, d.ExponentInRange → ∃ b, decimal d = .ok b ∧ b ≠ [] ∧ b.length ≤ (d.coefficientBits + 7) / 8 + 5

lemma checkDecimalCoefficient_eq_ok {d : Decimal} :
    checkDecimalCoefficient d = .ok () ↔ d.coefficientBits ≤ maxDecimalCoefficientBits := by
  unfold checkDecimalCoefficient
  split_ifs with h
  · exact iff_of_false nofun (not_le.2 h)
  · exact iff_of_true rfl (not_lt.1 h)

lemma checkObservedStreamValue_canonicalStreamValue (h : checkObservedStreamValue v = .ok ()) :
    checkObservedStreamValue (canonicalStreamValue v) = .ok () := by
  have hcanonical : ∀ d : Decimal, checkDecimalCoefficient d = .ok () → checkDecimalCoefficient d.canonical = .ok () := by
    intro d hd
    exact checkDecimalCoefficient_eq_ok.2 (d.coefficientBits_canonical_le.trans (checkDecimalCoefficient_eq_ok.1 hd))
  cases v with
  | decimal d => exact hcanonical d h
  | quote q =>
    simp only [checkObservedStreamValue,Go.bind_ok_iff] at h
    obtain ⟨_,hbid,_,hbenchmark,hask⟩ := h
    simp only [canonicalStreamValue,checkObservedStreamValue,Go.bind_ok_iff]
    exact ⟨(),hcanonical _ hbid,(),hcanonical _ hbenchmark,hcanonical _ hask⟩
  | timestamped t v => exact h

lemma checkObservedStreamValue_canonicalModeValue (h : checkObservedStreamValue v = .ok ()) :
    checkObservedStreamValue (canonicalModeValue v).1 = .ok () := by
  cases v with
  | decimal d => exact checkObservedStreamValue_canonicalStreamValue h
  | quote q => exact checkObservedStreamValue_canonicalStreamValue h
  | timestamped t v => exact checkObservedStreamValue_canonicalStreamValue (v := v) h

/-- A value in the bounds of an observation is encoded, in few bytes. -/
lemma marshalBinary_returns {decimal : DecimalEncoder} (hD : WritesDecimals decimal)
    (hrange : v.InRange) (hobserved : checkObservedStreamValue v = .ok ()) :
    ∃ b, v.marshalBinary decimal = .ok b ∧ b ≠ [] ∧ b.length ≤ 120 + 44 * v.nesting := by
  have hone : ∀ d : Decimal, d.ExponentInRange → checkDecimalCoefficient d = .ok () →
      ∃ b, decimal d = .ok b ∧ b ≠ [] ∧ b.length ≤ 29 := by
    intro d hd hbits
    obtain ⟨b,hb,hne,hle⟩ := hD d hd
    have hcoef : d.coefficientBits ≤ 192 := checkDecimalCoefficient_eq_ok.1 hbits
    exact ⟨b,hb,hne,by omega⟩
  induction v with
  | decimal d =>
    obtain ⟨b,hb,hne,hle⟩ := hone d hrange hobserved
    exact ⟨b,hb,hne,by omega⟩
  | quote q =>
    simp only [checkObservedStreamValue,Go.bind_ok_iff] at hobserved
    obtain ⟨_,hbid,_,hbenchmark,hask⟩ := hobserved
    obtain ⟨b₁,h₁,hne,hle₁⟩ := hone _ hrange.1 hbid
    obtain ⟨b₂,h₂,_,hle₂⟩ := hone _ hrange.2.1 hbenchmark
    obtain ⟨b₃,h₃,_,hle₃⟩ := hone _ hrange.2.2 hask
    refine ⟨marshalQuote b₁ b₂ b₃,?_,?_,?_⟩
    · simp only [StreamValue.marshalBinary,Go.bind_ok_iff]
      exact ⟨b₁,h₁,b₂,h₂,b₃,h₃,rfl⟩
    · simp [marshalQuote,protoOptionalBytes,hne,protoBytes]
    · exact (length_marshalQuote_le hle₁ hle₂ hle₃).trans (by omega)
  | timestamped t v ih =>
    obtain ⟨b,hb,_,hle⟩ := ih hrange.2 hobserved
    refine ⟨marshalTimestamped t ⟨v.type,b⟩,?_,?_,?_⟩
    · simp only [StreamValue.marshalBinary,Go.bind_ok_iff]
      exact ⟨b,hb,rfl⟩
    · simp [marshalTimestamped,protoBytes,putUvarint_ne_nil (show 18 < 2 ^ 64 by decide)]
    · have hlen := length_marshalTimestamped_le t ⟨v.type,b⟩
      simp only [nesting]
      dsimp only at hlen
      omega

end DataStreams
