import DataStreams.Calculated.Scalars

/-! What the scalar functions make of operands within their bounds is bounded: as a number
first, then in its coefficient. -/
namespace DataStreams
open List Go Real Int

namespace Decimal
variable {d a b : Decimal} {n E : ℕ}
/-- The size of a result of one function. -/
structure Compact (d : Decimal) : Prop where
  bits : d.coefficientBits ≤ 2 ^ 18
  exponent : |d.exponent| ≤ 20000

lemma zpow_ten_le {e : ℤ} (h : e ≤ E) : (10 : ℚ) ^ e ≤ 2 ^ (4 * E) := by
  calc (10 : ℚ) ^ e ≤ 10 ^ (E : ℤ) := zpow_le_zpow_right₀ (by norm_num) h
    _ = 10 ^ E := zpow_natCast _ _
    _ ≤ (2 ^ 4) ^ E := pow_le_pow_left₀ (by norm_num) (by norm_num) E
    _ = 2 ^ (4 * E) := (pow_mul _ _ _).symm

lemma abs_toRat (d : Decimal) : |d.toRat| = |(d.coefficient : ℚ)| * 10 ^ d.exponent := by
  rw [toRat,abs_mul,abs_of_pos (zpow_pos (by norm_num : (0 : ℚ) < 10) _)]

lemma coefficientBits_le (hvalue : |d.toRat| ≤ 2 ^ n) (hexp : -(E : ℤ) ≤ d.exponent) :
    d.coefficientBits ≤ n + 4 * E + 1 := by
  have hpow : (0 : ℚ) < 10 ^ d.exponent := zpow_pos (by norm_num) _
  have hcoefficient : |(d.coefficient : ℚ)| ≤ 2 ^ (n + 4 * E) := by
    calc |(d.coefficient : ℚ)| = |d.toRat| * 10 ^ (-d.exponent) := by
          rw [abs_toRat,mul_assoc,← zpow_add₀ (by norm_num),add_neg_cancel,zpow_zero,mul_one]
      _ ≤ 2 ^ n * 2 ^ (4 * E) := mul_le_mul hvalue (zpow_ten_le (by omega)) (by positivity) (by positivity)
      _ = 2 ^ (n + 4 * E) := (pow_add _ _ _).symm
  have hnat : d.coefficient.natAbs ≤ 2 ^ (n + 4 * E) := by
    have hint : |d.coefficient| ≤ 2 ^ (n + 4 * E) := by exact_mod_cast hcoefficient
    rw [abs_eq_natAbs] at hint
    exact_mod_cast hint
  rw [coefficientBits,Nat.size_le]
  exact hnat.trans_lt (Nat.pow_lt_pow_right (by decide) (Nat.lt_succ_self _))

lemma Compact.of_value (hvalue : |d.toRat| ≤ 2 ^ n) (hlow : -(E : ℤ) ≤ d.exponent) (hhigh : d.exponent ≤ 20000)
    (hE : E ≤ 20000) (hsize : n + 4 * E + 1 ≤ 2 ^ 18) : d.Compact :=
  ⟨(coefficientBits_le hvalue hlow).trans hsize,abs_le.2 ⟨by omega,hhigh⟩⟩

/-- Bits of the largest operand as a number. -/
def operandSize : ℕ := 768 + 4 * 4000

lemma operandSize_eq : operandSize = 16768 := rfl

lemma IsOperand.abs_toRat_le (h : d.IsOperand) : |d.toRat| ≤ 2 ^ operandSize := by
  have hlt : d.coefficient.natAbs < 2 ^ d.coefficientBits := Nat.lt_size_self _
  have hle : |(d.coefficient : ℚ)| ≤ 2 ^ d.coefficientBits := by
    rw [← cast_abs,abs_eq_natAbs]
    exact_mod_cast hlt.le
  have hbits : (2 : ℚ) ^ d.coefficientBits ≤ 2 ^ 768 := pow_le_pow_right₀ (by norm_num) h.bits
  rw [abs_toRat,operandSize,pow_add]
  exact mul_le_mul (hle.trans hbits) (zpow_ten_le (abs_le.1 h.exponent).2) (by positivity) (by positivity)

lemma IsOperand.compact (h : d.IsOperand) : d.Compact :=
  ⟨h.bits.trans (by decide),h.exponent.trans (by decide)⟩

lemma abs_add_le_two_pow {x y : ℚ} (hx : |x| ≤ 2 ^ n) (hy : |y| ≤ 2 ^ n) : |x + y| ≤ 2 ^ (n + 1) := by
  have hsum := abs_add_le x y
  rw [pow_succ]
  linarith

lemma compact_ceil (h : d.IsOperand) : d.ceil.Compact := by
  have hvalue : d.ceil.toRat = ⌈d.toRat⌉ := by rw [← bigInt_cast d.exponent_ceil,bigInt_ceil]
  have hle : |(d.ceil.toRat - d.toRat) + d.toRat| ≤ 2 ^ (operandSize + 1) := by
    apply abs_add_le_two_pow _ h.abs_toRat_le
    have hone : (1 : ℚ) ≤ 2 ^ operandSize := one_le_pow₀ (by norm_num)
    rw [hvalue,abs_le]
    constructor <;> linarith [le_ceil d.toRat,ceil_lt_add_one d.toRat]
  rw [sub_add_cancel] at hle
  refine Compact.of_value (E := 0) hle ?_ ?_ (by decide) (by decide)
  · exact_mod_cast d.exponent_ceil
  · have hexp := (abs_le.1 h.exponent).2
    unfold ceil
    split_ifs
    · omega
    · exact (by decide : (0 : ℤ) ≤ 20000)

lemma compact_floor (h : d.IsOperand) : d.floor.Compact := by
  unfold floor
  split_ifs
  · exact h.compact
  · refine IsOperand.compact ⟨?_,(by decide : |(0 : ℤ)| ≤ 4000)⟩
    exact (Nat.size_le_size (natAbs_ediv_le_natAbs _ _)).trans h.bits

variable {places : ℤ}
lemma compact_round (hvalue : |d.toRat| ≤ 2 ^ n) (hplaces : |places| ≤ 1000) (hn : 4000 ≤ n)
    (hsize : n + 4002 ≤ 2 ^ 18) : (d.round places).Compact := by
  have hbounds := abs_le.1 hplaces
  have hunit : halfUnit places ≤ 2 ^ n := by
    calc halfUnit places ≤ 10 ^ (-places) := by
          unfold halfUnit
          linarith [zpow_pos (by norm_num : (0 : ℚ) < 10) (-places)]
      _ ≤ 2 ^ (4 * 1000) := zpow_ten_le (by omega)
      _ ≤ 2 ^ n := pow_le_pow_right₀ (by norm_num) hn
  have hle := abs_add_le_two_pow ((d.abs_round_sub_le places).trans hunit) hvalue
  rw [sub_add_cancel] at hle
  refine Compact.of_value (E := 1000) hle ?_ ?_ (by decide) (by omega) <;> rw [exponent_round] <;> omega

lemma compact_truncatePlaces (h : d.IsOperand) (hplaces : |places| ≤ 1000) :
    (d.truncatePlaces places).Compact := by
  have hbounds := abs_le.1 hplaces
  unfold truncatePlaces
  split_ifs
  · have hpow : (0 : ℚ) < 10 ^ (-places) := zpow_pos (by norm_num) _
    have hle : |(d.rescale (-places)).toRat| ≤ 2 ^ operandSize := by
      rw [abs_toRat,coefficient_rescale]
      calc |(DataStreams.truncate (d.toRat / 10 ^ (-places)) : ℚ)| * 10 ^ (-places)
          ≤ |d.toRat / 10 ^ (-places)| * 10 ^ (-places) := mul_le_mul_of_nonneg_right (abs_truncate_le _) hpow.le
        _ = |d.toRat| := by rw [abs_div,abs_of_pos hpow,div_mul_cancel₀ _ hpow.ne']
        _ ≤ 2 ^ operandSize := h.abs_toRat_le
    refine Compact.of_value (E := 1000) hle ?_ ?_ (by decide) (by decide)
    · change -((1000 : ℕ) : ℤ) ≤ -places
      omega
    · change -places ≤ 20000
      omega
  · exact h.compact

lemma compact_of_min {d : Decimal} (ha : a.IsOperand) (hb : b.IsOperand) (hvalue : |d.toRat| ≤ 2 ^ (operandSize + 1))
    (hexp : d.exponent = min a.exponent b.exponent) : d.Compact := by
  have hea := abs_le.1 ha.exponent
  have heb := abs_le.1 hb.exponent
  refine Compact.of_value (E := 4000) hvalue ?_ ?_ (by decide) (by decide) <;> omega

section
variable (ha : a.IsOperand) (hb : b.IsOperand)
include ha hb

lemma compact_add : (a.add b).Compact := by
  apply compact_of_min ha hb _ rfl
  rw [toRat_add]
  exact abs_add_le_two_pow ha.abs_toRat_le hb.abs_toRat_le

lemma compact_sub : (a.sub b).Compact := by
  apply compact_of_min ha hb _ rfl
  rw [toRat_sub,sub_eq_add_neg]
  apply abs_add_le_two_pow ha.abs_toRat_le
  rw [abs_neg]
  exact hb.abs_toRat_le

lemma compact_mul : (a.mul b).Compact := by
  have hvalue : |(a.mul b).toRat| ≤ 2 ^ (operandSize + operandSize) := by
    rw [toRat_mul,abs_mul,pow_add]
    exact mul_le_mul ha.abs_toRat_le hb.abs_toRat_le (abs_nonneg _) (by positivity)
  have hexp : (a.mul b).exponent = a.exponent + b.exponent := rfl
  have hea := abs_le.1 ha.exponent
  have heb := abs_le.1 hb.exponent
  refine Compact.of_value (E := 8000) hvalue ?_ ?_ (by decide) (by decide) <;> omega

end

lemma abs_div_le (hb : b.coefficient ≠ 0) (ha : |a.toRat| ≤ 2 ^ n) (hexp : -(E : ℤ) ≤ b.exponent) :
    |a.toRat / b.toRat| ≤ 2 ^ (n + 4 * E) := by
  have hpow : (0 : ℚ) < 10 ^ b.exponent := zpow_pos (by norm_num) _
  have hone : (1 : ℚ) ≤ |(b.coefficient : ℚ)| := by exact_mod_cast one_le_abs hb
  have hb' : 10 ^ b.exponent ≤ |b.toRat| := by
    rw [abs_toRat]
    exact le_mul_of_one_le_left hpow.le hone
  rw [abs_div,pow_add]
  calc |a.toRat| / |b.toRat| ≤ 2 ^ n / 10 ^ b.exponent := div_le_div₀ (by positivity) ha hpow hb'
    _ = 2 ^ n * 10 ^ (-b.exponent) := by rw [zpow_neg,div_eq_mul_inv]
    _ ≤ 2 ^ n * 2 ^ (4 * E) := mul_le_mul_of_nonneg_left (zpow_ten_le (by omega)) (by positivity)

lemma divRound_ends {precision : ℕ} (ha : |a.toRat| ≤ 2 ^ n) (haexp : |a.exponent| ≤ 4000) (hbexp : |b.exponent| ≤ 4000)
    (hE : -(E : ℤ) ≤ b.exponent) (hprecision : precision ≤ 1000) (hsize : n + 4 * E + 4002 ≤ 2 ^ 18) :
    (DataStreams.divRound a b precision).Ends Compact := by
  unfold DataStreams.divRound
  split_ifs with hzero
  · exact ends_err _
  have hb : b.coefficient ≠ 0 := by rwa [isZero,decide_eq_true_iff] at hzero
  have hea := abs_le.1 haexp
  have heb := abs_le.1 hbexp
  obtain ⟨q,hq,hqexp,hclose⟩ := divRound_spec hb (show DivisionFits a b precision by constructor <;> omega)
  have hunit : halfUnit precision ≤ 2 ^ (n + 4 * E) := by
    calc halfUnit precision ≤ 10 ^ (-(precision : ℤ)) := by
          unfold halfUnit
          linarith [zpow_pos (by norm_num : (0 : ℚ) < 10) (-(precision : ℤ))]
      _ ≤ 1 := zpow_le_one_of_nonpos₀ (by norm_num) (by omega)
      _ ≤ 2 ^ (n + 4 * E) := one_le_pow₀ (by norm_num)
  have hle := abs_add_le_two_pow (hclose.trans hunit) (abs_div_le hb ha hE)
  rw [sub_add_cancel] at hle
  rw [hq]
  refine ends_ok (Compact.of_value (E := 1000) hle ?_ ?_ (by decide) (by omega)) <;> rw [hqexp] <;> omega

end Decimal

variable {x : Decimal}
lemma abs_log_le_of_two_pow {q : ℚ} {n : ℕ} (hpos : 0 < q) (hq : q ≤ 2 ^ n) (hinv : q⁻¹ ≤ 2 ^ n) : |Real.log q| ≤ n := by
  have hq' := (Rat.cast_le (K := ℝ)).2 hq
  have hinv' := (Rat.cast_le (K := ℝ)).2 hinv
  have hpos' : (0 : ℝ) < q := by exact_mod_cast hpos
  push_cast at hq' hinv'
  have htwo : (n : ℝ) * Real.log 2 ≤ n := mul_le_of_le_one_right (Nat.cast_nonneg n) (by linarith [log_two_lt_d9])
  have hupper := log_le_log hpos' hq'
  have hlower := log_le_log (inv_pos.2 hpos') hinv'
  rw [log_pow] at hupper hlower
  rw [log_inv] at hlower
  rw [abs_le]
  constructor <;> linarith

lemma abs_log_operand_le (h : x.IsOperand) (hpos : 0 < x.coefficient) : |Real.log x.toRat| ≤ Decimal.operandSize := by
  have hx := Decimal.toRat_pos.2 hpos
  apply abs_log_le_of_two_pow hx
  · rw [← abs_of_pos hx]
    exact h.abs_toRat_le
  · have hone : |Decimal.toRat ⟨1,0⟩| ≤ 2 ^ 768 := by
      have hvalue : Decimal.toRat ⟨1,0⟩ = 1 := by norm_num [Decimal.toRat]
      rw [hvalue,abs_one]
      exact one_le_pow₀ (by norm_num)
    have hdiv := Decimal.abs_div_le (E := 4000) hpos.ne' hone (abs_le.1 h.exponent).1
    have hvalue : Decimal.toRat ⟨1,0⟩ / x.toRat = x.toRat⁻¹ := by
      rw [inv_eq_one_div]
      norm_num [Decimal.toRat]
    rw [hvalue,abs_of_pos (inv_pos.2 hx)] at hdiv
    exact hdiv

/-- The logarithm of an operand has the places asked for and is small. -/
lemma lnDecimal_ends (h : x.IsOperand) {places : ℕ} (hplaces : places ≤ 1000) :
    (lnDecimal x places).Ends fun r => r.exponent = -(places : ℤ) ∧ |r.toRat| ≤ 2 ^ 15 := by
  by_cases hneg : x.isNegative = true
  · rw [lnDecimal,if_pos hneg]
    exact ends_err _
  by_cases hzero : x.isZero = true
  · rw [lnDecimal,if_neg hneg,if_pos hzero]
    exact ends_err _
  have hpos : 0 < x.coefficient := by
    rw [Decimal.isNegative,decide_eq_true_iff] at hneg
    rw [Decimal.isZero,decide_eq_true_iff] at hzero
    omega
  obtain ⟨r,hr,hexp,hclose⟩ := lnDecimal_close hpos h.bits h.exponent hplaces
  rw [hr]
  refine ends_ok ⟨hexp,?_⟩
  have hlog := abs_log_operand_le h hpos
  rw [Decimal.operandSize_eq] at hlog
  have hunit : 51 / (100 * (10 : ℝ) ^ places) ≤ 1 := by
    rw [div_le_one (by positivity)]
    linarith [one_le_pow₀ (show (1 : ℝ) ≤ 10 by norm_num) (n := places)]
  have hvalue : |(r.toRat : ℝ)| ≤ 2 ^ 15 := by
    calc |(r.toRat : ℝ)| = |((r.toRat : ℝ) - Real.log x.toRat) + Real.log x.toRat| := by ring_nf
      _ ≤ |(r.toRat : ℝ) - Real.log x.toRat| + |Real.log x.toRat| := abs_add_le _ _
      _ ≤ 1 + (16768 : ℕ) := add_le_add (hclose.trans hunit) hlog
      _ ≤ 2 ^ 15 := by norm_num
  exact_mod_cast hvalue

variable {L : Libs} {values : List Decimal}
/-- A value that an expression can pass. A window has no more values than the history keeps,
stored ones and so within the operand bounds. -/
def Arg.Producible : Arg → Prop
  | .series s => s.values.length ≤ maxHistoryRecordsPerPair ∧ ∀ v ∈ s.values, v.IsOperand
  | _ => True

variable {name : String} {args : List Arg}
lemma scalars_spec (h : (args.mapM fun arg => match toDecimal L arg with
      | .error e => Except.error s!"{name}: {e}"
      | .ok d => .ok d) = .ok values) :
    values.length = args.length ∧ ∀ v ∈ values, v.IsOperand := by
  constructor
  · have hunits := map_mapM_ok (g := fun _ => ()) (k := fun _ => ()) (fun _ _ _ => rfl) h
    have hlengths := congrArg List.length hunits
    rwa [length_map,length_map] at hlengths
  · intro v hv
    obtain ⟨arg,-,harg⟩ := (mapM_ok h).2 v hv
    split at harg
    · cases harg
    · cases harg
      exact toDecimal_isOperand (by assumption)

lemma scalarsOrWindow_spec (hargs : ∀ a ∈ args, a.Producible) (hlength : args.length ≤ 512)
    (h : scalarsOrWindow L name args = .ok values) :
    values ≠ [] ∧ values.length ≤ 1024 ∧ ∀ v ∈ values, v.IsOperand := by
  cases args with
  | nil => cases h
  | cons first rest =>
    by_cases hseries : ∃ s, first = .series s
    · obtain ⟨s,rfl⟩ := hseries
      rw [scalarsOrWindow] at h
      split_ifs at h with hrest hempty
      cases h
      obtain ⟨hshort,hoperands⟩ := hargs _ mem_cons_self
      have hmax : maxHistoryRecordsPerPair = 1024 := rfl
      rw [hmax] at hshort
      exact ⟨fun hnil => hempty (by rw [hnil]; rfl),by omega,hoperands⟩
    · have hscalars : scalarsOrWindow L name (first :: rest) =
          (first :: rest).mapM fun arg => match toDecimal L arg with
            | .error e => Except.error s!"{name}: {e}"
            | .ok d => .ok d := by
        cases first with
        | series s => exact absurd ⟨s,rfl⟩ hseries
        | _ => rfl
      obtain ⟨hlen,hoperands⟩ := scalars_spec (hscalars.symm.trans h)
      refine ⟨fun hnil => ?_,by omega,hoperands⟩
      rw [hnil] at hlen
      cases hlen

lemma foldl_add_bounds {d : Decimal} (h : ∀ v ∈ values, v.IsOperand) (hlow : -4000 ≤ d.exponent) (hhigh : d.exponent ≤ 0) :
    |(values.foldl Decimal.add d).toRat| ≤ |d.toRat| + values.length * 2 ^ Decimal.operandSize ∧
      -4000 ≤ (values.foldl Decimal.add d).exponent ∧ (values.foldl Decimal.add d).exponent ≤ 0 := by
  induction values generalizing d with
  | nil => exact ⟨by simp,hlow,hhigh⟩
  | cons v values ih =>
    have hv := h v mem_cons_self
    have hexp := abs_le.1 hv.exponent
    have hadd : (d.add v).exponent = min d.exponent v.exponent := rfl
    obtain ⟨hvalue,hbounds⟩ := ih (fun w hw => h w (mem_cons_of_mem _ hw)) (show -4000 ≤ (d.add v).exponent by omega)
      (show (d.add v).exponent ≤ 0 by omega)
    rw [foldl_cons]
    refine ⟨hvalue.trans ?_,hbounds⟩
    have hsum := abs_add_le d.toRat v.toRat
    rw [Decimal.toRat_add,length_cons]
    push_cast
    linarith [hv.abs_toRat_le]

lemma total_bounds (h : ∀ v ∈ values, v.IsOperand) (hlength : values.length ≤ 1024) :
    |(Scalar.total values).toRat| ≤ 2 ^ (10 + Decimal.operandSize) ∧
      -4000 ≤ (Scalar.total values).exponent ∧ (Scalar.total values).exponent ≤ 0 := by
  obtain ⟨hvalue,hbounds⟩ := foldl_add_bounds h (d := .zero) (by decide) (by decide)
  refine ⟨hvalue.trans ?_,hbounds⟩
  have hzero : Decimal.toRat .zero = 0 := by simp [Decimal.toRat,Decimal.zero]
  have hlength' : (values.length : ℚ) ≤ 2 ^ 10 := by
    norm_num
    exact_mod_cast hlength
  rw [hzero,abs_zero,zero_add,pow_add]
  exact mul_le_mul_of_nonneg_right hlength' (by positivity)

variable {replaces : Decimal → Decimal → Bool}
lemma foldl_choice_mem (first : Decimal) (values : List Decimal) :
    values.foldl (fun ans item => if replaces item ans then item else ans) first ∈ first :: values := by
  induction values generalizing first with
  | nil => exact mem_cons_self
  | cons v values ih =>
    rw [foldl_cons]
    rcases mem_cons.1 (ih (if replaces v first then v else first)) with h | h
    · rw [h]
      split_ifs <;> simp
    · exact mem_cons_of_mem _ (mem_cons_of_mem _ h)

lemma extreme_ends (hne : values ≠ []) (h : ∀ v ∈ values, v.IsOperand) :
    (Scalar.extreme replaces values).Ends Decimal.Compact := by
  cases values with
  | nil => exact absurd rfl hne
  | cons first rest => exact ends_ok (h _ (foldl_choice_mem first rest)).compact

inductive ScalarCall
  | add (x y : Arg)
  | sub (x y : Arg)
  | mul (x y : Arg)
  | div (x y : Arg)
  | sum (xs : List Arg)
  | avg (xs : List Arg)
  | max (xs : List Arg)
  | min (xs : List Arg)
  | abs (x : Arg)
  | ceil (x : Arg)
  | floor (x : Arg)
  | round (x : Arg) (precision : ℤ)
  | truncate (x : Arg) (precision : ℤ)
  | pow (x y : Arg)
  | sqrt (x : Arg)
  | ln (x : Arg)
  | log (x y : Arg)

namespace ScalarCall
def run (L : Libs) : ScalarCall → Go Decimal
  | .add x y => Scalar.add L x y
  | .sub x y => Scalar.sub L x y
  | .mul x y => Scalar.mul L x y
  | .div x y => Scalar.div L x y
  | .sum xs => Scalar.sum L xs
  | .avg xs => Scalar.avg L xs
  | .max xs => Scalar.max L xs
  | .min xs => Scalar.min L xs
  | .abs x => Scalar.abs L x
  | .ceil x => Scalar.ceil L x
  | .floor x => Scalar.floor L x
  | .round x precision => Scalar.round L x precision
  | .truncate x precision => Scalar.truncate L x precision
  | .pow x y => Scalar.pow L x y
  | .sqrt x => Scalar.sqrt L x
  | .ln x => Scalar.ln L x
  | .log x y => Scalar.log L x y

/-- The arguments of a variadic function are limited in number. -/
def Producible : ScalarCall → Prop
  | .sum xs | .avg xs | .max xs | .min xs => xs.length ≤ 512 ∧ ∀ x ∈ xs, x.Producible
  | _ => True

end ScalarCall

lemma unary_ends {f : Decimal → Go Decimal} (hf : ∀ d : Decimal, d.IsOperand → (f d).Ends Decimal.Compact) (x : Arg) :
    (Scalar.unary L f x).Ends Decimal.Compact :=
  (ends_ofExcept fun _ h => toDecimal_isOperand h).bind hf

lemma binary_ends {f : Decimal → Decimal → Go Decimal}
    (hf : ∀ a b : Decimal, a.IsOperand → b.IsOperand → (f a b).Ends Decimal.Compact) (x y : Arg) :
    (Scalar.binary L f x y).Ends Decimal.Compact := by
  refine (ends_ofExcept fun _ h => toDecimal_isOperand h).bind fun a ha => ?_
  exact (ends_ofExcept fun _ h => toDecimal_isOperand h).bind fun b hb => hf a b ha hb

lemma variadic_ends {name : String} {f : List Decimal → Go Decimal} {xs : List Arg}
    (hf : ∀ values : List Decimal, values ≠ [] → values.length ≤ 1024 → (∀ v ∈ values, v.IsOperand) →
      (f values).Ends Decimal.Compact)
    (hxs : xs.length ≤ 512 ∧ ∀ x ∈ xs, x.Producible) : (Scalar.variadic L name f xs).Ends Decimal.Compact := by
  refine (ends_ofExcept fun _ h => scalarsOrWindow_spec hxs.2 hxs.1 h).bind ?_
  rintro values ⟨hne,hlength,hoperands⟩
  exact hf values hne hlength hoperands

lemma places_ends {f : Decimal → ℤ → Decimal} {precision : ℤ}
    (hf : ∀ d : Decimal, d.IsOperand → |precision| ≤ 1000 → (f d precision).Compact) (x : Arg) :
    (Scalar.places L f x precision).Ends Decimal.Compact := by
  have hcheck : (Go.ofExcept (checkPrecision precision)).Ends fun _ => |precision| ≤ 1000 := by
    refine ends_ofExcept fun _ h => ?_
    have hmax : maxDecimalExponent = 1000 := rfl
    unfold checkPrecision at h
    split_ifs at h with hrange
    rw [hmax] at hrange
    rw [abs_le]
    omega
  refine hcheck.bind fun _ hprecision => ?_
  exact (ends_ofExcept fun _ h => toDecimal_isOperand h).bind fun d hd => ends_ok (hf d hd hprecision)

lemma exp_add_one_le {x : ℝ} {n : ℕ} (h : x ≤ n) : exp x + 1 ≤ 2 ^ (2 * n + 1) := by
  have hexp := exp_le_two_pow h
  have hone : (1 : ℝ) ≤ 2 ^ (2 * n) := one_le_pow₀ (by norm_num)
  rw [pow_succ]
  linarith

lemma rounded_power_ends {base exponent : Decimal} (hbase : base.IsOperand) (hexponent : exponent.IsOperand) :
    (do
      let res ← decimalPow base exponent doublePrecision
      Except.ok (res.round calculatedPrecision) : Go Decimal).Ends Decimal.Compact := by
  refine (decimalPow_ends hbase hexponent (by decide)).bind fun r hr => ends_ok ?_
  have hproduct := mul_le_mul (exp_add_one_le (n := 2401) (x := 2401) (by norm_num))
    (exp_add_one_le (n := 2400) (x := 2400) (by norm_num)) (by positivity) (by positivity)
  rw [← pow_add] at hproduct
  have hvalue : |r.toRat| ≤ 2 ^ (2 * 2401 + 1 + (2 * 2400 + 1)) := by exact_mod_cast hr.trans hproduct
  exact Decimal.compact_round hvalue (by decide) (by decide) (by decide)

variable {a b : Decimal}
lemma mulChecked_ends (ha : a.IsOperand) (hb : b.IsOperand) : (a.mulChecked b).Ends Decimal.Compact := by
  rw [Decimal.mulChecked_eq_mul (ha.exponent.trans (by decide)) (hb.exponent.trans_lt (by decide))]
  exact ends_ok (Decimal.compact_mul ha hb)

lemma div_ends (ha : a.IsOperand) (hb : b.IsOperand) :
    (divRound a b legacyDivisionPrecision).Ends Decimal.Compact :=
  Decimal.divRound_ends (E := 4000) ha.abs_toRat_le ha.exponent hb.exponent (abs_le.1 hb.exponent).1 (by decide) (by decide)

lemma total_compact (h : ∀ v ∈ values, v.IsOperand) (hlength : values.length ≤ 1024) :
    (Scalar.total values).Compact := by
  obtain ⟨hvalue,hlow,hhigh⟩ := total_bounds h hlength
  exact .of_value (E := 4000) hvalue hlow (hhigh.trans (by decide)) (by decide) (by decide)

lemma average_ends (h : ∀ v ∈ values, v.IsOperand) (hlength : values.length ≤ 1024) :
    (divRoundByInt (Scalar.total values) values.length legacyDivisionPrecision).Ends Decimal.Compact := by
  obtain ⟨hvalue,hlow,hhigh⟩ := total_bounds h hlength
  unfold divRoundByInt
  split_ifs
  · exact ends_err _
  · refine Decimal.divRound_ends (E := 0) hvalue (abs_le.2 ⟨hlow,hhigh.trans (by decide)⟩) ?_ ?_ (by decide) (by decide)
    · exact (by decide : |(0 : ℤ)| ≤ 4000)
    · exact (by decide : -((0 : ℕ) : ℤ) ≤ 0)

lemma ln_ends {n : Decimal} (hn : n.IsOperand) : (lnDecimal n calculatedPrecision).Ends Decimal.Compact := by
  refine (lnDecimal_ends hn (by decide)).mono ?_
  rintro r ⟨hexp,hvalue⟩
  refine .of_value (E := 18) hvalue ?_ ?_ (by decide) (by decide) <;> rw [hexp] <;> decide

lemma log_ends (x y : Arg) : (Scalar.log L x y).Ends Decimal.Compact := by
  refine (ends_ofExcept fun _ h => toDecimal_isOperand h).bind fun log hlog => ?_
  refine (lnDecimal_ends hlog (by decide)).bind ?_
  rintro lnLog ⟨hlnLog,-⟩
  refine (ends_ofExcept fun _ h => toDecimal_isOperand h).bind fun base hbase => ?_
  refine (lnDecimal_ends hbase (by decide)).bind ?_
  rintro lnBase ⟨hlnBase,hvalue⟩
  split_ifs
  · exact ends_err _
  · refine Decimal.divRound_ends (E := 36) hvalue ?_ ?_ ?_ (by decide) (by decide)
    · rw [hlnBase]
      decide
    · rw [hlnLog]
      decide
    · rw [hlnLog]
      decide

/-- A scalar call never panics, and its result is compact. -/
lemma run_ends (call : ScalarCall) (h : call.Producible) : (call.run L).Ends Decimal.Compact := by
  cases call with
  | add x y => exact binary_ends (fun a b ha hb => ends_ok (Decimal.compact_add ha hb)) x y
  | sub x y => exact binary_ends (fun a b ha hb => ends_ok (Decimal.compact_sub ha hb)) x y
  | mul x y => exact binary_ends (fun a b ha hb => mulChecked_ends ha hb) x y
  | div x y => exact binary_ends (fun a b ha hb => div_ends ha hb) x y
  | sum xs => exact variadic_ends (fun values _ hlength hv => ends_ok (total_compact hv hlength)) h
  | avg xs => exact variadic_ends (fun values _ hlength hv => average_ends hv hlength) h
  | max xs => exact variadic_ends (fun values hne _ hv => extreme_ends hne hv) h
  | min xs => exact variadic_ends (fun values hne _ hv => extreme_ends hne hv) h
  | abs x => exact unary_ends (fun d hd => ends_ok hd.abs.compact) x
  | ceil x => exact unary_ends (fun d hd => ends_ok (Decimal.compact_ceil hd)) x
  | floor x => exact unary_ends (fun d hd => ends_ok (Decimal.compact_floor hd)) x
  | round x precision =>
    exact places_ends (fun d hd hp => Decimal.compact_round hd.abs_toRat_le hp (by decide) (by decide)) x
  | truncate x precision => exact places_ends (fun d hd hp => Decimal.compact_truncatePlaces hd hp) x
  | pow x y => exact binary_ends (fun base power hb hp => rounded_power_ends hb hp) x y
  | sqrt x =>
    refine unary_ends (fun d hd => ?_) x
    split_ifs
    · exact ends_err _
    · exact rounded_power_ends hd ⟨by decide,by decide⟩
  | ln x =>
    refine unary_ends (fun d hd => ?_) x
    split_ifs
    · exact ends_err _
    · exact ln_ends hd
  | log x y => exact log_ends x y

/-- Every call of a scalar function returns an error or a decimal of bounded size. -/
theorem scalarCall_compact (L : Libs) (call : ScalarCall) (h : call.Producible) :
    (∃ m, call.run L = Go.err m) ∨
      ∃ d, call.run L = .ok d ∧ d.coefficientBits ≤ 2 ^ 18 ∧ |d.exponent| ≤ 20000 := by
  have hends := run_ends (L := L) call h
  rcases hrun : call.run L with (m | m) | d
  · exact .inl ⟨m,rfl⟩
  · rw [hrun] at hends
    exact absurd hends id
  · rw [hrun] at hends
    exact .inr ⟨d,rfl,hends.bits,hends.exponent⟩

theorem scalarCall_compact_mean :
    ScalarCall.run scalarLibs (.avg [.integer .int 1,.decimal ⟨25,-1⟩,.integer .int 4]) = .ok ⟨25000000000000000,-16⟩ ∧
      ((∃ m, ScalarCall.run scalarLibs (.avg [.integer .int 1,.decimal ⟨25,-1⟩,.integer .int 4]) = Go.err m) ∨
        ∃ d, ScalarCall.run scalarLibs (.avg [.integer .int 1,.decimal ⟨25,-1⟩,.integer .int 4]) = .ok d ∧
          d.coefficientBits ≤ 2 ^ 18 ∧ |d.exponent| ≤ 20000) := by
  refine ⟨by decide +kernel,scalarCall_compact scalarLibs _ ⟨by decide,?_⟩⟩
  intro x hx
  simp only [mem_cons,not_mem_nil,or_false] at hx
  rcases hx with rfl | rfl | rfl <;> trivial

end DataStreams
