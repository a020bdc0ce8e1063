import DataStreams.Calculated.Power
import DataStreams.Calculated.Series

/-! The scalar functions of expressions. Arguments of any type are converted to decimals within
the operand bounds. -/
namespace DataStreams
open Real Decimal

inductive IntegerType
  | int
  | int32
  | int64
  | uint
  | uint32
  | uint64
  | bigInt
  | duration
  deriving DecidableEq, Repr

/-- The values an expression can pass to a function. A float is the decimal it is converted
to, if it is finite. -/
inductive Arg
  | series (s : Series)
  | string (text : Text)
  | integer (type : IntegerType) (n : ℤ)
  | float (double : Bool) (value : Option Decimal)
  | decimal (d : Decimal)
  | other (typeName : String)

def IntegerType.typeName : IntegerType → String
  | .int => "int"
  | .int32 => "int32"
  | .int64 => "int64"
  | .uint => "uint"
  | .uint32 => "uint32"
  | .uint64 => "uint64"
  | .bigInt => "*big.Int"
  | .duration => "time.Duration"

def Arg.typeName : Arg → String
  | .series _ => "calculated.Series"
  | .string _ => "string"
  | .integer type _ => type.typeName
  | .float double _ => if double then "float64" else "float32"
  | .decimal _ => "decimal.Decimal"
  | .other typeName => typeName

def calculatedPrecision : ℕ := 18

def doublePrecision : ℕ := 2 * calculatedPrecision

def legacyDivisionPrecision : ℕ := 16

def errSeriesAsScalar : String := "history window cannot be used as a scalar"

def convertToDecimal (L : Libs) : Arg → Except String Decimal
  | .series s => .error s!"{errSeriesAsScalar} (length {s.values.length})"
  | .string text => do
    let d ← L.decimalFromString text
    checkDecimalExponent d
    .ok d
  | .integer _ n => .ok (.ofInt n)
  | .float _ none => .error "invalid float: NaN or Inf"
  | .float _ (some d) => .ok d
  | .decimal d => .ok d
  | .other typeName => .error s!"unsupported type: {typeName}"

def toDecimal (L : Libs) (x : Arg) : Except String Decimal := do
  let d ← convertToDecimal L x
  checkOperand d
  .ok d

def scalarsOrWindow (L : Libs) (name : String) : List Arg → Except String (List Decimal)
  | [] => .error s!"{name} requires at least one argument"
  | .series s :: rest =>
    if rest ≠ [] then .error s!"{name} takes either a single history window or a list of scalars, not both"
    else if s.values.length = 0 then .error s!"{name}: history window is empty"
    else .ok s.values
  | args => args.mapM fun arg =>
    match toDecimal L arg with
    | .error e => .error s!"{name}: {e}"
    | .ok d => .ok d

def divRound (x y : Decimal) (prec : ℕ) : Go Decimal :=
  if y.isZero then Go.err "division by zero" else x.divRound y prec

def divRoundByInt (x : Decimal) (n : ℤ) (prec : ℕ) : Go Decimal :=
  if n ≤ 0 then Go.err s!"cannot divide by {n}" else divRound x (.ofInt n) prec

def checkPrecision (precision : ℤ) : Except String Unit :=
  if maxDecimalExponent < precision ∨ precision < -maxDecimalExponent then
    .error s!"precision {precision} out of range, expected absolute value <= {maxDecimalExponent}"
  else .ok ()

namespace Scalar
variable (L : Libs)
def unary (f : Decimal → Go Decimal) (x : Arg) : Go Decimal := do
  let ad ← Go.ofExcept (toDecimal L x)
  f ad

def binary (f : Decimal → Decimal → Go Decimal) (x y : Arg) : Go Decimal := do
  let ad ← Go.ofExcept (toDecimal L x)
  let bd ← Go.ofExcept (toDecimal L y)
  f ad bd

def variadic (name : String) (f : List Decimal → Go Decimal) (xs : List Arg) : Go Decimal := do
  let values ← Go.ofExcept (scalarsOrWindow L name xs)
  f values

/-- A function with a number of decimal places, which is checked first. -/
def places (f : Decimal → ℤ → Decimal) (x : Arg) (precision : ℤ) : Go Decimal := do
  Go.ofExcept (checkPrecision precision)
  let ad ← Go.ofExcept (toDecimal L x)
  .ok (f ad precision)

def abs : Arg → Go Decimal := unary L fun d => .ok d.abs

def ceil : Arg → Go Decimal := unary L fun d => .ok d.ceil

def floor : Arg → Go Decimal := unary L fun d => .ok d.floor

def round : Arg → ℤ → Go Decimal := places L Decimal.round

def truncate : Arg → ℤ → Go Decimal := places L Decimal.truncatePlaces

def add : Arg → Arg → Go Decimal := binary L fun a b => .ok (a.add b)

def sub : Arg → Arg → Go Decimal := binary L fun a b => .ok (a.sub b)

def mul : Arg → Arg → Go Decimal := binary L Decimal.mulChecked

def div : Arg → Arg → Go Decimal := binary L fun a b => divRound a b legacyDivisionPrecision

def total (values : List Decimal) : Decimal := values.foldl Decimal.add .zero

def sum : List Arg → Go Decimal := variadic L "Sum" fun values => .ok (total values)

def avg : List Arg → Go Decimal :=
  variadic L "Avg" fun values => divRoundByInt (total values) values.length legacyDivisionPrecision

/-- The first element is `values[0]`. -/
def extreme (replaces : Decimal → Decimal → Bool) (values : List Decimal) : Go Decimal := do
  let first ← Go.index values 0
  .ok (values.tail.foldl (fun ans item => if replaces item ans then item else ans) first)

def max : List Arg → Go Decimal := variadic L "Max" (extreme fun item ans => ans.lt item)

def min : List Arg → Go Decimal := variadic L "Min" (extreme fun item ans => item.lt ans)

def pow : Arg → Arg → Go Decimal := binary L fun base power => do
  let res ← decimalPow base power doublePrecision
  .ok (res.round calculatedPrecision)

def sqrt : Arg → Go Decimal := unary L fun n =>
  if n.isNegative then Go.err "negative number"
  else do
    let res ← decimalPow n ⟨5,-1⟩ doublePrecision
    .ok (res.round calculatedPrecision)

def ln : Arg → Go Decimal := unary L fun n =>
  if n.isZero then Go.err "cannot represent natural logarithm of 0" else lnDecimal n calculatedPrecision

/-- The logarithm of the base is taken before the other argument is converted. -/
def log (x y : Arg) : Go Decimal := do
  let log ← Go.ofExcept (toDecimal L x)
  let lnLog ← lnDecimal log doublePrecision
  let base ← Go.ofExcept (toDecimal L y)
  let lnBase ← lnDecimal base doublePrecision
  if lnLog.isZero then Go.err "logarithm base 1 is undefined" else divRound lnBase lnLog calculatedPrecision

end Scalar

lemma toDecimal_isOperand {L : Libs} {x : Arg} {d : Decimal} (h : toDecimal L x = .ok d) : d.IsOperand := by
  obtain ⟨d',-,h⟩ := Go.bind_ok_iff.1 h
  obtain ⟨hcheck,hd⟩ := Go.check_bind_ok_iff.1 h
  cases hd
  exact checkOperand_eq_ok.1 hcheck

lemma toDecimal_decimal {L : Libs} {d : Decimal} (h : d.IsOperand) : toDecimal L (.decimal d) = .ok d := by
  change (checkOperand d >>= fun _ => Except.ok d) = .ok d
  rw [checkOperand_eq_ok.2 h]
  rfl

variable {L : Libs} {x : Decimal}
lemma sqrt_eq (hx : 0 ≤ x.coefficient) (hoperand : x.IsOperand) :
    Scalar.sqrt L (.decimal x) = (do
      let res ← decimalPow x ⟨5,-1⟩ 36
      .ok (res.round 18)) := by
  have hneg : ¬x.isNegative = true := by
    rw [Decimal.isNegative,decide_eq_true_iff]
    omega
  rw [Scalar.sqrt,Scalar.unary,toDecimal_decimal hoperand]
  change (if x.isNegative = true then _ else _) = _
  rw [if_neg hneg]
  rfl

lemma decimalPow_zero_half (hx : x.coefficient = 0) (prec : ℕ) : decimalPow x ⟨5,-1⟩ prec = .ok .zero := by
  have hzero : x.isZero = true := by rwa [Decimal.isZero,decide_eq_true_iff]
  have habs : x.abs.isZero = true := by
    rw [Decimal.isZero,decide_eq_true_iff]
    change (x.coefficient.natAbs : ℤ) = 0
    omega
  have hcheck : checkPow x ⟨5,-1⟩ = .ok () := by
    rw [checkPow,if_neg (by decide),if_pos habs]
  have hpow : x.powWithPrecision ⟨5,-1⟩ prec = .ok .zero := by
    rw [Decimal.powWithPrecision,if_pos hzero,if_neg (by decide),if_pos (by decide)]
  rw [decimalPow,hcheck,Go.ok_bind]
  dsimp only
  rw [hzero,Bool.or_true,if_pos rfl,decimalIntPow,hpow]

lemma abs_log_le_of_powers {q : ℚ} {n : ℕ} (hlow : 10 ^ (-n : ℤ) ≤ q) (hhigh : q ≤ 10 ^ n) :
    |Real.log q| ≤ n * (236 / 100) := by
  have hlow' := (Rat.cast_le (K := ℝ)).2 hlow
  have hhigh' := (Rat.cast_le (K := ℝ)).2 hhigh
  rw [zpow_neg,zpow_natCast] at hlow'
  push_cast at hlow' hhigh'
  have hpow : (0 : ℝ) < (10 ^ n)⁻¹ := by positivity
  have hten : (n : ℝ) * Real.log 10 ≤ n * (236 / 100) := mul_le_mul_of_nonneg_left log_ten_le (Nat.cast_nonneg n)
  have hupper := log_le_log (hpow.trans_le hlow') hhigh'
  have hlower := log_le_log hpow hlow'
  rw [log_pow] at hupper
  rw [log_inv,log_pow] at hlower
  rw [abs_le]
  constructor <;> linarith

/-- The square root of an operand is accurate if it is returned, and it is returned for zero
and for every number between the 2000th powers of ten. -/
theorem sqrt_accurate (L : Libs) {x : Decimal} (hx : 0 ≤ x.toRat) (hbits : x.coefficientBits ≤ 768)
    (hexp : |x.exponent| ≤ 4000) :
    (∀ r, Scalar.sqrt L (.decimal x) = .ok r →
      |(r.toRat : ℝ) - √(x.toRat : ℝ)| ≤ 10 ^ (-18 : ℤ) + 10 ^ (-40 : ℤ) * √(x.toRat : ℝ)) ∧
      (x.toRat = 0 ∨ 10 ^ (-2000 : ℤ) ≤ x.toRat ∧ x.toRat ≤ 10 ^ 2000 → ∃ r, Scalar.sqrt L (.decimal x) = .ok r) := by
  have hnonneg := toRat_nonneg.1 hx
  rw [sqrt_eq hnonneg ⟨hbits,hexp⟩]
  rcases hnonneg.eq_or_lt with hzero | hpos
  · rw [decimalPow_zero_half hzero.symm,Go.ok_bind]
    refine ⟨?_,fun _ => ⟨_,rfl⟩⟩
    intro r hr
    have hround : Decimal.zero.round 18 = ⟨0,-18⟩ := by decide
    have hr' : r = ⟨0,-18⟩ := (Except.ok.inj hr).symm.trans hround
    have hvalue : r.toRat = 0 := by rw [hr',toRat_eq_zero_iff]
    rw [hvalue,toRat_eq_zero_iff.2 hzero.symm,Rat.cast_zero,sqrt_zero,sub_zero,abs_zero]
    positivity
  obtain ⟨hclose,hreturns⟩ := decimalPow_half_close ⟨hbits,hexp⟩ hpos (show 36 ≤ 232 by decide)
  constructor
  · intro r hr
    obtain ⟨res,hres,hr⟩ := Go.bind_ok_iff.1 hr
    cases hr
    rw [hres] at hclose
    have hround := abs_round_sub_real_le hclose 18
    have hsqrt := sqrt_nonneg (x.toRat : ℝ)
    refine hround.trans ?_
    rw [zpow_neg,zpow_neg]
    norm_num
    linarith
  · rintro (hzero | ⟨hlow,hhigh⟩)
    · exact absurd (toRat_eq_zero_iff.1 hzero) hpos.ne'
    have hlog := (abs_log_le_of_powers hlow hhigh).trans (show _ ≤ (4790 : ℝ) by norm_num)
    obtain ⟨res,hres⟩ := hreturns hlog
    rw [hres]
    exact ⟨_,rfl⟩

/-- Libraries of an expression without literals. -/
def scalarLibs : Libs := ⟨.rejecting,fromTable [],digest⟩

theorem sqrt_accurate_two :
    Scalar.sqrt scalarLibs (.decimal ⟨2,0⟩) = .ok ⟨1414213562373095049,-18⟩ ∧
      |((Decimal.toRat ⟨1414213562373095049,-18⟩ : ℚ) : ℝ) - √((Decimal.toRat ⟨2,0⟩ : ℚ) : ℝ)| ≤
        10 ^ (-18 : ℤ) + 10 ^ (-40 : ℤ) * √((Decimal.toRat ⟨2,0⟩ : ℚ) : ℝ) := by
  have heval : Scalar.sqrt scalarLibs (.decimal ⟨2,0⟩) = .ok ⟨1414213562373095049,-18⟩ := by decide +kernel
  have hx : 0 ≤ Decimal.toRat ⟨2,0⟩ := by norm_num [Decimal.toRat]
  exact ⟨heval,(sqrt_accurate scalarLibs hx (by decide) (by decide)).1 _ heval⟩

end DataStreams
