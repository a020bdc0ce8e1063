import Mathlib.Analysis.Complex.Exponential
import Mathlib.Tactic.Positivity

/-! The Taylor series of the exponential on integers in units of `1 / S`, and repeated squaring. -/
namespace DataStreams.ScaledExp
open Real Nat

/-- The terms of the series from term `i` on are added to the sum until one is zero. -/
def taylorSum (S r : ℕ) : ℕ → ℕ → ℕ → ℕ → Option ℕ
  | 0,_,_,_ => none
  | fuel + 1,i,term,sum =>
    let term := term * r / (S * i)
    if term = 0 then some sum else taylorSum S r fuel (i + 1) term (sum + term)

def squarings (S : ℕ) : ℕ → ℕ → ℕ
  | 0,sum => sum
  | k + 1,sum => squarings S k (sum * sum / S)

lemma cast_div_bounds (n : ℕ) {d : ℕ} (hd : 0 < d) :
    ((n / d : ℕ) : ℝ) ≤ n / d ∧ (n : ℝ) / d - 1 ≤ ((n / d : ℕ) : ℝ) := by
  have hdr : (0 : ℝ) < d := cast_pos.2 hd
  have hle : ((n / d : ℕ) : ℝ) * d ≤ n := by exact_mod_cast div_mul_le_self n d
  have hlt : (n : ℝ) < ((n / d : ℕ) : ℝ) * d + d := by exact_mod_cast lt_div_mul_add hd
  constructor
  · rwa [le_div_iff₀ hdr]
  · rw [sub_le_iff_le_add,div_le_iff₀ hdr]
    linarith

section Series
variable {S r N i term sum fuel : ℕ}
/-- What the loop has before term `i`: the last term and the sum, each short by a few units. -/
structure Partial (S : ℕ) (x : ℝ) (i term sum : ℕ) : Prop where
  pos : 0 < i
  term_le : (term : ℝ) ≤ S * (x ^ (i - 1) / (i - 1).factorial)
  le_term : S * (x ^ (i - 1) / (i - 1).factorial) - 2 ≤ (term : ℝ)
  sum_le : (sum : ℝ) ≤ S * ∑ j ∈ Finset.range i, x ^ j / j.factorial
  le_sum : S * (∑ j ∈ Finset.range i, x ^ j / j.factorial) - 2 * i ≤ (sum : ℝ)
  scale_le : S ≤ sum

lemma partial_one (S : ℕ) (x : ℝ) : Partial S x 1 S S where
  pos := Nat.one_pos
  term_le := by simp
  le_term := by simp
  sum_le := by simp
  le_sum := by simp
  scale_le := le_rfl

lemma next_term (x : ℝ) (hi : 0 < i) :
    x ^ i / (i.factorial : ℝ) = x ^ (i - 1) / ((i - 1).factorial : ℝ) * (x / i) := by
  obtain ⟨n,rfl⟩ := exists_eq_succ_of_ne_zero hi.ne'
  have hfact : ((n + 1).factorial : ℝ) = (n + 1) * n.factorial := by
    rw [factorial_succ]
    push_cast
    ring
  have hpos : (0 : ℝ) < n.factorial := cast_pos.2 n.factorial_pos
  rw [succ_eq_add_one,Nat.add_sub_cancel,hfact,pow_succ]
  push_cast
  field_simp

variable (hS : 0 < S) (hr : 2 * r ≤ S)
include hS hr

lemma Partial.next (h : Partial S (r / S) i term sum) :
    ((term * r / (S * i) : ℕ) : ℝ) ≤ S * ((r / S : ℝ) ^ i / i.factorial) ∧
      S * ((r / S : ℝ) ^ i / i.factorial) - 2 ≤ ((term * r / (S * i) : ℕ) : ℝ) := by
  have hSr : (0 : ℝ) < S := cast_pos.2 hS
  have hi : (1 : ℝ) ≤ i := by exact_mod_cast h.pos
  obtain ⟨hle,hge⟩ := cast_div_bounds (term * r) (Nat.mul_pos hS h.pos)
  have hquot : ((term * r : ℕ) : ℝ) / ((S * i : ℕ) : ℝ) = term * ((r / S : ℝ) / i) := by
    push_cast
    field_simp
  rw [hquot] at hle hge
  have hratio : (0 : ℝ) ≤ (r / S : ℝ) / i := by positivity
  have hhalf : (r / S : ℝ) / i ≤ 1 / 2 := by
    rw [div_le_iff₀ (by linarith),div_le_iff₀ hSr]
    have hr' : (2 : ℝ) * r ≤ S := by exact_mod_cast hr
    nlinarith
  rw [next_term _ h.pos,← mul_assoc]
  constructor
  · exact hle.trans (mul_le_mul_of_nonneg_right h.term_le hratio)
  · have hshort := mul_le_mul_of_nonneg_right h.le_term hratio
    linarith

lemma Partial.step (h : Partial S (r / S) i term sum) :
    Partial S (r / S) (i + 1) (term * r / (S * i)) (sum + term * r / (S * i)) := by
  obtain ⟨hle,hge⟩ := h.next hS hr
  refine ⟨succ_pos i,hle,hge,?_,?_,h.scale_le.trans (Nat.le_add_right _ _)⟩
  · rw [Finset.sum_range_succ,mul_add]
    push_cast
    exact add_le_add h.sum_le hle
  · rw [Finset.sum_range_succ,mul_add]
    push_cast
    linarith [h.le_sum]

lemma Partial.stop (h : Partial S (r / S) i term sum)
    (hzero : term * r / (S * i) = 0) :
    (sum : ℝ) ≤ S * exp (r / S) ∧ S * exp (r / S) - (2 * i + 4) ≤ (sum : ℝ) := by
  have hSr : (0 : ℝ) < S := cast_pos.2 hS
  have hi : (1 : ℝ) ≤ i := by exact_mod_cast h.pos
  have hx : (0 : ℝ) ≤ r / S := by positivity
  have hx1 : (r / S : ℝ) ≤ 1 := by
    rw [div_le_one hSr]
    exact_mod_cast (Nat.le_mul_of_pos_left r Nat.two_pos).trans hr
  obtain ⟨-,hge⟩ := h.next hS hr
  rw [hzero,cast_zero,sub_nonpos] at hge
  constructor
  · exact h.sum_le.trans (mul_le_mul_of_nonneg_left (sum_le_exp_of_nonneg hx i) hSr.le)
  · have hexp := exp_bound' hx hx1 h.pos
    have hrest : (r / S : ℝ) ^ i * (i + 1) / (i.factorial * i) ≤ 2 * ((r / S : ℝ) ^ i / i.factorial) := by
      have hterm : (0 : ℝ) ≤ (r / S : ℝ) ^ i / i.factorial := by positivity
      have hsplit : (r / S : ℝ) ^ i * (i + 1) / (i.factorial * i) = (r / S : ℝ) ^ i / i.factorial * ((i + 1) / i) := by
        field_simp
      have htwo : ((i : ℝ) + 1) / i ≤ 2 := by
        rw [div_le_iff₀ (by linarith)]
        linarith
      rw [hsplit]
      nlinarith
    have hall := mul_le_mul_of_nonneg_left (hexp.trans (add_le_add_right hrest _)) hSr.le
    rw [mul_add] at hall
    linarith [h.le_sum]

/-- The Taylor sum stops with an error of two units a term. -/
lemma Partial.taylorSum (hN : (S : ℝ) * (r / S) ^ N < 1) (hiN : i ≤ N)
    (hfuel : N < i + fuel) (h : Partial S (r / S) i term sum) :
    ∃ s, taylorSum S r fuel i term sum = some s ∧ S ≤ s ∧ (s : ℝ) ≤ S * exp (r / S) ∧
      S * exp (r / S) - (2 * N + 4) ≤ (s : ℝ) := by
  induction fuel generalizing i term sum with
  | zero => omega
  | succ fuel ih =>
    rw [ScaledExp.taylorSum]
    split_ifs with hzero
    · obtain ⟨hle,hge⟩ := h.stop hS hr hzero
      have hi : (i : ℝ) ≤ N := by exact_mod_cast hiN
      exact ⟨sum,rfl,h.scale_le,hle,by linarith⟩
    · apply ih _ (by omega) (h.step hS hr)
      by_contra hlast
      have hiN : i = N := by omega
      subst hiN
      have hone : (1 : ℝ) ≤ ((term * r / (S * i) : ℕ) : ℝ) := by exact_mod_cast one_le_iff_ne_zero.2 hzero
      have hfact : (S : ℝ) * ((r / S : ℝ) ^ i / i.factorial) ≤ S * (r / S) ^ i := by
        apply mul_le_mul_of_nonneg_left _ (cast_nonneg S)
        exact div_le_self (by positivity) (by exact_mod_cast i.factorial_pos)
      linarith [(h.next hS hr).1]

lemma taylorSum_bounds (hN : (S : ℝ) * (r / S) ^ N < 1) (hpos : 0 < N)
    (hfuel : N ≤ fuel) :
    ∃ s, taylorSum S r fuel 1 S S = some s ∧ S ≤ s ∧ (s : ℝ) ≤ S * exp (r / S) ∧
      S * exp (r / S) - (2 * N + 4) ≤ (s : ℝ) :=
  (partial_one S _).taylorSum hS hr hN hpos (by omega)

end Series

variable {S sum : ℕ}
lemma le_square (hS : 0 < S) (hsum : S ≤ sum) : S ≤ sum * sum / S := by
  rw [Nat.le_div_iff_mul_le hS]
  exact Nat.mul_le_mul hsum hsum

lemma le_squarings (hS : 0 < S) (k : ℕ) (hsum : S ≤ sum) : S ≤ squarings S k sum := by
  induction k generalizing sum with
  | zero => exact hsum
  | succ k ih => exact ih (le_square hS hsum)

lemma square_bounds (hS : 0 < S) (hsum : S ≤ sum) :
    ((sum * sum / S : ℕ) : ℝ) / S ≤ (sum / S : ℝ) ^ 2 ∧
      (sum / S : ℝ) ^ 2 * (1 - 1 / S) ≤ ((sum * sum / S : ℕ) : ℝ) / S := by
  have hSr : (0 : ℝ) < S := cast_pos.2 hS
  have hone : (1 : ℝ) ≤ (sum / S : ℝ) := by
    rw [one_le_div hSr]
    exact_mod_cast hsum
  obtain ⟨hle,hge⟩ := cast_div_bounds (sum * sum) hS
  have hquot : ((sum * sum : ℕ) : ℝ) / S / S = (sum / S : ℝ) ^ 2 := by
    push_cast
    field_simp
  constructor
  · rw [← hquot]
    exact div_le_div_of_nonneg_right hle hSr.le
  · have hdiv := div_le_div_of_nonneg_right hge hSr.le
    rw [sub_div,hquot] at hdiv
    have hunit : (0 : ℝ) < 1 / S := by positivity
    nlinarith [one_le_pow₀ hone (n := 2)]

/-- Each squaring loses at most one unit. -/
lemma squarings_bounds (hS : 0 < S) (k : ℕ) (hsum : S ≤ sum) :
    (squarings S k sum : ℝ) / S ≤ (sum / S : ℝ) ^ 2 ^ k ∧
      ((sum / S : ℝ) * (1 - 1 / S)) ^ 2 ^ k ≤ (squarings S k sum : ℝ) / S := by
  have hSr : (1 : ℝ) ≤ S := by exact_mod_cast hS
  have hunit : (0 : ℝ) ≤ 1 - 1 / S := by
    rw [sub_nonneg,div_le_one (by linarith)]
    exact hSr
  have hunit1 : (1 - 1 / S : ℝ) ≤ 1 := by
    have : (0 : ℝ) < 1 / S := by positivity
    linarith
  induction k generalizing sum with
  | zero =>
    rw [squarings,pow_zero,pow_one,pow_one]
    exact ⟨le_rfl,mul_le_of_le_one_right (by positivity) hunit1⟩
  | succ k ih =>
    obtain ⟨hle,hge⟩ := square_bounds hS hsum
    obtain ⟨hle',hge'⟩ := ih (le_square hS hsum)
    rw [squarings,pow_succ' 2 k,pow_mul,pow_mul]
    constructor
    · exact hle'.trans (pow_le_pow_left₀ (by positivity) hle _)
    · refine le_trans (pow_le_pow_left₀ (by positivity) ?_ _) hge'
      calc ((sum / S : ℝ) * (1 - 1 / S)) ^ 2 = (sum / S : ℝ) ^ 2 * (1 - 1 / S) * (1 - 1 / S) := by ring
        _ ≤ ((sum * sum / S : ℕ) : ℝ) / S * (1 - 1 / S) := mul_le_mul_of_nonneg_right hge hunit

lemma exp_le_one_add {t : ℝ} (h0 : 0 ≤ t) (h : t ≤ 1 / 2) : exp t ≤ 1 + 2 * t := by
  have hneg := one_sub_le_exp_neg t
  rw [exp_neg] at hneg
  have hpos : 0 < 1 - t := by linarith
  have hexp : exp t ≤ 1 / (1 - t) := by
    rw [le_div_iff₀ hpos]
    have := mul_le_mul_of_nonneg_left hneg (exp_pos t).le
    rwa [mul_inv_cancel₀ (exp_pos t).ne'] at this
  refine hexp.trans ?_
  rw [div_le_iff₀ hpos]
  nlinarith

/-- A sum that is the exponential of `a / 2 ^ k` up to half a unit in the argument and `c`
units in the value, squared `k` times. -/
lemma squarings_exp {r k s : ℕ} {a c : ℝ} (hS : 0 < S) (hs : S ≤ s) (hc : 0 ≤ c)
    (hr : |(r : ℝ) / S - a / 2 ^ k| ≤ 1 / (2 * S)) (hle : (s : ℝ) ≤ S * exp (r / S))
    (hge : S * exp (r / S) - c ≤ (s : ℝ)) (hfit : 2 ^ k * (c + 2) ≤ (S : ℝ)) :
    |(squarings S k s : ℝ) / S - exp a| ≤ exp a * (2 ^ k * (c + 2) / S) := by
  have hSr : (0 : ℝ) < S := cast_pos.2 hS
  have hk : (0 : ℝ) < 2 ^ k := by positivity
  obtain ⟨hlow,hhigh⟩ := abs_le.1 hr
  obtain ⟨hup,hdown⟩ := squarings_bounds hS k hs
  have hscale : a / 2 ^ k * ((2 ^ k : ℕ) : ℝ) = a := by
    push_cast
    field_simp
  have hpow : ∀ t : ℝ, exp t ^ 2 ^ k = exp (t * ((2 ^ k : ℕ) : ℝ)) := by
    intro t
    rw [← exp_nat_mul,mul_comm]
  have hunits : 2 ^ k / (S : ℝ) ≤ 2 ^ k * (c + 2) / S := by
    apply div_le_div_of_nonneg_right _ hSr.le
    nlinarith
  rw [abs_le]
  constructor
  · have hsS : exp (r / S) * (1 - c / S) ≤ (s : ℝ) / S := by
      have hone : 1 ≤ exp ((r : ℝ) / S) := one_le_exp (by positivity)
      have hdiv : exp (r / S) - c / S ≤ (s : ℝ) / S := by
        rw [le_div_iff₀ hSr,sub_mul,div_mul_cancel₀ _ hSr.ne']
        linarith
      have hcS : 0 ≤ c / S := by positivity
      nlinarith
    have hexp : exp (a / 2 ^ k) * (1 - 1 / (2 * S)) ≤ exp (r / S) := by
      have hneg := one_sub_le_exp_neg (1 / (2 * (S : ℝ)))
      calc exp (a / 2 ^ k) * (1 - 1 / (2 * S)) ≤ exp (a / 2 ^ k) * exp (-(1 / (2 * S))) :=
            mul_le_mul_of_nonneg_left hneg (exp_pos _).le
        _ = exp (a / 2 ^ k - 1 / (2 * S)) := by rw [← exp_add,sub_eq_add_neg]
        _ ≤ exp (r / S) := exp_le_exp.2 (by linarith)
    have hfactor : exp (a / 2 ^ k) * (1 - (c + 2) / S) ≤ (s : ℝ) / S * (1 - 1 / S) := by
      have hcS : 0 ≤ 1 - c / S := by
        rw [sub_nonneg,div_le_one hSr]
        nlinarith [one_le_pow₀ (one_le_two (α := ℝ)) (n := k)]
      have hS1 : (1 : ℝ) ≤ S := by exact_mod_cast hS
      have hu : 0 ≤ 1 - 1 / (S : ℝ) := by
        rw [sub_nonneg,div_le_one hSr]
        exact hS1
      have hu0 : 0 < 1 / (S : ℝ) := by positivity
      have hcu : 0 ≤ c / S := by positivity
      have hhalf : 1 / (2 * (S : ℝ)) = 1 / S / 2 := by ring
      calc exp (a / 2 ^ k) * (1 - (c + 2) / S)
          ≤ exp (a / 2 ^ k) * ((1 - 1 / (2 * S)) * (1 - c / S) * (1 - 1 / S)) := by
            apply mul_le_mul_of_nonneg_left _ (exp_pos _).le
            rw [add_div,hhalf,show (2 : ℝ) / S = 2 * (1 / S) by ring]
            have h1 : 0 ≤ c / S * (1 / S) := by positivity
            have h2 : 0 ≤ (1 / S / 2) * (c / S + (1 / S)) := by positivity
            nlinarith [mul_nonneg hu0.le (mul_nonneg hu0.le hcS)]
        _ = exp (a / 2 ^ k) * (1 - 1 / (2 * S)) * (1 - c / S) * (1 - 1 / S) := by ring
        _ ≤ exp (r / S) * (1 - c / S) * (1 - 1 / S) :=
            mul_le_mul_of_nonneg_right (mul_le_mul_of_nonneg_right hexp hcS) hu
        _ ≤ (s : ℝ) / S * (1 - 1 / S) := mul_le_mul_of_nonneg_right hsS hu
    have hshort : (c + 2) / S ≤ 1 := by
      rw [div_le_one hSr]
      nlinarith [one_le_pow₀ (one_le_two (α := ℝ)) (n := k)]
    have hbern := one_add_mul_le_pow (show -2 ≤ -((c + 2) / (S : ℝ)) by linarith) (2 ^ k)
    have hpowers := pow_le_pow_left₀ (mul_nonneg (exp_pos _).le (sub_nonneg.2 hshort)) hfactor (2 ^ k)
    rw [mul_pow,hpow,hscale] at hpowers
    have hscaled := mul_le_mul_of_nonneg_left hbern (exp_pos a).le
    push_cast at hscaled
    have hsplit : (2 : ℝ) ^ k * (c + 2) / S = 2 ^ k * ((c + 2) / S) := mul_div_assoc _ _ _
    rw [hsplit]
    rw [← sub_eq_add_neg] at hscaled
    linarith
  · have hsS : (s : ℝ) / S ≤ exp (r / S) := by
      rw [div_le_iff₀ hSr,mul_comm]
      exact hle
    have hhalf : 2 ^ k / (2 * (S : ℝ)) ≤ 1 / 2 := by
      rw [div_le_div_iff₀ (by linarith) two_pos]
      nlinarith
    have hargument : (r : ℝ) / S * ((2 ^ k : ℕ) : ℝ) ≤ a + 2 ^ k / (2 * S) := by
      have hmul := mul_le_mul_of_nonneg_right hhigh (cast_nonneg (α := ℝ) (2 ^ k))
      rw [sub_mul,hscale] at hmul
      have hunit : 1 / (2 * (S : ℝ)) * ((2 ^ k : ℕ) : ℝ) = 2 ^ k / (2 * S) := by
        push_cast
        ring
      rw [hunit] at hmul
      linarith
    have hsmall := exp_le_one_add (by positivity) hhalf
    have hexp : (squarings S k s : ℝ) / S ≤ exp a * (1 + 2 * (2 ^ k / (2 * S))) := by
      calc (squarings S k s : ℝ) / S ≤ ((s : ℝ) / S) ^ 2 ^ k := hup
        _ ≤ exp (r / S) ^ 2 ^ k := pow_le_pow_left₀ (by positivity) hsS _
        _ = exp ((r : ℝ) / S * ((2 ^ k : ℕ) : ℝ)) := hpow _
        _ ≤ exp (a + 2 ^ k / (2 * S)) := exp_le_exp.2 hargument
        _ = exp a * exp (2 ^ k / (2 * S)) := exp_add _ _
        _ ≤ exp a * (1 + 2 * (2 ^ k / (2 * S))) := mul_le_mul_of_nonneg_left hsmall (exp_pos a).le
    have hdouble : 2 * (2 ^ k / (2 * (S : ℝ))) = 2 ^ k / S := by
      field_simp
    rw [hdouble,mul_add,mul_one] at hexp
    have hbound := mul_le_mul_of_nonneg_left hunits (exp_pos a).le
    linarith

end DataStreams.ScaledExp
