import Mathlib.Analysis.SpecialFunctions.Exp
import Mathlib.Tactic.Positivity

/-! A geometric sequence computed by rounded steps with an approximate ratio. -/
namespace DataStreams.RoundedSteps
variable {x : ℕ → ℝ} {c ρ ε u W p : ℝ}
lemma abs_ratio_le (hρ : 0 ≤ ρ) (hρW : ρ ≤ W) (hW : 1 ≤ W) (hε : 0 ≤ ε) (hc : |c - ρ| ≤ ε) : |c| ≤ W * (1 + ε) := by
  calc |c| = |(c - ρ) + ρ| := by ring_nf
    _ ≤ |c - ρ| + |ρ| := abs_add_le _ _
    _ ≤ ε + ρ := by
        rw [abs_of_nonneg hρ]
        linarith
    _ ≤ W * (1 + ε) := by nlinarith

lemma abs_step_sub_le {y z t : ℝ} (ht : 0 ≤ t) (hc : |c - ρ| ≤ ε) (hstep : |z - y * c| ≤ u) :
    |z - t * ρ| ≤ u + |y - t| * |c| + t * ε := by
  calc |z - t * ρ| = |(z - y * c) + (y - t) * c + t * (c - ρ)| := by ring_nf
    _ ≤ |z - y * c| + |(y - t) * c| + |t * (c - ρ)| := (abs_add_le _ _).trans (add_le_add (abs_add_le _ _) le_rfl)
    _ ≤ u + |y - t| * |c| + t * ε := by
        rw [abs_mul,abs_mul t,abs_of_nonneg ht]
        exact add_le_add (add_le_add hstep le_rfl) (mul_le_mul_of_nonneg_left hc ht)

/-- Rounding errors of a geometric progression grow no faster than it does. -/
lemma abs_sub_geometric_le (hp : 0 ≤ p) (hρ : 0 ≤ ρ) (hρW : ρ ≤ W) (hW : 1 ≤ W) (hε : 0 ≤ ε) (hu : 0 ≤ u)
    (hc : |c - ρ| ≤ ε) (hzero : x 0 = p) (hstep : ∀ k, |x (k + 1) - x k * c| ≤ u) (k : ℕ) :
    |x k - p * ρ ^ k| ≤ k * (W ^ k * (u + p * ε) * (1 + ε) ^ k) := by
  induction k with
  | zero => simp [hzero]
  | succ k ih =>
    have hWk : (1 : ℝ) ≤ W ^ (k + 1) := one_le_pow₀ hW
    have hgrow : (1 : ℝ) ≤ (1 + ε) ^ (k + 1) := one_le_pow₀ (by linarith)
    have hρk : ρ ^ k ≤ W ^ (k + 1) := (pow_le_pow_left₀ hρ hρW k).trans (pow_le_pow_right₀ hW (Nat.le_succ k))
    have hone := abs_step_sub_le (mul_nonneg hp (pow_nonneg hρ k)) hc (hstep k)
    have hcarried : |x k - p * ρ ^ k| * |c| ≤ k * (W ^ (k + 1) * (u + p * ε) * (1 + ε) ^ (k + 1)) := by
      calc |x k - p * ρ ^ k| * |c| ≤ k * (W ^ k * (u + p * ε) * (1 + ε) ^ k) * (W * (1 + ε)) :=
            mul_le_mul ih (abs_ratio_le hρ hρW hW hε hc) (abs_nonneg _) (by positivity)
        _ = k * (W ^ (k + 1) * (u + p * ε) * (1 + ε) ^ (k + 1)) := by ring
    have hnew : u + p * ρ ^ k * ε ≤ W ^ (k + 1) * (u + p * ε) * (1 + ε) ^ (k + 1) := by
      calc u + p * ρ ^ k * ε ≤ W ^ (k + 1) * u + p * W ^ (k + 1) * ε :=
            add_le_add (le_mul_of_one_le_left hu hWk)
              (mul_le_mul_of_nonneg_right (mul_le_mul_of_nonneg_left hρk hp) hε)
        _ = W ^ (k + 1) * (u + p * ε) := by ring
        _ ≤ W ^ (k + 1) * (u + p * ε) * (1 + ε) ^ (k + 1) := le_mul_of_one_le_right (by positivity) hgrow
    rw [pow_succ ρ,← mul_assoc]
    push_cast
    linarith

lemma one_add_pow_le {k : ℕ} (hε : 0 ≤ ε) (h : k * ε ≤ 1 / 20) : (1 + ε) ^ k ≤ 11 / 10 := by
  have hexp : (1 + ε) ^ k ≤ Real.exp (k * ε) := by
    rw [Real.exp_nat_mul]
    exact pow_le_pow_left₀ (by linarith) (by linarith [Real.add_one_le_exp ε]) k
  have hsmall : |(k : ℝ) * ε| ≤ 1 := by
    rw [abs_of_nonneg (by positivity)]
    linarith
  have hbound := (abs_le.1 (Real.abs_exp_sub_one_le hsmall)).2
  rw [abs_of_nonneg (by positivity)] at hbound
  linarith

end DataStreams.RoundedSteps
