import Mathlib

/-! Halley's iteration for the logarithm. Steps may be off by a little, and errors do not add
up. -/
namespace DataStreams
open Real

/-- One step in terms of the distance to the logarithm. -/
noncomputable def halley (δ : ℝ) : ℝ := 2 * (exp δ - 1) / (exp δ + 1)

namespace Halley
lemma exp_add_one_pos (δ : ℝ) : 0 < exp δ + 1 := by
  have := exp_pos δ
  linarith

lemma halley_neg (δ : ℝ) : halley (-δ) = -halley δ := by
  have hpos := exp_pos δ
  have hsum := exp_add_one_pos δ
  unfold halley
  rw [exp_neg]
  field_simp
  ring

lemma halley_nonneg {δ : ℝ} (h : 0 ≤ δ) : 0 ≤ halley δ := by
  have hone : 0 ≤ exp δ - 1 := sub_nonneg.2 (one_le_exp h)
  exact div_nonneg (by linarith) (exp_add_one_pos δ).le

lemma hasDerivAt_halley (δ : ℝ) : HasDerivAt halley (1 - (halley δ) ^ 2 / 4) δ := by
  have hsum := (exp_add_one_pos δ).ne'
  have hnum : HasDerivAt (fun t => 2 * (exp t - 1)) (2 * exp δ) δ :=
    ((Real.hasDerivAt_exp δ).sub_const 1).const_mul 2
  have hden : HasDerivAt (fun t => exp t + 1) (exp δ) δ := (Real.hasDerivAt_exp δ).add_const 1
  refine (hnum.div hden hsum).congr_deriv ?_
  unfold halley
  field_simp
  ring

lemma nonneg_of_hasDerivAt {f f' : ℝ → ℝ} (hf : ∀ t, HasDerivAt f (f' t) t) (hzero : f 0 = 0)
    (hderiv : ∀ t, 0 ≤ t → 0 ≤ f' t) {t : ℝ} (ht : 0 ≤ t) : 0 ≤ f t := by
  have hmono : MonotoneOn f (Set.Ici 0) := by
    apply monotoneOn_of_deriv_nonneg (convex_Ici 0)
    · exact fun s _ => (hf s).continuousAt.continuousWithinAt
    · exact fun s _ => (hf s).differentiableAt.differentiableWithinAt
    · intro s hs
      rw [interior_Ici] at hs
      rw [(hf s).deriv]
      exact hderiv s (le_of_lt hs)
  have hle := hmono (Set.mem_Ici.2 le_rfl) (Set.mem_Ici.2 ht) ht
  rwa [hzero] at hle

lemma halley_zero : halley 0 = 0 := by simp [halley]

lemma halley_le {δ : ℝ} (h : 0 ≤ δ) : halley δ ≤ δ := by
  have hderiv : ∀ t, HasDerivAt (fun t => t - halley t) (halley t ^ 2 / 4) t := by
    intro t
    refine ((hasDerivAt_id t).sub (hasDerivAt_halley t)).congr_deriv ?_
    ring
  have hzero : (0 : ℝ) - halley 0 = 0 := by rw [halley_zero,sub_zero]
  have hle := nonneg_of_hasDerivAt hderiv hzero (fun t _ => by positivity) h
  linarith

lemma sub_halley_le {δ : ℝ} (h : 0 ≤ δ) : δ - halley δ ≤ δ ^ 3 / 12 := by
  have hderiv : ∀ t, HasDerivAt (fun t => t ^ 3 / 12 - (t - halley t)) (t ^ 2 / 4 - halley t ^ 2 / 4) t := by
    intro t
    have hcube : HasDerivAt (fun t : ℝ => t ^ 3 / 12) (t ^ 2 / 4) t := by
      refine ((hasDerivAt_pow 3 t).div_const 12).congr_deriv ?_
      norm_num
      ring
    refine (hcube.sub ((hasDerivAt_id t).sub (hasDerivAt_halley t))).congr_deriv ?_
    ring
  have hzero : (0 : ℝ) ^ 3 / 12 - (0 - halley 0) = 0 := by
    rw [halley_zero]
    norm_num
  have hnonneg : ∀ t : ℝ, 0 ≤ t → 0 ≤ t ^ 2 / 4 - halley t ^ 2 / 4 := by
    intro t ht
    have hsquare := pow_le_pow_left₀ (halley_nonneg ht) (halley_le ht) 2
    linarith
  have hle := nonneg_of_hasDerivAt hderiv hzero hnonneg h
  linarith

lemma abs_sub_halley_le (δ : ℝ) : |δ - halley δ| ≤ |δ| ^ 3 / 12 := by
  have key : ∀ t, 0 ≤ t → |t - halley t| ≤ |t| ^ 3 / 12 := by
    intro t ht
    rw [abs_of_nonneg (sub_nonneg.2 (halley_le ht)),abs_of_nonneg ht]
    exact sub_halley_le ht
  rcases le_total 0 δ with h | h
  · exact key δ h
  · have hneg := key (-δ) (neg_nonneg.2 h)
    rw [halley_neg,← neg_sub',abs_neg,abs_neg] at hneg
    exact hneg

lemma abs_halley_le (δ : ℝ) : |halley δ| ≤ |δ| := by
  have key : ∀ t, 0 ≤ t → |halley t| ≤ |t| := by
    intro t ht
    rw [abs_of_nonneg (halley_nonneg ht),abs_of_nonneg ht]
    exact halley_le ht
  rcases le_total 0 δ with h | h
  · exact key δ h
  · have hneg := key (-δ) (neg_nonneg.2 h)
    rwa [halley_neg,abs_neg,abs_neg] at hneg

variable {δ s ν : ℝ}
lemma abs_sub_step_le (hs : |s - halley δ| ≤ ν) : |δ - s| ≤ |δ| ^ 3 / 12 + ν := by
  calc |δ - s| = |(δ - halley δ) - (s - halley δ)| := by ring_nf
    _ ≤ |δ - halley δ| + |s - halley δ| := abs_sub _ _
    _ ≤ |δ| ^ 3 / 12 + ν := add_le_add (abs_sub_halley_le δ) hs

lemma abs_step_le (hs : |s - halley δ| ≤ ν) : |s| ≤ |δ| + ν := by
  calc |s| = |halley δ + (s - halley δ)| := by ring_nf
    _ ≤ |halley δ| + |s - halley δ| := abs_add_le _ _
    _ ≤ |δ| + ν := add_le_add (abs_halley_le δ) hs

/-- A small step was taken from nearby. -/
lemma abs_le_of_step (hδ : |δ| ≤ 6 / 5) (hs : |s - halley δ| ≤ ν) : |δ| ≤ 25 / 22 * (|s| + ν) := by
  have hleft := abs_sub_step_le hs
  have habs : |δ| ≤ |δ - s| + |s| := by
    calc |δ| = |(δ - s) + s| := by ring_nf
      _ ≤ |δ - s| + |s| := abs_add_le _ _
  have hcube : |δ| ^ 3 ≤ 36 / 25 * |δ| := by
    have hsq : |δ| ^ 2 ≤ (6 / 5) ^ 2 := pow_le_pow_left₀ (abs_nonneg δ) hδ 2
    calc |δ| ^ 3 = |δ| ^ 2 * |δ| := by ring
      _ ≤ (6 / 5) ^ 2 * |δ| := mul_le_mul_of_nonneg_right hsq (abs_nonneg δ)
      _ = 36 / 25 * |δ| := by norm_num
  linarith

/-- The step that the estimate `y` of `log m` asks for. -/
lemma step_eq {m : ℝ} (hm : 0 < m) (y : ℝ) : 2 * (m - exp y) / (m + exp y) = halley (Real.log m - y) := by
  have hy := exp_pos y
  unfold halley
  rw [exp_sub,exp_log hm]
  field_simp

/-- An error in the exponential carries over to the step. -/
lemma abs_step_sub_step_le {m e e' : ℝ} (hm : 0 < m) (he : 0 ≤ e) (he' : 0 ≤ e') :
    |2 * (m - e) / (m + e) - 2 * (m - e') / (m + e')| ≤ 4 * |e - e'| / m := by
  have hsum : 0 < m + e := by linarith
  have hsum' : 0 < m + e' := by linarith
  have heq : 2 * (m - e) / (m + e) - 2 * (m - e') / (m + e') = -(4 * m * (e - e') / ((m + e) * (m + e'))) := by
    field_simp
    ring
  rw [heq,abs_neg,abs_div,abs_mul,abs_of_pos (by positivity : (0 : ℝ) < 4 * m),
    abs_of_pos (mul_pos hsum hsum'),div_le_div_iff₀ (mul_pos hsum hsum') hm]
  have hprod : m * m ≤ (m + e) * (m + e') := mul_le_mul (by linarith) (by linarith) hm.le hsum.le
  calc 4 * m * |e - e'| * m = 4 * |e - e'| * (m * m) := by ring
    _ ≤ 4 * |e - e'| * ((m + e) * (m + e')) := mul_le_mul_of_nonneg_left hprod (by positivity)

end Halley
end DataStreams
