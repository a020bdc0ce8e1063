import Mathlib

/-! Rounding to the nearest integer, halves away from zero. -/
namespace DataStreams
open Int

def halfAway (q : ℚ) : ℤ := if 0 ≤ q then ⌊q + 1 / 2⌋ else ⌈q - 1 / 2⌉

variable {q : ℚ} {n : ℤ}
lemma eq_halfAway_of_nonneg (h : 0 ≤ q) (hlow : q - 1 / 2 < n) (hhigh : (n : ℚ) ≤ q + 1 / 2) : n = halfAway q := by
  rw [halfAway,if_pos h,eq_comm,floor_eq_iff]
  constructor <;> linarith

lemma eq_halfAway_of_neg (h : q < 0) (hlow : q - 1 / 2 ≤ n) (hhigh : (n : ℚ) < q + 1 / 2) : n = halfAway q := by
  rw [halfAway,if_neg (not_le.2 h),eq_comm,ceil_eq_iff]
  constructor <;> linarith

lemma abs_halfAway_sub_le (q : ℚ) : |(halfAway q : ℚ) - q| ≤ 1 / 2 := by
  rw [abs_le,halfAway]
  split_ifs
  · constructor <;> linarith [floor_le (q + 1 / 2),lt_floor_add_one (q + 1 / 2)]
  · constructor <;> linarith [le_ceil (q - 1 / 2),ceil_lt_add_one (q - 1 / 2)]

lemma halfAway_mono : Monotone halfAway := by
  intro p q hpq
  unfold halfAway
  split_ifs with hp hq hq
  · exact floor_le_floor (by linarith)
  · linarith
  · have hlow : ⌈p - 1 / 2⌉ ≤ 0 := ceil_le.2 (by push_cast; linarith)
    exact hlow.trans (floor_nonneg.2 (by linarith))
  · exact ceil_le_ceil (by linarith)

@[simp] lemma halfAway_intCast (n : ℤ) : halfAway n = n := by
  rcases le_or_gt 0 (n : ℚ) with h | h
  · exact (eq_halfAway_of_nonneg h (by linarith) (by linarith)).symm
  · exact (eq_halfAway_of_neg h (by linarith) (by linarith)).symm

/-- A number rounded to so many decimal places, which may be negative. -/
def roundedTo (places : ℤ) (q : ℚ) : ℚ := halfAway (q * 10 ^ places) * 10 ^ (-places)

variable {places : ℤ}
lemma roundedTo_mono : Monotone (roundedTo places) := by
  intro p q hpq
  have hunit : (0 : ℚ) < 10 ^ places := zpow_pos (by norm_num) _
  have hround := halfAway_mono (mul_le_mul_of_nonneg_right hpq hunit.le)
  exact mul_le_mul_of_nonneg_right (by exact_mod_cast hround) (zpow_pos (by norm_num) _).le

lemma roundedTo_intCast_mul (n : ℤ) : roundedTo places (n * 10 ^ (-places)) = n * 10 ^ (-places) := by
  have hone : (10 : ℚ) ^ (-places) * 10 ^ places = 1 := by
    rw [← zpow_add₀ (by norm_num),neg_add_cancel,zpow_zero]
  rw [roundedTo,mul_assoc,hone,mul_one,halfAway_intCast]

@[simp] lemma roundedTo_roundedTo (q : ℚ) : roundedTo places (roundedTo places q) = roundedTo places q :=
  roundedTo_intCast_mul _

lemma roundedTo_average {α v e low high : ℚ} (hα : 0 ≤ α) (hα' : α ≤ 1) (hv : low ≤ v ∧ v ≤ high)
    (he : roundedTo places low ≤ e ∧ e ≤ roundedTo places high) :
    roundedTo places low ≤ roundedTo places (v * α + e * (1 - α)) ∧
      roundedTo places (v * α + e * (1 - α)) ≤ roundedTo places high := by
  -- the average lies between a bound and its rounding, which are both rounded to the latter
  have hround : ∀ b, roundedTo places (min b (roundedTo places b)) = roundedTo places b ∧
      roundedTo places (max b (roundedTo places b)) = roundedTo places b := by
    intro b
    rw [roundedTo_mono.map_min,roundedTo_mono.map_max,roundedTo_roundedTo,min_self,max_self]
    exact ⟨rfl,rfl⟩
  constructor
  · rw [← (hround low).1]
    apply roundedTo_mono
    nlinarith [min_le_left low (roundedTo places low),min_le_right low (roundedTo places low)]
  · rw [← (hround high).2]
    apply roundedTo_mono
    nlinarith [le_max_left high (roundedTo places high),le_max_right high (roundedTo places high)]

end DataStreams
