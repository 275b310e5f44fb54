import Mathlib.Tactic.Linarith

/-! Moving averages kept as scaled integers, with a truncating division. -/
namespace Smooth

variable {n a r m b g : ℤ}

/-- `n` times the average, after a sample `r` of weight `1 / n`. -/
def mean (n a r : ℤ) : ℤ := a + (r - a / n)

/-- The average stays above what bounds it and the sample from below. -/
theorem le_mean_ediv (hn : 0 < n) (ha : m ≤ a / n) (hr : m ≤ r) : m ≤ mean n a r / n := by
  have hsplit : n * (a / n) + a % n = a := Int.mul_ediv_add_emod a n
  have hrest : 0 ≤ a % n := Int.emod_nonneg a hn.ne'
  have hweight : 0 ≤ (n - 1) * (a / n - m) :=
    mul_nonneg (by linarith) (by linarith)
  refine Int.le_ediv_of_mul_le hn ?_
  unfold mean
  linarith

/-- The average stays below what bounds it and the sample from above. -/
theorem mean_ediv_le (hn : 0 < n) (ha : a / n ≤ b) (hr : r ≤ b) : mean n a r / n ≤ b := by
  have hsplit : n * (a / n) + a % n = a := Int.mul_ediv_add_emod a n
  have hrest : a % n < n := Int.emod_lt_of_pos a hn
  have hweight : 0 ≤ (n - 1) * (b - a / n) :=
    mul_nonneg (by linarith) (by linarith)
  refine Int.lt_add_one_iff.1 (Int.ediv_lt_of_lt_mul hn ?_)
  unfold mean
  linarith

/-- The scaled average itself: a start above the samples only comes down. -/
theorem mean_le_max (hn : 0 < n) (hr : r ≤ b) (ha : a ≤ max (n * b) g) :
    mean n a r ≤ max (n * b) g := by
  have hsplit : n * (a / n) + a % n = a := Int.mul_ediv_add_emod a n
  have hrest : a % n < n := Int.emod_lt_of_pos a hn
  unfold mean
  by_cases hq : b ≤ a / n
  · linarith
  · have hq : a / n + 1 ≤ b := by linarith [Int.not_le.1 hq]
    have hweight : 0 ≤ (n - 1) * (b - (a / n + 1)) :=
      mul_nonneg (by linarith) (by linarith)
    exact le_max_of_le_left (by linarith)

theorem mean_pos (hn : 1 < n) (ha : 0 < a) (hr : 0 ≤ r) : 0 < mean n a r := by
  have hless : a / n < a := Int.ediv_lt_of_lt_mul (by linarith) (by nlinarith)
  unfold mean
  linarith

end Smooth
