import Mathlib.Data.BitVec
import Mathlib.Tactic

/-! Serial number arithmetic on `w`-bit counters that wrap: a number is greater than
another when it is reached from it by fewer than half of all steps. -/
namespace Serial

variable {w : ℕ}

/-- The two disjuncts cover the pairs whose difference wraps and those where it does not. -/
def gt (a b : BitVec w) : Bool :=
  (decide (a < b) && decide (2 ^ (w - 1) < (b - a).toNat)) ||
    (decide (b < a) && decide ((a - b).toNat < 2 ^ (w - 1)))

def ge (a b : BitVec w) : Bool := gt a b || a == b

/-- The number `n` steps after `a`. -/
def advance (a : BitVec w) (n : ℕ) : BitVec w := a + BitVec.ofNat w n

theorem toNat_sub_swap {a b : BitVec w} (h : a ≠ b) :
    (a - b).toNat + (b - a).toNat = 2 ^ w := by
  have ha := a.isLt
  have hb := b.isLt
  have hne : a.toNat ≠ b.toNat := fun e => h (BitVec.eq_of_toNat_eq e)
  rw [BitVec.toNat_sub, BitVec.toNat_sub]
  rcases Nat.lt_or_gt_of_ne hne with hlt | hlt
  · rw [Nat.mod_eq_of_lt (by omega)]
    rw [show 2 ^ w - a.toNat + b.toNat = 2 ^ w + (b.toNat - a.toNat) by omega,
      Nat.add_mod_left, Nat.mod_eq_of_lt (by omega)]
    omega
  · rw [Nat.mod_eq_of_lt (a := 2 ^ w - a.toNat + b.toNat) (by omega)]
    rw [show 2 ^ w - b.toNat + a.toNat = 2 ^ w + (a.toNat - b.toNat) by omega,
      Nat.add_mod_left, Nat.mod_eq_of_lt (by omega)]
    omega

theorem gt_iff (hw : 0 < w) (a b : BitVec w) :
    gt a b = true ↔ 0 < (a - b).toNat ∧ (a - b).toNat < 2 ^ (w - 1) := by
  have hp : 2 ^ w = 2 * 2 ^ (w - 1) := by
    rw [← pow_succ', Nat.sub_add_cancel hw]
  by_cases hab : a = b
  · subst hab
    simp [gt]
  have hs := toNat_sub_swap hab
  have hpos : 0 < (a - b).toNat := by
    rcases Nat.eq_zero_or_pos (a - b).toNat with h0 | h0
    · have := (b - a).isLt
      omega
    · exact h0
  simp only [gt, Bool.or_eq_true, Bool.and_eq_true, decide_eq_true_eq, BitVec.lt_def]
  constructor
  · rintro (⟨_, h⟩ | ⟨_, h⟩)
    · exact ⟨hpos, by omega⟩
    · exact ⟨hpos, h⟩
  · rintro ⟨_, h⟩
    rcases Nat.lt_trichotomy a.toNat b.toNat with hlt | heq | hlt
    · exact Or.inl ⟨hlt, by omega⟩
    · exact absurd (BitVec.eq_of_toNat_eq heq) hab
    · exact Or.inr ⟨hlt, h⟩

theorem ge_iff (hw : 0 < w) (a b : BitVec w) :
    ge a b = true ↔ (a - b).toNat < 2 ^ (w - 1) := by
  have hp : 0 < 2 ^ (w - 1) := by positivity
  simp only [ge, Bool.or_eq_true, gt_iff hw, beq_iff_eq]
  constructor
  · rintro (h | rfl)
    · exact h.2
    · simp
  · intro h
    by_cases hab : a = b
    · exact Or.inr hab
    · have hs := toNat_sub_swap hab
      have := (b - a).isLt
      exact Or.inl ⟨by omega, h⟩

@[simp] theorem gt_self (a : BitVec w) : gt a a = false := by simp [gt]

@[simp] theorem ge_self (a : BitVec w) : ge a a = true := by simp [ge]

@[simp] theorem advance_zero (a : BitVec w) : advance a 0 = a := by simp [advance]

theorem advance_add (a : BitVec w) (m n : ℕ) : advance (advance a m) n = advance a (m + n) := by
  simp only [advance, BitVec.add_assoc, BitVec.ofNat_add]

theorem toNat_advance_sub (a : BitVec w) {n : ℕ} (h : n < 2 ^ w) :
    (advance a n - a).toNat = n := by
  rw [advance, BitVec.add_comm, BitVec.add_sub_cancel, BitVec.toNat_ofNat, Nat.mod_eq_of_lt h]

theorem advance_toNat_sub (a b : BitVec w) : advance a (b - a).toNat = b := by
  rw [advance, BitVec.ofNat_toNat, BitVec.setWidth_eq, BitVec.add_comm, BitVec.sub_add_cancel]

theorem advance_inj {a : BitVec w} {m n : ℕ} (hm : m < 2 ^ w) (hn : n < 2 ^ w) :
    advance a m = advance a n ↔ m = n := by
  constructor
  · intro h
    rw [← toNat_advance_sub a hm, h, toNat_advance_sub a hn]
  · rintro rfl
    rfl

/-- The signed number of steps from `c` to `a`, the shorter way round. -/
def dist (c a : BitVec w) : ℤ := (a - c).toInt

theorem dist_eq_toNat {c a : BitVec w} (h : (a - c).toNat < 2 ^ (w - 1)) :
    dist c a = (a - c).toNat := by
  cases w with
  | zero => simp [dist, BitVec.of_length_zero]
  | succ w =>
    rw [dist, BitVec.toInt_eq_toNat_cond, if_pos]
    rw [pow_succ]
    simp only [Nat.add_sub_cancel] at h
    omega

theorem dist_sub (hw : 0 < w) (c a b : BitVec w) {k : ℤ} (hk : dist c a - dist c b = k)
    (h1 : -2 ^ (w - 1) ≤ k) (h2 : k < 2 ^ (w - 1)) : (a - b).toInt = k := by
  have hsub : a - b = (a - c) - (b - c) := by
    apply BitVec.eq_of_toInt_eq
    simp only [BitVec.toInt_sub, Int.bmod_sub_bmod, Int.sub_bmod_bmod]
    congr 1
    ring
  have hp : (2 : ℤ) ^ w = 2 * 2 ^ (w - 1) := by
    rw [← pow_succ', Nat.sub_add_cancel hw]
  have hpn : ((2 ^ w : ℕ) : ℤ) = 2 * 2 ^ (w - 1) := by push_cast; exact hp
  rw [hsub, BitVec.toInt_sub]
  simp only [dist] at hk
  rw [hk]
  apply Int.bmod_eq_of_le_mul_two
  · rw [hpn]; linarith
  · rw [hpn]; linarith

theorem gt_iff_toInt (hw : 0 < w) (a b : BitVec w) : gt a b = true ↔ 0 < (a - b).toInt := by
  have hp : 2 ^ w = 2 * 2 ^ (w - 1) := by rw [← pow_succ', Nat.sub_add_cancel hw]
  have hlt := (a - b).isLt
  rw [gt_iff hw, BitVec.toInt_eq_toNat_cond]
  split_ifs with h <;> omega

theorem ge_iff_toInt (hw : 0 < w) (a b : BitVec w) : ge a b = true ↔ 0 ≤ (a - b).toInt := by
  have hp : 2 ^ w = 2 * 2 ^ (w - 1) := by rw [← pow_succ', Nat.sub_add_cancel hw]
  have hlt := (a - b).isLt
  rw [ge_iff hw, BitVec.toInt_eq_toNat_cond]
  split_ifs with h <;> omega

/-- Numbers at signed distances less than half the circle apart compare like the distances. -/
theorem gt_iff_dist (hw : 0 < w) (c a b : BitVec w) (h1 : -2 ^ (w - 1) ≤ dist c a - dist c b)
    (h2 : dist c a - dist c b < 2 ^ (w - 1)) : gt a b = true ↔ dist c b < dist c a := by
  rw [gt_iff_toInt hw, dist_sub hw c a b rfl h1 h2]
  exact Int.sub_pos

theorem ge_iff_dist (hw : 0 < w) (c a b : BitVec w) (h1 : -2 ^ (w - 1) ≤ dist c a - dist c b)
    (h2 : dist c a - dist c b < 2 ^ (w - 1)) : ge a b = true ↔ dist c b ≤ dist c a := by
  rw [ge_iff_toInt hw, dist_sub hw c a b rfl h1 h2]
  exact Int.sub_nonneg

theorem dist_advance (a : BitVec w) {n : ℕ} (h : n < 2 ^ (w - 1)) : dist a (advance a n) = n := by
  have hw : n < 2 ^ w := lt_of_lt_of_le h (Nat.pow_le_pow_right (by norm_num) (by omega))
  have ht := toNat_advance_sub a hw
  rw [dist_eq_toNat (by rw [ht]; exact h), ht]

@[simp] theorem dist_self (a : BitVec w) : dist a a = 0 := by simp [dist]

end Serial
