import Sctp.Lib.Serial

/-! Transmission and stream sequence numbers: the comparison macros of `sctp_constants.h`. -/
namespace Sctp

abbrev Tsn := BitVec 32
abbrev Ssn := BitVec 16

def maxTsn : Tsn := 0xffffffff

def tsnGt (a b : Tsn) : Bool := Serial.gt a b
def tsnGe (a b : Tsn) : Bool := Serial.ge a b
def ssnGe (a b : Ssn) : Bool := Serial.ge a b

/-- `SCTP_CALC_TSN_TO_GAP`: the offset of a TSN in a map that starts at `mappingTsn`. -/
def calcTsnToGap (tsn mappingTsn : Tsn) : Tsn :=
  if mappingTsn ≤ tsn then tsn - mappingTsn else (maxTsn - mappingTsn) + tsn + 1

@[simp] theorem calcTsnToGap_eq (tsn mappingTsn : Tsn) :
    calcTsnToGap tsn mappingTsn = tsn - mappingTsn := by
  unfold calcTsnToGap maxTsn
  split
  · rfl
  · bv_omega

theorem tsnGt_iff (a b : Tsn) : tsnGt a b = true ↔ 0 < (a - b).toInt :=
  Serial.gt_iff_toInt (by norm_num) a b

theorem tsnGe_iff (a b : Tsn) : tsnGe a b = true ↔ 0 ≤ (a - b).toInt :=
  Serial.ge_iff_toInt (by norm_num) a b

/-- Comparison of two TSNs through their signed distances from a third. -/
theorem tsnGt_iff_dist (c a b : Tsn)
    (h : Serial.dist c a - Serial.dist c b < 2 ^ 31 ∧
      -2 ^ 31 ≤ Serial.dist c a - Serial.dist c b) :
    tsnGt a b = true ↔ Serial.dist c b < Serial.dist c a :=
  Serial.gt_iff_dist (by norm_num) c a b h.2 h.1

theorem tsnGe_iff_dist (c a b : Tsn)
    (h : Serial.dist c a - Serial.dist c b < 2 ^ 31 ∧
      -2 ^ 31 ≤ Serial.dist c a - Serial.dist c b) :
    tsnGe a b = true ↔ Serial.dist c b ≤ Serial.dist c a :=
  Serial.ge_iff_dist (by norm_num) c a b h.2 h.1

theorem dist_inj {b m m' : Tsn} (h : Serial.dist b m = Serial.dist b m') : m = m' := by
  have : m - b = m' - b := BitVec.eq_of_toInt_eq h
  bv_omega

end Sctp
