import Mathlib.Data.BitVec
import Mathlib.Data.List.GetD
import Mathlib.Tactic

/-! Strings of bytes with numbers in network order in them, and padding to words of four bytes. -/

abbrev Bytes := List (BitVec 8)

namespace Bytes

/-- The number in the two bytes from an offset on. Bytes behind the end count as zero. -/
def u16 (p : Bytes) (o : ℕ) : ℕ := (p.getD o 0).toNat * 256 + (p.getD (o + 1) 0).toNat

theorem u16_lt (p : Bytes) (o : ℕ) : p.u16 o < 65536 := by
  have h := (p.getD o 0).isLt
  have h' := (p.getD (o + 1) 0).isLt
  unfold u16
  omega

def u32 (p : Bytes) (o : ℕ) : ℕ := p.u16 o * 65536 + p.u16 (o + 2)

def piece (p : Bytes) (o n : ℕ) : Option Bytes :=
  if n = 0 ∨ p.length < o + n then none else some ((p.drop o).take n)

theorem piece_isSome_iff {p : Bytes} {o n : ℕ} : (p.piece o n).isSome ↔ 0 < n ∧ o + n ≤ p.length := by
  unfold piece
  split
  · simp only [Option.isSome_none, Bool.false_eq_true, false_iff]
    omega
  · simp only [Option.isSome_some, true_iff]
    omega

theorem piece_eq_none_iff {p : Bytes} {o n : ℕ} : p.piece o n = none ↔ n = 0 ∨ p.length < o + n := by
  rw [← Option.not_isSome_iff_eq_none, piece_isSome_iff]
  omega

def size32 (n : ℕ) : ℕ := (n + 3) / 4 * 4

theorem le_size32 (n : ℕ) : n ≤ size32 n := by
  unfold size32
  omega

theorem four_le_size32 {n : ℕ} (h : 0 < n) : 4 ≤ size32 n := by
  unfold size32
  omega

def enc16 (n : ℕ) : Bytes := [BitVec.ofNat 8 (n / 256), BitVec.ofNat 8 n]

@[simp] theorem length_enc16 (n : ℕ) : (enc16 n).length = 2 := rfl

theorem u16_enc16 {n : ℕ} (h : n < 65536) (q : Bytes) : (enc16 n ++ q).u16 0 = n := by
  change (n / 256) % 256 * 256 + n % 256 = n
  omega

theorem u16_append_left {p : Bytes} {o : ℕ} (h : o + 2 ≤ p.length) (q : Bytes) :
    (p ++ q).u16 o = p.u16 o := by
  unfold u16
  rw [List.getD_append _ _ _ _ (by omega), List.getD_append _ _ _ _ (by omega)]

theorem u16_append_right (p q : Bytes) (o : ℕ) : (p ++ q).u16 (p.length + o) = q.u16 o := by
  unfold u16
  rw [List.getD_append_right _ _ _ _ (by omega), List.getD_append_right _ _ _ _ (by omega),
    Nat.add_sub_cancel_left, Nat.add_assoc, Nat.add_sub_cancel_left]

def read (p : Bytes) (o n : ℕ) : Bytes := (List.range n).map fun i => p.getD (o + i) 0

@[simp] theorem length_read (p : Bytes) (o n : ℕ) : (p.read o n).length = n := by
  simp [read]

theorem read_append_right (p q : Bytes) (o n : ℕ) : (p ++ q).read (p.length + o) n = q.read o n := by
  unfold read
  apply List.map_congr_left
  intro i _
  rw [List.getD_append_right _ _ _ _ (by omega), Nat.add_assoc, Nat.add_sub_cancel_left]

theorem read_append_left (p q : Bytes) : (p ++ q).read 0 p.length = p := by
  apply List.ext_getElem
  · simp
  · intro i _ hi
    simp only [read, List.getElem_map, List.getElem_range, Nat.zero_add]
    rw [List.getD_append _ _ _ _ hi, List.getD_eq_getElem _ _ hi]

def pad (p : Bytes) : Bytes := p ++ List.replicate (size32 p.length - p.length) 0

theorem length_pad (p : Bytes) : p.pad.length = size32 p.length := by
  have := le_size32 p.length
  rw [pad, List.length_append, List.length_replicate]
  omega

end Bytes
