import Mathlib.Data.BitVec
import Mathlib.Tactic

/-! Table-driven checksums on a 32-bit register, eight bytes at a time. A table that is additive for exclusive
or makes the shift of the register additive, and tables that are shifts of one another take the register and
the bytes of a group apart. -/
namespace Slicing

def low (b : BitVec 8) : BitVec 32 := b.setWidth 32

def shift (t : BitVec 8 → BitVec 32) (r : BitVec 32) : BitVec 32 := t (r.setWidth 8) ^^^ (r >>> 8)

def step (t : BitVec 8 → BitVec 32) (crc : BitVec 32) (b : BitVec 8) : BitVec 32 :=
  t ((crc ^^^ low b).setWidth 8) ^^^ (crc >>> 8)

def Additive (t : BitVec 8 → BitVec 32) : Prop := ∀ a b, t (a ^^^ b) = t a ^^^ t b

def Shifts (t t₁ t₂ : BitVec 8 → BitVec 32) : Prop := ∀ b, t₂ b = shift t (t₁ b)

variable {t : BitVec 8 → BitVec 32}

/-- Where the places of a byte go. -/
private theorem low_moved (b : BitVec 8) :
    (low b >>> 8 = 0 ∧ (low b).setWidth 8 = b) ∧
      ((low b <<< 8).setWidth 8 = 0#8 ∧ (low b <<< 16).setWidth 8 = 0#8 ∧ (low b <<< 24).setWidth 8 = 0#8) ∧
      (low b <<< 8) >>> 8 = low b ∧ (low b <<< 16) >>> 8 = low b <<< 8 ∧ (low b <<< 24) >>> 8 = low b <<< 16 := by
  revert b
  decide +kernel

theorem low_shiftRight (b : BitVec 8) : low b >>> 8 = 0 := (low_moved b).1.1

theorem low_setWidth (b : BitVec 8) : (low b).setWidth 8 = b := (low_moved b).1.2

theorem low_shiftLeft_setWidth (b : BitVec 8) :
    (low b <<< 8).setWidth 8 = 0#8 ∧ (low b <<< 16).setWidth 8 = 0#8 ∧
      (low b <<< 24).setWidth 8 = 0#8 :=
  (low_moved b).2.1

theorem low_shiftLeft_shiftRight (b : BitVec 8) :
    (low b <<< 8) >>> 8 = low b ∧ (low b <<< 16) >>> 8 = low b <<< 8 ∧
      (low b <<< 24) >>> 8 = low b <<< 16 :=
  (low_moved b).2.2

theorem Additive.zero (ht : Additive t) : t 0#8 = 0 := by
  have h := ht 0#8 0#8
  rw [BitVec.xor_self, BitVec.xor_self] at h
  exact h

/-- The sum of one byte for each place of a register. -/
def word (a b c d : BitVec 8) : BitVec 32 := low a ^^^ low b <<< 8 ^^^ low c <<< 16 ^^^ low d <<< 24

/-- A register is the sum of its bytes. -/
theorem word_bytes (r : BitVec 32) :
    word (r.setWidth 8) ((r >>> 8).setWidth 8) ((r >>> 16).setWidth 8) ((r >>> 24).setWidth 8) = r := by
  unfold word low
  apply BitVec.eq_of_getLsbD_eq
  intro i hi
  interval_cases i <;> simp

theorem shift_low (b : BitVec 8) : shift t (low b) = t b := by
  unfold shift
  rw [low_setWidth, low_shiftRight]
  exact BitVec.xor_zero

theorem step_eq (crc : BitVec 32) (b : BitVec 8) : step t crc b = shift t (crc ^^^ low b) := by
  unfold step shift
  have hzero : (crc >>> 8 ^^^ 0 : BitVec 32) = crc >>> 8 := BitVec.xor_zero
  rw [BitVec.ushiftRight_xor_distrib, low_shiftRight, hzero]

/-- The bytes of a sum of bytes. -/
theorem bytes_word (a b c d : BitVec 8) :
    (word a b c d).setWidth 8 = a ∧ (word a b c d >>> 8).setWidth 8 = b ∧
      (word a b c d >>> 16).setWidth 8 = c ∧ (word a b c d >>> 24).setWidth 8 = d := by
  unfold word low
  refine ⟨?_, ?_, ?_, ?_⟩
  all_goals
    apply BitVec.eq_of_getLsbD_eq
    intro i hi
    interval_cases i <;> simp

def pick (c : Bool) (x : BitVec 32) : BitVec 32 := if c then x else 0

theorem pick_xor (c d : Bool) (x : BitVec 32) : pick (c ^^ d) x = pick c x ^^^ pick d x := by
  cases c <;> cases d <;> simp [pick]

def places (t : BitVec 8 → BitVec 32) (b : BitVec 8) : BitVec 32 :=
  pick (b.getLsbD 0) (t 1#8) ^^^ pick (b.getLsbD 1) (t 2#8) ^^^ pick (b.getLsbD 2) (t 4#8) ^^^
    pick (b.getLsbD 3) (t 8#8) ^^^ pick (b.getLsbD 4) (t 16#8) ^^^ pick (b.getLsbD 5) (t 32#8) ^^^
    pick (b.getLsbD 6) (t 64#8) ^^^ pick (b.getLsbD 7) (t 128#8)

/-- A table whose entries are the sums over the places is additive. -/
theorem additive_of_places (h : ∀ b, t b = places t b) : Additive t := by
  intro a b
  rw [h (a ^^^ b), h a, h b]
  unfold places
  simp only [BitVec.getLsbD_xor, pick_xor]
  ac_rfl

section Shift

variable (ht : Additive t)
include ht

theorem shift_xor (r s : BitVec 32) : shift t (r ^^^ s) = shift t r ^^^ shift t s := by
  unfold shift
  rw [BitVec.setWidth_xor, ht, BitVec.ushiftRight_xor_distrib]
  ac_rfl

/-- Above the lowest place a shift only moves a byte. -/
theorem shift_low_shiftLeft (b : BitVec 8) :
    shift t (low b <<< 8) = low b ∧ shift t (low b <<< 16) = low b <<< 8 ∧
      shift t (low b <<< 24) = low b <<< 16 := by
  obtain ⟨h8, h16, h24⟩ := low_shiftLeft_setWidth b
  obtain ⟨d8, d16, d24⟩ := low_shiftLeft_shiftRight b
  unfold shift
  rw [h8, h16, h24, d8, d16, d24, ht.zero]
  exact ⟨BitVec.zero_xor, BitVec.zero_xor, BitVec.zero_xor⟩

/-- Four shifts take a register apart. -/
theorem shift_four {t₁ t₂ t₃ : BitVec 8 → BitVec 32} (h₁ : Shifts t t t₁) (h₂ : Shifts t t₁ t₂)
    (h₃ : Shifts t t₂ t₃) (a b c d : BitVec 8) :
    shift t (shift t (shift t (shift t (word a b c d)))) = t₃ a ^^^ t₂ b ^^^ t₁ c ^^^ t d := by
  have hone : shift t (word a b c d) = t a ^^^ low b ^^^ low c <<< 8 ^^^ low d <<< 16 := by
    unfold word
    rw [shift_xor ht, shift_xor ht, shift_xor ht, shift_low, (shift_low_shiftLeft ht b).1,
      (shift_low_shiftLeft ht c).2.1, (shift_low_shiftLeft ht d).2.2]
  have htwo : shift t (t a ^^^ low b ^^^ low c <<< 8 ^^^ low d <<< 16) =
      t₁ a ^^^ t b ^^^ low c ^^^ low d <<< 8 := by
    rw [shift_xor ht, shift_xor ht, shift_xor ht, shift_low, ← h₁ a, (shift_low_shiftLeft ht c).1,
      (shift_low_shiftLeft ht d).2.1]
  have hthree : shift t (t₁ a ^^^ t b ^^^ low c ^^^ low d <<< 8) = t₂ a ^^^ t₁ b ^^^ t c ^^^ low d := by
    rw [shift_xor ht, shift_xor ht, shift_xor ht, shift_low, ← h₂ a, ← h₁ b,
      (shift_low_shiftLeft ht d).1]
  rw [hone, htwo, hthree, shift_xor ht, shift_xor ht, shift_xor ht, shift_low, ← h₃ a, ← h₂ b,
    ← h₁ c]

/-- Four bytes are worked in by four shifts of their sum with the register. -/
theorem step_four (crc : BitVec 32) (a b c d : BitVec 8) :
    step t (step t (step t (step t crc a) b) c) d =
      shift t (shift t (shift t (shift t (crc ^^^ word a b c d)))) := by
  have hd : low d = shift t (shift t (shift t (low d <<< 24))) := by
    obtain ⟨h8, h16, h24⟩ := shift_low_shiftLeft ht d
    rw [h24, h16, h8]
  have hc : low c = shift t (shift t (low c <<< 16)) := by
    obtain ⟨h8, h16, _⟩ := shift_low_shiftLeft ht c
    rw [h16, h8]
  have hb : low b = shift t (low b <<< 8) := (shift_low_shiftLeft ht b).1.symm
  rw [step_eq, step_eq, step_eq, step_eq]
  rw [hb, ← shift_xor ht, hc, ← shift_xor ht, ← shift_xor ht, hd, ← shift_xor ht, ← shift_xor ht,
    ← shift_xor ht]
  unfold word
  rw [← BitVec.xor_assoc, ← BitVec.xor_assoc, ← BitVec.xor_assoc]

/-- The bytes of a register and four more bytes through eight tables: eight steps. -/
theorem step_eight {t₁ t₂ t₃ t₄ t₅ t₆ t₇ : BitVec 8 → BitVec 32} (h₁ : Shifts t t t₁)
    (h₂ : Shifts t t₁ t₂) (h₃ : Shifts t t₂ t₃) (h₄ : Shifts t t₃ t₄) (h₅ : Shifts t t₄ t₅)
    (h₆ : Shifts t t₅ t₆) (h₇ : Shifts t t₆ t₇) (crc : BitVec 32) (a b c d e f g h : BitVec 8) :
    [a, b, c, d, e, f, g, h].foldl (step t) crc =
      t₇ ((crc ^^^ word a b c d).setWidth 8) ^^^ t₆ (((crc ^^^ word a b c d) >>> 8).setWidth 8) ^^^
        t₅ (((crc ^^^ word a b c d) >>> 16).setWidth 8) ^^^
        t₄ (((crc ^^^ word a b c d) >>> 24).setWidth 8) ^^^ (t₃ e ^^^ t₂ f ^^^ t₁ g ^^^ t h) := by
  have hlist : [a, b, c, d, e, f, g, h].foldl (step t) crc =
      step t (step t (step t (step t (step t (step t (step t (step t crc a) b) c) d) e) f) g) h := rfl
  have hfour : ∀ x : BitVec 8, shift t (shift t (shift t (shift t (t₃ x)))) = t₇ x ∧
      shift t (shift t (shift t (shift t (t₂ x)))) = t₆ x ∧
      shift t (shift t (shift t (shift t (t₁ x)))) = t₅ x ∧
      shift t (shift t (shift t (shift t (t x)))) = t₄ x := by
    intro x
    refine ⟨?_, ?_, ?_, ?_⟩
    · rw [← h₄, ← h₅, ← h₆, ← h₇]
    · rw [← h₃, ← h₄, ← h₅, ← h₆]
    · rw [← h₂, ← h₃, ← h₄, ← h₅]
    · rw [← h₁, ← h₂, ← h₃, ← h₄]
  generalize hr : crc ^^^ word a b c d = r
  rw [hlist, step_four ht, step_four ht, hr]
  rw [shift_xor ht, shift_xor ht, shift_xor ht, shift_xor ht, shift_four ht h₁ h₂ h₃ e f g h]
  conv_lhs => rw [← word_bytes r]
  rw [shift_four ht h₁ h₂ h₃]
  simp only [shift_xor ht]
  rw [(hfour _).1, (hfour _).2.1, (hfour _).2.2.1, (hfour _).2.2.2]

end Shift

end Slicing
