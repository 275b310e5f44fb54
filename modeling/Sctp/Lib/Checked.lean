import Mathlib

/-! Arithmetic on unsigned words, and whether the partial operations on the way to a value were
defined. -/

universe u

/-- A value, and whether every division and subtraction on the way to it was defined. A computation
goes on when one was not. -/
structure Checked (α : Type u) where
  val : α
  ok : Bool
deriving DecidableEq, Repr

namespace Checked

variable {α β : Type u}

instance : Monad Checked where
  pure a := ⟨a, true⟩
  bind x f := ⟨(f x.val).val, x.ok && (f x.val).ok⟩

def div (a b : ℕ) : Checked ℕ := ⟨a / b, b != 0⟩

def mod (a b : ℕ) : Checked ℕ := ⟨a % b, b != 0⟩

/-- A difference of words of `w` bits must not wrap. -/
@[irreducible] def sub (w a b : ℕ) : Checked ℕ := ⟨(a + 2 ^ w - b) % 2 ^ w, decide (b ≤ a)⟩

@[simp] theorem pure_val (a : α) : (pure a : Checked α).val = a := rfl

@[simp] theorem pure_ok (a : α) : (pure a : Checked α).ok = true := rfl

@[simp] theorem bind_val (x : Checked α) (f : α → Checked β) : (x >>= f).val = (f x.val).val := rfl

@[simp] theorem bind_ok (x : Checked α) (f : α → Checked β) :
    (x >>= f).ok = (x.ok && (f x.val).ok) := rfl

@[simp] theorem map_val (x : Checked α) (f : α → β) : (f <$> x).val = f x.val := rfl

@[simp] theorem map_ok (x : Checked α) (f : α → β) : (f <$> x).ok = x.ok := Bool.and_true x.ok

@[simp] theorem ite_val (c : Prop) [Decidable c] (x y : Checked α) :
    (if c then x else y).val = if c then x.val else y.val := apply_ite val c x y

@[simp] theorem ite_ok (c : Prop) [Decidable c] (x y : Checked α) :
    (if c then x else y).ok = if c then x.ok else y.ok := apply_ite ok c x y

@[simp] theorem div_val (a b : ℕ) : (div a b).val = a / b := rfl

@[simp] theorem div_ok (a b : ℕ) : (div a b).ok = true ↔ b ≠ 0 := by
  simp [div]

@[simp] theorem mod_val (a b : ℕ) : (mod a b).val = a % b := rfl

@[simp] theorem mod_ok (a b : ℕ) : (mod a b).ok = true ↔ b ≠ 0 := by
  simp [mod]

theorem sub_val (w a b : ℕ) : (sub w a b).val = (a + 2 ^ w - b) % 2 ^ w := by
  unfold sub
  rfl

@[simp] theorem sub_ok (w a b : ℕ) : (sub w a b).ok = true ↔ b ≤ a := by
  unfold sub
  exact decide_eq_true_iff

theorem sub_val_of_le {w a b : ℕ} (hle : b ≤ a) (ha : a < 2 ^ w) : (sub w a b).val = a - b := by
  have hshift : a + 2 ^ w - b = a - b + 2 ^ w := by omega
  rw [sub_val, hshift, Nat.add_mod_right, Nat.mod_eq_of_lt (by omega)]

theorem sub_val_lt (w a b : ℕ) : (sub w a b).val < 2 ^ w := by
  rw [sub_val]
  exact Nat.mod_lt _ (Nat.two_pow_pos w)

end Checked
