import Mathlib.Data.List.Basic
import Mathlib.Tactic.Common

/-! Sequences stored in segments, as in a chain of buffers. -/
namespace Chain

variable {α : Type*}

/-- Copy of the first `n` elements, segment by segment. -/
def copy : ℕ → List (List α) → List (List α)
  | _, [] => []
  | n, b :: bs =>
    if n = 0 then []
    else if n ≤ b.length then [b.take n]
    else b :: copy (n - b.length) bs

/-- Remove the first `n` elements, which may leave empty segments. -/
def trim : ℕ → List (List α) → List (List α)
  | _, [] => []
  | n, b :: bs =>
    if n = 0 then b :: bs
    else if b.length ≤ n then [] :: trim (n - b.length) bs
    else b.drop n :: bs

def compact : List (List α) → List (List α)
  | [] => []
  | b :: bs => if b.length = 0 then compact bs else b :: bs

@[simp] theorem flatten_copy (n : ℕ) (c : List (List α)) :
    (copy n c).flatten = c.flatten.take n := by
  induction c generalizing n with
  | nil => simp [copy]
  | cons b bs ih =>
    unfold copy
    split_ifs with h0 hle
    · simp [h0]
    · simp [List.take_append, Nat.sub_eq_zero_of_le hle]
    · simp only [List.flatten_cons, ih, List.take_append]
      rw [List.take_of_length_le (show b.length ≤ n by omega)]

@[simp] theorem flatten_trim (n : ℕ) (c : List (List α)) :
    (trim n c).flatten = c.flatten.drop n := by
  induction c generalizing n with
  | nil => simp [trim]
  | cons b bs ih =>
    unfold trim
    split_ifs with h0 hle
    · simp [h0]
    · simp only [List.flatten_cons, List.nil_append, ih, List.drop_append]
      rw [List.drop_of_length_le hle, List.nil_append]
    · simp only [List.flatten_cons, List.drop_append]
      rw [Nat.sub_eq_zero_of_le (by omega), List.drop_zero]

@[simp] theorem flatten_compact (c : List (List α)) : (compact c).flatten = c.flatten := by
  induction c with
  | nil => rfl
  | cons b bs ih =>
    unfold compact
    split_ifs with h
    · rw [ih, List.flatten_cons, List.length_eq_zero_iff.mp h, List.nil_append]
    · rfl

end Chain
