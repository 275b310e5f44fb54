import Mathlib.Data.List.Basic
import Mathlib.Data.List.Range
import Mathlib.Tactic.Common

/-! A stream that is worked in by whole blocks; what does not fill a block yet waits. -/
namespace Blocks

variable {α σ : Type*}

/-- The state behind the whole blocks, and what waits for the end of the next one. -/
structure Intake (σ α : Type*) where
  state : σ
  rest : List α

variable (n : ℕ) (f : σ → List α → σ)

def push (x : Intake σ α) (a : α) : Intake σ α :=
  if x.rest.length + 1 = n then ⟨f x.state (x.rest ++ [a]), []⟩ else ⟨x.state, x.rest ++ [a]⟩

def absorb (x : Intake σ α) (as : List α) : Intake σ α := as.foldl (push n f) x

def parse (as : List α) : List (List α) := (List.range (as.length / n)).map fun i => (as.drop (n * i)).take n

variable {n f} {x : Intake σ α} {as bs : List α}

@[simp] theorem absorb_nil : absorb n f x [] = x := rfl

theorem absorb_cons (a : α) : absorb n f x (a :: as) = absorb n f (push n f x a) as := rfl

/-- It does not matter how the stream is cut. -/
theorem absorb_append : absorb n f x (as ++ bs) = absorb n f (absorb n f x as) bs := List.foldl_append

theorem absorb_short (h : x.rest.length + as.length < n) : absorb n f x as = ⟨x.state, x.rest ++ as⟩ := by
  induction as generalizing x with
  | nil => rw [absorb_nil, List.append_nil]
  | cons a as ih =>
    rw [List.length_cons] at h
    have hne : ¬ x.rest.length + 1 = n := by omega
    rw [absorb_cons, push, if_neg hne, ih]
    · rw [List.append_assoc]
      rfl
    · rw [List.length_append, List.length_singleton]
      omega

/-- The block is full with the last element. -/
theorem absorb_fill (h : x.rest.length + as.length = n) (has : as ≠ []) :
    absorb n f x as = ⟨f x.state (x.rest ++ as), []⟩ := by
  obtain ⟨bs, a, rfl⟩ := (List.eq_nil_or_concat as).resolve_left has
  rw [List.length_concat] at h
  have hshort : absorb n f x bs = ⟨x.state, x.rest ++ bs⟩ := absorb_short (by omega)
  have hfull : (x.rest ++ bs).length + 1 = n := by
    rw [List.length_append]
    omega
  rw [List.concat_eq_append, absorb_append, hshort, absorb_cons, push, if_pos hfull, absorb_nil, List.append_assoc]

theorem length_rest (h : x.rest.length < n) :
    (absorb n f x as).rest.length = (x.rest.length + as.length) % n := by
  induction as generalizing x with
  | nil => rw [absorb_nil, List.length_nil, Nat.add_zero, Nat.mod_eq_of_lt h]
  | cons a as ih =>
    rw [absorb_cons, List.length_cons, push]
    by_cases hfull : x.rest.length + 1 = n
    · have hlen : ([] : List α).length < n := by
        rw [List.length_nil]
        omega
      have hsum : x.rest.length + (as.length + 1) = as.length + n := by omega
      rw [if_pos hfull, ih hlen, List.length_nil, Nat.zero_add, hsum, Nat.add_mod_right]
    · have hlen : (x.rest ++ [a]).length = x.rest.length + 1 := by
        rw [List.length_append, List.length_singleton]
      have hlt : (x.rest ++ [a]).length < n := by omega
      rw [if_neg hfull, ih hlt, hlen]
      congr 1
      omega

theorem absorb_block {s : σ} (h : as.length = n) (hn : 0 < n) : absorb n f ⟨s, []⟩ as = ⟨f s as, []⟩ := by
  have hne : as ≠ [] := by
    apply List.ne_nil_of_length_pos
    omega
  have hlen : ([] : List α).length + as.length = n := by
    rw [List.length_nil, Nat.zero_add, h]
  exact absorb_fill hlen hne

/-- A stream of whole blocks. -/
theorem absorb_flatten {s : σ} {Bs : List (List α)} (hn : 0 < n) (h : ∀ B ∈ Bs, B.length = n) :
    absorb n f ⟨s, []⟩ Bs.flatten = ⟨Bs.foldl f s, []⟩ := by
  induction Bs generalizing s with
  | nil => rfl
  | cons B Bs ih =>
    rw [List.forall_mem_cons] at h
    rw [List.flatten_cons, absorb_append, absorb_block h.1 hn, ih h.2, List.foldl_cons]

theorem length_of_mem_parse {B : List α} (h : B ∈ parse n as) : B.length = n := by
  obtain ⟨i, hi, rfl⟩ := List.mem_map.1 h
  have hlt : i + 1 ≤ as.length / n := List.mem_range.1 hi
  have hle : n * (i + 1) ≤ as.length := (Nat.mul_le_mul_left n hlt).trans (Nat.mul_div_le as.length n)
  rw [Nat.mul_succ] at hle
  rw [List.length_take, List.length_drop]
  omega

theorem flatten_take_blocks (k : ℕ) :
    ((List.range k).map fun i => (as.drop (n * i)).take n).flatten = as.take (n * k) := by
  induction k with
  | zero => rfl
  | succ k ih =>
    rw [List.range_succ, List.map_append, List.flatten_append, ih, List.map_singleton, List.flatten_singleton,
      Nat.mul_succ, List.take_add]

theorem flatten_parse (h : n ∣ as.length) : (parse n as).flatten = as := by
  rw [parse, flatten_take_blocks, Nat.mul_div_cancel' h, List.take_length]

/-- The blocks of a stream are worked in one after the other. -/
theorem absorb_eq_parse {s : σ} (hn : 0 < n) (h : n ∣ as.length) :
    absorb n f ⟨s, []⟩ as = ⟨(parse n as).foldl f s, []⟩ := by
  conv_lhs => rw [← flatten_parse h]
  apply absorb_flatten hn
  intro B hB
  exact length_of_mem_parse hB

end Blocks
