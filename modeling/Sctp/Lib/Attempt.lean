import Mathlib.Tactic.Common

/-! Computations that may fail, and what is known when they went through. -/
namespace Attempt

variable {ε ε' α β σ : Type*}

theorem map_ok {x : Except ε α} {f : α → β} {b : β} (h : x.map f = .ok b) :
    ∃ a, x = .ok a ∧ f a = b := by
  cases x with
  | error e => cases h
  | ok a => exact ⟨a, rfl, Except.ok.inj h⟩

theorem bind_ok {x : Except ε α} {f : α → Except ε β} {b : β} (h : x.bind f = .ok b) :
    ∃ a, x = .ok a ∧ f a = .ok b := by
  cases x with
  | error e => cases h
  | ok a => exact ⟨a, rfl, h⟩

theorem mapError_ok {x : Except ε α} {f : ε → ε'} {a : α} (h : x.mapError f = .ok a) : x = .ok a := by
  cases x with
  | error e => cases h
  | ok b => rw [Except.ok.inj h]

/-- What every round of a loop keeps holds when the loop has gone through. -/
theorem foldlM_invariant {f : σ → α → Except ε σ} (Inv : σ → Prop) {l : List α}
    (hstep : ∀ a ∈ l, ∀ s s', Inv s → f s a = .ok s' → Inv s') {s s' : σ} (hs : Inv s)
    (h : l.foldlM f s = .ok s') : Inv s' := by
  induction l generalizing s with
  | nil => exact Except.ok.inj h ▸ hs
  | cons a l ih =>
    rw [List.foldlM_cons] at h
    obtain ⟨t, ht, hrest⟩ := bind_ok h
    have hinv := hstep a List.mem_cons_self s t hs ht
    exact ih (fun b hb => hstep b (List.mem_cons_of_mem a hb)) hinv hrest

end Attempt
