import Mathlib.Logic.Basic
import Mathlib.Data.Option.Basic

/-! Runs of a partial step function, and conditions that every step of a run meets. -/
namespace Trace

variable {σ ε : Type*}

/-- The state behind a list of events. Nothing is left behind a step that fails. -/
def run (step : σ → ε → Option σ) : σ → List ε → Option σ
  | s, [] => some s
  | s, e :: es => (step s e).bind fun s' => run step s' es

/-- Every event meets a condition on the state before it. -/
def Along (step : σ → ε → Option σ) (ok : σ → ε → Prop) : σ → List ε → Prop
  | _, [] => True
  | s, e :: es => ok s e ∧ ∀ s' ∈ step s e, Along step ok s' es

instance Along.decidable (step : σ → ε → Option σ) (ok : σ → ε → Prop)
    [∀ s e, Decidable (ok s e)] : ∀ s es, Decidable (Along step ok s es)
  | _, [] => .isTrue trivial
  | s, e :: es =>
    match h : step s e with
    | none => decidable_of_iff (ok s e) (by simp [Along, h])
    | some s' =>
      have := Along.decidable step ok s' es
      decidable_of_iff (ok s e ∧ Along step ok s' es) (by simp [Along, h])

/-- Every event is right for what happened before it, the last event first. -/
def Throughout (P : ε → List ε → Prop) : List ε → Prop
  | [] => True
  | e :: es => P e es ∧ Throughout P es

theorem along_true (step : σ → ε → Option σ) (s : σ) (es : List ε) :
    Along step (fun _ _ => True) s es := by
  induction es generalizing s with
  | nil => exact trivial
  | cons e es ih => exact ⟨trivial, fun s' _ => ih s'⟩

/-- A condition on the events alone. -/
theorem along_of_forall {step : σ → ε → Option σ} {ok : ε → Prop} {es : List ε}
    (h : ∀ e ∈ es, ok e) (s : σ) : Along step (fun _ e => ok e) s es := by
  induction es generalizing s with
  | nil => exact trivial
  | cons e es ih =>
    refine ⟨h e List.mem_cons_self, fun s' _ => ih (fun e' he' => ?_) s'⟩
    exact h e' (List.mem_cons_of_mem e he')

theorem Along.mono {step : σ → ε → Option σ} {ok ok' : σ → ε → Prop} {s : σ} {es : List ε}
    (h : Along step ok s es) (hok : ∀ s e, ok s e → ok' s e) : Along step ok' s es := by
  induction es generalizing s with
  | nil => exact trivial
  | cons e es ih => exact ⟨hok s e h.1, fun s' hs' => ih (h.2 s' hs')⟩

theorem Along.and {step : σ → ε → Option σ} {ok ok' : σ → ε → Prop} {s : σ} {es : List ε}
    (h : Along step ok s es) (h' : Along step ok' s es) : Along step (fun s e => ok s e ∧ ok' s e) s es := by
  induction es generalizing s with
  | nil => exact trivial
  | cons e es ih => exact ⟨⟨h.1, h'.1⟩, fun t ht => ih (h.2 t ht) (h'.2 t ht)⟩

/-- What follows from an invariant and a condition at each step. -/
theorem Along.of_invariant {step : σ → ε → Option σ} {ok ok' : σ → ε → Prop} (Inv : σ → Prop)
    (hstep : ∀ s e s', Inv s → ok s e → step s e = some s' → Inv s')
    (hok' : ∀ s e, Inv s → ok s e → ok' s e) {s : σ} {es : List ε} (hs : Inv s)
    (hok : Along step ok s es) : Along step ok' s es := by
  induction es generalizing s with
  | nil => exact trivial
  | cons e es ih =>
    refine ⟨hok' s e hs hok.1, fun s' hs' => ?_⟩
    exact ih (hstep s e s' hs hok.1 hs') (hok.2 s' hs')

/-- What every step keeps holds behind the run. -/
theorem run_invariant {step : σ → ε → Option σ} {ok : σ → ε → Prop} (Inv : σ → Prop)
    (hstep : ∀ s e s', Inv s → ok s e → step s e = some s' → Inv s') {s s' : σ} {es : List ε}
    (hs : Inv s) (hok : Along step ok s es) (hrun : run step s es = some s') : Inv s' := by
  induction es generalizing s with
  | nil =>
    have : s = s' := Option.some.inj hrun
    exact this ▸ hs
  | cons e es ih =>
    obtain ⟨t, ht, hrest⟩ := Option.bind_eq_some_iff.1 hrun
    exact ih (hstep s e t hs hok.1 ht) (hok.2 t ht) hrest

/-- Two runs over the same events, each step of which is related to the step of the other one. -/
theorem along_iff_of_related {τ : Type*} {step : σ → ε → Option σ} {step' : τ → ε → Option τ}
    {ok : σ → ε → Prop} {ok' : τ → ε → Prop} (R : σ → τ → Prop)
    (hok : ∀ s t e, R s t → (ok s e ↔ ok' t e))
    (hstep : ∀ s t e, R s t → ok s e → Option.Rel R (step s e) (step' t e)) {s : σ} {t : τ} (hR : R s t)
    (es : List ε) : Along step ok s es ↔ Along step' ok' t es := by
  induction es generalizing s t with
  | nil => exact Iff.rfl
  | cons e es ih =>
    have hhead := hok s t e hR
    constructor
    · rintro ⟨h, hrest⟩
      refine ⟨hhead.1 h, fun t' ht' => ?_⟩
      have hrel := hstep s t e hR h
      rw [ht'] at hrel
      generalize hs : step s e = s' at hrel
      cases hrel with
      | some hR' => exact (ih hR').1 (hrest _ hs)
    · rintro ⟨h', hrest⟩
      have h := hhead.2 h'
      refine ⟨h, fun s' hs' => ?_⟩
      have hrel := hstep s t e hR h
      rw [hs'] at hrel
      generalize ht : step' t e = t' at hrel
      cases hrel with
      | some hR' => exact (ih hR').2 (hrest _ ht)

/-- What every step keeps while a count, which it raises by one at most, stays below a bound. -/
theorem run_counted {step : σ → ε → Option σ} {ok : σ → ε → Prop} (Inv : σ → Nat → Prop) {bound : Nat}
    (hstep : ∀ s k e s', Inv s k → ok s e → k < bound → step s e = some s' → ∃ k' ≤ k + 1, Inv s' k')
    {s s' : σ} {k : Nat} {es : List ε} (hs : Inv s k) (hok : Along step ok s es)
    (hroom : k + es.length ≤ bound) (hrun : run step s es = some s') :
    ∃ k' ≤ k + es.length, Inv s' k' := by
  induction es generalizing s k with
  | nil =>
    obtain rfl : s = s' := Option.some.inj hrun
    exact ⟨k, Nat.le_refl k, hs⟩
  | cons e es ih =>
    obtain ⟨t, ht, hrest⟩ := Option.bind_eq_some_iff.1 hrun
    rw [List.length_cons] at hroom ⊢
    obtain ⟨k', hk', hinv⟩ := hstep s k e t hs hok.1 (by omega) ht
    obtain ⟨k'', hk'', hinv'⟩ := ih hinv (hok.2 t ht) (by omega) hrest
    exact ⟨k'', by omega, hinv'⟩

/-- What every step keeps that meets a condition, and no other, holds behind the run if all of them do. -/
theorem run_iff_along {step : σ → ε → Option σ} {ok keeps : σ → ε → Prop} {P : σ → Prop} (Inv : σ → Prop)
    (hstep : ∀ s e s', Inv s → ok s e → step s e = some s' → Inv s' ∧ (P s' ↔ P s ∧ keeps s e))
    {s s' : σ} {es : List ε} (hs : Inv s) (hok : Along step ok s es) (hrun : run step s es = some s') :
    P s' ↔ P s ∧ Along step keeps s es := by
  induction es generalizing s with
  | nil =>
    obtain rfl : s = s' := Option.some.inj hrun
    exact (and_iff_left trivial).symm
  | cons e es ih =>
    obtain ⟨t, ht, hrest⟩ := Option.bind_eq_some_iff.1 hrun
    obtain ⟨hinv, hkept⟩ := hstep s e t hs hok.1 ht
    have hall : (∀ u ∈ step s e, Along step keeps u es) ↔ Along step keeps t es := by
      rw [ht]
      constructor
      · intro h
        exact h t rfl
      · intro h u hu
        exact Option.some.inj hu ▸ h
    rw [ih hinv (hok.2 t ht) hrest, hkept, Along, hall, and_assoc]

/-- A run whose steps all go through and keep the invariant goes through. -/
theorem run_progress {step : σ → ε → Option σ} {ok : σ → ε → Prop} (Inv : σ → Prop)
    (hstep : ∀ s e, Inv s → ok s e → ∃ s', step s e = some s' ∧ Inv s') {s : σ} {es : List ε}
    (hs : Inv s) (hok : Along step ok s es) : ∃ s', run step s es = some s' ∧ Inv s' := by
  induction es generalizing s with
  | nil => exact ⟨s, rfl, hs⟩
  | cons e es ih =>
    obtain ⟨t, ht, hinv⟩ := hstep s e hs hok.1
    obtain ⟨s', hrun, hs'⟩ := ih hinv (hok.2 t ht)
    refine ⟨s', ?_, hs'⟩
    rw [run, ht, Option.bind_some, hrun]

end Trace
