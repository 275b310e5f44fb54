import Mathlib.Data.Bool.Basic
import Mathlib.Data.List.Nodup
import Mathlib.Tactic.Common

/-! The first element of a list that meets a condition, updated in place or taken out. -/
namespace First

variable {α β : Type*}

/-- The first element that meets a condition is updated in place, if there is one. -/
def updateFirst (p : α → Bool) (f : α → α) : List α → Option (List α)
  | [] => none
  | a :: l => if p a then some (f a :: l) else (updateFirst p f l).map (a :: ·)

theorem updateFirst_eq_none_iff {p : α → Bool} {f : α → α} {l : List α} :
    updateFirst p f l = none ↔ ∀ a ∈ l, p a = false := by
  induction l with
  | nil => simp [updateFirst]
  | cons a l ih =>
    unfold updateFirst
    cases hp : p a with
    | true => simp [hp]
    | false => simp [hp, ih]

/-- What the update leaves alone. -/
theorem map_of_updateFirst {p : α → Bool} {f : α → α} {g : α → β} (hg : ∀ a, g (f a) = g a)
    {l l' : List α} (h : updateFirst p f l = some l') : l'.map g = l.map g := by
  induction l generalizing l' with
  | nil => cases h
  | cons a l ih =>
    unfold updateFirst at h
    split_ifs at h with hp
    · obtain rfl := Option.some.inj h
      rw [List.map_cons, List.map_cons, hg]
    · obtain ⟨l'', hl'', rfl⟩ := Option.map_eq_some_iff.mp h
      rw [List.map_cons, List.map_cons, ih hl'']

theorem updateFirst_split {p : α → Bool} {f : α → α} {l l' : List α} (h : updateFirst p f l = some l') :
    ∃ l₁ a l₂, l = l₁ ++ a :: l₂ ∧ p a = true ∧ (∀ b ∈ l₁, p b = false) ∧ l' = l₁ ++ f a :: l₂ := by
  induction l generalizing l' with
  | nil => cases h
  | cons a l ih =>
    unfold updateFirst at h
    split_ifs at h with hp
    · obtain rfl := Option.some.inj h
      exact ⟨[], a, l, rfl, hp, fun b hb => (List.not_mem_nil hb).elim, rfl⟩
    · obtain ⟨l'', hl'', rfl⟩ := Option.map_eq_some_iff.mp h
      obtain ⟨l₁, c, l₂, rfl, hc, hbefore, rfl⟩ := ih hl''
      refine ⟨a :: l₁, c, l₂, rfl, hc, fun b hb => ?_, rfl⟩
      rcases List.mem_cons.mp hb with rfl | hb
      · exact Bool.eq_false_of_not_eq_true hp
      · exact hbefore b hb

theorem length_of_updateFirst {p : α → Bool} {f : α → α} {l l' : List α}
    (h : updateFirst p f l = some l') : l'.length = l.length := by
  have hunit := congrArg List.length (map_of_updateFirst (g := fun _ => ()) (fun _ => rfl) h)
  rwa [List.length_map, List.length_map] at hunit

/-- Where at most one element meets a condition, the first one is all of them. -/
theorem eraseP_eq_filter {p : α → Bool} {l : List α} (h : (l.filter p).length ≤ 1) :
    l.eraseP p = l.filter fun a => !p a := by
  induction l with
  | nil => rfl
  | cons a l ih =>
    by_cases hp : p a = true
    · rw [List.filter_cons_of_pos hp, List.length_cons] at h
      have hnone : l.filter p = [] := List.eq_nil_of_length_eq_zero (by omega)
      have hall : ∀ b ∈ l, (!p b) = true := by
        intro b hb
        simpa using List.filter_eq_nil_iff.mp hnone b hb
      rw [List.eraseP_cons_of_pos hp, List.filter_cons_of_neg (by simpa using hp),
        List.filter_eq_self.mpr hall]
    · rw [List.filter_cons_of_neg hp] at h
      rw [List.eraseP_cons_of_neg hp, List.filter_cons_of_pos (by simpa using hp), ih h]

end First
