import Mathlib.Data.List.Chain
import Mathlib.Tactic

/-! Run-length descriptions of a set of naturals: lists of inclusive intervals that are in
increasing order and never adjacent, so that each interval is a maximal run. -/
namespace Runs

/-- Consecutive intervals leave a gap of at least one number between them. -/
def Separated (l : List (ℕ × ℕ)) : Prop := l.IsChain fun a b => a.2 + 1 < b.1

/-- Every interval is nonempty, lies below `n` and contains only members of `f`. -/
def Within (l : List (ℕ × ℕ)) (f : ℕ → Bool) (n : ℕ) : Prop :=
  ∀ a ∈ l, a.1 ≤ a.2 ∧ a.2 < n ∧ ∀ k, a.1 ≤ k → k ≤ a.2 → f k = true

def Covers (l : List (ℕ × ℕ)) (f : ℕ → Bool) (n : ℕ) : Prop :=
  ∀ k < n, f k = true → ∃ a ∈ l, a.1 ≤ k ∧ k ≤ a.2

/-- The list describes the members of `f` below `n`. -/
structure Describes (l : List (ℕ × ℕ)) (f : ℕ → Bool) (n : ℕ) : Prop where
  separated : Separated l
  within : Within l f n
  covers : Covers l f n

theorem describes_nil (f : ℕ → Bool) : Describes [] f 0 :=
  ⟨List.isChain_nil, by simp [Within], by simp [Covers]⟩

theorem Separated.take {l : List (ℕ × ℕ)} (h : Separated l) (m : ℕ) : Separated (l.take m) :=
  List.IsChain.prefix h (List.take_prefix m l)

theorem Within.take {l : List (ℕ × ℕ)} {f : ℕ → Bool} {n : ℕ} (h : Within l f n) (m : ℕ) :
    Within (l.take m) f n := fun a ha => h a (List.mem_of_mem_take ha)

/-- Intervals relative to position `n`. -/
def shift (n : ℕ) (l : List (ℕ × ℕ)) : List (ℕ × ℕ) := l.map fun a => (a.1 + n, a.2 + n)

theorem Separated.shift {l : List (ℕ × ℕ)} (h : Separated l) (n : ℕ) :
    Separated (Runs.shift n l) := by
  refine List.isChain_map_of_isChain _ ?_ h
  intro a b hab
  simp only
  omega

theorem Within.shift {l : List (ℕ × ℕ)} {f : ℕ → Bool} {n m : ℕ}
    (h : Within l (fun k => f (n + k)) m) : Within (Runs.shift n l) f (n + m) := by
  intro a ha
  obtain ⟨b, hb, rfl⟩ := List.mem_map.mp ha
  obtain ⟨h1, h2, h3⟩ := h b hb
  refine ⟨by simp only; omega, by simp only; omega, ?_⟩
  intro k hk1 hk2
  simp only at hk1 hk2
  have := h3 (k - n) (by omega) (by omega)
  simpa only [show n + (k - n) = k by omega] using this

theorem Covers.shift {l : List (ℕ × ℕ)} {f : ℕ → Bool} {n m : ℕ}
    (h : Covers l (fun k => f (n + k)) m) {k : ℕ} (hk1 : n ≤ k) (hk2 : k < n + m)
    (hf : f k = true) : ∃ a ∈ Runs.shift n l, a.1 ≤ k ∧ k ≤ a.2 := by
  obtain ⟨a, ha, h1, h2⟩ := h (k - n) (by omega) (by simpa [show n + (k - n) = k by omega] using hf)
  exact ⟨(a.1 + n, a.2 + n), List.mem_map.mpr ⟨a, ha, rfl⟩, by simp only; omega, by simp only; omega⟩

theorem separated_append {l r : List (ℕ × ℕ)} (hl : Separated l) (hr : Separated r)
    (h : ∀ a ∈ l.getLast?, ∀ b ∈ r.head?, a.2 + 1 < b.1) : Separated (l ++ r) :=
  List.isChain_append.mpr ⟨hl, hr, h⟩

theorem Within.mono {l : List (ℕ × ℕ)} {f : ℕ → Bool} {n m : ℕ} (h : Within l f n) (hm : n ≤ m) :
    Within l f m := fun a ha => ⟨(h a ha).1, by have := (h a ha).2.1; omega, (h a ha).2.2⟩

theorem within_append {l r : List (ℕ × ℕ)} {f : ℕ → Bool} {n : ℕ} (hl : Within l f n)
    (hr : Within r f n) : Within (l ++ r) f n := by
  intro a ha
  rcases List.mem_append.mp ha with h | h
  · exact hl a h
  · exact hr a h

/-- The last interval ends at the border exactly when the number before the border is a
member: a member there is covered, and only the last interval can reach it. -/
theorem Describes.getLast_of_border {l : List (ℕ × ℕ)} {f : ℕ → Bool} {n : ℕ}
    (h : Describes l f (n + 1)) (hf : f n = true) : ∃ a, l.getLast? = some a ∧ a.2 = n := by
  obtain ⟨a, ha, h1, h2⟩ := h.covers n (by omega) hf
  have han : a.2 = n := by have := (h.within a ha).2.1; omega
  obtain ⟨s, t, rfl⟩ := List.append_of_mem ha
  cases t with
  | nil => exact ⟨a, by simp, han⟩
  | cons b t =>
    have hsep := (List.isChain_append.mp h.separated).2.1
    have hab : a.2 + 1 < b.1 := (List.isChain_cons_cons.mp hsep).1
    have hb := h.within b (by simp)
    omega

theorem Within.head_le {a : ℕ × ℕ} {l : List (ℕ × ℕ)} {f : ℕ → Bool} {n : ℕ}
    (h : Within (a :: l) f n) : f a.1 = true :=
  (h a (by simp)).2.2 a.1 le_rfl (h a (by simp)).1

/-- Two descriptions are put side by side when no run crosses the border between them. -/
theorem Describes.append {l r : List (ℕ × ℕ)} {f : ℕ → Bool} {n m : ℕ} (hl : Describes l f n)
    (hr : Describes r (fun k => f (n + k)) m)
    (hborder : 0 < n → f (n - 1) = true → f n = false) :
    Describes (l ++ Runs.shift n r) f (n + m) := by
  refine ⟨separated_append hl.separated (hr.separated.shift n) ?_,
    within_append (hl.within.mono (by omega)) hr.within.shift, ?_⟩
  · intro a ha b hb
    cases r with
    | nil => simp [Runs.shift] at hb
    | cons c r =>
      simp only [Runs.shift, List.map_cons, List.head?_cons, Option.mem_some_iff] at hb
      subst hb
      have ham := List.mem_of_mem_getLast? ha
      obtain ⟨h1, h2, h3⟩ := hl.within a ham
      have hc : f (n + c.1) = true := hr.within.head_le
      by_contra hcon
      simp only at hcon
      have hc0 : c.1 = 0 := by omega
      have han : a.2 = n - 1 := by omega
      have hfa : f (n - 1) = true := han ▸ h3 a.2 h1 le_rfl
      rw [hc0, Nat.add_zero, hborder (by omega) hfa] at hc
      exact Bool.false_ne_true hc
  · intro k hk hf
    by_cases hkn : k < n
    · obtain ⟨a, ha, hak⟩ := hl.covers k hkn hf
      exact ⟨a, List.mem_append_left _ ha, hak⟩
    · obtain ⟨a, ha, hak⟩ := hr.covers.shift (by omega) hk hf
      exact ⟨a, List.mem_append_right _ ha, hak⟩

/-- A run that ends at the border and one that starts there become one run. -/
theorem Describes.merge {l r : List (ℕ × ℕ)} {a : ℕ × ℕ} {e : ℕ} {f : ℕ → Bool} {n m : ℕ}
    (hl : Describes (l ++ [a]) f n) (ha : a.2 + 1 = n)
    (hr : Describes ((0, e) :: r) (fun k => f (n + k)) m) :
    Describes (l ++ (a.1, e + n) :: Runs.shift n r) f (n + m) := by
  have hsl := List.isChain_append.mp hl.separated
  have hae := hl.within a (by simp)
  have h0 := hr.within (0, e) (by simp)
  have hjoin : ∀ k, a.1 ≤ k → k ≤ e + n → f k = true := by
    intro k hk1 hk2
    by_cases hk : k ≤ a.2
    · exact hae.2.2 k hk1 hk
    · have := h0.2.2 (k - n) (by simp) (by simp only; omega)
      simpa only [show n + (k - n) = k by omega] using this
  have hsr : Separated ((a.1, e + n) :: Runs.shift n r) := by
    have := hr.separated.shift n
    cases r with
    | nil => exact List.isChain_singleton _
    | cons c r =>
      obtain ⟨hc, hcs⟩ := List.isChain_cons_cons.mp this
      exact List.isChain_cons_cons.mpr ⟨hc, hcs⟩
  refine ⟨separated_append hsl.1 hsr ?_, ?_, ?_⟩
  · intro b hb c hc
    simp only [List.head?_cons, Option.mem_some_iff] at hc
    subst hc
    exact hsl.2.2 b hb a (by simp)
  · intro b hb
    rcases List.mem_append.mp hb with h | h
    · have := hl.within b (List.mem_append_left _ h)
      exact ⟨this.1, by omega, this.2.2⟩
    · rcases List.mem_cons.mp h with rfl | h
      · have h02 : e < m := h0.2.1
        exact ⟨by simp only; omega, by simp only; omega, hjoin⟩
      · have hw : Within r (fun k => f (n + k)) m :=
          fun c hc => hr.within c (List.mem_cons_of_mem _ hc)
        exact hw.shift b h
  · intro k hk hf
    by_cases hkn : k < n
    · obtain ⟨b, hb, hbk⟩ := hl.covers k hkn hf
      rcases List.mem_append.mp hb with h | h
      · exact ⟨b, List.mem_append_left _ h, hbk⟩
      · rw [List.mem_singleton.mp h] at hbk
        exact ⟨(a.1, e + n), by simp, hbk.1, by simp only; omega⟩
    · obtain ⟨b, hb, hbk⟩ := hr.covers.shift (by omega) hk hf
      rcases List.mem_cons.mp hb with rfl | h
      · refine ⟨(a.1, e + n), by simp, ?_, hbk.2⟩
        simp only
        omega
      · exact ⟨b, List.mem_append_right _ (List.mem_cons_of_mem _ h), hbk⟩

end Runs
