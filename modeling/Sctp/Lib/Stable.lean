import Mathlib.Data.List.Forall2
import Mathlib.Data.List.Pairwise
import Mathlib.Data.List.TakeWhile
import Mathlib.Tactic.Common

/-! Where a new element goes into a sorted list, behind all that are not past it. -/
namespace Stable

variable {α : Type*} {R : α → α → Prop} {past : α → Bool} {as : List α}

/-- What a new element goes behind. -/
def front (past : α → Bool) (as : List α) : List α := as.takeWhile fun a => !past a

/-- What a new element goes before. -/
def rest (past : α → Bool) (as : List α) : List α := as.dropWhile fun a => !past a

@[simp] theorem front_append_rest (past : α → Bool) (as : List α) : front past as ++ rest past as = as :=
  List.takeWhile_append_dropWhile

@[simp] theorem front_nil : front past [] = [] := rfl

@[simp] theorem rest_nil : rest past [] = [] := rfl

theorem front_of_past {a : α} (h : past a = true) (as : List α) : front past (a :: as) = [] := by
  simp [front, h]

theorem rest_of_past {a : α} (h : past a = true) (as : List α) : rest past (a :: as) = a :: as := by
  simp [rest, h]

theorem front_of_not_past {a : α} (h : past a = false) (as : List α) :
    front past (a :: as) = a :: front past as := by
  simp [front, h]

theorem rest_of_not_past {a : α} (h : past a = false) (as : List α) :
    rest past (a :: as) = rest past as := by
  simp [rest, h]

theorem front_of_forall (h : ∀ a ∈ as, past a = false) : front past as = as := by
  apply List.takeWhile_eq_self_iff.2
  intro a ha
  rw [h a ha]
  rfl

theorem rest_of_forall (h : ∀ a ∈ as, past a = false) : rest past as = [] := by
  apply List.dropWhile_eq_nil_iff.2
  intro a ha
  rw [h a ha]
  rfl

theorem front_append (h : ∀ a ∈ as, past a = false) (bs : List α) : front past (as ++ bs) = as ++ front past bs := by
  induction as with
  | nil => rfl
  | cons a as ih =>
    rw [List.forall_mem_cons] at h
    rw [List.cons_append, front_of_not_past h.1, ih h.2, List.cons_append]

theorem rest_append (h : ∀ a ∈ as, past a = false) (bs : List α) : rest past (as ++ bs) = rest past bs := by
  induction as with
  | nil => rfl
  | cons a as ih =>
    rw [List.forall_mem_cons] at h
    rw [List.cons_append, rest_of_not_past h.1, ih h.2]

theorem not_past_of_mem_front {a : α} (h : a ∈ front past as) : past a = false := by
  have hnot := List.mem_takeWhile_imp h
  simpa using hnot

theorem mem_of_mem_front {a : α} (h : a ∈ front past as) : a ∈ as :=
  (List.takeWhile_sublist _).mem h

theorem mem_of_mem_rest {a : α} (h : a ∈ rest past as) : a ∈ as :=
  (List.dropWhile_sublist _).mem h

/-- Behind the first element that is past the new one, all are. -/
theorem past_of_mem_rest (hsorted : as.Pairwise R)
    (hpast : ∀ a ∈ as, ∀ b ∈ as, R a b → past a = true → past b = true) {a : α} (h : a ∈ rest past as) :
    past a = true := by
  induction as with
  | nil => cases h
  | cons b as ih =>
    rw [List.pairwise_cons] at hsorted
    cases hb : past b with
    | true =>
      rw [rest_of_past hb, List.mem_cons] at h
      rcases h with rfl | h
      · exact hb
      · exact hpast b List.mem_cons_self a (List.mem_cons_of_mem b h) (hsorted.1 a h) hb
    | false =>
      rw [rest_of_not_past hb] at h
      apply ih hsorted.2 _ h
      intro c hc d hd
      exact hpast c (List.mem_cons_of_mem b hc) d (List.mem_cons_of_mem b hd)

/-- The list stays sorted. -/
theorem pairwise_insert {x : α} (hsorted : as.Pairwise R)
    (hpast : ∀ a ∈ as, ∀ b ∈ as, R a b → past a = true → past b = true)
    (hbefore : ∀ a ∈ as, past a = false → R a x) (hbehind : ∀ a ∈ as, past a = true → R x a) :
    (front past as ++ x :: rest past as).Pairwise R := by
  have hcut : (front past as ++ rest past as).Pairwise R := by
    rw [front_append_rest]
    exact hsorted
  obtain ⟨hfront, hrest, hcross⟩ := List.pairwise_append.1 hcut
  rw [List.pairwise_append, List.pairwise_cons]
  refine ⟨hfront, ⟨?_, hrest⟩, ?_⟩
  · intro a ha
    exact hbehind a (mem_of_mem_rest ha) (past_of_mem_rest hsorted hpast ha)
  · intro a ha b hb
    rw [List.mem_cons] at hb
    rcases hb with rfl | hb
    · exact hbefore a (mem_of_mem_front ha) (not_past_of_mem_front ha)
    · exact hcross a ha b hb

theorem perm_insert (past : α → Bool) (as : List α) (x : α) :
    (front past as ++ x :: rest past as).Perm (x :: as) := by
  have h : (front past as ++ x :: rest past as).Perm (x :: (front past as ++ rest past as)) := List.perm_middle
  rwa [front_append_rest] at h

/-- In a sorted list those not past the new one come first. -/
theorem filter_not_past (hsorted : as.Pairwise R)
    (hpast : ∀ a ∈ as, ∀ b ∈ as, R a b → past a = true → past b = true) :
    as.filter (fun a => !past a) = front past as := by
  conv_lhs => rw [← front_append_rest past as]
  rw [List.filter_append, List.filter_eq_self.2, List.filter_eq_nil_iff.2, List.append_nil]
  · intro a ha
    rw [past_of_mem_rest hsorted hpast ha]
    exact Bool.false_ne_true
  · intro a ha
    rw [not_past_of_mem_front ha]
    rfl

theorem filter_past (hsorted : as.Pairwise R)
    (hpast : ∀ a ∈ as, ∀ b ∈ as, R a b → past a = true → past b = true) : as.filter past = rest past as := by
  conv_lhs => rw [← front_append_rest past as]
  rw [List.filter_append, List.filter_eq_nil_iff.2, List.filter_eq_self.2, List.nil_append]
  · intro a ha
    exact past_of_mem_rest hsorted hpast ha
  · intro a ha
    rw [not_past_of_mem_front ha]
    exact Bool.false_ne_true

section Two

variable {β : Type*} {S : α → β → Prop} {q : β → Bool} {bs : List β}

/-- Two lists whose elements belong together are cut at the same place. -/
theorem forall₂_front (h : List.Forall₂ S as bs) (hpq : ∀ a b, S a b → past a = q b) :
    List.Forall₂ S (front past as) (front q bs) := by
  induction h with
  | nil => exact .nil
  | @cons a b as bs hab _ ih =>
    have hb := hpq a b hab
    cases ha : past a with
    | true =>
      rw [ha] at hb
      rw [front_of_past ha, front_of_past hb.symm]
      exact .nil
    | false =>
      rw [ha] at hb
      rw [front_of_not_past ha, front_of_not_past hb.symm]
      exact .cons hab ih

theorem forall₂_rest (h : List.Forall₂ S as bs) (hpq : ∀ a b, S a b → past a = q b) :
    List.Forall₂ S (rest past as) (rest q bs) := by
  induction h with
  | nil => exact .nil
  | @cons a b as bs hab htail ih =>
    have hb := hpq a b hab
    cases ha : past a with
    | true =>
      rw [ha] at hb
      rw [rest_of_past ha, rest_of_past hb.symm]
      exact .cons hab htail
    | false =>
      rw [ha] at hb
      rw [rest_of_not_past ha, rest_of_not_past hb.symm]
      exact ih

theorem forall₂_eraseP (h : List.Forall₂ S as bs) (hpq : ∀ a b, S a b → past a = q b) :
    List.Forall₂ S (as.eraseP past) (bs.eraseP q) := by
  induction h with
  | nil => exact .nil
  | @cons a b as bs hab htail ih =>
    have hb := hpq a b hab
    cases ha : past a with
    | true =>
      rw [ha] at hb
      rw [List.eraseP_cons_of_pos ha, List.eraseP_cons_of_pos hb.symm]
      exact htail
    | false =>
      rw [ha] at hb
      rw [List.eraseP_cons_of_neg (by rw [ha]; exact Bool.false_ne_true),
        List.eraseP_cons_of_neg (by rw [← hb]; exact Bool.false_ne_true)]
      exact .cons hab ih

theorem forall₂_exists_right (h : List.Forall₂ S as bs) : ∀ b ∈ bs, ∃ a ∈ as, S a b := by
  induction h with
  | nil =>
    intro b hb
    cases hb
  | @cons a b as bs hab _ ih =>
    rw [List.forall_mem_cons]
    constructor
    · exact ⟨a, List.mem_cons_self, hab⟩
    · intro b' hb'
      obtain ⟨a', ha', hab'⟩ := ih b' hb'
      exact ⟨a', List.mem_cons_of_mem a ha', hab'⟩

theorem forall₂_exists_left (h : List.Forall₂ S as bs) : ∀ a ∈ as, ∃ b ∈ bs, S a b := by
  have hflip : List.Forall₂ (flip S) bs as := h.flip
  exact forall₂_exists_right hflip

end Two

end Stable
