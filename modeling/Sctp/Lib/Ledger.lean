import Mathlib.Algebra.BigOperators.Group.List.Basic
import Mathlib.Tactic

/-! Loops over a queue that replace its elements while counters are kept beside it. An element
is worth an amount, and the counters hold the amounts of the whole queue together. -/
namespace Ledger

variable {σ α M : Type*} [AddCommMonoid M]

/-- Visit the elements in order. A visit replaces the element by a list, or leaves the loop. -/
def walk (f : σ → α → Option (σ × List α)) : σ → List α → σ × List α
  | s, [] => (s, [])
  | s, x :: xs =>
    match f s x with
    | none => (s, x :: xs)
    | some (s', ys) => ((walk f s' xs).1, ys ++ (walk f s' xs).2)

def worth (m : α → M) (xs : List α) : M := (xs.map m).sum

@[simp] theorem worth_nil (m : α → M) : worth m [] = 0 := rfl

@[simp] theorem worth_cons (m : α → M) (x : α) (xs : List α) :
    worth m (x :: xs) = m x + worth m xs := by
  simp [worth]

@[simp] theorem worth_append (m : α → M) (xs ys : List α) :
    worth m (xs ++ ys) = worth m xs + worth m ys := by
  simp [worth]

theorem worth_perm (m : α → M) {xs ys : List α} (h : xs.Perm ys) : worth m xs = worth m ys :=
  (h.map m).sum_eq

@[simp] theorem walk_nil (f : σ → α → Option (σ × List α)) (s : σ) : walk f s [] = (s, []) := rfl

theorem walk_cons_none {f : σ → α → Option (σ × List α)} {s : σ} {x : α} {xs : List α}
    (h : f s x = none) : walk f s (x :: xs) = (s, x :: xs) := by
  simp [walk, h]

theorem walk_cons_some {f : σ → α → Option (σ × List α)} {s s' : σ} {x : α} {xs ys : List α}
    (h : f s x = some (s', ys)) :
    walk f s (x :: xs) = ((walk f s' xs).1, ys ++ (walk f s' xs).2) := by
  simp [walk, h]

/-- A visit that settles the counters for its element settles them for the queue: `B s r` says
that the counters of `s` hold the amount `r`. -/
theorem walk_balanced {f : σ → α → Option (σ × List α)} {B : σ → M → Prop} {P : α → Prop}
    {m : α → M}
    (hf : ∀ s x s' ys r, P x → f s x = some (s', ys) → B s (r + m x) →
      B s' (r + worth m ys) ∧ ∀ y ∈ ys, P y)
    (s : σ) (xs : List α) (r : M) (hP : ∀ x ∈ xs, P x) (hs : B s (r + worth m xs)) :
    B (walk f s xs).1 (r + worth m (walk f s xs).2) ∧ ∀ y ∈ (walk f s xs).2, P y := by
  induction xs generalizing s r with
  | nil => exact ⟨hs, by simp⟩
  | cons x xs ih =>
    cases hx : f s x with
    | none =>
      rw [walk_cons_none hx]
      exact ⟨hs, hP⟩
    | some p =>
      obtain ⟨s', ys⟩ := p
      rw [walk_cons_some hx]
      have hs' : B s ((r + worth m xs) + m x) := by
        rwa [worth_cons, add_comm (m x), ← add_assoc] at hs
      obtain ⟨h1, hys⟩ := hf s x s' ys _ (hP x (by simp)) hx hs'
      rw [add_right_comm] at h1
      obtain ⟨h2, hzs⟩ := ih s' _ (fun z hz => hP z (by simp [hz])) h1
      refine ⟨?_, fun y hy => ?_⟩
      · rwa [add_assoc, ← worth_append] at h2
      · rcases List.mem_append.1 hy with hy | hy
        · exact hys y hy
        · exact hzs y hy

/-- The same for a visit that settles the counters for the elements of this queue. -/
theorem walk_balanced_of_mem {f : σ → α → Option (σ × List α)} {B : σ → M → Prop} {m : α → M}
    {xs : List α}
    (hf : ∀ x ∈ xs, ∀ s s' ys r, f s x = some (s', ys) → B s (r + m x) → B s' (r + worth m ys))
    (s : σ) (r : M) (hs : B s (r + worth m xs)) :
    B (walk f s xs).1 (r + worth m (walk f s xs).2) := by
  induction xs generalizing s r with
  | nil => exact hs
  | cons x xs ih =>
    cases hx : f s x with
    | none => rwa [walk_cons_none hx]
    | some p =>
      rw [walk_cons_some hx]
      have hs' : B s ((r + worth m xs) + m x) := by
        rwa [worth_cons, add_comm (m x), ← add_assoc] at hs
      have h1 := hf x List.mem_cons_self s p.1 p.2 _ hx hs'
      rw [add_right_comm] at h1
      have h2 := ih (fun y hy => hf y (List.mem_cons_of_mem _ hy)) p.1 _ h1
      rwa [worth_append, ← add_assoc]

def alongside {τ : Type*} (f : σ → α → Option (σ × List α)) (g : τ → α → τ) (p : σ × τ) (x : α) :
    Option ((σ × τ) × List α) :=
  (f p.1 x).map fun r => ((r.1, g p.2 x), r.2)

theorem walk_alongside {τ : Type*} (f : σ → α → Option (σ × List α)) (g : τ → α → τ) (s : σ) (t : τ)
    (xs : List α) :
    (walk (alongside f g) (s, t) xs).1.1 = (walk f s xs).1 ∧
      (walk (alongside f g) (s, t) xs).2 = (walk f s xs).2 := by
  induction xs generalizing s t with
  | nil => exact ⟨rfl, rfl⟩
  | cons x xs ih =>
    cases hx : f s x with
    | none =>
      have hg : alongside f g (s, t) x = none := by simp [alongside, hx]
      rw [walk_cons_none hx, walk_cons_none hg]
      exact ⟨rfl, rfl⟩
    | some p =>
      have hg : alongside f g (s, t) x = some ((p.1, g t x), p.2) := by simp [alongside, hx]
      obtain ⟨h1, h2⟩ := ih p.1 (g t x)
      rw [walk_cons_some hx, walk_cons_some hg]
      exact ⟨h1, congrArg (p.2 ++ ·) h2⟩

/-- Counters in the second state. -/
theorem walk_alongside_balanced {τ : Type*} {f : σ → α → Option (σ × List α)} {g : τ → α → τ}
    {B : τ → M → Prop} {m : α → M} {xs : List α}
    (hf : ∀ x ∈ xs, ∀ s s' ys t r, f s x = some (s', ys) → B t (r + m x) →
      B (g t x) (r + worth m ys))
    (s : σ) (t : τ) (ht : B t (worth m xs)) :
    B (walk (alongside f g) (s, t) xs).1.2 (worth m (walk f s xs).2) := by
  have hwalk := walk_balanced_of_mem (f := alongside f g) (B := fun p r => B p.2 r) (m := m)
    (fun x hx p p' ys r hstep hp => by
      obtain ⟨q, hq, heq⟩ := Option.map_eq_some_iff.1 hstep
      obtain ⟨rfl, rfl⟩ := Prod.mk.inj heq
      exact hf x hx p.1 q.1 q.2 p.2 r hq hp)
    (s, t) 0 (by rwa [zero_add])
  rw [zero_add, (walk_alongside f g s t xs).2] at hwalk
  exact hwalk

def foldBeside {β τ : Type*} (f : σ → β → σ) (g : σ → β → τ → τ) (p : σ × τ) (xs : List β) : σ × τ :=
  xs.foldl (fun p x => (f p.1 x, g p.1 x p.2)) p

theorem foldBeside_fst {β τ : Type*} (f : σ → β → σ) (g : σ → β → τ → τ) (p : σ × τ)
    (xs : List β) : (foldBeside f g p xs).1 = xs.foldl f p.1 := by
  induction xs generalizing p with
  | nil => rfl
  | cons x xs ih => exact ih _

theorem foldBeside_invariant {β τ : Type*} {f : σ → β → σ} {g : σ → β → τ → τ} {I : σ → τ → Prop}
    (hstep : ∀ s t x, I s t → I (f s x) (g s x t)) (p : σ × τ) (xs : List β) (h : I p.1 p.2) :
    I (foldBeside f g p xs).1 (foldBeside f g p xs).2 := by
  induction xs generalizing p with
  | nil => exact h
  | cons x xs ih => exact ih _ (hstep p.1 p.2 x h)

/-- What holds of the state before a walk and survives every visit holds after it. -/
theorem walk_state {f : σ → α → Option (σ × List α)} {I : σ → Prop}
    (hf : ∀ s x s' ys, f s x = some (s', ys) → I s → I s')
    (s : σ) (xs : List α) (hs : I s) : I (walk f s xs).1 := by
  induction xs generalizing s with
  | nil => exact hs
  | cons x xs ih =>
    cases hx : f s x with
    | none => rwa [walk_cons_none hx]
    | some p =>
      rw [walk_cons_some hx]
      exact ih _ (hf s x _ _ hx hs)

/-- A walk that replaces elements one by one keeps the length of the queue. -/
theorem length_walk {f : σ → α → Option (σ × List α)}
    (hf : ∀ s x s' ys, f s x = some (s', ys) → ys.length = 1) (s : σ) (xs : List α) :
    (walk f s xs).2.length = xs.length := by
  induction xs generalizing s with
  | nil => rfl
  | cons x xs ih =>
    cases hx : f s x with
    | none => rw [walk_cons_none hx]
    | some p =>
      rw [walk_cons_some hx, List.length_append, ih, hf s x _ _ hx, List.length_cons, add_comm]

/-- One element of the queue changes and the rest keeps its worth. -/
theorem worth_set (m : α → M) {xs : List α} {i : ℕ} {x : α} (h : xs[i]? = some x) (y : α) :
    ∃ r, worth m xs = r + m x ∧ worth m (xs.set i y) = r + m y := by
  induction xs generalizing i with
  | nil => simp at h
  | cons z zs ih =>
    cases i with
    | zero =>
      obtain rfl : z = x := by simpa using h
      exact ⟨worth m zs, by simp [add_comm], by simp [add_comm]⟩
    | succ i =>
      obtain ⟨r, h1, h2⟩ := ih (by simpa using h)
      exact ⟨m z + r, by simp [h1, add_assoc], by simp [h2, add_assoc]⟩

end Ledger
