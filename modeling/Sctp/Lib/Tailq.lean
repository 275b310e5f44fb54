import Mathlib.Logic.Function.Basic
import Mathlib.Tactic.Common

/-! Tail queues: doubly linked lists whose elements carry their links in fields of their own, and whose
links back are addresses of the pointers that lead to the element. -/
namespace Tailq

/-- Where a pointer to an element is kept: in the head of a queue or in the link field of another
element. -/
inductive Loc (α ι φ : Type*) where
  | null
  | first (h : ι)
  | next (f : φ) (a : α)
deriving DecidableEq

structure Head (α ι φ : Type*) where
  tqhFirst : Option α
  tqhLast : Loc α ι φ

structure Entry (α ι φ : Type*) where
  tqeNext : Option α
  tqePrev : Loc α ι φ

/-- The heads, and the entries of all elements in each link field. -/
structure Mem (α ι φ : Type*) where
  head : ι → Head α ι φ
  entry : φ → α → Entry α ι φ

variable {α ι φ : Type*}

/-- The elements behind a pointer, each with its link back; the last address is that of the pointer
that ends the list. -/
def Chain (m : Mem α ι φ) (f : φ) : Loc α ι φ → Option α → List α → Loc α ι φ → Prop
  | prev, p, [], last => p = none ∧ last = prev
  | prev, p, a :: as, last =>
    p = some a ∧ (m.entry f a).tqePrev = prev ∧
      Chain m f (.next f a) (m.entry f a).tqeNext as last

def Queue (m : Mem α ι φ) (h : ι) (f : φ) (as : List α) : Prop :=
  Chain m f (.first h) (m.head h).tqhFirst as (m.head h).tqhLast

theorem queue_nil_iff {m : Mem α ι φ} {h : ι} {f : φ} :
    Queue m h f [] ↔ (m.head h).tqhFirst = none ∧ (m.head h).tqhLast = .first h := Iff.rfl

theorem Queue.first_eq_none_iff {m : Mem α ι φ} {h : ι} {f : φ} {as : List α}
    (hq : Queue m h f as) : (m.head h).tqhFirst = none ↔ as = [] := by
  cases as with
  | nil =>
    rw [queue_nil_iff] at hq
    simp [hq.1]
  | cons a as =>
    have ha : (m.head h).tqhFirst = some a := hq.1
    simp [ha]

theorem Chain.last_of_ne_nil {m : Mem α ι φ} {f : φ} {prev last : Loc α ι φ} {p : Option α}
    {as : List α} (hc : Chain m f prev p as last) (hne : as ≠ []) : ∃ a, last = .next f a := by
  induction as generalizing prev p with
  | nil => exact absurd rfl hne
  | cons a as ih =>
    obtain ⟨_, _, hrest⟩ := hc
    cases as with
    | nil => exact ⟨a, hrest.2⟩
    | cons b bs => exact ih hrest (List.cons_ne_nil b bs)

/-- The head of a queue that is not empty ends in the link field of the queue. -/
theorem Queue.last_of_ne_nil {m : Mem α ι φ} {h : ι} {f : φ} {as : List α} (hq : Queue m h f as)
    (hne : as ≠ []) : ∃ a, (m.head h).tqhLast = .next f a :=
  Chain.last_of_ne_nil hq hne

/-- A pointer has one list behind it. -/
theorem Chain.unique {m : Mem α ι φ} {f : φ} {prev prev' last last' : Loc α ι φ} {p : Option α}
    {as bs : List α} (ha : Chain m f prev p as last) (hb : Chain m f prev' p bs last') :
    as = bs := by
  induction as generalizing prev prev' p bs with
  | nil =>
    cases bs with
    | nil => rfl
    | cons b bs => exact absurd (hb.1.symm.trans ha.1) (Option.some_ne_none b)
  | cons a as ih =>
    cases bs with
    | nil => exact absurd (ha.1.symm.trans hb.1) (Option.some_ne_none a)
    | cons b bs =>
      obtain rfl : a = b := Option.some.inj (ha.1.symm.trans hb.1)
      rw [ih ha.2.2 hb.2.2]

theorem Queue.unique {m : Mem α ι φ} {h : ι} {f : φ} {as bs : List α} (ha : Queue m h f as)
    (hb : Queue m h f bs) : as = bs := Chain.unique ha hb

theorem Chain.congr {m m' : Mem α ι φ} {f : φ} {prev last : Loc α ι φ} {p : Option α} {as : List α}
    (hc : Chain m f prev p as last) (heq : m'.entry f = m.entry f) : Chain m' f prev p as last := by
  induction as generalizing prev p with
  | nil => exact hc
  | cons a as ih =>
    obtain ⟨hp, hprev, hrest⟩ := hc
    refine ⟨hp, by rw [heq]; exact hprev, ?_⟩
    rw [heq]
    exact ih hrest

/-- A queue is its head and the entries of its field. -/
theorem Queue.congr {m m' : Mem α ι φ} {h : ι} {f : φ} {as : List α} (hq : Queue m h f as)
    (hhead : m'.head h = m.head h) (hentry : m'.entry f = m.entry f) : Queue m' h f as := by
  unfold Queue
  rw [hhead]
  exact Chain.congr hq hentry

section Init

variable [DecidableEq ι]

def init (m : Mem α ι φ) (h : ι) : Mem α ι φ :=
  { m with head := Function.update m.head h { tqhFirst := none, tqhLast := .first h } }

@[simp] theorem init_head_self (m : Mem α ι φ) (h : ι) :
    (init m h).head h = { tqhFirst := none, tqhLast := .first h } := Function.update_self _ _ _

theorem init_head_of_ne (m : Mem α ι φ) {h h' : ι} (hne : h' ≠ h) :
    (init m h).head h' = m.head h' := Function.update_of_ne hne _ _

@[simp] theorem init_entry (m : Mem α ι φ) (h : ι) : (init m h).entry = m.entry := rfl

theorem queue_init (m : Mem α ι φ) (h : ι) (f : φ) : Queue (init m h) h f [] := by
  rw [queue_nil_iff, init_head_self]
  exact ⟨rfl, rfl⟩

def setLast (m : Mem α ι φ) (h : ι) (l : Loc α ι φ) : Mem α ι φ :=
  { m with head := Function.update m.head h { m.head h with tqhLast := l } }

theorem setLast_last_of_ne (m : Mem α ι φ) {h h' : ι} (l : Loc α ι φ) (hne : h' ≠ h) :
    ((setLast m h l).head h').tqhLast = (m.head h').tqhLast := by
  unfold setLast
  dsimp only
  rw [Function.update_of_ne hne]

end Init

section Operations

variable [DecidableEq α] [DecidableEq ι] [DecidableEq φ]

/-- A pointer is written; nothing is left when the address is null. -/
def store (m : Mem α ι φ) (p : Option α) : Loc α ι φ → Option (Mem α ι φ)
  | .null => none
  | .first h => some { m with head := Function.update m.head h { m.head h with tqhFirst := p } }
  | .next f a =>
    some { m with
      entry := Function.update m.entry f
        (Function.update (m.entry f) a { m.entry f a with tqeNext := p }) }

def setEntry (m : Mem α ι φ) (f : φ) (a : α) (e : Entry α ι φ) : Mem α ι φ :=
  { m with entry := Function.update m.entry f (Function.update (m.entry f) a e) }

def remove (m : Mem α ι φ) (h : ι) (f : φ) (a : α) : Option (Mem α ι φ) :=
  let e := m.entry f a
  let m' := match e.tqeNext with
    | some b => setEntry m f b { m.entry f b with tqePrev := e.tqePrev }
    | none => setLast m h e.tqePrev
  store m' e.tqeNext e.tqePrev

def insertTail (m : Mem α ι φ) (h : ι) (f : φ) (a : α) : Option (Mem α ι φ) :=
  let m' := setEntry m f a { tqeNext := none, tqePrev := (m.head h).tqhLast }
  (store m' (some a) (m.head h).tqhLast).map fun m'' => setLast m'' h (.next f a)

/-- `TAILQ_FOREACH_SAFE` over a queue, each element being moved to another one. -/
def moveAll (src dst : ι) (f : φ) : ℕ → Option α → Mem α ι φ → Option (Mem α ι φ)
  | _, none, m => some m
  | 0, some _, _ => none
  | n + 1, some a, m =>
    (remove m src f a).bind fun m' =>
      (insertTail m' dst f a).bind fun m'' => moveAll src dst f n (m.entry f a).tqeNext m''

theorem store_last {m m' : Mem α ι φ} {p : Option α} {l : Loc α ι φ} (hs : store m p l = some m')
    (h : ι) : (m'.head h).tqhLast = (m.head h).tqhLast := by
  cases l with
  | null => cases hs
  | first h' =>
    obtain rfl := Option.some.inj hs
    dsimp only
    by_cases hh : h = h'
    · subst hh
      rw [Function.update_self]
    · rw [Function.update_of_ne hh]
  | next f a =>
    obtain rfl := Option.some.inj hs
    rfl

/-- Only the queue that is named has its end moved by a removal. -/
theorem remove_last {m m' : Mem α ι φ} {h : ι} {f : φ} {a : α} (hr : remove m h f a = some m')
    {h' : ι} (hne : h' ≠ h) : (m'.head h').tqhLast = (m.head h').tqhLast := by
  unfold remove at hr
  dsimp only at hr
  rw [store_last hr]
  cases (m.entry f a).tqeNext with
  | some b => rfl
  | none => exact setLast_last_of_ne m _ hne

theorem insertTail_last_of_ne {m m' : Mem α ι φ} {h : ι} {f : φ} {a : α}
    (hi : insertTail m h f a = some m') {h' : ι} (hne : h' ≠ h) :
    (m'.head h').tqhLast = (m.head h').tqhLast := by
  obtain ⟨m'', hs, rfl⟩ := Option.map_eq_some_iff.mp hi
  rw [setLast_last_of_ne m'' _ hne, store_last hs]
  rfl

theorem insertTail_last {m m' : Mem α ι φ} {h : ι} {f : φ} {a : α}
    (hi : insertTail m h f a = some m') : (m'.head h).tqhLast = .next f a := by
  obtain ⟨m'', hs, rfl⟩ := Option.map_eq_some_iff.mp hi
  unfold setLast
  dsimp only
  rw [Function.update_self]

/-- The ends of other queues stay where they are while elements are moved. -/
theorem moveAll_last_of_ne {src dst : ι} {f : φ} {h : ι} (hsrc : h ≠ src) (hdst : h ≠ dst) :
    ∀ {n : ℕ} {p : Option α} {m m' : Mem α ι φ}, moveAll src dst f n p m = some m' →
      (m'.head h).tqhLast = (m.head h).tqhLast := by
  intro n
  induction n with
  | zero =>
    intro p m m' hm
    cases p with
    | none => rw [Option.some.inj hm]
    | some a => cases hm
  | succ n ih =>
    intro p m m' hm
    cases p with
    | none => rw [Option.some.inj hm]
    | some a =>
      obtain ⟨m₁, hr, hm⟩ := Option.bind_eq_some_iff.mp hm
      obtain ⟨m₂, hi, hm⟩ := Option.bind_eq_some_iff.mp hm
      rw [ih hm, insertTail_last_of_ne hi hdst, remove_last hr hsrc]

/-- Where an element was moved the queue ends in the field it was moved by. -/
theorem moveAll_last {src dst : ι} {f : φ} :
    ∀ {n : ℕ} {a : α} {m m' : Mem α ι φ}, moveAll src dst f n (some a) m = some m' →
      ∃ b, (m'.head dst).tqhLast = .next f b := by
  intro n
  induction n with
  | zero =>
    intro a m m' hm
    cases hm
  | succ n ih =>
    intro a m m' hm
    obtain ⟨m₁, _, hm⟩ := Option.bind_eq_some_iff.mp hm
    obtain ⟨m₂, hi, hm⟩ := Option.bind_eq_some_iff.mp hm
    cases hp : (m.entry f a).tqeNext with
    | none =>
      rw [hp] at hm
      have heq : m₂ = m' := by
        cases n with
        | zero => exact Option.some.inj hm
        | succ n => exact Option.some.inj hm
      rw [← heq]
      exact ⟨a, insertTail_last hi⟩
    | some b =>
      rw [hp] at hm
      exact ih hm

@[simp] theorem moveAll_none {src dst : ι} {f : φ} {n : ℕ} {m : Mem α ι φ} :
    moveAll src dst f n none m = some m := by
  cases n <;> rfl

end Operations

end Tailq
