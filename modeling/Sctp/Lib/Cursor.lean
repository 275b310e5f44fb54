import Sctp.Lib.Ring

/-! A pointer into a queue whose elements may be removed and appended while it stands there. -/
namespace Cursor

variable {α : Type*} [DecidableEq α]

/-- The pointer stands at the front of what is still to come. -/
structure Splits (queue : List α) (next : Option α) (done rest : List α) : Prop where
  queue_eq : queue = done ++ rest
  next_eq : next = rest.head?

variable {queue done rest : List α} {next : Option α}

omit [DecidableEq α] in
theorem Splits.mem_of_next (h : Splits queue next done rest) {c : α} (hc : next = some c) :
    c ∈ queue := by
  rw [h.queue_eq]
  rw [h.next_eq] at hc
  exact List.mem_append_right _ (List.mem_of_mem_head? hc)

/-- The queue from the pointer on. -/
theorem Splits.dropWhile (h : Splits queue next done rest) (hq : queue.Nodup) {c : α}
    (hc : next = some c) : queue.dropWhile (· ≠ c) = rest := by
  cases rest with
  | nil =>
    rw [h.next_eq] at hc
    cases hc
  | cons a rest =>
    obtain rfl : a = c := by
      rw [h.next_eq] at hc
      exact Option.some.inj hc
    rw [h.queue_eq] at hq ⊢
    have hout : a ∉ done := by
      intro ha
      exact (List.nodup_append.mp hq).2.2 a ha a List.mem_cons_self rfl
    rw [List.dropWhile_append_of_pos]
    · simp
    · intro b hb
      have : b ≠ a := by
        rintro rfl
        exact hout hb
      simpa using this

/-- An element is removed; where the pointer stands at it, it moves on. -/
theorem Splits.remove (h : Splits queue next done rest) (hq : queue.Nodup) (c : α) :
    Splits (queue.erase c) (if next = some c then Ring.next c queue else next) (done.erase c)
      (rest.erase c) := by
  have hnd := hq
  rw [h.queue_eq] at hnd
  by_cases hdone : c ∈ done
  · have hrest : c ∉ rest := by
      intro hc
      exact (List.nodup_append.mp hnd).2.2 c hdone c hc rfl
    have hne : next ≠ some c := by
      intro heq
      rw [h.next_eq] at heq
      exact hrest (List.mem_of_mem_head? heq)
    constructor
    · rw [h.queue_eq, List.erase_append_left _ hdone, List.erase_of_not_mem hrest]
    · rw [if_neg hne, List.erase_of_not_mem hrest]
      exact h.next_eq
  · rw [List.erase_of_not_mem hdone]
    constructor
    · rw [h.queue_eq, List.erase_append_right _ hdone]
    · cases rest with
      | nil =>
        rw [h.next_eq]
        rfl
      | cons a rest =>
        rw [h.next_eq, List.head?_cons, h.queue_eq]
        by_cases hac : a = c
        · subst hac
          rw [if_pos rfl, List.erase_cons_head]
          exact Ring.next_append hdone
        · have hne : some a ≠ some c := fun heq => hac (Option.some.inj heq)
          rw [if_neg hne, List.erase_cons_tail (by simpa using hac)]
          rfl

omit [DecidableEq α] in
/-- An element is appended; behind a pointer at the end it has been passed. -/
theorem Splits.append (h : Splits queue next done rest) (c : α) :
    Splits (queue ++ [c]) next (if rest = [] then done ++ [c] else done)
      (if rest = [] then [] else rest ++ [c]) := by
  by_cases hrest : rest = []
  · rw [if_pos hrest, if_pos hrest]
    constructor
    · rw [h.queue_eq, hrest, List.append_nil, List.append_nil]
    · rw [h.next_eq, hrest]
  · rw [if_neg hrest, if_neg hrest]
    constructor
    · rw [h.queue_eq, List.append_assoc]
    · rw [h.next_eq, List.head?_append_of_ne_nil _ hrest]

/-- The first element that passes a test is taken out, and the pointer stands behind it. -/
theorem Splits.take (h : Splits queue next done rest) (hq : queue.Nodup) {pre post : List α} {c : α}
    (hrest : rest = pre ++ c :: post) :
    Splits (queue.erase c) (Ring.next c queue) (done ++ pre) post := by
  have hnd := hq
  rw [h.queue_eq, hrest, ← List.append_assoc] at hnd
  have hout : c ∉ done ++ pre := by
    intro hc
    exact (List.nodup_append.mp hnd).2.2 c hc c List.mem_cons_self rfl
  constructor
  · rw [h.queue_eq, hrest, ← List.append_assoc, List.erase_append_right _ hout, List.erase_cons_head]
  · rw [h.queue_eq, hrest, ← List.append_assoc]
    exact Ring.next_append hout

end Cursor
