import Mathlib.Data.List.Basic
import Mathlib.Data.List.Nodup
import Mathlib.Logic.Function.Basic
import Mathlib.Tactic.Common

/-! Singly linked lists in a heap of nodes. -/
namespace Linked

variable {α ν κ : Type*} {heap heap' : α → Option ν} {next : ν → Option α}

/-- From the pointer `p` the nodes of a list follow, and then the pointer `q`. -/
def Segment (heap : α → Option ν) (next : ν → Option α) : Option α → List α → Option α → Prop
  | p, [], q => p = q
  | p, a :: as, q => p = some a ∧ ∃ n, heap a = some n ∧ Segment heap next (next n) as q

/-- The first node that passes a test, with its predecessor. Nothing is left when a pointer leads out
of the heap or the walk takes too long. -/
def seek (heap : α → Option ν) (next : ν → Option α) (test : ν → Bool) :
    ℕ → Option α → Option α → Option (Option (Option α × α × ν))
  | 0, _, _ => none
  | _ + 1, _, none => some none
  | n + 1, prev, some a =>
    (heap a).bind fun e =>
      if test e then some (some (prev, a, e)) else seek heap next test n (some a) (next e)

/-- The nodes that follow from a pointer, up to a number of them. -/
def nodes (heap : α → Option ν) (next : ν → Option α) : ℕ → Option α → List α
  | 0, _ => []
  | _ + 1, none => []
  | n + 1, some a => a :: nodes heap next n ((heap a).bind next)

def contents (heap : α → Option ν) (content : ν → κ) (as : List α) : List κ :=
  as.filterMap fun a => (heap a).map content

theorem segment_append {p q : Option α} {as bs : List α} :
    Segment heap next p (as ++ bs) q ↔
      ∃ m, Segment heap next p as m ∧ Segment heap next m bs q := by
  induction as generalizing p with
  | nil =>
    constructor
    · exact fun h => ⟨p, rfl, h⟩
    · rintro ⟨m, rfl, h⟩
      exact h
  | cons a as ih =>
    constructor
    · rintro ⟨hp, n, hn, hrest⟩
      obtain ⟨m, has, hbs⟩ := ih.1 hrest
      exact ⟨m, ⟨hp, n, hn, has⟩, hbs⟩
    · rintro ⟨m, ⟨hp, n, hn, has⟩, hbs⟩
      exact ⟨hp, n, hn, ih.2 ⟨m, has, hbs⟩⟩

/-- Nodes may change but for their successors, and other nodes may change. -/
theorem Segment.congr_next {p q : Option α} {as : List α} (h : Segment heap next p as q)
    (heq : ∀ a ∈ as, (heap' a).map next = (heap a).map next) : Segment heap' next p as q := by
  induction as generalizing p with
  | nil => exact h
  | cons a as ih =>
    obtain ⟨hp, n, hn, hrest⟩ := h
    have hmap := heq a List.mem_cons_self
    rw [hn, Option.map_some] at hmap
    obtain ⟨n', hn', hnext⟩ := Option.map_eq_some_iff.1 hmap
    refine ⟨hp, n', hn', ?_⟩
    rw [hnext]
    exact ih hrest fun b hb => heq b (List.mem_cons_of_mem _ hb)

theorem Segment.congr {p q : Option α} {as : List α} (h : Segment heap next p as q)
    (heq : ∀ a ∈ as, heap' a = heap a) : Segment heap' next p as q :=
  h.congr_next fun a ha => by rw [heq a ha]

theorem Segment.exists_node {p q : Option α} {as : List α} (h : Segment heap next p as q) {a : α}
    (ha : a ∈ as) : ∃ n, heap a = some n := by
  obtain ⟨s, t, rfl⟩ := List.append_of_mem ha
  obtain ⟨m, -, -, n, hn, -⟩ := segment_append.1 h
  exact ⟨n, hn⟩

theorem Segment.nodes_eq {p : Option α} {as : List α} (h : Segment heap next p as none) {n : ℕ}
    (hn : as.length < n) : nodes heap next n p = as := by
  induction as generalizing p n with
  | nil =>
    obtain rfl : p = none := h
    cases n with
    | zero => rfl
    | succ n => rfl
  | cons a as ih =>
    obtain ⟨rfl, e, he, hrest⟩ := h
    obtain ⟨n, rfl⟩ : ∃ m, n = m + 1 := ⟨n - 1, by omega⟩
    rw [nodes, he, Option.bind_some, ih hrest (Nat.lt_of_succ_lt_succ hn)]

theorem Segment.head_eq {p : Option α} {as : List α} (h : Segment heap next p as none) :
    p = as.head? := by
  cases as with
  | nil => exact h
  | cons a as => exact h.1

/-- Nodes that fail the test are passed by. -/
theorem Segment.seek_append {test : ν → Bool} {p q : Option α} {as : List α}
    (h : Segment heap next p as q) (htest : ∀ a ∈ as, ∀ e, heap a = some e → test e = false)
    (n : ℕ) (prev : Option α) :
    seek heap next test (as.length + n) prev p = seek heap next test n (as.getLast?.or prev) q := by
  induction as generalizing p prev with
  | nil =>
    obtain rfl : p = q := h
    simp
  | cons a as ih =>
    obtain ⟨rfl, e, he, hrest⟩ := h
    have hfail := htest a List.mem_cons_self e he
    rw [List.length_cons, show as.length + 1 + n = (as.length + n) + 1 by omega, seek, he,
      Option.bind_some, hfail, if_neg Bool.false_ne_true]
    rw [ih hrest fun b hb => htest b (List.mem_cons_of_mem _ hb)]
    congr 1
    cases as with
    | nil => rfl
    | cons b bs => simp [List.getLast?_cons]

theorem Segment.seek_eq_none {test : ν → Bool} {p : Option α} {as : List α}
    (h : Segment heap next p as none) (htest : ∀ a ∈ as, ∀ e, heap a = some e → test e = false)
    {n : ℕ} (hn : as.length < n) (prev : Option α) :
    seek heap next test n prev p = some none := by
  obtain ⟨m, rfl⟩ := Nat.exists_eq_add_of_lt hn
  rw [show as.length + m + 1 = as.length + (m + 1) by omega, h.seek_append htest]
  rfl

theorem Segment.seek_eq_some {test : ν → Bool} {p : Option α} {s t : List α} {a : α} {e : ν}
    (h : Segment heap next p (s ++ a :: t) none)
    (htest : ∀ b ∈ s, ∀ n, heap b = some n → test n = false) (ha : heap a = some e)
    (hpass : test e = true) {n : ℕ} (hn : (s ++ a :: t).length < n) (prev : Option α) :
    seek heap next test n prev p = some (some (s.getLast?.or prev, a, e)) := by
  obtain ⟨m, hs, rfl, -⟩ := segment_append.1 h
  rw [List.length_append] at hn
  obtain ⟨k, rfl⟩ := Nat.exists_eq_add_of_lt (show s.length < n by omega)
  rw [show s.length + k + 1 = s.length + (k + 1) by omega, hs.seek_append htest, seek, ha,
    Option.bind_some, if_pos hpass]

section Edit

variable [DecidableEq α] {link : Option α → ν → ν}

/-- A node in front. -/
theorem Segment.push {p q : Option α} {as : List α} (h : Segment heap next p as q) {a : α} {e : ν}
    (ha : a ∉ as) (he : next e = p) :
    Segment (Function.update heap a (some e)) next (some a) (a :: as) q := by
  refine ⟨rfl, e, Function.update_self _ _ _, ?_⟩
  rw [he]
  apply h.congr
  intro b hb
  have hne : b ≠ a := fun hba => ha (hba ▸ hb)
  exact Function.update_of_ne hne _ _

/-- The heap when the successor of a node is set, if there is a node. -/
def relink (heap : α → Option ν) (link : Option α → ν → ν) (prev q : Option α) : α → Option ν :=
  match prev with
  | none => heap
  | some b => Function.update heap b ((heap b).map (link q))

theorem relink_of_ne {b : α} {prev : Option α} (hb : prev ≠ some b) (q : Option α) :
    relink heap link prev q b = heap b := by
  cases prev with
  | none => rfl
  | some c =>
    have hne : b ≠ c := fun hbc => hb (congrArg some hbc.symm)
    exact Function.update_of_ne hne _ _

theorem relink_map {content : ν → κ} (hcontent : ∀ q n, content (link q n) = content n)
    (prev q : Option α) (b : α) :
    (relink heap link prev q b).map content = (heap b).map content := by
  by_cases hb : prev = some b
  · subst hb
    change (Function.update heap b ((heap b).map (link q)) b).map content = _
    rw [Function.update_self, Option.map_map]
    exact Option.map_congr fun n _ => hcontent q n
  · rw [relink_of_ne hb]

/-- A node is taken out. -/
theorem Segment.unlink (hlink : ∀ q n, next (link q n) = q) {p : Option α} {s t : List α} {a : α}
    {e : ν} (h : Segment heap next p (s ++ a :: t) none) (hnodup : (s ++ a :: t).Nodup)
    (ha : heap a = some e) :
    Segment (relink heap link s.getLast? (next e)) next
      (s.getLast?.elim (next e) fun _ => p) (s ++ t) none := by
  obtain ⟨m, hs, rfl, e', he', ht⟩ := segment_append.1 h
  obtain rfl : e = e' := Option.some.inj (ha.symm.trans he')
  obtain rfl | ⟨s', b, rfl⟩ := s.eq_nil_or_concat
  · exact ht
  rw [List.concat_eq_append] at hs hnodup ⊢
  rw [List.getLast?_append_of_ne_nil _ (List.cons_ne_nil _ _), List.getLast?_singleton, List.append_assoc]
  obtain ⟨m, hs', rfl, eb, heb, -⟩ := segment_append.1 hs
  have hb : b ∉ s' ∧ b ∉ t := by
    simp only [List.append_assoc, List.cons_append, List.nil_append] at hnodup
    have hrest := (List.nodup_append.1 hnodup).2.1
    constructor
    · exact fun hin => (List.nodup_append.1 hnodup).2.2 b hin b List.mem_cons_self rfl
    · exact fun hin => (List.nodup_cons.1 hrest).1 (List.mem_cons_of_mem _ hin)
  have hother : ∀ c, c ≠ b → relink heap link (some b) (next e) c = heap c :=
    fun c hc => relink_of_ne (fun h => hc (Option.some.inj h).symm) _
  refine segment_append.2 ⟨some b, ?_, rfl, link (next e) eb, ?_, ?_⟩
  · exact hs'.congr fun c hc => hother c fun h => hb.1 (h ▸ hc)
  · change Function.update heap b ((heap b).map (link (next e))) b = _
    rw [Function.update_self, heb]
    rfl
  · rw [hlink]
    exact ht.congr fun c hc => hother c fun h => hb.2 (h ▸ hc)

end Edit

section Contents

variable {content : ν → κ}

theorem contents_append (as bs : List α) :
    contents heap content (as ++ bs) = contents heap content as ++ contents heap content bs :=
  List.filterMap_append

theorem contents_cons {a : α} {e : ν} (ha : heap a = some e) (as : List α) :
    contents heap content (a :: as) = content e :: contents heap content as := by
  unfold contents
  rw [List.filterMap_cons_some]
  rw [ha, Option.map_some]

theorem contents_congr {as : List α} (h : ∀ a ∈ as, (heap' a).map content = (heap a).map content) :
    contents heap' content as = contents heap content as :=
  List.filterMap_congr h

theorem mem_contents {as : List α} {a : α} {e : ν} (ha : a ∈ as) (he : heap a = some e) :
    content e ∈ contents heap content as :=
  List.mem_filterMap.2 ⟨a, ha, by rw [he]; rfl⟩

theorem exists_of_mem_contents {as : List α} {x : κ} (hx : x ∈ contents heap content as) :
    ∃ a ∈ as, ∃ e, heap a = some e ∧ content e = x := by
  obtain ⟨a, ha, hmap⟩ := List.mem_filterMap.1 hx
  obtain ⟨e, he, rfl⟩ := Option.map_eq_some_iff.1 hmap
  exact ⟨a, ha, e, he, rfl⟩

end Contents

end Linked
