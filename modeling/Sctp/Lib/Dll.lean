import Sctp.Lib.Linked

/-! Doubly linked lists in a heap of nodes. -/
namespace Dll

structure Links (α ν κ : Type*) where
  prev : ν → Option α
  next : ν → Option α
  content : ν → κ
  setPrev : Option α → ν → ν
  setNext : Option α → ν → ν
  prev_setPrev : ∀ p n, prev (setPrev p n) = p
  next_setPrev : ∀ p n, next (setPrev p n) = next n
  content_setPrev : ∀ p n, content (setPrev p n) = content n
  prev_setNext : ∀ q n, prev (setNext q n) = prev n
  next_setNext : ∀ q n, next (setNext q n) = q
  content_setNext : ∀ q n, content (setNext q n) = content n

variable {α ν κ : Type*} {L : Links α ν κ} {heap heap' : α → Option ν}

/-- The nodes are linked in both directions. Before them lies `back`, behind them `q`. -/
def Formed (L : Links α ν κ) (heap : α → Option ν) : Option α → List α → Option α → Prop
  | _, [], _ => True
  | back, a :: as, q =>
    (∃ n, heap a = some n ∧ L.prev n = back ∧ L.next n = as.head?.or q) ∧
      Formed L heap (some a) as q

/-- Two heaps agree off some nodes, and everywhere in what the nodes hold. -/
structure Kept (L : Links α ν κ) (as : List α) (heap heap' : α → Option ν) : Prop where
  off : ∀ b, b ∉ as → heap' b = heap b
  content : ∀ b, (heap' b).map L.content = (heap b).map L.content

theorem Kept.trans {as bs : List α} {heap'' : α → Option ν} (h : Kept L as heap heap')
    (h' : Kept L bs heap' heap'') : Kept L (as ++ bs) heap heap'' where
  off := by
    intro b hb
    rw [List.mem_append, not_or] at hb
    rw [h'.off b hb.2, h.off b hb.1]
  content b := by rw [h'.content, h.content]

theorem Kept.mono {as bs : List α} (h : Kept L as heap heap') (hsub : ∀ a ∈ as, a ∈ bs) :
    Kept L bs heap heap' where
  off b hb := h.off b fun ha => hb (hsub b ha)
  content := h.content

theorem formed_append {back q : Option α} {as bs : List α} :
    Formed L heap back (as ++ bs) q ↔
      Formed L heap back as (bs.head?.or q) ∧ Formed L heap (as.getLast?.or back) bs q := by
  induction as generalizing back with
  | nil => simp [Formed]
  | cons a as ih =>
    have hhead : (as ++ bs).head?.or q = as.head?.or (bs.head?.or q) := by
      cases as with
      | nil => rfl
      | cons b as => rfl
    have hlast : (a :: as).getLast?.or back = as.getLast?.or (some a) := by
      rw [List.getLast?_cons]
      cases as.getLast? with
      | none => rfl
      | some b => rfl
    rw [List.cons_append, Formed, Formed, ih, hhead, hlast, and_assoc]

theorem Formed.congr {back q : Option α} {as : List α} (h : Formed L heap back as q)
    (heq : ∀ a ∈ as, heap' a = heap a) : Formed L heap' back as q := by
  induction as generalizing back with
  | nil => exact trivial
  | cons a as ih =>
    constructor
    · rw [heq a List.mem_cons_self]
      exact h.1
    · exact ih h.2 fun b hb => heq b (List.mem_cons_of_mem _ hb)

theorem Kept.formed {back q : Option α} {as bs : List α} (h : Kept L as heap heap')
    (hf : Formed L heap back bs q) (hdisj : ∀ b ∈ bs, b ∉ as) : Formed L heap' back bs q :=
  hf.congr fun b hb => h.off b (hdisj b hb)

/-- What the links of a node are. -/
theorem Formed.node {back q : Option α} {s t : List α} {a : α}
    (h : Formed L heap back (s ++ a :: t) q) :
    ∃ n, heap a = some n ∧ L.prev n = s.getLast?.or back ∧ L.next n = t.head?.or q :=
  (formed_append.1 h).2.1

theorem Formed.exists_node {back q : Option α} {as : List α} (h : Formed L heap back as q) {a : α}
    (ha : a ∈ as) : ∃ n, heap a = some n := by
  obtain ⟨s, t, rfl⟩ := List.append_of_mem ha
  obtain ⟨n, hn, -⟩ := h.node
  exact ⟨n, hn⟩

/-- Read forwards it is a list. -/
theorem Formed.segment {back q : Option α} {as : List α} (h : Formed L heap back as q) :
    Linked.Segment heap L.next (as.head?.or q) as q := by
  induction as generalizing back with
  | nil => rfl
  | cons a as ih =>
    obtain ⟨⟨n, hn, -, hnext⟩, hrest⟩ := h
    refine ⟨rfl, n, hn, ?_⟩
    rw [hnext]
    exact ih hrest

section Write

variable [DecidableEq α]

/-- `p->next = q` -/
def writeNext (L : Links α ν κ) (heap : α → Option ν) (p q : Option α) : Option (α → Option ν) :=
  p.bind fun a => (heap a).map fun n => Function.update heap a (some (L.setNext q n))

/-- `p->prev = q` -/
def writePrev (L : Links α ν κ) (heap : α → Option ν) (p q : Option α) : Option (α → Option ν) :=
  p.bind fun a => (heap a).map fun n => Function.update heap a (some (L.setPrev q n))

/-- `if (p) p->next = q` -/
def guardNext (L : Links α ν κ) (heap : α → Option ν) (p q : Option α) : Option (α → Option ν) :=
  if p = none then some heap else writeNext L heap p q

/-- `if (p) p->prev = q` -/
def guardPrev (L : Links α ν κ) (heap : α → Option ν) (p q : Option α) : Option (α → Option ν) :=
  if p = none then some heap else writePrev L heap p q

/-- The neighbours of a node are linked to each other. -/
def unlink (L : Links α ν κ) (heap : α → Option ν) (a : α) : Option (α → Option ν) :=
  (heap a).bind fun n =>
    (guardNext L heap (L.prev n) (L.next n)).bind fun heap => guardPrev L heap (L.next n) (L.prev n)

@[simp] theorem guardNext_none (q : Option α) : guardNext L heap none q = some heap := rfl

@[simp] theorem guardPrev_none (q : Option α) : guardPrev L heap none q = some heap := rfl

@[simp] theorem guardNext_some (a : α) (q : Option α) :
    guardNext L heap (some a) q = writeNext L heap (some a) q := rfl

@[simp] theorem guardPrev_some (a : α) (q : Option α) :
    guardPrev L heap (some a) q = writePrev L heap (some a) q := rfl

theorem writeNext_eq {a : α} {n : ν} (ha : heap a = some n) (q : Option α) :
    writeNext L heap (some a) q = some (Function.update heap a (some (L.setNext q n))) := by
  rw [writeNext, Option.bind_some, ha, Option.map_some]

theorem writePrev_eq {a : α} {n : ν} (ha : heap a = some n) (q : Option α) :
    writePrev L heap (some a) q = some (Function.update heap a (some (L.setPrev q n))) := by
  rw [writePrev, Option.bind_some, ha, Option.map_some]

theorem kept_update {a : α} {n n' : ν} (ha : heap a = some n) (hn : L.content n' = L.content n) :
    Kept L [a] heap (Function.update heap a (some n')) where
  off := by
    intro b hb
    have hne : b ≠ a := fun h => hb (List.mem_singleton.2 h)
    exact Function.update_of_ne hne _ _
  content := by
    intro b
    by_cases hb : b = a
    · subst hb
      rw [Function.update_self, ha, Option.map_some, Option.map_some, hn]
    · rw [Function.update_of_ne hb]

/-- The end of a list is led elsewhere. -/
theorem Formed.guardNext {back q : Option α} {as : List α} (h : Formed L heap back as q)
    (hnd : as.Nodup) (q' : Option α) :
    ∃ heap', guardNext L heap as.getLast? q' = some heap' ∧ Formed L heap' back as q' ∧
      Kept L as heap heap' := by
  obtain rfl | ⟨s, a, rfl⟩ := as.eq_nil_or_concat
  · exact ⟨heap, rfl, trivial, fun _ _ => rfl, fun _ => rfl⟩
  rw [List.concat_eq_append] at h hnd ⊢
  obtain ⟨n, hn, hprev, -⟩ := h.node
  have hkept := kept_update hn (L.content_setNext q' n)
  refine ⟨_, ?_, ?_, hkept.mono ?_⟩
  · rw [List.getLast?_append_of_ne_nil _ (List.cons_ne_nil _ _), List.getLast?_singleton,
      guardNext_some, writeNext_eq hn]
  · refine formed_append.2 ⟨hkept.formed (formed_append.1 h).1 ?_, ⟨_, Function.update_self _ _ _, ?_, ?_⟩, trivial⟩
    · intro b hb hba
      exact (List.nodup_append.1 hnd).2.2 b hb a List.mem_cons_self (List.mem_singleton.1 hba)
    · rw [L.prev_setNext, hprev]
    · rw [L.next_setNext]
      rfl
  · intro b hb
    exact List.mem_append_right _ hb

/-- The front of a list is led elsewhere. -/
theorem Formed.guardPrev {back q : Option α} {as : List α} (h : Formed L heap back as q)
    (hnd : as.Nodup) (back' : Option α) :
    ∃ heap', guardPrev L heap as.head? back' = some heap' ∧ Formed L heap' back' as q ∧
      Kept L as heap heap' := by
  cases as with
  | nil => exact ⟨heap, rfl, trivial, fun _ _ => rfl, fun _ => rfl⟩
  | cons a as =>
    obtain ⟨⟨n, hn, -, hnext⟩, hrest⟩ := h
    have hkept := kept_update hn (L.content_setPrev back' n)
    refine ⟨_, writePrev_eq hn back', ⟨⟨_, Function.update_self _ _ _, ?_, ?_⟩, ?_⟩, hkept.mono ?_⟩
    · rw [L.prev_setPrev]
    · rw [L.next_setPrev, hnext]
    · apply hkept.formed hrest
      intro b hb hba
      exact (List.nodup_cons.1 hnd).1 (List.mem_singleton.1 hba ▸ hb)
    · intro b hb
      exact List.mem_singleton.1 hb ▸ List.mem_cons_self

/-- Two lists are joined. -/
theorem Formed.join {back q p r : Option α} {s t : List α} (hs : Formed L heap back s p)
    (ht : Formed L heap r t q) (hnd : (s ++ t).Nodup) (p' r' : Option α) :
    ∃ heap₁ heap₂, Dll.guardNext L heap s.getLast? p' = some heap₁ ∧
      Dll.guardPrev L heap₁ t.head? r' = some heap₂ ∧ Formed L heap₂ back s p' ∧
      Formed L heap₂ r' t q ∧ Kept L (s ++ t) heap heap₂ := by
  obtain ⟨hs', ht', hdisj⟩ := List.nodup_append.1 hnd
  obtain ⟨heap₁, hw₁, hf₁, hk₁⟩ := hs.guardNext hs' p'
  have ht₁ : Formed L heap₁ r t q := hk₁.formed ht fun b hb ha => hdisj b ha b hb rfl
  obtain ⟨heap₂, hw₂, hf₂, hk₂⟩ := ht₁.guardPrev ht' r'
  have hs₂ : Formed L heap₂ back s p' := hk₂.formed hf₁ fun b hb ha => hdisj b hb b ha rfl
  exact ⟨heap₁, heap₂, hw₁, hw₂, hs₂, hf₂, hk₁.trans hk₂⟩

/-- A node is taken out; it keeps its own links. -/
theorem Formed.unlink {s t : List α} {a : α} (h : Formed L heap none (s ++ a :: t) none)
    (hnd : (s ++ a :: t).Nodup) :
    ∃ heap', unlink L heap a = some heap' ∧ Formed L heap' none (s ++ t) none ∧
      Kept L (s ++ t) heap heap' := by
  obtain ⟨n, hn, hprev, hnext⟩ := h.node
  rw [Option.or_none] at hprev hnext
  obtain ⟨hs, -, ht⟩ := formed_append.1 h
  have hsub : (s ++ t).Sublist (s ++ a :: t) := (List.sublist_cons_self a t).append_left s
  have hnd' : (s ++ t).Nodup := hsub.nodup hnd
  obtain ⟨heap₁, heap₂, hw₁, hw₂, hs₂, ht₂, hkept⟩ := hs.join ht hnd' t.head? s.getLast?
  refine ⟨heap₂, ?_, ?_, hkept⟩
  · rw [Dll.unlink, hn, Option.bind_some, hprev, hnext, hw₁, Option.bind_some, hw₂]
  · rw [formed_append, Option.or_none, Option.or_none]
    exact ⟨hs₂, ht₂⟩

/-- A node whose links are set is put in. -/
theorem Formed.insert {s t : List α} {a : α} {n : ν} (h : Formed L heap none (s ++ t) none)
    (hnd : (s ++ t).Nodup) (hout : a ∉ s ++ t) (ha : heap a = some n) (hprev : L.prev n = s.getLast?)
    (hnext : L.next n = t.head?) :
    ∃ heap₁ heap₂, Dll.guardNext L heap s.getLast? (some a) = some heap₁ ∧
      Dll.guardPrev L heap₁ t.head? (some a) = some heap₂ ∧
      Formed L heap₂ none (s ++ a :: t) none ∧ Kept L (s ++ t) heap heap₂ := by
  obtain ⟨hs, ht⟩ := formed_append.1 h
  obtain ⟨heap₁, heap₂, hw₁, hw₂, hs₂, ht₂, hkept⟩ := hs.join ht hnd (some a) (some a)
  refine ⟨heap₁, heap₂, hw₁, hw₂, formed_append.2 ⟨hs₂, ⟨n, ?_, ?_, ?_⟩, ht₂⟩, hkept⟩
  · rw [hkept.off a hout, ha]
  · rw [hprev, Option.or_none]
  · rw [hnext, Option.or_none]

end Write

end Dll
