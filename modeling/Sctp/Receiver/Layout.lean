import Sctp.Receiver.Message
import Sctp.Lib.Serial

/-! The messages of a peer that sends DATA chunks: one behind the other in the sequence of TSNs, and the
ordered ones of each stream with consecutive numbers. -/
namespace Sctp
open Serial

/-- The place of a TSN in the sequence that starts at `init`. -/
def place (init t : Tsn) : ℕ := (t - init).toNat

theorem place_advance (init : Tsn) {n : ℕ} (h : n < 2 ^ 32) : place init (advance init n) = n :=
  toNat_advance_sub init h

theorem advance_place (init t : Tsn) : advance init (place init t) = t :=
  advance_toNat_sub init t

def orderedOn (i : StreamNo) (messages : List Message) : List Message :=
  messages.filter fun m => m.streamId == i && !m.unordered

def fragments (messages : List Message) : ℕ := (messages.map fun m => m.parts.length).sum

/-- The messages lie one behind the other from the place `o` on. -/
def Laid (init : Tsn) : ℕ → List Message → Prop
  | _, [] => True
  | o, m :: ms => (∀ k, m.tsn k = advance init (o + k)) ∧ Laid init (o + m.parts.length) ms

structure Posted (init : Tsn) (messages : List Message) : Prop where
  laid : Laid init 0 messages
  small : fragments messages < 2 ^ 32
  old : ∀ m ∈ messages, m.msgId = none
  numbered : ∀ i k m, (orderedOn i messages)[k]? = some m → m.ssn = BitVec.ofNat 16 k

theorem mem_orderedOn {i : StreamNo} {messages : List Message} {m : Message} :
    m ∈ orderedOn i messages ↔ m ∈ messages ∧ m.streamId = i ∧ m.unordered = false := by
  simp [orderedOn]

theorem orderedOn_cons (i : StreamNo) (m : Message) (messages : List Message) :
    orderedOn i (m :: messages) = orderedOn i messages ∨
      orderedOn i (m :: messages) = m :: orderedOn i messages := by
  unfold orderedOn
  rw [List.filter_cons]
  split
  · exact .inr rfl
  · exact .inl rfl

theorem fragments_cons (m : Message) (messages : List Message) :
    fragments (m :: messages) = m.parts.length + fragments messages :=
  List.sum_cons

namespace Laid

variable {init : Tsn} {o : ℕ} {messages : List Message}

/-- The place of a fragment of the first message. -/
theorem head {m : Message} (h : Laid init o (m :: messages)) (hsmall : o + fragments (m :: messages) < 2 ^ 32)
    {a : ℕ} (ha : a < m.parts.length) : place init (m.tsn a) = o + a := by
  rw [fragments_cons] at hsmall
  rw [h.1, place_advance]
  omega

theorem tail_small {m : Message} (hsmall : o + fragments (m :: messages) < 2 ^ 32) :
    o + m.parts.length + fragments messages < 2 ^ 32 := by
  rw [fragments_cons] at hsmall
  omega

theorem le_place (h : Laid init o messages) (hsmall : o + fragments messages < 2 ^ 32) {m : Message}
    (hm : m ∈ messages) {a : ℕ} (ha : a < m.parts.length) : o ≤ place init (m.tsn a) := by
  induction messages generalizing o with
  | nil => exact absurd hm List.not_mem_nil
  | cons x messages ih =>
    obtain rfl | hm := List.mem_cons.1 hm
    · rw [h.head hsmall ha]
      exact Nat.le_add_right o a
    · have := ih h.2 (tail_small hsmall) hm
      omega

/-- No TSN is used twice. -/
theorem distinct (h : Laid init o messages) (hsmall : o + fragments messages < 2 ^ 32) :
    DistinctTsns messages := by
  induction messages generalizing o with
  | nil => exact fun m hm => absurd hm List.not_mem_nil
  | cons x messages ih =>
    have hfront : ∀ m ∈ messages, ∀ a < x.parts.length, ∀ b < m.parts.length, x.tsn a ≠ m.tsn b := by
      intro m hm a ha b hb heq
      have hle := h.2.le_place (tail_small hsmall) hm hb
      rw [← heq, h.head hsmall ha] at hle
      omega
    intro m hm m' hm' a ha b hb heq
    obtain rfl | hrest := List.mem_cons.1 hm
    · obtain rfl | hrest' := List.mem_cons.1 hm'
      · refine ⟨rfl, ?_⟩
        have hplace := congrArg (place init) heq
        rw [h.head hsmall ha, h.head hsmall hb] at hplace
        omega
      · exact absurd heq (hfront m' hrest' a ha b hb)
    · obtain rfl | hrest' := List.mem_cons.1 hm'
      · exact absurd heq.symm (hfront m hrest b hb a ha)
      · exact ih h.2 (tail_small hsmall) m hrest m' hrest' a ha b hb heq

/-- Each message takes a place at least. -/
theorem le_place_of_index (h : Laid init o messages) (hsmall : o + fragments messages < 2 ^ 32)
    {i : StreamNo} {k : ℕ} {m : Message} (hm : (orderedOn i messages)[k]? = some m) {a : ℕ}
    (ha : a < m.parts.length) : o + k ≤ place init (m.tsn a) := by
  induction messages generalizing o k with
  | nil => cases hm
  | cons x messages ih =>
    have hpos := x.nonempty
    obtain hskip | htake := orderedOn_cons i x messages
    · rw [hskip] at hm
      have := ih h.2 (tail_small hsmall) hm
      omega
    · rw [htake] at hm
      cases k with
      | zero =>
        obtain rfl := Option.some.inj hm
        rw [h.head hsmall ha]
        exact Nat.add_le_add_left (Nat.zero_le a) o
      | succ k =>
        have := ih h.2 (tail_small hsmall) hm
        omega

/-- The later of two ordered messages of a stream is behind the other by what is between them. -/
theorem apart (h : Laid init o messages) (hsmall : o + fragments messages < 2 ^ 32) {i : StreamNo}
    {k k' : ℕ} {m m' : Message} (hm : (orderedOn i messages)[k]? = some m)
    (hm' : (orderedOn i messages)[k']? = some m') (hlt : k < k') {a b : ℕ} (ha : a < m.parts.length)
    (hb : b < m'.parts.length) : place init (m.tsn a) + (k' - k) ≤ place init (m'.tsn b) := by
  induction messages generalizing o k k' with
  | nil => cases hm
  | cons x messages ih =>
    obtain hskip | htake := orderedOn_cons i x messages
    · rw [hskip] at hm hm'
      exact ih h.2 (tail_small hsmall) hm hm' hlt
    · rw [htake] at hm hm'
      cases k' with
      | zero => exact absurd hlt (Nat.not_lt_zero k)
      | succ k' =>
        cases k with
        | zero =>
          obtain rfl := Option.some.inj hm
          have hbehind := h.2.le_place_of_index (tail_small hsmall) hm' hb
          rw [h.head hsmall ha]
          omega
        | succ k =>
          have := ih h.2 (tail_small hsmall) hm hm' (Nat.lt_of_succ_lt_succ hlt)
          omega

end Laid

end Sctp
