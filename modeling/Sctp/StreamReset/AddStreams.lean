import Sctp.Lib.Tailq
import Sctp.Receiver.Stream
import Sctp.StreamReset.Model

/-! Incoming streams that the peer adds: the array of streams is allocated anew, and what waits on the old
streams is moved over. -/
namespace Sctp
open Tailq

/-- The two arrays while the request is handled, `oldstrm` and `strmin`. -/
inductive StrmArray
  | oldstrm
  | strmin
deriving DecidableEq, Repr

/-- The queues a received message can be on. -/
inductive CtlQueue
  | inqueue (a : StrmArray) (i : ℕ)
  | unoInqueue (a : StrmArray) (i : ℕ)
  | readQueue
deriving DecidableEq, Repr

/-- The link fields of `struct sctp_queued_to_read`: `next` on the read queue, `next_instrm` on the
queues of a stream. -/
inductive CtlLink
  | next
  | nextInstrm
deriving DecidableEq, Repr

/-- The fields of `struct sctp_stream_in` that are not queues. A control is a number that stands for its
address. -/
structure StrmFields where
  streamNo : ℕ
  lastSequenceDelivered : Ssn
  deliveryStarted : Bool
  pdApiStarted : Bool
  unoPd : Option ℕ
deriving DecidableEq, Repr

structure StrmHeap where
  mem : Mem ℕ CtlQueue CtlLink
  strm : StrmArray → ℕ → StrmFields

namespace StrmHeap

/-- Some fields of an old stream are copied; `uno_pd` is what the allocator left there. -/
def copyFields (h : StrmHeap) (i : ℕ) : StrmFields :=
  { h.strm .strmin i with
    streamNo := i
    lastSequenceDelivered := (h.strm .oldstrm i).lastSequenceDelivered
    deliveryStarted := (h.strm .oldstrm i).deliveryStarted
    pdApiStarted := (h.strm .oldstrm i).pdApiStarted }

def setStrm (h : StrmHeap) (i : ℕ) (x : StrmFields) : StrmHeap :=
  { h with strm := Function.update h.strm .strmin (Function.update (h.strm .strmin) i x) }

/-- `TAILQ_INIT` of both queues of a stream of the new array. -/
def initQueues (h : StrmHeap) (i : ℕ) : StrmHeap :=
  { h with mem := init (init h.mem (.inqueue .strmin i)) (.unoInqueue .strmin i) }

/-- A queue is walked and moved by the link `next`, though its links are `next_instrm`. -/
def moveQueue (fuel : ℕ) (src dst : CtlQueue) (h : StrmHeap) : Option StrmHeap :=
  (moveAll src dst .next fuel (h.mem.head src).tqhFirst h.mem).map fun m => { h with mem := m }

def copyStream (fuel : ℕ) (h : StrmHeap) (i : ℕ) : Option StrmHeap :=
  let h := (h.initQueues i).setStrm i (h.copyFields i)
  (moveQueue fuel (.inqueue .oldstrm i) (.inqueue .strmin i) h).bind
    (moveQueue fuel (.unoInqueue .oldstrm i) (.unoInqueue .strmin i))

def copyStreams (fuel : ℕ) : List ℕ → StrmHeap → Option StrmHeap
  | [], h => some h
  | i :: is, h => (copyStream fuel h i).bind (copyStreams fuel is)

def newFields (i : ℕ) : StrmFields :=
  { streamNo := i, lastSequenceDelivered := 0xffff, deliveryStarted := false, pdApiStarted := false,
    unoPd := none }

def initStreams : List ℕ → StrmHeap → StrmHeap
  | [], h => h
  | i :: is, h => initStreams is ((h.initQueues i).setStrm i (newFields i))

/-- The accepted part of `sctp_handle_str_reset_add_strm`. The walks over the old queues end within
`fuel` rounds, or there is no result; nor is there one when a null pointer is written through. The array
`strmin` holds what the allocator left there. -/
def addStreams (fuel cnt total : ℕ) (h : StrmHeap) : Option StrmHeap :=
  (copyStreams fuel (List.range cnt) h).map (initStreams (List.range' cnt (total - cnt)))

end StrmHeap

namespace ResetAsoc

def acceptsAddStrm (env : ResetEnv) (s : ResetAsoc) (seq : ResetSeq) (numberOfStreams : BitVec 16) :
    Bool :=
  decide (s.strResetSeqIn = seq) && s.enableChangeAssoc &&
    decide (numberOfStreams.toNat + s.streamincnt ≤ s.maxInboundStreams) &&
    decide (numberOfStreams.toNat + s.streamincnt ≤ 0xffff) && env.strminOk

def addStrmHeap (env : ResetEnv) (fuel : ℕ) (s : ResetAsoc) (seq : ResetSeq)
    (numberOfStreams : BitVec 16) (h : StrmHeap) : Option StrmHeap :=
  if s.acceptsAddStrm env seq numberOfStreams then
    h.addStreams fuel s.streamincnt (numberOfStreams.toNat + s.streamincnt)
  else some h

/-- The streams are counted anew when the request is accepted, and only then. -/
theorem handleStrResetAddStrm_streamincnt (env : ResetEnv) (s : ResetAsoc) (seq : ResetSeq)
    (n : BitVec 16) :
    (s.handleStrResetAddStrm env seq n).streamincnt =
      if s.acceptsAddStrm env seq n then n.toNat + s.streamincnt else s.streamincnt := by
  by_cases hacc : s.acceptsAddStrm env seq n = true
  · have h := hacc
    simp only [acceptsAddStrm, Bool.and_eq_true, decide_eq_true_eq] at h
    obtain ⟨⟨⟨⟨hseq, hon⟩, hmax⟩, hwide⟩, hroom⟩ := h
    have hdeny : (!s.enableChangeAssoc || decide (s.maxInboundStreams < n.toNat + s.streamincnt) ||
        decide (0xffff < n.toNat + s.streamincnt) || !env.strminOk) = false := by
      simp [hon, hroom, hmax, hwide]
    rw [if_pos hacc]
    unfold handleStrResetAddStrm
    dsimp only
    rw [if_pos hseq, hdeny]
    rfl
  · rw [if_neg hacc]
    simp only [acceptsAddStrm, Bool.and_eq_true, decide_eq_true_eq] at hacc
    unfold handleStrResetAddStrm
    dsimp only
    split_ifs with hseq hdeny
    · rfl
    · simp only [Bool.or_eq_true, decide_eq_true_eq, Bool.not_eq_true', not_or, not_lt] at hdeny
      obtain ⟨⟨⟨hon, hmax⟩, hwide⟩, hroom⟩ := hdeny
      exact absurd ⟨⟨⟨⟨hseq, by simpa using hon⟩, hmax⟩, hwide⟩, by simpa using hroom⟩ hacc
    · unfold answerOld
      split_ifs <;> rfl

end ResetAsoc

namespace StrmHeap

variable {fuel : ℕ}

theorem initQueues_head_of_ne (h : StrmHeap) {i : ℕ} {q : CtlQueue} (hin : q ≠ .inqueue .strmin i)
    (huno : q ≠ .unoInqueue .strmin i) : (h.initQueues i).mem.head q = h.mem.head q := by
  unfold initQueues
  dsimp only
  rw [init_head_of_ne _ huno, init_head_of_ne _ hin]

theorem initQueues_inqueue (h : StrmHeap) (i : ℕ) :
    (h.initQueues i).mem.head (.inqueue .strmin i) =
      { tqhFirst := none, tqhLast := .first (.inqueue .strmin i) } := by
  unfold initQueues
  dsimp only
  rw [init_head_of_ne _ (by simp), init_head_self]

theorem initQueues_unoInqueue (h : StrmHeap) (i : ℕ) :
    (h.initQueues i).mem.head (.unoInqueue .strmin i) =
      { tqhFirst := none, tqhLast := .first (.unoInqueue .strmin i) } := init_head_self _ _

theorem setStrm_self (h : StrmHeap) (i : ℕ) (x : StrmFields) :
    (h.setStrm i x).strm .strmin i = x := by
  simp [setStrm]

theorem setStrm_of_ne (h : StrmHeap) {i j : ℕ} (x : StrmFields) (hne : j ≠ i) :
    (h.setStrm i x).strm .strmin j = h.strm .strmin j := by
  simp [setStrm, hne]

@[simp] theorem setStrm_oldstrm (h : StrmHeap) (i : ℕ) (x : StrmFields) :
    (h.setStrm i x).strm .oldstrm = h.strm .oldstrm := by
  simp [setStrm]

@[simp] theorem setStrm_mem (h : StrmHeap) (i : ℕ) (x : StrmFields) :
    (h.setStrm i x).mem = h.mem := rfl

theorem moveQueue_of_none {src dst : CtlQueue} {h : StrmHeap}
    (hnone : (h.mem.head src).tqhFirst = none) : moveQueue fuel src dst h = some h := by
  unfold moveQueue
  rw [hnone, moveAll_none]
  rfl

theorem moveQueue_strm {src dst : CtlQueue} {h h' : StrmHeap}
    (hm : moveQueue fuel src dst h = some h') : h'.strm = h.strm := by
  obtain ⟨m, _, rfl⟩ := Option.map_eq_some_iff.mp hm
  rfl

theorem moveQueue_last_of_ne {src dst q : CtlQueue} {h h' : StrmHeap}
    (hm : moveQueue fuel src dst h = some h') (hsrc : q ≠ src) (hdst : q ≠ dst) :
    (h'.mem.head q).tqhLast = (h.mem.head q).tqhLast := by
  obtain ⟨m, hall, rfl⟩ := Option.map_eq_some_iff.mp hm
  exact moveAll_last_of_ne hsrc hdst hall

/-- A queue with anything on it is moved to one that ends in a field its elements are not linked by. -/
theorem moveQueue_last {src dst : CtlQueue} {h h' : StrmHeap}
    (hm : moveQueue fuel src dst h = some h') (hsome : (h.mem.head src).tqhFirst ≠ none) :
    ∃ b, (h'.mem.head dst).tqhLast = .next .next b := by
  obtain ⟨m, hall, rfl⟩ := Option.map_eq_some_iff.mp hm
  obtain ⟨a, ha⟩ := Option.ne_none_iff_exists'.mp hsome
  rw [ha] at hall
  exact moveAll_last hall

def Idle (h : StrmHeap) (i : ℕ) : Prop :=
  (h.mem.head (.inqueue .oldstrm i)).tqhFirst = none ∧
    (h.mem.head (.unoInqueue .oldstrm i)).tqhFirst = none

theorem copyStream_of_idle {h : StrmHeap} {i : ℕ} (hidle : h.Idle i) :
    copyStream fuel h i = some ((h.initQueues i).setStrm i (h.copyFields i)) := by
  unfold copyStream
  dsimp only
  rw [moveQueue_of_none, Option.bind_some, moveQueue_of_none]
  · rw [setStrm_mem, initQueues_head_of_ne _ (by simp) (by simp)]
    exact hidle.2
  · rw [setStrm_mem, initQueues_head_of_ne _ (by simp) (by simp)]
    exact hidle.1

theorem copyStream_strm {h h' : StrmHeap} {i : ℕ} (hc : copyStream fuel h i = some h') :
    h'.strm = (h.setStrm i (h.copyFields i)).strm := by
  obtain ⟨h₁, hin, huno⟩ := Option.bind_eq_some_iff.mp hc
  rw [moveQueue_strm huno, moveQueue_strm hin]
  rfl

theorem copyStream_last_of_ne {h h' : StrmHeap} {i j : ℕ} (hc : copyStream fuel h i = some h')
    (hne : j ≠ i) :
    (h'.mem.head (.inqueue .strmin j)).tqhLast = (h.mem.head (.inqueue .strmin j)).tqhLast ∧
      (h'.mem.head (.unoInqueue .strmin j)).tqhLast =
        (h.mem.head (.unoInqueue .strmin j)).tqhLast := by
  obtain ⟨h₁, hin, huno⟩ := Option.bind_eq_some_iff.mp hc
  constructor
  · rw [moveQueue_last_of_ne huno (by simp) (by simp),
      moveQueue_last_of_ne hin (by simp) (by simp [hne]), setStrm_mem,
      initQueues_head_of_ne _ (by simp [hne]) (by simp)]
  · rw [moveQueue_last_of_ne huno (by simp) (by simp [hne]),
      moveQueue_last_of_ne hin (by simp) (by simp), setStrm_mem,
      initQueues_head_of_ne _ (by simp) (by simp [hne])]

/-- The new queue of a stream ends in a field of the read queue, and the old one had messages. -/
def Broken (h h' : StrmHeap) (i : ℕ) : Prop :=
  ((h.mem.head (.inqueue .oldstrm i)).tqhFirst ≠ none ∧
      ∃ b, (h'.mem.head (.inqueue .strmin i)).tqhLast = .next .next b) ∨
    ((h.mem.head (.unoInqueue .oldstrm i)).tqhFirst ≠ none ∧
      ∃ b, (h'.mem.head (.unoInqueue .strmin i)).tqhLast = .next .next b)

theorem copyStream_broken {h h' : StrmHeap} {i : ℕ} (hc : copyStream fuel h i = some h')
    (hidle : ¬ h.Idle i) : Broken h h' i := by
  obtain ⟨h₁, hin, huno⟩ := Option.bind_eq_some_iff.mp hc
  have hold : ∀ q, q ≠ .inqueue .strmin i → q ≠ .unoInqueue .strmin i →
      ((h.initQueues i).setStrm i (h.copyFields i)).mem.head q = h.mem.head q := by
    intro q h₁ h₂
    rw [setStrm_mem, initQueues_head_of_ne h h₁ h₂]
  by_cases hempty : (h.mem.head (.inqueue .oldstrm i)).tqhFirst = none
  · right
    have hne : (h.mem.head (.unoInqueue .oldstrm i)).tqhFirst ≠ none :=
      fun hn => hidle ⟨hempty, hn⟩
    rw [moveQueue_of_none (by rw [hold _ (by simp) (by simp)]; exact hempty)] at hin
    obtain rfl := Option.some.inj hin
    refine ⟨hne, moveQueue_last huno ?_⟩
    rw [hold _ (by simp) (by simp)]
    exact hne
  · left
    obtain ⟨b, hb⟩ := moveQueue_last hin (by rw [hold _ (by simp) (by simp)]; exact hempty)
    exact ⟨hempty, b, by rw [moveQueue_last_of_ne huno (by simp) (by simp), hb]⟩

theorem copyStreams_strm_of_notMem {is : List ℕ} {h h' : StrmHeap}
    (hc : copyStreams fuel is h = some h') {i : ℕ} (hi : i ∉ is) :
    h'.strm .strmin i = h.strm .strmin i := by
  induction is generalizing h with
  | nil => rw [Option.some.inj hc]
  | cons j is ih =>
    obtain ⟨h₁, hj, hrest⟩ := Option.bind_eq_some_iff.mp hc
    rw [List.mem_cons, not_or] at hi
    rw [ih hrest hi.2, copyStream_strm hj, setStrm_of_ne _ _ hi.1]

theorem copyStreams_strm {is : List ℕ} (hnd : is.Nodup) {h h' : StrmHeap}
    (hc : copyStreams fuel is h = some h') {i : ℕ} (hi : i ∈ is) :
    h'.strm .strmin i = h.copyFields i := by
  induction is generalizing h with
  | nil => cases hi
  | cons j is ih =>
    obtain ⟨h₁, hj, hrest⟩ := Option.bind_eq_some_iff.mp hc
    rw [List.nodup_cons] at hnd
    have hstrm := copyStream_strm hj
    rcases List.mem_cons.mp hi with rfl | hi
    · rw [copyStreams_strm_of_notMem hrest hnd.1, hstrm, setStrm_self]
    · have hne : i ≠ j := fun heq => hnd.1 (heq ▸ hi)
      rw [ih hnd.2 hrest hi]
      unfold copyFields
      rw [hstrm, setStrm_of_ne _ _ hne, setStrm_oldstrm]

theorem copyStreams_last_of_notMem {is : List ℕ} {h h' : StrmHeap}
    (hc : copyStreams fuel is h = some h') {i : ℕ} (hi : i ∉ is) :
    (h'.mem.head (.inqueue .strmin i)).tqhLast = (h.mem.head (.inqueue .strmin i)).tqhLast ∧
      (h'.mem.head (.unoInqueue .strmin i)).tqhLast =
        (h.mem.head (.unoInqueue .strmin i)).tqhLast := by
  induction is generalizing h with
  | nil =>
    obtain rfl := Option.some.inj hc
    exact ⟨rfl, rfl⟩
  | cons j is ih =>
    obtain ⟨h₁, hj, hrest⟩ := Option.bind_eq_some_iff.mp hc
    rw [List.mem_cons, not_or] at hi
    obtain ⟨hin, huno⟩ := ih hrest hi.2
    obtain ⟨hin', huno'⟩ := copyStream_last_of_ne hj hi.1
    exact ⟨hin.trans hin', huno.trans huno'⟩

theorem idle_initQueues {h : StrmHeap} {i j : ℕ} {x : StrmFields} :
    ((h.initQueues i).setStrm i x).Idle j ↔ h.Idle j := by
  unfold Idle
  rw [setStrm_mem, initQueues_head_of_ne _ (by simp) (by simp),
    initQueues_head_of_ne _ (by simp) (by simp)]

/-- The first old stream that messages wait on has them moved by the wrong link, and no round after it
repairs that. -/
theorem copyStreams_broken {is : List ℕ} (hnd : is.Nodup) {h h' : StrmHeap}
    (hc : copyStreams fuel is h = some h') (hbusy : ∃ i ∈ is, ¬ h.Idle i) :
    ∃ i ∈ is, Broken h h' i := by
  induction is generalizing h with
  | nil =>
    obtain ⟨i, hi, _⟩ := hbusy
    cases hi
  | cons j is ih =>
    obtain ⟨h₁, hj, hrest⟩ := Option.bind_eq_some_iff.mp hc
    rw [List.nodup_cons] at hnd
    by_cases hidle : h.Idle j
    · obtain rfl := Option.some.inj ((copyStream_of_idle hidle).symm.trans hj)
      have hbusy' : ∃ i ∈ is, ¬ ((h.initQueues j).setStrm j (h.copyFields j)).Idle i := by
        obtain ⟨i, hi, hni⟩ := hbusy
        rcases List.mem_cons.mp hi with rfl | hi
        · exact absurd hidle hni
        · exact ⟨i, hi, fun hid => hni (idle_initQueues.mp hid)⟩
      obtain ⟨i, hi, hbroken⟩ := ih hnd.2 hrest hbusy'
      refine ⟨i, List.mem_cons_of_mem j hi, ?_⟩
      unfold Broken at hbroken ⊢
      rwa [setStrm_mem, initQueues_head_of_ne _ (by simp) (by simp),
        initQueues_head_of_ne _ (by simp) (by simp)] at hbroken
    · obtain ⟨hin, huno⟩ := copyStreams_last_of_notMem hrest hnd.1
      refine ⟨j, List.mem_cons_self, ?_⟩
      unfold Broken
      rw [hin, huno]
      exact copyStream_broken hj hidle

/-- A queue that is empty stays so when queues of the new array are set up. -/
theorem queue_initQueues_nil {h : StrmHeap} {q : CtlQueue} {f : CtlLink} (hq : Queue h.mem q f [])
    (i : ℕ) : Queue (h.initQueues i).mem q f [] := by
  by_cases hin : q = .inqueue .strmin i
  · subst hin
    rw [queue_nil_iff, initQueues_inqueue]
    exact ⟨rfl, rfl⟩
  · by_cases huno : q = .unoInqueue .strmin i
    · subst huno
      exact queue_init _ _ _
    · rw [queue_nil_iff, initQueues_head_of_ne h hin huno]
      exact hq

theorem initQueues_empty (h : StrmHeap) (i : ℕ) (f : CtlLink) :
    Queue (h.initQueues i).mem (.inqueue .strmin i) f [] ∧
      Queue (h.initQueues i).mem (.unoInqueue .strmin i) f [] := by
  constructor
  · rw [queue_nil_iff, initQueues_inqueue]
    exact ⟨rfl, rfl⟩
  · exact queue_init _ _ _

/-- What is left of the queues when those of the streams `is` of the new array were set up and
nothing was moved. -/
structure SetUp (is : List ℕ) (h h' : StrmHeap) : Prop where
  entry : h'.mem.entry = h.mem.entry
  readQueue : h'.mem.head .readQueue = h.mem.head .readQueue
  nil : ∀ {q f}, Queue h.mem q f [] → Queue h'.mem q f []
  empty : ∀ i ∈ is, ∀ f, Queue h'.mem (.inqueue .strmin i) f [] ∧
    Queue h'.mem (.unoInqueue .strmin i) f []

theorem setUp_nil (h : StrmHeap) : SetUp [] h h where
  entry := rfl
  readQueue := rfl
  nil := id
  empty := by simp

theorem SetUp.cons {i : ℕ} {is : List ℕ} {h h' : StrmHeap} {x : StrmFields}
    (hs : SetUp is ((h.initQueues i).setStrm i x) h') : SetUp (i :: is) h h' where
  entry := hs.entry.trans rfl
  readQueue := by
    rw [hs.readQueue, setStrm_mem, initQueues_head_of_ne _ (by simp) (by simp)]
  nil hq := hs.nil (queue_initQueues_nil hq i)
  empty j hj f := by
    rcases List.mem_cons.mp hj with rfl | hj
    · exact ⟨hs.nil (initQueues_empty h j f).1, hs.nil (initQueues_empty h j f).2⟩
    · exact hs.empty j hj f

theorem copyStreams_of_idle (fuel : ℕ) {is : List ℕ} {h : StrmHeap} (hidle : ∀ i ∈ is, h.Idle i) :
    ∃ h', copyStreams fuel is h = some h' ∧ SetUp is h h' := by
  induction is generalizing h with
  | nil => exact ⟨h, rfl, setUp_nil h⟩
  | cons i is ih =>
    obtain ⟨h', hc, hs⟩ := ih (h := (h.initQueues i).setStrm i (h.copyFields i)) fun j hj =>
      idle_initQueues.mpr (hidle j (List.mem_cons_of_mem i hj))
    refine ⟨h', ?_, hs.cons⟩
    unfold copyStreams
    rw [copyStream_of_idle (hidle i List.mem_cons_self)]
    exact hc

theorem initStreams_setUp (is : List ℕ) (h : StrmHeap) : SetUp is h (initStreams is h) := by
  induction is generalizing h with
  | nil => exact setUp_nil h
  | cons i is ih => exact (ih _).cons

theorem initStreams_strm_of_notMem {is : List ℕ} {i : ℕ} (hi : i ∉ is) (h : StrmHeap) :
    (initStreams is h).strm .strmin i = h.strm .strmin i := by
  induction is generalizing h with
  | nil => rfl
  | cons j is ih =>
    rw [List.mem_cons, not_or] at hi
    unfold initStreams
    rw [ih hi.2, setStrm_of_ne _ _ hi.1]
    rfl

theorem initStreams_strm {is : List ℕ} {i : ℕ} (hi : i ∈ is) (h : StrmHeap) :
    (initStreams is h).strm .strmin i = newFields i := by
  induction is generalizing h with
  | nil => cases hi
  | cons j is ih =>
    unfold initStreams
    by_cases hmem : i ∈ is
    · exact ih hmem _
    · obtain rfl : i = j := (List.mem_cons.mp hi).resolve_right hmem
      rw [initStreams_strm_of_notMem hmem, setStrm_self]

theorem initStreams_head {is : List ℕ} {i : ℕ} (hi : i ∉ is) (h : StrmHeap) :
    (initStreams is h).mem.head (.inqueue .strmin i) = h.mem.head (.inqueue .strmin i) ∧
      (initStreams is h).mem.head (.unoInqueue .strmin i) =
        h.mem.head (.unoInqueue .strmin i) := by
  induction is generalizing h with
  | nil => exact ⟨rfl, rfl⟩
  | cons j is ih =>
    rw [List.mem_cons, not_or] at hi
    unfold initStreams
    rw [(ih hi.2 _).1, (ih hi.2 _).2, setStrm_mem, initQueues_head_of_ne _ (by simp [hi.1]) (by simp),
      initQueues_head_of_ne _ (by simp) (by simp [hi.1])]
    exact ⟨rfl, rfl⟩

end StrmHeap

/-- What happens on a stream after the request: messages and fragments that arrive, and the delivery of
what waits. -/
inductive StrmOp
  | wholeMessage (control : Control)
  | fragment (control : Control) (chk : RecvChunk) (createdControl : Bool)
  | deliver
deriving DecidableEq, Repr

def StrmOp.run (cfg : RecvConfig) (s : StreamRx) : StrmOp → Except Fault StreamRx
  | .wholeMessage control => (queueDataToStream cfg s control).map (·.1)
  | .fragment control chk created => queueDataForReasm cfg s control chk created
  | .deliver => (deliverReasmCheck cfg s).map (·.1)

namespace StrmHeap

/-- The stream as the receiving functions see it: `ctl` is what the controls hold. -/
structure Shows (ctl : ℕ → Control) (h : StrmHeap) (a : StrmArray) (i : ℕ) (x : StreamIn) : Prop where
  inqueue : ∃ as, Queue h.mem (.inqueue a i) .nextInstrm as ∧ x.inqueue = as.map ctl
  unoInqueue : ∃ as, Queue h.mem (.unoInqueue a i) .nextInstrm as ∧ x.unoInqueue = as.map ctl
  unoPd : x.unoPd = (h.strm a i).unoPd.map ctl
  lastSequenceDelivered : x.lastSequenceDelivered = (h.strm a i).lastSequenceDelivered
  pdApiStarted : x.pdApiStarted = (h.strm a i).pdApiStarted

/-- The old streams are in the new array as they were, and the streams behind them are new. -/
structure KeepsStreams (cnt total : ℕ) (h h' : StrmHeap) : Prop where
  inqueue : ∀ i < cnt, ∀ as, Queue h.mem (.inqueue .oldstrm i) .nextInstrm as →
    Queue h'.mem (.inqueue .strmin i) .nextInstrm as
  unoInqueue : ∀ i < cnt, ∀ as, Queue h.mem (.unoInqueue .oldstrm i) .nextInstrm as →
    Queue h'.mem (.unoInqueue .strmin i) .nextInstrm as
  lastSequenceDelivered : ∀ i < cnt,
    (h'.strm .strmin i).lastSequenceDelivered = (h.strm .oldstrm i).lastSequenceDelivered
  deliveryStarted : ∀ i < cnt,
    (h'.strm .strmin i).deliveryStarted = (h.strm .oldstrm i).deliveryStarted
  pdApiStarted : ∀ i < cnt, (h'.strm .strmin i).pdApiStarted = (h.strm .oldstrm i).pdApiStarted
  unoPd : ∀ i < cnt, (h'.strm .strmin i).unoPd = (h.strm .oldstrm i).unoPd
  readQueue : ∀ as, Queue h.mem .readQueue .next as → Queue h'.mem .readQueue .next as
  newStreams : ∀ i, cnt ≤ i → i < total → h'.strm .strmin i = newFields i ∧
    Queue h'.mem (.inqueue .strmin i) .nextInstrm [] ∧
    Queue h'.mem (.unoInqueue .strmin i) .nextInstrm []
  deliveries : ∀ i < cnt, ∀ ctl x y, Shows ctl h .oldstrm i x → Shows ctl h' .strmin i y →
    ∀ cfg asoc ops, List.foldlM (StrmOp.run cfg) { toRecvAsoc := asoc, strm := y } ops =
      List.foldlM (StrmOp.run cfg) { toRecvAsoc := asoc, strm := x } ops

/-- The queues of the old streams are linked as they should be. -/
def WellLinked (cnt : ℕ) (h : StrmHeap) : Prop :=
  ∀ i < cnt, (∃ as, Queue h.mem (.inqueue .oldstrm i) .nextInstrm as) ∧
    ∃ as, Queue h.mem (.unoInqueue .oldstrm i) .nextInstrm as

/-- Views of the two arrays are the same stream when the queues and the fields are kept. -/
theorem Shows.eq {ctl : ℕ → Control} {h h' : StrmHeap} {i : ℕ} {x y : StreamIn}
    (hx : Shows ctl h .oldstrm i x) (hy : Shows ctl h' .strmin i y)
    (hin : ∀ as, Queue h.mem (.inqueue .oldstrm i) .nextInstrm as →
      Queue h'.mem (.inqueue .strmin i) .nextInstrm as)
    (huno : ∀ as, Queue h.mem (.unoInqueue .oldstrm i) .nextInstrm as →
      Queue h'.mem (.unoInqueue .strmin i) .nextInstrm as)
    (hstrm : (h'.strm .strmin i).unoPd = (h.strm .oldstrm i).unoPd)
    (hlast : (h'.strm .strmin i).lastSequenceDelivered = (h.strm .oldstrm i).lastSequenceDelivered)
    (hpd : (h'.strm .strmin i).pdApiStarted = (h.strm .oldstrm i).pdApiStarted) : y = x := by
  obtain ⟨as, has, hxin⟩ := hx.inqueue
  obtain ⟨as', has', hyin⟩ := hy.inqueue
  obtain ⟨bs, hbs, hxuno⟩ := hx.unoInqueue
  obtain ⟨bs', hbs', hyuno⟩ := hy.unoInqueue
  obtain rfl := Queue.unique (hin as has) has'
  obtain rfl := Queue.unique (huno bs hbs) hbs'
  have hunoPd : y.unoPd = x.unoPd := by rw [hx.unoPd, hy.unoPd, hstrm]
  have hdelivered : y.lastSequenceDelivered = x.lastSequenceDelivered := by
    rw [hx.lastSequenceDelivered, hy.lastSequenceDelivered, hlast]
  have hstarted : y.pdApiStarted = x.pdApiStarted := by rw [hx.pdApiStarted, hy.pdApiStarted, hpd]
  cases x
  cases y
  simp_all

theorem not_mem_newStreams {i cnt n : ℕ} (hi : i < cnt) : i ∉ List.range' cnt n := by
  rw [List.mem_range'_1]
  omega

/-- Streams are kept only when there is nothing to move. -/
theorem idle_of_keepsStreams {cnt total : ℕ} {h h' : StrmHeap} (hq : h.WellLinked cnt)
    (hrun : h.addStreams fuel cnt total = some h') (hk : KeepsStreams cnt total h h') :
    ∀ i < cnt, h.Idle i := by
  obtain ⟨h₁, hc, rfl⟩ := Option.map_eq_some_iff.mp hrun
  by_contra hbusy
  push Not at hbusy
  obtain ⟨i, hi, hni⟩ := hbusy
  obtain ⟨j, hj, hbroken⟩ :=
    copyStreams_broken List.nodup_range hc ⟨i, List.mem_range.mpr hi, hni⟩
  rw [List.mem_range] at hj
  obtain ⟨⟨as, has⟩, bs, hbs⟩ := hq j hj
  have hheads := initStreams_head (not_mem_newStreams (n := total - cnt) hj) h₁
  rcases hbroken with ⟨hne, b, hb⟩ | ⟨hne, b, hb⟩
  · have hkept := hk.inqueue j hj as has
    obtain ⟨a, ha⟩ := hkept.last_of_ne_nil fun hnil => hne (has.first_eq_none_iff.mpr hnil)
    rw [hheads.1, hb] at ha
    cases ha
  · have hkept := hk.unoInqueue j hj bs hbs
    obtain ⟨a, ha⟩ := hkept.last_of_ne_nil fun hnil => hne (hbs.first_eq_none_iff.mpr hnil)
    rw [hheads.2, hb] at ha
    cases ha

theorem addStreams_strm {cnt total : ℕ} {h h' : StrmHeap}
    (hrun : h.addStreams fuel cnt total = some h') {i : ℕ} (hi : i < cnt) :
    h'.strm .strmin i = h.copyFields i := by
  obtain ⟨h₁, hc, rfl⟩ := Option.map_eq_some_iff.mp hrun
  rw [initStreams_strm_of_notMem (not_mem_newStreams hi),
    copyStreams_strm List.nodup_range hc (List.mem_range.mpr hi)]

/-- Nothing waits on any old stream: the queues of all streams are empty afterwards, and what is on the
read queue stays there. -/
theorem addStreams_of_idle {cnt : ℕ} (total : ℕ) {h : StrmHeap} (hidle : ∀ i < cnt, h.Idle i) (fuel : ℕ) :
    ∃ h', h.addStreams fuel cnt total = some h' ∧
      (∀ as, Queue h.mem .readQueue .next as → Queue h'.mem .readQueue .next as) ∧
      (∀ i < max cnt total, ∀ f, Queue h'.mem (.inqueue .strmin i) f [] ∧
        Queue h'.mem (.unoInqueue .strmin i) f []) ∧
      ∀ i, cnt ≤ i → i < total → h'.strm .strmin i = newFields i := by
  obtain ⟨h₁, hc, hs⟩ := copyStreams_of_idle fuel (h := h)
    fun i hi => hidle i (List.mem_range.mp hi : i < cnt)
  have hs' := initStreams_setUp (List.range' cnt (total - cnt)) h₁
  refine ⟨_, Option.map_eq_some_iff.mpr ⟨h₁, hc, rfl⟩, ?_, ?_, ?_⟩
  · intro as has
    have hhead := hs'.readQueue.trans hs.readQueue
    exact has.congr hhead (by rw [hs'.entry, hs.entry])
  · intro i hi f
    by_cases hold : i < cnt
    · have hempty := hs.empty i (List.mem_range.mpr hold) f
      exact ⟨hs'.nil hempty.1, hs'.nil hempty.2⟩
    · exact hs'.empty i (by rw [List.mem_range'_1]; omega) f
  · intro i hlo hhi
    exact initStreams_strm (by rw [List.mem_range'_1]; omega) h₁

theorem keepsStreams_of_idle {cnt : ℕ} (total : ℕ) {h : StrmHeap}
    (hidle : ∀ i < cnt, h.Idle i)
    (hpd : ∀ i < cnt, (h.strm .strmin i).unoPd = (h.strm .oldstrm i).unoPd) (fuel : ℕ) :
    ∃ h', h.addStreams fuel cnt total = some h' ∧ KeepsStreams cnt total h h' := by
  obtain ⟨h', hrun, hread, hempty, hnew⟩ := addStreams_of_idle total hidle fuel
  have hin : ∀ i < cnt, ∀ as, Queue h.mem (.inqueue .oldstrm i) .nextInstrm as →
      Queue h'.mem (.inqueue .strmin i) .nextInstrm as := by
    intro i hi as has
    rw [has.first_eq_none_iff.mp (hidle i hi).1]
    exact (hempty i (lt_max_of_lt_left hi) _).1
  have huno : ∀ i < cnt, ∀ as, Queue h.mem (.unoInqueue .oldstrm i) .nextInstrm as →
      Queue h'.mem (.unoInqueue .strmin i) .nextInstrm as := by
    intro i hi as has
    rw [has.first_eq_none_iff.mp (hidle i hi).2]
    exact (hempty i (lt_max_of_lt_left hi) _).2
  have hstrm : ∀ i < cnt, h'.strm .strmin i = h.copyFields i := fun i hi => addStreams_strm hrun hi
  have hunoPd : ∀ i < cnt, (h'.strm .strmin i).unoPd = (h.strm .oldstrm i).unoPd := by
    intro i hi
    rw [hstrm i hi]
    exact hpd i hi
  refine ⟨h', hrun, ?_⟩
  constructor
  case inqueue => exact hin
  case unoInqueue => exact huno
  case lastSequenceDelivered =>
    intro i hi
    rw [hstrm i hi]
    rfl
  case deliveryStarted =>
    intro i hi
    rw [hstrm i hi]
    rfl
  case pdApiStarted =>
    intro i hi
    rw [hstrm i hi]
    rfl
  case unoPd => exact hunoPd
  case readQueue => exact hread
  case newStreams =>
    intro i hlo hhi
    have he := hempty i (lt_max_of_lt_right hhi) .nextInstrm
    exact ⟨hnew i hlo hhi, he.1, he.2⟩
  case deliveries =>
    intro i hi ctl x y hx hy cfg asoc ops
    have hyx : y = x := hx.eq hy (hin i hi) (huno i hi) (hunoPd i hi)
      (by rw [hstrm i hi]; rfl) (by rw [hstrm i hi]; rfl)
    rw [hyx]

/-- A request that adds streams keeps the old ones if nothing waits on any of them and the allocator
happens to leave their `uno_pd` where the new array has it, and only then. -/
theorem addStrmHeap_keepsStreams_iff (env : ResetEnv) (s : ResetAsoc) (seq : ResetSeq)
    (numberOfStreams : BitVec 16) (h : StrmHeap)
    (hacc : s.acceptsAddStrm env seq numberOfStreams = true) (hq : h.WellLinked s.streamincnt) :
    (∃ fuel h', s.addStrmHeap env fuel seq numberOfStreams h = some h' ∧
        KeepsStreams s.streamincnt (numberOfStreams.toNat + s.streamincnt) h h') ↔
      ∀ i < s.streamincnt, h.Idle i ∧ (h.strm .strmin i).unoPd = (h.strm .oldstrm i).unoPd := by
  constructor
  · rintro ⟨fuel, h', hrun, hk⟩ i hi
    unfold ResetAsoc.addStrmHeap at hrun
    rw [if_pos hacc] at hrun
    have hpd := hk.unoPd i hi
    rw [addStreams_strm hrun hi] at hpd
    exact ⟨idle_of_keepsStreams hq hrun hk i hi, hpd⟩
  · intro hall
    obtain ⟨h', hrun, hk⟩ := keepsStreams_of_idle
      (numberOfStreams.toNat + s.streamincnt) (fun i hi => (hall i hi).1) (fun i hi => (hall i hi).2) 0
    refine ⟨0, h', ?_, hk⟩
    unfold ResetAsoc.addStrmHeap
    rw [if_pos hacc]
    exact hrun

/-- Ten streams that have delivered messages and on which nothing waits. An unordered message of stream 4 is
delivered in parts, two messages are on the read queue, and the memory of the new array is not clear. -/
def quietStreams : StrmHeap where
  mem :=
    { head := fun q =>
        match q with
        | .readQueue => { tqhFirst := some 40, tqhLast := .next .next 41 }
        | .inqueue .strmin _ => { tqhFirst := some 9, tqhLast := .null }
        | q => { tqhFirst := none, tqhLast := .first q }
      entry := fun f ctl =>
        match f with
        | .next =>
          if ctl = 40 then { tqeNext := some 41, tqePrev := .first .readQueue }
          else { tqeNext := none, tqePrev := .next .next 40 }
        | .nextInstrm => { tqeNext := none, tqePrev := .null } }
  strm := fun a i =>
    match a with
    | .oldstrm =>
      { streamNo := i, lastSequenceDelivered := BitVec.ofNat 16 (100 + i), deliveryStarted := true,
        pdApiStarted := decide (i = 4), unoPd := if i = 4 then some 40 else none }
    | .strmin =>
      { streamNo := 7, lastSequenceDelivered := 0, deliveryStarted := false, pdApiStarted := true,
        unoPd := if i = 4 then some 40 else none }

theorem quietStreams_kept :
    freshReset.acceptsAddStrm (resetEnv true) 2000 6 = true ∧
      quietStreams.WellLinked freshReset.streamincnt ∧
      ∃ fuel h', freshReset.addStrmHeap (resetEnv true) fuel 2000 6 quietStreams = some h' ∧
        KeepsStreams freshReset.streamincnt (6 + freshReset.streamincnt) quietStreams h' := by
  have hacc : freshReset.acceptsAddStrm (resetEnv true) 2000 6 = true := by decide
  have hq : quietStreams.WellLinked freshReset.streamincnt :=
    fun _ _ => ⟨⟨[], rfl, rfl⟩, [], rfl, rfl⟩
  exact ⟨hacc, hq, (addStrmHeap_keepsStreams_iff (resetEnv true) freshReset 2000 6 quietStreams hacc
    hq).mpr fun _ _ => ⟨⟨rfl, rfl⟩, rfl⟩⟩

/-- A message that waits on stream 3 for the one before it. The control was cleared when it was
allocated and has not been on the read queue. -/
def waitingMessage : StrmHeap where
  mem :=
    { head := fun q =>
        if q = .inqueue .oldstrm 3 then { tqhFirst := some 7, tqhLast := .next .nextInstrm 7 }
        else { tqhFirst := none, tqhLast := .first q }
      entry := fun f _ =>
        match f with
        | .next => { tqeNext := none, tqePrev := .null }
        | .nextInstrm => { tqeNext := none, tqePrev := .first (.inqueue .oldstrm 3) } }
  strm := fun _ i => newFields i

/-- The request is accepted, the streams are linked as they should be, and a null pointer is written
through. -/
theorem waitingMessage_not_kept :
    freshReset.acceptsAddStrm (resetEnv true) 2000 6 = true ∧
      waitingMessage.WellLinked freshReset.streamincnt ∧
      (∀ fuel, freshReset.addStrmHeap (resetEnv true) fuel 2000 6 waitingMessage = none) ∧
      ¬ ∃ fuel h', freshReset.addStrmHeap (resetEnv true) fuel 2000 6 waitingMessage = some h' ∧
        KeepsStreams freshReset.streamincnt (6 + freshReset.streamincnt) waitingMessage h' := by
  have hnone : ∀ fuel, freshReset.addStrmHeap (resetEnv true) fuel 2000 6 waitingMessage = none := by
    intro fuel
    cases fuel with
    | zero => rfl
    | succ n => rfl
  refine ⟨by decide, ?_, hnone, ?_⟩
  · intro i _
    refine ⟨?_, [], rfl, rfl⟩
    by_cases hi : i = 3
    · subst hi
      exact ⟨[7], rfl, rfl, rfl, rfl⟩
    · have hne : CtlQueue.inqueue .oldstrm i ≠ .inqueue .oldstrm 3 := by simp [hi]
      refine ⟨[], ?_⟩
      rw [queue_nil_iff]
      simp [waitingMessage, hne]
  · rintro ⟨fuel, h', hrun, _⟩
    rw [hnone fuel] at hrun
    cases hrun

end StrmHeap

end Sctp
