import Mathlib.Algebra.BigOperators.Group.Finset.Basic
import Mathlib.Algebra.Order.BigOperators.Group.Finset
import Mathlib.Data.FinEnum
import Sctp.Scheduler.Exact

/-! The graceful shutdown: when the association may tell its peer that everything is sent. -/
namespace Sctp
open SsData

inductive AssocState where
  | connecting
  | opened
  | shutdownSent
  | shutdownReceived
  | shutdownAckSent
  | freed
deriving DecidableEq, Repr

/-- The sending side as far as the shutdown decisions read it. Of `send_queue` and `sent_queue` only
the lengths matter. -/
structure ShutAssoc where
  ss : SsData
  streamoutcnt : ℕ
  streamQueueCnt : ℤ
  sendQueue : ℕ
  sentQueue : ℕ
  lockedOnSending : Option StreamNo
  state : AssocState
  shutdownPending : Bool
  partialMsgLeft : Bool

namespace Waiting

/-- All of it is taken and the sender has let go of it, yet it is still on its queue. -/
def finished (m : Waiting) : Bool := m.msgIsComplete && m.length == 0 && m.senderAllDone

end Waiting

def ssIsEmpty (d : Discipline) (s : SsData) : Bool :=
  match d with
  | .fcfs => s.outList.isEmpty
  | _ => s.wheel.isEmpty

namespace ShutAssoc

def init (streamoutcnt : ℕ) : ShutAssoc where
  ss := SsData.init
  streamoutcnt := streamoutcnt
  streamQueueCnt := 0
  sendQueue := 0
  sentQueue := 0
  lockedOnSending := none
  state := .connecting
  shutdownPending := false
  partialMsgLeft := false

def streams (s : ShutAssoc) : List StreamNo := (List.range s.streamoutcnt).map (BitVec.ofNat 16)

/-- The loop of `sctp_is_there_unsent_data`. A finished message is taken off its queue, and the
scheduler is not told. -/
def unsentScan : List StreamNo → ShutAssoc → ℕ × ShutAssoc
  | [], s => (0, s)
  | i :: rest, s =>
    match s.ss.outqueue i with
    | [] => unsentScan rest s
    | sp :: tail =>
      if sp.finished then
        unsentScan rest
          { s with ss := s.ss.setOutqueue i tail, streamQueueCnt := s.streamQueueCnt - 1 }
      else (1, s)

def isThereUnsentData (d : Discipline) (s : ShutAssoc) : ℕ × ShutAssoc :=
  if ssIsEmpty d s.ss then (0, s) else unsentScan s.streams s

def lockedLast (s : ShutAssoc) : Option Waiting :=
  s.lockedOnSending.bind fun i => (s.ss.outqueue i).getLast?

/-- The clean up in front of the shutdown decision: the last message is no longer counted when all of
it is across. The two SACK handlers differ in whether they unlock a complete one. -/
def sackCleanUp (slow : Bool) (s : ShutAssoc) : ShutAssoc :=
  if s.streamQueueCnt = 1 ∧ (s.shutdownPending ∨ s.state = .shutdownReceived) then
    match s.lockedLast with
    | none => s
    | some sp =>
      if sp.length = 0 then
        if sp.msgIsComplete then
          { s with
            streamQueueCnt := s.streamQueueCnt - 1
            lockedOnSending := if slow then none else s.lockedOnSending }
        else
          { s with
            streamQueueCnt := s.streamQueueCnt - 1
            lockedOnSending := none
            partialMsgLeft := true }
      else s
  else s

/-- Enter a closing state, or abort with a message half written. -/
def closeWith (state : AssocState) (s : ShutAssoc) : ShutAssoc :=
  if s.partialMsgLeft then { s with state := .freed }
  else { s with state := state, shutdownPending := false }

/-- "Now what about shutdown issues" of both SACK handlers. -/
def sackShutdown (slow : Bool) (s : ShutAssoc) : ShutAssoc :=
  if s.sendQueue = 0 ∧ s.sentQueue = 0 then
    let s := s.sackCleanUp slow
    if s.shutdownPending ∧ s.streamQueueCnt = 0 then s.closeWith .shutdownSent
    else if s.state = .shutdownReceived ∧ s.streamQueueCnt = 0 then s.closeWith .shutdownAckSent
    else s
  else s

/-- A SACK that is taken. One on which the handlers return early (an old cumulative ack, one for a TSN that was
not sent, nothing queued anywhere) changes nothing here, and is no event. -/
def handleSack (slow : Bool) (acked : ℕ) (s : ShutAssoc) : ShutAssoc :=
  { s with sentQueue := s.sentQueue - acked }.sackShutdown slow

/-- `goto SHUTDOWN_RECEIVED state to block new requests`. -/
def receiveShutdown (hasSocket : Bool) (s : ShutAssoc) : ShutAssoc :=
  if hasSocket ∧ s.state ≠ .shutdownReceived ∧ s.state ≠ .shutdownAckSent ∧
      s.state ≠ .shutdownSent then
    { s with state := .shutdownReceived, shutdownPending := false }
  else s

/-- The end of `sctp_handle_shutdown`. -/
def ackShutdown (d : Discipline) (s : ShutAssoc) : ShutAssoc :=
  let r := s.isThereUnsentData d
  if r.2.sendQueue ≠ 0 ∨ r.2.sentQueue ≠ 0 ∨ r.1 ≠ 0 then r.2
  else { r.2 with state := .shutdownAckSent, shutdownPending := false }

/-- `sctp_handle_shutdown`; `acked` is what `sctp_update_acked` makes of the cumulative ack, `none`
when it is not newer. -/
def handleShutdown (d : Discipline) (acked : Option ℕ) (hasSocket : Bool) (s : ShutAssoc) :
    ShutAssoc :=
  if s.state = .connecting then s
  else
    let s := acked.elim s fun k => s.handleSack false k
    if s.state = .freed then s else (s.receiveShutdown hasSocket).ackShutdown d

def handleShutdownAck (s : ShutAssoc) : ShutAssoc :=
  if s.state = .shutdownSent ∨ s.state = .shutdownAckSent then { s with state := .freed } else s

/-- Mark the association for a shutdown once the data is out. A message half written that cannot go
on is the end of it. -/
def setPending (s : ShutAssoc) : ShutAssoc :=
  let left := s.partialMsgLeft || s.lockedLast.any fun sp => sp.length == 0 && !sp.msgIsComplete
  let s := { s with shutdownPending := true, partialMsgLeft := left }
  if s.sendQueue = 0 ∧ s.sentQueue = 0 ∧ s.partialMsgLeft then { s with state := .freed } else s

/-- `sctp_shutdown`, or `sctp_disconnect` and the close of the socket. -/
def userShutdown (disconnect : Bool) (s : ShutAssoc) : ShutAssoc :=
  if s.sendQueue = 0 ∧ s.sentQueue = 0 ∧ s.streamQueueCnt = 0 then
    if s.lockedOnSending.isSome then { s with state := .freed }
    else if s.state ≠ .shutdownSent ∧ (disconnect → s.state ≠ .shutdownAckSent) then
      { s with state := .shutdownSent, shutdownPending := false }
    else s
  else s.setPending

/-- A send with `SCTP_EOF`, after its data is queued. -/
def sendEof (d : Discipline) (s : ShutAssoc) : ShutAssoc :=
  let r := s.isThereUnsentData d
  let s := r.2
  let first := s.state ≠ .shutdownSent ∧ s.state ≠ .shutdownReceived ∧ s.state ≠ .shutdownAckSent
  if s.sendQueue = 0 ∧ s.sentQueue = 0 ∧ r.1 = 0 then
    if s.lockedOnSending.isSome then { s with state := .freed }
    else if first then { s with state := .shutdownSent, shutdownPending := false }
    else s
  else if first then s.setPending
  else s

/-- `sctp_move_to_outqueue`: the finished messages at the head go, then `n` bytes of the next one
become a chunk. -/
def moveToOutqueue (d : Discipline) (i : StreamNo) (n : ℕ) (locked : Option StreamNo)
    (s : ShutAssoc) : Option ShutAssoc :=
  let dropped := ((s.ss.outqueue i).takeWhile Waiting.finished).length
  match ((s.ss.outqueue i).drop dropped).head? with
  | none =>
    if n = 0 then
      (ssStep d 0 0 s.ss (.moved i dropped 0 false)).map fun ss =>
        { s with ss := ss, streamQueueCnt := s.streamQueueCnt - dropped, lockedOnSending := locked }
    else none
  | some m =>
    if m.length < n then none
    else
      let finished := decide (n ≠ 0) && { m with length := m.length - n }.finished
      (ssStep d 0 0 s.ss (.moved i dropped n finished)).map fun ss =>
        { s with
          ss := ss
          streamQueueCnt := s.streamQueueCnt - dropped - finished.toNat
          sendQueue := s.sendQueue + (if n = 0 then 0 else 1)
          lockedOnSending := locked }

end ShutAssoc

inductive ShutEvent where
  | established
  | send (i : StreamNo) (m : Waiting)
  /-- The sender appends to its message. -/
  | append (i : StreamNo) (n : ℕ)
  | complete (i : StreamNo)
  /-- The sender lets go of the `k`th message of the queue. -/
  | senderDone (i : StreamNo) (k : ℕ)
  /-- `locked` is what the move leaves in `locked_on_sending`. -/
  | move (i : StreamNo) (n : ℕ) (locked : Option StreamNo)
  | transmit (k : ℕ)
  | sack (slow : Bool) (acked : ℕ)
  | recvShutdown (acked : Option ℕ) (hasSocket : Bool)
  | recvShutdownAck
  | userShutdown (disconnect : Bool)
  | sendEof
deriving DecidableEq, Repr

open ShutAssoc

/-- `none` is an event that cannot happen. -/
def shutStep (d : Discipline) (s : ShutAssoc) (e : ShutEvent) : Option ShutAssoc :=
  if s.state = .freed then none
  else
    match e with
    | .established => some (if s.state = .connecting then { s with state := .opened } else s)
    | .send i m =>
      if s.streamoutcnt ≤ i.toNat then none
      else if (s.state = .connecting ∨ s.state = .opened) ∧ ¬ s.shutdownPending then
        (ssStep d 0 0 s.ss (.queued i m)).map fun ss =>
          { s with ss := ss, streamQueueCnt := s.streamQueueCnt + 1 }
      else some s
    | .append i n =>
      if (s.ss.outqueue i).getLast?.any fun sp => !sp.msgIsComplete then
        (ssStep d 0 0 s.ss (.appended i n)).map fun ss => { s with ss := ss }
      else none
    | .complete i =>
      some { s with
        ss := s.ss.setOutqueue i
          ((s.ss.outqueue i).modifyLast fun m => { m with msgIsComplete := true }) }
    | .senderDone i k =>
      some { s with
        ss := s.ss.setOutqueue i
          ((s.ss.outqueue i).modify k fun m => { m with senderAllDone := true }) }
    | .move i n locked => s.moveToOutqueue d i n locked
    | .transmit k =>
      if s.sendQueue < k then none
      else some { s with sendQueue := s.sendQueue - k, sentQueue := s.sentQueue + k }
    | .sack slow acked => some (s.handleSack slow acked)
    | .recvShutdown acked hasSocket => some (s.handleShutdown d acked hasSocket)
    | .recvShutdownAck => some s.handleShutdownAck
    | .userShutdown disconnect => some (s.userShutdown disconnect)
    | .sendEof => some (s.sendEof d)

def shutRun (d : Discipline) (streamoutcnt : ℕ) : List ShutEvent → Option ShutAssoc :=
  Trace.run (shutStep d) (ShutAssoc.init streamoutcnt)

namespace ShutAssoc

def Closing (s : ShutAssoc) : Prop := s.state = .shutdownSent ∨ s.state = .shutdownAckSent

/-- Nothing that the user has handed over is left behind. -/
structure Drained (s : ShutAssoc) : Prop where
  sendQueue : s.sendQueue = 0
  sentQueue : s.sentQueue = 0
  messages : ∀ i, ∀ m ∈ s.ss.outqueue i, m.length = 0

/-- No queue begins with a finished message. -/
def Tidy (s : ShutAssoc) : Prop :=
  ∀ i ∈ s.streams, ∀ m ∈ (s.ss.outqueue i).head?, m.finished = false

instance Tidy.decidable (s : ShutAssoc) : Decidable s.Tidy :=
  List.decidableBAll (fun i => ∀ m ∈ (s.ss.outqueue i).head?, m.finished = false) s.streams

end ShutAssoc

namespace ShutEvent

/-- The queues are tidy whenever `sctp_is_there_unsent_data` is asked. -/
def Regular (s : ShutAssoc) : ShutEvent → Prop
  | .recvShutdown .. | .sendEof => s.Tidy
  | _ => True

end ShutEvent

instance ShutEvent.decidableRegular (s : ShutAssoc) : (e : ShutEvent) → Decidable (e.Regular s)
  | .recvShutdown .. => inferInstanceAs (Decidable s.Tidy)
  | .sendEof => inferInstanceAs (Decidable s.Tidy)
  | .established => .isTrue trivial
  | .send .. => .isTrue trivial
  | .append .. => .isTrue trivial
  | .complete _ => .isTrue trivial
  | .senderDone .. => .isTrue trivial
  | .move .. => .isTrue trivial
  | .transmit _ => .isTrue trivial
  | .sack .. => .isTrue trivial
  | .recvShutdownAck => .isTrue trivial
  | .userShutdown _ => .isTrue trivial

def queuedMessages (s : SsData) : ℤ := ∑ i : StreamNo, ((s.outqueue i).length : ℤ)

theorem queuedMessages_update {s t : SsData} {i : StreamNo} {q : List Waiting}
    (h : t.outqueue = Function.update s.outqueue i q) :
    queuedMessages t = queuedMessages s - (s.outqueue i).length + q.length := by
  have hsplit : ∀ f : StreamNo → ℤ, ∑ j, f j = f i + ∑ j ∈ Finset.univ \ {i}, f j := by
    intro f
    have hself := Finset.sum_update_of_mem (Finset.mem_univ i) f (f i)
    rwa [Function.update_eq_self] at hself
  have hrest : ∑ j ∈ Finset.univ \ {i}, ((t.outqueue j).length : ℤ) =
      ∑ j ∈ Finset.univ \ {i}, ((s.outqueue j).length : ℤ) := by
    refine Finset.sum_congr rfl fun j hj => ?_
    have hji : j ≠ i := by simpa using hj
    rw [h, Function.update_of_ne hji]
  rw [queuedMessages, queuedMessages, hsplit, hsplit fun j => ((s.outqueue j).length : ℤ), hrest, h,
    Function.update_self]
  omega

theorem queuedMessages_eq_zero {s : SsData} (h : queuedMessages s = 0) (i : StreamNo) :
    s.outqueue i = [] := by
  have hnonneg : ∀ j ∈ Finset.univ, (0 : ℤ) ≤ (s.outqueue j).length :=
    fun j _ => Int.natCast_nonneg _
  have hi := (Finset.sum_eq_zero_iff_of_nonneg hnonneg).1 h i (Finset.mem_univ i)
  exact List.eq_nil_of_length_eq_zero (by exact_mod_cast hi)

/-- One message in all is the only message of its queue. -/
theorem queuedMessages_eq_one {s : SsData} (h : queuedMessages s = 1) {i : StreamNo} {sp : Waiting}
    (hsp : (s.outqueue i).getLast? = some sp) (j : StreamNo) : ∀ m ∈ s.outqueue j, m = sp := by
  have hrest : queuedMessages (s.setOutqueue i []) = 1 - (s.outqueue i).length := by
    rw [queuedMessages_update (q := []) rfl, h, List.length_nil]
    omega
  have hnonneg : 0 ≤ queuedMessages (s.setOutqueue i []) :=
    Finset.sum_nonneg fun _ _ => Int.natCast_nonneg _
  have hsingle : s.outqueue i = [sp] := by
    obtain ⟨q, hq⟩ := List.getLast?_eq_some_iff.1 hsp
    rw [hq, List.length_append, List.length_singleton] at hrest
    have : q = [] := List.eq_nil_of_length_eq_zero (by omega)
    rw [hq, this, List.nil_append]
  intro m hm
  by_cases hji : j = i
  · rw [hji, hsingle] at hm
    exact List.mem_singleton.1 hm
  · have hzero : queuedMessages (s.setOutqueue i []) = 0 := by
      rw [hrest, hsingle, List.length_singleton]
      omega
    have hempty := queuedMessages_eq_zero hzero j
    rw [setOutqueue_ne _ _ hji] at hempty
    rw [hempty] at hm
    cases hm

namespace ShutAssoc

/-- All of the message is across, and there is no more to come. -/
def AllTaken (s : ShutAssoc) : Prop :=
  ∀ i, ∀ m ∈ s.ss.outqueue i, m.length = 0 ∧ m.msgIsComplete = true

def Active (s : ShutAssoc) : Prop :=
  s.state = .connecting ∨ s.state = .opened ∨ s.state = .shutdownReceived

end ShutAssoc

structure ShutInv (d : Discipline) (s : ShutAssoc) : Prop where
  once : SsOnce d s.ss
  inRange : ∀ i, s.streamoutcnt ≤ i.toNat → s.ss.outqueue i = []
  counted : s.Active → s.streamQueueCnt = queuedMessages s.ss
  drained : s.Closing → s.sendQueue = 0 ∧ s.sentQueue = 0 ∧ s.AllTaken

section Unsent

variable {d : Discipline} {s : ShutAssoc}

/-- On tidy queues the scan changes nothing and finds every message. -/
theorem unsentScan_tidy {l : List StreamNo}
    (htidy : ∀ i ∈ l, ∀ m ∈ (s.ss.outqueue i).head?, m.finished = false) :
    (unsentScan l s).2 = s ∧ ((unsentScan l s).1 = 0 → ∀ i ∈ l, s.ss.outqueue i = []) := by
  induction l with
  | nil => exact ⟨rfl, fun _ _ h => by cases h⟩
  | cons i l ih =>
    obtain ⟨hsame, hempty⟩ := ih fun j hj => htidy j (List.mem_cons_of_mem i hj)
    cases hq : s.ss.outqueue i with
    | nil =>
      simp only [unsentScan, hq]
      refine ⟨hsame, fun hzero j hj => ?_⟩
      obtain rfl | hj := List.mem_cons.1 hj
      · exact hq
      · exact hempty hzero j hj
    | cons sp tail =>
      have hsp : sp.finished = false := htidy i List.mem_cons_self sp (by rw [hq]; rfl)
      simp only [unsentScan, hq, hsp]
      exact ⟨rfl, fun h => by cases h⟩

theorem isThereUnsentData_tidy (h : ShutInv d s) (htidy : s.Tidy) :
    (s.isThereUnsentData d).2 = s ∧
      ((s.isThereUnsentData d).1 = 0 → ∀ i, s.ss.outqueue i = []) := by
  unfold isThereUnsentData
  split
  · rename_i hempty
    refine ⟨rfl, fun _ i => ?_⟩
    cases d with
    | fcfs =>
      have honce : ListOnce s.ss := h.once
      have hlist : s.ss.outList = [] := List.isEmpty_iff.1 hempty
      rw [← List.map_eq_nil_iff (f := Waiting.id), List.eq_nil_iff_forall_not_mem]
      intro m hm
      have hin := (honce.waits i m).2 hm
      rw [hlist] at hin
      cases hin
    | _ =>
      have honce : WheelOnce s.ss := h.once
      have hwheel : s.ss.wheel = [] := List.isEmpty_iff.1 hempty
      by_contra hne
      have hin := (honce.waits i).2 hne
      rw [hwheel] at hin
      cases hin
  · obtain ⟨hsame, hempty⟩ := unsentScan_tidy htidy
    refine ⟨hsame, fun hzero i => ?_⟩
    by_cases hi : s.streamoutcnt ≤ i.toNat
    · exact h.inRange i hi
    · refine hempty hzero i (List.mem_map.2 ⟨i.toNat, List.mem_range.2 (by omega), ?_⟩)
      exact BitVec.ofNat_toNat ..

end Unsent

section Frame

variable {s : ShutAssoc}

theorem sackCleanUp_frame (slow : Bool) (s : ShutAssoc) :
    (s.sackCleanUp slow).ss = s.ss ∧ (s.sackCleanUp slow).streamoutcnt = s.streamoutcnt := by
  unfold sackCleanUp
  split
  · split
    · exact ⟨rfl, rfl⟩
    · split
      · split <;> exact ⟨rfl, rfl⟩
      · exact ⟨rfl, rfl⟩
  · exact ⟨rfl, rfl⟩

theorem closeWith_frame (state : AssocState) (s : ShutAssoc) :
    (s.closeWith state).ss = s.ss ∧ (s.closeWith state).streamoutcnt = s.streamoutcnt := by
  unfold ShutAssoc.closeWith
  split <;> exact ⟨rfl, rfl⟩

theorem handleSack_frame (slow : Bool) (acked : ℕ) (s : ShutAssoc) :
    (s.handleSack slow acked).ss = s.ss ∧
      (s.handleSack slow acked).streamoutcnt = s.streamoutcnt := by
  unfold ShutAssoc.handleSack ShutAssoc.sackShutdown
  dsimp only
  split
  · have hclean := sackCleanUp_frame slow { s with sentQueue := s.sentQueue - acked }
    split
    · have hclose := closeWith_frame .shutdownSent
        (sackCleanUp slow { s with sentQueue := s.sentQueue - acked })
      exact ⟨hclose.1.trans hclean.1, hclose.2.trans hclean.2⟩
    · split
      · have hclose := closeWith_frame .shutdownAckSent
          (sackCleanUp slow { s with sentQueue := s.sentQueue - acked })
        exact ⟨hclose.1.trans hclean.1, hclose.2.trans hclean.2⟩
      · exact hclean
  · exact ⟨rfl, rfl⟩

theorem receiveShutdown_frame (hasSocket : Bool) (s : ShutAssoc) :
    (s.receiveShutdown hasSocket).ss = s.ss ∧
      (s.receiveShutdown hasSocket).streamoutcnt = s.streamoutcnt := by
  unfold ShutAssoc.receiveShutdown
  split <;> exact ⟨rfl, rfl⟩

theorem ShutAssoc.Tidy.congr {t : ShutAssoc} (h : s.Tidy) (hss : t.ss = s.ss)
    (hcnt : t.streamoutcnt = s.streamoutcnt) : t.Tidy := by
  intro i hi m hm
  rw [hss] at hm
  refine h i ?_ m hm
  rwa [ShutAssoc.streams, hcnt] at hi

end Frame

section Lists

variable {q : List Waiting} {f : Waiting → Waiting} {m : Waiting}

private theorem mem_modifyLast (h : m ∈ q.modifyLast f) : ∃ m₀ ∈ q, m = m₀ ∨ m = f m₀ := by
  obtain rfl | ⟨q, a, rfl⟩ := List.eq_nil_or_concat q
  · cases h
  · rw [List.concat_eq_append, List.modifyLast_concat] at h
    rw [List.concat_eq_append]
    obtain h | h := List.mem_append.1 h
    · exact ⟨m, List.mem_append_left _ h, .inl rfl⟩
    · exact ⟨a, by simp, .inr (List.mem_singleton.1 h)⟩

private theorem mem_modify {k : ℕ} (h : m ∈ q.modify k f) : ∃ m₀ ∈ q, m = m₀ ∨ m = f m₀ := by
  obtain ⟨j, hj⟩ := List.mem_iff_getElem?.1 h
  rw [List.getElem?_modify] at hj
  obtain ⟨m₀, hm₀, hm⟩ := Option.map_eq_some_iff.1 hj
  refine ⟨m₀, List.mem_of_getElem? hm₀, ?_⟩
  split at hm
  · exact .inr hm.symm
  · exact .inl hm.symm

private theorem map_id_modify {k : ℕ} (hf : ∀ m, (f m).id = m.id) :
    (q.modify k f).map Waiting.id = q.map Waiting.id := by
  refine List.ext_getElem? fun j => ?_
  rw [List.getElem?_map, List.getElem?_map, List.getElem?_modify]
  cases q[j]? with
  | none => rfl
  | some a =>
    by_cases hkj : k = j
    · simp [hkj, hf]
    · simp [hkj]

end Lists

namespace ShutInv

variable {d : Discipline} {s : ShutAssoc}

theorem init (d : Discipline) (n : ℕ) : ShutInv d (ShutAssoc.init n) where
  once := SsOnce.init d
  inRange _ _ := rfl
  counted _ := by simp [ShutAssoc.init, queuedMessages, SsData.init]
  drained h := by rcases h with h | h <;> cases h

/-- An association that is gone has nothing to keep but its links. -/
theorem freed (h : ShutInv d s) {t : ShutAssoc} (hss : t.ss = s.ss)
    (hcnt : t.streamoutcnt = s.streamoutcnt) (hfreed : t.state = .freed) : ShutInv d t where
  once := hss ▸ h.once
  inRange := hss ▸ hcnt ▸ h.inRange
  counted hactive := by rcases hactive with h | h | h <;> simp [hfreed] at h
  drained hclosing := by rcases hclosing with h | h <;> simp [hfreed] at h

/-- Entering or keeping a closing state. -/
theorem closing (h : ShutInv d s) {t : ShutAssoc} (hss : t.ss = s.ss)
    (hcnt : t.streamoutcnt = s.streamoutcnt) (hclosing : t.Closing) (hsend : t.sendQueue = 0)
    (hsent : t.sentQueue = 0) (htaken : s.AllTaken) : ShutInv d t where
  once := hss ▸ h.once
  inRange := hss ▸ hcnt ▸ h.inRange
  counted hactive := by
    rcases hclosing with hc | hc <;> rcases hactive with ha | ha | ha <;> simp [hc] at ha
  drained _ := ⟨hsend, hsent, fun i m hm => htaken i m (hss ▸ hm)⟩

theorem allTaken_of_empty (h : ∀ i, s.ss.outqueue i = []) : s.AllTaken := by
  intro i m hm
  rw [h i] at hm
  cases hm

theorem closeWith {state : AssocState} {t : ShutAssoc} (h : ShutInv d s) (hss : t.ss = s.ss)
    (hcnt : t.streamoutcnt = s.streamoutcnt)
    (hstate : state = .shutdownSent ∨ state = .shutdownAckSent) (hsend : t.sendQueue = 0)
    (hsent : t.sentQueue = 0) (htaken : t.partialMsgLeft = false → s.AllTaken) :
    ShutInv d (t.closeWith state) := by
  unfold ShutAssoc.closeWith
  split
  · exact h.freed hss hcnt rfl
  · rename_i hleft
    exact h.closing hss hcnt hstate hsend hsent (htaken (by simpa using hleft))

theorem closing_or_active (hlive : s.state ≠ .freed) : s.Closing ∨ s.Active := by
  unfold Closing Active
  cases hstate : s.state <;> simp_all

/-- What no longer counts is across. -/
theorem allTaken_of_uncounted (h : ShutInv d s) (hlive : s.state ≠ .freed)
    (hzero : s.streamQueueCnt = 0) : s.AllTaken := by
  obtain hclosing | hactive := closing_or_active hlive
  · exact (h.drained hclosing).2.2
  · exact allTaken_of_empty (queuedMessages_eq_zero ((h.counted hactive).symm.trans hzero))

/-- The one message left is the one that the association is locked on. -/
theorem allTaken_of_last (h : ShutInv d s) (hlive : s.state ≠ .freed)
    (hone : s.streamQueueCnt = 1) {sp : Waiting} (hsp : s.lockedLast = some sp)
    (hlen : sp.length = 0) (hcomplete : sp.msgIsComplete = true) : s.AllTaken := by
  obtain hclosing | hactive := closing_or_active hlive
  · exact (h.drained hclosing).2.2
  · obtain ⟨i, -, hlast⟩ := Option.bind_eq_some_iff.1 hsp
    intro j m hm
    have hmsp : m = sp := queuedMessages_eq_one ((h.counted hactive).symm.trans hone) hlast j m hm
    exact hmsp ▸ ⟨hlen, hcomplete⟩

/-- What the clean up can do: take the last message out of the count, once it is across. -/
theorem sackCleanUp_cases (slow : Bool) (s : ShutAssoc) :
    s.sackCleanUp slow = s ∨
      ∃ sp locked left, s.lockedLast = some sp ∧ s.streamQueueCnt = 1 ∧
        (s.shutdownPending ∨ s.state = .shutdownReceived) ∧ sp.length = 0 ∧
        (left = false → sp.msgIsComplete = true) ∧
        s.sackCleanUp slow =
          { s with streamQueueCnt := 0, lockedOnSending := locked, partialMsgLeft := left } := by
  unfold ShutAssoc.sackCleanUp
  by_cases hwhen : s.streamQueueCnt = 1 ∧ (s.shutdownPending ∨ s.state = .shutdownReceived)
  · rw [if_pos hwhen]
    cases hlast : s.lockedLast with
    | none => exact .inl rfl
    | some sp =>
      by_cases hlen : sp.length = 0
      · have hzero : s.streamQueueCnt - 1 = 0 := by omega
        by_cases hcomplete : sp.msgIsComplete
        · refine .inr ⟨sp, if slow then none else s.lockedOnSending, s.partialMsgLeft, rfl, hwhen.1,
            hwhen.2, hlen, fun _ => hcomplete, ?_⟩
          simp only [if_pos hlen, if_pos hcomplete, hzero]
        · refine .inr ⟨sp, none, true, rfl, hwhen.1, hwhen.2, hlen, nofun, ?_⟩
          simp only [if_pos hlen, if_neg hcomplete, hzero]
      · simp only [if_neg hlen]
        exact .inl trivial
  · rw [if_neg hwhen]
    exact .inl rfl

theorem sackShutdown (slow : Bool) (h : ShutInv d s) (hlive : s.state ≠ .freed) :
    ShutInv d (s.sackShutdown slow) := by
  unfold ShutAssoc.sackShutdown
  by_cases hqueues : s.sendQueue = 0 ∧ s.sentQueue = 0
  · rw [if_pos hqueues]
    obtain hsame | ⟨sp, locked, left, hsp, hone, hwhen, hlen, hcomplete, heq⟩ :=
      sackCleanUp_cases slow s
    · rw [hsame]
      dsimp only
      split
      · rename_i hclose
        exact h.closeWith rfl rfl (.inl rfl) hqueues.1 hqueues.2 fun _ =>
          h.allTaken_of_uncounted hlive hclose.2
      · split
        · rename_i hclose
          exact h.closeWith rfl rfl (.inr rfl) hqueues.1 hqueues.2 fun _ =>
            h.allTaken_of_uncounted hlive hclose.2
        · exact h
    · rw [heq]
      dsimp only
      have htaken : left = false → s.AllTaken := fun hleft =>
        h.allTaken_of_last hlive hone hsp hlen (hcomplete hleft)
      by_cases hpending : s.shutdownPending
      · rw [if_pos ⟨hpending, rfl⟩]
        exact h.closeWith rfl rfl (.inl rfl) hqueues.1 hqueues.2 htaken
      · rw [if_neg (fun h => hpending h.1), if_pos ⟨hwhen.resolve_left hpending, rfl⟩]
        exact h.closeWith rfl rfl (.inr rfl) hqueues.1 hqueues.2 htaken
  · rw [if_neg hqueues]
    exact h

theorem handleSack (slow : Bool) (acked : ℕ) (h : ShutInv d s) (hlive : s.state ≠ .freed) :
    ShutInv d (s.handleSack slow acked) := by
  refine ShutInv.sackShutdown slow (s := { s with sentQueue := s.sentQueue - acked }) ?_ hlive
  refine ⟨h.once, h.inRange, h.counted, fun hclosing => ?_⟩
  obtain ⟨hsend, hsent, htaken⟩ := h.drained hclosing
  refine ⟨hsend, ?_, htaken⟩
  change s.sentQueue - acked = 0
  omega

theorem receiveShutdown (hasSocket : Bool) (h : ShutInv d s) (hlive : s.state ≠ .freed) :
    ShutInv d (s.receiveShutdown hasSocket) := by
  unfold ShutAssoc.receiveShutdown
  split
  · rename_i hstate
    have hactive : s.Active := by
      refine (closing_or_active hlive).resolve_left fun hclosing => ?_
      obtain hc | hc := hclosing
      · exact hstate.2.2.2 hc
      · exact hstate.2.2.1 hc
    refine ⟨h.once, h.inRange, fun _ => h.counted hactive, fun hclosing => ?_⟩
    rcases hclosing with hc | hc <;> cases hc
  · exact h

theorem ackShutdown (h : ShutInv d s) (htidy : s.Tidy) : ShutInv d (s.ackShutdown d) := by
  obtain ⟨hsame, hempty⟩ := isThereUnsentData_tidy h htidy
  unfold ShutAssoc.ackShutdown
  dsimp only
  rw [hsame]
  split
  · exact h
  · rename_i hnone
    push Not at hnone
    exact h.closing rfl rfl (.inr rfl) hnone.1 hnone.2.1 (allTaken_of_empty (hempty hnone.2.2))

theorem handleShutdown (acked : Option ℕ) (hasSocket : Bool) (h : ShutInv d s)
    (hlive : s.state ≠ .freed) (htidy : s.Tidy) : ShutInv d (s.handleShutdown d acked hasSocket) := by
  unfold ShutAssoc.handleShutdown
  split
  · exact h
  · obtain ⟨s₁, hs₁, h₁, hss, hcnt⟩ : ∃ s₁, acked.elim s (fun k => s.handleSack false k) = s₁ ∧
        ShutInv d s₁ ∧ s₁.ss = s.ss ∧ s₁.streamoutcnt = s.streamoutcnt := by
      cases acked with
      | none => exact ⟨s, rfl, h, rfl, rfl⟩
      | some k =>
        obtain ⟨hss, hcnt⟩ := handleSack_frame false k s
        exact ⟨_, rfl, h.handleSack false k hlive, hss, hcnt⟩
    dsimp only
    rw [hs₁]
    split
    · exact h₁
    · rename_i hlive₁
      refine (h₁.receiveShutdown hasSocket hlive₁).ackShutdown ?_
      obtain ⟨hss', hcnt'⟩ := receiveShutdown_frame hasSocket s₁
      exact htidy.congr (hss'.trans hss) (hcnt'.trans hcnt)

theorem setPending (h : ShutInv d s) : ShutInv d s.setPending := by
  unfold ShutAssoc.setPending
  dsimp only
  split
  · exact h.freed rfl rfl rfl
  · exact ⟨h.once, h.inRange, h.counted, h.drained⟩

theorem userShutdown (disconnect : Bool) (h : ShutInv d s) (hlive : s.state ≠ .freed) :
    ShutInv d (s.userShutdown disconnect) := by
  unfold ShutAssoc.userShutdown
  split
  · rename_i hnone
    split
    · exact h.freed rfl rfl rfl
    · split
      · exact h.closing rfl rfl (.inl rfl) hnone.1 hnone.2.1
          (h.allTaken_of_uncounted hlive hnone.2.2)
      · exact h
  · exact h.setPending

theorem sendEof (h : ShutInv d s) (htidy : s.Tidy) : ShutInv d (s.sendEof d) := by
  obtain ⟨hsame, hempty⟩ := isThereUnsentData_tidy h htidy
  unfold ShutAssoc.sendEof
  dsimp only
  rw [hsame]
  split
  · rename_i hnone
    split
    · exact h.freed rfl rfl rfl
    · split
      · exact h.closing rfl rfl (.inl rfl) hnone.1 hnone.2.1
          (allTaken_of_empty (hempty hnone.2.2))
      · exact h
  · split
    · exact h.setPending
    · exact h

/-- Work on the queue of one stream, in any state that the association can be in. -/
theorem requeue (h : ShutInv d s) {t : ShutAssoc} {i : StreamNo} {q : List Waiting}
    (honce : SsOnce d t.ss) (hq : t.ss.outqueue = Function.update s.ss.outqueue i q)
    (hcnt : t.streamoutcnt = s.streamoutcnt) (hstate : t.state = s.state)
    (hrange : s.streamoutcnt ≤ i.toNat → q = [])
    (hcount : t.streamQueueCnt = s.streamQueueCnt - (s.ss.outqueue i).length + q.length)
    (hdrained : s.Closing → t.sendQueue = 0 ∧ t.sentQueue = 0 ∧
      ∀ m ∈ q, m.length = 0 ∧ m.msgIsComplete = true) : ShutInv d t := by
  refine ⟨honce, fun j hj => ?_, fun hactive => ?_, fun hclosing => ?_⟩
  · rw [hcnt] at hj
    rw [hq]
    by_cases hji : j = i
    · subst hji
      rw [Function.update_self]
      exact hrange hj
    · rw [Function.update_of_ne hji]
      exact h.inRange j hj
  · have hactive : s.Active := by
      unfold Active at hactive ⊢
      rwa [hstate] at hactive
    rw [hcount, h.counted hactive, queuedMessages_update hq]
  · have hclosing : s.Closing := by
      unfold Closing at hclosing ⊢
      rwa [hstate] at hclosing
    obtain ⟨hsend, hsent, hmessages⟩ := hdrained hclosing
    refine ⟨hsend, hsent, fun j m hm => ?_⟩
    rw [hq] at hm
    by_cases hji : j = i
    · rw [hji, Function.update_self] at hm
      exact hmessages m hm
    · rw [Function.update_of_ne hji] at hm
      exact (h.drained hclosing).2.2 j m hm

theorem send {i : StreamNo} {m : Waiting} {ss : SsData} (h : ShutInv d s)
    (hi : i.toNat < s.streamoutcnt) (hstate : s.state = .connecting ∨ s.state = .opened)
    (hstep : ssStep d 0 0 s.ss (.queued i m) = some ss) :
    ShutInv d { s with ss := ss, streamQueueCnt := s.streamQueueCnt + 1 } := by
  simp only [ssStep] at hstep
  split at hstep
  · cases hstep
  · rename_i hm
    obtain rfl := Option.some.inj hstep
    refine h.requeue (i := i) (q := s.ss.outqueue i ++ [m]) (h.once.queued hm) ?_ rfl rfl
      (fun hout => absurd hi (by omega)) ?_ fun hclosing => ?_
    · exact add_outqueue d _ i m
    · rw [List.length_append, List.length_singleton]
      push_cast
      omega
    · rcases hclosing with hc | hc <;> rcases hstate with hs | hs <;> simp [hs] at hc

/-- Changes to messages in place. -/
theorem requeue_same (h : ShutInv d s) {i : StreamNo} {q : List Waiting}
    (hids : q.map Waiting.id = (s.ss.outqueue i).map Waiting.id)
    (htaken : s.Closing → ∀ m ∈ q, m.length = 0 ∧ m.msgIsComplete = true) :
    ShutInv d { s with ss := s.ss.setOutqueue i q } := by
  have hlen : q.length = (s.ss.outqueue i).length := by
    rw [← List.length_map (f := Waiting.id), hids, List.length_map]
  refine h.requeue (i := i) (q := q) (h.once.setOutqueue hids) rfl rfl rfl (fun hout => ?_) ?_
    fun hclosing => ?_
  · refine List.eq_nil_of_length_eq_zero ?_
    rw [hlen, h.inRange i hout, List.length_nil]
  · change s.streamQueueCnt = _
    omega
  · obtain ⟨hsend, hsent, -⟩ := h.drained hclosing
    exact ⟨hsend, hsent, htaken hclosing⟩

theorem moveToOutqueue {i : StreamNo} {n : ℕ} {locked : Option StreamNo} {t : ShutAssoc}
    (h : ShutInv d s) (hmove : s.moveToOutqueue d i n locked = some t) : ShutInv d t := by
  unfold ShutAssoc.moveToOutqueue at hmove
  dsimp only at hmove
  have hdropped := (List.takeWhile_sublist Waiting.finished (l := s.ss.outqueue i)).length_le
  generalize ((s.ss.outqueue i).takeWhile Waiting.finished).length = dropped at hmove hdropped
  have hdrop : s.Closing → ∀ m ∈ (s.ss.outqueue i).drop dropped,
      m.length = 0 ∧ m.msgIsComplete = true := fun hclosing m hm =>
    (h.drained hclosing).2.2 i m (List.mem_of_mem_drop hm)
  have hrange : s.streamoutcnt ≤ i.toNat → (s.ss.outqueue i).drop dropped = [] := by
    intro hout
    rw [h.inRange i hout, List.drop_nil]
  split at hmove
  · split at hmove
    · obtain ⟨ss, hstep, rfl⟩ := Option.map_eq_some_iff.1 hmove
      obtain ⟨honce, hq⟩ := h.once.moved hstep
      rw [if_pos rfl] at hq
      refine h.requeue honce hq rfl rfl hrange ?_ fun hclosing => ?_
      · rw [List.length_drop]
        change s.streamQueueCnt - dropped = _
        omega
      · exact ⟨(h.drained hclosing).1, (h.drained hclosing).2.1, hdrop hclosing⟩
    · cases hmove
  · rename_i m hhead
    split at hmove
    · cases hmove
    · rename_i hfits
      obtain ⟨ss, hstep, rfl⟩ := Option.map_eq_some_iff.1 hmove
      obtain ⟨honce, hq⟩ := h.once.moved hstep
      have hm : m ∈ (s.ss.outqueue i).drop dropped := List.mem_of_head? hhead
      by_cases hn : n = 0
      · rw [if_pos hn] at hq
        refine h.requeue honce hq rfl rfl hrange ?_ fun hclosing => ?_
        · simp only [List.length_drop, hn, ne_eq, not_true_eq_false, decide_false, Bool.false_and,
            Bool.toNat_false]
          omega
        · obtain ⟨hsend, hsent, -⟩ := h.drained hclosing
          simp only [hn, if_true, Nat.add_zero]
          exact ⟨hsend, hsent, hdrop hclosing⟩
      · rw [if_neg hn] at hq
        refine h.requeue honce hq rfl rfl (fun hout => ?_) ?_ fun hclosing => ?_
        · rw [hrange hout] at hm
          cases hm
        · have hlt : dropped < (s.ss.outqueue i).length := by
            have := List.length_pos_of_mem hm
            rw [List.length_drop] at this
            omega
          rw [length_takenQueue]
          have hone := Bool.toNat_le (decide (n ≠ 0) && { m with length := m.length - n }.finished)
          dsimp only
          omega
        · have := (hdrop hclosing m hm).1
          omega

theorem step {e : ShutEvent} {t : ShutAssoc} (h : ShutInv d s) (he : e.Regular s)
    (hstep : shutStep d s e = some t) : ShutInv d t := by
  unfold shutStep at hstep
  split at hstep
  · cases hstep
  · rename_i hlive
    cases e with
    | established =>
      obtain rfl := Option.some.inj hstep
      split
      · rename_i hstate
        refine ⟨h.once, h.inRange, fun _ => h.counted (.inl hstate), fun hclosing => ?_⟩
        rcases hclosing with hc | hc <;> cases hc
      · exact h
    | send i m =>
      dsimp only at hstep
      split at hstep
      · cases hstep
      · split at hstep
        · rename_i hi hstate
          obtain ⟨ss, hss, rfl⟩ := Option.map_eq_some_iff.1 hstep
          exact h.send (by omega) hstate.1 hss
        · obtain rfl := Option.some.inj hstep
          exact h
    | append i n =>
      dsimp only at hstep
      split at hstep
      · rename_i hlast
        obtain rfl := Option.some.inj hstep
        refine h.requeue_same (map_id_modifyLast fun _ => rfl) fun hclosing => ?_
        cases hsp : (s.ss.outqueue i).getLast? with
        | none => simp [hsp] at hlast
        | some sp =>
          have hcomplete := ((h.drained hclosing).2.2 i sp (List.mem_of_getLast? hsp)).2
          simp [hsp, hcomplete] at hlast
      · cases hstep
    | complete i =>
      obtain rfl := Option.some.inj hstep
      refine h.requeue_same (map_id_modifyLast fun _ => rfl) fun hclosing m hm => ?_
      obtain ⟨m₀, hm₀, rfl | rfl⟩ := mem_modifyLast hm
      · exact (h.drained hclosing).2.2 i m hm₀
      · exact ⟨((h.drained hclosing).2.2 i m₀ hm₀).1, rfl⟩
    | senderDone i k =>
      obtain rfl := Option.some.inj hstep
      refine h.requeue_same (map_id_modify fun _ => rfl) fun hclosing m hm => ?_
      obtain ⟨m₀, hm₀, rfl | rfl⟩ := mem_modify hm
      · exact (h.drained hclosing).2.2 i m hm₀
      · exact (h.drained hclosing).2.2 i m₀ hm₀
    | move i n locked => exact h.moveToOutqueue hstep
    | transmit k =>
      dsimp only at hstep
      split at hstep
      · cases hstep
      · obtain rfl := Option.some.inj hstep
        refine ⟨h.once, h.inRange, h.counted, fun hclosing => ?_⟩
        obtain ⟨hsend, hsent, htaken⟩ := h.drained hclosing
        refine ⟨?_, ?_, htaken⟩
        · change s.sendQueue - k = 0
          omega
        · change s.sentQueue + k = 0
          omega
    | sack slow acked =>
      obtain rfl := Option.some.inj hstep
      exact h.handleSack slow acked hlive
    | recvShutdown acked hasSocket =>
      obtain rfl := Option.some.inj hstep
      exact h.handleShutdown acked hasSocket hlive he
    | recvShutdownAck =>
      obtain rfl := Option.some.inj hstep
      unfold handleShutdownAck
      split
      · exact h.freed rfl rfl rfl
      · exact h
    | userShutdown disconnect =>
      obtain rfl := Option.some.inj hstep
      exact h.userShutdown disconnect hlive
    | sendEof =>
      obtain rfl := Option.some.inj hstep
      exact h.sendEof he

end ShutInv

/-- A closing association has sent everything, the scheduler knows what waits, and the answer
"nothing unsent" is true. -/
structure ShutExact (d : Discipline) (s : ShutAssoc) : Prop where
  drained : s.Closing → s.Drained
  once : WaitsOnce d s.ss
  unsent : (s.isThereUnsentData d).1 = 0 →
    ∀ i, ∀ m ∈ s.ss.outqueue i, m.length = 0 ∧ m.msgIsComplete
  trimmed : WaitsOnce d (s.isThereUnsentData d).2.ss

/-- In runs that ask for unsent data only while no queue begins with a finished message, no user data
is stranded. -/
theorem shutRun_exact (d : Discipline) (streamoutcnt : ℕ) (events : List ShutEvent) {s : ShutAssoc}
    (hregular : Trace.Along (shutStep d) (fun s e => e.Regular s) (ShutAssoc.init streamoutcnt) events)
    (hrun : shutRun d streamoutcnt events = some s) :
    (s.Closing → s.Drained) ∧ WaitsOnce d s.ss ∧ (s.Tidy → ShutExact d s) := by
  have hinv : ShutInv d s :=
    Trace.run_invariant (ShutInv d) (fun _ _ _ h he hstep => h.step he hstep)
      (ShutInv.init d streamoutcnt) hregular hrun
  have hdrained : s.Closing → s.Drained := by
    intro hclosing
    obtain ⟨hsend, hsent, htaken⟩ := hinv.drained hclosing
    exact ⟨hsend, hsent, fun i m hm => (htaken i m hm).1⟩
  refine ⟨hdrained, hinv.once.waitsOnce, fun htidy => ?_⟩
  obtain ⟨hsame, hempty⟩ := isThereUnsentData_tidy hinv htidy
  refine ⟨hdrained, hinv.once.waitsOnce, fun hzero i m hm => ?_, ?_⟩
  · rw [hempty hzero i] at hm
    cases hm
  · rw [hsame]
    exact hinv.once.waitsOnce

/-- A message is sent and acknowledged before the peer shuts down. -/
def sendThenShutdown : List ShutEvent :=
  [.established, .send 0 { id := 0, length := 10, msgIsComplete := true, senderAllDone := true },
    .move 0 10 none, .transmit 1, .sack false 1, .recvShutdown (some 0) true]

theorem sendThenShutdown_exact :
    ∃ s, shutRun .default 1 sendThenShutdown = some s ∧ s.Closing ∧ s.Drained := by
  have hstate : (shutRun .default 1 sendThenShutdown).map ShutAssoc.state = some .shutdownAckSent := by
    decide +kernel
  obtain ⟨s, hrun, hs⟩ := Option.map_eq_some_iff.1 hstate
  have hclosing : s.Closing := .inr hs
  have hregular : Trace.Along (shutStep .default) (fun s e => e.Regular s) (ShutAssoc.init 1) sendThenShutdown := by
    decide +kernel
  exact ⟨s, hrun, hclosing, (shutRun_exact .default 1 sendThenShutdown hregular hrun).1 hclosing⟩

/-- The sender still holds the first message when it is taken; the second waits behind it. -/
def shutdownBehindFinished : List ShutEvent :=
  [.established, .send 0 { id := 0, length := 10, msgIsComplete := true }, .move 0 10 (some 0),
    .senderDone 0 0, .send 0 { id := 1, length := 20, msgIsComplete := true, senderAllDone := true },
    .transmit 1, .sack false 1, .recvShutdown (some 0) true]

/-- The SHUTDOWN is acknowledged with 20 bytes unsent. -/
theorem shutdownBehindFinished_strands :
    ¬ ∀ (d : Discipline) (streamoutcnt : ℕ) (events : List ShutEvent) (s : ShutAssoc),
      shutRun d streamoutcnt events = some s → ShutExact d s := by
  intro h
  have hend : (shutRun .default 1 shutdownBehindFinished).map (fun s =>
      (s.state, (s.ss.outqueue 0).map Waiting.length)) = some (.shutdownAckSent, [20]) := by
    decide +kernel
  obtain ⟨s, hrun, hs⟩ := Option.map_eq_some_iff.1 hend
  obtain ⟨hstate, hlengths⟩ := Prod.mk.inj hs
  have hdrained := (h .default 1 shutdownBehindFinished s hrun).drained (.inr hstate)
  have hin : 20 ∈ (s.ss.outqueue 0).map Waiting.length := by
    rw [hlengths]
    exact List.mem_cons_self
  obtain ⟨m, hm, hlen⟩ := List.mem_map.1 hin
  rw [hdrained.messages 0 m hm] at hlen
  cases hlen

end Sctp
