import Sctp.Receiver.Run
import Sctp.Sender.GapMarks
import Sctp.Sender.LetGo

/-! The sender of one side, the receiver of the other, and a network between them that loses, repeats,
delays and reorders packets. No chunk is lost and none is accepted twice. -/
namespace Sctp
open Serial

variable {n : ℕ}

/-- The SACKs on the way are the ones that the receiver sent. What was sent may arrive at any time, any
number of times. -/
structure Transfer (n : ℕ) where
  snd : OutQueues n
  rcv : RecvRun
  /-- TSNs of the data chunks that were sent. -/
  wire : List Tsn

structure SackArrival (n : ℕ) where
  cmtDacFlag : Bool
  ecneSeen : Bool
  fastRetranLossRecovery : Bool
  alternate : Fin n → Fin n

/-- The chunk as `sctp_handle_sack` reads it. -/
def SackChunk.sack (c : SackChunk) (a : SackArrival n) : Sack n :=
  { cumAck := c.cumTsnAck
    rwnd := c.aRwnd.toNat
    segs := c.gapAckBlks.map GapBlock.bounds
    nrSegs := c.nrGapAckBlks.map GapBlock.bounds
    cmtDacFlag := a.cmtDacFlag
    ecneSeen := a.ecneSeen
    fastRetranLossRecovery := a.fastRetranLossRecovery
    alternate := a.alternate }

/-- A simple SACK, for the faster path. -/
def Sender.takesExpress (s : Sender n) (c : SackChunk) : Bool :=
  s.prSctpCnt == 0 && c.gapAckBlks.isEmpty && c.nrGapAckBlks.isEmpty &&
    tsnGe c.cumTsnAck s.lastAckedSeq && !s.sawSackWithFrags && !s.sawSackWithNrFrags &&
    !s.sentQueue.isEmpty

/-- `SCTP_SELECTIVE_ACK` and `SCTP_NR_SELECTIVE_ACK` in `sctp_process_control`. -/
def Sender.processSack (cfg : SenderConfig) (c : SackChunk) (a : SackArrival n) (s : Sender n) :
    Option (Sender n) :=
  if s.getState = stateShutdownAckSent then some s
  else if s.takesExpress c then expressHandleSack cfg c.cumTsnAck c.aRwnd.toNat a.ecneSeen s
  else handleSack cfg (c.sack a) s

inductive TransferEvent (n : ℕ) where
  /-- A chunk is cut from a message. -/
  | move (chunk : SentChunk n) (whoTo : Option (Fin n)) (info : MsgInfo)
  | transmit (net : Fin n) (lastSentTime : ℕ) (oneChunk : Bool) (picked : List Tsn)
  | retransmit (env : RetranEnv n)
  | t3 (t : T3 n)
  /-- A step of the receiver. -/
  | recv (e : RecvEvent)
  /-- One of the SACKs arrives. -/
  | sack (place : ℕ) (a : SackArrival n)

namespace Transfer

/-- A data chunk arrives only if it was sent; the rest of it is as it may be. -/
def carries (s : Transfer n) : RecvEvent → Bool
  | .chunk _ ch => s.wire.contains ch.tsn
  | _ => true

/-- A chunk has its data when it is cut, and no message has a PR-SCTP policy. -/
def move (s : Transfer n) (chunk : SentChunk n) (whoTo : Option (Fin n)) (info : MsgInfo) :
    Option (Transfer n) :=
  if prSctpEnabled chunk.flags then none
  else some { s with snd := s.snd.moveChunk { chunk with hasData := true } whoTo info }

def transmit (cfg : SenderConfig) (s : Transfer n) (net : Fin n) (lastSentTime : ℕ) (oneChunk : Bool)
    (picked : List Tsn) : Transfer n :=
  { s with
    snd := s.snd.transmitPicked cfg net lastSentTime oneChunk picked
    wire := s.wire ++ s.snd.unsent.filter fun t => picked.contains t }

def setSender (s : Transfer n) (t : Sender n) : Transfer n :=
  { s with snd := { s.snd with sender := t } }

end Transfer

/-- Nothing comes of an event that cannot happen, or that ends the association. -/
def transferStep (cfg : SenderConfig) (s : Transfer n) : TransferEvent n → Option (Transfer n)
  | .move chunk whoTo info => s.move chunk whoTo info
  | .transmit net lastSentTime oneChunk picked => some (s.transmit cfg net lastSentTime oneChunk picked)
  | .retransmit env => (chunkRetransmission cfg env s.snd.sender).map s.setSender
  | .t3 t => some (s.setSender (markAllForResend cfg t s.snd.sender))
  | .recv e => if s.carries e then (recvStep s.rcv e).map fun r => { s with rcv := r } else none
  | .sack place a => s.rcv.sacks[place]?.bind fun c =>
    (s.snd.sender.processSack cfg c a).map s.setSender

def transferRun (cfg : SenderConfig) : Transfer n → List (TransferEvent n) → Option (Transfer n) :=
  Trace.run (transferStep cfg)

section Places

variable {init a t : Tsn} {i j : ℕ}

/-- The TSN in front of place `i`, and the TSN at place `j`. -/
theorem tsnGt_place (ha : a + 1 = advance init i) (hi : i < 2 ^ 31) (hj : j < 2 ^ 31 - 1) :
    tsnGt (advance init j) a = true ↔ i ≤ j := by
  have hda := TsnMap.dist_of_add_one ha hi
  have hdj : dist init (advance init j) = j := dist_advance init (by norm_num; omega)
  rw [tsnGt_iff_dist init _ _ (by rw [hda, hdj]; omega), hda, hdj]
  omega

theorem tsnGt_front {b : Tsn} (ha : a + 1 = advance init i) (hb : b + 1 = advance init j)
    (hi : i < 2 ^ 31) (hj : j < 2 ^ 31) : tsnGt a b = true ↔ j < i := by
  have hda := TsnMap.dist_of_add_one ha hi
  have hdb := TsnMap.dist_of_add_one hb hj
  rw [tsnGt_iff_dist init _ _ (by rw [hda, hdb]; omega), hda, hdb]
  omega

/-- Steps from the TSN in front of place `i` to place `j`. -/
theorem toNat_sub_front (ha : a + 1 = advance init i) (hij : i ≤ j) (hj : j < 2 ^ 31) :
    (advance init j - a).toNat = j - i + 1 := by
  have hadv : advance init j = advance a (1 + (j - i)) := by
    rw [← advance_add a, show advance a 1 = a + 1 from rfl, ha, advance_add, Nat.add_sub_cancel' hij]
  rw [hadv, toNat_advance_sub a (by omega), Nat.add_comm]

/-- A TSN behind `a` is at a place from `i` on. -/
theorem exists_place (ha : a + 1 = advance init i) (ht : 0 < (t - a).toNat) :
    t = advance init (i + ((t - a).toNat - 1)) := by
  have hadv : t = advance a (1 + ((t - a).toNat - 1)) := by
    rw [Nat.add_sub_cancel' ht, advance_toNat_sub]
  rwa [← advance_add, show advance a 1 = a + 1 from rfl, ha, advance_add] at hadv

end Places

namespace Transfer

/-- Of the first `next` TSNs, which are assigned, the first `last` are acked. -/
structure Safe (init : Tsn) (next last : ℕ) (s : Transfer n) : Prop where
  ordered : s.snd.Ordered
  sendingSeq : s.snd.sender.sendingSeq = advance init next
  lastAckedSeq : s.snd.sender.lastAckedSeq + 1 = advance init last
  last_le : last ≤ next
  rcv : s.rcv.Sound init
  arrived : ∀ t ∈ s.rcv.accepted, t ∈ s.wire
  sent : ∀ t ∈ s.wire, t ∉ s.snd.unsent ∧ ∃ j < next, t = advance init j
  kept : ∀ j < next, advance init j ∈ s.snd.sent ∨ advance init j ∈ s.snd.unsent ∨
    advance init j ∈ s.rcv.accepted
  letGo : Vouched (fun t => t ∈ s.rcv.accepted) (fun _ => False) s.snd.sender.sentQueue
  data : ∀ d ∈ s.snd.sendList, d.chunk.hasData = true

namespace Safe

variable {init : Tsn} {next last : ℕ} {s : Transfer n}

/-- What waits is at a place between the two ends. -/
theorem place (h : s.Safe init next last) (hroom : next < 2 ^ 31 - 1) {t : Tsn}
    (ht : t ∈ s.snd.sent ++ s.snd.unsent) : ∃ j, last ≤ j ∧ j < next ∧ t = advance init j := by
  have hle := h.last_le
  obtain ⟨hpos, hlt⟩ := h.ordered.inside t ht
  rw [h.sendingSeq, toNat_sub_front h.lastAckedSeq hle (by omega)] at hlt
  exact ⟨_, Nat.le_add_right _ _, by omega, exists_place h.lastAckedSeq hpos⟩

/-- A SACK of the receiver is behind what is assigned, and all that it has was accepted. -/
theorem speaks (h : s.Safe init next last) (hroom : next < 2 ^ 31 - 1) {c : SackChunk}
    (hc : c ∈ s.rcv.sacks) : ∃ upto ≤ next, c.cumTsnAck + 1 = advance init upto ∧
      ∀ j < upto, advance init j ∈ s.rcv.accepted := by
  obtain ⟨⟨upto, hcum, hbelow⟩, -⟩ := h.rcv.sacks c hc
  refine ⟨upto, ?_, hcum, hbelow⟩
  by_contra hgt
  obtain ⟨j, hj, heq⟩ := (h.sent _ (h.arrived _ (hbelow next (not_le.1 hgt)))).2
  have := (advance_inj (by omega) (by omega)).1 heq
  omega

/-- A SACK names no chunk on the sent queue that was not accepted. -/
theorem names (h : s.Safe init next last) (hroom : next < 2 ^ 31 - 1) {c : SackChunk}
    (hc : c ∈ s.rcv.sacks) (a : SackArrival n) {t : Tsn} (ht : t ∈ s.snd.sent)
    (hnamed : (c.sack a).Names t) : t ∈ s.rcv.accepted := by
  obtain ⟨j, -, hj, rfl⟩ := h.place hroom (List.mem_append_left _ ht)
  refine (h.rcv.sacks c hc).2 j (by omega) ?_
  obtain hge | ⟨b, hb, i, hlow, hhigh, heq⟩ := hnamed
  · exact .inl hge
  · have hflip : advance init j = c.cumTsnAck + BitVec.ofNat 32 i := by
      rw [heq]
      exact BitVec.add_comm _ _
    obtain hb | hb := List.mem_append.1 hb
    · obtain ⟨f, hf, rfl⟩ := List.mem_map.1 hb
      exact .inr (.inl ⟨f, hf, i, hlow, hhigh, hflip⟩)
    · obtain ⟨f, hf, rfl⟩ := List.mem_map.1 hb
      exact .inr (.inr ⟨f, hf, i, hlow, hhigh, hflip⟩)

/-- The sender changes, but not its TSNs. -/
theorem same (h : s.Safe init next last) {t : Sender n} (ht : SameTsns s.snd.sender t)
    (hgo : Vouched (fun t => t ∈ s.rcv.accepted) (fun _ => False) t.sentQueue) :
    (s.setSender t).Safe init next last := by
  obtain ⟨hlast, hnext⟩ := Prod.mk.inj ht.ends
  have hsent : (s.setSender t).snd.sent = s.snd.sent := ht.tsns
  refine ⟨h.ordered.congr ht.ends ht.tsns rfl, ?_, ?_, h.last_le, h.rcv, h.arrived, h.sent, ?_, hgo,
    h.data⟩
  · exact hnext.trans h.sendingSeq
  · rw [← h.lastAckedSeq, ← hlast]
    rfl
  · rw [hsent]
    exact h.kept

/-- The cumulative ack moves over accepted chunks. -/
theorem passed (h : s.Safe init next last) (hroom : next < 2 ^ 31 - 1) {cum : Tsn} {upto : ℕ}
    (hle : upto ≤ next) (hcum : cum + 1 = advance init upto)
    (hbelow : ∀ j < upto, advance init j ∈ s.rcv.accepted) {t : Sender n}
    (hordered : (s.setSender t).snd.Ordered) (ht : Passed cum s.snd.sender t)
    (hgo : Vouched (fun t => t ∈ s.rcv.accepted) (fun _ => False) t.sentQueue) :
    (s.setSender t).Safe init next upto := by
  obtain ⟨hlast, hnext⟩ := Prod.mk.inj ht.ends
  obtain ⟨l, hl, hpassed⟩ := ht.split
  refine ⟨hordered, hnext.trans h.sendingSeq, ?_, hle, h.rcv, h.arrived, h.sent, fun j hj => ?_, hgo,
    h.data⟩
  · rw [← hcum, ← hlast]
    rfl
  · obtain hsent | hrest := h.kept j hj
    · have hsplit : advance init j ∈ l ++ t.tsns := by
        rw [← hl]
        exact hsent
      obtain hmem | hmem := List.mem_append.1 hsplit
      · have hbehind : ¬upto ≤ j := by
          rw [← tsnGt_place hcum (by omega) (by omega), hpassed _ hmem]
          exact Bool.false_ne_true
        exact .inr (.inr (hbelow j (not_le.1 hbehind)))
      · exact .inl hmem
    · exact .inr hrest

/-- The SACK acknowledges nothing that was not sent. -/
theorem acksSent (h : s.Safe init next last) (hroom : next < 2 ^ 31 - 1) {cum : Tsn} {upto : ℕ}
    (hle : upto ≤ next) (hcum : cum + 1 = advance init upto)
    (hbelow : ∀ j < upto, advance init j ∈ s.rcv.accepted) : s.snd.AcksSent cum := by
  have hlast := h.last_le
  obtain hlt | hge := Nat.lt_or_ge upto last
  · exact .inl ((tsnGt_front h.lastAckedSeq hcum (by omega) (by omega)).2 hlt)
  · refine .inr ⟨?_, fun t ht => ?_⟩
    · have hsub : (cum - s.snd.sender.lastAckedSeq).toNat = upto - last := by
        have hfront := toNat_sub_front h.lastAckedSeq hge (by omega)
        rw [← hcum] at hfront
        bv_omega
      rw [h.sendingSeq, toNat_sub_front h.lastAckedSeq hlast (by omega), hsub]
      omega
    · obtain ⟨j, -, hj, rfl⟩ := h.place hroom (List.mem_append_right _ ht)
      rw [tsnGt_place hcum (by omega) (by omega)]
      by_contra hbehind
      exact (h.sent _ (h.arrived _ (hbelow j (not_le.1 hbehind)))).1 ht

theorem move (h : s.Safe init next last) (hroom : next + 1 < 2 ^ 31 - 1) {chunk : SentChunk n}
    {whoTo : Option (Fin n)} {info : MsgInfo} {t : Transfer n}
    (ht : s.move chunk whoTo info = some t) : t.Safe init (next + 1) last := by
  have hlast := h.last_le
  unfold Transfer.move at ht
  split at ht
  · cases ht
  obtain rfl := Option.some.inj ht
  have hunsent : (s.snd.moveChunk { chunk with hasData := true } whoTo info).unsent =
      s.snd.unsent ++ [advance init next] := by
    rw [← h.sendingSeq]
    simp [OutQueues.moveChunk, OutQueues.noteHead, OutQueues.unsent]
  refine ⟨?_, ?_, h.lastAckedSeq, hlast.trans (Nat.le_succ next), h.rcv, h.arrived, fun t ht => ?_,
    fun j hj => ?_, h.letGo, fun d hd => ?_⟩
  · refine h.ordered.moveChunk ?_ _ whoTo info
    rw [h.sendingSeq, toNat_sub_front h.lastAckedSeq hlast (by omega)]
    omega
  · rw [← advance_add, ← h.sendingSeq]
    rfl
  · obtain ⟨hnot, j, hj, rfl⟩ := h.sent t ht
    refine ⟨fun hmem => ?_, j, by omega, rfl⟩
    rw [hunsent] at hmem
    obtain hmem | hmem := List.mem_append.1 hmem
    · exact hnot hmem
    · have := (advance_inj (by omega) (by omega)).1 (List.mem_singleton.1 hmem)
      omega
  · rw [hunsent]
    obtain rfl | hlt := Nat.eq_or_lt_of_le (Nat.le_of_lt_succ hj)
    · exact .inr (.inl (List.mem_append_right _ (List.mem_singleton.2 rfl)))
    · exact (h.kept j hlt).imp id (Or.imp (fun hmem => List.mem_append_left _ hmem) id)
  · obtain hd | hd := List.mem_append.1 hd
    · exact h.data d hd
    · rw [List.mem_singleton.1 hd]

theorem transmit (h : s.Safe init next last) (hroom : next < 2 ^ 31 - 1) (cfg : SenderConfig)
    (net : Fin n) (lastSentTime : ℕ) (oneChunk : Bool) (picked : List Tsn) :
    (s.transmit cfg net lastSentTime oneChunk picked).Safe init next last := by
  obtain ⟨hends, cs, hcs, hqueue⟩ := transmit_tsns cfg net lastSentTime oneChunk
    (s.snd.sendList.filter fun d => decide (d.chunk.tsn ∈ picked))
    ((s.snd.sendList.filter fun d => !decide (d.chunk.tsn ∈ picked)).head?.map fun d => d.chunk.tsn)
    s.snd.sender
  obtain ⟨hlast, hnext⟩ := Prod.mk.inj hends
  rw [OutQueues.unsent_filter s.snd fun t => decide (t ∈ picked)] at hcs
  have hunsent : (s.transmit cfg net lastSentTime oneChunk picked).snd.unsent =
      s.snd.unsent.filter fun t => !decide (t ∈ picked) :=
    OutQueues.unsent_filter s.snd fun t => !decide (t ∈ picked)
  have hsent : ∀ t, t ∈ (s.transmit cfg net lastSentTime oneChunk picked).snd.sent ↔
      (t ∈ s.snd.unsent ∧ t ∈ picked) ∨ t ∈ s.snd.sent := by
    intro t
    rw [OutQueues.sent, show (s.transmit cfg net lastSentTime oneChunk picked).snd.sender.sentQueue = _
      from hqueue, OutQueues.sent, List.mem_map, List.mem_map]
    simp only [mem_foldl_insertSent, or_and_right, exists_or]
    rw [← List.mem_map, hcs, List.mem_filter, decide_eq_true_iff]
  refine ⟨h.ordered.transmitPicked cfg net lastSentTime oneChunk picked, hnext.trans h.sendingSeq, ?_,
    h.last_le, h.rcv, fun t ht => List.mem_append_left _ (h.arrived t ht), fun t ht => ?_, fun j hj => ?_,
    fun c hc hgo => ?_, fun d hd => h.data d (List.mem_filter.1 hd).1⟩
  · rw [← h.lastAckedSeq, ← hlast]
    rfl
  · rw [hunsent]
    obtain ht | ht := List.mem_append.1 ht
    · obtain ⟨hnot, hplace⟩ := h.sent t ht
      exact ⟨fun hmem => hnot (List.mem_filter.1 hmem).1, hplace⟩
    · obtain ⟨hmem, hpicked⟩ := List.mem_filter.1 ht
      obtain ⟨j, -, hj, rfl⟩ := h.place hroom (List.mem_append_right _ hmem)
      refine ⟨fun hrest => ?_, j, hj, rfl⟩
      have hnot := (List.mem_filter.1 hrest).2
      rw [List.contains_iff_mem] at hpicked
      simp [hpicked] at hnot
  · rw [hunsent, hsent]
    obtain hmem | hmem | hmem := h.kept j hj
    · exact .inl (.inr hmem)
    · by_cases hpicked : advance init j ∈ picked
      · exact .inl (.inl ⟨hmem, hpicked⟩)
      · exact .inr (.inl (List.mem_filter.2 ⟨hmem, by simp [hpicked]⟩))
    · exact .inr (.inr hmem)
  · obtain hnot | hold := transmit_letGo cfg net lastSentTime oneChunk _ _ s.snd.sender
      (fun d hd => h.data d (List.mem_filter.1 hd).1) hc
    · rw [hnot] at hgo
      exact absurd hgo (by simp)
    · exact h.letGo c hold hgo

theorem recv (h : s.Safe init next last) (hroom : (s.rcv.accepted.length + 1) + 2 ^ 14 < 2 ^ 31)
    {e : RecvEvent} (hcarried : s.carries e = true) {r : RecvRun} (hr : recvStep s.rcv e = some r) :
    ({ s with rcv := r } : Transfer n).Safe init next last := by
  have hmore : ∀ t ∈ s.rcv.accepted, t ∈ r.accepted := by
    obtain heq | ⟨env, ch, -, heq⟩ := RecvRun.recvStep_accepted hr
    · rw [heq]
      exact fun t ht => ht
    · rw [heq]
      exact fun t ht => List.mem_append_left _ ht
  refine ⟨h.ordered, h.sendingSeq, h.lastAckedSeq, h.last_le, (RecvRun.recvStep_sound h.rcv hroom hr).1,
    fun t ht => ?_, h.sent, fun j hj => ?_, fun c hc hgo => hmore _ (h.letGo c hc hgo), h.data⟩
  · obtain heq | ⟨env, ch, rfl, heq⟩ := RecvRun.recvStep_accepted hr
    · exact h.arrived t (heq ▸ ht)
    · rw [heq] at ht
      obtain ht | ht := List.mem_append.1 ht
      · exact h.arrived t ht
      · rw [List.mem_singleton.1 ht]
        exact List.contains_iff_mem.1 hcarried
  · exact (h.kept j hj).imp id (Or.imp id (hmore _))

theorem sack (h : s.Safe init next last) (hroom : next < 2 ^ 31 - 1) (cfg : SenderConfig)
    {c : SackChunk} (hc : c ∈ s.rcv.sacks) (a : SackArrival n) {t : Sender n}
    (ht : s.snd.sender.processSack cfg c a = some t) :
    ∃ last', (s.setSender t).Safe init next last' := by
  obtain ⟨upto, hle, hcum, hbelow⟩ := h.speaks hroom hc
  have hacks : s.snd.AcksSent c.cumTsnAck := h.acksSent hroom hle hcum hbelow
  -- both handlers leave the TSNs alone or drop the first of them
  have hmoved : ∀ u : Sender n, SameTsns s.snd.sender u ∨
      tsnGt s.snd.sender.lastAckedSeq c.cumTsnAck = false ∧ Passed c.cumTsnAck s.snd.sender u →
      Vouched (fun t => t ∈ s.rcv.accepted) (fun _ => False) u.sentQueue →
      ∃ last', (s.setSender u).Safe init next last' := by
    intro u hu hgo
    have hordered : (s.setSender u).snd.Ordered := h.ordered.acked hacks hu
    obtain hsame | ⟨-, hpassed⟩ := hu
    · exact ⟨last, h.same hsame hgo⟩
    · exact ⟨upto, h.passed hroom hle hcum hbelow hordered hpassed hgo⟩
  unfold Sender.processSack at ht
  split at ht
  · cases ht
    exact ⟨last, h⟩
  · split at ht
    · exact hmoved t (expressHandleSack_tsns (h.ordered.ack_cases hacks) ht)
        (h.letGo.held (expressHandleSack_held ht))
    · refine hmoved t (handleSack_tsns ht) ?_
      have hvouched : Vouched (fun t => t ∈ s.rcv.accepted) (c.sack a).Names s.snd.sender.sentQueue := by
        intro d hd hgo
        obtain hgo | hnamed := hgo
        · exact h.letGo d hd (.inl hgo)
        · exact h.names hroom hc a (List.mem_map_of_mem hd) hnamed
      intro d hd hgo
      exact hvouched.handleSack ht d hd (hgo.imp id False.elim)

theorem step (h : s.Safe init next last) {cfg : SenderConfig} {e : TransferEvent n} {t : Transfer n}
    (hroom : (next + s.rcv.accepted.length + 1) + 2 ^ 14 < 2 ^ 31) (ht : transferStep cfg s e = some t) :
    ∃ next' last', t.Safe init next' last' ∧
      next' + t.rcv.accepted.length ≤ next + s.rcv.accepted.length + 1 := by
  cases e with
  | move chunk whoTo info =>
    refine ⟨next + 1, last, h.move (by omega) ht, ?_⟩
    have ht : s.move chunk whoTo info = some t := ht
    unfold Transfer.move at ht
    split at ht
    · cases ht
    · cases ht
      exact (Nat.add_right_comm next 1 _).le
  | transmit net lastSentTime oneChunk picked =>
    cases ht
    exact ⟨next, last, h.transmit (by omega) cfg net lastSentTime oneChunk picked, Nat.le_succ _⟩
  | retransmit env =>
    obtain ⟨u, hu, rfl⟩ := Option.map_eq_some_iff.1 ht
    exact ⟨next, last, h.same (chunkRetransmission_same hu) (h.letGo.held (Held.chunkRetransmission hu)),
      Nat.le_succ _⟩
  | t3 env =>
    cases ht
    have hsame := markAllForResend_same cfg env (s := s.snd.sender) fun x hx => h.ordered.notOld hx
    exact ⟨next, last, h.same hsame (h.letGo.held (Held.markAllForResend cfg env _)), Nat.le_succ _⟩
  | recv e =>
    unfold transferStep at ht
    dsimp only at ht
    split at ht
    · rename_i hcarried
      obtain ⟨r, hr, rfl⟩ := Option.map_eq_some_iff.1 ht
      refine ⟨next, last, h.recv (by omega) hcarried hr, ?_⟩
      have hlen := (RecvRun.recvStep_sound h.rcv (by omega) hr).2
      dsimp only
      omega
    · cases ht
  | sack place a =>
    obtain ⟨c, hc, ht⟩ := Option.bind_eq_some_iff.1 ht
    obtain ⟨u, hu, rfl⟩ := Option.map_eq_some_iff.1 ht
    obtain ⟨last', hsafe⟩ := h.sack (by omega) cfg (List.mem_of_getElem? hc) a hu
    exact ⟨next, last', hsafe, Nat.le_succ _⟩

theorem run {cfg : SenderConfig} {es : List (TransferEvent n)} {t : Transfer n}
    (h : s.Safe init next last)
    (hroom : (next + s.rcv.accepted.length + es.length) + 2 ^ 14 < 2 ^ 31)
    (ht : transferRun cfg s es = some t) :
    ∃ next' last', t.Safe init next' last' ∧
      next' + t.rcv.accepted.length ≤ next + s.rcv.accepted.length + es.length := by
  have hstep : ∀ (s : Transfer n) (k : ℕ) (e : TransferEvent n) (s' : Transfer n),
      (∃ next last, s.Safe init next last ∧ next + s.rcv.accepted.length = k) → True →
        k < 2 ^ 31 - 2 ^ 14 - 1 → transferStep cfg s e = some s' →
          ∃ k' ≤ k + 1, ∃ next last, s'.Safe init next last ∧ next + s'.rcv.accepted.length = k' := by
    rintro s k e s' ⟨next, last, hs, rfl⟩ - hk hs'
    obtain ⟨next', last', hsafe, hsteps⟩ := hs.step (by omega) hs'
    exact ⟨_, hsteps, next', last', hsafe, rfl⟩
  obtain ⟨k, hk, next', last', hsafe, rfl⟩ := Trace.run_counted _ hstep ⟨next, last, h, rfl⟩
    (Trace.along_true (transferStep cfg) s es) (by omega) ht
  exact ⟨next', last', hsafe, hk⟩

/-- What is acked was accepted. -/
theorem acked (h : s.Safe init next last) (hroom : next < 2 ^ 31 - 1) {j : ℕ} (hj : j < last) :
    advance init j ∈ s.rcv.accepted := by
  have hle := h.last_le
  have hgone : advance init j ∉ s.snd.sent ++ s.snd.unsent := by
    intro hmem
    obtain ⟨i, hi, hnext, heq⟩ := h.place hroom hmem
    have := (advance_inj (by omega) (by omega)).1 heq
    omega
  obtain hmem | hmem | hmem := h.kept j (by omega)
  · exact absurd (List.mem_append_left _ hmem) hgone
  · exact absurd (List.mem_append_right _ hmem) hgone
  · exact hmem

end Safe

structure Fresh (init : Tsn) (s : Transfer n) : Prop where
  snd : s.snd.Fresh
  sendingSeq : s.snd.sender.sendingSeq = init
  rcv : s.rcv.Fresh init
  wire : s.wire = []

theorem Fresh.safe {init : Tsn} {s : Transfer n} (h : s.Fresh init) : s.Safe init 0 0 := by
  obtain ⟨hqueue, hlist, hends⟩ := h.snd
  refine ⟨h.snd.ordered, ?_, ?_, le_rfl, h.rcv.sound, fun t ht => ?_, fun t ht => ?_,
    fun j hj => absurd hj (Nat.not_lt_zero j), fun c hc => ?_, fun d hd => ?_⟩
  · rw [h.sendingSeq, advance_zero]
  · rw [← hends, h.sendingSeq, advance_zero]
  · rw [h.rcv.accepted] at ht
    cases ht
  · rw [h.wire] at ht
    cases ht
  · rw [hqueue] at hc
    cases hc
  · rw [hlist] at hd
    cases hd

theorem Fresh.run {init : Tsn} {cfg : SenderConfig} {es : List (TransferEvent n)} {s t : Transfer n}
    (h : s.Fresh init) (hes : es.length + 2 ^ 14 < 2 ^ 31) (ht : transferRun cfg s es = some t) :
    ∃ next last, t.Safe init next last ∧ next + t.rcv.accepted.length ≤ es.length := by
  have hnone : s.rcv.accepted.length = 0 := by
    rw [h.rcv.accepted]
    rfl
  obtain ⟨next, last, hsafe, hsteps⟩ := h.safe.run (by omega) ht
  exact ⟨next, last, hsafe, by omega⟩

/-- The sender has the chunk, with its data, to send or to send again. -/
def Retains (s : Transfer n) (t : Tsn) : Prop :=
  (∃ d ∈ s.snd.sendList, d.chunk.tsn = t ∧ d.chunk.hasData = true) ∨
    ∃ c ∈ s.snd.sender.sentQueue, c.tsn = t ∧ c.letGo = false

theorem Safe.retains {init : Tsn} {next last : ℕ} {s : Transfer n} (h : s.Safe init next last) {j : ℕ}
    (hj : j < next) : advance init j ∈ s.rcv.accepted ∨ s.Retains (advance init j) := by
  obtain hmem | hmem | hmem := h.kept j hj
  · obtain ⟨c, hc, htsn⟩ := List.mem_map.1 hmem
    cases hgo : c.letGo with
    | true =>
      left
      rw [← htsn]
      exact h.letGo c hc (.inl hgo)
    | false => exact .inr (.inr ⟨c, hc, htsn, hgo⟩)
  · obtain ⟨d, hd, htsn⟩ := List.mem_map.1 hmem
    exact .inr (.inl ⟨d, hd, htsn, h.data d hd⟩)
  · exact .inl hmem

/-- Nothing is accepted twice or without having been sent; each TSN that was assigned is accepted or
is still with the sender, data and all; and all that is acked was accepted. -/
theorem transferRun_safe (cfg : SenderConfig) (init : Tsn) (s t : Transfer n)
    (es : List (TransferEvent n)) (hs : s.Fresh init) (hes : es.length + 2 ^ 14 < 2 ^ 31)
    (ht : transferRun cfg s es = some t) :
    t.rcv.accepted.Nodup ∧ (∀ x ∈ t.rcv.accepted, x ∈ t.wire) ∧
      ∃ next last, t.snd.sender.sendingSeq = advance init next ∧
        t.snd.sender.lastAckedSeq + 1 = advance init last ∧ last ≤ next ∧
        (∀ j < next, advance init j ∈ t.rcv.accepted ∨ t.Retains (advance init j)) ∧
        ∀ j < last, advance init j ∈ t.rcv.accepted := by
  obtain ⟨next, last, h, hsteps⟩ := hs.run hes ht
  exact ⟨h.rcv.nodup, h.arrived, next, last, h.sendingSeq, h.lastAckedSeq, h.last_le,
    fun j hj => h.retains hj, fun j hj => h.acked (by omega) hj⟩

local instance transfer_neZero : NeZero 2 := ⟨two_ne_zero⟩

/-- Two paths to a receiver with one stream, before the first chunk. -/
def idle : Transfer 2 where
  snd := twoPaths
  rcv := RecvRun.fresh 1 1
  wire := []

theorem idle_fresh : idle.Fresh 1 := ⟨⟨rfl, rfl, rfl⟩, rfl, RecvRun.fresh_fresh 1 1, rfl⟩

/-- The first of three chunks is lost and sent again after the SACK and the timer; the second one
arrives twice. -/
def lossyRun : List (TransferEvent 2) :=
  let cut : TransferEvent 2 := .move { pathChunk 0 with flags := 0 } (some 0) ⟨0, true⟩
  let arrive (tsn : Tsn) (ssn : Ssn) : TransferEvent 2 :=
    .recv (.chunk ⟨⟨true, 100, 4096⟩, false, 0, 65536⟩
      ⟨tsn, 0, ssn, 0, ⟨true, true, false, false⟩, none, [1, 2, 3]⟩)
  [cut, cut, cut, .transmit 0 0 false [1, 2, 3], arrive 2 1, .recv (.sendSack ⟨false, 65536, [], 1000, 1500⟩),
    .sack 0 ⟨false, false, false, id⟩, arrive 2 1, .t3 ⟨0, 1, false, 10⟩,
    .retransmit ⟨fun _ => 1500, fun _ => 5000, none, 0, fun _ => true, true, 20⟩, arrive 1 0]

theorem transferRun_lossyRun :
    (transferRun freshConfig idle lossyRun).map (fun t =>
      (t.rcv.accepted, t.snd.sender.sentQueue.map fun c => (c.tsn, c.sent))) =
        some ([2, 1], [(1, datagramSent), (2, datagramAcked), (3, datagramResend)]) := by
  decide +kernel

theorem transferRun_safe_lossy : ∃ t, transferRun freshConfig idle lossyRun = some t ∧
    t.rcv.accepted.Nodup ∧ (∀ x ∈ t.rcv.accepted, x ∈ t.wire) ∧
      ∃ next last, t.snd.sender.sendingSeq = advance 1 next ∧
        t.snd.sender.lastAckedSeq + 1 = advance 1 last ∧ last ≤ next ∧
        (∀ j < next, advance 1 j ∈ t.rcv.accepted ∨ t.Retains (advance 1 j)) ∧
        ∀ j < last, advance 1 j ∈ t.rcv.accepted := by
  obtain ⟨t, ht, -⟩ := Option.map_eq_some_iff.1 transferRun_lossyRun
  exact ⟨t, ht, transferRun_safe freshConfig 1 idle t lossyRun idle_fresh (by decide) ht⟩

/-- The report of the moment acks up to the first TSN that was not accepted. -/
theorem Safe.report {init : Tsn} {next last : ℕ} {s : Transfer n} (h : s.Safe init next last)
    (hroom : s.rcv.accepted.length + 2 ^ 14 < 2 ^ 31) (env : SackEnv) :
    ∃ upto, (s.rcv.report env).2.cumTsnAck + 1 = advance init upto ∧
      (∀ j < upto, advance init j ∈ s.rcv.accepted) ∧ upto ∉ places init s.rcv.accepted := by
  obtain ⟨w, hw⟩ := h.rcv.window
  obtain ⟨upto, hcum, hbelow, hfirst⟩ := hw.sendSack_first (RecvRun.few init hroom)
    { env with dupTsns := s.rcv.dupTsns }
  exact ⟨upto, hcum, fun j hj => advance_mem (hbelow j hj), hfirst⟩

theorem expressHandleSack_passed {cfg : SenderConfig} {cumack : Tsn} {rwnd : ℕ} {ecneSeen : Bool}
    {s t : Sender n} (hgt : tsnGt cumack s.lastAckedSeq = true)
    (h : expressHandleSack cfg cumack rwnd ecneSeen s = some t) : Passed cumack s t := by
  have hnotold := not_tsnGt_of_tsnGt hgt
  have hne : s.lastAckedSeq ≠ cumack := by
    intro heq
    rw [heq, tsnGt, Serial.gt_self] at hgt
    cases hgt
  unfold expressHandleSack at h
  rw [hnotold, if_neg Bool.false_ne_true, if_neg hne] at h
  split at h
  · cases h
  · have hhushed : SameTsns s s.hushed := ⟨rfl, rfl⟩
    have hmove := Passed.after hhushed (expressMove_passed ecneSeen hgt)
    have hrwnd : SameTsns (expressMove cumack ecneSeen s.hushed)
        ((expressMove cumack ecneSeen s.hushed).setRwnd cfg rwnd) := ⟨rfl, rfl⟩
    exact (hmove.trans hrwnd).trans (SameTsns.expressTail h)

/-- A SACK that is not old is worked in, unless nothing waits. -/
theorem handleSack_passed {cfg : SenderConfig} {sack : Sack n} {s t : Sender n}
    (hnew : tsnGt s.lastAckedSeq sack.cumAck = false) (h : handleSack cfg sack s = some t) :
    t.sentQueue = [] ∨ Passed sack.cumAck s t := by
  unfold handleSack at h
  rw [hnew, if_neg Bool.false_ne_true] at h
  split at h
  · cases h
  · split at h
    · rename_i hdrained
      cases h
      unfold Sender.drained at hdrained
      simp only [Bool.and_eq_true, List.isEmpty_iff] at hdrained
      exact .inl hdrained.1.2
    · dsimp only at h
      split at h
      · cases h
      · have hhushed : SameTsns s s.hushed := ⟨rfl, rfl⟩
        have hparts := (hhushed.trans (cumAckPart_same sack s.hushed)).trans
          (gapPart_same sack (cumAckPart sack s.hushed))
        exact .inr ((Passed.after hparts (settlePart_passed cfg sack _)).trans
          (sackShutdown_same (fun u => sackTail_same cfg sack _ _ u) h))

/-- No chunk that the SACK covers stays on the sent queue. -/
theorem Safe.behind {init : Tsn} {next last upto : ℕ} {s : Transfer n} (h : s.Safe init next last)
    (hroom : next < 2 ^ 31 - 1) {cfg : SenderConfig} {c : SackChunk} {a : SackArrival n} {t : Sender n}
    (hle : upto ≤ next) (hcum : c.cumTsnAck + 1 = advance init upto)
    (hbelow : ∀ j < upto, advance init j ∈ s.rcv.accepted) (hnew : last ≤ upto)
    (hc : c ∈ s.rcv.sacks) (hopen : s.snd.sender.getState ≠ stateShutdownAckSent)
    (ht : s.snd.sender.processSack cfg c a = some t) :
    ∀ x ∈ t.tsns, ∃ j, upto ≤ j ∧ j < next ∧ x = advance init j := by
  have hacks : s.snd.AcksSent c.cumTsnAck := h.acksSent hroom hle hcum hbelow
  have hnotold : tsnGt s.snd.sender.lastAckedSeq c.cumTsnAck = false := by
    rw [← Bool.not_eq_true, tsnGt_front h.lastAckedSeq hcum (by omega) (by omega)]
    omega
  obtain ⟨last', hsafe⟩ := h.sack hroom cfg hc a ht
  have hpassed : Passed c.cumTsnAck s.snd.sender t →
      ∀ x ∈ t.tsns, ∃ j, upto ≤ j ∧ j < next ∧ x = advance init j := by
    intro hpassed x hx
    have hordered := h.ordered.acked hacks (.inr ⟨hnotold, hpassed⟩)
    exact (h.passed hroom hle hcum hbelow hordered hpassed hsafe.letGo).place hroom
      (List.mem_append_left _ hx)
  unfold Sender.processSack at ht
  rw [if_neg hopen] at ht
  split at ht
  · obtain rfl | hlt := Nat.eq_or_lt_of_le hnew
    · have heq : s.snd.sender.lastAckedSeq = c.cumTsnAck := by
        have hsucc := h.lastAckedSeq.trans hcum.symm
        bv_omega
      obtain hsame | ⟨-, hmoved⟩ := expressHandleSack_tsns (.inr (.inr heq)) ht
      · exact fun x hx => (h.same hsame hsafe.letGo).place hroom (List.mem_append_left _ hx)
      · exact hpassed hmoved
    · have hgt := (tsnGt_front hcum h.lastAckedSeq (by omega) (by omega)).2 hlt
      exact hpassed (expressHandleSack_passed hgt ht)
  · obtain hempty | hmoved := handleSack_passed hnotold ht
    · intro x hx
      rw [Sender.tsns, hempty] at hx
      cases hx
    · exact hpassed hmoved

/-- Once a SACK of the moment has reached it, the sender keeps only what lies behind the first TSN that
the receiver lacks. -/
theorem transferRun_drains (cfg : SenderConfig) (init : Tsn) (s t u : Transfer n)
    (es : List (TransferEvent n)) (env : SackEnv) (a : SackArrival n) (hs : s.Fresh init)
    (hes : (es.length + 1) + 2 ^ 14 < 2 ^ 31) (ht : transferRun cfg s es = some t)
    (hopen : t.snd.sender.getState ≠ stateShutdownAckSent)
    (hu : transferRun cfg t [.recv (.sendSack env), .sack 0 a] = some u) :
    ∃ next upto, u.snd.sender.sendingSeq = advance init next ∧ upto ≤ next ∧ next < 2 ^ 31 ∧
      (∀ j < upto, advance init j ∈ u.rcv.accepted) ∧ advance init upto ∉ u.rcv.accepted ∧
      ∀ x ∈ u.snd.sent, ∃ j, upto ≤ j ∧ j < next ∧ x = advance init j := by
  obtain ⟨next, last, h, hsteps⟩ := hs.run (by omega) ht
  obtain ⟨upto, hcum, hbelow, hfirst⟩ := h.report (by omega) env
  have hsafe : ({ t with rcv := t.rcv.emitSack env } : Transfer n).Safe init next last :=
    h.recv (e := .sendSack env) (by omega) rfl rfl
  obtain ⟨v, hv, hu⟩ := Option.bind_eq_some_iff.1 hu
  obtain rfl : v = u := Option.some.inj hu
  unfold transferStep at hv
  dsimp only at hv
  obtain ⟨c, hc, hv⟩ := Option.bind_eq_some_iff.1 hv
  obtain rfl : (t.rcv.report env).2 = c := Option.some.inj hc
  obtain ⟨x, hx, rfl⟩ := Option.map_eq_some_iff.1 hv
  have hle : upto ≤ next := by
    by_contra hgt
    obtain ⟨j, hj, heq⟩ := (h.sent _ (h.arrived _ (hbelow next (not_le.1 hgt)))).2
    have := (advance_inj (by omega) (by omega)).1 heq
    omega
  have hlack : advance init upto ∉ t.rcv.accepted := by
    intro hmem
    apply hfirst
    rw [← mem_places, toNat_advance_sub init (by omega)] at hmem
    exact hmem
  have hnew : last ≤ upto := by
    by_contra hlt
    exact hlack (h.acked (by omega) (not_le.1 hlt))
  obtain ⟨last', hmoved⟩ := hsafe.sack (by omega) cfg List.mem_cons_self a hx
  refine ⟨next, upto, hmoved.sendingSeq, hle, by omega, hbelow, hlack, ?_⟩
  exact hsafe.behind (by omega) hle hcum hbelow hnew List.mem_cons_self hopen hx

theorem transferRun_lossyRun_sacked :
    (transferRun freshConfig idle lossyRun).bind (fun t =>
      (transferRun freshConfig t [.recv (.sendSack ⟨false, 65536, [], 1000, 1500⟩),
        .sack 0 ⟨false, false, false, id⟩]).map fun u => (t.snd.sender.getState, u.snd.sent)) =
      some (8, [3]) := by
  decide +kernel

theorem transferRun_drains_lossy : ∃ u : Transfer 2, u.snd.sent = [3] ∧
    ∃ next upto, u.snd.sender.sendingSeq = advance 1 next ∧ upto ≤ next ∧ next < 2 ^ 31 ∧
      (∀ j < upto, advance 1 j ∈ u.rcv.accepted) ∧ advance 1 upto ∉ u.rcv.accepted ∧
      ∀ x ∈ u.snd.sent, ∃ j, upto ≤ j ∧ j < next ∧ x = advance 1 j := by
  obtain ⟨t, ht, hrest⟩ := Option.bind_eq_some_iff.1 transferRun_lossyRun_sacked
  obtain ⟨u, hu, heq⟩ := Option.map_eq_some_iff.1 hrest
  obtain ⟨hstate, hsent⟩ := Prod.mk.inj heq
  have hopen : t.snd.sender.getState ≠ stateShutdownAckSent := by
    rw [hstate]
    decide
  exact ⟨u, hsent, transferRun_drains freshConfig 1 idle t u lossyRun _ _ idle_fresh (by decide) ht hopen hu⟩

end Transfer

end Sctp
