import Sctp.Output.SentMessages
import Sctp.Receiver.Exact

/-! The two ends of an association. What the user of one end reads on a stream are the messages that were
written to it at the other end, whatever becomes of the DATA chunks in between. -/
namespace Sctp
open Bitmap Serial

section

variable (cfg : OutConfig) (call : MoveCall) (a : OutAssoc) (i : StreamNo)

theorem copyOut_grows (old sp : StreamQueuePending) (flags : RcvFlags) (n : ℕ) :
    a.sendQueue <+: (copyOut cfg call a i old sp flags n).assoc.sendQueue := by
  unfold copyOut
  dsimp only
  split
  · exact List.prefix_rfl
  · split
    · split
      · exact List.prefix_rfl
      · exact List.prefix_append a.sendQueue _
    · split
      · exact List.prefix_rfl
      · split
        · exact List.prefix_rfl
        · exact List.prefix_append a.sendQueue _

theorem moveFirst_grows : a.sendQueue <+: (moveFirst cfg call a i).assoc.sendQueue := by
  unfold moveFirst
  dsimp only
  split
  · exact List.prefix_rfl
  · split
    · exact List.prefix_rfl
    · split
      · exact List.prefix_rfl
      · unfold moveHead
        split
        · exact List.prefix_rfl
        · exact copyOut_grows cfg call a i _ _ _ _

theorem moveToOutqueue_grows : a.sendQueue <+: (moveToOutqueue cfg call a i).assoc.sendQueue := by
  have hreap := reapFinished_sendQueue a i
  have hmove := moveFirst_grows cfg call (reapFinished a i) i
  rw [hreap] at hmove
  exact hmove

theorem fillLoop_grows (fc : FillCall) (fuel n : ℕ) (goal : ℤ) (i : StreamNo) (a : OutAssoc) :
    a.sendQueue <+: (fillLoop fc fuel n goal i a).assoc.sendQueue := by
  induction fuel generalizing n goal i a with
  | zero => exact List.prefix_rfl
  | succ fuel ih =>
    unfold fillLoop
    split
    · exact List.prefix_rfl
    · have hmove : a.sendQueue <+: (moveToOutqueue fc.cfg (fc.moveCall n goal) a i).assoc.sendQueue :=
        moveToOutqueue_grows fc.cfg (fc.moveCall n goal) a i
      dsimp only
      split
      · split
        · exact hmove
        · apply hmove.trans
          exact ih (n + 1) _ i { (moveToOutqueue fc.cfg (fc.moveCall n goal) a i).assoc with
            lockedOnSending := some i }
      · split
        · exact hmove
        · split
          · exact hmove
          · apply hmove.trans
            exact ih (n + 1) _ _ { (moveToOutqueue fc.cfg (fc.moveCall n goal) a i).assoc with
              lockedOnSending := none }

end

theorem FillEvent.apply_grows (s : FillState) (ev : FillEvent) :
    s.assoc.sendQueue <+: (ev.apply s).assoc.sendQueue := by
  cases ev with
  | fill fc =>
    change _ <+: (fillOutqueue fc s.assoc).assoc.sendQueue
    unfold fillOutqueue
    dsimp only
    split
    · exact List.prefix_rfl
    · exact fillLoop_grows _ _ _ _ _ _
  | sender ev => cases ev <;> exact List.prefix_rfl

/-- The sender of one end and the receiver of the other. On the send queue are all chunks since the beginning;
which of them were sent and acknowledged does not matter here. -/
structure Link where
  sender : FillState
  user : UserRun

inductive LinkEvent where
  /-- A step of the sender. -/
  | sender (ev : FillEvent)
  /-- A chunk of the send queue arrives. It may do so at any time, any number of times, or never. -/
  | arrive (env : ChunkEnv) (k : ℕ)
  | sendSack (env : SackEnv)
  /-- The user takes messages from the read queue. -/
  | read (n : ℕ)

def Link.recv (s : Link) (e : RecvEvent) : Option Link :=
  (userStep s.user e).map fun u => { s with user := u }

def linkStep (s : Link) : LinkEvent → Option Link
  | .sender ev => some { s with sender := ev.apply s.sender }
  | .arrive env k => s.sender.assoc.sendQueue[k]?.bind fun c => s.recv (.chunk env c.wire)
  | .sendSack env => s.recv (.sendSack env)
  | .read n => s.recv (.read n)

def linkRun : Link → List LinkEvent → Option Link := Trace.run linkStep

def LinkEvent.senderEvent : LinkEvent → Option FillEvent
  | .sender ev => some ev
  | _ => none

def senderEvents (es : List LinkEvent) : List FillEvent := es.filterMap LinkEvent.senderEvent

namespace Link

/-- When a chunk arrives nothing waits on its stream that is far behind it, and no fragment alone is long
enough for a partial delivery. -/
def Allows (point : ℕ) (s : Link) : LinkEvent → Prop
  | .arrive env k => point ≤ env.pdPoint ∧
      ∀ c ∈ s.sender.assoc.sendQueue[k]?, s.user.toReceiver.Recent c.wire
  | _ => True

instance Allows.decidable (point : ℕ) (s : Link) : ∀ e, Decidable (s.Allows point e)
  | .arrive env k => inferInstanceAs (Decidable (point ≤ env.pdPoint ∧
      ∀ c ∈ s.sender.assoc.sendQueue[k]?, s.user.toReceiver.Recent c.wire))
  | .sender _ => .isTrue trivial
  | .sendSack _ => .isTrue trivial
  | .read _ => .isTrue trivial

structure Begins (init : Tsn) (s : Link) : Prop where
  sender : s.sender = freshState init
  user : s.user.Begins
  fresh : s.user.toRecvRun.Fresh init

end Link

section

variable {s t : Link} {e : LinkEvent} {es : List LinkEvent} {point : ℕ} {init : Tsn}

theorem Link.recv_spec {r : RecvEvent} (h : s.recv r = some t) :
    t.sender = s.sender ∧ userStep s.user r = some t.user := by
  obtain ⟨x, hx, rfl⟩ := Option.map_eq_some_iff.1 h
  exact ⟨rfl, hx⟩

/-- What a step is for the sender. -/
theorem linkStep_sender (h : linkStep s e = some t) :
    t.sender = e.senderEvent.elim s.sender fun ev => ev.apply s.sender := by
  cases e with
  | sender ev =>
    obtain rfl := Option.some.inj h
    rfl
  | arrive env k =>
    obtain ⟨c, -, hrecv⟩ := Option.bind_eq_some_iff.1 h
    exact (Link.recv_spec hrecv).1
  | sendSack env => exact (Link.recv_spec h).1
  | read n => exact (Link.recv_spec h).1

theorem linkRun_sender (h : linkRun s es = some t) : t.sender = fillRun s.sender (senderEvents es) := by
  induction es generalizing s with
  | nil =>
    obtain rfl := Option.some.inj h
    rfl
  | cons e es ih =>
    obtain ⟨u, hu, hrest⟩ := Option.bind_eq_some_iff.1 h
    rw [ih hrest, linkStep_sender hu, senderEvents, senderEvents, List.filterMap_cons]
    cases e.senderEvent <;> rfl

theorem fillRun_grows (s : FillState) (evs : List FillEvent) :
    s.assoc.sendQueue <+: (fillRun s evs).assoc.sendQueue := by
  induction evs generalizing s with
  | nil => exact List.prefix_rfl
  | cons ev evs ih => exact (ev.apply_grows s).trans (ih (ev.apply s))

theorem linkRun_grows (h : linkRun s es = some t) :
    s.sender.assoc.sendQueue <+: t.sender.assoc.sendQueue := by
  rw [linkRun_sender h]
  exact fillRun_grows _ _

/-- For the receiver the run is one in which fragments of the messages arrive. -/
structure Receives (messages : List Message) (s : UserRun) (es : List RecvEvent) (t : UserRun) : Prop where
  run : userRun s es = some t
  inTime : Trace.Along userStep (UserRun.InTime messages) s es

theorem Receives.nil (messages : List Message) (s : UserRun) : Receives messages s [] s := ⟨rfl, trivial⟩

theorem Receives.cons {messages : List Message} {s u t : UserRun} {r : RecvEvent} {rs : List RecvEvent}
    (hu : userStep s r = some u) (hr : s.InTime messages r) (h : Receives messages u rs t) :
    Receives messages s (r :: rs) t := by
  refine ⟨?_, hr, fun v hv => ?_⟩
  · rw [userRun, Trace.run, hu]
    exact h.run
  · obtain rfl := Option.some.inj (hu.symm.trans hv)
    exact h.inTime

variable {ms : List StreamQueuePending} {q : List TmitChunk} {messages : List Message}

/-- A chunk of the send queue is a fragment of a message. -/
theorem SentBy.inTime (h : SentBy point init ms q messages) {env : ChunkEnv} {k : ℕ}
    (hs : s.Allows point (.arrive env k)) {c : TmitChunk} (hk : s.sender.assoc.sendQueue[k]? = some c)
    (hc : c ∈ q) : s.user.InTime messages (.chunk env c.wire) := by
  obtain ⟨hpoint, hrecent⟩ := hs
  have hfit : PartsFit messages env.toRecvConfig :=
    fun m hm _ _ part hpart => (h.parts m hm part hpart).trans hpoint
  exact ⟨h.payload c hc, hfit, hrecent c hk, h.chunks c hc⟩

theorem linkRun_receives (h : SentBy point init ms q messages)
    (hes : Trace.Along linkStep (Link.Allows point) s es) (ht : linkRun s es = some t)
    (hq : t.sender.assoc.sendQueue <+: q) :
    ∃ rs, rs.length ≤ es.length ∧ Receives messages s.user rs t.user := by
  induction es generalizing s with
  | nil =>
    obtain rfl := Option.some.inj ht
    exact ⟨[], le_rfl, .nil messages s.user⟩
  | cons e es ih =>
    obtain ⟨u, hu, hrest⟩ := Option.bind_eq_some_iff.1 ht
    obtain ⟨rs, hlen, hlater⟩ := ih (hes.2 u hu) hrest
    have hmore : rs.length ≤ (e :: es).length := hlen.trans (Nat.le_succ _)
    have hnext : (rs.length + 1) ≤ (e :: es).length := Nat.succ_le_succ hlen
    cases e with
    | sender ev =>
      obtain rfl := Option.some.inj hu
      exact ⟨rs, hmore, hlater⟩
    | arrive env k =>
      obtain ⟨c, hk, hrecv⟩ := Option.bind_eq_some_iff.1 hu
      have hc : c ∈ q := hq.subset ((linkRun_grows ht).subset (List.mem_of_getElem? hk))
      exact ⟨.chunk env c.wire :: rs, hnext,
        hlater.cons (Link.recv_spec hrecv).2 (h.inTime hes.1 hk hc)⟩
    | sendSack env => exact ⟨.sendSack env :: rs, hnext, hlater.cons (Link.recv_spec hu).2 trivial⟩
    | read n => exact ⟨.read n :: rs, hnext, hlater.cons (Link.recv_spec hu).2 trivial⟩

end

def twoByteFill (i : StreamNo) : FillCall where
  cfg := plainConfig
  family := .inet
  mtu := 1500
  fragPoint := 2
  eeorMode := false
  totalFlight := 0
  pick := fun _ => some i
  chunkAllocFails := fun _ => false
  copyFails := fun _ => false
  leadingSpace := fun _ => 0
  mbufAllocFails := fun _ => false
  padFails := fun _ => false

theorem twoByteFill_succeeds (i : StreamNo) : (twoByteFill i).Succeeds 2 :=
  ⟨rfl, fun _ => rfl, fun _ => rfl, fun _ => rfl, two_ne_zero, by norm_num [twoByteFill, dataChunkSize],
    le_rfl⟩

/-- Two messages on stream 0, the first one in two fragments. They arrive in the wrong order, one of them
twice. -/
def delayed : List LinkEvent :=
  let env : ChunkEnv := ⟨⟨true, 100, 4096⟩, false, 0, 65536⟩
  [.sender (.sender (.enqueue 0 (twoMessages.message 0 [[1, 2, 3]] false))),
    .sender (.sender (.enqueue 0 (twoMessages.message 0 [[4]] false))),
    .sender (.fill (twoByteFill 0)), .arrive env 2, .arrive env 1, .arrive env 1, .read 1, .arrive env 0,
    .read 1]

theorem delayed_whole : ∀ ev ∈ senderEvents delayed, ev.Whole 2 := by
  intro ev hev
  simp only [senderEvents, delayed, LinkEvent.senderEvent, List.filterMap_cons, List.filterMap_nil,
    List.mem_cons, List.not_mem_nil, or_false] at hev
  obtain rfl | rfl | rfl := hev
  · exact ⟨rfl, by decide, rfl⟩
  · exact ⟨rfl, by decide, rfl⟩
  · exact twoByteFill_succeeds 0

def freshLink (init : Tsn) (streamincnt : ℕ) : Link where
  sender := freshState init
  user := UserRun.fresh init streamincnt

theorem freshLink_begins (init : Tsn) (streamincnt : ℕ) : (freshLink init streamincnt).Begins init :=
  ⟨rfl, UserRun.fresh_begins init streamincnt, RecvRun.fresh_fresh init streamincnt⟩

end Sctp
