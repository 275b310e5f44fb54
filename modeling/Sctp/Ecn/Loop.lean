import Sctp.Ecn.Queue
import Sctp.Sender.TsnOrder

/-! The ECN echo loop of an association: marked packets and CWRs on the receiving side,
`sctp_handle_ecn_echo` on the sending side, in any order with what the sender does. -/
namespace Sctp

variable {n : ℕ} {κ : Type}

/-- The ECN fields of `struct sctp_nets`. -/
structure EcnNet where
  cwrWindowTsn : Tsn
  lastCwrTsn : Tsn
  ecnCePktCnt : BitVec 32
  lostCnt : BitVec 32
  ecnPrevCwnd : ℕ
deriving DecidableEq, Repr

/-- `struct sctp_ecne_chunk`. -/
structure Ecne where
  chunkLength : ℕ
  tsn : Tsn
  numPktsSinceCwr : BitVec 32
deriving DecidableEq, Repr

/-- `sizeof(struct sctp_ecne_chunk)` and `sizeof(struct old_sctp_ecne_chunk)`. -/
def ecneLen : ℕ := 12
def oldEcneLen : ℕ := 8

/-- What the ECN handlers of an association work on, with the state of its congestion control. -/
structure EcnAsoc (n : ℕ) (κ : Type) where
  queues : OutQueues n
  /-- `rec.data.cwnd_at_send` by TSN. -/
  cwndAtSend : Tsn → ℕ
  /-- The list `nets`. -/
  netList : List (Fin n)
  nets : Fin n → EcnNet
  ctl : EcnQueue n
  cc : κ

/-- `sctp_cwnd_update_after_ecn_echo`: the destination, `in_window` and `num_pkt_lost`. -/
abbrev EcnUpdate (n : ℕ) (κ : Type) := κ → EcnNet → Fin n → Bool → BitVec 32 → κ

/-- `whoTo`; that of a placeholder is a null pointer. -/
def SentChunk.destination (c : SentChunk n) : Option (Fin n) :=
  if c.sendSize = 0 then none else some c.whoTo

/-- The search of `sctp_handle_ecn_echo`, which ends behind the TSN. -/
def findSent (tsn : Tsn) : List (SentChunk n) → Option (SentChunk n)
  | [] => none
  | lchk :: q =>
    if lchk.tsn = tsn then some lchk
    else if tsnGt lchk.tsn tsn then none
    else findSent tsn q

namespace Ecne

def known (cp : Ecne) : Bool := cp.chunkLength == ecneLen || cp.chunkLength == oldEcneLen

def pktCnt (cp : Ecne) : BitVec 32 := if cp.chunkLength = oldEcneLen then 1 else cp.numPktsSinceCwr

end Ecne

namespace EcnAsoc

/-- The last TSN that waits, or else the last one that was assigned. -/
def windowDataTsn (s : EcnAsoc n κ) : Tsn :=
  match s.queues.sendList.getLast? with
  | none => s.queues.sender.sendingSeq - 1
  | some lchk => lchk.chunk.tsn

/-- The destination that last had a CWR with the TSN, or the first one with the override. -/
def guessNet (s : EcnAsoc n κ) (tsn : Tsn) : Option (Fin n × BitVec 8) :=
  match s.netList.find? fun i => tsn == (s.nets i).lastCwrTsn with
  | some net => some (net, 0)
  | none => s.netList.head?.map fun net => (net, cwrReduceOverride)

def newWindow (s : EcnAsoc n κ) (tsn : Tsn) (t : Fin n × BitVec 8) : Bool :=
  tsnGt tsn (s.nets t.1).cwrWindowTsn && t.2 &&& cwrReduceOverride == 0

def setNet (s : EcnAsoc n κ) (i : Fin n) (net : EcnNet) : EcnAsoc n κ :=
  { s with nets := Function.update s.nets i net }

def reduce (upd : EcnUpdate n κ) (cp : Ecne) (i : Fin n) (s : EcnAsoc n κ) : EcnAsoc n κ :=
  setNet { s with cc := upd s.cc (s.nets i) i false cp.pktCnt } i
    { s.nets i with
      cwrWindowTsn := s.windowDataTsn
      ecnCePktCnt := (s.nets i).ecnCePktCnt + cp.pktCnt
      lostCnt := cp.pktCnt
      lastCwrTsn := cp.tsn }

/-- More marks in the window of the last reduction. -/
def countMarks (upd : EcnUpdate n κ) (cp : Ecne) (i : Fin n) (s : EcnAsoc n κ) : EcnAsoc n κ :=
  let more := decide ((s.nets i).lostCnt < cp.pktCnt)
  let cnt := if more then cp.pktCnt - (s.nets i).lostCnt else 1
  let net : EcnNet :=
    { s.nets i with
      ecnCePktCnt := if more then (s.nets i).ecnCePktCnt + cnt else (s.nets i).ecnCePktCnt
      lostCnt := cp.pktCnt
      lastCwrTsn := cp.tsn }
  setNet { s with cc := upd s.cc net i true cnt } i net

/-- The CWR that every ECNE gets. -/
def answer (i : Fin n) (override : BitVec 8) (alloc : Bool) (s : EcnAsoc n κ) : EcnAsoc n κ :=
  { s with ctl := s.ctl.sendCwr i (s.nets i).lastCwrTsn override alloc }

def echoAt (upd : EcnUpdate n κ) (cp : Ecne) (alloc : Bool) (t : Fin n × BitVec 8)
    (s : EcnAsoc n κ) : EcnAsoc n κ :=
  if s.newWindow cp.tsn t then (s.reduce upd cp t.1).answer t.1 t.2 alloc
  else
    (if tsnGt cp.tsn (s.nets t.1).lastCwrTsn && t.2 &&& cwrReduceOverride == 0 then
      s.countMarks upd cp t.1
    else s).answer t.1 (t.2 ||| cwrInSameWindow) alloc

/-- `ecn_prev_cwnd` when the TSN is found. -/
def notePrevCwnd (i : Fin n) (tsn : Tsn) (s : EcnAsoc n κ) : EcnAsoc n κ :=
  s.setNet i { s.nets i with ecnPrevCwnd := s.cwndAtSend tsn }

/-- `sctp_handle_ecn_echo`. There is no state when the null pointer of a placeholder is followed. -/
def handleEcnEcho (upd : EcnUpdate n κ) (cp : Ecne) (alloc : Bool) (s : EcnAsoc n κ) :
    Option (EcnAsoc n κ) :=
  if cp.known then
    match findSent cp.tsn s.queues.sender.sentQueue with
    | some lchk => lchk.destination.map fun i => echoAt upd cp alloc (i, 0) (s.notePrevCwnd i cp.tsn)
    | none =>
      match s.guessNet cp.tsn with
      | some t => some (s.echoAt upd cp alloc t)
      | none => some s
  else some s

/-- The destination of the full reduction that an ECNE leads to, if it leads to one. -/
def fullReduction (cp : Ecne) (s : EcnAsoc n κ) : Option (Fin n) :=
  if cp.known then
    let t := match findSent cp.tsn s.queues.sender.sentQueue with
      | some lchk => lchk.destination.map fun i => (i, 0)
      | none => s.guessNet cp.tsn
    (t.filter (s.newWindow cp.tsn)).map Prod.fst
  else none

/-- A cumulative ack drags the windows of CWR along. -/
def drag (cumAck : Tsn) (net : EcnNet) : EcnNet :=
  if tsnGt cumAck net.cwrWindowTsn then { net with cwrWindowTsn := cumAck } else net

def dragged (s : EcnAsoc n κ) : QueueEvent n → Fin n → EcnNet
  | .expressSack cumack _ _ =>
    if tsnGt s.queues.sender.lastAckedSeq cumack || s.queues.sender.lastAckedSeq == cumack then s.nets
    else fun i => drag cumack (s.nets i)
  | .sack sack =>
    if tsnGt s.queues.sender.lastAckedSeq sack.cumAck ||
        s.queues.sender.drained && s.queues.sender.streamQueueCnt == 0 then s.nets
    else fun i => drag sack.cumAck (s.nets i)
  | _ => s.nets

end EcnAsoc

/-- Where a step of the sender moves echoes from and to: only T3 does. -/
def QueueEvent.strands : QueueEvent n → Option (Fin n × Fin n)
  | .t3 t => some (t.net, t.alt)
  | _ => none

/-- The control queue behind a step that moves echoes or does not. -/
def EcnQueue.unstrand (q : EcnQueue n) : Option (Fin n × Fin n) → EcnQueue n
  | some (net, alt) => q.moveEchoes net alt
  | none => q

inductive EcnEvent (n : ℕ) where
  /-- Data arrived in a packet that was marked. -/
  | mark (net : Option (Fin n)) (highTsn : Tsn) (alloc : Bool)
  | cwr (cwr : EcnQueue.Cwr n)
  | echo (cp : Ecne) (alloc : Bool)
  | queueOther (front : Bool) (id : BitVec 8) (whoTo : Option (Fin n))
  | dropOther (place : ℕ)
  /-- The timer of a stream reset or of an ASCONF goes off. -/
  | timer (net alt : Fin n)
  /-- A step of the sender, and the `cwnd_at_send` of the chunks behind it. -/
  | sender (e : QueueEvent n) (cwndAtSend : Tsn → ℕ)

open EcnAsoc

def ecnStep (cfg : SenderConfig) (upd : EcnUpdate n κ) (s : EcnAsoc n κ) :
    EcnEvent n → Option (EcnAsoc n κ)
  | .mark net highTsn alloc => some { s with ctl := s.ctl.sendEcnEcho net highTsn alloc }
  | .cwr cwr => some { s with ctl := s.ctl.handleEcnCwr cwr }
  | .echo cp alloc => s.handleEcnEcho upd cp alloc
  | .queueOther front id whoTo => some { s with ctl := s.ctl.queueOther front id whoTo }
  | .dropOther place => (s.ctl.dropOther place).map fun ctl => { s with ctl := ctl }
  | .timer net alt => some { s with ctl := s.ctl.unstrand (some (net, alt)) }
  | .sender e cwndAtSend => (queueStep cfg s.queues e).map fun queues =>
      { s with queues := queues, cwndAtSend := cwndAtSend, nets := s.dragged e, ctl := s.ctl.unstrand e.strands }

/-- A TSN was assigned, or the cwnd of a destination was reduced in full for a TSN. -/
inductive EcnRecord (n : ℕ) where
  | assigned (tsn : Tsn)
  | reduced (net : Fin n) (tsn : Tsn)
deriving DecidableEq, Repr

/-- The association with the TSNs that were marked since an echo was queued to a destination, and with the
assignments and reductions, the last one first. -/
structure EcnHistory (n : ℕ) (κ : Type) where
  asoc : EcnAsoc n κ
  marked : Fin n → List Tsn
  log : List (EcnRecord n)

namespace EcnHistory

/-- An echo that goes to another destination stands for the same TSNs. -/
def markedMoved (h : EcnHistory n κ) : Option (Fin n × Fin n) → Fin n → List Tsn
  | some (net, alt) =>
    if h.asoc.ctl.chunks.any (EcnQueue.echoFor net) then Function.update h.marked alt (h.marked net)
    else h.marked
  | none => h.marked

def markedBy (h : EcnHistory n κ) : EcnEvent n → Fin n → List Tsn
  | .mark (some net) highTsn alloc =>
    if h.asoc.ctl.chunks.any (EcnQueue.echoFor net) then
      Function.update h.marked net (highTsn :: h.marked net)
    else if alloc then Function.update h.marked net [highTsn]
    else h.marked
  | .timer net alt => h.markedMoved (some (net, alt))
  | .sender e _ => h.markedMoved e.strands
  | _ => h.marked

def logged (h : EcnHistory n κ) (s : EcnAsoc n κ) : EcnEvent n → List (EcnRecord n)
  | .echo cp _ =>
    match h.asoc.fullReduction cp with
    | some net => .reduced net cp.tsn :: h.log
    | none => h.log
  | .sender _ _ =>
    if s.queues.sender.sendingSeq = h.asoc.queues.sender.sendingSeq then h.log
    else .assigned h.asoc.queues.sender.sendingSeq :: h.log
  | _ => h.log

def step (cfg : SenderConfig) (upd : EcnUpdate n κ) (h : EcnHistory n κ) (e : EcnEvent n) :
    Option (EcnHistory n κ) :=
  (ecnStep cfg upd h.asoc e).map fun s => { asoc := s, marked := h.markedBy e, log := h.logged s e }

/-- The association is set up: no echo is queued, nothing was sent, and the windows of the destinations end
at the TSN before the first one. -/
structure Fresh (h : EcnHistory n κ) : Prop where
  queues : h.asoc.queues.Fresh
  noEcho : ∀ c ∈ h.asoc.ctl.chunks, c.isEcne = false
  echoCount : h.asoc.ctl.ecnEchoCntOnq = 0
  ctrlCount : h.asoc.ctl.ctrlQueueCnt = h.asoc.ctl.chunks.length
  window : ∀ i, (h.asoc.nets i).cwrWindowTsn = h.asoc.queues.sender.sendingSeq - 1
  log : h.log = []

/-- An echo carries the highest TSN that was marked since it was queued. -/
def Highest (h : EcnHistory n κ) : Prop :=
  ∀ net tsn, h.asoc.ctl.HasEcho net tsn →
    tsn ∈ h.marked net ∧ ∀ t ∈ h.marked net, tsnGe tsn t = true

/-- Between two full reductions of a destination the TSN of the second one is assigned. -/
def OnceAWindow (log : List (EcnRecord n)) : Prop :=
  ∀ later between before net t₁ t₂,
    log = later ++ .reduced net t₂ :: (between ++ .reduced net t₁ :: before) →
      .assigned t₂ ∈ between

structure Exact (h : EcnHistory n κ) : Prop where
  counted : h.asoc.ctl.Counted
  highest : h.Highest
  onceAWindow : OnceAWindow h.log

def CwrExact (h : EcnHistory n κ) : EcnEvent n → Prop
  | .cwr cwr => h.asoc.ctl.CwrExact cwr
  | _ => True

/-- A marked TSN compares with those marked since the echo was queued, and the counter has room for a new
echo; an override covers no echo; where the cwnd is reduced the TSN is outstanding and the last TSN of
`send_queue` is the last one assigned; an echo that goes to another destination meets none there; and the
sender is regular. -/
def Careful (h : EcnHistory n κ) : EcnEvent n → Prop
  | .mark none _ _ => True
  | .mark (some net) highTsn _ =>
    h.asoc.ctl.chunks.countP EcnChunk.isEcne < 65535 ∧
      ∀ c ∈ h.asoc.ctl.chunks, c.whoTo = some net →
        c.echoTsn.all fun tsn => tsnGe tsn highTsn || (h.marked net).all (tsnGe highTsn)
  | .cwr cwr => cwr.override = true → ∀ c ∈ h.asoc.ctl.chunks, cwr.covers c = false
  | .echo cp _ => (h.asoc.fullReduction cp).isSome →
      (findSent cp.tsn h.asoc.queues.sender.sentQueue).isSome ∧
        ∀ lchk ∈ h.asoc.queues.sendList.getLast?,
          lchk.chunk.tsn + 1 = h.asoc.queues.sender.sendingSeq
  | .timer net alt => h.asoc.ctl.Apart net alt
  | .sender e _ => e.Regular h.asoc.queues ∧ ∀ x ∈ e.strands, h.asoc.ctl.Apart x.1 x.2
  | _ => True

instance Careful.decidable (h : EcnHistory n κ) : ∀ e, Decidable (h.Careful e)
  | .mark none _ _ => .isTrue trivial
  | .mark (some _) _ _ => inferInstanceAs (Decidable (_ ∧ ∀ c ∈ _, _ → _))
  | .cwr _ => inferInstanceAs (Decidable (_ → ∀ c ∈ _, _))
  | .echo _ _ => inferInstanceAs (Decidable (_ → _ ∧ ∀ lchk ∈ _, _))
  | .queueOther _ _ _ => .isTrue trivial
  | .dropOther _ => .isTrue trivial
  | .timer net alt => inferInstanceAs (Decidable (h.asoc.ctl.Apart net alt))
  | .sender e _ => inferInstanceAs
      (Decidable (e.Regular h.asoc.queues ∧ ∀ x ∈ e.strands, h.asoc.ctl.Apart x.1 x.2))

end EcnHistory

end Sctp
