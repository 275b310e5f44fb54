import Sctp.Output.FillOutqueue
import Sctp.Sender.Retransmit

/-! `sctp_med_chunk_output`: packets are put together from the ASCONF queue, the control queue and
the send queue, one destination after the other. -/
namespace Sctp

variable {n : ℕ}

/-- The cast of an `unsigned int` to `int`. -/
def toInt (a : ℕ) : ℤ := if a < 2 ^ 31 then a else (a : ℤ) - 2 ^ 32

/-- `SCTP_MIN_V4_OVERHEAD`, `SCTP_MIN_OVERHEAD` or the common header alone. -/
def AddressFamily.overhead : AddressFamily → ℕ
  | .inet => 32
  | .inet6 => 52
  | .conn => 12
  | .other => 0

/-- `sctp_get_hmac_digest_len` -/
def hmacDigestLen (hmacAlgo : BitVec 16) : ℕ :=
  if hmacAlgo = 1 then 20 else if hmacAlgo = 3 then 32 else 0

/-- `sctp_get_auth_chunk_len` -/
def authChunkLen (hmacAlgo : BitVec 16) : ℕ := size32 (8 + hmacDigestLen hmacAlgo)

def dataId : BitVec 8 := 0x00
def selectiveAckId : BitVec 8 := 0x03
def heartbeatRequestId : BitVec 8 := 0x04
def heartbeatAckId : BitVec 8 := 0x05
def shutdownId : BitVec 8 := 0x07
def shutdownAckId : BitVec 8 := 0x08
def operationErrorId : BitVec 8 := 0x09
def cookieEchoId : BitVec 8 := 0x0a
def cookieAckId : BitVec 8 := 0x0b
def ecnEchoId : BitVec 8 := 0x0c
def ecnCwrId : BitVec 8 := 0x0d
def nrSelectiveAckId : BitVec 8 := 0x10
def asconfAckId : BitVec 8 := 0x80
def packetDroppedId : BitVec 8 := 0x81
def streamResetId : BitVec 8 := 0x82
def forwardCumTsnId : BitVec 8 := 0xc0
def asconfId : BitVec 8 := 0xc1

def untimedIds : List (BitVec 8) :=
  [selectiveAckId, nrSelectiveAckId, heartbeatRequestId, heartbeatAckId, shutdownId,
    shutdownAckId, operationErrorId, cookieAckId, ecnCwrId, packetDroppedId, asconfAckId]

/-- A chunk on `control_send_queue` or `asconf_send_queue`. -/
structure ControlChunk (n : ℕ) where
  id : BitVec 8
  canTakeData : Bool
  /-- `data` is not null. -/
  hasData : Bool
  sent : ℕ
  sndCount : ℕ
  sendSize : ℕ
  /-- The length of the chain in `data`. That of a HEARTBEAT-ACK is padded, its `send_size` is not. -/
  dataLen : ℕ
  copyByRef : Bool
  flags : BitVec 16
  whoTo : Option (Fin n)
deriving DecidableEq, Repr

/-- A chunk on `send_queue`; its chain has the length `send_size`. -/
structure QueuedChunk (n : ℕ) where
  tsn : Tsn
  sendSize : ℕ
  bookSize : ℕ
  flags : BitVec 16
  whoTo : Option (Fin n)
  authKeyid : BitVec 16
  /-- The chunk is in `data_list`. -/
  inDataList : Bool
deriving DecidableEq, Repr

/-- A chunk in a packet, with the size that `mtu` falls by. -/
structure Piece where
  length : ℕ
  counted : ℕ
  fragmentOk : Bool
  isAuth : Bool
deriving DecidableEq, Repr

def usedBy (pieces : List Piece) : ℕ := (pieces.map Piece.length).sum

def uncounted (pieces : List Piece) : ℕ := (pieces.map fun c => c.length - c.counted).sum

/-- A packet handed to `sctp_lowlevel_chunk_output`, with `net->mtu` at that moment. -/
structure Packet (n : ℕ) where
  net : Fin n
  netMtu : ℕ
  headers : ℕ
  pieces : List Piece
  noFragmentflg : Bool
  /-- The AUTH chunk for the data was subtracted from less room than it takes. Like `netMtu`, no
  argument of the call. -/
  authOverdrawn : Bool
deriving DecidableEq, Repr

namespace Packet

def length (p : Packet n) : ℕ := p.headers + usedBy p.pieces

def fragmentOk (p : Packet n) : Bool := p.pieces.any Piece.fragmentOk

/-- The packet holds one chunk, AUTH apart, and that may be fragmented. -/
def SingleFragmentOk (p : Packet n) : Prop :=
  ∃ c ∈ p.pieces, c.fragmentOk ∧ p.pieces.filter (fun c => !c.isAuth) = [c]

end Packet

inductive OutputError where
  | noBufs
  | hostUnreach
  | other
deriving DecidableEq, Repr

/-- What a call of `sctp_lowlevel_chunk_output` does: the error, the size that
`sctp_mtu_size_reset` is called with and the new `net->mtu`. -/
structure LowerAnswer where
  error : Option OutputError
  sizeReset : Option ℕ
  netMtu : Option ℕ
deriving DecidableEq, Repr

/-- What `sctp_med_chunk_output` reads and does not change. The allocators and the lower layer
answer by the number of packets made so far and the number of chunks in the one begun. -/
structure OutputEnv (n : ℕ) where
  cfg : SenderConfig
  nets : List (Fin n)
  startAt : Option (Fin n)
  family : Fin n → AddressFamily
  boundV6 : Bool
  cwnd : Fin n → ℕ
  unconfirmed : Fin n → Bool
  pf : Fin n → Bool
  primaryDestination : Fin n
  alternate : Option (Fin n)
  /-- The state is OPEN or SHUTDOWN-RECEIVED. -/
  dataState : Bool
  recvBufferSplitting : Bool
  sendBufferSplitting : Bool
  maxRwndPerDest : ℕ
  maxSendPerDest : ℕ
  /-- `sctp_auth_is_required_chunk` with the list of the peer. -/
  authIsRequired : BitVec 8 → Bool
  peerHmacId : BitVec 16
  /-- A chunk of this size still goes into mbufs that are no cluster. -/
  smallCopy : ℕ
  /-- AUTH is supported, and there is an mbuf for the chunk. -/
  addsAuth : ℕ → ℕ → Bool
  copies : ℕ → ℕ → Bool
  answer : ℕ → LowerAnswer

namespace OutputEnv

def authLen (env : OutputEnv n) : ℕ := authChunkLen env.peerHmacId

end OutputEnv

/-- `sctp_copy_mbufchain`: a chain that is taken or copied the old way comes as it is, otherwise as much of it as
the size says. -/
def ControlChunk.copied (env : OutputEnv n) (canTakeMbuf : Bool) (c : ControlChunk n) : ℕ :=
  if canTakeMbuf then c.dataLen
  else if !c.copyByRef && decide (c.sendSize ≤ env.smallCopy) then c.sendSize
  else c.dataLen

structure MedOutput (n : ℕ) where
  netMtu : Fin n → ℕ
  flightSize : Fin n → ℕ
  totalFlight : ℕ
  peersRwnd : ℕ
  asconfQueue : List (ControlChunk n)
  controlQueue : List (ControlChunk n)
  sendQueue : List (QueuedChunk n)
  sackGoesTo : Option (Fin n)
  /-- `auth` is not null. It outlives the destination after a failed send. -/
  auth : Bool
  authKeyid : BitVec 16
  overrideOk : Bool
  noDataChunks : Bool
  cookie : Bool
  mtu : ℕ
  rMtu : ℕ
  oneChunk : Bool
  noFragmentflg : Bool
  bundleAt : ℕ
  outchain : List Piece
  authOverdrawn : Bool
  packets : List (Packet n)

inductive Flow where
  | next
  | leave
  /-- `sctp_lowlevel_chunk_output` failed; the next destination is tried. -/
  | failed
  /-- The call returns with `ENOMEM`. -/
  | noMemory
deriving DecidableEq, Repr

namespace MedOutput

/-- `mtu` for an empty packet. -/
def room (env : OutputEnv n) (net : Fin n) (o : MedOutput n) : ℕ :=
  roomLeft (o.netMtu net) (env.family net).overhead

/-- `sctp_mtu_size_reset`, one chunk of the send queue. -/
def sizeResetChunk (env : OutputEnv n) (mtu : ℕ) (c : QueuedChunk n) : QueuedChunk n :=
  let ovh := if env.boundV6 then 52 else 32
  if roomLeft mtu ovh < c.sendSize then { c with flags := c.flags ||| 0x0100 } else c

/-- `sctp_move_chunks_from_net`, one chunk of the send queue. -/
def moveFromNet (net : Fin n) (c : QueuedChunk n) : QueuedChunk n :=
  if c.whoTo = some net then { c with whoTo := none } else c

/-- What an answer of the lower layer does to a chunk on the send queue. -/
def answeredChunk (env : OutputEnv n) (net : Fin n) (a : LowerAnswer) (c : QueuedChunk n) :
    QueuedChunk n :=
  let c := match a.sizeReset with
    | some mtu => sizeResetChunk env mtu c
    | none => c
  if a.error = some .hostUnreach then moveFromNet net c else c

def packet (env : OutputEnv n) (net : Fin n) (o : MedOutput n) : Packet n where
  net := net
  netMtu := o.netMtu net
  headers := (env.family net).overhead
  pieces := o.outchain
  noFragmentflg := o.noFragmentflg
  authOverdrawn := o.authOverdrawn

def answered (env : OutputEnv n) (o : MedOutput n) : LowerAnswer := env.answer o.packets.length

def lowlevelChunkOutput (env : OutputEnv n) (net : Fin n) (o : MedOutput n) : MedOutput n :=
  { o with
    packets := o.packets ++ [o.packet env net]
    netMtu := match (o.answered env).netMtu with
      | some mtu => Function.update o.netMtu net mtu
      | none => o.netMtu
    sendQueue := o.sendQueue.map (answeredChunk env net (o.answered env)) }

/-- A control packet without room left goes out, and the next one begins. -/
def flush (env : OutputEnv n) (net : Fin n) (o : MedOutput n) : MedOutput n × Flow :=
  let o' := o.lowlevelChunkOutput env net
  match (o.answered env).error with
  | some _ => (o', .failed)
  | none =>
    ({ o' with outchain := [], auth := false, mtu := o'.room env net, noFragmentflg := true },
      .next)

/-- `omtu`, what the AUTH chunk for a chunk of this type still takes. -/
def omtu (env : OutputEnv n) (o : MedOutput n) (id : BitVec 8) : ℕ :=
  if !o.auth && env.authIsRequired id then env.authLen else 0

def authPiece (env : OutputEnv n) : Piece := ⟨env.authLen, env.authLen, false, true⟩

def addAuthChunk (env : OutputEnv n) (o : MedOutput n) (id : BitVec 8) : MedOutput n :=
  if !o.auth && env.authIsRequired id && env.addsAuth o.packets.length o.outchain.length then
    { o with auth := true, outchain := o.outchain ++ [authPiece env] }
  else o

def copies (env : OutputEnv n) (o : MedOutput n) : Bool :=
  env.copies o.packets.length o.outchain.length

/-- A chunk is appended, and `mtu` falls by `send_size` and what was kept for AUTH, not below zero. -/
def append (o : MedOutput n) (length sendSize omtu : ℕ) (flags : BitVec 16) : MedOutput n :=
  { o with
    outchain := o.outchain ++ [⟨length, sendSize, Sctp.fragmentOk flags, false⟩]
    mtu := o.mtu - (sendSize + omtu)
    noFragmentflg := o.noFragmentflg && !Sctp.fragmentOk flags }

/-- A chunk of a control queue with the AUTH chunk it requires. `after` is what else the loop
notes down, `sentChunk` the chunk as it stays on the queue. -/
def addControl (env : OutputEnv n) (net : Fin n) (after : MedOutput n → MedOutput n)
    (sentChunk c : ControlChunk n) (o : MedOutput n) : MedOutput n × ControlChunk n × Flow :=
  let o' := o.addAuthChunk env c.id
  if o'.copies env then
    let o'' := after (o'.append (c.copied env c.canTakeData) c.sendSize (o.omtu env c.id) c.flags)
    if o''.mtu = 0 then
      let r := o''.flush env net
      (r.1, sentChunk, r.2)
    else (o'', sentChunk, .next)
  else (o', c, .noMemory)

/-- The destination of a chunk, where none is set the alternate or the primary one. -/
def destination (env : OutputEnv n) (whoTo : Option (Fin n)) : Fin n :=
  whoTo.getD (env.alternate.getD env.primaryDestination)

def sentControl (net : Fin n) (c : ControlChunk n) : ControlChunk n :=
  { c with
    hasData := c.hasData && !c.canTakeData
    sent := datagramSent
    sndCount := c.sndCount + 1
    whoTo := some (c.whoTo.getD net) }

def asconfChunk (env : OutputEnv n) (net : Fin n) (o : MedOutput n) (c : ControlChunk n) :
    MedOutput n × ControlChunk n × Flow :=
  if c.id ≠ asconfId then (o, c, .next)
  else if destination env c.whoTo ≠ net ∨ c.hasData = false ∨
      (c.sent ≠ datagramUnsent ∧ c.sent ≠ datagramResend) then (o, c, .leave)
  else if (c.sendSize : ℤ) < toInt (roomLeft o.mtu (o.omtu env c.id)) ∨ fragmentOk c.flags then
    o.addControl env net (fun o => { o with noDataChunks := true }) (sentControl net c) c
  else (o, c, .next)

/-- The net check of the control queue; an ECN-ECHO goes along with the SACK. -/
def goesTo (env : OutputEnv n) (net : Fin n) (o : MedOutput n) (c : ControlChunk n) : Bool :=
  match o.sackGoesTo with
  | some sackNet =>
    if c.id = ecnEchoId ∧ c.whoTo ≠ some sackNet then
      c.whoTo ≠ some net ∧ (sackNet = net ∨ destination env c.whoTo = net)
    else destination env c.whoTo = net
  | none => destination env c.whoTo = net

local instance lawfulBEq_chunkId : LawfulBEq (BitVec 8) := inferInstance

def controlOut (net : Fin n) (c : ControlChunk n) : ControlChunk n :=
  if c.id ∈ untimedIds then { c with hasData := c.hasData && !c.canTakeData }
  else sentControl net c

/-- `cookie` is set by a COOKIE-ECHO and cleared again when the packet is full. -/
def noteCookie (id : BitVec 8) (o : MedOutput n) : MedOutput n :=
  { o with cookie := (o.cookie || id == cookieEchoId) && o.mtu != 0 }

def controlChunk (env : OutputEnv n) (net : Fin n) (o : MedOutput n) (c : ControlChunk n) :
    MedOutput n × ControlChunk n × Flow :=
  if o.goesTo env net c = false ∨ c.hasData = false ∨ c.sent ≠ datagramUnsent then (o, c, .next)
  else if (c.sendSize : ℤ) ≤ toInt (roomLeft o.mtu (o.omtu env c.id)) ∨ fragmentOk c.flags then
    o.addControl env net (noteCookie c.id) (controlOut net c) c
  else (o, c, .next)

/-- A loop over a control queue. -/
def serve (f : MedOutput n → ControlChunk n → MedOutput n × ControlChunk n × Flow) :
    MedOutput n → List (ControlChunk n) → MedOutput n × List (ControlChunk n) × Flow
  | o, [] => (o, [], .next)
  | o, c :: cs =>
    let r := f o c
    if r.2.2 = .next then
      let rest := serve f r.1 cs
      (rest.1, r.2.1 :: rest.2.1, rest.2.2)
    else (r.1, r.2.1 :: cs, r.2.2)

def noDataFill (env : OutputEnv n) (net : Fin n) (o : MedOutput n) : Bool :=
  (env.cfg.cmtOnOff && decide (env.alternate ≠ some net) && env.pf net) ||
  decide (env.cwnd net ≤ o.flightSize net) ||
  (env.cfg.cmtOnOff && env.recvBufferSplitting &&
    decide (env.maxRwndPerDest < o.flightSize net)) ||
  (env.cfg.cmtOnOff && env.sendBufferSplitting && decide (0 < env.maxSendPerDest) &&
    decide (env.maxSendPerDest < o.flightSize net))

/-- The AUTH chunk that the data will need comes off `mtu`. -/
def reserveAuth (env : OutputEnv n) (o : MedOutput n) : MedOutput n :=
  if env.authIsRequired dataId && !o.auth then
    { o with mtu := roomLeft o.mtu env.authLen, authOverdrawn := decide (o.mtu < env.authLen) }
  else o

/-- `omtu` of the data loop, the largest chunk that is not marked for fragmentation. -/
def dataOmtu (env : OutputEnv n) (net : Fin n) (o : MedOutput n) : ℕ :=
  if env.family net = .other then 0 else o.netMtu net - (env.family net).overhead

def elsewhere (env : OutputEnv n) (net : Fin n) (c : QueuedChunk n) : Bool :=
  match c.whoTo with
  | some dest => decide (dest ≠ net)
  | none =>
    !env.cfg.cmtOnOff &&
      match env.alternate with
      | some alt => decide (alt ≠ net)
      | none => decide (net ≠ env.primaryDestination)

/-- A chunk above the MTU that was not marked when the MTU fell is marked now. -/
def markLarge (omtu : ℕ) (c : QueuedChunk n) : QueuedChunk n :=
  if omtu < c.sendSize then { c with flags := c.flags ||| 0x0100 } else c

def dataFits (o : MedOutput n) (c : QueuedChunk n) : Bool :=
  (decide (c.sendSize ≤ o.mtu) && decide (c.sendSize ≤ o.rMtu)) ||
    (fragmentOk c.flags && decide (c.sendSize ≤ o.peersRwnd))

def otherKey (env : OutputEnv n) (o : MedOutput n) (c : QueuedChunk n) : Bool :=
  env.authIsRequired dataId && o.auth && !o.overrideOk && o.authKeyid != c.authKeyid

def authForData (env : OutputEnv n) (o : MedOutput n) (c : QueuedChunk n) : MedOutput n :=
  if env.authIsRequired dataId then
    { o.addAuthChunk env dataId with
      authKeyid := if o.auth && !o.overrideOk then o.authKeyid else c.authKeyid
      overrideOk := false }
  else o

/-- A data chunk is appended; its AUTH chunk has been subtracted before the loop. -/
def appendData (o : MedOutput n) (c : QueuedChunk n) : MedOutput n :=
  { o.append c.sendSize c.sendSize 0 c.flags with
    rMtu := o.rMtu - c.sendSize
    bundleAt := o.bundleAt + 1 }

def bundled (o : MedOutput n) : Bool :=
  decide (maxDataBundling ≤ o.bundleAt) || o.mtu == 0 || o.rMtu == 0 || o.oneChunk

def addData (env : OutputEnv n) (o : MedOutput n) (c : QueuedChunk n) :
    MedOutput n × QueuedChunk n × Flow :=
  let o' := o.authForData env c
  if o'.copies env then
    let o'' := o'.appendData c
    (o'', { c with inDataList := true }, if o''.bundled then .leave else .next)
  else (o', c, .noMemory)

def dataChunk (env : OutputEnv n) (net : Fin n) (omtu : ℕ) (o : MedOutput n) (c : QueuedChunk n) :
    MedOutput n × QueuedChunk n × Flow :=
  if o.noDataChunks ∨ env.cwnd net ≤ o.flightSize net then (o, c, .leave)
  else if elsewhere env net c then (o, c, .next)
  else
    let c := markLarge omtu c
    if o.dataFits c then
      if o.otherKey env c then (o, c, .leave) else o.addData env c
    else (o, c, .leave)

def gather (env : OutputEnv n) (net : Fin n) (omtu : ℕ) :
    MedOutput n → List (QueuedChunk n) → MedOutput n × List (QueuedChunk n) × Flow
  | o, [] => (o, [], .next)
  | o, c :: cs =>
    let r := o.dataChunk env net omtu c
    if r.2.2 = .next then
      let rest := gather env net omtu r.1 cs
      (rest.1, r.2.1 :: rest.2.1, rest.2.2)
    else (r.1, r.2.1 :: cs, r.2.2)

def cleanUpData (env : OutputEnv n) (net : Fin n) (o : MedOutput n) (c : QueuedChunk n) :
    MedOutput n :=
  let dest := c.whoTo.getD net
  { o with
    flightSize := Function.update o.flightSize dest (o.flightSize dest + c.bookSize)
    totalFlight := o.totalFlight + c.bookSize
    peersRwnd := swsCut env.cfg (sbspaceSub o.peersRwnd (c.sendSize + env.cfg.peerChunkOh)) }

/-- The packet went out: its data chunks leave the send queue. -/
def cleanUpDatalist (env : OutputEnv n) (net : Fin n) (o : MedOutput n) : MedOutput n :=
  (o.sendQueue.filter QueuedChunk.inDataList).foldl (cleanUpData env net)
    { o with sendQueue := o.sendQueue.filter fun c => !c.inDataList }

/-- From `no_data_fill` on: what there is goes out. -/
def sendRest (env : OutputEnv n) (net : Fin n) (o : MedOutput n) : MedOutput n × Flow :=
  if o.outchain = [] then (o, .next)
  else
    let o' := { o with cookie := false }.lowlevelChunkOutput env net
    match (o.answered env).error with
    | some _ => (o', .next)
    | none =>
      (cleanUpDatalist env net { o' with auth := false }, if o.oneChunk then .leave else .next)

def dataStage (env : OutputEnv n) (net : Fin n) (o : MedOutput n) : MedOutput n × Flow :=
  if o.noDataFill env net then o.sendRest env net
  else
    let o := o.reserveAuth env
    if (env.dataState && !env.unconfirmed net) || o.cookie then
      let r := gather env net (o.dataOmtu env net) o o.sendQueue
      let o' := { r.1 with sendQueue := r.2.1 }
      if r.2.2 = .noMemory then (o', .noMemory) else o'.sendRest env net
    else o.sendRest env net

def following (env : OutputEnv n) (net : Fin n)
    (stage : OutputEnv n → Fin n → MedOutput n → MedOutput n × Flow) (o : MedOutput n) :
    Flow → MedOutput n × Flow
  | .failed => (o, .next)
  | .noMemory => (o, .noMemory)
  | _ => stage env net o

def controlStage (env : OutputEnv n) (net : Fin n) (o : MedOutput n) : MedOutput n × Flow :=
  let r := serve (controlChunk env net) o o.controlQueue
  following env net dataStage { r.1 with controlQueue := r.2.1 } r.2.2

def asconfStage (env : OutputEnv n) (net : Fin n) (o : MedOutput n) : MedOutput n × Flow :=
  let r := serve (asconfChunk env net) o o.asconfQueue
  following env net controlStage { r.1 with asconfQueue := r.2.1 } r.2.2

def begin (env : OutputEnv n) (net : Fin n) (o : MedOutput n) : MedOutput n :=
  let mtu := o.room env net
  { o with
    mtu := mtu
    rMtu := if o.peersRwnd < mtu ∧ 0 < o.totalFlight then o.peersRwnd else mtu
    oneChunk := decide (o.peersRwnd < mtu ∧ o.totalFlight = 0)
    noFragmentflg := true
    bundleAt := 0
    sendQueue := o.sendQueue.map fun c => { c with inDataList := false }
    outchain := []
    authOverdrawn := false }

def visitNet (env : OutputEnv n) (net : Fin n) (o : MedOutput n) : MedOutput n × Flow :=
  if o.controlQueue = [] ∧ o.asconfQueue = [] ∧ env.cwnd net ≤ o.flightSize net then (o, .next)
  else asconfStage env net (o.begin env net)

def visitNets (env : OutputEnv n) : List (Fin n) → MedOutput n → MedOutput n × Flow
  | [], o => (o, .next)
  | net :: nets, o =>
    let r := o.visitNet env net
    if r.2 = .next then visitNets env nets r.1 else r

/-- The destinations from `start_at` on, then those before it. A single chunk that may go ends only
the round it goes in. -/
def serviceNets (env : OutputEnv n) (o : MedOutput n) : MedOutput n :=
  let r := visitNets env (env.nets.dropWhile fun net => env.startAt ≠ some net) o
  if r.2 = .noMemory then r.1
  else (visitNets env (env.nets.takeWhile fun net => env.startAt ≠ some net) r.1).1

/-- `sctp_med_chunk_output`, once the send queue is filled. -/
def medChunkOutput (env : OutputEnv n) (o : MedOutput n) : MedOutput n :=
  if o.controlQueue = [] ∧ o.asconfQueue = [] ∧ o.sendQueue = [] then o
  else
    serviceNets env
      { o with
        controlQueue := o.controlQueue.map fun c =>
          { c with whoTo := some (destination env c.whoTo) } }

end MedOutput

/-- A control chunk that `sctp_chunk_retransmission` sends again; of the stream resets only the
one that `str_reset` points to. -/
def retransmitted (strReset : ControlChunk n → Bool) (c : ControlChunk n) : Bool :=
  (c.id == cookieEchoId || (c.id == streamResetId && strReset c) || c.id == forwardCumTsnId) &&
    c.sent == datagramResend

def controlPacket (env : OutputEnv n) (netMtu : Fin n → ℕ) (c : ControlChunk n) : Packet n where
  net := MedOutput.destination env c.whoTo
  netMtu := netMtu (MedOutput.destination env c.whoTo)
  headers := (env.family (MedOutput.destination env c.whoTo)).overhead
  pieces :=
    (if env.authIsRequired c.id && env.addsAuth 0 0 then [MedOutput.authPiece env] else []) ++
      [⟨c.copied env false, c.sendSize, fragmentOk c.flags, false⟩]
  noFragmentflg := true
  authOverdrawn := false

/-- The control part of `sctp_chunk_retransmission`: one chunk goes out, of whatever size. -/
def retransmitControl (env : OutputEnv n) (netMtu : Fin n → ℕ)
    (strReset : ControlChunk n → Bool) (q : List (ControlChunk n)) : Option (Packet n) :=
  (q.find? (retransmitted strReset)).map (controlPacket env netMtu)

end Sctp
