import Sctp.Lib.Bytes
import Sctp.Lib.Trace
import Sctp.Tsn

/-! Address changes of the peer, `sctp_handle_asconf`. -/
namespace Sctp.Asconf

inductive Addr where
  | v4 (a : BitVec 32)
  | v6 (a : BitVec 128)
deriving DecidableEq, Repr

namespace Addr

/-- `INADDR_ANY` and `IN6_IS_ADDR_UNSPECIFIED` -/
def isZero : Addr → Bool
  | v4 a => a == 0
  | v6 a => a == 0

/-- `INADDR_BROADCAST` and the multicast addresses -/
def isBad : Addr → Bool
  | v4 a => a == 0xffffffff || a.extractLsb' 28 4 == 0xe
  | v6 a => a.extractLsb' 120 8 == 0xff

end Addr

/-- A parameter of an ASCONF-ACK: a success report, or an error cause with the parameter that
caused it. -/
inductive Response where
  | success (correlationId : ℕ)
  | error (correlationId cause : ℕ) (tlv : Bytes)
deriving DecidableEq, Repr

def Response.len : Response → ℕ
  | success _ => 8
  | error _ _ tlv => 8 + 4 + tlv.length

/-- `struct sctp_asconf_ack` with the responses in its `data`. -/
structure AsconfAck where
  serialNumber : Tsn
  len : ℕ
  results : List Response
deriving DecidableEq, Repr

/-- What of `struct sctp_association` an ASCONF is about. -/
structure Assoc where
  asconfSeqIn : Tsn
  /-- Addresses of the destinations. -/
  nets : List Addr
  lastControlChunkFrom : Option Addr
  asconfAckSent : List AsconfAck
  /-- Timers were started for a destination that was never set. -/
  wildNet : Bool
deriving DecidableEq, Repr

structure AsconfConfig where
  natFriendly : Bool
  mlen : ℕ

/-- A call of `sctp_handle_asconf`, with the bytes of the packet from the first mbuf on. The last
four fields say which of its allocations go through: of the reply, of its entry in
`asconf_ack_sent`, and of the response and the destination for the parameter at an offset. -/
structure Call where
  packet : Bytes
  offset : ℕ
  src : Addr
  first : Bool
  replyAlloc : Bool
  ackAlloc : Bool
  responseAlloc : ℕ → Bool
  netAlloc : ℕ → Bool

namespace Call

def chunkLength (c : Call) : ℕ := c.packet.u16 (c.offset + 2)

def serialNumber (c : Call) : Tsn := BitVec.ofNat 32 (c.packet.u32 (c.offset + 4))

/-- End of the chunk, `asconf_limit` at first. -/
def limit (c : Call) : ℕ := c.offset + c.chunkLength

end Call

namespace Assoc

/-- `sctp_add_remote_addr`; nothing when it fails. The second part is what `*netp` is set to: for an
address that is there it is left as it was. -/
def addRemoteAddr (s : Assoc) (a : Addr) (alloc : Bool) : Option (Assoc × Option Addr) :=
  if a ∈ s.nets then some (s, none)
  else if a.isZero || !alloc then none
  else some ({ s with nets := s.nets ++ [a] }, some a)

/-- The timers of the destination `net`, a variable without a value at first. -/
def startTimers (s : Assoc) (net : Option Addr) : Assoc :=
  { s with wildNet := s.wildNet || net.isNone }

def removeNet (s : Assoc) (a : Addr) : Assoc :=
  { s with
    nets := s.nets.erase a
    lastControlChunkFrom := if s.lastControlChunkFrom = some a then none else s.lastControlChunkFrom }

/-- `sctp_del_remote_addr`; nothing when the address is the last one. -/
def delRemoteAddr (s : Assoc) (a : Addr) : Option Assoc :=
  if a ∈ s.nets then
    if s.nets.length < 2 then none else some (s.removeNet a)
  else some s

/-- `sctp_asconf_del_remote_addrs_except`; nothing when there is no such destination. -/
def delRemoteAddrsExcept (s : Assoc) (src : Addr) : Option Assoc :=
  if src ∈ s.nets then some ((s.nets.filter (· ≠ src)).foldl removeNet s) else none

end Assoc

inductive Inner where
  | badLength
  | unknown
  | addr (a : Addr)
deriving DecidableEq, Repr

/-- The address parameter at an offset, `SCTP_IPV4_ADDRESS` or `SCTP_IPV6_ADDRESS`. -/
def inner (p : Bytes) (o : ℕ) : Inner :=
  if p.u16 o = 0x0005 then
    if p.u16 (o + 2) = 8 then .addr (.v4 (BitVec.ofNat 32 (p.u32 (o + 4)))) else .badLength
  else if p.u16 o = 0x0006 then
    if p.u16 (o + 2) = 20 then
      .addr (.v6 (BitVec.ofNat 32 (p.u32 (o + 4)) ++ BitVec.ofNat 32 (p.u32 (o + 8)) ++
        BitVec.ofNat 32 (p.u32 (o + 12)) ++ BitVec.ofNat 32 (p.u32 (o + 16))))
    else .badLength
  else .unknown

/-- Where the bytes end that `inner` looks at. -/
def innerEnd (p : Bytes) (o : ℕ) : ℕ :=
  match inner p o with
  | .addr (.v4 _) => o + 8
  | .addr (.v6 _) => o + 20
  | _ => o + 4

/-- `sctp_asconf_success_response` -/
def successResponse (c : Call) (o : ℕ) : Option Response :=
  if c.responseAlloc o then some (.success (c.packet.u32 (o + 4))) else none

/-- `sctp_asconf_error_response` with the parameter at an offset. -/
def errorResponse (cfg : AsconfConfig) (c : Call) (o cause : ℕ) : Option Response :=
  let length := c.packet.u16 (o + 2)
  if ¬c.responseAlloc o then none
  else if cfg.mlen < length + 4 + 8 then none
  else some (.error (c.packet.u32 (o + 4)) cause ((c.packet.drop o).take length))

/-- A success response is only asked for behind an error. -/
def requiredResponse (c : Call) (o : ℕ) (required : Bool) : Option Response :=
  if required then successResponse c o else none

def causeUnresolvableAddr : ℕ := 0x0005
def causeInvalidParam : ℕ := 0x0007
def causeDeletingLastAddr : ℕ := 0x00a0
def causeResourceShortage : ℕ := 0x00a1
def causeDeletingSrcAddr : ℕ := 0x00a2
def causeRequestRefused : ℕ := 0x00a4

/-- `sctp_process_asconf_add_ip` for the parameter at an offset. -/
def processAsconfAddIp (cfg : AsconfConfig) (c : Call) (o : ℕ) (required : Bool) (s : Assoc) :
    Assoc × Option Response :=
  match inner c.packet (o + 8) with
  | .badLength => (s, none)
  | .unknown => (s, errorResponse cfg c o causeInvalidParam)
  | .addr a =>
    let sa := if a.isZero && cfg.natFriendly then c.src else a
    if a.isBad then (s, errorResponse cfg c o causeInvalidParam)
    else
      match s.addRemoteAddr sa (c.netAlloc o) with
      | none => (s, errorResponse cfg c o causeResourceShortage)
      | some (s', net) => (s'.startTimers net, requiredResponse c o required)

def processAsconfDeleteIp (cfg : AsconfConfig) (c : Call) (o : ℕ) (required : Bool) (s : Assoc) :
    Assoc × Option Response :=
  match inner c.packet (o + 8) with
  | .badLength => (s, none)
  | .unknown => (s, errorResponse cfg c o causeUnresolvableAddr)
  | .addr a =>
    if a = c.src then (s, errorResponse cfg c o causeDeletingSrcAddr)
    else if a.isZero && cfg.natFriendly then
      match s.delRemoteAddrsExcept c.src with
      | none => (s, errorResponse cfg c o causeRequestRefused)
      | some s' => (s', requiredResponse c o required)
    else
      match s.delRemoteAddr a with
      | none => (s, errorResponse cfg c o causeDeletingLastAddr)
      | some s' => (s', requiredResponse c o required)

/-- `sctp_process_asconf_set_primary`; the primary destination is one of those that are there. -/
def processAsconfSetPrimary (cfg : AsconfConfig) (c : Call) (o : ℕ) (required : Bool) (s : Assoc) :
    Option Response :=
  match inner c.packet (o + 8) with
  | .badLength => none
  | .unknown => errorResponse cfg c o causeUnresolvableAddr
  | .addr a =>
    let sa := if a.isZero && cfg.natFriendly then c.src else a
    if sa ∈ s.nets then requiredResponse c o required
    else errorResponse cfg c o causeUnresolvableAddr

def paramBufferSize : ℕ := 512
def addIpAddress : ℕ := 0xc001
def delIpAddress : ℕ := 0xc002
def errorCauseInd : ℕ := 0xc003
def setPrimAddr : ℕ := 0xc004
def successReport : ℕ := 0xc005
def ulpAdaptation : ℕ := 0xc006
def natVtags : ℕ := 0xc008

/-- The effect of the parameter at an offset, and the response to it. -/
def processParam (cfg : AsconfConfig) (c : Call) (o : ℕ) (required : Bool) (s : Assoc) :
    Assoc × Option Response :=
  if c.packet.u16 o = addIpAddress then processAsconfAddIp cfg c o required s
  else if c.packet.u16 o = delIpAddress then processAsconfDeleteIp cfg c o required s
  else if c.packet.u16 o = setPrimAddr then (s, processAsconfSetPrimary cfg c o required s)
  else (s, none)

def stops (p : Bytes) (o : ℕ) : Bool :=
  p.u16 o ∉ [addIpAddress, delIpAddress, errorCauseInd, setPrimAddr, successReport, ulpAdaptation,
    natVtags] && p.u16 o < 0x8000

/-- Where the bytes end that are read for the parameter at an offset. -/
def paramEnd (p : Bytes) (o : ℕ) : ℕ :=
  if p.u16 o ∈ [addIpAddress, delIpAddress, setPrimAddr] then
    max (o + p.u16 (o + 2)) (innerEnd p (o + 8))
  else o + p.u16 (o + 2)

/-- The variables of the loop. The last four are no variables of the source: how often the reply was
freed, whether it was used after that, where the parameters were and the end of what was read. -/
structure Loop where
  offset : ℕ
  asconfLimit : ℕ
  error : Bool
  assoc : Assoc
  results : List Response
  freed : ℕ
  usedAfterFree : Bool
  visited : List ℕ
  reach : ℕ

namespace Loop

/-- `sctp_m_freem (m_ack)` -/
def freeReply (l : Loop) : Loop :=
  { l with freed := l.freed + 1, usedAfterFree := l.usedAfterFree || l.freed != 0 }

def addResult (l : Loop) : Option Response → Loop
  | none => l
  | some r =>
    { l with
      results := l.results ++ [r]
      error := true
      usedAfterFree := l.usedAfterFree || l.freed != 0 }

end Loop

/-- The `switch` and what follows it. -/
def applyParam (cfg : AsconfConfig) (c : Call) (l : Loop) : Loop :=
  let r := processParam cfg c l.offset l.error l.assoc
  Loop.addResult
    { l with
      assoc := r.1
      asconfLimit := if stops c.packet l.offset then l.offset else l.asconfLimit
      reach := max l.reach (paramEnd c.packet l.offset) } r.2

/-- How one turn of the loop ends: with the next one, with the reply or with a return. -/
inductive Turn where
  | next (l : Loop)
  | sendReply (l : Loop)
  | returned (l : Loop)

def nextParam (p : Bytes) (o : ℕ) : ℕ := o + Bytes.size32 (p.u16 (o + 2))

/-- The end of a turn: another parameter is only looked at if its header is there. -/
def endTurn (c : Call) (l : Loop) : Turn :=
  if l.asconfLimit ≤ nextParam c.packet l.offset then
    .sendReply { l with offset := nextParam c.packet l.offset }
  else if (c.packet.piece (nextParam c.packet l.offset) 8).isNone then
    .sendReply { l with offset := nextParam c.packet l.offset }
  else .next { l with offset := nextParam c.packet l.offset }

def turn (cfg : AsconfConfig) (c : Call) (l : Loop) : Turn :=
  let length := c.packet.u16 (l.offset + 2)
  let l := { l with visited := l.visited ++ [l.offset], reach := max l.reach (l.offset + 4) }
  if l.asconfLimit < l.offset + length then .returned l.freeReply
  else if paramBufferSize < length then .returned l.freeReply
  else
    -- A parameter without a body frees the reply, and the loop goes on.
    let l := if length ≤ 4 then l.freeReply else l
    if (c.packet.piece l.offset length).isNone then .returned l.freeReply
    else endTurn c (applyParam cfg c l)

def loop (cfg : AsconfConfig) (c : Call) : ℕ → Loop → Option Turn
  | 0, _ => none
  | n + 1, l =>
    match turn cfg c l with
    | .next l' => loop cfg c n l'
    | t => some t

/-- The association behind a call. The other fields are no variables of the source. -/
structure Handled where
  assoc : Assoc
  /-- A reply was allocated. -/
  replied : Bool
  stored : Bool
  freed : ℕ
  usedAfterFree : Bool
  visited : List ℕ
  reach : ℕ

def Handled.ignored (s : Assoc) : Handled where
  assoc := s
  replied := false
  stored := false
  freed := 0
  usedAfterFree := false
  visited := []
  reach := 0

/-- What a `return` leaves behind. -/
def Loop.returned (l : Loop) : Handled where
  assoc := l.assoc
  replied := true
  stored := false
  freed := l.freed
  usedAfterFree := l.usedAfterFree
  visited := l.visited
  reach := l.reach

/-- The ASCONF-ACK is saved, and the source address becomes `last_control_chunk_from`. -/
def Assoc.saveReply (s : Assoc) (c : Call) (results : List Response) : Assoc :=
  { s with
    asconfAckSent := s.asconfAckSent ++ [
      { serialNumber := c.serialNumber
        len := 8 + (results.map fun r => Bytes.size32 r.len).sum
        results := results }]
    lastControlChunkFrom :=
      if s.lastControlChunkFrom = none ∧ c.src ∈ s.nets then some c.src else s.lastControlChunkFrom }

def sendReply (c : Call) (l : Loop) : Handled :=
  let l := { l with usedAfterFree := l.usedAfterFree || l.freed != 0 }
  if c.ackAlloc then
    { l.returned with assoc := l.assoc.saveReply c l.results, stored := true }
  else l.freeReply.returned

def Turn.handled (c : Call) : Turn → Handled
  | .sendReply l => Asconf.sendReply c l
  | .next l => l.returned
  | .returned l => l.returned

/-- The ASCONF is taken: the replies to those before it are thrown away if it is the first one of
its packet. -/
def Assoc.take (s : Assoc) (c : Call) : Assoc :=
  { s with
    asconfSeqIn := c.serialNumber
    asconfAckSent :=
      if c.first then s.asconfAckSent.dropWhile fun a => a.serialNumber ≠ c.serialNumber
      else s.asconfAckSent }

/-- Where the first parameter is, behind the one with the lookup address. -/
def Call.firstParam (c : Call) : ℕ := c.offset + 8 + c.packet.u16 (c.offset + 10)

def Call.start (c : Call) (s : Assoc) : Loop where
  offset := c.firstParam
  asconfLimit := c.limit
  error := false
  assoc := s
  results := []
  freed := 0
  usedAfterFree := false
  visited := []
  reach := 0

/-- The part of `sctp_handle_asconf` behind the checks of the serial number. -/
def processAsconf (cfg : AsconfConfig) (c : Call) (s : Assoc) : Option Handled :=
  if !c.replyAlloc then some (.ignored s)
  else if (c.packet.piece (c.offset + 8) 4).isNone then some (c.start s).returned
  else if (c.packet.piece c.firstParam 8).isNone then some (sendReply c (c.start s))
  else (loop cfg c (c.packet.length + 1) (c.start s)).map (Turn.handled c)

def handleAsconf (cfg : AsconfConfig) (c : Call) (s : Assoc) : Option Handled :=
  if c.chunkLength < 8 then some (.ignored s)
  else if tsnGe s.asconfSeqIn c.serialNumber then some (.ignored s)
  else if c.serialNumber ≠ s.asconfSeqIn + 1 then some (.ignored s)
  else processAsconf cfg c (s.take c)

def asconfStep (cfg : AsconfConfig) (s : Assoc) (c : Call) : Option Assoc :=
  (handleAsconf cfg c s).map Handled.assoc

end Sctp.Asconf
