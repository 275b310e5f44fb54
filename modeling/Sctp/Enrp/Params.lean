import Sctp.Lib.Bytes

/-! The parameters of ASAP and ENRP messages as the registrar reads them, `util.c`. What lies behind an
offset is a string of `bufSize` bytes. -/
namespace Sctp.Enrp

def PARAM_IPV4_ADDR : ℕ := 0x0001
def PARAM_IPV6_ADDR : ℕ := 0x0002
def PARAM_SCTP_TRANSPORT : ℕ := 0x0004
def PARAM_TCP_TRANSPORT : ℕ := 0x0005
def PARAM_UDP_TRANSPORT : ℕ := 0x0006
def PARAM_POOL_MEMBER_SELECTION_POLICY : ℕ := 0x0008
def PARAM_POOL_ELEMENT : ℕ := 0x000a

def MAX_ADDR_CNT : ℕ := 32

/-- What a walk through a buffer must not do: read behind its end, take more from `bufSize` than it is,
write behind the end of `addr`, report an output that was not written, or go on for ever. -/
inductive Fault where
  | read
  | wrap
  | overflow
  | undefined
  | endless
deriving DecidableEq, Repr

def read16 (b : Bytes) (o : ℕ) : Except Fault ℕ := if o + 2 ≤ b.length then .ok (b.u16 o) else .error .read

def read32 (b : Bytes) (o : ℕ) : Except Fault ℕ := if o + 4 ≤ b.length then .ok (b.u32 o) else .error .read

def readBytes (b : Bytes) (o n : ℕ) : Except Fault Bytes :=
  if o + n ≤ b.length then .ok (b.read o n) else .error .read

/-- `offset += n; bufSize -= n` -/
def advance (b : Bytes) (n : ℕ) : Except Fault Bytes := if n ≤ b.length then .ok (b.drop n) else .error .wrap

def checkTLV (b : Bytes) : ℕ := if b.length < 4 then 0 else if b.length < b.u16 2 then 0 else b.u16 0

/-- `struct address_struct` -/
inductive Address where
  | in4 (addr : Bytes)
  | in6 (addr : Bytes)
deriving DecidableEq, Repr

/-- The comparisons with `INADDR_LOOPBACK`, as a number of the host with the low byte first, and with
`in6addr_loopback`. -/
def Address.isLoopback : Address → Bool
  | .in4 addr => addr = [1, 0, 0, 127]
  | .in6 addr => addr = List.replicate 15 0 ++ [1]

/-- The sizes of `struct paramIpv4Addr` and `struct paramIpv6Addr`. -/
def Address.size : Address → ℕ
  | .in4 _ => 8
  | .in6 _ => 20

/-- The parameter at the offset, where `checkTLV` takes it for an address, and what lies behind it. -/
def addressAt (b : Bytes) : Except Fault (Option (Address × Bytes)) :=
  if checkTLV b = PARAM_IPV4_ADDR then do
    let b' ← advance b 8
    let addr ← readBytes b 4 4
    return some (.in4 addr, b')
  else if checkTLV b = PARAM_IPV6_ADDR then do
    let b' ← advance b 20
    let addr ← readBytes b 4 16
    return some (.in6 addr, b')
  else return none

/-- The loop over the addresses of an SCTP transport parameter. The count that it is checked against is set
behind the loop only. -/
def parseAddrs (useLoopback : Bool) (len addrCnt : ℕ) :
    ℕ → ℕ → Bytes → List Address → Except Fault (Option (Bytes × List Address))
  | 0, _, _, _ => .error .endless
  | n + 1, pos, b, addr =>
    if pos < len then
      if MAX_ADDR_CNT < addrCnt then .ok (some (b, addr))
      else do
        match ← addressAt b with
        | none => .ok none
        | some (a, b') =>
          if !useLoopback && a.isLoopback then parseAddrs useLoopback len addrCnt n (pos + a.size) b' addr
          else if addr.length < MAX_ADDR_CNT then
            parseAddrs useLoopback len addrCnt n (pos + a.size) b' (addr ++ [a])
          else .error .overflow
    else .ok (some (b, addr))

inductive Protocol where
  | sctp
  | tcp
  | udp
deriving DecidableEq, Repr

/-- What `sendBufferToTransportAddresses` reports, with what it returns. -/
structure TransportAddresses where
  addrs : List Address
  port : ℕ
  /-- As a number of the host. The source leaves it in network order. -/
  transportUse : ℕ
  protocol : Protocol
  length : ℕ
deriving DecidableEq, Repr

/-- The only address of a TCP or UDP transport parameter, if it is there. -/
def oneAddress (b : Bytes) : Except Fault (Option Address × Bytes) := do
  match ← addressAt b with
  | none => return (none, b)
  | some (a, b') => return (some a, b')

/-- `addr[0]` is copied. -/
def written (a : Option Address) : Except Fault Address :=
  match a with
  | none => .error .undefined
  | some a => .ok a

def sendBufferToTransportAddresses (useLoopback : Bool) (b : Bytes) : Except Fault (Option TransportAddresses) :=
  if b.length < 4 then return none
  else if b.u16 0 = PARAM_SCTP_TRANSPORT then
    if checkTLV b = PARAM_SCTP_TRANSPORT then do
      let b' ← advance b 8
      match ← parseAddrs useLoopback (b.u16 2) 0 (b.u16 2 + 1) 8 b' [] with
      | none => return none
      | some (b'', addr) =>
        return some ⟨addr, ← read16 b 4, ← read16 b 6, .sctp, b.length - b''.length⟩
    else return none
  else if b.u16 0 = PARAM_TCP_TRANSPORT then
    if checkTLV b = PARAM_TCP_TRANSPORT then do
      let b' ← advance b 8
      let (a, b'') ← oneAddress b'
      return some ⟨[← written a], ← read16 b 4, 0, .tcp, b.length - b''.length⟩
    else return none
  else if b.u16 0 = PARAM_UDP_TRANSPORT then
    if checkTLV b = PARAM_UDP_TRANSPORT then do
      let b' ← advance b 8
      let (a, b'') ← oneAddress b'
      if b''.length ≠ 0 then return none
      else return some ⟨[← written a], ← read16 b 4, 0, .udp, b.length - b''.length⟩
    else return none
  else return none

/-- `struct pool_element_struct` as far as it is read from a message. -/
structure PoolElement where
  peIdentifier : ℕ
  peHomeRegistrarServer : ℕ
  peRegistrationLife : ℕ
  peUserTransportProtocol : Protocol
  peUserTransportPort : ℕ
  peUserTransportAddr : List Address
  peUserTransportUse : ℕ
  peAsapTransportPort : ℕ
  peAsapTransportAddr : List Address
  pePolicyID : ℕ
  pePolicyWeightLoad : ℕ
  pePolicyLoadDegradation : ℕ
deriving DecidableEq, Repr

/-- The element that is made of the parameter `b`, its user transport and its policy. -/
def initPoolElement (b policy : Bytes) (user : TransportAddresses) : Except Fault PoolElement := do
  return {
    peIdentifier := ← read32 b 4
    peRegistrationLife := ← read32 b 12
    peHomeRegistrarServer := ← read32 b 8
    peUserTransportUse := user.transportUse
    peUserTransportProtocol := user.protocol
    peUserTransportPort := user.port
    peUserTransportAddr := user.addrs
    peAsapTransportPort := user.port
    peAsapTransportAddr := user.addrs
    pePolicyID := ← read32 policy 4
    pePolicyWeightLoad := ← (if 12 ≤ policy.u16 2 then read32 policy 8 else .ok 0)
    pePolicyLoadDegradation := ← (if 16 ≤ policy.u16 2 then read32 policy 12 else .ok 0) }

def asapTransport (useLoopback : Bool) (b : Bytes) : Except Fault (Option Bytes) :=
  if 0 < b.length then do
    match ← sendBufferToTransportAddresses useLoopback b with
    | none => return none
    | some asap => return some (← advance b asap.length)
  else return some b

/-- `sendBufferToPoolElement`; `alloc` tells whether `poolElementNew` succeeds. -/
def sendBufferToPoolElement (useLoopback alloc : Bool) (b : Bytes) :
    Except Fault (Option (ℕ × Option PoolElement)) :=
  if checkTLV b = PARAM_POOL_ELEMENT then do
    let b₁ ← advance b 16
    match ← sendBufferToTransportAddresses useLoopback b₁ with
    | none => return none
    | some user =>
      let b₂ ← advance b₁ user.length
      if checkTLV b₂ = PARAM_POOL_MEMBER_SELECTION_POLICY then
        let b₃ ← advance b₂ (b₂.u16 2)
        match ← asapTransport useLoopback b₃ with
        | none => return none
        | some b₄ =>
          let pe ← if alloc then (initPoolElement b b₂ user).map some else .ok none
          return some (b.length - b₄.length, pe)
      else return none
  else return none

end Sctp.Enrp
