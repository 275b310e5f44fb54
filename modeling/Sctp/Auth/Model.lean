import Sctp.Lib.Tlv

/-! The key vectors of AUTH: what both ends build from RANDOM, CHUNKS and HMAC-ALGO. -/
namespace Sctp.Auth

open Tlv (Param)

def paramBufferSize : ℕ := 512
def authRandomSize : ℕ := 32

def heartbeatInfo : ℕ := 0x0001
def ipv4Address : ℕ := 0x0005
def ipv6Address : ℕ := 0x0006
def stateCookie : ℕ := 0x0007
def unrecogParam : ℕ := 0x0008
def cookiePreserve : ℕ := 0x0009
def supportedAddrtype : ℕ := 0x000c
def ecnCapable : ℕ := 0x8000
def randomParam : ℕ := 0x8002
def chunkList : ℕ := 0x8003
def hmacList : ℕ := 0x8004
def supportedChunkExt : ℕ := 0x8008
def prsctpSupported : ℕ := 0xc000
def addIpAddress : ℕ := 0xc001
def delIpAddress : ℕ := 0xc002
def errorCauseInd : ℕ := 0xc003
def setPrimAddr : ℕ := 0xc004
def successReport : ℕ := 0xc005
def ulpAdaptation : ℕ := 0xc006
def hasNatSupport : ℕ := 0xc007

def authTypes : List ℕ := [randomParam, hmacList, chunkList]

/-- Types that `sctp_load_addresses_from_init` can return an error for, AUTH apart. -/
def addressTypes : List ℕ := [ipv4Address, ipv6Address, setPrimAddr]

def quietTypes : List ℕ :=
  [ecnCapable, ulpAdaptation, hasNatSupport, prsctpSupported, heartbeatInfo, stateCookie,
    unrecogParam, cookiePreserve, supportedAddrtype, addIpAddress, delIpAddress, errorCauseInd,
    successReport]

/-- `sctp_key_t`. Whether a byte was copied behind its end is no field of the source. -/
structure Key where
  bytes : Bytes
  overflow : Bool
deriving DecidableEq, Repr

namespace Key

/-- `sctp_alloc_key`; what is in the memory is not known. -/
def alloc (garbage : ℕ → BitVec 8) (keylen : ℕ) : Key where
  bytes := (List.range keylen).map garbage
  overflow := false

/-- `bcopy` into the key. -/
def copyIn (k : Key) (o : ℕ) (src : Bytes) : Key where
  bytes := (k.bytes.take o ++ (src ++ k.bytes.drop (o + src.length))).take k.bytes.length
  overflow := k.overflow || k.bytes.length < o + src.length

@[simp] theorem length_alloc (garbage : ℕ → BitVec 8) (n : ℕ) : (alloc garbage n).bytes.length = n := by
  simp [alloc]

@[simp] theorem length_copyIn (k : Key) (o : ℕ) (src : Bytes) :
    (k.copyIn o src).bytes.length = k.bytes.length := by
  simp only [copyIn, List.length_take, List.length_append, List.length_drop]
  omega

end Key

/-- `random_len`, `hmacs_len` or `num_chunks` of a parameter, a number of 16 bits that wraps for a
length below 4. -/
def bodyLen (x : Param) : ℕ := if 4 ≤ x.plen then x.plen - 4 else x.plen + 65532

/-- The parameter as it is copied. Bytes behind the end of the packet count as zero. -/
def source (p : Bytes) (x : Param) : Bytes := p.read x.offset (4 + bodyLen x)

/-- The parameters that `p_random`, `hmacs` and `chunks` point to. -/
structure Found where
  random : Option Param
  hmacs : Option Param
  chunks : Option Param
deriving DecidableEq, Repr

namespace Found

def none : Found := ⟨.none, .none, .none⟩

/-- `keylen` at first. A header of RANDOM and of HMAC-ALGO is counted also if there is none. -/
def keylen (f : Found) : ℕ :=
  4 + (f.random.map bodyLen).getD 0 + 4 + (f.hmacs.map bodyLen).getD 0 +
    (f.chunks.map fun x => 4 + bodyLen x).getD 0

/-- The key with RANDOM in it, and `keylen` behind that. -/
def copyRandom (f : Found) (p : Bytes) (k : Key) : Key × ℕ :=
  match f.random with
  | .none => (k, f.keylen)
  | some x => (k.copyIn 0 (source p x), 4 + bodyLen x)

def copyChunks (f : Found) (p : Bytes) (k : Key × ℕ) : Key × ℕ :=
  match f.chunks with
  | .none => k
  | some x => (k.1.copyIn k.2 (source p x), k.2 + (4 + bodyLen x))

def copyHmacs (f : Found) (p : Bytes) (k : Key × ℕ) : Key :=
  match f.hmacs with
  | .none => k.1
  | some x => k.1.copyIn k.2 (source p x)

/-- The full random key, the same code in both functions. -/
def concatKey (f : Found) (garbage : ℕ → BitVec 8) (p : Bytes) : Key :=
  f.copyHmacs p (f.copyChunks p (f.copyRandom p (.alloc garbage f.keylen)))

end Found

/-- How one turn of a loop ends: with the next one, with a `break` or with a return. -/
inductive Turn (σ : Type) where
  | go (s : σ)
  | stop
  | ret (code : ℤ)

def scan {σ : Type} (f : Param → σ → Turn σ) : List Param → σ → Except ℤ σ
  | [], s => .ok s
  | x :: xs, s =>
    match f x s with
    | .go s' => scan f xs s'
    | .stop => .ok s
    | .ret code => .error code

/-- `sctp_get_next_param` for a parameter and a buffer of 512 bytes fails. -/
def unreadable (p : Bytes) (x : Param) : Bool := (p.piece x.offset (min x.plen paramBufferSize)).isNone

structure LoadState extends Found where
  sawAsconf : Bool
  sawAsconfAck : Bool
  peerSupportsAuth : Bool
  peerSupportsAsconf : Bool

def LoadState.start : LoadState := ⟨.none, false, false, false, false⟩

/-- What it depends on beside the packet: how it comes to the loop, what it returns for an address or
a SET-PRIMARY parameter, the allocation of the key and what is in its memory. -/
structure LoadEnv where
  startRet : ℤ
  paramRet : Param → ℤ
  keyAlloc : Bool
  garbage : ℕ → BitVec 8

def chunkAsconf : BitVec 8 := 0xc1
def chunkAsconfAck : BitVec 8 := 0x80
def chunkAuthentication : BitVec 8 := 0x0f

def body (p : Bytes) (x : Param) : Bytes := p.read (x.offset + 4) (x.plen - 4)

/-- `SCTP_SUPPORTED_CHUNK_EXT` -/
def LoadState.readExt (s : LoadState) (p : Bytes) (x : Param) : LoadState :=
  { s with
    peerSupportsAuth := s.peerSupportsAuth || (body p x).contains chunkAuthentication
    peerSupportsAsconf := s.peerSupportsAsconf || (body p x).contains chunkAsconf }

/-- `SCTP_CHUNK_LIST` -/
def LoadState.readChunks (s : LoadState) (p : Bytes) (x : Param) : LoadState :=
  { s with
    chunks := some x
    sawAsconf := s.sawAsconf || (p.read (x.offset + 4) (bodyLen x)).contains chunkAsconf
    sawAsconfAck := s.sawAsconfAck || (p.read (x.offset + 4) (bodyLen x)).contains chunkAsconfAck }

/-- `sctp_verify_hmac_param`: SHA-1 is in the list. -/
def verifyHmacParam (p : Bytes) (x : Param) : Bool :=
  (List.range (bodyLen x / 2)).any fun i => p.u16 (x.offset + 4 + 2 * i) = 1

def loadParam (e : LoadEnv) (p : Bytes) (x : Param) (s : LoadState) : Turn LoadState :=
  if x.type ∈ addressTypes then
    if e.paramRet x ≠ 0 then .ret (e.paramRet x) else .go s
  else if x.type = supportedChunkExt then
    if unreadable p x then .ret (-25) else .go (s.readExt p x)
  else if x.type = randomParam then
    if paramBufferSize < x.plen then .stop
    else if s.random.isSome then .go s
    else if unreadable p x then .ret (-26)
    else if bodyLen x ≠ authRandomSize then .ret (-27)
    else .go { s with random := some x }
  else if x.type = hmacList then
    if paramBufferSize < x.plen then .stop
    else if s.hmacs.isSome then .go s
    else if unreadable p x then .ret (-28)
    else if verifyHmacParam p x then .go { s with hmacs := some x }
    else .ret (-29)
  else if x.type = chunkList then
    if paramBufferSize < x.plen then .stop
    else if s.chunks.isSome then .go s
    else if unreadable p x then .ret (-30)
    else .go (s.readChunks p x)
  else if x.type ∈ quietTypes then .go s
  else if x.type < 0x8000 then .stop
  else .go s

def LoadState.check (s : LoadState) : ℤ :=
  if !s.peerSupportsAuth && s.chunks.isSome then -31
  else if s.peerSupportsAsconf && !s.peerSupportsAuth then -32
  else if s.peerSupportsAsconf && s.peerSupportsAuth && (!s.sawAsconf || !s.sawAsconfAck) then -33
  else 0

/-- The association behind a call. The overflow is that of the new key. -/
structure Loaded where
  ret : ℤ
  authSupported : Bool
  peerRandom : Option Bytes
  overflow : Bool

def loadParams (p : Bytes) (o limit : ℕ) : List Param := Tlv.walk 1 p limit (p.length + 1) o

def loadKey (e : LoadEnv) (p : Bytes) (authSupported : Bool) (old : Option Bytes) (s : LoadState) :
    Loaded :=
  let auth := authSupported && (s.peerSupportsAuth && s.random.isSome && s.hmacs.isSome)
  if s.check ≠ 0 then ⟨s.check, auth, old, false⟩
  else if !e.keyAlloc then ⟨-34, auth, old, false⟩
  else
    let k := s.concatKey e.garbage p
    ⟨0, auth, some k.bytes, k.overflow⟩

/-- `sctp_load_addresses_from_init`, as far as AUTH goes. -/
def loadAddressesFromInit (e : LoadEnv) (p : Bytes) (o limit : ℕ) (authSupported : Bool)
    (old : Option Bytes) : Loaded :=
  if e.startRet ≠ 0 then ⟨e.startRet, authSupported, old, false⟩
  else
    match scan (loadParam e p) (loadParams p o limit) .start with
    | .error code => ⟨code, authSupported, old, false⟩
    | .ok s => loadKey e p authSupported old s

/-- One turn of the loop. A later parameter takes the place of an earlier one. -/
def cookieParam (p : Bytes) (x : Param) (f : Found) : Turn Found :=
  if x.type = randomParam then
    if paramBufferSize < x.plen then .stop
    else if unreadable p x then .ret 0
    else .go { f with random := some x }
  else if x.type = hmacList then
    if paramBufferSize < x.plen then .stop
    else if unreadable p x then .ret 0
    else .go { f with hmacs := some x }
  else if x.type = chunkList then
    if paramBufferSize < x.plen then .stop
    else if unreadable p x then .ret 0
    else .go { f with chunks := some x }
  else .go f

def cookieParams (p : Bytes) (o limit : ℕ) : List Param := Tlv.walk 4 p limit (p.length + 1) o

/-- `sctp_auth_get_cookie_params`: `random` of the association and whether its key was overrun. -/
def authGetCookieParams (alloc : Bool) (garbage : ℕ → BitVec 8) (p : Bytes) (o limit : ℕ)
    (old : Option Bytes) : Option Bytes × Bool :=
  match scan (cookieParam p) (cookieParams p o limit) .none with
  | .error _ => (old, false)
  | .ok f =>
    if alloc then (some (f.concatKey garbage p).bytes, (f.concatKey garbage p).overflow)
    else (none, false)

/-- `sctp_hmaclist_t`; only SHA-1 and SHA-256 can be added, each once. -/
structure HmacList where
  ids : List ℕ
  known : ∀ id ∈ ids, id = 1 ∨ id = 3
  nodup : ids.Nodup

/-- `sctp_serialize_hmaclist` -/
def HmacList.serialize (l : HmacList) : Bytes := (l.ids.map Bytes.enc16).flatten

/-- `sctp_auth_chklist_t` -/
structure ChunkList where
  chunks : ℕ → Bool
  numChunks : ℕ
  counted : numChunks = ((List.range 256).filter chunks).length

/-- `sctp_serialize_auth_chunks` -/
def ChunkList.serialize (l : ChunkList) : Bytes :=
  ((List.range 256).filter l.chunks).map (BitVec.ofNat 8)

def paramhdr (type plen : ℕ) : Bytes := Bytes.enc16 type ++ Bytes.enc16 plen

/-- `hmacs_len` and the bytes behind it; nothing is written for no list. -/
def hmacBytes : Option HmacList → Bytes
  | none => []
  | some l => l.serialize

def chunkBytes : Option ChunkList → Bytes
  | none => []
  | some l => l.serialize

structure LocalAuth where
  random : Option Key
  localHmacs : Option HmacList
  localAuthChunks : Option ChunkList

/-- The key of `sctp_initialize_auth_params`: RANDOM, then CHUNKS, which is always there, then
HMAC-ALGO. -/
def initialKey (garbage : ℕ → BitVec 8) (rnd : Vector (BitVec 8) 32) (hmacs : Option HmacList)
    (chunks : Option ChunkList) : Key :=
  let hmacsLen := (hmacBytes hmacs).length
  let chunksLen := (chunkBytes chunks).length
  let k := Key.alloc garbage (3 * 4 + authRandomSize + chunksLen + hmacsLen)
  let k := (k.copyIn 0 (paramhdr randomParam (4 + authRandomSize))).copyIn 4 rnd.toList
  let o := 4 + authRandomSize
  let k := (k.copyIn o (paramhdr chunkList (4 + chunksLen))).copyIn (o + 4) (chunkBytes chunks)
  let o := o + 4 + chunksLen
  (k.copyIn o (paramhdr hmacList (4 + hmacsLen))).copyIn (o + 4) (hmacBytes hmacs)

/-- `sctp_initialize_auth_params`; a list that could not be copied is missing. -/
def initializeAuthParams (keyAlloc : Bool) (garbage : ℕ → BitVec 8) (rnd : Vector (BitVec 8) 32)
    (hmacs : Option HmacList) (chunks : Option ChunkList) : LocalAuth where
  random := if keyAlloc then some (initialKey garbage rnd hmacs chunks) else none
  localHmacs := hmacs
  localAuthChunks := chunks

/-- The parameters that `sctp_send_initiate` writes for AUTH, without their padding. -/
def initAuthParams (authSupported : Bool) (l : LocalAuth) : List Bytes :=
  if authSupported then
    (l.random.map fun k => k.bytes.take (4 + authRandomSize)).toList ++
      ((l.localHmacs.map fun h => paramhdr hmacList (4 + 2 * h.ids.length) ++ h.serialize).toList ++
        (l.localAuthChunks.map fun c => paramhdr chunkList (4 + c.numChunks) ++ c.serialize).toList)
  else []

/-- The same for `sctp_send_initiate_ack`, which writes all three. -/
def initAckAuthParams (authSupported : Bool) (rnd : Vector (BitVec 8) 32)
    (hmacs : Option HmacList) (chunks : Option ChunkList) : List Bytes :=
  if authSupported then
    [paramhdr randomParam (4 + authRandomSize) ++ rnd.toList,
      paramhdr hmacList (4 + (hmacBytes hmacs).length) ++ hmacBytes hmacs,
      paramhdr chunkList (4 + (chunkBytes chunks).length) ++ chunkBytes chunks]
  else []

/-- The parameters of an INIT or an INIT-ACK: those of AUTH between the others. -/
def paramList (before others : List Tlv) (auth : List Bytes) : List Bytes :=
  before.map Tlv.bytes ++ (auth ++ others.map Tlv.bytes)

def written (bs : List Bytes) : Bytes := (bs.map Bytes.pad).flatten

/-- `chunk_length` does not count the padding of the last parameter. -/
def writtenLength : List Bytes → ℕ
  | [] => 0
  | [b] => b.length
  | b :: bs => Bytes.size32 b.length + writtenLength bs

/-- A limit behind the last parameter, with its padding or without it. -/
def EndsAt (o : ℕ) (bs : List Bytes) (limit : ℕ) : Prop :=
  o + writtenLength bs ≤ limit ∧ limit ≤ o + (written bs).length

end Sctp.Auth
